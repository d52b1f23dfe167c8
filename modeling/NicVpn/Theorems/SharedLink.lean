import NicVpn.Theorems.SocksLink

/-! Shared links of SOCKS, VLESS and TROJAN servers. A stored server is read from its link again if every part of it keeps
    its place there: user info, flow, names and service are written as they are, what is coded is decoded twice, and
    the remarks of a URI once more. -/

namespace NicVpn.V2ray
open NicVpn.Utils

namespace AngConfigManager

/-! ### The type of what is imported -/

section ConfigType
variable {lib : Libraries} {allowInsecure : Bool} {str : List Char} {c : ServerConfig}

theorem configType_importVmess (h : importVmess lib allowInsecure str = .ok c) : c.configType = .vmess := by
  unfold importVmess at h
  dsimp only at h
  split at h
  · cases h
    rfl
  · split at h
    · unfold tryResolveVmess4Kitsunebi at h
      dsimp only at h
      split at h
      · split at h
        · split at h
          · cases h
            rfl
          · cases h
        · cases h
      · cases h
    · split at h
      · cases h
      · split at h
        · cases h
        · obtain ⟨-, rfl⟩ := ofVmessQRCode_eq.mp h
          rfl

theorem configType_cutRemarks (config : ServerConfig) (s : List Char) :
    (cutRemarks config s).1.configType = config.configType := by
  obtain ⟨remarks, hremarks⟩ := cutRemarks_config config s
  rw [hremarks]

theorem configType_tryResolveResolveSip002 (lib : Libraries) (str : List Char) (config : ServerConfig) :
    (tryResolveResolveSip002 lib str config).1.configType = config.configType := by
  unfold tryResolveResolveSip002
  split
  · rfl
  · dsimp only
    split <;> rfl

theorem configType_importShadowsocks (h : importShadowsocks lib str = .ok c) : c.configType = .shadowsocks := by
  unfold importShadowsocks at h
  have htype := configType_tryResolveResolveSip002 lib str (ServerConfig.create .shadowsocks)
  generalize tryResolveResolveSip002 lib str (ServerConfig.create .shadowsocks) = p at h htype
  obtain ⟨config, resolved⟩ := p
  dsimp only at h htype
  split at h
  · cases h
    exact htype
  · have hcut := configType_cutRemarks config (Text.replace (scheme .shadowsocks) [] str)
    generalize cutRemarks config (Text.replace (scheme .shadowsocks) [] str) = q at h hcut
    obtain ⟨config', result⟩ := q
    dsimp only at h hcut
    split at h
    · cases h
    · obtain ⟨port, -, h⟩ := get_bind_ok h
      cases h
      exact hcut.trans htype

/-- Every link is imported as a server of its own protocol. -/
theorem configType_parseLink {t : EConfigType} (h : parseLink lib allowInsecure t str = .ok c) : c.configType = t := by
  cases t with
  | vmess => exact configType_importVmess h
  | custom => cases h
  | shadowsocks => exact configType_importShadowsocks h
  | socks =>
    obtain ⟨_, _, _, -, -, rfl⟩ := importSocks_eq_ok h
    rfl
  | vless =>
    obtain ⟨_, _, _, _, _, _, -, rfl⟩ := stored_vless h
    rfl
  | trojan =>
    obtain ⟨_, _, _, _, _, -, rfl⟩ := stored_trojan h
    rfl
  | wireguard => cases h

theorem importedConfig_eq_ok {subid : List Char} (h : importedConfig lib allowInsecure str subid = .ok c) :
    ∃ c₀, parseLink lib allowInsecure c.configType str = .ok c₀ ∧ c = { c₀ with subscriptionId := subid } := by
  unfold importedConfig at h
  split at h
  · rename_i t _
    cases hc : parseLink lib allowInsecure t str with
    | error e =>
      rw [hc] at h
      cases h
    | ok c₀ =>
      rw [hc] at h
      cases h
      refine ⟨c₀, ?_, rfl⟩
      have htype : c₀.configType = t := configType_parseLink hc
      rw [← hc, ← htype]
  · cases h

theorem importedConfig_of_parseLink {t : EConfigType} {subid : List Char}
    (hfind : NicVpn.AngConfigManager.schemes.find? (fun t => (scheme t).isPrefixOf str) = some t)
    (h : parseLink lib allowInsecure t str = .ok c) :
    importedConfig lib allowInsecure str subid = .ok { c with subscriptionId := subid } := by
  rw [importedConfig, hfind]
  dsimp only
  rw [h]
  rfl

end ConfigType

/-! ### The same server -/

/-- The server has the same parts as the other. -/
structure SameLink (c c' : ServerConfig) : Prop where
  configType : c'.configType = c.configType
  remarks : c'.remarks = c.remarks
  address : c'.getServerAddress = c.getServerAddress
  port : c'.getServerPort = c.getServerPort
  password : c'.getPassword = c.getPassword
  user : (c'.outboundBean.servers.bind (·.users)).map (·.user) = (c.outboundBean.servers.bind (·.users)).map (·.user)
  encryption : c'.getSecurityEncryption = c.getSecurityEncryption
  flow : flowText c' = flowText c
  stream : SameStream c.outboundBean.streamSettings c'.outboundBean.streamSettings

/-- What a configuration has to be for its link to give it again. -/
def KeptLink (c : ServerConfig) : Prop := if c.configType = .socks then KeptSocks c else KeptServer c

theorem SameStream.refl (s : StreamSettingsBean) : SameStream s s := ⟨⟨rfl, rfl, rfl, rfl, rfl, rfl, rfl⟩, rfl, rfl, rfl⟩

section Link
variable {lib : Libraries} {allowInsecure : Bool} {str subid : List Char} {c c₀ : ServerConfig}

theorem socks_again (hlib : lib.Lawful) (h : importSocks lib str = .ok c₀) (hk : KeptSocks { c₀ with subscriptionId := subid })
    (allowInsecure' : Bool) (subid' : List Char) :
    ∃ c', importedConfig lib allowInsecure' (shareConfig lib { c₀ with subscriptionId := subid }) subid' = .ok c' ∧
      SameLink { c₀ with subscriptionId := subid } c' := by
  obtain ⟨remarks, address, port, user, pass, rfl, hback⟩ := importSocks_shared hlib h
  have hshared := hback subid hk
  have hfind : NicVpn.AngConfigManager.schemes.find?
      (fun t => (scheme t).isPrefixOf (shareConfig lib (socksConfig subid remarks address port user pass))) =
        some .socks := by
    rw [shareConfig_socks]
    rfl
  have hparse : parseLink lib allowInsecure' .socks (shareConfig lib (socksConfig subid remarks address port user pass)) =
      .ok (socksConfig [] remarks address port user pass) := hshared
  exact ⟨_, importedConfig_of_parseLink hfind hparse, rfl, rfl, rfl, rfl, rfl, rfl, rfl, rfl, SameStream.refl _⟩

theorem trojan_again (hlib : ∀ l, (lib.hashOrder l).Perm l) (h : importTrojan allowInsecure str = .ok c₀)
    (hk : KeptServer { c₀ with subscriptionId := subid }) (allowInsecure' : Bool) (subid' : List Char) :
    ∃ c', importedConfig lib allowInsecure' (shareConfig lib { c₀ with subscriptionId := subid }) subid' = .ok c' ∧
      SameLink { c₀ with subscriptionId := subid } c' := by
  obtain ⟨server, remarks, pw, flow, s, hs, rfl⟩ := stored_trojan h
  obtain ⟨s', hback, hsame⟩ := importTrojan_shared hlib hs hk allowInsecure'
  have hfind : NicVpn.AngConfigManager.schemes.find? (fun t => (scheme t).isPrefixOf
      (shareConfig lib (trojanConfig subid remarks (idnHost server.host) server.port pw flow s))) = some .trojan := by
    rw [(serverOf_trojan hs).shareConfig_eq]
    rfl
  have hparse : parseLink lib allowInsecure' .trojan
      (shareConfig lib (trojanConfig subid remarks (idnHost server.host) server.port pw flow s)) =
        .ok (trojanConfig [] remarks (idnHost server.host) server.port pw flow s') := hback
  exact ⟨_, importedConfig_of_parseLink hfind hparse, rfl, rfl, rfl, rfl, rfl, rfl, rfl, rfl, hsame⟩

theorem vless_again (hlib : ∀ l, (lib.hashOrder l).Perm l) (h : importVless allowInsecure str = .ok c₀)
    (hk : KeptServer { c₀ with subscriptionId := subid }) (allowInsecure' : Bool) (subid' : List Char) :
    ∃ c', importedConfig lib allowInsecure' (shareConfig lib { c₀ with subscriptionId := subid }) subid' = .ok c' ∧
      SameLink { c₀ with subscriptionId := subid } c' := by
  obtain ⟨server, remarks, id, encryption, flow, s, hs, rfl⟩ := stored_vless h
  obtain ⟨s', hback, hsame⟩ := importVless_shared hlib hs hk allowInsecure'
  have hfind : NicVpn.AngConfigManager.schemes.find? (fun t => (scheme t).isPrefixOf
      (shareConfig lib (vlessConfig subid remarks (idnHost server.host) server.port id encryption flow s))) =
        some .vless := by
    rw [(serverOf_vless hs).shareConfig_eq]
    rfl
  have hparse : parseLink lib allowInsecure' .vless
      (shareConfig lib (vlessConfig subid remarks (idnHost server.host) server.port id encryption flow s)) =
        .ok (vlessConfig [] remarks (idnHost server.host) server.port id encryption flow s') := hback
  exact ⟨_, importedConfig_of_parseLink hfind hparse, rfl, rfl, rfl, rfl, rfl, rfl, rfl, rfl, hsame⟩

/-- A SOCKS, VLESS or TROJAN server whose parts keep their places is read from its link again. -/
theorem server_link_comes_back (hlib : lib.Lawful) (himport : importedConfig lib allowInsecure str subid = .ok c)
    (htype : c.configType = .socks ∨ c.configType = .vless ∨ c.configType = .trojan) (hk : KeptLink c)
    (allowInsecure' : Bool) (subid' : List Char) :
    ∃ c', importedConfig lib allowInsecure' (shareConfig lib c) subid' = .ok c' ∧ SameLink c c' := by
  obtain ⟨c₀, hparse, hc⟩ := importedConfig_eq_ok himport
  unfold KeptLink at hk
  rcases htype with htype | htype | htype
  · rw [htype] at hparse
    rw [if_pos htype, hc] at hk
    rw [hc]
    exact socks_again hlib hparse hk allowInsecure' subid'
  · have hno : ¬c.configType = .socks := by
      rw [htype]
      decide
    rw [htype] at hparse
    rw [if_neg hno, hc] at hk
    rw [hc]
    exact vless_again hlib.hashOrder_perm hparse hk allowInsecure' subid'
  · have hno : ¬c.configType = .socks := by
      rw [htype]
      decide
    rw [htype] at hparse
    rw [if_neg hno, hc] at hk
    rw [hc]
    exact trojan_again hlib.hashOrder_perm hparse hk allowInsecure' subid'

end Link

/-! ### A link that comes back, and one that does not -/

/-- A character stays, or it becomes a small letter. -/
theorem toLower_cases (c : Char) : c.toLower = c ∨ (97 ≤ c.toLower.toNat ∧ c.toLower.toNat ≤ 122) := by
  by_cases h : c.val ≥ 'A'.val ∧ c.val ≤ 'Z'.val
  · have hlo : 65 ≤ c.val.toNat := h.1
    have hhi : c.val.toNat ≤ 90 := h.2
    have hval : c.toLower.val = c.val + ('a'.val - 'A'.val) := by
      unfold Char.toLower
      rw [dif_pos h]
    have hdiff : ('a'.val - 'A'.val).toNat = 32 := rfl
    have hnat : c.toLower.toNat = c.val.toNat + 32 := by
      rw [Char.toNat, hval, UInt32.toNat_add, hdiff, Nat.mod_eq_of_lt (by omega)]
    exact .inr ⟨by omega, by omega⟩
  · exact .inl (dif_neg h)

theorem toLower_toLower (c : Char) : c.toLower.toLower = c.toLower := by
  rcases toLower_cases c with heq | ⟨hlo, -⟩
  · exact congrArg Char.toLower heq
  · refine dif_neg fun h => ?_
    have hhi : c.toLower.toNat ≤ 90 := h.2
    omega

theorem dot_toLower {c : Char} (h : Backtrack.dot c = true) : Backtrack.dot c.toLower = true := by
  rcases toLower_cases c with heq | ⟨hlo, hhi⟩
  · rwa [heq]
  · simp only [Backtrack.dot, Bool.and_eq_true, bne_iff_ne]
    omega

theorem plainLibraries_lawful : plainLibraries.Lawful where
  base64Decode_encode := Base64.decode_encodeNoWrap
  hashOrder_perm := List.Perm.refl
  lowercase_lowercase s := by
    show (s.map Char.toLower).map Char.toLower = s.map Char.toLower
    rw [List.map_map]
    exact List.map_congr_left fun c _ => toLower_toLower c
  lowercase_dot s h := by
    intro c hc
    obtain ⟨d, hd, rfl⟩ := List.mem_map.mp hc
    exact dot_toLower (h d hd)

/-- A server behind a web socket, and the link that it is imported from. -/
def socketLink : List Char :=
  "trojan://pa55@example.com:443?type=ws&path=%2Fchat&host=cdn.example&security=tls&sni=example&flow=direct#Nica".toList

def socketServer : ServerConfig :=
  trojanConfig [] "Nica".toList "example.com".toList 443 "pa55".toList "direct".toList
    { network := "ws".toList, security := tls
      wsSettings := some { path := "/chat".toList, Host := "cdn.example".toList }
      tlsSettings := some { serverName := "example".toList } }

theorem keptServer_socketServer : KeptServer socketServer where
  remarks := .inl (by unfold Plain; decide)
  address := by
    rintro _ ⟨⟩
    decide
  port := by
    rintro _ ⟨⟩
    decide
  user := by
    rintro _ ⟨⟩
    exact Text.forall_of_all (by decide)
  flow := kept_of_alpha (Text.forall_of_all (by decide))
  encryption := nofun
  transport :=
    { network := ⟨by decide, kept_of_alpha (Text.forall_of_all (by decide))⟩
      tcp := nofun
      kcp := nofun
      ws := by
        rintro _ ⟨⟩
        unfold Plain
        decide
      http := nofun
      quic := nofun
      grpc := nofun }
  tls :=
    { security := kept_of_alpha (Text.forall_of_all (by decide))
      serverName := by
        rintro _ ⟨⟩
        exact kept_of_alpha (Text.forall_of_all (by decide))
      nameless := by
        rintro _ ⟨⟩ h
        exact absurd h (by decide)
      alpn := by
        rintro _ ⟨⟩
        nofun }

theorem server_link_comes_back_socket :
    ∃ c', importedConfig plainLibraries false (shareConfig plainLibraries socketServer) [] = .ok c' ∧
      SameLink socketServer c' := by
  have himport : importedConfig plainLibraries false socketLink [] = .ok socketServer := by
    unfold socketLink
    rw [String.toList_ofList]
    decide
  exact server_link_comes_back plainLibraries_lawful himport (.inr (.inr rfl)) keptServer_socketServer false []

/-- A slash in a password ends the server of its link. -/
theorem slash_in_password_lost :
    let c := trojanConfig [] "Home".toList "example.com".toList 443 "a/b".toList []
      { security := tls, tlsSettings := some {} }
    importedConfig plainLibraries false "trojan://a%2Fb@example.com:443#Home".toList [] = .ok c ∧
      ¬∃ c', importedConfig plainLibraries false (shareConfig plainLibraries c) [] = .ok c' ∧ SameLink c c' := by
  refine ⟨by decide +kernel, ?_⟩
  rintro ⟨c', himport, -⟩
  have hfails : importedConfig plainLibraries false "trojan://a/b@example.com:443?security=tls&type=tcp#Home".toList [] =
      .error .exception := by
    rw [String.toList_ofList]
    decide
  exact nomatch hfails.symm.trans himport

end AngConfigManager
end NicVpn.V2ray
