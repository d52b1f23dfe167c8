import NicVpn.Theorems.Ipv6Recogniser
import NicVpn.Theorems.LinkStream

/-! Links of TROJAN and VLESS servers. A shared link is read as the URI that it was written as, if user info, host, port
    and parameters keep their places in it. -/

namespace NicVpn.V2ray
namespace AngConfigManager
open NicVpn.Utils

/-! ### The URI of a link -/

/-- A password or an id that comes back as the user info of a link: without an escape, and without a separator. -/
def KeptUser (pw : List Char) : Prop := ∀ c ∈ pw, c = ' ' ∨ c = '|' ∨ (Uri.isUserInfoChar c || Uri.isOther c) = true

theorem KeptUser.legal {pw : List Char} (h : KeptUser pw) : Uri.legal Uri.isUserInfoChar (fixIllegalUrl pw) = true := by
  have hpercent : '%' ∉ pw := fun hmem => absurd (h _ hmem) (by decide)
  refine Uri.legal_iff.mpr ⟨_, coded_fixIllegalUrl hpercent, fun c hc => ?_⟩
  obtain ⟨d, hd, hfix⟩ := List.mem_map.mp hc
  unfold fixPiece at hfix
  split at hfix
  · cases hfix
  · rename_i hblank
    split at hfix
    · cases hfix
    · rename_i hbar
      cases hfix
      exact ((h c hd).resolve_left hblank).resolve_left hbar

theorem KeptUser.decoded {pw : List Char} (h : KeptUser pw) : Uri.decoded (fixIllegalUrl pw) = pw := by
  have hpercent : '%' ∉ pw := fun hmem => absurd (h _ hmem) (by decide)
  rw [Uri.decoded, Percent.decode, (coded_fixIllegalUrl hpercent).pieces_eq, Option.map_some, text_fixPiece, Option.getD_some]

section Parse
variable {sch pw host port q remarks : List Char} {n : Int}

theorem port_chars (hn : 0 ≤ n) : (∀ c ∈ (toString n).toList, Uri.isDigit c = true) ∧ (toString n).toList ≠ [] :=
  ⟨fun c hc => (Uri.isDigit_eq c).trans (Text.isDigit_of_mem_toString hn hc), Text.toString_ne_nil n⟩

theorem not_mem_port (hn : 0 ≤ n) {c : Char} (hc : Uri.isDigit c = false) : c ∉ (toString n).toList := fun hmem =>
  Bool.false_ne_true (hc.symm.trans ((port_chars hn).1 c hmem))

theorem parsePort_toString (hn : 0 ≤ n) (hmax : n ≤ 2147483647) : Uri.parsePort (':' :: (toString n).toList) = some n := by
  obtain ⟨hdigits, hne⟩ := port_chars hn
  rw [Uri.parsePort_digits hne (List.all_eq_true.mpr hdigits)]
  exact Text.parseSigned_toString (Int.le_trans (by decide) hn) hmax

/-- What stands between the slashes and the query. -/
def authority (pw host : List Char) (n : Int) : List Char := pw ++ '@' :: (host ++ ':' :: (toString n).toList)

theorem fixIllegalUrl_authority (hhost : Uri.IsHost host) (hn : 0 ≤ n) :
    fixIllegalUrl (authority pw host n) = authority (fixIllegalUrl pw) host n := by
  have hno : ∀ {c : Char}, c ∈ " |/?#@".toList → c ≠ ':' → Uri.isDigit c = false → c ∉ host ++ ':' :: (toString n).toList := by
    intro c hc hcolon hdigit
    simp only [List.mem_append, List.mem_cons, not_or]
    exact ⟨hhost.not_mem hc, hcolon, not_mem_port hn hdigit⟩
  have hrest : fixIllegalUrl (host ++ ':' :: (toString n).toList) = host ++ ':' :: (toString n).toList :=
    fixIllegalUrl_of_not_mem (hno (by decide) (by decide) (by decide)) (hno (by decide) (by decide) (by decide))
  rw [authority, fixIllegalUrl_append, fixIllegalUrl_cons (by decide) (by decide), hrest]
  rfl

theorem parseServer_authority (hpw : KeptUser pw) (hhost : Uri.IsHost host) (hn : 0 ≤ n) (hmax : n ≤ 2147483647) :
    Uri.parseServer (authority (fixIllegalUrl pw) host n) =
      some { userInfo := some (fixIllegalUrl pw), host := host, port := n } := by
  have hat : '@' ∉ fixIllegalUrl pw := Uri.not_mem_of_legal hpw.legal (by decide) (by decide) (by decide)
  rw [authority, Uri.parseServer_append hat, if_pos hpw.legal]
  exact (Uri.parseHostPort_iff hhost.hostText).mpr ⟨hhost, parsePort_toString hn hmax, rfl, rfl⟩

/-- The URI of a link. -/
theorem parse_link (hsch : sch ≠ [] ∧ ∀ c ∈ sch, Uri.isAlpha c = true) (hpw : KeptUser pw) (hhost : Uri.IsHost host)
    (hn : 0 ≤ n) (hmax : n ≤ 2147483647) (hq : Uri.legal Uri.isUric (fixIllegalUrl q) = true) (remarks : List Char) :
    Uri.parse (fixIllegalUrl (sch ++ "://".toList ++ (authority pw host n ++ '?' :: (q ++ '#' :: urlEncode remarks)))) =
      some { scheme := some sch
             server := some { userInfo := some (fixIllegalUrl pw), host := host, port := n }
             rawQuery := some (fixIllegalUrl q), rawFragment := some (urlEncode remarks) } := by
  have hno : ∀ {c : Char}, Uri.isAlpha c = false → c ∉ sch := fun hc hmem =>
    Bool.false_ne_true (hc.symm.trans (hsch.2 _ hmem))
  have hfix : fixIllegalUrl (sch ++ "://".toList ++ (authority pw host n ++ '?' :: (q ++ '#' :: urlEncode remarks))) =
      sch ++ "://".toList ++ (authority (fixIllegalUrl pw) host n ++ '?' :: (fixIllegalUrl q ++ '#' :: urlEncode remarks)) := by
    have hslashes : fixIllegalUrl "://".toList = "://".toList := by decide
    rw [fixIllegalUrl_append, fixIllegalUrl_append, fixIllegalUrl_append,
      fixIllegalUrl_of_not_mem (hno (by decide)) (hno (by decide)), hslashes, fixIllegalUrl_authority hhost hn,
      fixIllegalUrl_cons (by decide) (by decide), fixIllegalUrl_append, fixIllegalUrl_cons (by decide) (by decide),
      fixIllegalUrl_urlEncode]
  have hseparators : ∀ c ∈ "/?#".toList, c ∉ authority (fixIllegalUrl pw) host n := by
    have hsub : ∀ c ∈ "/?#".toList, c ∈ " |/?#@".toList ∧ Percent.hexValue c = none ∧ c ≠ '%' ∧ c ≠ '@' ∧ c ≠ ':' ∧
        (Uri.isUserInfoChar c || Uri.isOther c) = false ∧ Uri.isDigit c = false := Text.forall_of_all (by decide)
    intro c hc
    obtain ⟨hin, hhex, hpercent, hat, hcolon, hillegal, hdigit⟩ := hsub c hc
    simp only [authority, List.mem_append, List.mem_cons, not_or]
    exact ⟨Uri.not_mem_of_legal hpw.legal hhex hpercent hillegal, hat, hhost.not_mem hin, hcolon, not_mem_port hn hdigit⟩
  have hscheme : sch.all Uri.isSchemeChar = true := List.all_eq_true.mpr fun c hc => by
    simp [Uri.isSchemeChar, Uri.isAlphanum, hsch.2 c hc]
  have hstart : sch.head?.any Uri.isAlpha = true := by
    obtain ⟨c, t, rfl⟩ := List.exists_cons_of_ne_nil hsch.1
    exact hsch.2 c List.mem_cons_self
  have hne : authority (fixIllegalUrl pw) host n ≠ [] := List.append_ne_nil_of_right_ne_nil _ (List.cons_ne_nil _ _)
  rw [hfix, Uri.parse_query hstart hscheme hseparators hne, hq, legal_urlEncode, Uri.parseAuthority,
    parseServer_authority hpw hhost hn hmax]
  rfl

end Parse

/-! ### Hosts -/

section Host
variable {host : List Char}

theorem colon_of_isIpv6Address {s : List Char} (h : isIpv6Address s = true) : ':' ∈ s := by
  have hcolon : ':' ∈ unbracketed s := by
    rcases regV6_iff.mp h with ⟨a, b, -, -, heq⟩ | ⟨gs, -, hlen, heq⟩
    · rw [heq]
      simp
    · match gs, hlen with
      | g :: g' :: gs, _ =>
        rw [heq, Joined.join_cons (List.cons_ne_nil _ _)]
        simp
  rcases unbracketed_cases s with heq | ⟨y, -, heq⟩
  · exact heq ▸ hcolon
  · rw [heq]
    exact List.mem_cons_of_mem _ (List.mem_append_left _ hcolon)

theorem idnHost_of_chars {s : List Char} (h : '[' ∉ s) (h' : ']' ∉ s) : idnHost s = s := by
  refine List.filter_eq_self.mpr fun c hc => ?_
  have hopen : c ≠ '[' := fun heq => h (heq ▸ hc)
  have hclose : c ≠ ']' := fun heq => h' (heq ▸ hc)
  simp [hopen, hclose]

/-- The host of a link is written as it was, if an address with colons is taken for an IPv6 address. -/
theorem getIpv6Address_idnHost (h : Uri.IsHost host)
    (hk : ':' ∈ idnHost host → isIpv6Address (idnHost host) = true) : getIpv6Address (idnHost host) = host := by
  cases h with
  | name h =>
    have hchars := (Uri.IsHost.name_chars h).2
    have hno : ∀ {c : Char}, Uri.isNameChar c = false → c ∉ host := fun hc hmem =>
      Bool.false_ne_true (hc.symm.trans (hchars _ hmem))
    have hidn : idnHost host = host := idnHost_of_chars (hno (by decide)) (hno (by decide))
    have hv6 : ¬isIpv6Address host = true := fun hv6 => hno (by decide) (colon_of_isIpv6Address hv6)
    rw [hidn, getIpv6Address, if_neg hv6]
  | @literal x h =>
    obtain ⟨hcolon, hchars⟩ := Uri.isLiteral_chars h
    have hno : ∀ {c : Char}, Uri.isLiteralChar c = false → c ∉ x := fun hc hmem =>
      Bool.false_ne_true (hc.symm.trans (hchars _ hmem))
    have hidn : idnHost ('[' :: x ++ [']']) = x := by
      have hx : idnHost x = x := idnHost_of_chars (hno (by decide)) (hno (by decide))
      rw [← hx]
      simp [idnHost, List.filter_append]
    rw [hidn] at hk ⊢
    rw [getIpv6Address, if_pos (hk hcolon)]

end Host

/-! ### Configurations -/

def trojanConfig (subid remarks address : List Char) (port : Int) (pw flow : List Char) (s : StreamSettingsBean) :
    ServerConfig where
  configType := .trojan
  subscriptionId := subid
  remarks := remarks
  outboundBean :=
    { servers := some { address := address, port := port, password := pw, flow := some flow }, streamSettings := s }

def vlessConfig (subid remarks address : List Char) (port : Int) (id encryption flow : List Char) (s : StreamSettingsBean) :
    ServerConfig where
  configType := .vless
  subscriptionId := subid
  remarks := remarks
  outboundBean :=
    { vnext := some { address := address, port := port, user := { id := id, encryption := encryption, flow := flow } }
      streamSettings := s }

section Import
variable {allowInsecure : Bool} {str q u : List Char} {uri : Uri} {server : Uri.Server} {l : Params} {c : ServerConfig}

theorem importTrojan_of_parse (hparse : Uri.parse (fixIllegalUrl str) = some uri) (hserver : uri.server = some server)
    (huser : server.userInfo = some u) (hq : uri.rawQuery = some q) (hl : queryParams q = .ok l) :
    importTrojan allowInsecure str =
      .ok (trojanConfig [] (urlDecode (uri.fragment.getD [])) (idnHost server.host) server.port (Uri.decoded u)
        ((queryParam l "flow").getD []) (ofQuery allowInsecure tls {} l)) := by
  simp only [importTrojan, hparse, get, hq, hl, Uri.host, Uri.userInfo, Uri.port, hserver, huser, bind, Except.bind,
    Option.bind, Option.map, pure, Except.pure, Option.getD]
  rfl

theorem importVless_of_parse (hparse : Uri.parse (fixIllegalUrl str) = some uri) (hserver : uri.server = some server)
    (huser : server.userInfo = some u) (hq : uri.rawQuery = some q) (hl : queryParams q = .ok l) :
    importVless allowInsecure str =
      .ok (vlessConfig [] (urlDecode (uri.fragment.getD [])) (idnHost server.host) server.port (Uri.decoded u)
        ((queryParam l "encryption").getD "none".toList) ((queryParam l "flow").getD [])
        (ofQuery allowInsecure [] {} l)) := by
  simp only [importVless, hparse, get, hq, hl, Uri.host, Uri.userInfo, Uri.port, hserver, huser, bind, Except.bind,
    Option.bind, Option.map, pure, Except.pure, Option.getD]
  rfl

/-- A value that an import needs. -/
theorem get_bind_ok {α β : Type} {a : Option α} {f : α → Except ImportError β} {b : β} (h : (get a >>= f) = .ok b) :
    ∃ x, a = some x ∧ f x = .ok b := by
  cases a with
  | none => cases h
  | some x => exact ⟨x, rfl, h⟩

theorem server_of_host {host : List Char} (hparse : Uri.parse str = some uri) (hhost : uri.host = some host) :
    ∃ server, uri.server = some server ∧ host = server.host ∧ Uri.IsHost server.host ∧
      (server.port = -1 ∨ (0 ≤ server.port ∧ server.port ≤ 2147483647)) := by
  obtain ⟨server, hserver, rfl⟩ := Option.map_eq_some_iff.mp hhost
  obtain ⟨a, ha⟩ := Uri.server_of_parse hparse hserver
  exact ⟨server, hserver, rfl, Uri.host_of_parseServer ha⟩

/-- A server that the link of a URI stores. -/
structure StoredServer (server : Uri.Server) (s : StreamSettingsBean) : Prop where
  host : Uri.IsHost server.host
  port : server.port = -1 ∨ (0 ≤ server.port ∧ server.port ≤ 2147483647)
  stream : StoredStream s

theorem stored_trojan (h : importTrojan allowInsecure str = .ok c) :
    ∃ server remarks pw flow s, StoredServer server s ∧
      c = trojanConfig [] remarks (idnHost server.host) server.port pw flow s := by
  obtain ⟨uri, hparse, h⟩ := get_bind_ok h
  have hrest : ∀ {s flow}, StoredStream s → (do
      let host ← get uri.host
      let userInfo ← get uri.userInfo
      return setServer (setStreamSettings { ServerConfig.create .trojan with remarks := urlDecode (uri.fragment.getD []) } s)
        fun server => { server with
          address := idnHost host, port := uri.port, password := userInfo, flow := some flow } : Import) = .ok c →
      ∃ server remarks pw flow s, StoredServer server s ∧
        c = trojanConfig [] remarks (idnHost server.host) server.port pw flow s := by
    intro s flow hs h
    obtain ⟨host, hhost, h⟩ := get_bind_ok h
    obtain ⟨userInfo, -, h⟩ := get_bind_ok h
    obtain ⟨server, hserver, rfl, hvalid, hrange⟩ := server_of_host hparse hhost
    have hport : uri.port = server.port := by rw [Uri.port, hserver]; rfl
    refine ⟨server, urlDecode (uri.fragment.getD []), userInfo, flow, s, ⟨hvalid, hrange, hs⟩, ?_⟩
    rw [← hport]
    cases h
    rfl
  cases hq : uri.rawQuery with
  | none =>
    simp only [hq] at h
    exact hrest (.mk .plain tls allowInsecure [] none) h
  | some q =>
    simp only [hq] at h
    cases hl : queryParams q with
    | error e =>
      rw [hl] at h
      cases h
    | ok l =>
      rw [hl] at h
      exact hrest (storedStream_ofQuery allowInsecure tls l) h

theorem stored_vless (h : importVless allowInsecure str = .ok c) :
    ∃ server remarks id encryption flow s, StoredServer server s ∧
      c = vlessConfig [] remarks (idnHost server.host) server.port id encryption flow s := by
  obtain ⟨uri, hparse, h⟩ := get_bind_ok h
  obtain ⟨q, -, h⟩ := get_bind_ok h
  cases hl : queryParams q with
  | error e =>
    rw [hl] at h
    cases h
  | ok l =>
    rw [hl] at h
    obtain ⟨host, hhost, h⟩ := get_bind_ok h
    obtain ⟨userInfo, -, h⟩ := get_bind_ok h
    obtain ⟨server, hserver, rfl, hvalid, hrange⟩ := server_of_host hparse hhost
    have hport : uri.port = server.port := by rw [Uri.port, hserver]; rfl
    refine ⟨server, urlDecode (uri.fragment.getD []), userInfo, (queryParam l "encryption").getD "none".toList,
      (queryParam l "flow").getD [], ofQuery allowInsecure [] {} l,
      ⟨hvalid, hrange, storedStream_ofQuery allowInsecure [] l⟩, ?_⟩
    rw [← hport]
    cases h
    rfl

end Import

/-! ### The parameters of a link -/

theorem kept_nil : Kept [] := kept_of_alpha fun _ hc => absurd hc List.not_mem_nil

theorem kept_none : Kept "none".toList := kept_of_alpha (Text.forall_of_all (by decide))

theorem readable_ifEmpty {v : List Char} (h : Readable v) : Readable (ifEmpty v "none".toList) := by
  unfold ifEmpty
  split
  · exact kept_none.readable
  · exact h

theorem readable_unlessEmpty {k : String} {v : List Char} (h : Readable v) : ∀ p ∈ unlessEmpty k v, Readable p.2 := by
  unfold unlessEmpty
  split
  · exact fun _ hp => absurd hp List.not_mem_nil
  · rintro p hp
    cases List.mem_singleton.mp hp
    exact h

theorem readable_codedUnlessEmpty (k : String) (v : List Char) : ∀ p ∈ codedUnlessEmpty k v, Readable p.2 := by
  unfold codedUnlessEmpty
  split
  · exact fun _ hp => absurd hp List.not_mem_nil
  · rintro p hp
    cases List.mem_singleton.mp hp
    exact readable_urlEncode v

/-- Of the details of a transport only the header type, the mode and the name of a service are not coded. -/
structure ReadableDetails (network : List Char) (d : List Char × List Char × List Char) : Prop where
  type : Readable d.1
  serviceName : network = "grpc".toList → Readable d.2.2

theorem readableDetails_of_ne {network : List Char} {d : List Char × List Char × List Char} (h : Readable d.1)
    (hne : network ≠ "grpc".toList) : ReadableDetails network d := ⟨h, fun hgrpc => absurd hgrpc hne⟩

theorem readable_transportParams {network : List Char} {d : List Char × List Char × List Char}
    (h : ReadableDetails network d) : ∀ p ∈ transportParams network d, Readable p.2 := by
  have htype := readable_ifEmpty h.type
  have hhostPath : ∀ p ∈ codedUnlessEmpty "host" d.2.1 ++ codedUnlessEmpty "path" d.2.2, Readable p.2 :=
    List.forall_mem_append.mpr ⟨readable_codedUnlessEmpty _ _, readable_codedUnlessEmpty _ _⟩
  unfold transportParams
  split
  · exact List.forall_mem_cons.mpr ⟨htype, readable_codedUnlessEmpty _ _⟩
  · split
    · exact List.forall_mem_cons.mpr ⟨htype, readable_codedUnlessEmpty _ _⟩
    · split
      · exact hhostPath
      · split
        · exact hhostPath
        · split
          · simp only [List.forall_mem_cons]
            exact ⟨htype, readable_urlEncode _, readable_urlEncode _, fun _ hp => absurd hp List.not_mem_nil⟩
          · split
            · rename_i hgrpc
              simp only [List.forall_mem_cons]
              exact ⟨h.type, h.serviceName hgrpc, fun _ hp => absurd hp List.not_mem_nil⟩
            · exact fun _ hp => absurd hp List.not_mem_nil

/-- The details of a stored transport can be read, if it is kept. -/
theorem readable_of_populated {f : TransportFields} {net : List Char} {p : StreamSettingsBean × List Char}
    {d : Option (List Char × List Char × List Char)} (h : Populated f net p d) (hk : KeptTransport p.1) :
    Readable (typeParam p.1 d) ∧ ∀ d' ∈ d, ReadableDetails p.1.network d' := by
  have htype : Readable (typeParam p.1 d) := by
    unfold typeParam
    split
    · exact (kept_of_alpha (Text.forall_of_all (by decide))).readable
    · rw [ifEmpty_of_ne hk.network.1]
      exact hk.network.2.readable
  refine ⟨htype, ?_⟩
  cases h with
  | tcp =>
    have hne : "tcp".toList ≠ "grpc".toList := by decide
    rintro _ ⟨⟩
    refine readableDetails_of_ne ?_ hne
    by_cases hhttp : f.headerType = some http
    · obtain ⟨l, m, -, -, -, hdetails⟩ := details_tcpOf f hhttp
      have hkept : Kept http := kept_of_alpha (Text.forall_of_all (by decide))
      rw [hdetails]
      exact hkept.readable
    · rw [tcpOf_none hhttp]
      exact kept_none.readable
  | kcp =>
    have hne : "kcp".toList ≠ "grpc".toList := by decide
    rintro _ ⟨⟩
    exact readableDetails_of_ne (hk.kcp _ rfl).2.1.readable hne
  | ws =>
    have hne : "ws".toList ≠ "grpc".toList := by decide
    rintro _ ⟨⟩
    exact readableDetails_of_ne kept_nil.readable hne
  | h2 _ =>
    have hne : "h2".toList ≠ "grpc".toList := by decide
    rintro _ ⟨⟩
    exact readableDetails_of_ne kept_nil.readable hne
  | quic =>
    have hne : "quic".toList ≠ "grpc".toList := by decide
    rintro _ ⟨⟩
    exact readableDetails_of_ne (hk.quic _ rfl).2.1.readable hne
  | grpc =>
    rintro _ ⟨⟩
    refine ⟨?_, fun _ => (hk.grpc _ rfl).readable⟩
    unfold GrpcSettingsBean.details
    dsimp only
    split
    · exact (kept_of_alpha (Text.forall_of_all (by decide))).readable
    · exact (kept_of_alpha (Text.forall_of_all (by decide))).readable
  | other _ => exact fun _ hd => nomatch hd

theorem StoredTransport.readable {t : StreamSettingsBean} (h : StoredTransport t) (hk : KeptTransport t) :
    Readable (typeParam t t.getTransportSettingDetails) ∧
      ∀ d ∈ t.getTransportSettingDetails, ReadableDetails t.network d := by
  cases h with
  | ofFields net f => exact readable_of_populated (populated net f) hk
  | plain =>
    have htype : Kept (typeParam {} none) := kept_of_alpha (Text.forall_of_all (by decide))
    exact ⟨htype.readable, fun _ hd => nomatch hd⟩

theorem StoredStream.readable {s : StreamSettingsBean} (h : StoredStream s) (hk : KeptTransport s) :
    Readable (typeParam s s.getTransportSettingDetails) ∧
      ∀ d ∈ s.getTransportSettingDetails, ReadableDetails s.network d := by
  cases h with
  | @mk t ht security allowInsecure sni alpns =>
    have hnetwork : (t.populateTlsSettings security allowInsecure sni none alpns).network = t.network :=
      populateTlsSettings_parameters.network
    have hread := ht.readable (keptTransport_of_populateTlsSettings hk)
    rw [populateTlsSettings_details]
    refine ⟨?_, hnetwork.symm ▸ hread.2⟩
    rw [typeParam, hnetwork]
    exact hread.1

theorem readable_tlsParams {s : StreamSettingsBean} (hk : KeptTls s) : ∀ p ∈ tlsParams s, Readable p.2 := by
  unfold tlsParams
  split
  · rename_i t ht
    refine List.forall_mem_append.mpr ⟨readable_unlessEmpty (hk.serverName t ht).readable, ?_⟩
    split
    · exact fun _ hp => absurd hp List.not_mem_nil
    · exact fun _ hp => absurd hp List.not_mem_nil
    · rename_i l _ halpn
      rintro p hp
      cases List.mem_singleton.mp hp
      exact (hk.alpn t ht l halpn).2.readable
  · exact fun _ hp => absurd hp List.not_mem_nil

section Shared
variable {lib : Libraries} {c : ServerConfig}

/-- The flow of a server. -/
def flowText (c : ServerConfig) : List Char :=
  ((c.outboundBean.vnext.map (·.user.flow)).or (c.outboundBean.servers.bind (·.flow))).getD []

theorem readable_dicQuery (hflow : ∀ p ∈ flowParams c, Readable p.2) (htls : KeptTls c.outboundBean.streamSettings)
    (htype : Readable (typeParam c.outboundBean.streamSettings c.getTransportSettingDetails))
    (hdetails : ∀ d ∈ c.getTransportSettingDetails, ReadableDetails c.outboundBean.streamSettings.network d) :
    ∀ p ∈ dicQuery c, Readable p.2 := by
  have htransport : ∀ p ∈ transportPart c.outboundBean.streamSettings c.getTransportSettingDetails, Readable p.2 := by
    unfold transportPart
    cases hd : c.getTransportSettingDetails with
    | none => exact fun _ hp => absurd hp List.not_mem_nil
    | some d => exact readable_transportParams (hdetails d hd)
  unfold dicQuery
  exact List.forall_mem_append.mpr ⟨List.forall_mem_append.mpr ⟨hflow,
    List.forall_mem_cons.mpr ⟨htls.security.readable, readable_tlsParams htls⟩⟩,
    List.forall_mem_cons.mpr ⟨htype, htransport⟩⟩

/-- Whatever the order of a `HashMap` is, the parameters are read as what was shared. -/
theorem queryParam_shared (hlib : ∀ l, (lib.hashOrder l).Perm l) (k : String) :
    queryParam (readParams (lib.hashOrder (dicQuery c))) k = ((dicQuery c).lookup k.toList).map readValue :=
  queryParam_readParams (hlib _) (nodup_dicQuery c) k

theorem reads_shared (hlib : ∀ l, (lib.hashOrder l).Perm l) :
    Reads (readParams (lib.hashOrder (dicQuery c))) c.outboundBean.streamSettings c.getTransportSettingDetails where
  security := by rw [queryParam_shared hlib, lookup_security, Option.map_some]
  type := by rw [queryParam_shared hlib, lookup_type, Option.map_some]
  sni := by rw [queryParam_shared hlib, lookup_tls (by decide), lookup_sni]
  alpn := by rw [queryParam_shared hlib, lookup_tls (by decide), lookup_alpn]
  fields := by
    have hvalue : ∀ k : String, k.toList ∈ transportKeys →
        queryParam (readParams (lib.hashOrder (dicQuery c))) k =
          ((transportPart c.outboundBean.streamSettings c.getTransportSettingDetails).lookup k.toList).map readValue := by
      intro k hk
      rw [queryParam_shared hlib, lookup_transport hk]
    rw [queryFields, hvalue _ (by decide), hvalue _ (by decide), hvalue _ (by decide), hvalue _ (by decide),
      hvalue _ (by decide), hvalue _ (by decide), hvalue _ (by decide), hvalue _ (by decide)]
    rfl

/-! ### The link of a server -/

/-- Remarks that come back. The fragment of a URI is decoded once more, less its plus signs. -/
def KeptRemarks (r : List Char) : Prop := Plain r ∨ (' ' ∉ r ∧ Undecodable r)

theorem spaces_pluses {r : List Char} (h : '+' ∉ r) : Percent.spaces (Percent.pluses r) = r := by
  have hid : r.map id = r := List.map_id r
  rw [Percent.spaces, Percent.pluses, List.map_map]
  refine Eq.trans (List.map_congr_left fun c hc => ?_) hid
  have hplus : c ≠ '+' := fun heq => h (heq ▸ hc)
  by_cases hblank : c = ' ' <;> simp [hblank, hplus]

theorem KeptRemarks.decoded {r : List Char} (h : KeptRemarks r) : urlDecode (Uri.decoded (urlEncode r)) = r := by
  rw [Uri.decoded, urlEncode, Percent.decode_urlEncode, Option.getD_some]
  rcases h with hplain | ⟨hblank, hsteady⟩
  · have hpercent : '%' ∉ Percent.pluses r := by
      intro hmem
      obtain ⟨c, hc, heq⟩ := List.mem_map.mp hmem
      split at heq
      · cases heq
      · exact hplain.1 (heq ▸ hc)
    have hfirst := Percent.urlDecode_of_not_mem hpercent
    rw [spaces_pluses hplain.2] at hfirst
    rw [urlDecode, hfirst, Option.bind_some, hplain.urlDecode_eq, Option.getD_some]
  · have hid : r.map id = r := List.map_id r
    have hpluses : Percent.pluses r = r := by
      refine Eq.trans (List.map_congr_left fun c hc => ?_) hid
      have hne : c ≠ ' ' := fun heq => hblank (heq ▸ hc)
      exact if_neg hne
    rw [hpluses, urlDecode_of_undecodable hsteady]

/-- What a TROJAN or VLESS configuration has to be for its link to give it again. -/
structure KeptServer (c : ServerConfig) : Prop where
  remarks : KeptRemarks c.remarks
  address : ∀ a ∈ c.getServerAddress, ':' ∈ a → isIpv6Address a = true
  port : ∀ n ∈ c.getServerPort, 0 ≤ n
  user : ∀ pw ∈ c.getPassword, KeptUser pw
  flow : Kept (flowText c)
  encryption : ∀ e ∈ c.getSecurityEncryption, e ≠ [] ∧ Kept e
  transport : KeptTransport c.outboundBean.streamSettings
  tls : KeptTls c.outboundBean.streamSettings

/-- The server that a configuration of TROJAN or VLESS is of. -/
structure ServerOf (c : ServerConfig) (sch : List Char) (server : Uri.Server) (pw : List Char) : Prop where
  configType : c.configType = .vless ∨ c.configType = .trojan
  scheme : scheme c.configType = sch ++ "://".toList ∧ sch ≠ [] ∧ ∀ c ∈ sch, Uri.isAlpha c = true
  address : c.getServerAddress = some (idnHost server.host)
  port : c.getServerPort = some server.port
  password : c.getPassword = some pw
  stored : StoredServer server c.outboundBean.streamSettings

section ServerOf
variable {sch pw : List Char} {server : Uri.Server}

/-- The link with its parts. -/
theorem ServerOf.shareConfig_eq (h : ServerOf c sch server pw) :
    shareConfig lib c = sch ++ "://".toList ++ (authority pw (getIpv6Address (idnHost server.host)) server.port ++
      '?' :: (joinQuery (lib.hashOrder (dicQuery c)) ++ '#' :: urlEncode c.remarks)) := by
  have hquery : shareQuery lib c = some (authority pw (getIpv6Address (idnHost server.host)) server.port ++
      '?' :: (joinQuery (lib.hashOrder (dicQuery c)) ++ '#' :: urlEncode c.remarks)) := by
    simp only [shareQuery, shareUrl, h.address, h.port, h.password, portText, orNull, remark, Option.map_some,
      Option.getD_some, authority, List.append_assoc, List.cons_append]
  rw [← h.scheme.1]
  unfold shareConfig
  rcases h.configType with htype | htype
  · simp only [htype, hquery, Option.map_some, Option.getD_some]
  · simp only [htype, hquery, Option.map_some, Option.getD_some]

theorem ServerOf.details (h : ServerOf c sch server pw) :
    c.getTransportSettingDetails = c.outboundBean.streamSettings.getTransportSettingDetails := by
  have hname : c.configType = .vmess ∨ c.configType = .vless ∨ c.configType = .trojan := .inr h.configType
  rw [ServerConfig.getTransportSettingDetails, if_pos hname]

/-- The link is parsed into the parts that it has, and its query is read as what was shared. -/
theorem ServerOf.parse (hlib : ∀ l, (lib.hashOrder l).Perm l) (h : ServerOf c sch server pw) (hk : KeptServer c)
    (hflow : ∀ p ∈ flowParams c, Readable p.2) :
    ∃ q, Uri.parse (fixIllegalUrl (shareConfig lib c)) =
        some { scheme := some sch
               server := some { userInfo := some (fixIllegalUrl pw), host := server.host, port := server.port }
               rawQuery := some q, rawFragment := some (urlEncode c.remarks) } ∧
      queryParams q = .ok (readParams (lib.hashOrder (dicQuery c))) := by
  obtain ⟨htype, hdetails⟩ := h.stored.stream.readable hk.transport
  rw [← h.details] at htype hdetails
  have hmem : ∀ {p}, p ∈ lib.hashOrder (dicQuery c) → p ∈ dicQuery c := (hlib _).mem_iff.mp
  have hvalues : ∀ p ∈ lib.hashOrder (dicQuery c), Readable p.2 := fun p hp =>
    readable_dicQuery hflow hk.tls htype hdetails p (hmem hp)
  have hne : lib.hashOrder (dicQuery c) ≠ [] := by
    intro hnil
    have hsecurity := Assoc.mem_keys_of_lookup (lookup_security (c := c))
    rw [hnil] at hmem
    obtain ⟨p, hp, -⟩ := List.mem_map.mp hsecurity
    exact absurd ((hlib _).mem_iff.mpr hp) (hnil ▸ List.not_mem_nil)
  obtain ⟨hlegal, hparams⟩ := queryParams_joinQuery hne (fun p hp => isKey_dicQuery c p (hmem hp)) hvalues
  have hhost : getIpv6Address (idnHost server.host) = server.host :=
    getIpv6Address_idnHost h.stored.host (hk.address _ h.address)
  have hport : 0 ≤ server.port := hk.port _ h.port
  have hmax : server.port ≤ 2147483647 := by
    rcases h.stored.port with heq | ⟨-, hmax⟩
    · rw [heq]
      decide
    · exact hmax
  refine ⟨_, ?_, hparams⟩
  rw [h.shareConfig_eq, hhost]
  exact parse_link h.scheme.2 (hk.user _ h.password) h.stored.host hport hmax hlegal c.remarks

/-- The stream that the link is read as. -/
theorem ServerOf.stream_again (hlib : ∀ l, (lib.hashOrder l).Perm l) (h : ServerOf c sch server pw) (hk : KeptServer c)
    (allowInsecure : Bool) (security : List Char) :
    SameStream c.outboundBean.streamSettings
      (ofQuery allowInsecure security {} (readParams (lib.hashOrder (dicQuery c)))) := by
  have hreads := reads_shared (c := c) hlib
  rw [h.details] at hreads
  exact AngConfigManager.stream_again h.stored.stream hk.transport hk.tls hreads allowInsecure security

end ServerOf

section Again
variable {server : Uri.Server} {subid remarks pw encryption flow : List Char} {s : StreamSettingsBean}

theorem serverOf_trojan (hs : StoredServer server s) :
    ServerOf (trojanConfig subid remarks (idnHost server.host) server.port pw flow s) "trojan".toList server pw := by
  have hscheme : scheme .trojan = "trojan".toList ++ "://".toList := by decide
  exact ⟨.inr rfl, ⟨hscheme, by decide, Text.forall_of_all (by decide)⟩, rfl, rfl, rfl, hs⟩

theorem serverOf_vless (hs : StoredServer server s) :
    ServerOf (vlessConfig subid remarks (idnHost server.host) server.port pw encryption flow s) "vless".toList server pw := by
  have hscheme : scheme .vless = "vless".toList ++ "://".toList := by decide
  exact ⟨.inl rfl, ⟨hscheme, by decide, Text.forall_of_all (by decide)⟩, rfl, rfl, rfl, hs⟩

theorem importTrojan_shared (hlib : ∀ l, (lib.hashOrder l).Perm l) (hs : StoredServer server s)
    (hk : KeptServer (trojanConfig subid remarks (idnHost server.host) server.port pw flow s)) (allowInsecure : Bool) :
    ∃ s', importTrojan allowInsecure
        (shareConfig lib (trojanConfig subid remarks (idnHost server.host) server.port pw flow s)) =
          .ok (trojanConfig [] remarks (idnHost server.host) server.port pw flow s') ∧ SameStream s s' := by
  generalize hc : trojanConfig subid remarks (idnHost server.host) server.port pw flow s = c at hk ⊢
  have hof : ServerOf c "trojan".toList server pw := by
    rw [← hc]
    exact serverOf_trojan hs
  have hparams : flowParams c = unlessEmpty "flow" flow := by rw [← hc]; rfl
  have hkept : Kept flow := by
    have htext : flowText c = flow := by rw [← hc]; rfl
    rw [← htext]
    exact hk.flow
  have hflow : queryParam (readParams (lib.hashOrder (dicQuery c))) "flow" = (optional flow).map readValue := by
    rw [queryParam_shared hlib, lookup_flow (by decide), hparams, lookup_unlessEmpty]
  have hremarks : c.remarks = remarks := by rw [← hc]; rfl
  have hstream : c.outboundBean.streamSettings = s := by rw [← hc]; rfl
  obtain ⟨q, hparse, hquery⟩ := hof.parse hlib hk (hparams ▸ readable_unlessEmpty hkept.readable)
  have hsame := hof.stream_again hlib hk allowInsecure tls
  rw [hstream] at hsame
  refine ⟨_, ?_, hsame⟩
  rw [importTrojan_of_parse hparse rfl rfl rfl hquery, hflow, name_again hkept fun _ => rfl,
    (hk.user _ hof.password).decoded, Uri.fragment, Option.map_some, Option.getD_some, hk.remarks.decoded, hremarks]

theorem importVless_shared (hlib : ∀ l, (lib.hashOrder l).Perm l) (hs : StoredServer server s)
    (hk : KeptServer (vlessConfig subid remarks (idnHost server.host) server.port pw encryption flow s))
    (allowInsecure : Bool) :
    ∃ s', importVless allowInsecure
        (shareConfig lib (vlessConfig subid remarks (idnHost server.host) server.port pw encryption flow s)) =
          .ok (vlessConfig [] remarks (idnHost server.host) server.port pw encryption flow s') ∧ SameStream s s' := by
  generalize hc : vlessConfig subid remarks (idnHost server.host) server.port pw encryption flow s = c at hk ⊢
  have hof : ServerOf c "vless".toList server pw := by
    rw [← hc]
    exact serverOf_vless hs
  obtain ⟨hne, hencryption⟩ : encryption ≠ [] ∧ Kept encryption := hk.encryption _ (by rw [← hc]; rfl)
  have hparams : flowParams c = unlessEmpty "flow" flow ++ [("encryption".toList, encryption)] := by
    have hshown : flowParams c = unlessEmpty "flow" flow ++ [("encryption".toList, ifEmpty encryption "none".toList)] := by
      rw [← hc]
      rfl
    rw [hshown, ifEmpty_of_ne hne]
  have hkept : Kept flow := by
    have htext : flowText c = flow := by rw [← hc]; rfl
    rw [← htext]
    exact hk.flow
  have hflow : queryParam (readParams (lib.hashOrder (dicQuery c))) "flow" = (optional flow).map readValue := by
    have hno : ("flow".toList == "encryption".toList) = false := by decide
    rw [queryParam_shared hlib, lookup_flow (by decide), hparams, List.lookup_append, lookup_unlessEmpty, List.lookup_cons,
      hno, List.lookup_nil, Option.or_none]
  have hread : queryParam (readParams (lib.hashOrder (dicQuery c))) "encryption" = some encryption := by
    have hno : (unlessEmpty "flow" flow).lookup "encryption".toList = none :=
      lookup_eq_none (keys_unlessEmpty _ _) (by decide)
    rw [queryParam_shared hlib, lookup_flow (by decide), hparams, List.lookup_append, hno, Option.none_or,
      List.lookup_cons, beq_self_eq_true, Option.map_some, hencryption.readValue]
  have hvalues : ∀ p ∈ flowParams c, Readable p.2 := by
    rw [hparams]
    refine List.forall_mem_append.mpr ⟨readable_unlessEmpty hkept.readable, fun p hp => ?_⟩
    cases List.mem_singleton.mp hp
    exact hencryption.readable
  have hremarks : c.remarks = remarks := by rw [← hc]; rfl
  have hstream : c.outboundBean.streamSettings = s := by rw [← hc]; rfl
  obtain ⟨q, hparse, hquery⟩ := hof.parse hlib hk hvalues
  have hsame := hof.stream_again hlib hk allowInsecure []
  rw [hstream] at hsame
  refine ⟨_, ?_, hsame⟩
  rw [importVless_of_parse hparse rfl rfl rfl hquery, hflow, name_again hkept fun _ => rfl, hread, Option.getD_some,
    (hk.user _ hof.password).decoded, Uri.fragment, Option.map_some, Option.getD_some, hk.remarks.decoded, hremarks]

end Again

end Shared

end AngConfigManager
end NicVpn.V2ray
