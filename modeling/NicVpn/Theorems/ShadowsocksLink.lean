import NicVpn.Lib.Replace
import NicVpn.Theorems.VmessLink

/-! The link of a Shadowsocks server is imported as the same server. It is read as a URI if it is one with a host and
    user info, and by a pattern if it is not, as when the Base64 has a slash in it; both find the parts of the link.
    Only the pattern minds line terminators, in the method as in the password. -/

namespace NicVpn.V2ray
namespace AngConfigManager
open NicVpn.Utils Backtrack

/-! ### The pattern -/

/-- The digits of a port reach to the end. -/
theorem shortestPlus_digits {β : Type} (slash : Bool) {port : List Char} (hne : port ≠ [])
    (hport : ∀ c ∈ port, digit c = true) (f : List Char → β) :
    shortestPlus digit port (fun port s => if s = [] ∨ (slash ∧ s = ['/']) then some (f port) else none) =
      some (f port) := by
  have hall : Takes digit port port [] := ⟨(List.append_nil port).symm, hport⟩
  refine shortestPlus_eq_some hall hne (if_pos (.inl rfl)) fun d u g' hg => ?_
  have hd : digit d = true := hport d (by simp [hg])
  refine if_neg ?_
  rintro (h | ⟨-, h⟩)
  · cases h
  · obtain ⟨rfl, -⟩ := List.cons.inj h
    exact absurd hd (by decide)

/-- No digits reach over a colon. -/
theorem shortestPlus_digits_of_mem {β : Type} (slash : Bool) {s : List Char} (h : ':' ∈ s) (f : List Char → β) :
    shortestPlus digit s (fun port s => if s = [] ∨ (slash ∧ s = ['/']) then some (f port) else none) = none := by
  refine shortest_eq_none_iff.mpr fun g rest hg => ?_
  split
  · rfl
  · refine if_neg fun hrest => ?_
    rw [hg.1] at h
    rcases List.mem_append.mp h with h | h
    · exact absurd (hg.2 ':' h) (by decide)
    · rcases hrest with rfl | ⟨-, rfl⟩
      · exact absurd h List.not_mem_nil
      · exact absurd h (by decide)

/-- The parts of an address, which the pattern finds. -/
structure PatternParts (a : Address) : Prop where
  user_ne : a.user ≠ []
  user_dot : ∀ c ∈ a.user, dot c = true
  user_colon : ':' ∉ a.user
  pass_dot : ∀ c ∈ a.pass, dot c = true
  host_ne : a.host ≠ []
  host_dot : ∀ c ∈ a.host, dot c = true
  host_at : '@' ∉ a.host
  port_ne : a.port ≠ []
  port_digit : ∀ c ∈ a.port, digit c = true

theorem shadowsocksPattern_eq {a : Address} (h : PatternParts a) :
    shadowsocksPattern (a.user ++ ':' :: (a.pass ++ '@' :: (a.host ++ ':' :: a.port))) = some a := by
  have hport := shortestPlus_digits true h.port_ne h.port_digit fun port => { a with port := port }
  have hhost : shortestPlus dot (a.host ++ ':' :: a.port) (fun host s => char ':' s fun s =>
      shortestPlus digit s fun port s =>
        if s = [] ∨ (true ∧ s = ['/']) then some { user := a.user, pass := a.pass, host := host, port := port : Address }
        else none) = some a := by
    refine shortestPlus_eq_some ⟨rfl, h.host_dot⟩ h.host_ne ((char_cons _ _ _).trans hport) fun d u g' hg => ?_
    by_cases hd : d = ':'
    · rw [hd, char_cons]
      exact shortestPlus_digits_of_mem true (by simp) _
    · exact char_of_ne hd _ _
  have hat : '@' ∉ a.host ++ ':' :: a.port := by
    have hport : '@' ∉ a.port := fun hmem => absurd (h.port_digit '@' hmem) (by decide)
    simp [h.host_at, hport]
  have hpass := longest_char (k := fun pass s => shortestPlus dot s fun host s => char ':' s fun s =>
      shortestPlus digit s fun port s =>
        if s = [] ∨ (true ∧ s = ['/']) then some { user := a.user, pass := pass, host := host, port := port : Address }
        else none) h.pass_dot hat hhost
  exact shortestPlus_char h.user_dot h.user_ne h.user_colon hpass

/-! ### The link -/

/-- What shares a Shadowsocks configuration: an address without the characters that end it in a link, as a name, an
    IPv4 and an IPv6 address are, a port, a method and a password. -/
structure Shares (lib : Libraries) (c : ServerConfig) (server : ServersBean) : Prop where
  configType : c.configType = .shadowsocks
  servers : c.outboundBean.servers = some server
  address_ne : server.address ≠ []
  address : ∀ x ∈ server.address, x ∉ " |/?#@[]".toList ∧ dot x = true
  port : 1 ≤ server.port ∧ server.port ≤ 65535
  method_ne : server.method ≠ []
  method_lowercase : lib.lowercase server.method = server.method
  method_colon : ':' ∉ server.method
  method_strip : Text.strip server.method = server.method
  method_dot : ∀ x ∈ server.method, dot x = true
  password_dot : ∀ x ∈ server.password, dot x = true

/-- The configuration has the address, port, method and password of the other. -/
structure SameServer (c c' : ServerConfig) : Prop where
  configType : c'.configType = c.configType
  address : c'.getServerAddress = c.getServerAddress
  port : c'.getServerPort = c.getServerPort
  method : c'.getSecurityEncryption = c.getSecurityEncryption
  password : c'.getPassword = c.getPassword

section Link
variable {lib : Libraries} {c : ServerConfig} {server : ServersBean}

/-- Method and password in Base64. -/
def userText (server : ServersBean) : List Char := encode (server.method ++ ':' :: server.password)

/-- What stands before the fragment. -/
def serverText (server : ServersBean) : List Char :=
  userText server ++ '@' :: (getIpv6Address server.address ++ ':' :: (toString server.port).toList)

/-- What the accessors tell of a server in `servers`. -/
theorem accessors {c : ServerConfig} {server : ServersBean} (hconfig : c.configType = .shadowsocks)
    (hservers : c.outboundBean.servers = some server) :
    c.getServerAddress = some server.address ∧ c.getServerPort = some server.port ∧
      c.getSecurityEncryption = some server.method ∧ c.getPassword = some server.password := by
  have hname : ¬(c.configType = .vmess ∨ c.configType = .vless) := by rw [hconfig]; decide
  have hsocks : c.configType ≠ .socks := by rw [hconfig]; decide
  refine ⟨?_, ?_, ?_, ?_⟩
  · rw [ServerConfig.getServerAddress, if_neg hname, hservers, Option.map_some]
  · rw [ServerConfig.getServerPort, if_neg hname, hservers, Option.map_some]
  · rw [ServerConfig.getSecurityEncryption, hconfig, hservers]
    rfl
  · rw [ServerConfig.getPassword, if_neg hname, if_neg hsocks, hservers, Option.map_some]

theorem shareConfig_shadowsocks (h : Shares lib c server) :
    shareConfig lib c = "ss://".toList ++ (serverText server ++ '#' :: urlEncode c.remarks) := by
  obtain ⟨haddress, hport, hmethod, hpassword⟩ := accessors h.configType h.servers
  have hshare : shareShadowsocks c = some (serverText server ++ remark c) := by
    simp only [shareShadowsocks, shareUrl, haddress, portText, hport, hmethod, hpassword, orNull, Option.map_some,
      Option.getD_some, serverText, userText, List.append_assoc, List.cons_append]
  rw [shareConfig, h.configType]
  simp only [hshare, Option.map_some, Option.getD_some]
  rfl

/-! ### Characters of the link -/

theorem not_mem_userText {x : Char} (hx : x ∉ Base64.alphabet) (heq : x ≠ '=') : x ∉ userText server :=
  Base64.not_mem_encodeNoWrap hx heq

theorem userText_ne_nil : userText server ≠ [] := by
  intro h
  have hdecode := Base64.decode_encodeNoWrap (Utf8.encode (server.method ++ ':' :: server.password))
  have hlength := Utf8.length_le_length_encode (server.method ++ ':' :: server.password)
  unfold userText encode at h
  rw [h] at hdecode
  rw [← Option.some.inj hdecode] at hlength
  simp at hlength

theorem digit_of_isDigit {x : Char} (h : x.isDigit = true) : digit x = true := by
  simpa [digit, Char.isDigit, Char.le_def] using h

theorem port_digit (h : Shares lib c server) : ∀ x ∈ (toString server.port).toList, digit x = true :=
  fun _ hx => digit_of_isDigit (Text.isDigit_of_mem_toString (Int.le_trans (by decide) h.port.1) hx)

theorem getIpv6Address_cases (address : List Char) :
    getIpv6Address address = address ∨ getIpv6Address address = '[' :: address ++ [']'] := by
  unfold getIpv6Address
  split
  · exact .inr rfl
  · exact .inl rfl

/-- The host of a link, with or without brackets. -/
theorem hostText (h : Shares lib c server) : Uri.HostText (getIpv6Address server.address) := by
  have hno : ∀ x ∈ "[]".toList, x ∉ server.address := by
    intro x hx hmem
    have hsub : ∀ x ∈ "[]".toList, x ∈ " |/?#@[]".toList := Text.forall_of_all (by decide)
    exact (h.address x hmem).1 (hsub x hx)
  rcases getIpv6Address_cases server.address with heq | heq
  · rw [heq]
    exact .inr ⟨h.address_ne, fun hhead => hno '[' (by decide) (List.mem_of_mem_head? hhead)⟩
  · exact .inl ⟨server.address, hno ']' (by decide), heq⟩

/-- None of these characters stands in the host. -/
theorem not_mem_host (h : Shares lib c server) {x : Char} (hx : x ∈ " |/?#@".toList) :
    x ∉ getIpv6Address server.address := by
  have hsub : ∀ x ∈ " |/?#@".toList, x ∈ " |/?#@[]".toList ∧ x ≠ '[' ∧ x ≠ ']' :=
    Text.forall_of_all (by decide)
  obtain ⟨hmem, hopen, hclose⟩ := hsub x hx
  have haddress : x ∉ server.address := fun hin => (h.address x hin).1 hmem
  rcases getIpv6Address_cases server.address with heq | heq
  · rwa [heq]
  · rw [heq]
    simp [hopen, hclose, haddress]

theorem idnHost_getIpv6Address (h : Shares lib c server) : idnHost (getIpv6Address server.address) = server.address := by
  have haddress : idnHost server.address = server.address := by
    refine List.filter_eq_self.mpr fun x hx => ?_
    have hno := (h.address x hx).1
    have hopen : x ≠ '[' := fun heq => hno (heq ▸ by decide)
    have hclose : x ≠ ']' := fun heq => hno (heq ▸ by decide)
    simp [hopen, hclose]
  rcases getIpv6Address_cases server.address with heq | heq
  · rw [heq, haddress]
  · have hopen : idnHost ('[' :: server.address ++ [']']) = idnHost server.address := by
      simp [idnHost, List.filter_append]
    rw [heq, hopen, haddress]

theorem removeBrackets_getIpv6Address (h : Shares lib c server) :
    removeBrackets (getIpv6Address server.address) = server.address := by
  rcases getIpv6Address_cases server.address with heq | heq
  · have hhead : server.address.head? ≠ some '[' := by
      intro hhead
      exact (h.address '[' (List.mem_of_mem_head? hhead)).1 (by decide)
    rw [heq, removeBrackets, if_neg fun hall => hhead hall.2.1]
  · rw [heq, removeBrackets, if_pos ⟨by simp, rfl, List.getLast?_concat⟩]
    simp

/-- The characters that neither a link nor its fragment has. -/
theorem not_mem_serverText (h : Shares lib c server) {x : Char} (hx : x ∈ " |?#".toList) : x ∉ serverText server := by
  have hsub : ∀ x ∈ " |?#".toList, x ∈ " |/?#@".toList ∧ x ∉ Base64.alphabet ∧ x ≠ '=' ∧ x ≠ '@' ∧ x ≠ ':' ∧
      digit x = false := Text.forall_of_all (by decide)
  obtain ⟨hhost, halphabet, hpad, hat, hcolon, hdigit⟩ := hsub x hx
  have huser : x ∉ userText server := not_mem_userText halphabet hpad
  have hport : x ∉ (toString server.port).toList := fun hmem =>
    Bool.false_ne_true (hdigit.symm.trans (port_digit h x hmem))
  simp only [serverText, List.mem_append, List.mem_cons, not_or]
  exact ⟨huser, hat, not_mem_host h hhost, hcolon, hport⟩

theorem not_mem_urlEncode {x : Char} (hx : x ∈ " |/#".toList) (s : List Char) : x ∉ urlEncode s := by
  have hsub : ∀ x ∈ " |/#".toList, Percent.safe x = false ∧ x ≠ '+' ∧ x ≠ '%' ∧ x ∉ Percent.upperDigits :=
    Text.forall_of_all (by decide)
  obtain ⟨hsafe, hplus, hpercent, hdigit⟩ := hsub x hx
  intro hmem
  refine Percent.mem_urlEncode (P := fun c => c ≠ x) ?_ ?_ ?_ ?_ x hmem rfl
  · rintro c hc rfl
    exact Bool.false_ne_true (hsafe.symm.trans hc)
  · exact Ne.symm hplus
  · exact Ne.symm hpercent
  · rintro c hc rfl
    exact hdigit hc

theorem fixIllegalUrl_of_not_mem {s : List Char} (hblank : ' ' ∉ s) (hbar : '|' ∉ s) : fixIllegalUrl s = s := by
  have hsingle : ∀ {c : Char}, c ∉ s → ¬[c] <:+: s := fun hc hinf => hc (hinf.subset List.mem_cons_self)
  rw [fixIllegalUrl, Text.replace_of_absent (hsingle hblank), Text.replace_of_absent (hsingle hbar)]

/-! ### The URI -/

/-- A URI with user info has the user info, host and port of the link. -/
theorem server_of_link (h : Shares lib c server) {uri : Uri} {s : Uri.Server}
    (hparse : Uri.parse (fixIllegalUrl (shareConfig lib c)) = some uri) (hs : uri.server = some s) :
    s.userInfo = none ∨
      (s.userInfo = some (userText server) ∧ s.host = getIpv6Address server.address ∧ s.port = server.port) := by
  have hfix : fixIllegalUrl (shareConfig lib c) = shareConfig lib c := by
    rw [shareConfig_shadowsocks h]
    refine fixIllegalUrl_of_not_mem ?_ ?_
    · simp [not_mem_serverText h (show ' ' ∈ " |?#".toList by decide), not_mem_urlEncode (show ' ' ∈ " |/#".toList by decide)]
    · simp [not_mem_serverText h (show '|' ∈ " |?#".toList by decide), not_mem_urlEncode (show '|' ∈ " |/#".toList by decide)]
  rw [hfix, shareConfig_shadowsocks h] at hparse
  have hlink : Uri.parse ("ss".toList ++ "://".toList ++ (serverText server ++ '#' :: urlEncode c.remarks)) = some uri :=
    hparse
  have hserver := Uri.parseServer_of_parse (by decide) (by decide) (not_mem_serverText h (by decide))
    (not_mem_serverText h (by decide)) hlink hs
  have hat : '@' ∉ userText server := not_mem_userText (by decide) (by decide)
  by_cases hslash : '/' ∈ userText server
  · -- the authority ends within the Base64
    obtain ⟨x, y, hxy, hx⟩ := List.eq_append_cons_of_mem hslash
    have htrue : ∀ d ∈ x, decide (d ≠ '/') = true := fun d hd => decide_eq_true fun heq => hx (heq ▸ hd)
    have htake : (serverText server).takeWhile (· ≠ '/') = x := by
      rw [serverText, hxy, List.append_assoc, List.takeWhile_append_of_pos htrue, List.cons_append,
        List.takeWhile_cons_of_neg (by simp), List.append_nil]
    rw [htake] at hserver
    refine .inl (Uri.userInfo_of_parseServer (fun hmem => hat ?_) hserver)
    rw [hxy]
    exact List.mem_append.mpr (.inl hmem)
  · have hport : '/' ∉ (toString server.port).toList := fun hmem => absurd (port_digit h '/' hmem) (by decide)
    have hall : '/' ∉ serverText server := by
      simp only [serverText, List.mem_append, List.mem_cons, not_or]
      exact ⟨hslash, by decide, not_mem_host h (by decide), by decide, hport⟩
    have htake : (serverText server).takeWhile (· ≠ '/') = serverText server := congrArg Prod.fst (Uri.cut_of_not_mem hall)
    rw [htake, serverText, Uri.parseServer_append hat] at hserver
    obtain ⟨-, hserver⟩ := Option.ite_none_right_eq_some.mp hserver
    have hdigits : (toString server.port).toList.all Uri.isDigit = true := List.all_eq_true.mpr (port_digit h)
    obtain ⟨huser, hhost, hport⟩ :=
      Uri.eq_of_parseHostPort (hostText h) (Text.toString_ne_nil _) hdigits hserver
    have hback : Text.toInt (toString server.port).toList = some server.port :=
      Text.parseSigned_toString (Int.le_trans (by decide) h.port.1) (Int.le_trans h.port.2 (by decide))
    exact .inr ⟨huser, hhost, Option.some.inj (hport.symm.trans hback)⟩

/-- The user info of the link holds the method and the password. -/
theorem methodAndPassword (hlib : ∀ b, lib.base64Decode (Base64.encodeNoWrap b) = some b) (h : Shares lib c server) :
    Utils.decode lib (userText server) = server.method ++ ':' :: server.password ∧
      ∃ l, (Text.split [':'] (server.method ++ ':' :: server.password)).map Text.strip = server.method :: l ∧ l ≠ [] := by
  refine ⟨decode_encode hlib _, (Text.split [':'] server.password).map Text.strip, ?_, ?_⟩
  · rw [Text.split_append_cons h.method_colon, List.map_cons, h.method_strip]
  · exact List.map_eq_nil_iff.not.mpr (Text.splitFrom_ne_nil [':'] [] server.password 0)

/-- A link that is read as a URI is read as it was written. -/
theorem sip002_link (hlib : ∀ b, lib.base64Decode (Base64.encodeNoWrap b) = some b) (h : Shares lib c server)
    (config : ServerConfig) : ∃ remarks,
    tryResolveResolveSip002 lib (shareConfig lib c) config = ({ config with remarks := remarks }, false) ∨
      tryResolveResolveSip002 lib (shareConfig lib c) config =
        (setServer { config with remarks := remarks } fun s => { s with
          address := server.address, port := server.port, password := server.password, method := server.method }, true) := by
  unfold tryResolveResolveSip002
  split
  · exact ⟨config.remarks, .inl rfl⟩
  · rename_i uri huri
    refine ⟨urlDecode (uri.fragment.getD []), ?_⟩
    dsimp only
    cases hserver : uri.server with
    | none =>
      have huser : uri.userInfo = none := by rw [Uri.userInfo, hserver]; rfl
      rw [huser]
      exact .inl rfl
    | some s =>
      rcases server_of_link h huri hserver with hnone | ⟨huser, hhost, hport⟩
      · have huser : uri.userInfo = none := by
          rw [Uri.userInfo, hserver, Option.bind_some, hnone]
          rfl
        rw [huser]
        exact .inl rfl
      · have huser : uri.userInfo = some (userText server) := by
          have hpercent : '%' ∉ userText server := not_mem_userText (by decide) (by decide)
          rw [Uri.userInfo, hserver, Option.bind_some, huser, Option.map_some, Uri.decoded,
            Percent.decode_of_not_mem hpercent, Option.getD_some]
        have hhost : uri.host = some (getIpv6Address server.address) := by
          rw [Uri.host, hserver, Option.map_some, hhost]
        have hport : uri.port = server.port := by
          rw [Uri.port, hserver, Option.map_some, Option.getD_some, hport]
        have hcolon : ':' ∉ userText server := not_mem_userText (by decide) (by decide)
        obtain ⟨hdecode, l, hsplit, hl⟩ := methodAndPassword hlib h
        obtain ⟨x, l, rfl⟩ := List.exists_cons_of_ne_nil hl
        have hrest : ((server.method ++ ':' :: server.password).dropWhile (· ≠ ':')).tail = server.password := by
          have htrue : ∀ d ∈ server.method, decide (d ≠ ':') = true := fun d hd =>
            decide_eq_true fun heq => h.method_colon (heq ▸ hd)
          rw [List.dropWhile_append_of_pos htrue, List.dropWhile_cons_of_neg (by simp), List.tail_cons]
        refine .inr ?_
        rw [huser, Option.bind_some, if_neg hcolon, hdecode, hsplit, hrest, hhost, hport]
        dsimp only
        rw [idnHost_getIpv6Address h]

/-- What the pattern finds in the link. -/
theorem patternParts (h : Shares lib c server) :
    PatternParts
      { user := server.method, pass := server.password, host := getIpv6Address server.address
        port := (toString server.port).toList } where
  user_ne := h.method_ne
  user_dot := h.method_dot
  user_colon := h.method_colon
  pass_dot := h.password_dot
  host_ne := by
    show getIpv6Address server.address ≠ []
    rcases getIpv6Address_cases server.address with heq | heq
    · rw [heq]
      exact h.address_ne
    · rw [heq]
      exact List.cons_ne_nil _ _
  host_dot := by
    intro x hx
    rcases getIpv6Address_cases server.address with heq | heq
    · rw [heq] at hx
      exact (h.address x hx).2
    · rw [heq] at hx
      rcases List.mem_append.mp hx with hx | hx
      · rcases List.mem_cons.mp hx with rfl | hx
        · decide
        · exact (h.address x hx).2
      · rw [List.mem_singleton.mp hx]
        decide
  host_at := not_mem_host h (by decide)
  port_ne := Text.toString_ne_nil _
  port_digit := port_digit h

theorem partDecode_serverText (hlib : ∀ b, lib.base64Decode (Base64.encodeNoWrap b) = some b)
    (server : ServersBean) :
    partDecode lib (serverText server) = server.method ++ ':' :: (server.password ++
      '@' :: (getIpv6Address server.address ++ ':' :: (toString server.port).toList)) := by
  have hat : '@' ∉ userText server := not_mem_userText (by decide) (by decide)
  have htrue : ∀ d ∈ userText server, decide (d ≠ '@') = true := fun d hd => decide_eq_true fun heq => hat (heq ▸ hd)
  have hdecode : Utils.decode lib (userText server) = server.method ++ ':' :: server.password := decode_encode hlib _
  rw [partDecode, serverText, if_pos (indexPositive_append_cons hat userText_ne_nil _),
    List.takeWhile_append_of_pos htrue, List.dropWhile_append_of_pos htrue, List.takeWhile_cons_of_neg (by simp),
    List.dropWhile_cons_of_neg (by simp), List.append_nil, hdecode, List.append_assoc, List.cons_append]

/-- The scheme stands at the beginning only. -/
theorem replace_link (h : Shares lib c server) :
    Text.replace (scheme .shadowsocks) [] (shareConfig lib c) = serverText server ++ '#' :: urlEncode c.remarks := by
  have hscheme : scheme .shadowsocks = "ss://".toList := by decide
  have hne : scheme .shadowsocks ≠ [] := by decide
  have hinf : ¬scheme .shadowsocks <:+: serverText server ++ '#' :: urlEncode c.remarks := by
    have hlist : serverText server ++ '#' :: urlEncode c.remarks = userText server ++ (['@'] ++
        (getIpv6Address server.address ++ ':' :: (toString server.port).toList ++ '#' :: urlEncode c.remarks)) := by
      simp [serverText]
    have hat : '@' ∉ scheme .shadowsocks := by decide
    rw [hlist, (Text.apart_singleton hat hne).infix_append_iff]
    rintro (hinf | hinf)
    · -- no colon in the Base64
      have hcolon : ':' ∈ scheme .shadowsocks := by decide
      exact not_mem_userText (by decide) (by decide) (hinf.subset hcolon)
    · -- and no slash behind it
      have hslash : '/' ∈ scheme .shadowsocks := by decide
      have hport : '/' ∉ (toString server.port).toList := fun hmem => absurd (port_digit h '/' hmem) (by decide)
      have hrest : '/' ∉ getIpv6Address server.address ++ ':' :: (toString server.port).toList ++
          '#' :: urlEncode c.remarks := by
        simp only [List.mem_append, List.mem_cons, not_or]
        exact ⟨⟨not_mem_host h (by decide), by decide, hport⟩, by decide, not_mem_urlEncode (by decide) _⟩
      exact hrest (hinf.subset hslash)
  rw [shareConfig_shadowsocks h, ← hscheme, Text.replace_append hne, List.nil_append, Text.replace_of_absent hinf]

theorem cutRemarks_append {s : List Char} (hmark : '#' ∉ s) (hne : s ≠ []) (config : ServerConfig) (remarks : List Char) :
    cutRemarks config (s ++ '#' :: remarks) = ({ config with remarks := urlDecode remarks }, s) := by
  have htrue : ∀ d ∈ s, decide (d ≠ '#') = true := fun d hd => decide_eq_true fun heq => hmark (heq ▸ hd)
  rw [cutRemarks, if_pos (indexPositive_append_cons hmark hne _), List.takeWhile_append_of_pos htrue,
    List.dropWhile_append_of_pos htrue, List.takeWhile_cons_of_neg (by simp), List.dropWhile_cons_of_neg (by simp),
    List.append_nil, List.tail_cons]

theorem cutRemarks_link (h : Shares lib c server) (config : ServerConfig) :
    ∃ remarks, cutRemarks config (serverText server ++ '#' :: urlEncode c.remarks) =
      ({ config with remarks := remarks }, serverText server) := by
  have hmark : '#' ∉ serverText server := not_mem_serverText h (by decide)
  exact ⟨_, cutRemarks_append hmark (List.append_ne_nil_of_left_ne_nil userText_ne_nil _) config _⟩

/-- Either way the server is stored as it was. -/
theorem importShadowsocks_link (hlib : ∀ b, lib.base64Decode (Base64.encodeNoWrap b) = some b)
    (h : Shares lib c server) :
    ∃ remarks, importShadowsocks lib (shareConfig lib c) =
      .ok (setServer { ServerConfig.create .shadowsocks with remarks := remarks } fun s => { s with
        address := server.address, port := server.port, password := server.password, method := server.method }) := by
  obtain ⟨remarks, hsip | hsip⟩ := sip002_link hlib h (ServerConfig.create .shadowsocks)
  · obtain ⟨remarks', hcut⟩ := cutRemarks_link h { ServerConfig.create .shadowsocks with remarks := remarks }
    have hpattern := shadowsocksPattern_eq (patternParts h)
    have hport : Text.toInt (toString server.port).toList = some server.port :=
      Text.parseSigned_toString (Int.le_trans (by decide) h.port.1) (Int.le_trans h.port.2 (by decide))
    refine ⟨remarks', ?_⟩
    rw [importShadowsocks, hsip]
    simp only [Bool.false_eq_true, ↓reduceIte, replace_link h, hcut, partDecode_serverText hlib, hpattern, hport, get,
      removeBrackets_getIpv6Address h, h.method_lowercase]
    rfl
  · exact ⟨remarks, by rw [importShadowsocks, hsip]; rfl⟩

/-- The link of a Shadowsocks server is imported as the same server. -/
theorem shadowsocks_link_comes_back (hlib : ∀ b, lib.base64Decode (Base64.encodeNoWrap b) = some b)
    (h : Shares lib c server) (allowInsecure : Bool) (subid : List Char) :
    ∃ c', importedConfig lib allowInsecure (shareConfig lib c) subid = .ok c' ∧ SameServer c c' := by
  obtain ⟨remarks, himport⟩ := importShadowsocks_link hlib h
  have hfind : NicVpn.AngConfigManager.schemes.find? (fun t => (scheme t).isPrefixOf (shareConfig lib c)) =
      some .shadowsocks := by
    rw [shareConfig_shadowsocks h]
    rfl
  let c' : ServerConfig :=
    { setServer { ServerConfig.create .shadowsocks with remarks := remarks } fun s => { s with
        address := server.address, port := server.port, password := server.password, method := server.method } with
      subscriptionId := subid }
  have hstored : importedConfig lib allowInsecure (shareConfig lib c) subid = .ok c' := by
    rw [importedConfig, hfind]
    dsimp only
    rw [parseLink, himport]
    rfl
  obtain ⟨haddress, hport, hmethod, hpassword⟩ := accessors h.configType h.servers
  obtain ⟨haddress', hport', hmethod', hpassword'⟩ := accessors (show c'.configType = .shadowsocks from rfl) rfl
  exact ⟨c', hstored, h.configType.symm ▸ rfl, haddress'.trans haddress.symm, hport'.trans hport.symm,
    hmethod'.trans hmethod.symm, hpassword'.trans hpassword.symm⟩

end Link

/-- A server behind an IPv6 address, whose Base64 has a slash in it. -/
def sampleServer (method : List Char) : ServersBean where
  address := "2001:db8::1".toList
  method := method
  password := "p:@".toList
  port := 8388

def sampleShadowsocks (method : List Char) : ServerConfig where
  configType := .shadowsocks
  remarks := "Home".toList
  outboundBean := { servers := some (sampleServer method) }

theorem shares_sample : Shares plainLibraries (sampleShadowsocks "aes?".toList) (sampleServer "aes?".toList) where
  configType := rfl
  servers := rfl
  address_ne := by decide
  address := Text.forall_of_all (by decide)
  port := by decide
  method_ne := by decide
  method_lowercase := by decide
  method_colon := by decide
  method_strip := by decide
  method_dot := Text.forall_of_all (by decide)
  password_dot := Text.forall_of_all (by decide)

theorem shadowsocks_link_comes_back_sample :
    ∃ c', importedConfig plainLibraries false
        (shareConfig plainLibraries (sampleShadowsocks "aes?".toList)) [] = .ok c' ∧
      SameServer (sampleShadowsocks "aes?".toList) c' :=
  shadowsocks_link_comes_back plainLibraries_inverse.base64Decode_encode shares_sample false []

/-- A method of two lines is lost where the Base64 has a slash in it. -/
theorem two_line_method_refused :
    let method := "a\n?".toList
    (method ≠ [] ∧ plainLibraries.lowercase method = method ∧ ':' ∉ method ∧ Text.strip method = method) ∧
      shareConfig plainLibraries (sampleShadowsocks method) = "ss://YQo/OnA6QA==@[2001:db8::1]:8388#Home".toList ∧
      importedConfig plainLibraries false (shareConfig plainLibraries (sampleShadowsocks method)) [] =
        .error .incorrectProtocol := by
  have hlink : shareConfig plainLibraries (sampleShadowsocks "a\n?".toList) =
      "ss://YQo/OnA6QA==@[2001:db8::1]:8388#Home".toList := by
    repeat rw [String.toList_ofList]
    decide
  refine ⟨by decide, hlink, ?_⟩
  rw [hlink, String.toList_ofList]
  decide

end AngConfigManager
end NicVpn.V2ray
