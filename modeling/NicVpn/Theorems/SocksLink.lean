import NicVpn.Theorems.ServerLink

/-! The link of a SOCKS server. Of a link any text may be Base64, so that a server of any text is stored; the pattern takes
    the longest user first, and then the longest password. -/

namespace NicVpn.V2ray
open NicVpn.Utils Backtrack

/-- What the links rely on: Base64 is read as it was written, a `HashMap` has the entries that it was given, and a text
    in lower case is in lower case already and on as many lines as before. -/
structure Libraries.Lawful (lib : Libraries) : Prop where
  base64Decode_encode : ∀ b, lib.base64Decode (Base64.encodeNoWrap b) = some b
  hashOrder_perm : ∀ l, (lib.hashOrder l).Perm l
  lowercase_lowercase : ∀ s, lib.lowercase (lib.lowercase s) = lib.lowercase s
  lowercase_dot : ∀ s, (∀ c ∈ s, dot c = true) → ∀ c ∈ lib.lowercase s, dot c = true

namespace AngConfigManager

/-! ### The pattern -/

def socksPort (user pass host s : List Char) : Option Address :=
  shortestPlus digit s fun port s =>
    if s = [] ∨ (false ∧ s = ['/']) then some { user := user, pass := pass, host := host, port := port } else none

def socksHost (user pass s : List Char) : Option Address :=
  shortestPlus dot s fun host s => char ':' s (socksPort user pass host)

def socksPass (user s : List Char) : Option Address := longest dot s fun pass s => char '@' s (socksHost user pass)

theorem socksPattern_eq (s : List Char) : socksPattern s = longest dot s fun user s => char ':' s (socksPass user) := rfl

/-- What a pattern could take for password, host and port. -/
structure AddressChars (a : Address) : Prop where
  pass_dot : ∀ c ∈ a.pass, dot c = true
  host_ne : a.host ≠ []
  host_dot : ∀ c ∈ a.host, dot c = true
  port_ne : a.port ≠ []
  port_digit : ∀ c ∈ a.port, digit c = true

/-- What the pattern takes: no later colon could stand behind the user, and no later `@` behind the password. -/
structure SocksParts (a : Address) : Prop extends AddressChars a where
  user_dot : ∀ c ∈ a.user, dot c = true
  pass_colon : ':' ∉ a.pass
  host_at : '@' ∉ a.host.dropLast

def Address.hostText (a : Address) : List Char := a.host ++ ':' :: a.port

def Address.passText (a : Address) : List Char := a.pass ++ '@' :: a.hostText

def Address.text (a : Address) : List Char := a.user ++ ':' :: a.passText

section Pattern
variable {user pass host s : List Char} {a a' : Address}

theorem socksPort_iff :
    socksPort user pass host s = some a ↔
      s ≠ [] ∧ (∀ c ∈ s, digit c = true) ∧ a = { user := user, pass := pass, host := host, port := s } := by
  constructor
  · intro h
    obtain ⟨g, rest, hne, hg, hk⟩ := exists_shortestPlus h
    split at hk
    · rename_i hend
      cases hk
      obtain rfl : rest = [] := hend.resolve_right fun hslash => Bool.false_ne_true hslash.1
      obtain ⟨rfl, hdigits⟩ := hg
      rw [List.append_nil]
      exact ⟨hne, hdigits, rfl⟩
    · cases hk
  · rintro ⟨hne, hdigits, rfl⟩
    exact shortestPlus_digits false hne hdigits _

theorem socksHost_iff :
    socksHost user pass s = some a ↔
      (a.user = user ∧ a.pass = pass) ∧ a.host ≠ [] ∧ (∀ c ∈ a.host, dot c = true) ∧ a.port ≠ [] ∧
        (∀ c ∈ a.port, digit c = true) ∧ s = a.hostText := by
  constructor
  · intro h
    obtain ⟨g, rest, hne, ⟨rfl, hdot⟩, hk⟩ := exists_shortestPlus h
    obtain ⟨t, rfl, ht⟩ := char_eq_some_iff.mp hk
    obtain ⟨hport, hdigits, rfl⟩ := socksPort_iff.mp ht
    exact ⟨⟨rfl, rfl⟩, hne, hdot, hport, hdigits, rfl⟩
  · rintro ⟨⟨rfl, rfl⟩, hne, hdot, hport, hdigits, rfl⟩
    have hk : socksPort a.user a.pass a.host a.port = some a := socksPort_iff.mpr ⟨hport, hdigits, rfl⟩
    refine shortestPlus_eq_some ⟨rfl, hdot⟩ hne ((char_cons _ _ _).trans hk) fun d u g' hg => ?_
    by_cases hd : d = ':'
    · rw [hd, char_cons]
      exact shortestPlus_digits_of_mem false (by simp) _
    · exact char_of_ne hd _ _

/-- Two texts of hosts and ports are the same in one way only. -/
theorem hostText_inj (h : ∀ c ∈ a.port, digit c = true) (h' : ∀ c ∈ a'.port, digit c = true)
    {x y : List Char} (heq : x ++ ':' :: a.port = y ++ ':' :: a'.port) : x = y ∧ a.port = a'.port := by
  have hno : ∀ {port : List Char}, (∀ c ∈ port, digit c = true) → ':' ∉ port := fun hport hmem =>
    absurd (hport ':' hmem) (by decide)
  have hrev := congrArg List.reverse heq
  simp only [List.reverse_append, List.reverse_cons, List.append_assoc, List.singleton_append] at hrev
  have hinj := Joined.append_cons_inj (fun hmem => hno h (List.mem_reverse.mp hmem))
    (fun hmem => hno h' (List.mem_reverse.mp hmem)) hrev
  exact ⟨List.reverse_inj.mp hinj.2, List.reverse_inj.mp hinj.1⟩

/-- The longer of two beginnings goes on with what stands behind the other. -/
theorem exists_of_longer {d : Char} {x y s t : List Char} (h : x ++ d :: s = y ++ t) (hlen : x.length < y.length) :
    ∃ u, y = x ++ d :: u ∧ s = u ++ t := by
  rcases List.append_eq_append_iff.mp h with ⟨c, rfl, hc⟩ | ⟨c, rfl, -⟩
  · cases c with
    | nil => exact absurd hlen (by simp)
    | cons e u =>
      obtain ⟨rfl, hu⟩ := List.cons.inj hc
      exact ⟨u, rfl, hu⟩
  · exact absurd hlen (by simp)

theorem mem_dropLast_append {x y : List Char} (hy : y ≠ []) (d : Char) : d ∈ (x ++ d :: y).dropLast := by
  have hne : d :: y ≠ [] := List.cons_ne_nil d y
  rw [List.dropLast_append_of_ne_nil hne, List.dropLast_cons_of_ne_nil hy]
  simp

/-- Of two ways to read a password the one with more than the other has an `@` inside the host of the other. -/
theorem pass_cases {x : List Char} (ha : ∀ c ∈ a.port, digit c = true) (ha' : AddressChars a')
    (h : a.passText = x ++ '@' :: a'.hostText) : x <+: a.pass ∨ '@' ∈ a.host.dropLast := by
  have hends : (a.pass ++ '@' :: a.host) ++ ':' :: a.port = (x ++ '@' :: a'.host) ++ ':' :: a'.port := by
    simpa [Address.passText, Address.hostText] using h
  obtain ⟨heq, -⟩ := hostText_inj ha ha'.port_digit hends
  by_cases hlen : a.pass.length < x.length
  · obtain ⟨u, -, hhost⟩ := exists_of_longer heq hlen
    rw [hhost]
    exact .inr (mem_dropLast_append ha'.host_ne '@')
  · refine .inl (List.prefix_of_prefix_length_le (List.prefix_append x ('@' :: a'.host)) ?_ (Nat.le_of_not_lt hlen))
    rw [← heq]
    exact List.prefix_append _ _

theorem socksHost_eq (h : AddressChars a) : socksHost a.user a.pass a.hostText = some a :=
  socksHost_iff.mpr ⟨⟨rfl, rfl⟩, h.host_ne, h.host_dot, h.port_ne, h.port_digit, rfl⟩

theorem socksPass_ne_none (h : AddressChars a) : socksPass a.user a.passText ≠ none := by
  intro hnone
  have hrest := longest_eq_none_iff.mp hnone a.pass ('@' :: a.hostText) ⟨rfl, h.pass_dot⟩
  rw [char_cons, socksHost_eq h] at hrest
  cases hrest

theorem socksPass_iff :
    socksPass user s = some a ↔ a.user = user ∧ AddressChars a ∧ '@' ∉ a.host.dropLast ∧ s = a.passText := by
  constructor
  · intro h
    obtain ⟨g, rest, ⟨rfl, hdot⟩, hk, hmax⟩ := exists_longest h
    obtain ⟨t, rfl, ht⟩ := char_eq_some_iff.mp hk
    obtain ⟨⟨rfl, rfl⟩, hne, hhost, hport, hdigits, rfl⟩ := socksHost_iff.mp ht
    refine ⟨rfl, ⟨hdot, hne, hhost, hport, hdigits⟩, fun hmem => ?_, rfl⟩
    -- a password up to the later `@` would match too
    obtain ⟨x, z, hxz⟩ := List.append_of_mem hmem
    let b : Address := { a with pass := a.pass ++ '@' :: x, host := z ++ [a.host.getLast hne] }
    have hsplit : a.host = x ++ '@' :: b.host := by
      have hlast := List.dropLast_append_getLast hne
      rw [hxz] at hlast
      rw [← hlast]
      simp [b]
    have hdots : ∀ c ∈ x ++ '@' :: b.host, dot c = true := hsplit ▸ hhost
    have hb : AddressChars b :=
      { pass_dot := List.forall_mem_append.mpr ⟨hdot, List.forall_mem_cons.mpr
          ⟨by decide, fun c hc => hdots c (List.mem_append_left _ hc)⟩⟩
        host_ne := List.append_ne_nil_of_right_ne_nil _ (List.cons_ne_nil _ _)
        host_dot := fun c hc => hdots c (List.mem_append_right _ (List.mem_cons_of_mem _ hc))
        port_ne := hport
        port_digit := hdigits }
    have htakes : Takes dot (a.pass ++ '@' :: a.hostText) b.pass ('@' :: b.hostText) := by
      refine ⟨?_, hb.pass_dot⟩
      rw [Address.hostText, hsplit]
      simp [b, Address.hostText]
    have hnone := hmax _ _ htakes (by simp [b])
    rw [char_cons] at hnone
    exact absurd (hnone.symm.trans (socksHost_eq hb)) nofun
  · rintro ⟨rfl, hchars, hat, rfl⟩
    refine longest_eq_some_iff.mpr ⟨a.pass, '@' :: a.hostText, ⟨rfl, hchars.pass_dot⟩, ?_, fun g' rest' h' hlen => ?_⟩
    · rw [char_cons, socksHost_eq hchars]
    · cases hk : char '@' rest' (socksHost a.user g') with
      | none => rfl
      | some b =>
        obtain ⟨t, rfl, ht⟩ := char_eq_some_iff.mp hk
        obtain ⟨⟨-, rfl⟩, hne, hhost, hport, hdigits, rfl⟩ := socksHost_iff.mp ht
        have hb : AddressChars b := ⟨h'.2, hne, hhost, hport, hdigits⟩
        rcases pass_cases hchars.port_digit hb h'.1 with hpre | hmem
        · exact absurd hpre.length_le (Nat.not_le_of_lt hlen)
        · exact absurd hmem hat

theorem socksPattern_iff : socksPattern s = some a ↔ SocksParts a ∧ s = a.text := by
  rw [socksPattern_eq]
  constructor
  · intro h
    obtain ⟨g, rest, ⟨rfl, hdot⟩, hk, hmax⟩ := exists_longest h
    obtain ⟨t, rfl, ht⟩ := char_eq_some_iff.mp hk
    obtain ⟨rfl, hchars, hat, rfl⟩ := socksPass_iff.mp ht
    refine ⟨⟨hchars, hdot, fun hmem => ?_, hat⟩, rfl⟩
    -- a user up to the later colon would match too
    obtain ⟨x, y, hxy⟩ := List.append_of_mem hmem
    let b : Address := { a with user := a.user ++ ':' :: x, pass := y }
    have hdots : ∀ c ∈ x ++ ':' :: y, dot c = true := hxy ▸ hchars.pass_dot
    have hb : AddressChars b :=
      { hchars with pass_dot := fun c hc => hdots c (List.mem_append_right _ (List.mem_cons_of_mem _ hc)) }
    have htakes : Takes dot (a.user ++ ':' :: a.passText) b.user (':' :: b.passText) := by
      refine ⟨?_, List.forall_mem_append.mpr ⟨hdot, List.forall_mem_cons.mpr
        ⟨by decide, fun c hc => hdots c (List.mem_append_left _ hc)⟩⟩⟩
      rw [Address.passText, hxy]
      simp [b, Address.passText, Address.hostText]
    have hnone := hmax _ _ htakes (by simp [b])
    rw [char_cons] at hnone
    exact socksPass_ne_none hb hnone
  · rintro ⟨hparts, rfl⟩
    refine longest_eq_some_iff.mpr ⟨a.user, ':' :: a.passText, ⟨rfl, hparts.user_dot⟩, ?_, fun g' rest' h' hlen => ?_⟩
    · rw [char_cons]
      exact socksPass_iff.mpr ⟨rfl, hparts.toAddressChars, hparts.host_at, rfl⟩
    · cases hk : char ':' rest' (socksPass g') with
      | none => rfl
      | some b =>
        obtain ⟨t, rfl, ht⟩ := char_eq_some_iff.mp hk
        obtain ⟨rfl, hb, -, rfl⟩ := socksPass_iff.mp ht
        obtain ⟨u, -, hu⟩ := exists_of_longer h'.1 hlen
        have hpass : a.passText = (u ++ ':' :: b.pass) ++ '@' :: b.hostText := by
          rw [hu]
          simp [Address.passText]
        rcases pass_cases hparts.port_digit hb hpass with hpre | hmem
        · exact absurd (hpre.subset (by simp)) hparts.pass_colon
        · exact absurd hmem hparts.host_at

end Pattern

/-! ### The stored server -/

def socksConfig (subid remarks address : List Char) (port : Int) (user pass : List Char) : ServerConfig where
  configType := .socks
  subscriptionId := subid
  remarks := remarks
  outboundBean :=
    { servers := some { address := address, port := port, users := some { user := user, pass := pass } } }

theorem cutRemarks_config (config : ServerConfig) (s : List Char) :
    ∃ remarks, (cutRemarks config s).1 = { config with remarks := remarks } := by
  unfold cutRemarks
  split
  · exact ⟨_, rfl⟩
  · exact ⟨config.remarks, rfl⟩

section Stored
variable {lib : Libraries} {str : List Char} {c : ServerConfig}

theorem importSocks_eq_ok (h : importSocks lib str = .ok c) :
    ∃ remarks a port, SocksParts a ∧ Text.toInt a.port = some port ∧
      c = socksConfig [] remarks (removeBrackets a.host) port (lib.lowercase a.user) a.pass := by
  unfold importSocks at h
  generalize hcut : cutRemarks (ServerConfig.create .socks) (Text.replace (scheme .socks) [] str) = p at h
  obtain ⟨config, result⟩ := p
  obtain ⟨remarks, hconfig⟩ := cutRemarks_config (ServerConfig.create .socks) (Text.replace (scheme .socks) [] str)
  rw [hcut] at hconfig
  dsimp only at h hconfig
  cases ha : socksPattern (partDecode lib result) with
  | none =>
    simp only [ha] at h
    cases h
  | some a =>
    simp only [ha] at h
    obtain ⟨port, hport, h⟩ := get_bind_ok h
    refine ⟨remarks, a, port, (socksPattern_iff.mp ha).1, hport, ?_⟩
    rw [hconfig] at h
    cases h
    rfl

end Stored

/-! ### The link of the server -/

/-- An address that keeps its place in a link without a URI: the brackets that are read are those that were written. -/
structure KeptAddress (address : List Char) : Prop where
  ne_nil : address ≠ []
  hash : '#' ∉ address
  scheme : ¬scheme .socks <:+: address
  brackets : (isIpv6Address address = true ∧ '@' ∉ address) ∨
    (isIpv6Address address = false ∧ removeBrackets address = address)

section Address
variable {address host : List Char}

theorem KeptAddress.removeBrackets_eq (h : KeptAddress address) : removeBrackets (getIpv6Address address) = address := by
  rcases h.brackets with ⟨hv6, -⟩ | ⟨hv6, hsame⟩
  · rw [getIpv6Address, if_pos hv6, removeBrackets, if_pos ⟨by simp, rfl, List.getLast?_concat⟩]
    simp
  · rw [getIpv6Address, hv6, if_neg Bool.false_ne_true, hsame]

theorem mem_getIpv6Address {x : Char} (h : x ∈ getIpv6Address address) : x ∈ address ∨ x = '[' ∨ x = ']' := by
  rcases getIpv6Address_cases address with heq | heq
  · rw [heq] at h
    exact .inl h
  · rw [heq] at h
    simp only [List.cons_append, List.mem_cons, List.mem_append, List.not_mem_nil, or_false] at h
    rcases h with h | h | h
    · exact .inr (.inl h)
    · exact .inl h
    · exact .inr (.inr h)

theorem KeptAddress.host_ne (h : KeptAddress address) : getIpv6Address address ≠ [] := by
  rcases getIpv6Address_cases address with heq | heq
  · rw [heq]
    exact h.ne_nil
  · rw [heq]
    exact List.cons_ne_nil _ _

theorem removeBrackets_cases (host : List Char) : removeBrackets host = host ∨ host = '[' :: removeBrackets host ++ [']'] := by
  unfold removeBrackets
  split
  · rename_i hcond
    obtain ⟨hlen, hhead, hlast⟩ := hcond
    obtain ⟨c, t, rfl⟩ := List.exists_cons_of_ne_nil (List.ne_nil_of_length_pos (Nat.lt_of_lt_of_le (by decide) hlen))
    have hne : t ≠ [] := by
      rintro rfl
      exact absurd hlen (by simp)
    rw [List.getLast?_cons_of_ne_nil hne] at hlast
    rw [List.head?_cons, Option.some.injEq] at hhead
    have hback := List.dropLast_append_getLast? ']' hlast
    refine .inr ?_
    rw [List.tail_cons, hhead, List.cons_append, hback]
  · exact .inl rfl

theorem mem_of_mem_removeBrackets {x : Char} (h : x ∈ removeBrackets host) : x ∈ host := by
  rcases removeBrackets_cases host with heq | heq
  · exact heq ▸ h
  · rw [heq]
    exact List.mem_cons_of_mem _ (List.mem_append_left _ h)

/-- The host that is shared has no `@` before its end, as the one that was read. -/
theorem KeptAddress.host_at (h : KeptAddress (removeBrackets host)) (hat : '@' ∉ host.dropLast) :
    '@' ∉ (getIpv6Address (removeBrackets host)).dropLast := by
  rcases h.brackets with ⟨hv6, hno⟩ | ⟨hv6, -⟩
  · intro hmem
    rcases mem_getIpv6Address ((List.dropLast_sublist _).subset hmem) with hmem | heq | heq
    · exact hno hmem
    · cases heq
    · cases heq
  · rw [getIpv6Address, hv6, if_neg Bool.false_ne_true]
    rcases removeBrackets_cases host with heq | heq
    · rwa [heq]
    · rw [heq, List.dropLast_concat] at hat
      exact fun hmem => hat (List.mem_cons_of_mem _ ((List.dropLast_sublist _).subset hmem))

end Address

/-- What a SOCKS configuration has to be for its link to give it again. -/
structure KeptSocks (c : ServerConfig) : Prop where
  remarks : Plain c.remarks
  address : ∀ a ∈ c.getServerAddress, KeptAddress a

section Shared
variable {lib : Libraries} {str subid remarks address user pass : List Char} {port : Int} {a : Address} {c : ServerConfig}

/-- User, password, address and port of a server, as Shadowsocks has them. -/
def socksServer (address : List Char) (port : Int) (user pass : List Char) : ServersBean :=
  { address := address, port := port, method := user, password := pass }

theorem shareConfig_socks :
    shareConfig lib (socksConfig subid remarks address port user pass) =
      scheme .socks ++ (serverText (socksServer address port user pass) ++ '#' :: urlEncode remarks) := by
  have htype : (socksConfig subid remarks address port user pass).configType = .socks := rfl
  have hurl : ∀ pw, shareUrl (socksConfig subid remarks address port user pass) pw =
      some (pw ++ '@' :: (getIpv6Address address ++ ':' :: (toString port).toList)) := by
    intro pw
    rw [← List.cons_append, ← List.append_assoc]
    rfl
  have hshare : shareSocks (socksConfig subid remarks address port user pass) =
      some (serverText (socksServer address port user pass) ++ '#' :: urlEncode remarks) := by
    rw [shareSocks, hurl, Option.map_some]
    rfl
  rw [shareConfig, htype]
  simp only [hshare, Option.map_some, Option.getD_some]

/-- The scheme occurs in the link once. -/
theorem not_infix_socks (hport : 0 ≤ port) (h : KeptAddress address) :
    ¬scheme .socks <:+: serverText (socksServer address port user pass) ++ '#' :: urlEncode remarks := by
  have hne : scheme .socks ≠ [] := by decide
  have hat : '@' ∉ scheme .socks := by decide
  have hlist : serverText (socksServer address port user pass) ++ '#' :: urlEncode remarks =
      userText (socksServer address port user pass) ++ (['@'] ++ (getIpv6Address address ++
        (':' :: (toString port).toList ++ '#' :: urlEncode remarks))) := by
    simp [serverText, socksServer]
  rw [hlist, (Text.apart_singleton hat hne).infix_append_iff]
  rintro (hinf | hinf)
  · -- no colon in the Base64
    have hcolon : ':' ∈ scheme .socks := by decide
    exact not_mem_userText (by decide) (by decide) (hinf.subset hcolon)
  · -- and no slash behind the host
    have hslash : '/' ∉ ':' :: (toString port).toList ++ '#' :: urlEncode remarks := by
      have hdigits : '/' ∉ (toString port).toList := fun hmem =>
        absurd (Text.isDigit_of_mem_toString hport hmem) (by decide)
      simp only [List.cons_append, List.mem_cons, List.mem_append, not_or]
      exact ⟨by decide, hdigits, by decide, not_mem_urlEncode (by decide) _⟩
    have hreverse : (scheme .socks).reverse <:+: (getIpv6Address address).reverse := by
      have hscheme : (scheme .socks).reverse = '/' :: (scheme .socks).reverse.tail := by decide
      have hinf' := List.reverse_infix.mpr hinf
      rw [List.reverse_append, hscheme] at hinf'
      rw [hscheme]
      exact Text.infix_of_not_mem (fun hmem => hslash (List.mem_reverse.mp hmem)) hinf'
    have hhost : scheme .socks <:+: getIpv6Address address := List.reverse_infix.mp hreverse
    rcases getIpv6Address_cases address with heq | heq
    · exact h.scheme (heq ▸ hhost)
    · have hopen : '[' ∉ scheme .socks := by decide
      have hclose : ']' ∉ scheme .socks := by decide
      have hbrackets : getIpv6Address address = [] ++ (['['] ++ (address ++ ([']'] ++ []))) := by
        rw [heq]
        simp
      rw [hbrackets, (Text.apart_singleton hopen hne).infix_append_iff,
        (Text.apart_singleton hclose hne).infix_append_iff] at hhost
      rcases hhost with hnil | hhost | hnil
      · exact hne (List.infix_nil.mp hnil)
      · exact h.scheme hhost
      · exact hne (List.infix_nil.mp hnil)

theorem isDigit_of_digit {x : Char} (h : digit x = true) : x.isDigit = true := by
  simpa [digit, Char.isDigit, Char.le_def] using h

/-- The parts of a link, less its remarks. -/
def linkParts (address : List Char) (port : Int) (user pass : List Char) : Address :=
  { user := user, pass := pass, host := getIpv6Address address, port := (toString port).toList }

/-- What the pattern finds in the link of a stored server. -/
theorem socksParts_shared (hlib : lib.Lawful) (ha : SocksParts a) (hport : 0 ≤ port)
    (h : KeptAddress (removeBrackets a.host)) :
    SocksParts (linkParts (removeBrackets a.host) port (lib.lowercase a.user) a.pass) where
  pass_dot := ha.pass_dot
  host_ne := h.host_ne
  host_dot := by
    intro c hc
    rcases mem_getIpv6Address hc with hc | rfl | rfl
    · exact ha.host_dot c (mem_of_mem_removeBrackets hc)
    · decide
    · decide
  port_ne := Text.toString_ne_nil port
  port_digit := fun _ hc => digit_of_isDigit (Text.isDigit_of_mem_toString hport hc)
  user_dot := hlib.lowercase_dot a.user ha.user_dot
  pass_colon := ha.pass_colon
  host_at := h.host_at ha.host_at

theorem hash_serverText (hport : 0 ≤ port) (h : KeptAddress address) : '#' ∉ serverText (socksServer address port user pass) := by
  have huser : '#' ∉ userText (socksServer address port user pass) := not_mem_userText (by decide) (by decide)
  have hdigits : '#' ∉ (toString port).toList := fun hmem => absurd (Text.isDigit_of_mem_toString hport hmem) (by decide)
  have hhost : '#' ∉ getIpv6Address address := by
    intro hmem
    rcases mem_getIpv6Address hmem with hmem | heq | heq
    · exact h.hash hmem
    · cases heq
    · cases heq
  simp only [serverText, List.mem_append, List.mem_cons, not_or]
  exact ⟨huser, by decide, hhost, by decide, hdigits⟩

/-- The link is read as the server that it was written of. -/
theorem importSocks_link (hlib : ∀ b, lib.base64Decode (Base64.encodeNoWrap b) = some b)
    (hparts : SocksParts (linkParts address port user pass))
    (huser : lib.lowercase user = user) (haddress : KeptAddress address) (hremarks : Plain remarks) (hport : 0 ≤ port)
    (hmax : port ≤ 2147483647) :
    importSocks lib (shareConfig lib (socksConfig subid remarks address port user pass)) =
      .ok (socksConfig [] remarks address port user pass) := by
  have hreplace : Text.replace (scheme .socks) [] (shareConfig lib (socksConfig subid remarks address port user pass)) =
      serverText (socksServer address port user pass) ++ '#' :: urlEncode remarks := by
    have hne : scheme .socks ≠ [] := by decide
    rw [shareConfig_socks, Text.replace_append hne, List.nil_append,
      Text.replace_of_absent (not_infix_socks hport haddress)]
  have hcut : cutRemarks (ServerConfig.create .socks)
      (serverText (socksServer address port user pass) ++ '#' :: urlEncode remarks) =
        ({ ServerConfig.create .socks with remarks := remarks }, serverText (socksServer address port user pass)) := by
    have hne : serverText (socksServer address port user pass) ≠ [] := List.append_ne_nil_of_left_ne_nil userText_ne_nil _
    rw [cutRemarks_append (hash_serverText hport haddress) hne, hremarks.urlDecode_urlEncode]
  have hpattern : socksPattern (partDecode lib (serverText (socksServer address port user pass))) =
      some (linkParts address port user pass) := by
    rw [partDecode_serverText hlib]
    exact socksPattern_iff.mpr ⟨hparts, rfl⟩
  have hback : Text.toInt (toString port).toList = some port :=
    Text.parseSigned_toString (Int.le_trans (by decide) hport) hmax
  simp only [importSocks, hreplace, hcut, hpattern, linkParts, hback, get, haddress.removeBrackets_eq, huser]
  rfl

/-- A stored server is read from its link again. -/
theorem importSocks_shared (hlib : lib.Lawful) (h : importSocks lib str = .ok c) :
    ∃ remarks address port user pass, c = socksConfig [] remarks address port user pass ∧
      ∀ subid, KeptSocks (socksConfig subid remarks address port user pass) →
        importSocks lib (shareConfig lib (socksConfig subid remarks address port user pass)) =
          .ok (socksConfig [] remarks address port user pass) := by
  obtain ⟨remarks, a, port, ha, hport, rfl⟩ := importSocks_eq_ok h
  have hnonneg : 0 ≤ port := Text.nonneg_of_parseSigned (fun c hc => isDigit_of_digit (ha.port_digit c hc)) hport
  have hmax : port ≤ 2147483647 := (Text.range_of_parseSigned hport).2
  refine ⟨remarks, _, port, _, a.pass, rfl, fun subid hk => ?_⟩
  have haddress : KeptAddress (removeBrackets a.host) := hk.address _ rfl
  exact importSocks_link hlib.base64Decode_encode (socksParts_shared hlib ha hnonneg haddress)
    (hlib.lowercase_lowercase a.user) haddress hk.remarks hnonneg hmax

end Shared

end AngConfigManager
end NicVpn.V2ray
