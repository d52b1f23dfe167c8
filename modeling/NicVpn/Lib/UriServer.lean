import NicVpn.Lib.Replace
import NicVpn.Lib.Uri

/-! The texts that a URI is read of: legal ones, of which a character separates the parts that no escape has, the hosts of
    servers, and a server with a query. -/

namespace Uri
open Percent

/-! ### Legal texts -/

section Legal
variable {p : Char → Bool} {s t : List Char} {c : Char}

theorem legal_iff : legal p s = true ↔ ∃ l, Coded s l ∧ ∀ c, Piece.char c ∈ l → (p c || isOther c) = true := by
  unfold legal
  split
  · rename_i hnone
    refine iff_of_false Bool.false_ne_true ?_
    rintro ⟨l, hl, -⟩
    rw [hl.pieces_eq] at hnone
    cases hnone
  · rename_i l hl
    rw [List.all_eq_true]
    constructor
    · intro h
      exact ⟨l, coded_of_pieces hl, fun c hc => h _ hc⟩
    · rintro ⟨l', hl', h⟩ b hb
      rw [hl'.pieces_eq] at hl
      cases hl
      cases b with
      | char c => exact h c hb
      | byte b => rfl

theorem legal_nil (p : Char → Bool) : legal p [] = true := rfl

theorem legal_cons (hc : c ≠ '%') : legal p (c :: s) = ((p c || isOther c) && legal p s) := by
  unfold legal
  rw [pieces_char hc]
  cases pieces s <;> simp

/-- A character that no escape has separates a legal text. -/
theorem legal_append_cons (hc : hexValue c = none) :
    legal p (s ++ c :: t) = (legal p s && legal p (c :: t)) := by
  rw [Bool.eq_iff_iff, Bool.and_eq_true, legal_iff, legal_iff, legal_iff]
  constructor
  · rintro ⟨l, hl, h⟩
    obtain ⟨l₁, l₂, h₁, h₂, rfl⟩ := hl.split hc
    exact ⟨⟨l₁, h₁, fun c hc => h c (List.mem_append_left _ hc)⟩, ⟨l₂, h₂, fun c hc => h c (List.mem_append_right _ hc)⟩⟩
  · rintro ⟨⟨l₁, h₁, hall⟩, ⟨l₂, h₂, hall'⟩⟩
    refine ⟨l₁ ++ l₂, h₁.append h₂, fun c hc => ?_⟩
    rcases List.mem_append.mp hc with hc | hc
    · exact hall c hc
    · exact hall' c hc

theorem not_mem_of_legal (h : legal p s = true) (hc : hexValue c = none) (hc' : c ≠ '%')
    (hp : (p c || isOther c) = false) : c ∉ s := by
  intro hmem
  obtain ⟨x, y, rfl⟩ := List.append_of_mem hmem
  rw [legal_append_cons hc, legal_cons hc', hp, Bool.false_and, Bool.and_false] at h
  exact Bool.false_ne_true h

theorem legal_of_forall (h : ∀ c ∈ s, c ≠ '%' ∧ p c = true) : legal p s = true := by
  induction s with
  | nil => rfl
  | cons c s ih =>
    obtain ⟨⟨hc, hp⟩, hs⟩ := List.forall_mem_cons.mp h
    rw [legal_cons hc, hp, ih hs]
    rfl

end Legal

/-! ### Hosts -/

/-- A name or an IPv4 address, or a literal address in its brackets. -/
inductive IsHost : List Char → Prop
  | name {s : List Char} (h : (isIPv4 s || isHostname s) = true) : IsHost s
  | literal {s : List Char} (h : isLiteral s = true) : IsHost ('[' :: s ++ [']'])

def isNameChar (c : Char) : Bool := isAlphanum c || c == '-' || c == '.'

def isLiteralChar (c : Char) : Bool := isHex c || isScopeChar c || c == ':' || c == '%'

section Host
variable {s : List Char} {c : Char}

theorem isIPv4_chars (h : isIPv4 s = true) : s ≠ [] ∧ ∀ c ∈ s, isDigit c = true ∨ c = '.' := by
  obtain ⟨hlength, hbytes⟩ := (Bool.and_eq_true _ _).mp h
  constructor
  · rintro rfl
    exact absurd hlength (by decide)
  · intro c hc
    rcases Text.mem_split (List.cons_ne_nil '.' []) hc with hdot | ⟨x, hx, hcx⟩
    · exact .inr (List.mem_singleton.mp hdot)
    · have hbyte := List.all_eq_true.mp hbytes x hx
      unfold isByte at hbyte
      rw [Bool.and_eq_true, Bool.and_eq_true] at hbyte
      exact .inl (List.all_eq_true.mp hbyte.1.2 c hcx)

theorem isHostname_chars (h : isHostname s = true) : s ≠ [] ∧ ∀ c ∈ s, isNameChar c = true := by
  unfold isHostname at h
  dsimp only at h
  rw [Bool.and_eq_true, Bool.and_eq_true] at h
  obtain ⟨⟨hne, hlabels⟩, -⟩ := h
  constructor
  · rintro rfl
    exact absurd hne (by decide)
  · intro c hc
    rcases Text.mem_split (List.cons_ne_nil '.' []) hc with hdot | ⟨x, hx, hcx⟩
    · rw [List.mem_singleton.mp hdot]
      rfl
    · have hmem : x ∈ labels s := by
        unfold labels
        dsimp only
        split
        · rename_i hlast
          have hsplit := List.dropLast_append_getLast? _ hlast
          rw [← hsplit] at hx
          refine (List.mem_append.mp hx).resolve_right fun hx => ?_
          rw [List.mem_singleton.mp hx] at hcx
          cases hcx
        · exact hx
      have hlabel := List.all_eq_true.mp hlabels x hmem
      unfold isLabel at hlabel
      rw [Bool.and_eq_true] at hlabel
      have hchar := List.all_eq_true.mp hlabel.2 c hcx
      unfold isNameChar
      rw [hchar]
      rfl

theorem isScopeChar_of_isDigit (h : isDigit c = true) : isScopeChar c = true := by
  simp [isScopeChar, isAlphanum, h]

theorem isHex4_chars (h : isHex4 s = true) : ∀ c ∈ s, isHex c = true := by
  unfold isHex4 at h
  rw [Bool.and_eq_true] at h
  exact List.all_eq_true.mp h.2

/-- Groups of digits in hexadecimal, and digits and dots. -/
theorem groupBytes_chars {l : List (List Char)} {n : Nat} (h : groupBytes l = some n) :
    ∀ x ∈ l, ∀ c ∈ x, isHex c = true ∨ isScopeChar c = true := by
  have hipv4 : ∀ x, isIPv4 x = true → ∀ c ∈ x, isHex c = true ∨ isScopeChar c = true := by
    intro x hx c hc
    rcases (isIPv4_chars hx).2 c hc with hdigit | rfl
    · exact .inr (isScopeChar_of_isDigit hdigit)
    · exact .inr rfl
  fun_induction groupBytes l generalizing n with
  | case1 => exact fun _ hx => absurd hx List.not_mem_nil
  | case2 g hg =>
    intro x hx c hc
    rw [List.mem_singleton.mp hx] at hc
    exact .inl (isHex4_chars hg c hc)
  | case3 g _ hg =>
    intro x hx c hc
    rw [List.mem_singleton.mp hx] at hc
    exact hipv4 g hg c hc
  | case4 => cases h
  | case5 g gs _ hg ih =>
    obtain ⟨m, hm, -⟩ := Option.map_eq_some_iff.mp h
    exact List.forall_mem_cons.mpr ⟨fun c hc => .inl (isHex4_chars hg c hc), ih hm⟩
  | case6 => cases h

theorem sideBytes_chars {n : Nat} (h : sideBytes s = some n) :
    ∀ c ∈ s, isHex c = true ∨ isScopeChar c = true ∨ c = ':' := by
  intro c hc
  unfold sideBytes at h
  rw [if_neg (List.ne_nil_of_mem hc)] at h
  rcases Text.mem_split (List.cons_ne_nil ':' []) hc with hcolon | ⟨x, hx, hcx⟩
  · exact .inr (.inr (List.mem_singleton.mp hcolon))
  · exact (groupBytes_chars h x hx c hcx).imp_right .inl

theorem isIPv6_chars (h : isIPv6 s = true) : ∀ c ∈ s, isHex c = true ∨ isScopeChar c = true ∨ c = ':' := by
  intro c hc
  unfold isIPv6 at h
  rcases Text.mem_split (List.cons_ne_nil ':' [':']) hc with hcolon | ⟨x, hx, hcx⟩
  · exact .inr (.inr (by simpa using hcolon))
  · split at h
    · rename_i s' hsplit
      rw [hsplit, List.mem_singleton] at hx
      subst hx
      exact sideBytes_chars (of_decide_eq_true h) c hcx
    · rename_i a b hsplit
      split at h
      · rename_i m n hm hn
        rw [hsplit] at hx
        rcases List.mem_cons.mp hx with rfl | hx
        · exact sideBytes_chars hm c hcx
        · rw [List.mem_singleton.mp hx] at hcx
          exact sideBytes_chars hn c hcx
      · cases h
    · cases h

theorem colon_of_isIPv6 (h : isIPv6 s = true) : ':' ∈ s := by
  refine Decidable.byContradiction fun hcolon => ?_
  have hinf : ¬[':', ':'] <:+: s := fun hinf => hcolon (hinf.subset List.mem_cons_self)
  have hside : sideBytes s ≠ some 16 := by
    unfold sideBytes
    rw [Text.split_of_not_mem hcolon, groupBytes]
    split
    · decide
    · split
      · decide
      · split <;> decide
  unfold isIPv6 at h
  rw [Text.split_of_not_infix hinf] at h
  exact hside (of_decide_eq_true h)

theorem eq_of_cut_none {t : List Char} (h : cut c s = (t, none)) : t = s ∧ c ∉ s := by
  by_cases hc : c ∈ s
  · obtain ⟨x, y, rfl, hx⟩ := List.eq_append_cons_of_mem hc
    rw [cut_append_cons hx] at h
    cases h
  · rw [cut_of_not_mem hc] at h
    cases h
    exact ⟨rfl, hc⟩

theorem eq_of_cut_some {t u : List Char} (h : cut c s = (t, some u)) : s = t ++ c :: u ∧ c ∉ t := by
  by_cases hc : c ∈ s
  · obtain ⟨x, y, rfl, hx⟩ := List.eq_append_cons_of_mem hc
    rw [cut_append_cons hx] at h
    cases h
    exact ⟨rfl, hx⟩
  · rw [cut_of_not_mem hc] at h
    cases h

theorem isLiteral_chars (h : isLiteral s = true) : ':' ∈ s ∧ ∀ c ∈ s, isLiteralChar c = true := by
  have hipv6 : ∀ c, isHex c = true ∨ isScopeChar c = true ∨ c = ':' → isLiteralChar c = true := by
    rintro c (hc | hc | rfl)
    · simp [isLiteralChar, hc]
    · simp [isLiteralChar, hc]
    · rfl
  unfold isLiteral at h
  split at h
  · rename_i t hcut
    obtain ⟨rfl, -⟩ := eq_of_cut_none hcut
    exact ⟨colon_of_isIPv6 h, fun c hc => hipv6 c (isIPv6_chars h c hc)⟩
  · rename_i t scope hcut
    obtain ⟨rfl, -⟩ := eq_of_cut_some hcut
    rw [Bool.and_eq_true, Bool.and_eq_true] at h
    refine ⟨List.mem_append_left _ (colon_of_isIPv6 h.1.1), fun c hc => ?_⟩
    rcases List.mem_append.mp hc with hc | hc
    · exact hipv6 c (isIPv6_chars h.1.1 c hc)
    · rcases List.mem_cons.mp hc with rfl | hc
      · rfl
      · exact hipv6 c (.inr (.inl (List.all_eq_true.mp h.2 c hc)))

theorem IsHost.name_chars (h : (isIPv4 s || isHostname s) = true) : s ≠ [] ∧ ∀ c ∈ s, isNameChar c = true := by
  rcases (Bool.or_eq_true _ _).mp h with h | h
  · refine ⟨(isIPv4_chars h).1, fun c hc => ?_⟩
    rcases (isIPv4_chars h).2 c hc with hdigit | rfl
    · simp [isNameChar, isAlphanum, hdigit]
    · rfl
  · exact isHostname_chars h

theorem isIPv4OrHostname_head {s : List Char} (h : (isIPv4 s || isHostname s) = true) : s.head? ≠ some '[' := fun hhead =>
  absurd ((IsHost.name_chars h).2 '[' (List.mem_of_mem_head? hhead)) (by decide)

theorem IsHost.hostText (h : IsHost s) : HostText s := by
  cases h with
  | name h => exact .inr ⟨(IsHost.name_chars h).1, isIPv4OrHostname_head h⟩
  | @literal x h => exact .inl ⟨x, fun hmem => absurd ((isLiteral_chars h).2 ']' hmem) (by decide), rfl⟩

/-- None of these characters stands in a host. -/
theorem IsHost.not_mem (h : IsHost s) (hc : c ∈ " |/?#@".toList) : c ∉ s := by
  have hno : ∀ c ∈ " |/?#@".toList, isNameChar c = false ∧ isLiteralChar c = false ∧ c ≠ '[' ∧ c ≠ ']' :=
    Text.forall_of_all (by decide)
  obtain ⟨hname, hliteral, hopen, hclose⟩ := hno c hc
  cases h with
  | name h => exact fun hmem => Bool.false_ne_true (hname.symm.trans ((IsHost.name_chars h).2 c hmem))
  | @literal x h =>
    intro hmem
    rcases List.mem_append.mp hmem with hmem | hmem
    · rcases List.mem_cons.mp hmem with rfl | hmem
      · exact hopen rfl
      · exact Bool.false_ne_true (hliteral.symm.trans ((isLiteral_chars h).2 c hmem))
    · exact hclose (List.mem_singleton.mp hmem)

end Host

/-! ### Reading a server -/

section Server
variable {s a t f q host port scheme : List Char} {userInfo : Option (List Char)} {server : Server} {uri : Uri}

theorem isHost_of_parseHost {rest : List Char} (h : parseHost s = some (host, rest)) : IsHost host := by
  unfold parseHost at h
  split at h
  · split at h
    · obtain ⟨hliteral, h⟩ := Option.ite_none_right_eq_some.mp h
      cases h
      exact .literal hliteral
    · cases h
  · obtain ⟨hname, h⟩ := Option.ite_none_right_eq_some.mp h
    cases h
    exact .name hname

theorem isDigit_eq (c : Char) : isDigit c = c.isDigit := by
  simp [isDigit, Char.isDigit, Char.le_def]

/-- A port is a number, if there is one. -/
theorem range_of_parsePort {n : Int} (h : parsePort s = some n) : n = -1 ∨ (0 ≤ n ∧ n ≤ 2147483647) := by
  unfold parsePort at h
  split at h
  · exact .inl (Option.some.inj h).symm
  · exact .inl (Option.some.inj h).symm
  · obtain ⟨hdigits, h⟩ := Option.ite_none_right_eq_some.mp h
    have hdigits' := List.all_eq_true.mp hdigits
    exact .inr ⟨Text.nonneg_of_parseSigned (fun c hc => (isDigit_eq c).symm.trans (hdigits' c hc)) h,
      (Text.range_of_parseSigned h).2⟩
  · cases h

theorem parseServer_eq_some (h : parseServer a = some server) :
    (∃ u rest, a = u ++ '@' :: rest ∧ legal isUserInfoChar u = true ∧ parseHostPort (some u) rest = some server) ∨
      parseHostPort none a = some server := by
  unfold parseServer at h
  split at h
  · rename_i u rest hcut
    obtain ⟨hlegal, h⟩ := Option.ite_none_right_eq_some.mp h
    exact .inl ⟨u, rest, (eq_of_cut_some hcut).1, hlegal, h⟩
  · exact .inr h

/-- The host of a server, and its port. -/
theorem host_of_parseServer (h : parseServer a = some server) :
    IsHost server.host ∧ (server.port = -1 ∨ (0 ≤ server.port ∧ server.port ≤ 2147483647)) := by
  obtain ⟨u, rest, -, -, h⟩ | h := parseServer_eq_some h
  all_goals
    obtain ⟨rest, hhost, hport, -⟩ := parseHostPort_eq_some h
    exact ⟨isHost_of_parseHost hhost, range_of_parsePort hport⟩

theorem fst_cut_prefix (c : Char) (s : List Char) : (cut c s).1 <+: s := List.takeWhile_prefix _

/-- A server stands in an authority, behind two slashes. -/
theorem server_of_parseHierarchical {sch fragment : Option (List Char)} (h : parseHierarchical sch s fragment = some uri)
    (hserver : uri.server = some server) : ∃ t a, s = '/' :: '/' :: t ∧ a <+: t ∧ parseServer a = some server := by
  unfold parseHierarchical at h
  have hcut := fst_cut_prefix '?' s
  generalize cut '?' s = p at h hcut
  obtain ⟨s', query⟩ := p
  dsimp only at h hcut
  split at h
  · cases h
  · split at h
    · rename_i t
      obtain ⟨u, rfl⟩ := hcut
      refine ⟨t ++ u, t.takeWhile (· ≠ '/'), rfl, (List.takeWhile_prefix _).trans (List.prefix_append t u), ?_⟩
      split at h
      · cases h
      · split at h
        · split at h
          · cases h
          · cases h
            cases hserver
        · obtain ⟨server', hauthority, rfl⟩ := Option.map_eq_some_iff.mp h
          dsimp only at hserver
          exact parseServer_of_parseAuthority (hserver ▸ hauthority)
    · obtain ⟨-, h⟩ := Option.ite_none_right_eq_some.mp h
      cases h
      cases hserver

theorem server_of_parse (h : parse s = some uri) (hserver : uri.server = some server) :
    ∃ a, parseServer a = some server := by
  have hhier : ∀ sch s f, parseHierarchical sch s f = some uri → ∃ a, parseServer a = some server := by
    intro sch s f h
    obtain ⟨t, a, -, -, ha⟩ := server_of_parseHierarchical h hserver
    exact ⟨a, ha⟩
  unfold parse at h
  generalize cut '#' s = p at h
  obtain ⟨s', fragment⟩ := p
  dsimp only at h
  split at h
  · cases h
  · split at h
    · split at h
      · exact hhier _ _ _ h
      · split at h
        · cases h
        · split at h
          · exact hhier _ _ _ h
          · obtain ⟨-, h⟩ := Option.ite_none_right_eq_some.mp h
            cases h
            cases hserver
    · exact hhier _ _ _ h

/-- An authority and a query. -/
theorem parse_query (hstart : scheme.head?.any isAlpha = true) (hscheme : scheme.all isSchemeChar = true)
    (ha : ∀ c ∈ "/?#".toList, c ∉ a) (hne : a ≠ []) (q f : List Char) :
    parse (scheme ++ "://".toList ++ (a ++ '?' :: (q ++ '#' :: f))) =
      if legal isUric q && legal isUric f then
        (parseAuthority a).map fun server =>
          { scheme := some scheme, server := server, rawQuery := some q, rawFragment := some f }
      else none := by
  have hmark : '#' ∉ a := ha '#' (by decide)
  have hillegal : ∀ s : List Char, '#' ∈ s → legal isUric s = false := fun s hs =>
    Bool.eq_false_iff.mpr fun h => not_mem_of_legal h (by decide) (by decide) (by decide) hs
  by_cases hq : '#' ∈ q
  · obtain ⟨x, y, rfl, hx⟩ := List.eq_append_cons_of_mem hq
    have hlink : scheme ++ "://".toList ++ (a ++ '?' :: (x ++ '#' :: y ++ '#' :: f)) =
        scheme ++ ':' :: '/' :: ('/' :: (a ++ '?' :: x) ++ '#' :: (y ++ '#' :: f)) := by simp
    rw [hlink, parse_scheme hstart hscheme (by simp [hmark, hx]), hillegal _ (by simp), hillegal _ hq]
    rfl
  · have hlink : scheme ++ "://".toList ++ (a ++ '?' :: (q ++ '#' :: f)) =
        scheme ++ ':' :: '/' :: ('/' :: (a ++ '?' :: q) ++ '#' :: f) := by simp
    have hcut : cut '?' ('/' :: '/' :: (a ++ '?' :: q)) = ('/' :: '/' :: a, some q) := by
      have hquery : '?' ∉ '/' :: '/' :: a := by simp [ha '?' (by decide)]
      exact cut_append_cons hquery q
    have htrue : ∀ d ∈ a, decide (d ≠ '/') = true := fun d hd =>
      decide_eq_true fun heq => ha '/' (by decide) (heq ▸ hd)
    have htake : a.takeWhile (· ≠ '/') = a := by
      rw [← List.append_nil a, List.takeWhile_append_of_pos htrue]
      rfl
    have hdrop : a.dropWhile (· ≠ '/') = [] := by
      rw [← List.append_nil a, List.dropWhile_append_of_pos htrue]
      rfl
    rw [hlink, parse_scheme hstart hscheme (by simp [hmark, hq])]
    simp only [parseHierarchical, hcut, optional, Option.all_some, htake, hdrop, legal_nil, Bool.not_true,
      Bool.false_eq_true, ↓reduceIte, hne]
    cases legal isUric q <;> cases legal isUric f <;> rfl

/-- A host and a port are read as they were written, whatever they are. -/
theorem parseHostPort_iff (hhost : HostText host) :
    parseHostPort userInfo (host ++ ':' :: port) = some server ↔
      IsHost host ∧ parsePort (':' :: port) = some server.port ∧ server.userInfo = userInfo ∧ server.host = host := by
  constructor
  · intro h
    obtain ⟨rest, hparse, hrest, huser⟩ := parseHostPort_eq_some h
    have hvalid := isHost_of_parseHost hparse
    have hparts := parts_of_parseHost hhost hparse hrest
    rw [hparts.1] at hvalid
    exact ⟨hvalid, hparts.2 ▸ hrest, huser, hparts.1⟩
  · rintro ⟨hvalid, hrest, rfl, rfl⟩
    have hparse : parseHost (server.host ++ ':' :: port) = some (server.host, ':' :: port) := by
      generalize server.host = host at hvalid
      cases hvalid with
      | name h =>
        obtain ⟨hne, hchars⟩ := IsHost.name_chars h
        have hbracket : host.head? ≠ some '[' := fun hhead =>
          absurd (hchars '[' (List.mem_of_mem_head? hhead)) (by decide)
        have hno : ':' ∉ host := fun hmem => absurd (hchars ':' hmem) (by decide)
        rw [parseHost_name hbracket hne hno, if_pos h]
      | @literal x h =>
        have hno : ']' ∉ x := fun hmem => absurd ((isLiteral_chars h).2 ']' hmem) (by decide)
        rw [parseHost_literal hno, if_pos h]
    simp only [parseHostPort, hparse, hrest, Option.bind_eq_bind, Option.bind_some, Option.pure_def]

end Server
end Uri
