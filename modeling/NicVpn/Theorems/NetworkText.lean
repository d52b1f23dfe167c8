import NicVpn.NetworkSpace
import NicVpn.Lib.Joined
import Mathlib.Data.Nat.Digits.Defs
import Mathlib.Tactic.Ring
import Mathlib.Tactic.Positivity

/-! The texts of networks. An IPv4 network can be told from its text; an IPv6 network too, if its address fills
    all groups, or its lowest group is not zero: `getIPv6Address` writes neither the leading zero groups nor how
    many groups at the end are zero. -/

namespace NicVpn

/-! ### The characters between the numbers -/

theorem dot_ne_digitChar : ∀ d < 16, '.' ≠ Nat.digitChar d := by decide

theorem colon_ne_digitChar : ∀ d < 16, ':' ≠ Nat.digitChar d := by decide

theorem slash_ne_digitChar : ∀ d < 16, '/' ≠ Nat.digitChar d := by decide

/-- A character that no text of a network has. -/
structure Foreign (c : Char) : Prop where
  digit : ∀ d < 16, c ≠ Nat.digitChar d
  dot : c ≠ '.'
  colon : c ≠ ':'
  slash : c ≠ '/'

theorem foreign_bar : Foreign '|' := ⟨by decide, by decide, by decide, by decide⟩

theorem foreign_blank : Foreign ' ' := ⟨by decide, by decide, by decide, by decide⟩

theorem toList_toString (n : Nat) : (toString n).toList = Nat.toDigits 10 n := Nat.toList_repr

theorem not_mem_toDigits_ten {c : Char} (hc : ∀ d < 16, c ≠ Nat.digitChar d) (n : Nat) : c ∉ Nat.toDigits 10 n :=
  Joined.not_mem_toDigits (by decide) (by decide) hc n

theorem not_mem_decimal {c : Char} (hc : ∀ d < 16, c ≠ Nat.digitChar d) (n : Nat) : c ∉ (toString n).toList := by
  rw [toList_toString]
  exact not_mem_toDigits_ten hc n

theorem decimal_inj {m n : Nat} (h : (toString m).toList = (toString n).toList) : m = n := by
  rw [toList_toString, toList_toString] at h
  exact Joined.toDigits_inj (by decide) (by decide) h

/-! ### IPv4 -/

theorem dotted_eq (ip : Nat) :
    dotted ip = (toString (ip / 16777216 % 256)).toList ++ '.' :: ((toString (ip / 65536 % 256)).toList ++
      '.' :: ((toString (ip / 256 % 256)).toList ++ '.' :: (toString (ip % 256)).toList)) := by
  simp only [dotted, List.append_assoc, List.cons_append, List.nil_append]

theorem dotted_inj {m n : Nat} (hm : m < 4294967296) (hn : n < 4294967296) (h : dotted m = dotted n) : m = n := by
  rw [dotted_eq, dotted_eq] at h
  obtain ⟨ha, h⟩ := Joined.append_cons_inj (not_mem_decimal dot_ne_digitChar _) (not_mem_decimal dot_ne_digitChar _) h
  obtain ⟨hb, h⟩ := Joined.append_cons_inj (not_mem_decimal dot_ne_digitChar _) (not_mem_decimal dot_ne_digitChar _) h
  obtain ⟨hc, hd⟩ := Joined.append_cons_inj (not_mem_decimal dot_ne_digitChar _) (not_mem_decimal dot_ne_digitChar _) h
  have ha := decimal_inj ha
  have hb := decimal_inj hb
  have hc := decimal_inj hc
  have hd := decimal_inj hd
  omega

theorem not_mem_dotted {c : Char} (hc : ∀ d < 16, c ≠ Nat.digitChar d) (hdot : c ≠ '.') (n : Nat) : c ∉ dotted n := by
  rw [dotted_eq]
  simp only [List.mem_append, List.mem_cons, not_or]
  exact ⟨not_mem_decimal hc _, hdot, not_mem_decimal hc _, hdot, not_mem_decimal hc _, hdot, not_mem_decimal hc _⟩

theorem slash_not_mem_dotted (n : Nat) : '/' ∉ dotted n := not_mem_dotted slash_ne_digitChar (by decide) n

theorem CIDRIP.toText_eq (ip : CIDRIP) : ip.toText = ip.mIp ++ '/' :: Nat.toDigits 10 ip.len := by
  rw [CIDRIP.toText, toList_toString, List.append_assoc, List.singleton_append]

namespace IpAddress

/-! ### IPv6 -/

/-- The groups of an address from the highest that is not zero, each followed by a colon. -/
def groups (n : Nat) : List Char := ((Nat.digits 65536 n).reverse.map (Nat.toDigits 16)).flatMap fun g => g ++ [':']

theorem groups_of_pos {n : Nat} (h : 0 < n) : groups n = groups (n / 65536) ++ (Nat.toDigits 16 (n % 65536) ++ [':']) := by
  rw [groups, Nat.digits_def' (by decide) h, List.reverse_cons, List.map_append, List.flatMap_append, groups]
  simp only [List.map_cons, List.map_nil, List.flatMap_cons, List.flatMap_nil, List.append_nil]

theorem not_mem_hex {c : Char} (hc : ∀ d < 16, c ≠ Nat.digitChar d) (n : Nat) : c ∉ Nat.toDigits 16 n :=
  Joined.not_mem_toDigits (by decide) (by decide) hc n

/-- The groups tell the address. -/
theorem groups_inj {m n : Nat} (h : groups m = groups n) : m = n := by
  have hlist : ∀ l l' : List Nat, (l.map (Nat.toDigits 16)).flatMap (fun g => g ++ [':']) =
      (l'.map (Nat.toDigits 16)).flatMap (fun g => g ++ [':']) → l = l' := by
    intro l
    induction l with
    | nil =>
      intro l' h
      cases l' with
      | nil => rfl
      | cons b l' => simp at h
    | cons a l ih =>
      intro l' h
      cases l' with
      | nil => simp at h
      | cons b l' =>
        simp only [List.map_cons, List.flatMap_cons, List.append_assoc, List.singleton_append] at h
        obtain ⟨hab, htail⟩ := Joined.append_cons_inj (not_mem_hex colon_ne_digitChar _) (not_mem_hex colon_ne_digitChar _) h
        rw [Joined.toDigits_inj (by decide) (by decide) hab, ih l' htail]
  have hdigits := List.reverse_injective (hlist _ _ h)
  rw [← Nat.ofDigits_digits 65536 m, ← Nat.ofDigits_digits 65536 n, hdigits]

/-- Once a group was written, all higher ones are. -/
theorem ipv6Groups_some {fuel r : Nat} (hr : r < 65536 ^ fuel) (s : List Char) :
    ipv6Groups fuel r false (some s) = some (groups r ++ s) := by
  induction fuel generalizing r s with
  | zero =>
    obtain rfl : r = 0 := Nat.lt_one_iff.mp hr
    rfl
  | succ fuel ih =>
    simp only [ipv6Groups]
    split
    · rename_i h0
      subst h0
      rfl
    · rename_i h0
      have hdiv : r / 65536 < 65536 ^ fuel := by
        rw [Nat.div_lt_iff_lt_mul (by decide), ← Nat.pow_succ]
        exact hr
      simp only [Option.isSome_some, Bool.true_or, ↓reduceIte, Option.isNone_some, Bool.not_false, Bool.false_and,
        Bool.false_eq_true, Option.getD_some, ih hdiv, groups_of_pos (Nat.pos_of_ne_zero h0), List.append_assoc]

/-- Zero groups at the end are left out, and a second colon is written in their place. -/
theorem ipv6Groups_none {fuel r : Nat} (hpos : 0 < r) (hr : r < 65536 ^ fuel) :
    ∃ k m, r = m * 65536 ^ k ∧ 0 < m ∧ ipv6Groups fuel r false none = some (groups m ++ [':']) := by
  induction fuel generalizing r with
  | zero =>
    obtain rfl : r = 0 := Nat.lt_one_iff.mp hr
    exact absurd hpos (Nat.lt_irrefl 0)
  | succ fuel ih =>
    have h0 : r ≠ 0 := Nat.pos_iff_ne_zero.mp hpos
    have hdiv : r / 65536 < 65536 ^ fuel := by
      rw [Nat.div_lt_iff_lt_mul (by decide), ← Nat.pow_succ]
      exact hr
    by_cases hpart : r % 65536 = 0
    · obtain ⟨k, m, hm, hmpos, hgroups⟩ := ih (show 0 < r / 65536 by omega) hdiv
      refine ⟨k + 1, m, ?_, hmpos, ?_⟩
      · rw [Nat.pow_succ, ← Nat.mul_assoc, ← hm]
        omega
      · simp only [ipv6Groups, h0, hpart, Option.isSome_none, ne_eq, not_true_eq_false, decide_false, Bool.or_self,
          Bool.false_eq_true, ↓reduceIte, hgroups]
    · refine ⟨0, r, by simp, hpos, ?_⟩
      simp only [ipv6Groups, h0, hpart, Option.isSome_none, ne_eq, not_false_eq_true, decide_true, Bool.or_true,
        Bool.false_eq_true, ↓reduceIte, Option.isNone_none, Bool.not_false, Bool.and_self, Option.getD_some,
        ipv6Groups_some hdiv, groups_of_pos hpos, List.append_assoc]

/-- The lowest group is the last part, unless it is zero. -/
theorem ipv6Groups_last {r : Nat} (fuel : Nat) (hr : r ≠ 0) :
    ipv6Groups (fuel + 1) r true none =
      ipv6Groups fuel (r / 65536) false (if r % 65536 ≠ 0 then some (Nat.toDigits 16 (r % 65536)) else none) := by
  by_cases hlow : r % 65536 = 0 <;> simp [ipv6Groups, hr, hlow]

theorem getIPv6Address_of_zero {ip : IpAddress} (h : ip.netAddress = 0) : ip.getIPv6Address = [':', ':'] := by
  rw [getIPv6Address, h]
  rfl

theorem getIPv6Address_of_low {ip : IpAddress} (h : ip.netAddress < 2 ^ 128) (hlow : ip.netAddress % 65536 ≠ 0) :
    ip.getIPv6Address = groups (ip.netAddress / 65536) ++ Nat.toDigits 16 (ip.netAddress % 65536) := by
  have hdiv : ip.netAddress / 65536 < 65536 ^ 7 := by omega
  rw [getIPv6Address, ipv6Groups_last 7 (by omega), if_pos hlow, ipv6Groups_some hdiv, Option.getD_some]

theorem getIPv6Address_of_high {ip : IpAddress} (h : ip.netAddress < 2 ^ 128) (hpos : ip.netAddress ≠ 0)
    (hlow : ip.netAddress % 65536 = 0) :
    ∃ k m, 0 < k ∧ ip.netAddress = m * 65536 ^ k ∧ 0 < m ∧ ip.getIPv6Address = groups m ++ [':'] := by
  have hdiv : ip.netAddress / 65536 < 65536 ^ 7 := by omega
  obtain ⟨k, m, hm, hmpos, hgroups⟩ := ipv6Groups_none (show 0 < ip.netAddress / 65536 by omega) hdiv
  refine ⟨k + 1, m, Nat.succ_pos k, ?_, hmpos, ?_⟩
  · rw [Nat.pow_succ, ← Nat.mul_assoc, ← hm]
    omega
  · rw [getIPv6Address, ipv6Groups_last 7 hpos, if_neg (not_not.mpr hlow), hgroups, Option.getD_some]

/-! ### Telling the address from the text -/

/-- The text of the address tells it: no other address of this kind has the same one. -/
def Told (ip : IpAddress) : Prop :=
  ip.netAddress < 2 ^ 128 ∧ (ip.netAddress = 0 ∨ 2 ^ 112 ≤ ip.netAddress ∨ ip.netAddress % 65536 ≠ 0)

theorem toDigits_ends (n : Nat) : ∃ s d, d < 16 ∧ Nat.toDigits 16 n = s ++ [Nat.digitChar d] := by
  rcases List.eq_nil_or_concat' (Nat.toDigits 16 n) with h | ⟨s, c, h⟩
  · exact absurd h Nat.toDigits_ne_nil
  · have hc : c ∈ Nat.toDigits 16 n := h ▸ List.mem_append_right _ List.mem_cons_self
    obtain ⟨d, hd, rfl⟩ := Joined.exists_of_mem_toDigits (by decide) hc
    exact ⟨s, d, hd, h⟩

/-- A text that ends in a digit is the one of all groups; a text that ends in a colon leaves zero groups out. -/
theorem getIPv6Address_ends {ip : IpAddress} (h : ip.Told) :
    (∃ s d, d < 16 ∧ ip.getIPv6Address = s ++ [Nat.digitChar d] ∧ groups ip.netAddress = ip.getIPv6Address ++ [':']) ∨
    ∃ s, ip.getIPv6Address = s ++ [':'] ∧
      (ip.netAddress = 0 ∧ s = [':'] ∨
        2 ^ 112 ≤ ip.netAddress ∧ ∃ k m, ip.netAddress = m * 65536 ^ k ∧ 0 < m ∧ s = groups m) := by
  obtain ⟨hlt, htold⟩ := h
  by_cases hlow : ip.netAddress % 65536 = 0
  · refine .inr ?_
    by_cases hzero : ip.netAddress = 0
    · exact ⟨[':'], getIPv6Address_of_zero hzero, .inl ⟨hzero, rfl⟩⟩
    · obtain ⟨k, m, -, hm, hpos, htext⟩ := getIPv6Address_of_high hlt hzero hlow
      exact ⟨groups m, htext, .inr ⟨by omega, k, m, hm, hpos, rfl⟩⟩
  · refine .inl ?_
    obtain ⟨s, d, hd, hs⟩ := toDigits_ends (ip.netAddress % 65536)
    rw [getIPv6Address_of_low hlt hlow]
    refine ⟨groups (ip.netAddress / 65536) ++ s, d, hd, ?_, ?_⟩
    · rw [hs, List.append_assoc]
    · rw [groups_of_pos (by omega), List.append_assoc]

theorem groups_ne_colon {m : Nat} (h : 0 < m) : groups m ≠ [':'] := by
  intro heq
  have hdigits : 0 < (Nat.toDigits 16 (m % 65536)).length := List.length_pos_of_ne_nil Nat.toDigits_ne_nil
  have hlen := congrArg List.length heq
  rw [groups_of_pos h, List.length_append, List.length_append, List.length_singleton] at hlen
  omega

/-- The zero groups that were left out can be counted where the highest group is not zero. -/
theorem exponent_le_of_high {m k k' : Nat} (h : 2 ^ 112 ≤ m * 65536 ^ k) (h' : m * 65536 ^ k' < 2 ^ 128) : k' ≤ k := by
  by_contra hlt
  obtain ⟨j, rfl⟩ := Nat.exists_eq_add_of_lt (Nat.not_le.mp hlt)
  have hpow : m * 65536 ^ (k + j + 1) = m * 65536 ^ k * 65536 * 65536 ^ j := by ring
  have hle : m * 65536 ^ k * 65536 ≤ m * 65536 ^ k * 65536 * 65536 ^ j := Nat.le_mul_of_pos_right _ (by positivity)
  omega

theorem getIPv6Address_inj {ip ip' : IpAddress} (h : ip.Told) (h' : ip'.Told)
    (heq : ip.getIPv6Address = ip'.getIPv6Address) : ip.netAddress = ip'.netAddress := by
  have hends : ∀ {s s' : List Char} {d : Nat}, d < 16 → s ++ [Nat.digitChar d] ≠ s' ++ [':'] := by
    intro s s' d hd hss
    exact colon_ne_digitChar d hd (List.cons.inj (List.append_inj' hss rfl).2).1.symm
  rcases getIPv6Address_ends h with ⟨s, d, hd, hs, hall⟩ | ⟨s, hs, hcase⟩ <;>
    rcases getIPv6Address_ends h' with ⟨s', d', hd', hs', hall'⟩ | ⟨s', hs', hcase'⟩
  · exact groups_inj (by rw [hall, hall', heq])
  · exact absurd (hs.symm.trans (heq.trans hs')) (hends hd)
  · exact absurd (hs'.symm.trans (heq.symm.trans hs)) (hends hd')
  · have hss : s = s' := (List.append_inj' (hs.symm.trans (heq.trans hs')) rfl).1
    rcases hcase with ⟨hzero, hcolon⟩ | ⟨hhigh, k, m, hm, hpos, hgroups⟩ <;>
      rcases hcase' with ⟨hzero', hcolon'⟩ | ⟨hhigh', k', m', hm', hpos', hgroups'⟩
    · rw [hzero, hzero']
    · exact absurd (hgroups'.symm.trans (hss.symm.trans hcolon)) (groups_ne_colon hpos')
    · exact absurd (hgroups.symm.trans (hss.trans hcolon')) (groups_ne_colon hpos)
    · obtain rfl : m = m' := groups_inj (hgroups.symm.trans (hss.trans hgroups'))
      have hk : k' ≤ k := exponent_le_of_high (hm ▸ hhigh) (hm' ▸ h'.1)
      have hk' : k ≤ k' := exponent_le_of_high (hm' ▸ hhigh') (hm ▸ h.1)
      rw [hm, hm', Nat.le_antisymm hk hk']

theorem not_mem_groups {c : Char} (hc : ∀ d < 16, c ≠ Nat.digitChar d) (hcolon : c ≠ ':') (n : Nat) : c ∉ groups n := by
  simp only [groups, List.mem_flatMap, List.mem_map, List.mem_append, List.mem_singleton, not_exists, not_and]
  rintro _ ⟨g, -, rfl⟩
  exact not_or.mpr ⟨not_mem_hex hc g, hcolon⟩

theorem not_mem_getIPv6Address {c : Char} (hc : ∀ d < 16, c ≠ Nat.digitChar d) (hcolon : c ≠ ':') {ip : IpAddress}
    (h : ip.Told) : c ∉ ip.getIPv6Address := by
  by_cases hzero : ip.netAddress = 0
  · rw [getIPv6Address_of_zero hzero]
    simp [hcolon]
  · by_cases hlow : ip.netAddress % 65536 = 0
    · obtain ⟨k, m, -, -, -, htext⟩ := getIPv6Address_of_high h.1 hzero hlow
      rw [htext, List.mem_append, List.mem_singleton]
      exact not_or.mpr ⟨not_mem_groups hc hcolon m, hcolon⟩
    · rw [getIPv6Address_of_low h.1 hlow, List.mem_append]
      exact not_or.mpr ⟨not_mem_groups hc hcolon _, not_mem_hex hc _⟩

theorem slash_not_mem_getIPv6Address {ip : IpAddress} (h : ip.Told) : '/' ∉ ip.getIPv6Address :=
  not_mem_getIPv6Address slash_ne_digitChar (by decide) h

/-! ### Telling the network from the text -/

section
variable {ip ip' : IpAddress}

/-- An IPv4 network in the range of its type. -/
structure IsV4 (ip : IpAddress) : Prop where
  isV4 : ip.isV4 = true
  lt : ip.netAddress < 4294967296
  mask : ip.networkMask ≤ 32

/-- An IPv6 network that its text tells. -/
structure IsV6 (ip : IpAddress) : Prop where
  isV4 : ip.isV4 = false
  told : ip.Told

theorem IsV4.toText_eq (h : ip.IsV4) :
    ip.toText = dotted ip.netAddress ++ '/' :: (toString ip.networkMask).toList := by
  simp only [toText, h.isV4, ↓reduceIte, getIPv4Address, List.append_assoc, List.cons_append, List.nil_append]

theorem IsV6.toText_eq (h : ip.IsV6) :
    ip.toText = ip.getIPv6Address ++ '/' :: (toString ip.networkMask).toList := by
  simp only [toText, h.isV4, Bool.false_eq_true, ↓reduceIte, List.append_assoc, List.cons_append, List.nil_append]

theorem eq_of_fields (haddr : ip.netAddress = ip'.netAddress) (hmask : ip.networkMask = ip'.networkMask)
    (hincl : ip.included = ip'.included) (hv4 : ip.isV4 = ip'.isV4) : ip = ip' := by
  cases ip
  cases ip'
  simp only at haddr hmask hv4 hincl
  rw [haddr, hmask, hv4, hincl]

theorem IsV4.eq_of_toText (h : ip.IsV4) (h' : ip'.IsV4) (hincl : ip.included = ip'.included)
    (heq : ip.toText = ip'.toText) : ip = ip' := by
  rw [h.toText_eq, h'.toText_eq] at heq
  obtain ⟨haddr, hmask⟩ := Joined.append_cons_inj (slash_not_mem_dotted _)
    (slash_not_mem_dotted _) heq
  exact eq_of_fields (dotted_inj h.lt h'.lt haddr) (decimal_inj hmask) hincl (h.isV4.trans h'.isV4.symm)

theorem IsV6.eq_of_toText (h : ip.IsV6) (h' : ip'.IsV6) (hincl : ip.included = ip'.included)
    (heq : ip.toText = ip'.toText) : ip = ip' := by
  rw [h.toText_eq, h'.toText_eq] at heq
  obtain ⟨haddr, hmask⟩ := Joined.append_cons_inj (slash_not_mem_getIPv6Address h.told)
    (slash_not_mem_getIPv6Address h'.told) heq
  exact eq_of_fields (getIPv6Address_inj h.told h'.told haddr) (decimal_inj hmask) hincl (h.isV4.trans h'.isV4.symm)

theorem IsV4.not_mem_toText {c : Char} (h : ip.IsV4) (hc : Foreign c) : c ∉ ip.toText := by
  rw [h.toText_eq, List.mem_append, List.mem_cons]
  exact not_or.mpr ⟨not_mem_dotted hc.digit hc.dot _, not_or.mpr ⟨hc.slash, not_mem_decimal hc.digit _⟩⟩

theorem IsV6.not_mem_toText {c : Char} (h : ip.IsV6) (hc : Foreign c) : c ∉ ip.toText := by
  rw [h.toText_eq, List.mem_append, List.mem_cons]
  exact not_or.mpr ⟨not_mem_getIPv6Address hc.digit hc.colon h.told, not_or.mpr ⟨hc.slash, not_mem_decimal hc.digit _⟩⟩

theorem IsV6.dot_not_mem_toText (h : ip.IsV6) : '.' ∉ ip.toText := by
  rw [h.toText_eq, List.mem_append, List.mem_cons]
  exact not_or.mpr ⟨not_mem_getIPv6Address dot_ne_digitChar (by decide) h.told,
    not_or.mpr ⟨by decide, not_mem_decimal dot_ne_digitChar _⟩⟩

theorem toText_ne_nil (ip : IpAddress) : ip.toText ≠ [] := by simp [toText]

theorem IsV4.dot_mem_toText (h : ip.IsV4) : '.' ∈ ip.toText := by
  rw [h.toText_eq, dotted_eq]
  simp

end

/-! ### Telling the networks from the joined texts -/

/-- The mask of the last IPv4 network does not go on into the text of the first IPv6 network, with the text of
    another network left. -/
def Apart (l l6 : List IpAddress) : Prop :=
  ∀ ip ∈ l.getLast?, ∀ ip6 ∈ l6.head?, ∀ z : IpAddress, z.IsV6 →
    ¬Joined.RunsInto 32 ip.networkMask ip6.toText z.toText

/-- Networks of both kinds that their joined texts tell. -/
structure Joinable (included : Bool) (l l6 : List IpAddress) : Prop where
  v4 : ∀ ip ∈ l, ip.IsV4 ∧ ip.included = included
  v6 : ∀ ip ∈ l6, ip.IsV6 ∧ ip.included = included
  apart : Apart l l6

def joined (l : List IpAddress) : List Char := Joined.join '|' (l.map toText)

section
variable {included : Bool} {ip : IpAddress} {l l' l6 l6' : List IpAddress}

theorem parts_of_isV6 (h : ∀ ip ∈ l6, ip.IsV6 ∧ ip.included = included) : Joined.Parts '|' (l6.map toText) := by
  intro x hx
  obtain ⟨ip, hip, rfl⟩ := List.mem_map.mp hx
  exact ⟨ip.toText_ne_nil, (h ip hip).1.not_mem_toText foreign_bar⟩

theorem joined_isV6_inj (h : ∀ ip ∈ l6, ip.IsV6 ∧ ip.included = included)
    (h' : ∀ ip ∈ l6', ip.IsV6 ∧ ip.included = included) (heq : joined l6 = joined l6') : l6 = l6' := by
  refine Joined.join_map_inj (fun ip hip ip' hip' htext => ?_) (parts_of_isV6 h) (parts_of_isV6 h') heq
  obtain ⟨hv6, hincl⟩ := h ip hip
  obtain ⟨hv6', hincl'⟩ := h' ip' hip'
  exact hv6.eq_of_toText hv6' (hincl.trans hincl'.symm) htext

theorem joined_cons (hl : l ≠ []) : joined (ip :: l) = ip.toText ++ '|' :: joined l :=
  Joined.join_cons (by rwa [ne_eq, List.map_eq_nil_iff])

theorem dot_mem_joined (h : ∀ ip ∈ l, ip.IsV4 ∧ ip.included = included) (hl : l ≠ []) : '.' ∈ joined l := by
  obtain ⟨ip, l, rfl⟩ := List.exists_cons_of_ne_nil hl
  exact (Joined.mem_join (by decide)).mpr ⟨ip.toText, by simp, (h ip List.mem_cons_self).1.dot_mem_toText⟩

theorem dot_not_mem_joined (h : ∀ ip ∈ l6, ip.IsV6 ∧ ip.included = included) : '.' ∉ joined l6 := by
  intro hmem
  obtain ⟨x, hx, hdot⟩ := (Joined.mem_join (by decide)).mp hmem
  obtain ⟨ip, hip, rfl⟩ := List.mem_map.mp hx
  exact (h ip hip).1.dot_not_mem_toText hdot

theorem slash_mem_joined (hl : l ≠ []) : '/' ∈ joined l := by
  obtain ⟨ip, l, rfl⟩ := List.exists_cons_of_ne_nil hl
  exact (Joined.mem_join (by decide)).mpr ⟨ip.toText, by simp, by simp [toText]⟩

theorem Joinable.tail (h : Joinable included (ip :: l) l6) (hl : l ≠ []) : Joinable included l l6 := by
  refine ⟨fun x hx => h.v4 x (List.mem_cons_of_mem _ hx), h.v6, fun x hx => h.apart x ?_⟩
  obtain ⟨y, l, rfl⟩ := List.exists_cons_of_ne_nil hl
  rwa [List.getLast?_cons_cons]

/-- The mask of the last IPv4 network goes on into the IPv6 networks only if it does into the first of them. -/
theorem Joinable.not_runsInto (h : Joinable included [ip] l6) (h' : ∀ ip ∈ l6', ip.IsV6 ∧ ip.included = included) :
    ¬Joined.RunsInto 32 ip.networkMask (joined l6) (joined l6') := by
  rintro ⟨hpos, d, hd, htext, hmax⟩
  have hl6 : l6 ≠ [] := by
    rintro rfl
    cases htext
  have hl6' : l6' ≠ [] := by
    rintro rfl
    have hslash := slash_mem_joined hl6
    rw [htext] at hslash
    exact slash_ne_digitChar d (by omega) (List.mem_singleton.mp hslash)
  obtain ⟨z, l6', rfl⟩ := List.exists_cons_of_ne_nil hl6'
  have hz := (h' z List.mem_cons_self).1
  -- the digit belongs to the first of the joined texts
  have hjoin : joined l6 = Joined.join '|' ((Nat.digitChar d :: z.toText) :: l6'.map toText) := by
    rw [htext, ← Joined.cons_join, joined, List.map_cons]
  have hparts : Joined.Parts '|' ((Nat.digitChar d :: z.toText) :: l6'.map toText) := by
    obtain ⟨⟨-, hbar⟩, hparts⟩ := List.forall_mem_cons.mp (parts_of_isV6 h')
    refine List.forall_mem_cons.mpr ⟨⟨List.cons_ne_nil _ _, ?_⟩, hparts⟩
    rw [List.mem_cons]
    exact not_or.mpr ⟨foreign_bar.digit d (by omega), hbar⟩
  have hlist := Joined.join_inj (parts_of_isV6 h.v6) hparts hjoin
  cases l6 with
  | nil => cases hlist
  | cons ip6 l6 =>
    obtain ⟨hfirst, -⟩ := List.cons.inj hlist
    exact h.apart ip rfl ip6 rfl z hz ⟨hpos, d, hd, hfirst, hmax⟩

/-- Two texts that begin with an IPv4 network begin with the same address. -/
theorem IsV4.toText_append_inj {ip' : IpAddress} {x y : List Char} (h : ip.IsV4) (h' : ip'.IsV4)
    (heq : ip.toText ++ x = ip'.toText ++ y) :
    ip.netAddress = ip'.netAddress ∧
      Nat.toDigits 10 ip.networkMask ++ x = Nat.toDigits 10 ip'.networkMask ++ y := by
  rw [h.toText_eq, h'.toText_eq, toList_toString, toList_toString, List.append_assoc, List.append_assoc,
    List.cons_append, List.cons_append] at heq
  obtain ⟨haddr, hrest⟩ := Joined.append_cons_inj (slash_not_mem_dotted _)
    (slash_not_mem_dotted _) heq
  exact ⟨dotted_inj h.lt h'.lt haddr, hrest⟩

/-- One IPv4 network on each side. -/
theorem joined_append_inj_singleton {ip' : IpAddress} (h : Joinable included [ip] l6) (h' : Joinable included [ip'] l6')
    (heq : ip.toText ++ joined l6 = ip'.toText ++ joined l6') : ip = ip' ∧ l6 = l6' := by
  obtain ⟨hv4, hincl⟩ := h.v4 ip List.mem_cons_self
  obtain ⟨hv4', hincl'⟩ := h'.v4 ip' List.mem_cons_self
  obtain ⟨haddr, hrest⟩ := hv4.toText_append_inj hv4' heq
  have hsame : ip.networkMask = ip'.networkMask ∧ joined l6 = joined l6' := by
    rcases Joined.toDigits_append_inj (by decide) hv4.mask hv4'.mask hrest with hsame | hruns | hruns
    · exact hsame
    · exact absurd hruns (h.not_runsInto h'.v6)
    · exact absurd hruns (h'.not_runsInto h.v6)
  exact ⟨eq_of_fields haddr hsame.1 (hincl.trans hincl'.symm) (hv4.isV4.trans hv4'.isV4.symm),
    joined_isV6_inj h.v6 h'.v6 hsame.2⟩

/-- One IPv4 network is followed by no dot, so there is no other one behind it. -/
theorem joined_append_ne {ip' : IpAddress} (h : Joinable included [ip] l6) (h' : Joinable included (ip' :: l') l6')
    (hl' : l' ≠ []) : ip.toText ++ joined l6 ≠ ip'.toText ++ '|' :: (joined l' ++ joined l6') := by
  intro heq
  obtain ⟨-, hrest⟩ := (h.v4 ip List.mem_cons_self).1.toText_append_inj (h'.v4 ip' List.mem_cons_self).1 heq
  have hdot : '.' ∈ joined l' := dot_mem_joined (fun x hx => h'.v4 x (List.mem_cons_of_mem _ hx)) hl'
  have hmem : '.' ∈ Nat.toDigits 10 ip.networkMask ++ joined l6 := by
    rw [hrest]
    simp [hdot]
  rcases List.mem_append.mp hmem with hmem | hmem
  · exact not_mem_toDigits_ten dot_ne_digitChar _ hmem
  · exact dot_not_mem_joined h.v6 hmem

theorem Joinable.blank_not_mem (h : Joinable included l l6) : ' ' ∉ joined l ++ joined l6 := by
  intro hmem
  rcases List.mem_append.mp hmem with hmem | hmem
  · obtain ⟨x, hx, hmem⟩ := (Joined.mem_join (by decide)).mp hmem
    obtain ⟨ip, hip, rfl⟩ := List.mem_map.mp hx
    exact (h.v4 ip hip).1.not_mem_toText foreign_blank hmem
  · obtain ⟨x, hx, hmem⟩ := (Joined.mem_join (by decide)).mp hmem
    obtain ⟨ip, hip, rfl⟩ := List.mem_map.mp hx
    exact (h.v6 ip hip).1.not_mem_toText foreign_blank hmem

theorem joined_append_inj (h : Joinable included l l6) (h' : Joinable included l' l6')
    (heq : joined l ++ joined l6 = joined l' ++ joined l6') : l = l' ∧ l6 = l6' := by
  induction l generalizing l' with
  | nil =>
    cases l' with
    | nil => exact ⟨rfl, joined_isV6_inj h.v6 h'.v6 heq⟩
    | cons ip' l' =>
      have hdot : '.' ∈ joined [] ++ joined l6 :=
        heq ▸ List.mem_append_left _ (dot_mem_joined h'.v4 (List.cons_ne_nil _ _))
      exact absurd hdot (dot_not_mem_joined h.v6)
  | cons ip l ih =>
    cases l' with
    | nil =>
      have hdot : '.' ∈ joined [] ++ joined l6' :=
        heq ▸ List.mem_append_left _ (dot_mem_joined h.v4 (List.cons_ne_nil _ _))
      exact absurd hdot (dot_not_mem_joined h'.v6)
    | cons ip' l' =>
      by_cases hnil : l = [] <;> by_cases hnil' : l' = []
      · subst hnil hnil'
        obtain ⟨hip, hl6⟩ := joined_append_inj_singleton h h' (by simpa [joined] using heq)
        exact ⟨by rw [hip], hl6⟩
      · subst hnil
        rw [joined_cons hnil', List.append_assoc, List.cons_append] at heq
        exact absurd (by simpa [joined] using heq) (joined_append_ne h h' hnil')
      · subst hnil'
        rw [joined_cons hnil, List.append_assoc, List.cons_append] at heq
        exact absurd (by simpa [joined] using heq.symm) (joined_append_ne h' h hnil)
      · rw [joined_cons hnil, joined_cons hnil', List.append_assoc, List.append_assoc, List.cons_append,
          List.cons_append] at heq
        obtain ⟨hv4, hincl⟩ := h.v4 ip List.mem_cons_self
        obtain ⟨hv4', hincl'⟩ := h'.v4 ip' List.mem_cons_self
        obtain ⟨htext, hrest⟩ := Joined.append_cons_inj (hv4.not_mem_toText foreign_bar)
          (hv4'.not_mem_toText foreign_bar) heq
        obtain ⟨hl, hl6⟩ := ih (h.tail hnil) (h'.tail hnil') hrest
        exact ⟨by rw [hv4.eq_of_toText hv4' (hincl.trans hincl'.symm) htext, hl], hl6⟩

end

end IpAddress
end NicVpn
