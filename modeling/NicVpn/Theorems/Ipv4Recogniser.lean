import NicVpn.Theorems.Ipv6Recogniser
import NicVpn.Theorems.RouteMask
import NicVpn.V2rayConfigUtil

/-! The recogniser of IPv4 addresses: it accepts four numbers up to 255 with dots between them, each written with at
    most three digits, and nothing else. -/

namespace NicVpn.V2ray.Utils
open RegularExpression NicVpn.Utils ConfigParser

variable {s : List Char}

/-! ### One number -/

theorem mem_iff_toNat {c : Char} {l : List Char} : c ∈ l ↔ c.toNat ∈ l.map Char.toNat := by
  constructor
  · exact List.mem_map_of_mem
  · intro h
    obtain ⟨d, hd, hcd⟩ := List.mem_map.mp h
    rwa [← Char.ofNat_toNat c, ← hcd, Char.ofNat_toNat]

theorem isDigit_iff {c : Char} : c.isDigit = true ↔ 48 ≤ c.toNat ∧ c.toNat ≤ 57 := by
  have h : c.isDigit = true ↔ (decide (c.val ≥ 48) && decide (c.val ≤ 57)) = true := Iff.rfl
  rw [h, Bool.and_eq_true, decide_eq_true_iff, decide_eq_true_iff, ge_iff_le, UInt32.le_iff_toNat_le,
    UInt32.le_iff_toNat_le]
  rfl

/-- A character of a class, by its number. -/
theorem mem_class {l : List Char} {lo hi : Nat} (hl : ∀ n, n ∈ l.map Char.toNat ↔ lo ≤ n ∧ n ≤ hi) :
    s ∈ (oneOf l).matches' ↔ ∃ c : Char, lo ≤ c.toNat ∧ c.toNat ≤ hi ∧ s = [c] := by
  rw [mem_oneOf]
  constructor
  · rintro ⟨c, hc, rfl⟩
    obtain ⟨hlo, hhi⟩ := (hl _).mp (mem_iff_toNat.mp hc)
    exact ⟨c, hlo, hhi, rfl⟩
  · rintro ⟨c, hlo, hhi, rfl⟩
    exact ⟨c, mem_iff_toNat.mpr ((hl _).mpr ⟨hlo, hhi⟩), rfl⟩

theorem range_digits (n : Nat) : n ∈ "0123456789".toList.map Char.toNat ↔ 48 ≤ n ∧ n ≤ 57 := by
  have hl : "0123456789".toList.map Char.toNat = [48, 49, 50, 51, 52, 53, 54, 55, 56, 57] := by decide
  simp only [hl, List.mem_cons, List.not_mem_nil, or_false]
  omega

theorem range_one (n : Nat) : n ∈ "01".toList.map Char.toNat ↔ 48 ≤ n ∧ n ≤ 49 := by
  have hl : "01".toList.map Char.toNat = [48, 49] := by decide
  simp only [hl, List.mem_cons, List.not_mem_nil, or_false]
  omega

theorem range_four (n : Nat) : n ∈ "01234".toList.map Char.toNat ↔ 48 ≤ n ∧ n ≤ 52 := by
  have hl : "01234".toList.map Char.toNat = [48, 49, 50, 51, 52] := by decide
  simp only [hl, List.mem_cons, List.not_mem_nil, or_false]
  omega

theorem range_five (n : Nat) : n ∈ "012345".toList.map Char.toNat ↔ 48 ≤ n ∧ n ≤ 53 := by
  have hl : "012345".toList.map Char.toNat = [48, 49, 50, 51, 52, 53] := by decide
  simp only [hl, List.mem_cons, List.not_mem_nil, or_false]
  omega

/-- Three digits of a number up to 255. -/
def Three (c d e : Char) : Prop :=
  c.toNat ≤ 49 ∨ c.toNat = 50 ∧ d.toNat ≤ 52 ∨ c.toNat = 50 ∧ d.toNat = 53 ∧ e.toNat ≤ 53

/-- What the expression reads: one, two or three digits. -/
inductive Read : List Char → Prop
  | one {c : Char} (hc : c.isDigit = true) : Read [c]
  | two {c d : Char} (hc : c.isDigit = true) (hd : d.isDigit = true) : Read [c, d]
  | three {c d e : Char} (hc : c.isDigit = true) (hd : d.isDigit = true) (he : e.isDigit = true) (hle : Three c d e) :
    Read [c, d, e]

theorem read_of_mem (h : s ∈ regOctet.matches') : Read s := by
  rw [regOctet, matches'_add, matches'_add] at h
  rcases h with (h | h) | h
  · obtain ⟨x, ⟨a, ha, b, hb, rfl⟩, y, hy, rfl⟩ := h
    obtain ⟨e, he, he', rfl⟩ := (mem_class range_digits).mp hy
    have he := isDigit_iff.mpr ⟨he, he'⟩
    rcases ha with ha | ha <;> rcases hb with hb | hb
    · obtain rfl := (Language.mem_one a).mp ha
      obtain rfl := (Language.mem_one b).mp hb
      exact .one he
    · obtain rfl := (Language.mem_one a).mp ha
      obtain ⟨d, hd, hd', rfl⟩ := (mem_class range_digits).mp hb
      exact .two (isDigit_iff.mpr ⟨hd, hd'⟩) he
    · obtain ⟨c, hc, hc', rfl⟩ := (mem_class range_one).mp ha
      obtain rfl := (Language.mem_one b).mp hb
      exact .two (isDigit_iff.mpr ⟨hc, by omega⟩) he
    · obtain ⟨c, hc, hc', rfl⟩ := (mem_class range_one).mp ha
      obtain ⟨d, hd, hd', rfl⟩ := (mem_class range_digits).mp hb
      exact .three (isDigit_iff.mpr ⟨hc, by omega⟩) (isDigit_iff.mpr ⟨hd, hd'⟩) he (.inl hc')
  · obtain ⟨x, ⟨a, rfl, b, hb, rfl⟩, y, hy, rfl⟩ := h
    obtain ⟨d, hd, hd', rfl⟩ := (mem_class range_four).mp hb
    obtain ⟨e, he, he', rfl⟩ := (mem_class range_digits).mp hy
    exact .three (by decide) (isDigit_iff.mpr ⟨hd, by omega⟩) (isDigit_iff.mpr ⟨he, he'⟩) (.inr (.inl ⟨by decide, hd'⟩))
  · obtain ⟨x, ⟨a, rfl, b, rfl, rfl⟩, y, hy, rfl⟩ := h
    obtain ⟨e, he, he', rfl⟩ := (mem_class range_five).mp hy
    exact .three (by decide) (by decide) (isDigit_iff.mpr ⟨he, by omega⟩) (.inr (.inr ⟨by decide, by decide, he'⟩))

theorem mem_of_read (h : Read s) : s ∈ regOctet.matches' := by
  have hdigit : ∀ c : Char, c.isDigit = true → [c] ∈ (oneOf "0123456789".toList).matches' := fun c hc =>
    (mem_class range_digits).mpr ⟨c, (isDigit_iff.mp hc).1, (isDigit_iff.mp hc).2, rfl⟩
  rw [regOctet, matches'_add, matches'_add]
  cases h with
  | one hc => exact .inl (.inl ⟨[], ⟨[], .inl rfl, [], .inl rfl, rfl⟩, _, hdigit _ hc, rfl⟩)
  | @two c d hc hd => exact .inl (.inl ⟨[c], ⟨[], .inl rfl, [c], .inr (hdigit _ hc), rfl⟩, _, hdigit _ hd, rfl⟩)
  | @three c d e hc hd he hle =>
    obtain ⟨hclo, hchi⟩ := isDigit_iff.mp hc
    obtain ⟨hdlo, hdhi⟩ := isDigit_iff.mp hd
    obtain ⟨helo, hehi⟩ := isDigit_iff.mp he
    have hchar : ∀ {c d : Char}, c.toNat = d.toNat → c = d := fun {c d} h => by
      rw [← Char.ofNat_toNat c, h, Char.ofNat_toNat]
    rcases hle with hle | ⟨htwo, hle⟩ | ⟨htwo, hfive, hle⟩
    · exact .inl (.inl ⟨[c, d], ⟨[c], .inr ((mem_class range_one).mpr ⟨c, hclo, hle, rfl⟩), [d], .inr (hdigit _ hd), rfl⟩,
        _, hdigit _ he, rfl⟩)
    · obtain rfl : c = '2' := hchar htwo
      exact .inl (.inr ⟨['2', d], ⟨['2'], rfl, [d], (mem_class range_four).mpr ⟨d, hdlo, hle, rfl⟩, rfl⟩, _,
        hdigit _ he, rfl⟩)
    · obtain rfl : c = '2' := hchar htwo
      obtain rfl : d = '5' := hchar hfive
      exact .inr ⟨['2', '5'], ⟨['2'], rfl, ['5'], rfl, rfl⟩, _, (mem_class range_five).mpr ⟨e, helo, hle, rfl⟩, rfl⟩

/-- A number of a dotted quad in at most three digits. -/
def IsOctet (s : List Char) : Prop := s.length ≤ 3 ∧ ∃ n, Octet s n

theorem read_iff : Read s ↔ IsOctet s := by
  constructor
  · intro h
    cases h with
    | @one c hc =>
      obtain ⟨hclo, hchi⟩ := isDigit_iff.mp hc
      exact ⟨by simp, _, by simp, List.forall_mem_singleton.mpr hc, rfl, by simp [Nat.ofDigitChars]; omega⟩
    | @two c d hc hd =>
      obtain ⟨hclo, hchi⟩ := isDigit_iff.mp hc
      obtain ⟨hdlo, hdhi⟩ := isDigit_iff.mp hd
      exact ⟨by simp, _, by simp, by simp [hc, hd], rfl, by simp [Nat.ofDigitChars]; omega⟩
    | @three c d e hc hd he hle =>
      obtain ⟨hclo, hchi⟩ := isDigit_iff.mp hc
      obtain ⟨hdlo, hdhi⟩ := isDigit_iff.mp hd
      obtain ⟨helo, hehi⟩ := isDigit_iff.mp he
      unfold Three at hle
      exact ⟨by simp, _, by simp, by simp [hc, hd, he], rfl, by simp [Nat.ofDigitChars]; omega⟩
  · rintro ⟨hlen, n, h⟩
    have hdigits := h.digits
    have hle : Nat.ofDigitChars 10 s 0 ≤ 255 := h.value ▸ h.le
    match s, h.ne_nil, hlen with
    | [c], _, _ => exact .one (hdigits c (by simp))
    | [c, d], _, _ => exact .two (hdigits c (by simp)) (hdigits d (by simp))
    | [c, d, e], _, _ =>
      have hc := hdigits c (by simp)
      have hd := hdigits d (by simp)
      have he := hdigits e (by simp)
      refine .three hc hd he ?_
      obtain ⟨hclo, hchi⟩ := isDigit_iff.mp hc
      obtain ⟨hdlo, hdhi⟩ := isDigit_iff.mp hd
      obtain ⟨helo, hehi⟩ := isDigit_iff.mp he
      simp [Nat.ofDigitChars] at hle
      unfold Three
      omega

theorem mem_regOctet : s ∈ regOctet.matches' ↔ IsOctet s := ⟨fun h => read_iff.mp (read_of_mem h), fun h => mem_of_read (read_iff.mpr h)⟩

/-! ### Four of them -/

/-- The recogniser accepts exactly four numbers up to 255 with dots between them, each in at most three digits. -/
theorem isIpv4Address_iff (s : List Char) : isIpv4Address s = true ↔
    ∃ a b c d, IsOctet a ∧ IsOctet b ∧ IsOctet c ∧ IsOctet d ∧ s = Joined.join '.' [a, b, c, d] := by
  have hdot : ∀ {x : List Char}, x ∈ (char '.' * regOctet).matches' ↔ ∃ b, IsOctet b ∧ x = '.' :: b := by
    intro x
    constructor
    · rintro ⟨y, rfl, b, hb, rfl⟩
      exact ⟨b, mem_regOctet.mp hb, rfl⟩
    · rintro ⟨b, hb, rfl⟩
      exact ⟨['.'], rfl, b, mem_regOctet.mpr hb, rfl⟩
  rw [isIpv4Address, rmatch_iff_matches', regV4, matches'_mul, matches'_pow, Language.mem_mul]
  constructor
  · rintro ⟨a, ha, x, hx, rfl⟩
    obtain ⟨l, rfl, hlen, hl⟩ := Language.mem_pow.mp hx
    match l, hlen with
    | [x, y, z], _ =>
      obtain ⟨b, hb, rfl⟩ := hdot.mp (hl x (by simp))
      obtain ⟨c, hc, rfl⟩ := hdot.mp (hl y (by simp))
      obtain ⟨d, hd, rfl⟩ := hdot.mp (hl z (by simp))
      exact ⟨a, b, c, d, mem_regOctet.mp ha, hb, hc, hd, by simp [Joined.join]⟩
  · rintro ⟨a, b, c, d, ha, hb, hc, hd, rfl⟩
    refine ⟨a, mem_regOctet.mpr ha, _, Language.mem_pow.mpr ⟨['.' :: b, '.' :: c, '.' :: d], rfl, rfl, ?_⟩, by simp [Joined.join]⟩
    intro x hx
    simp only [List.mem_cons, List.not_mem_nil, or_false] at hx
    rcases hx with rfl | rfl | rfl
    exacts [hdot.mpr ⟨b, hb, rfl⟩, hdot.mpr ⟨c, hc, rfl⟩, hdot.mpr ⟨d, hd, rfl⟩]

end NicVpn.V2ray.Utils
