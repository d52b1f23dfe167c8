import NicVpn.ConvertProfile

/-! Masks of routes and addresses as `CIDRIP` reads them: which exceptions they raise, and on which of them the
    search for the lowest one does not end. -/

namespace NicVpn
namespace ConfigParser

/-- A mask of fewer than four parts, all of them numbers. -/
def Short (mask : List Char) : Prop :=
  (Text.parts '.' mask).length < 4 ∧ (∀ part, (Text.parts '.' mask).head? = some part → Text.toLong part ≠ none) ∧
    ∀ part ∈ (Text.parts '.' mask).tail, Text.toInt part ≠ none

/-- A mask whose number the 33rd bit turns into zero. -/
def Bitless (mask : List Char) : Prop := ∃ n, getInt mask = .ok n ∧ wrap64 (n + 4294967296) = 0

/-- A mask that is no number. -/
def Unreadable (mask : List Char) : Prop := ∀ n, getInt mask ≠ .ok n

/-! ### The search for the lowest one -/

/-- Zero has no lowest one: the loop takes any number of turns. -/
theorem lenZeros_zero (fuel : Nat) : lenZeros fuel 0 = none := by
  induction fuel with
  | zero => rfl
  | succ fuel ih =>
    show (lenZeros fuel (0 / 2)).map _ = none
    rw [Int.zero_ediv, ih]
    rfl

theorem lenZeros_ne_none {fuel : Nat} {netmask : Int} (hne : netmask ≠ 0) (hlo : -(2 ^ fuel : Nat) < netmask)
    (hhi : netmask < (2 ^ fuel : Nat)) : lenZeros fuel netmask ≠ none := by
  induction fuel generalizing netmask with
  | zero => omega
  | succ fuel ih =>
    unfold lenZeros
    split
    · rename_i heven
      have hnext : lenZeros fuel (netmask / 2) ≠ none := ih (by omega) (by omega) (by omega)
      simpa using hnext
    · exact Option.some_ne_none _

theorem wrap64_range (n : Int) : -(2 ^ 64 : Nat) < wrap64 n ∧ wrap64 n < (2 ^ 64 : Nat) := by
  have hlo := Int.le_bmod (x := n) (m := 2 ^ 64) (by decide)
  have hhi := Int.bmod_lt (x := n) (m := 2 ^ 64) (by decide)
  unfold wrap64
  omega

/-! ### The exceptions -/

/-- The parts are read from the left, and the first one that is missing or no number decides. -/
theorem getInt_cases (mask : List Char) :
    (¬Short mask ∧ ∃ n, getInt mask = .ok n) ∨ (Short mask ∧ getInt mask = .error .arrayIndexOutOfBounds) ∨
      (¬Short mask ∧ ∃ s, getInt mask = .error (.numberFormat s)) := by
  unfold Short getInt
  generalize Text.parts '.' mask = ipt
  rcases ipt with _ | ⟨a, _ | ⟨b, _ | ⟨c, _ | ⟨d, ipt⟩⟩⟩⟩
  · simp [get, bind, Except.bind]
  · cases ha : Text.toLong a <;> simp [get, parseLong, ha, bind, Except.bind]
  · cases ha : Text.toLong a <;> cases hb : Text.toInt b <;>
      simp [get, parseLong, parseInt, ha, hb, bind, Except.bind]
  · cases ha : Text.toLong a <;> cases hb : Text.toInt b <;> cases hc : Text.toInt c <;>
      simp [get, parseLong, parseInt, ha, hb, hc, bind, Except.bind]
  · have hlen : ¬(a :: b :: c :: d :: ipt).length < 4 := by
      simp only [List.length_cons]
      omega
    simp only [hlen, false_and, not_false_eq_true, true_and, false_or]
    cases ha : Text.toLong a <;> cases hb : Text.toInt b <;> cases hc : Text.toInt c <;> cases hd : Text.toInt d <;>
      simp [get, parseLong, parseInt, ha, hb, hc, hd, bind, Except.bind, pure, Except.pure]

theorem calculateLenFromMask_of_getInt {mask : List Char} {n : Int} (hn : getInt mask = .ok n) :
    calculateLenFromMask mask = match lenZeros 64 (wrap64 (n + 4294967296)) with
      | none => .error .endless
      | some (zeros, netmask) => return if netmask ≠ 8589934591 / 2 ^ zeros then 32 else 32 - zeros := by
  unfold calculateLenFromMask
  rw [hn]
  rfl

/-- What the length of a mask comes to. -/
theorem calculateLenFromMask_cases (mask : List Char) :
    (¬Unreadable mask ∧ ¬Bitless mask ∧ ∃ len, calculateLenFromMask mask = .ok len) ∨
      (Bitless mask ∧ calculateLenFromMask mask = .error .endless) ∨
      (Unreadable mask ∧ Short mask ∧ calculateLenFromMask mask = .error .arrayIndexOutOfBounds) ∨
      (Unreadable mask ∧ ¬Short mask ∧ ∃ s, calculateLenFromMask mask = .error (.numberFormat s)) := by
  rcases getInt_cases mask with ⟨-, n, hn⟩ | ⟨hshort, he⟩ | ⟨hshort, s, he⟩
  · have hreadable : ¬Unreadable mask := fun h => h n hn
    have hlen := calculateLenFromMask_of_getInt hn
    by_cases hzero : wrap64 (n + 4294967296) = 0
    · refine .inr (.inl ⟨⟨n, hn, hzero⟩, ?_⟩)
      rw [hlen, hzero, lenZeros_zero]
    · refine .inl ⟨hreadable, ?_, ?_⟩
      · rintro ⟨n', hn', hzero'⟩
        rw [hn] at hn'
        cases hn'
        exact hzero hzero'
      · obtain ⟨hlo, hhi⟩ := wrap64_range (n + 4294967296)
        obtain ⟨p, hp⟩ := Option.ne_none_iff_exists'.mp (lenZeros_ne_none hzero hlo hhi)
        rw [hlen, hp]
        exact ⟨_, rfl⟩
  · have hunreadable : Unreadable mask := fun n hn => by rw [he] at hn; cases hn
    refine .inr (.inr (.inl ⟨hunreadable, hshort, ?_⟩))
    unfold calculateLenFromMask
    rw [he]
    rfl
  · have hunreadable : Unreadable mask := fun n hn => by rw [he] at hn; cases hn
    refine .inr (.inr (.inr ⟨hunreadable, hshort, s, ?_⟩))
    unfold calculateLenFromMask
    rw [he]
    rfl

theorem Short.unreadable {mask : List Char} (h : Short mask) : Unreadable mask := by
  intro n hn
  rcases getInt_cases mask with ⟨hshort, -⟩ | ⟨-, he⟩ | ⟨hshort, -⟩
  · exact hshort h
  · rw [he] at hn
    cases hn
  · exact hshort h

theorem Bitless.not_unreadable {mask : List Char} (h : Bitless mask) : ¬Unreadable mask := by
  obtain ⟨n, hn, -⟩ := h
  exact fun hun => hun n hn

/-! ### Dotted quads -/

/-- A number of a dotted quad. -/
structure Octet (s : List Char) (n : Nat) : Prop where
  ne_nil : s ≠ []
  digits : ∀ c ∈ s, c.isDigit = true
  value : Nat.ofDigitChars 10 s 0 = n
  le : n ≤ 255

/-- A dotted quad and its number. -/
def Quad (s : List Char) (n : Nat) : Prop :=
  ∃ a b c d x y z w, Octet a x ∧ Octet b y ∧ Octet c z ∧ Octet d w ∧ s = a ++ '.' :: (b ++ '.' :: (c ++ '.' :: d)) ∧
    n = x * 16777216 + y * 65536 + z * 256 + w

/-- A mask of ones with zeros below them. -/
def Contiguous (mask : Nat) : Prop := ∃ k ≤ 32, mask = 4294967296 - 2 ^ k

theorem Octet.not_mem {s : List Char} {n : Nat} (h : Octet s n) {c : Char} (hc : c.isDigit = false) : c ∉ s := by
  intro hmem
  rw [h.digits c hmem] at hc
  cases hc

theorem Octet.parseInt {s : List Char} {n : Nat} (h : Octet s n) : parseInt s = .ok n := by
  have hle := h.le
  have hint : Text.toInt s = some (n : Int) := by
    rw [← h.value]
    exact Text.parseSigned_digits h.ne_nil h.digits (by omega) (by rw [h.value]; omega)
  unfold ConfigParser.parseInt
  rw [hint]

theorem Octet.parseLong {s : List Char} {n : Nat} (h : Octet s n) : parseLong s = .ok n := by
  have hle := h.le
  have hlong : Text.toLong s = some (n : Int) := by
    rw [← h.value]
    exact Text.parseSigned_digits h.ne_nil h.digits (by omega) (by rw [h.value]; omega)
  unfold ConfigParser.parseLong
  rw [hlong]

theorem Quad.not_mem {s : List Char} {n : Nat} (h : Quad s n) {c : Char} (hc : c.isDigit = false) (hdot : c ≠ '.') :
    c ∉ s := by
  obtain ⟨a, b, c', d, x, y, z, w, ha, hb, hc', hd, rfl, -⟩ := h
  simp only [List.mem_append, List.mem_cons, not_or]
  exact ⟨ha.not_mem hc, hdot, hb.not_mem hc, hdot, hc'.not_mem hc, hdot, hd.not_mem hc⟩

theorem Quad.lt {s : List Char} {n : Nat} (h : Quad s n) : n < 4294967296 := by
  obtain ⟨a, b, c, d, x, y, z, w, ha, hb, hc, hd, -, rfl⟩ := h
  have hx := ha.le
  have hy := hb.le
  have hz := hc.le
  have hw := hd.le
  omega

theorem wrap64_of_lt {n : Int} (hlo : 0 ≤ n) (hhi : n < 9223372036854775808) : wrap64 n = n := by
  unfold wrap64
  rw [Int.bmod_def]
  omega

theorem wrap32_of_lt {n : Int} (hlo : 0 ≤ n) (hhi : n < 2147483648) : wrap32 n = n := by
  unfold wrap32
  rw [Int.bmod_def]
  omega

theorem Quad.getInt {s : List Char} {n : Nat} (h : Quad s n) : getInt s = .ok n := by
  obtain ⟨a, b, c, d, x, y, z, w, ha, hb, hc, hd, rfl, rfl⟩ := h
  have hdigit : ('.' : Char).isDigit = false := by decide
  have hparts : Text.parts '.' (a ++ '.' :: (b ++ '.' :: (c ++ '.' :: d))) = [a, b, c, d] := by
    refine Text.parts_eq_split (l := [a, b, c]) (by simp) ?_ hd.ne_nil
    rw [Text.split_append_cons (ha.not_mem hdigit), Text.split_append_cons (hb.not_mem hdigit),
      Text.split_append_cons (hc.not_mem hdigit), Text.split_of_not_mem (hd.not_mem hdigit)]
    rfl
  have hx := ha.le
  have hy := hb.le
  have hz := hc.le
  have hw := hd.le
  unfold ConfigParser.getInt
  rw [hparts]
  simp only [get, List.getElem?_cons_zero, List.getElem?_cons_succ, bind, Except.bind, ha.parseLong, hb.parseInt,
    hc.parseInt, hd.parseInt, pure, Except.pure]
  have hfirst : wrap64 ((x : Int) * 16777216) = x * 16777216 := wrap64_of_lt (by omega) (by omega)
  have hsecond : wrap32 ((y : Int) * 65536) = y * 65536 := wrap32_of_lt (by omega) (by omega)
  have hthird : wrap32 ((z : Int) * 256) = z * 256 := wrap32_of_lt (by omega) (by omega)
  rw [hfirst, hsecond, hthird, wrap64_of_lt (by omega) (by omega)]
  simp

/-! ### The length of a mask -/

theorem lenZeros_mul (fuel k : Nat) (m : Int) (hk : k < fuel) (hm : m % 2 = 1) :
    lenZeros fuel (m * 2 ^ k) = some (k, m) := by
  induction k generalizing fuel with
  | zero =>
    obtain ⟨fuel, rfl⟩ := Nat.exists_eq_succ_of_ne_zero (Nat.ne_of_gt hk)
    have hodd : ¬m * 2 ^ 0 % 2 = 0 := by omega
    unfold lenZeros
    rw [if_neg hodd]
    simp
  | succ k ih =>
    obtain ⟨fuel, rfl⟩ := Nat.exists_eq_succ_of_ne_zero (Nat.ne_of_gt (Nat.zero_lt_of_lt hk))
    have heven : m * 2 ^ (k + 1) = m * 2 ^ k * 2 := by rw [Int.pow_succ, Int.mul_assoc]
    unfold lenZeros
    rw [heven, if_pos (Int.mul_emod_left _ _), Int.mul_ediv_cancel _ (by decide), ih fuel (by omega)]
    rfl

theorem eq_of_lenZeros {fuel : Nat} {n m : Int} {k : Nat} (h : lenZeros fuel n = some (k, m)) : n = m * 2 ^ k := by
  induction fuel generalizing n k with
  | zero => cases h
  | succ fuel ih =>
    unfold lenZeros at h
    split at h
    · rename_i heven
      obtain ⟨⟨k', m'⟩, hrec, heq⟩ := Option.map_eq_some_iff.mp h
      cases heq
      have hhalf := ih hrec
      rw [Int.pow_succ, ← Int.mul_assoc, ← hhalf]
      omega
    · cases h
      simp

section Length
variable {mask : List Char} {n : Nat}

theorem calculateLenFromMask_of_lenZeros (h : Quad mask n) {k : Nat} {m : Int}
    (hk : lenZeros 64 ((n : Int) + 4294967296) = some (k, m)) :
    calculateLenFromMask mask = .ok (if m ≠ 8589934591 / 2 ^ k then 32 else 32 - k) := by
  have hlt := h.lt
  have hwrap : wrap64 ((n : Int) + 4294967296) = n + 4294967296 := wrap64_of_lt (by omega) (by omega)
  rw [calculateLenFromMask_of_getInt h.getInt, hwrap, hk]
  rfl

/-- The ones above `k` zeros, with the 33rd bit. -/
theorem ones_mul : ∀ k ≤ 32, 8589934591 / 2 ^ k * 2 ^ k = 8589934592 - 2 ^ k ∧ 8589934591 / 2 ^ k % 2 = 1 := by decide

theorem ones_cast (k : Nat) : (8589934591 / 2 ^ k : Int) = ((8589934591 / 2 ^ k : Nat) : Int) := by
  rw [Int.natCast_ediv, Int.natCast_pow]
  rfl

theorem calculateLenFromMask_of_contiguous {k : Nat} (h : Quad mask n) (hk : k ≤ 32) (hn : n = 4294967296 - 2 ^ k) :
    calculateLenFromMask mask = .ok (32 - k) := by
  obtain ⟨hmul, hodd⟩ := ones_mul k hk
  have hpow : 2 ^ k ≤ 2 ^ 32 := Nat.pow_le_pow_right (by decide) hk
  have hsum : (n : Int) + 4294967296 = ((8589934591 / 2 ^ k : Nat) : Int) * 2 ^ k := by
    have hnat : n + 4294967296 = 8589934591 / 2 ^ k * 2 ^ k := by
      rw [hmul]
      omega
    exact_mod_cast hnat
  have hlen : lenZeros 64 ((n : Int) + 4294967296) = some (k, ((8589934591 / 2 ^ k : Nat) : Int)) := by
    rw [hsum]
    exact lenZeros_mul 64 k _ (by omega) (by exact_mod_cast hodd)
  rw [calculateLenFromMask_of_lenZeros h hlen, ones_cast, if_neg fun hne => hne rfl]

theorem calculateLenFromMask_of_not_contiguous (h : Quad mask n) (hn : ¬Contiguous n) :
    calculateLenFromMask mask = .ok 32 := by
  have hlt := h.lt
  have hsome : lenZeros 64 ((n : Int) + 4294967296) ≠ none := lenZeros_ne_none (by omega) (by omega) (by omega)
  obtain ⟨⟨k, m⟩, hk⟩ := Option.ne_none_iff_exists'.mp hsome
  rw [calculateLenFromMask_of_lenZeros h hk, if_pos]
  intro hm
  have hsum : n + 4294967296 = 8589934591 / 2 ^ k * 2 ^ k := by
    have hint := eq_of_lenZeros hk
    rw [hm, ones_cast] at hint
    exact_mod_cast hint
  have hle : k ≤ 32 := by
    refine Nat.le_of_not_lt fun hbig => ?_
    have hpow : 2 ^ 33 ≤ 2 ^ k := Nat.pow_le_pow_right (by decide) hbig
    rw [Nat.div_eq_of_lt (by omega)] at hsum
    omega
  rw [(ones_mul k hle).1] at hsum
  exact hn ⟨k, hle, by omega⟩

end Length

end ConfigParser
end NicVpn
