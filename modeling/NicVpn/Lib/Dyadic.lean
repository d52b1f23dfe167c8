import Mathlib.Data.Nat.Bitwise
import Mathlib.Tactic.Ring

/-! Blocks of numbers that agree above their low `k` bits: their ends, and how blocks of different sizes lie
    to each other. -/

namespace Dyadic

/-- The first number of the block of `n`. -/
def low (k n : Nat) : Nat := n / 2 ^ k * 2 ^ k

/-- The last number of the block of `n`. -/
def high (k n : Nat) : Nat := n / 2 ^ k * 2 ^ k + (2 ^ k - 1)

theorem low_le_high (k n : Nat) : low k n ≤ high k n := Nat.le_add_right ..

/-- The numbers of a block. -/
theorem between_iff (k n a : Nat) : low k n ≤ a ∧ a ≤ high k n ↔ a / 2 ^ k = n / 2 ^ k := by
  have hpos : 0 < 2 ^ k := Nat.two_pow_pos k
  have hdiv := Nat.div_add_mod a (2 ^ k)
  have hmod := Nat.mod_lt a hpos
  rw [Nat.mul_comm] at hdiv
  simp only [low, high]
  constructor
  · rintro ⟨hlo, hhi⟩
    apply Nat.div_eq_of_lt_le hlo
    rw [Nat.add_mul, Nat.one_mul]
    omega
  · intro h
    rw [← h]
    omega

theorem low_div (k n : Nat) : low k n / 2 ^ k = n / 2 ^ k := Nat.mul_div_cancel _ (Nat.two_pow_pos k)

theorem high_div (k n : Nat) : high k n / 2 ^ k = n / 2 ^ k :=
  (between_iff k n _).mp ⟨low_le_high k n, Nat.le_refl _⟩

/-- The first number of the right half. -/
theorem low_right (k n : Nat) : low k (low (k + 1) n + 2 ^ k) = low (k + 1) n + 2 ^ k := by
  have h : low (k + 1) n + 2 ^ k = (n / 2 ^ (k + 1) * 2 + 1) * 2 ^ k := by
    rw [low, Nat.pow_succ]
    ring
  rw [h, low, Nat.mul_div_cancel _ (Nat.two_pow_pos k)]

theorem low_left (k n : Nat) : low k (low (k + 1) n) = low (k + 1) n := by
  have h : low (k + 1) n = n / 2 ^ (k + 1) * 2 * 2 ^ k := by
    rw [low, Nat.pow_succ]
    ring
  rw [h, low, Nat.mul_div_cancel _ (Nat.two_pow_pos k)]

theorem high_eq (k n : Nat) : high k n = low k n + (2 ^ k - 1) := rfl

/-- Of two blocks with a common number the smaller one lies in the larger. -/
theorem nested {j k m n a : Nat} (hkj : k ≤ j) (hk : a / 2 ^ k = n / 2 ^ k) (hj : a / 2 ^ j = m / 2 ^ j) :
    low j m ≤ low k n ∧ high k n ≤ high j m := by
  obtain ⟨i, rfl⟩ := Nat.exists_eq_add_of_le hkj
  have hn : ∀ b, b / 2 ^ k = n / 2 ^ k → b / 2 ^ (k + i) = m / 2 ^ (k + i) := by
    intro b hb
    rw [← hj, Nat.pow_add, ← Nat.div_div_eq_div_mul, ← Nat.div_div_eq_div_mul, hb, hk]
  exact ⟨((between_iff _ _ _).mpr (hn _ (low_div k n))).1, ((between_iff _ _ _).mpr (hn _ (high_div k n))).2⟩

/-! ### Setting and clearing the low bits -/

theorem mul_or_shift (m k : Nat) : m * 2 ^ k ||| 1 <<< k = (m / 2 * 2 + 1) * 2 ^ k := by
  have hm : (m ||| 1) = m / 2 * 2 + 1 := by
    have hdiv := Nat.div_add_mod (m ||| 1) 2
    have hmod : (m ||| 1) % 2 = 1 := Nat.or_mod_two_eq_one.mpr (.inr rfl)
    have hhalf : (m ||| 1) / 2 = m / 2 := by simp [Nat.or_div_two]
    omega
  rw [← Nat.shiftLeft_eq, ← Nat.shiftLeft_or_distrib, Nat.shiftLeft_eq, hm]

theorem div_pow_succ (n k : Nat) : n / 2 ^ k / 2 = n / 2 ^ (k + 1) := by
  rw [Nat.div_div_eq_div_mul, ← Nat.pow_succ]

theorem foldl_clear (k n : Nat) :
    (List.range k).foldl (fun n i => (n ||| 1 <<< i) - 1 <<< i) n = low k n := by
  induction k with
  | zero => simp [low]
  | succ k ih =>
    have hstep : (low k n ||| 1 <<< k) - 1 <<< k = low (k + 1) n := by
      rw [low, mul_or_shift, div_pow_succ, Nat.shiftLeft_eq, Nat.add_mul, Nat.add_sub_cancel, low, Nat.pow_succ]
      ring
    rw [List.range_succ, List.foldl_append, ih, List.foldl_cons, List.foldl_nil, hstep]

theorem foldl_set (k n : Nat) : (List.range k).foldl (fun n i => n ||| 1 <<< i) n = high k n := by
  induction k with
  | zero => simp [high]
  | succ k ih =>
    have hpos : 0 < 2 ^ k := Nat.two_pow_pos k
    have hlt : 2 ^ k - 1 < 2 ^ k := Nat.sub_lt hpos Nat.one_pos
    have hor (m : Nat) : m * 2 ^ k + (2 ^ k - 1) = m * 2 ^ k ||| (2 ^ k - 1) := by
      rw [← Nat.shiftLeft_eq]
      exact Nat.shiftLeft_add_eq_or_of_lt hlt m
    have hstep : high k n ||| 1 <<< k = high (k + 1) n := by
      rw [high, hor, Nat.or_assoc, Nat.or_comm (2 ^ k - 1), ← Nat.or_assoc, mul_or_shift, ← hor, div_pow_succ, high,
        Nat.pow_succ]
      have : n / (2 ^ k * 2) * (2 ^ k * 2) = n / (2 ^ k * 2) * 2 * 2 ^ k := by ring
      rw [this, Nat.add_mul]
      omega
    rw [List.range_succ, List.foldl_append, ih, List.foldl_cons, List.foldl_nil, hstep]

end Dyadic
