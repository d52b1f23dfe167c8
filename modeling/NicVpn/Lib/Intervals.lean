import Mathlib.Data.List.Pairwise
import Mathlib.Data.Option.Basic

/-! Finite unions of intervals of numbers, and the same union with fewer intervals: neighbours that meet become
    one. -/

namespace Intervals

/-- The numbers from `lo` up to `hi`, without `hi`. -/
structure Interval where
  lo : Nat
  hi : Nat
  le : lo ≤ hi
  deriving DecidableEq

/-- Some interval of the list has the number. -/
def Covers (l : List Interval) (a : Nat) : Prop := ∃ i ∈ l, i.lo ≤ a ∧ a < i.hi

/-- An interval before others, joined to the first of them where the two meet. -/
def extend (i : Interval) : List Interval → List Interval
  | [] => [i]
  | j :: l => if h : i.hi = j.lo then ⟨i.lo, j.hi, Nat.le_trans i.le (h ▸ j.le)⟩ :: l else i :: j :: l

def merge (l : List Interval) : List Interval := l.foldr extend []

variable {i : Interval} {l : List Interval} {a : Nat}

theorem covers_nil : ¬Covers [] a := fun ⟨_, h, _⟩ => nomatch h

theorem covers_cons : Covers (i :: l) a ↔ (i.lo ≤ a ∧ a < i.hi) ∨ Covers l a := by
  simp only [Covers, List.mem_cons, or_and_right, exists_or, exists_eq_left]

theorem covers_extend : Covers (extend i l) a ↔ Covers (i :: l) a := by
  cases l with
  | nil => exact Iff.rfl
  | cons j l =>
    simp only [extend]
    split
    · next hmeet =>
      have hi := i.le
      have hj := j.le
      have hjoin : i.lo ≤ a ∧ a < j.hi ↔ (i.lo ≤ a ∧ a < i.hi) ∨ (j.lo ≤ a ∧ a < j.hi) := by omega
      rw [covers_cons, covers_cons, covers_cons, hjoin, or_assoc]
    · exact Iff.rfl

/-- The numbers stay the same. -/
theorem covers_merge : Covers (merge l) a ↔ Covers l a := by
  induction l with
  | nil => exact Iff.rfl
  | cons i l ih =>
    show Covers (extend i (merge l)) a ↔ _
    rw [covers_extend, covers_cons, covers_cons, ih]

/-! ### Intervals without a common number -/

/-- One ends before the other begins. -/
def Apart (i j : Interval) : Prop := i.hi ≤ j.lo ∨ j.hi ≤ i.lo

instance (i j : Interval) : Decidable (Apart i j) := inferInstanceAs (Decidable (_ ∨ _))

theorem Apart.symm {i j : Interval} (h : Apart i j) : Apart j i := Or.symm h

theorem Apart.not_both {i j : Interval} (h : Apart i j) (hi : i.lo ≤ a ∧ a < i.hi) : ¬(j.lo ≤ a ∧ a < j.hi) := by
  unfold Apart at h
  omega

/-- Of things with intervals that lie apart one at most has the number. -/
theorem eq_of_apart {β : Type*} {f : β → Option Interval} {l : List β}
    (h : l.Pairwise fun x y => ∀ i ∈ f x, ∀ j ∈ f y, Apart i j) {x y : β} (hx : x ∈ l) (hy : y ∈ l)
    (hax : ∃ i ∈ f x, i.lo ≤ a ∧ a < i.hi) (hay : ∃ j ∈ f y, j.lo ≤ a ∧ a < j.hi) : x = y := by
  obtain ⟨i, hi, hai⟩ := hax
  obtain ⟨j, hj, haj⟩ := hay
  by_contra hne
  have : Std.Symm fun x y => ∀ i ∈ f x, ∀ j ∈ f y, Apart i j :=
    ⟨fun _ _ h j hj i hi => (h i hi j hj).symm⟩
  exact (h.forall hx hy hne i hi j hj).not_both hai haj

end Intervals
