import Mathlib.Data.List.Basic

/-! Lists of rules of which the first that matches decides: what appending, inserting at the front and blocks
    of one verdict do to the decision. -/

/-- Whether a rule matches, and what it decides. -/
structure Rules (ρ β : Type) where
  matches? : ρ → Bool
  verdict : ρ → β

namespace Rules
variable {ρ β : Type} (R : Rules ρ β)

/-- The verdict of the first rule that matches. -/
def decide (l : List ρ) : Option β := (l.find? R.matches?).map R.verdict

variable {l l' : List ρ} {r : ρ} {b : β}

@[simp] theorem decide_nil : R.decide [] = none := rfl

theorem decide_cons : R.decide (r :: l) = if R.matches? r then some (R.verdict r) else R.decide l := by
  unfold decide
  rw [List.find?_cons]
  cases h : R.matches? r <;> simp

theorem decide_append : R.decide (l ++ l') = (R.decide l).or (R.decide l') := by
  unfold decide
  rw [List.find?_append]
  cases l.find? R.matches? <;> rfl

variable {R}

/-- A block of rules with one verdict is one rule, which matches where any of them does. -/
theorem decide_of_uniform (h : ∀ r ∈ l, R.verdict r = b) : R.decide l = if l.any R.matches? then some b else none := by
  induction l with
  | nil => rfl
  | cons r l ih =>
    rw [decide_cons, ih fun x hx => h x (List.mem_cons_of_mem _ hx), List.any_cons]
    cases R.matches? r with
    | true => simp [h r List.mem_cons_self]
    | false => simp

end Rules
