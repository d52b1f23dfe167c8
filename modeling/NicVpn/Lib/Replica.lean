import Mathlib.Data.List.Basic

/-! A value and a copy of it, where both pass over some updates: what happens to a copy that is sent the value
    and then updates that lead up to it once more. -/

namespace Replica
variable {α : Type} (ignores : α → α → Bool)

/-- The value after an update, which may be passed over. -/
def take (a u : α) : α := if ignores a u then a else u

/-- Updates of which each is taken. -/
def Accepted (a : α) : List α → Prop
  | [] => True
  | u :: l => ignores a u = false ∧ Accepted u l

/-- Updates that lead up to `a`, each of them taken. -/
def LeadsTo (a : α) (l : List α) : Prop := ∃ b, Accepted ignores b l ∧ l.getLastD a = a

variable {ignores} {a b u : α} {l l' : List α}

theorem take_of_not (h : ignores a u = false) : take ignores a u = u := by
  unfold take
  rw [h]
  rfl

theorem foldl_of_accepted (h : Accepted ignores a l) : l.foldl (take ignores) a = l.getLastD a := by
  induction l generalizing a with
  | nil => rfl
  | cons u l ih => rw [List.foldl_cons, take_of_not h.1, ih h.2, List.getLastD_cons]

/-- Updates in a row that start anywhere: the last of them, or nothing has changed. -/
theorem foldl_cases (h : Accepted ignores b l) (a : α) :
    l.foldl (take ignores) a = l.getLastD a ∨ l.foldl (take ignores) a = a := by
  induction l generalizing a b with
  | nil => exact .inl rfl
  | cons u l ih =>
    rw [List.foldl_cons, List.getLastD_cons]
    cases hu : ignores a u with
    | false =>
      rw [take_of_not hu]
      exact .inl (foldl_of_accepted h.2)
    | true =>
      rw [show take ignores a u = a from if_pos hu]
      rcases ih h.2 a with heq | heq
      · cases l with
        | nil => exact .inr rfl
        | cons v l =>
          rw [List.getLastD_cons] at heq ⊢
          exact .inl heq
      · exact .inr heq

/-- A copy is not moved by the updates that led up to it. -/
theorem LeadsTo.foldl (h : LeadsTo ignores a l) : l.foldl (take ignores) a = a := by
  obtain ⟨b, hb, hlast⟩ := h
  rcases foldl_cases hb a with heq | heq
  · exact heq.trans hlast
  · exact heq

theorem leadsTo_nil (a : α) : LeadsTo ignores a [] := ⟨a, trivial, rfl⟩

theorem LeadsTo.tail (h : LeadsTo ignores a (u :: l)) : LeadsTo ignores a l := by
  obtain ⟨b, hb, hlast⟩ := h
  refine ⟨u, hb.2, ?_⟩
  cases l with
  | nil => rfl
  | cons v l =>
    rw [List.getLastD_cons]
    rwa [List.getLastD_cons, List.getLastD_cons] at hlast

theorem accepted_append_singleton (h : Accepted ignores a l) (hu : ignores (l.getLastD a) u = false) :
    Accepted ignores a (l ++ [u]) := by
  induction l generalizing a with
  | nil => exact ⟨hu, trivial⟩
  | cons v l ih =>
    rw [List.getLastD_cons] at hu
    exact ⟨h.1, ih h.2 hu⟩

end Replica
