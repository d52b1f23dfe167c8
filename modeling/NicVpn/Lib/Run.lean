/-! Step systems: states, the events that can occur in them, and what holds of every state a run
    reaches. A system is given by its initial states and a partial step function; a run may be
    restricted to steps that meet a condition on the event and the state before it. -/

namespace StepSystem

/-- A system of labelled steps. `step s e = none` means that `e` cannot occur in `s`. -/
structure System (σ ε : Type) where
  init : σ → Prop
  step : σ → ε → Option σ

variable {σ ε : Type}

/-- No condition on the steps of a run. -/
def Any : σ → ε → Prop := fun _ _ => True

instance (s : σ) (e : ε) : Decidable (Any s e) := isTrue trivial

/-- The states reached from an initial one by steps that all meet `C`. -/
inductive Reachable (S : System σ ε) (C : σ → ε → Prop) : σ → Prop
  | init {s : σ} : S.init s → Reachable S C s
  | step {s t : σ} (e : ε) : Reachable S C s → C s e → S.step s e = some t → Reachable S C t

section Rules
variable {S : System σ ε} {C : σ → ε → Prop}

/-- What holds initially and is kept by every allowed step holds of every reached state. -/
theorem Reachable.inv {I : σ → Prop} (init : ∀ s, S.init s → I s)
    (step : ∀ s e t, I s → C s e → S.step s e = some t → I t) {s : σ} (h : Reachable S C s) : I s := by
  induction h with
  | init h0 => exact init _ h0
  | step e _ hc hs ih => exact step _ e _ ih hc hs

/-- A run under a stronger condition is a run under a weaker one. -/
theorem Reachable.mono {D : σ → ε → Prop} (hCD : ∀ s e, C s e → D s e) {s : σ} (h : Reachable S C s) :
    Reachable S D s := by
  induction h with
  | init h0 => exact .init h0
  | step e _ hc hs ih => exact .step e ih (hCD _ e hc) hs

/-- The state after a list of events, when each of them can occur and meets `C`. -/
def System.run (S : System σ ε) (C : σ → ε → Prop) [∀ s e, Decidable (C s e)] (s : σ) : List ε → Option σ
  | [] => some s
  | e :: es => if C s e then (S.step s e).bind fun t => S.run C t es else none

theorem Reachable.run [∀ s e, Decidable (C s e)] {es : List ε} {s t : σ} (h : Reachable S C s)
    (hr : S.run C s es = some t) : Reachable S C t := by
  induction es generalizing s with
  | nil =>
    simp only [System.run, Option.some.injEq] at hr
    exact hr ▸ h
  | cons e es ih =>
    simp only [System.run] at hr
    split at hr
    · rename_i hc
      obtain ⟨u, hu, hr⟩ := Option.bind_eq_some_iff.mp hr
      exact ih (.step e h hc hu) hr
    · cases hr

/-- A run from an initial state that ends in a state with `p`. -/
theorem exists_reachable [∀ s e, Decidable (C s e)] {p : σ → Bool} {s : σ} (h0 : S.init s) (es : List ε)
    (hp : (S.run C s es).any p = true) : ∃ t, Reachable S C t ∧ p t = true := by
  obtain ⟨t, ht, hpt⟩ := (Option.any_eq_true p _).mp hp
  exact ⟨t, (Reachable.init h0).run ht, hpt⟩

end Rules

end StepSystem
