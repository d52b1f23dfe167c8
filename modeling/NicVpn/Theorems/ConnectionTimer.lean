import NicVpn.ConnectionTimer
import Mathlib.Tactic.ByContra

/-! The life of a countdown. Starts, countdowns and expiries stay in step in every run where a start asks for no
    negative time and finds its instance idle, only the task of the last start fires and not after its expiry, the last tick
    finds no runnable in the queue, and no instance is destroyed between the first post and its run. -/

namespace NicVpn
namespace ConnectionTimer

/-- No start throws, a running countdown is that of the most recent start, and none starts after its
    expiry. -/
structure State.InStep (s : State) : Prop where
  noThrow : s.thrown = false
  latest : ∀ p, ∀ i ∈ s.get p, i.counting = true → i.countDownTimer.map (·.start) = some s.starts
  noRestart : s.restarted = false

/-- The steps that keep them in step. -/
def Orderly (s : State) : Event → Prop
  | .startCommand milliseconds => (∀ v ∈ milliseconds, 0 ≤ v) ∧
      ∀ i ∈ s.alive, i.cancelled = false ∧ i.counting = false ∧ i.posted = []
  | .fire k => s.expired = false ∧ ∀ i ∈ s.alive, ∀ task ∈ i.tasks[k]?, task.start = s.starts
  | .tick p millisUntilFinished => millisUntilFinished / 1000 = 0 → ∀ i ∈ s.get p, i.posted = []
  | .destroy => ∀ i ∈ s.alive, i.countDownTimer = none → i.posted = []
  | .handle _ => True
  | .finish _ => True

instance (s : State) : (e : Event) → Decidable (Orderly s e)
  | .startCommand milliseconds => inferInstanceAs (Decidable ((∀ v ∈ milliseconds, 0 ≤ v) ∧ ∀ i ∈ s.alive, _))
  | .fire _ => inferInstanceAs (Decidable (_ ∧ ∀ i ∈ s.alive, ∀ task ∈ _, _))
  | .tick p _ => inferInstanceAs (Decidable (_ → ∀ i ∈ s.get p, _))
  | .destroy => inferInstanceAs (Decidable (∀ i ∈ s.alive, _))
  | .handle _ => isTrue trivial
  | .finish _ => isTrue trivial

/-! ### The invariant -/

structure Inv (s : State) : Prop where
  noThrow : s.thrown = false
  noRestart : s.restarted = false
  /-- A destroyed instance has nothing left to do. -/
  dead : ∀ i ∈ s.dead, i.counting = false ∧ i.posted = []
  value : ∀ i ∈ s.alive, 0 ≤ i.value
  counting : ∀ i ∈ s.alive, i.counting = true → i.countDownTimer.map (·.start) = some s.starts
  posted : ∀ i ∈ s.alive, ∀ task ∈ i.posted, task.start = s.starts
  expired : s.expired = true → ∀ i ∈ s.alive, i.posted = []

theorem Inv.inStep {s : State} (h : Inv s) : s.InStep where
  noThrow := h.noThrow
  noRestart := h.noRestart
  latest := by
    intro p i hi hc
    cases p with
    | alive => exact h.counting i hi hc
    | dead k =>
      have := (h.dead i (List.mem_of_getElem? hi)).1
      rw [this] at hc
      cases hc

theorem inv_initial : Inv State.initial := ⟨rfl, rfl, nofun, nofun, nofun, nofun, nofun⟩

section Steps
variable {s s' : State}

theorem Inv.startValue_nonneg (h : Inv s) {ms : Option Int} (hms : ∀ v ∈ ms, 0 ≤ v) :
    0 ≤ (s.alive.getD .create).startValue ms := by
  have hold : 0 ≤ (s.alive.getD .create).value := by
    cases ha : s.alive with
    | none => exact Int.le_refl 0
    | some i => exact h.value i ha
  have hvalue : 0 ≤ ms.getD (s.alive.getD .create).value := by
    cases ms with
    | none => exact hold
    | some v => exact hms v rfl
  simp only [Instance.startValue]
  split
  · decide
  · exact hvalue

/-- A timer that was not cancelled takes a value that is not negative. -/
theorem step_startCommand_ok {ms : Option Int} (hvalue : 0 ≤ (s.alive.getD .create).startValue ms)
    (hcan : (s.alive.getD .create).cancelled = false) :
    step s (.startCommand ms) = some { s with
      starts := s.starts + 1
      expired := false
      alive := some { s.alive.getD .create with
        value := (s.alive.getD .create).startValue ms
        tasks := (s.alive.getD .create).tasks ++
          [{ start := s.starts + 1, time := (s.alive.getD .create).startValue ms }] } } := by
  simp only [step, Instance.onStartCommand, hcan, Int.not_lt.mpr hvalue, Bool.false_eq_true, or_self, ↓reduceIte]

theorem inv_startCommand (h : Inv s) {ms : Option Int} (hc : Orderly s (.startCommand ms))
    (hs : step s (.startCommand ms) = some s') : Inv s' := by
  -- an instance that takes a start is idle, and so is a new one
  have hidle : (s.alive.getD .create).cancelled = false ∧ (s.alive.getD .create).counting = false ∧
      (s.alive.getD .create).posted = [] := by
    cases ha : s.alive with
    | none => exact ⟨rfl, rfl, rfl⟩
    | some i => exact hc.2 i ha
  obtain ⟨hcan, hcnt, hpost⟩ := hidle
  have hvalue := h.startValue_nonneg hc.1
  obtain rfl := Option.some.inj ((step_startCommand_ok hvalue hcan).symm.trans hs)
  refine ⟨h.noThrow, h.noRestart, h.dead, ?_, ?_, ?_, nofun⟩
  · rintro i hi
    cases hi
    exact hvalue
  · rintro i hi hci
    cases hi
    rw [hcnt] at hci
    cases hci
  · rintro i hi task htask
    cases hi
    rw [hpost] at htask
    cases htask

theorem inv_fire (h : Inv s) {k : Nat} (hc : Orderly s (.fire k)) (hs : step s (.fire k) = some s') : Inv s' := by
  obtain ⟨i, hi, hs⟩ := Option.bind_eq_some_iff.mp hs
  obtain ⟨_, hfire, hs⟩ := Option.bind_eq_some_iff.mp hs
  obtain ⟨task, htask, rfl⟩ := Option.map_eq_some_iff.mp hfire
  obtain rfl := Option.some.inj hs
  obtain ⟨hexp, hlast⟩ := hc
  refine ⟨h.noThrow, h.noRestart, h.dead, ?_, ?_, ?_, ?_⟩
  · rintro j hj
    cases hj
    exact h.value i hi
  · rintro j hj hcj
    cases hj
    exact h.counting i hi hcj
  · rintro j hj t ht
    cases hj
    rcases List.mem_append.mp ht with ht | ht
    · exact h.posted i hi t ht
    · rw [List.mem_singleton.mp ht]
      exact hlast i hi task htask
  · intro he
    rw [hexp] at he
    cases he

theorem inv_handle (h : Inv s) {p : Place} (hs : step s (.handle p) = some s') : Inv s' := by
  obtain ⟨i, hi, hs⟩ := Option.bind_eq_some_iff.mp hs
  obtain ⟨i', hi', hs⟩ := Option.bind_eq_some_iff.mp hs
  obtain rfl := Option.some.inj hs
  unfold Instance.handle at hi'
  split at hi'
  · cases hi'
  · rename_i task posted hp
    cases hi'
    cases p with
    | dead k =>
      have := (h.dead i (List.mem_of_getElem? hi)).2
      rw [this] at hp
      cases hp
    | alive =>
      have hmem : task ∈ i.posted := hp ▸ List.mem_cons_self
      have hexp : s.expired = false := by
        by_contra he
        have := h.expired (by simpa using he) i hi
        rw [this] at hp
        cases hp
      refine ⟨h.noThrow, ?_, h.dead, ?_, ?_, ?_, ?_⟩
      · simp only [h.noRestart, hexp, Bool.or_self]
      · rintro j hj
        cases hj
        exact h.value i hi
      · rintro j hj -
        cases hj
        simp only [Option.map_some, State.set, h.posted i hi task hmem]
      · rintro j hj t ht
        cases hj
        exact h.posted i hi t (hp ▸ List.mem_cons_of_mem task ht)
      · intro he
        simp only [State.set, hexp, Bool.false_eq_true] at he

/-- A countdown that ends with an empty queue, and nothing else changed. -/
theorem Inv.ended (h : Inv s) {i : Instance} (hval : 0 ≤ i.value) (hcnt : i.counting = false) (hpost : i.posted = [])
    (b : Bool) : Inv { s with alive := some i, expired := b } := by
  refine ⟨h.noThrow, h.noRestart, h.dead, ?_, ?_, ?_, ?_⟩
  · rintro j hj
    cases hj
    exact hval
  · rintro j hj hcj
    cases hj
    rw [hcnt] at hcj
    cases hcj
  · rintro j hj t ht
    cases hj
    rw [hpost] at ht
    cases ht
  · rintro - j hj
    cases hj
    exact hpost

theorem Inv.not_counting_dead (h : Inv s) {i : Instance} {k : Nat} (hi : i ∈ s.get (.dead k)) :
    i.counting = false :=
  (h.dead i (List.mem_of_getElem? hi)).1

theorem inv_tick (h : Inv s) {p : Place} {ms : Nat} (hc : Orderly s (.tick p ms))
    (hs : step s (.tick p ms) = some s') : Inv s' := by
  obtain ⟨i, hi, hs⟩ := Option.bind_eq_some_iff.mp hs
  obtain ⟨i', hi', hs⟩ := Option.bind_eq_some_iff.mp hs
  obtain rfl := Option.some.inj hs
  obtain ⟨hcnt, hi'⟩ := Option.ite_none_right_eq_some.mp hi'
  obtain rfl := Option.some.inj hi'
  cases p with
  | dead k => exact Bool.noConfusion (hcnt.symm.trans (h.not_counting_dead hi))
  | alive =>
    by_cases hms : ms / 1000 ≠ 0
    · have halive : s.alive = some i := hi
      simp only [if_pos hms, State.set, ← halive]
      exact h
    · simp only [if_neg hms]
      exact h.ended (i := { i with counting := false }) (h.value i hi) rfl (hc (by simpa using hms) i hi) _

theorem inv_finish (h : Inv s) {p : Place} (hs : step s (.finish p) = some s') : Inv s' := by
  obtain ⟨i, hi, hs⟩ := Option.bind_eq_some_iff.mp hs
  obtain ⟨i', hi', hs⟩ := Option.bind_eq_some_iff.mp hs
  obtain rfl := Option.some.inj hs
  obtain ⟨hcnt, hi'⟩ := Option.ite_none_right_eq_some.mp hi'
  obtain rfl := Option.some.inj hi'
  cases p with
  | dead k => exact Bool.noConfusion (hcnt.symm.trans (h.not_counting_dead hi))
  | alive =>
    exact h.ended (i := { i with posted := [], counting := false, cancelled := true, tasks := [] }) (h.value i hi) rfl rfl _

theorem inv_destroy (h : Inv s) (hc : Orderly s .destroy) (hs : step s .destroy = some s') : Inv s' := by
  obtain ⟨i, hi, hs⟩ := Option.bind_eq_some_iff.mp hs
  obtain rfl := Option.some.inj hs
  refine ⟨h.noThrow, h.noRestart, ?_, nofun, nofun, nofun, fun _ => nofun⟩
  intro j hj
  rcases List.mem_cons.mp hj with rfl | hj
  · cases hcd : i.countDownTimer with
    | some task => simp [Instance.onDestroy, hcd]
    | none =>
      have hcnt : i.counting = false := by
        by_contra hcnt
        have := h.counting i hi (by simpa using hcnt)
        rw [hcd] at this
        cases this
      simp [Instance.onDestroy, hcd, hcnt, hc i hi hcd]
  · exact h.dead j hj

theorem inv_step {e : Event} (h : Inv s) (hc : Orderly s e) (hs : step s e = some s') : Inv s' := by
  cases e with
  | startCommand ms => exact inv_startCommand h hc hs
  | fire k => exact inv_fire h hc hs
  | handle p => exact inv_handle h hs
  | tick p ms => exact inv_tick h hc hs
  | finish p => exact inv_finish h hs
  | destroy => exact inv_destroy h hc hs

end Steps

/-! ### Runs -/

/-- In every orderly run no start throws, a running countdown is that of the most recent start, and no
    countdown follows an expiry before the next start. -/
theorem countdowns_in_step (s : State) (h : StepSystem.Reachable system Orderly s) : s.InStep :=
  (h.inv (fun _ h0 => h0 ▸ inv_initial) fun _ _ _ hi hc hs => inv_step hi hc hs).inStep

/-- A countdown that expires by its last tick, a second one on the same instance, and a third one on a new
    instance. -/
def orderlyEvents : List Event :=
  [.startCommand (some 3600000), .fire 0, .handle .alive, .tick .alive 3599999, .tick .alive 999,
   .startCommand (some 60000), .fire 1, .handle .alive, .destroy, .startCommand none, .fire 0, .handle .alive]

theorem countdowns_in_step_three : ∃ s : State, (s.starts == 3 && s.alive.any (·.counting)) = true ∧ s.InStep := by
  obtain ⟨s, hs, hp⟩ := StepSystem.exists_reachable (S := system) (C := Orderly)
    (p := fun s => s.starts == 3 && s.alive.any (·.counting)) (s := State.initial) rfl orderlyEvents (by decide)
  exact ⟨s, hp, countdowns_in_step s hs⟩

/-- A start after `onFinish` on the same instance throws. -/
theorem start_after_finish_throws :
    ¬∀ s, StepSystem.Reachable system StepSystem.Any s → s.InStep := by
  intro h
  obtain ⟨s, hs, hp⟩ := StepSystem.exists_reachable (S := system) (C := StepSystem.Any)
    (p := fun s => s.thrown) (s := State.initial) rfl
    [.startCommand (some 60000), .fire 0, .handle .alive, .finish .alive, .startCommand (some 60000)]
    (by decide)
  exact Bool.noConfusion (hp.symm.trans (h s hs).noThrow)

end ConnectionTimer
end NicVpn
