import NicVpn.HTTProcessManager
import Mathlib.Tactic.ByContra

/-! Stopping stunnel. `stop` is final in every run where it looks for the process while `start` has none
    under way: not between the start of a connection and the store of its process. -/

namespace NicVpn
namespace HTTProcessManager

/-- `start` has returned or waits. -/
def StartPc.Settled : StartPc → Prop
  | .waiting _ => True
  | .returned => True
  | _ => False

/-- No process was started after `stop` had returned, and none runs when `start` waits or has returned. -/
structure State.StopFinal (s : State) : Prop where
  noStart : s.startedAfterStop = false
  noneLeft : s.stop = .returned → s.start.Settled → ∀ p, s.alive p = false

/-- `start` is about to start a process, or has one that it has not stored. -/
def StartPc.underWay : StartPc → Bool
  | .setupConfig => true
  | .exec => true
  | .store _ => true
  | _ => false

/-- The step in which `stop` destroys the stored process finds no process under way. -/
def StopsSettled (s : State) : Event → Prop
  | .stop _ => s.stop = .destroy → s.start.underWay = false
  | _ => True

instance (s : State) : (e : Event) → Decidable (StopsSettled s e)
  | .stop _ => inferInstanceAs (Decidable (_ → _))
  | .start _ => isTrue trivial
  | .exit _ => isTrue trivial
  | .writePid _ => isTrue trivial

/-- `stop` has destroyed the stored process. -/
def StopPc.past : StopPc → Bool
  | .notCalled => false
  | .setStopService => false
  | .destroy => false
  | _ => true

/-! ### The invariant -/

structure Inv (s : State) : Prop where
  noStart : s.startedAfterStop = false
  /-- A running process is the one under way, or the stored one before it is destroyed. -/
  running : ∀ p, s.alive p = true →
    s.start = .store p ∨ (s.stunnelProcess = some p ∧ ((∃ b, s.start = .waiting b) ∨ s.start = .destroy))
  flag : s.stop = .destroy ∨ s.stop.past = true → s.stopService = true
  settled : s.stop.past = true → s.start.underWay = false ∧ ∀ p, s.alive p = false

theorem Inv.stopFinal {s : State} (h : Inv s) : s.StopFinal where
  noStart := h.noStart
  noneLeft hs _ := (h.settled (by rw [hs]; rfl)).2

theorem inv_initial : Inv State.initial := ⟨rfl, nofun, nofun, nofun⟩

section Steps
variable {s s' : State}

theorem destroyProcess_alive {q : Option Nat} {p : Nat} (h : (s.destroyProcess q).alive p = true) :
    s.alive p = true ∧ q ≠ some p := by
  simpa [State.destroyProcess] using h

/-- Ended processes keep the invariant. -/
theorem Inv.destroyProcess (h : Inv s) (q : Option Nat) : Inv (s.destroyProcess q) := by
  refine ⟨h.noStart, fun p hp => h.running p (destroyProcess_alive hp).1, h.flag, fun hp => ⟨(h.settled hp).1, ?_⟩⟩
  intro p
  simp [State.destroyProcess, (h.settled hp).2 p]

/-- A step of `start` at a place where no process can run. -/
theorem Inv.none_alive (h : Inv s) (hstore : ∀ p, s.start ≠ .store p) (hwait : ∀ b, s.start ≠ .waiting b)
    (hdestroy : s.start ≠ .destroy) (p : Nat) : s.alive p = false := by
  by_contra hp
  rcases h.running p (by simpa using hp) with hs | ⟨-, ⟨b, hb⟩ | hd⟩
  · exact hstore p hs
  · exact hwait b hb
  · exact hdestroy hd

/-- While a process is under way, `stop` has not looked for it. -/
theorem Inv.not_past (h : Inv s) (hs : s.start.underWay = true) : s.stop.past = false := by
  by_contra hp
  rw [(h.settled (by simpa using hp)).1] at hs
  cases hs

/-- `start` goes on from its wait, to destroy the stored process. -/
theorem Inv.startDestroy (h : Inv s) {b : Bool} (hpc : s.start = .waiting b) : Inv { s with start := .destroy } := by
  refine ⟨h.noStart, fun p hp => ?_, h.flag, fun hp => ⟨rfl, (h.settled hp).2⟩⟩
  rcases h.running p hp with hst | ⟨heq, -⟩
  · rw [hpc] at hst
    cases hst
  · exact .inr ⟨heq, .inr rfl⟩

theorem inv_startStep {flag : Bool} (h : Inv s) (hs : s.startStep flag = some s') : Inv s' := by
  unfold State.startStep at hs
  split at hs
  · rename_i hpc
    cases hs
    have hnone := h.none_alive (by simp [hpc]) (by simp [hpc]) (by simp [hpc])
    have hpast := h.not_past (by rw [hpc]; rfl)
    refine ⟨h.noStart, fun p hp => ?_, h.flag, fun hp => ?_⟩
    · rw [hnone p] at hp
      cases hp
    · rw [hpast] at hp
      cases hp
  · rename_i hpc
    have hnone := h.none_alive (by simp [hpc]) (by simp [hpc]) (by simp [hpc])
    have hpast := h.not_past (by rw [hpc]; rfl)
    have hstop : s.stop ≠ .returned := fun hr => by rw [hr] at hpast; cases hpast
    split at hs <;> cases hs
    · refine ⟨by simp [h.noStart, hstop], fun p hp => .inl ?_, h.flag, fun hp => ?_⟩
      · by_cases hps : p = s.started
        · rw [hps]
        · have hp : s.alive p = true := Function.update_of_ne hps true s.alive ▸ hp
          rw [hnone p] at hp
          cases hp
      · rw [hpast] at hp
        cases hp
    · exact ⟨h.noStart, fun p hp => absurd hp (by simp [hnone p]), h.flag, fun _ => ⟨rfl, hnone⟩⟩
  · rename_i q hpc
    cases hs
    have hpast := h.not_past (by rw [hpc]; rfl)
    refine ⟨h.noStart, fun p hp => .inr ⟨?_, .inl ⟨flag, rfl⟩⟩, h.flag, fun hp => ?_⟩
    · rcases h.running p hp with hst | ⟨-, ⟨b, hb⟩ | hd⟩
      · rw [hpc] at hst
        cases hst
        rfl
      · rw [hpc] at hb
        cases hb
      · rw [hpc] at hd
        cases hd
    · rw [hpast] at hp
      cases hp
  · rename_i hpc
    cases hs
    exact h.startDestroy hpc
  · rename_i hpc
    split at hs <;> cases hs
    exact h.startDestroy hpc
  · rename_i hpc
    cases hs
    have hnone : ∀ p, (s.destroyProcess s.stunnelProcess).alive p = false := by
      intro p
      by_contra hp
      obtain ⟨hp, hne⟩ := destroyProcess_alive (by simpa using hp)
      rcases h.running p hp with hst | ⟨heq, -⟩
      · rw [hpc] at hst
        cases hst
      · exact hne heq
    exact ⟨h.noStart, fun p hp => absurd hp (by simp [hnone p]), h.flag, fun _ => ⟨rfl, hnone⟩⟩
  · rename_i hpc
    cases hs
    have hnone := h.none_alive (by simp [hpc]) (by simp [hpc]) (by simp [hpc])
    refine ⟨h.noStart, fun p hp => absurd hp (by simp [hnone p]), h.flag, fun hp => ⟨?_, hnone⟩⟩
    -- `stop` is past the flag, so there is no reconnect
    simp [h.flag (.inr hp), StartPc.underWay]
  · cases hs

theorem inv_stopStep {readable : Bool} (h : Inv s) (hc : StopsSettled s (.stop readable))
    (hs : s.stopStep readable = some s') : Inv s' := by
  unfold State.stopStep at hs
  split at hs
  · cases hs
    exact ⟨h.noStart, h.running, nofun, nofun⟩
  · cases hs
    exact ⟨h.noStart, h.running, fun _ => rfl, nofun⟩
  · rename_i hpc
    cases hs
    have hnot := hc hpc
    refine ⟨h.noStart, (h.destroyProcess s.stunnelProcess).running, fun _ => h.flag (.inl hpc), fun _ => ⟨hnot, ?_⟩⟩
    -- the stored process is the only one that can run here
    intro p
    by_contra hp
    obtain ⟨hp, hne⟩ := destroyProcess_alive (by simpa using hp)
    rcases h.running p hp with hst | ⟨heq, -⟩
    · rw [hst] at hnot
      cases hnot
    · exact hne heq
  · rename_i hpc
    have hpast : s.stop.past = true := by rw [hpc]; rfl
    split at hs <;> cases hs <;>
      exact ⟨h.noStart, h.running, fun _ => h.flag (.inr hpast), fun _ => h.settled hpast⟩
  · rename_i pid hpc
    cases hs
    have hpast : s.stop.past = true := by rw [hpc]; rfl
    have hd := h.destroyProcess pid
    exact ⟨hd.noStart, hd.running, fun _ => h.flag (.inr hpast), fun _ => hd.settled hpast⟩
  · rename_i hpc
    cases hs
    have hpast : s.stop.past = true := by rw [hpc]; rfl
    exact ⟨h.noStart, h.running, fun _ => h.flag (.inr hpast), fun _ => h.settled hpast⟩
  · cases hs

theorem inv_step {e : Event} (h : Inv s) (hc : StopsSettled s e) (hs : step s e = some s') : Inv s' := by
  cases e with
  | start flag => exact inv_startStep h hs
  | stop readable => exact inv_stopStep h hc hs
  | exit p =>
    cases hs
    exact h.destroyProcess (some p)
  | writePid p =>
    simp only [step] at hs
    split at hs
    · cases hs
      exact ⟨h.noStart, h.running, h.flag, h.settled⟩
    · cases hs

end Steps

/-- In every run where `stop` finds no process under way, it is final. -/
theorem stop_final {s : State} (h : StepSystem.Reachable system StopsSettled s) : s.StopFinal := by
  refine Inv.stopFinal (h.inv (fun s hs => ?_) fun s e t => inv_step)
  rw [show s = State.initial from hs]
  exact inv_initial

/-- A run in custom-ping mode with one reconnect, stopped while it waits. -/
def settledEvents : List Event :=
  [.start true, .start true, .start true, .start true, .start true, .start true, .start true, .start true, .start true,
   .writePid 1, .stop true, .stop true, .stop true, .stop true, .stop true, .stop true]

theorem stop_final_waiting :
    ∃ s, StepSystem.Reachable system StopsSettled s ∧ s.StopFinal ∧ s.stop = .returned ∧ s.started = 2 := by
  obtain ⟨s, hs, hend⟩ := StepSystem.exists_reachable (S := system) (C := StopsSettled)
    (p := fun s => s.stop == .returned && s.started == 2) (s := State.initial) rfl settledEvents (by decide)
  obtain ⟨hstop, hstarted⟩ := Bool.and_eq_true_iff.mp hend
  exact ⟨s, hs, stop_final hs, by simpa using hstop, by simpa using hstarted⟩

/-- `stop` runs to its end after the check for a reconnect: the next process starts all the same. -/
theorem started_after_stop : ¬∀ s, StepSystem.Reachable system StepSystem.Any s → s.StopFinal := by
  intro h
  obtain ⟨s, hs, hend⟩ := StepSystem.exists_reachable (S := system) (C := StepSystem.Any)
    (p := fun s => s.startedAfterStop) (s := State.initial) rfl
    [.start true, .start true, .start true, .start true, .start true, .start true, .stop true, .stop true, .stop true,
     .stop true, .start true, .start true] (by decide)
  rw [(h s hs).noStart] at hend
  cases hend

end HTTProcessManager
end NicVpn
