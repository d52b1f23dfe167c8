import NicVpn.Connection
import Mathlib.Tactic.ByContra

/-! What `close` leaves open. `onClosed` runs at most once in every run. All sockets are closed in every
    run that opens a socket only for an empty field and before `close` has passed that field; so neither
    after a `close`, nor for a second piece of the payload. -/

namespace NicVpn
namespace Connection
open State

/-- `onClosed` was called at most once, and once `close` has returned and all threads have ended, every
    socket is closed. -/
def State.ClosedOnce (s : State) : Prop :=
  s.onClosedCalls ≤ 1 ∧
    (s.close = some .done → s.run = .ended → (∀ r ∈ s.relays, r = .ended) →
      s.appClosed = true ∧ ∀ i < s.opened, s.closed i = true)

/-- The order of the statements of `close`. -/
def Closing.rank : Closing → Nat
  | .writeSocket => 0
  | .readSocket => 1
  | .appSocket => 2
  | .onClosed => 3
  | .done => 4

/-- `close` has executed the statement. -/
def State.Passed (s : State) (c : Closing) : Prop := ∃ x ∈ s.close, c.rank < x.rank

/-- A socket is opened for an empty field that `close` has not looked at yet. -/
def OpensInTime (s : State) : Event → Prop
  | .run _ =>
    (s.run = .createWrite → s.writeSocket = none ∧ ∀ x ∈ s.close, x.rank ≤ Closing.writeSocket.rank) ∧
    (s.run = .createRead → s.readSocket = none ∧ ∀ x ∈ s.close, x.rank ≤ Closing.readSocket.rank)
  | _ => True

instance (s : State) : (e : Event) → Decidable (OpensInTime s e)
  | .run _ => inferInstanceAs (Decidable ((_ → _ ∧ ∀ x ∈ s.close, _) ∧ (_ → _ ∧ ∀ x ∈ s.close, _)))
  | .relay _ _ => isTrue trivial
  | .callClose => isTrue trivial
  | .close => isTrue trivial

/-! ### What the threads change -/

/-- The parts of the state that belong to the sockets. -/
def State.sockets (s : State) : Nat × (Nat → Bool) × Bool × Option Nat × Option Nat × Nat :=
  (s.opened, s.closed, s.appClosed, s.writeSocket, s.readSocket, s.onClosedCalls)

/-- A step leaves the sockets alone, and at most calls `close`. -/
def OnlyCalls (s s' : State) : Prop :=
  s'.sockets = s.sockets ∧ (s'.close = s.close ∨ (s.close = none ∧ s'.close = some .writeSocket))

theorem onlyCalls_callClose (s : State) : OnlyCalls s s.callClose := by
  unfold callClose
  split
  · rename_i h
    exact ⟨rfl, .inr ⟨h, rfl⟩⟩
  · exact ⟨rfl, .inl rfl⟩

theorem onlyCalls_relayStep {s s' : State} {i : Nat} {ok : Bool} (h : s.relayStep i ok = some s') : OnlyCalls s s' := by
  have hcall := onlyCalls_callClose s
  unfold relayStep at h
  split at h
  · split at h
    · cases h
      exact ⟨rfl, .inl rfl⟩
    · cases h
      exact hcall
  · split at h
    · cases h
      exact ⟨rfl, .inl rfl⟩
    · cases h
  · dsimp only at h
    split at h
    · cases h
      exact onlyCalls_callClose { s with threadEndCount := s.threadEndCount + 1 }
    · cases h
      exact ⟨rfl, .inl rfl⟩
  · split at h
    · cases h
      exact ⟨rfl, .inl rfl⟩
    · cases h
  · cases h
  · cases h

theorem onlyCalls_or_fails (s : State) (r : RunPc) (ok : Bool) :
    OnlyCalls s (if ok then { s with run := r } else s.runFails) := by
  split
  · exact ⟨rfl, .inl rfl⟩
  · exact onlyCalls_callClose s

theorem onlyCalls_runStep {s s' : State} {ok : Bool} (h : s.runStep ok = some s') (hw : s.run ≠ .createWrite)
    (hr : s.run ≠ .createRead) : OnlyCalls s s' := by
  unfold runStep at h
  split at h
  · exact absurd ‹_› hw
  · cases h
    exact onlyCalls_or_fails s _ ok
  · cases h
    exact onlyCalls_or_fails s _ ok
  · exact absurd ‹_› hr
  · cases h
    exact onlyCalls_or_fails s _ ok
  · cases h
    exact onlyCalls_or_fails s _ ok
  · cases h
    exact onlyCalls_or_fails s _ ok
  · cases h
    exact ⟨rfl, .inl rfl⟩
  · cases h
    exact ⟨rfl, .inl rfl⟩
  · split at h
    · cases h
      exact ⟨rfl, .inl rfl⟩
    · cases h
      exact ⟨rfl, .inl rfl⟩
  · split at h
    · cases h
      exact ⟨rfl, .inl rfl⟩
    · cases h
  · cases h

/-! ### `onClosed` -/

/-- The one call that closes counts `onClosed` with its last statement. -/
def OnClosedCounted (s : State) : Prop := s.onClosedCalls = if s.close = some .done then 1 else 0

theorem onClosedCounted_of_onlyCalls {s s' : State} (h : OnlyCalls s s') (hs : OnClosedCounted s) :
    OnClosedCounted s' := by
  obtain ⟨hsock, hclose⟩ := h
  simp only [State.sockets, Prod.mk.injEq] at hsock
  obtain ⟨-, -, -, -, -, hcount⟩ := hsock
  unfold OnClosedCounted at hs ⊢
  rcases hclose with hclose | ⟨hnone, hsome⟩
  · rw [hcount, hclose, hs]
  · rw [hcount, hs, hnone, hsome]
    rfl

theorem onClosedCounted_step {s s' : State} {e : Event} (hs : OnClosedCounted s) (h : step s e = some s') :
    OnClosedCounted s' := by
  cases e with
  | callClose =>
    cases h
    exact onClosedCounted_of_onlyCalls (onlyCalls_callClose s) hs
  | relay i ok => exact onClosedCounted_of_onlyCalls (onlyCalls_relayStep h) hs
  | run ok =>
    by_cases hw : s.run = .createWrite
    · simp only [step, runStep, hw] at h
      cases h
      exact hs
    · by_cases hr : s.run = .createRead
      · simp only [step, runStep, hr] at h
        cases h
        exact hs
      · exact onClosedCounted_of_onlyCalls (onlyCalls_runStep h hw hr) hs
  | close =>
    obtain ⟨x, hx, h⟩ := Option.bind_eq_some_iff.mp h
    unfold OnClosedCounted at hs ⊢
    rw [hx] at hs
    cases x with
    | writeSocket =>
      cases h
      cases hw : s.writeSocket <;> exact hs
    | readSocket =>
      cases h
      cases hw : s.readSocket <;> exact hs
    | appSocket =>
      cases h
      exact hs
    | onClosed =>
      cases h
      exact congrArg (· + 1) hs
    | done => cases h

/-- `onClosed` is called at most once, whatever the order of steps. -/
theorem onClosed_once {s : State} (h : StepSystem.Reachable system StepSystem.Any s) : s.onClosedCalls ≤ 1 := by
  have hcount : OnClosedCounted s := by
    refine h.inv (I := OnClosedCounted) ?_ fun _ _ _ hi _ hs => onClosedCounted_step hi hs
    rintro s ⟨payloadConfig, rfl⟩
    rfl
  rw [hcount]
  split <;> decide

/-! ### Sockets -/

/-- The fields name every opened socket, and what `close` has passed is closed. -/
structure Inv (s : State) : Prop where
  fields : ∀ i < s.opened, s.writeSocket = some i ∨ s.readSocket = some i
  writeLt : ∀ i ∈ s.writeSocket, i < s.opened
  readLt : ∀ i ∈ s.readSocket, i < s.opened
  write : s.Passed .writeSocket → ∀ i ∈ s.writeSocket, s.closed i = true
  read : s.Passed .readSocket → ∀ i ∈ s.readSocket, s.closed i = true
  app : s.Passed .appSocket → s.appClosed = true

theorem inv_initial (n : Nat) : Inv (State.initial n) := by
  have hnot : ∀ c, ¬(State.initial n).Passed c := by
    rintro c ⟨x, hx, -⟩
    cases hx
  exact ⟨nofun, nofun, nofun, fun h => absurd h (hnot _), fun h => absurd h (hnot _), fun h => absurd h (hnot _)⟩

section Steps
variable {s s' : State}

theorem Inv.of_onlyCalls (h : Inv s) (ho : OnlyCalls s s') : Inv s' := by
  obtain ⟨hsock, hclose⟩ := ho
  simp only [State.sockets, Prod.mk.injEq] at hsock
  obtain ⟨hopen, hcl, happ, hwr, hrd, -⟩ := hsock
  have hpass : ∀ c, s'.Passed c → s.Passed c := by
    rintro c ⟨x, hx, hlt⟩
    rcases hclose with hclose | ⟨-, hsome⟩
    · exact ⟨x, hclose ▸ hx, hlt⟩
    · rw [hsome, Option.mem_some_iff] at hx
      subst hx
      exact absurd hlt (Nat.not_lt_zero _)
  refine ⟨?_, ?_, ?_, ?_, ?_, ?_⟩
  · rw [hopen, hwr, hrd]
    exact h.fields
  · rw [hopen, hwr]
    exact h.writeLt
  · rw [hopen, hrd]
    exact h.readLt
  · intro hp
    rw [hwr, hcl]
    exact h.write (hpass _ hp)
  · intro hp
    rw [hrd, hcl]
    exact h.read (hpass _ hp)
  · intro hp
    rw [happ]
    exact h.app (hpass _ hp)

theorem not_passed {c : Closing} (h : ∀ x ∈ s.close, x.rank ≤ c.rank) : ¬s.Passed c := by
  rintro ⟨x, hx, hlt⟩
  exact absurd (h x hx) (by omega)

theorem inv_createWrite (h : Inv s) (hw : s.writeSocket = none)
    (hc : ∀ x ∈ s.close, x.rank ≤ Closing.writeSocket.rank) :
    Inv { s with
      opened := s.opened + 1, closed := Function.update s.closed s.opened false,
      writeSocket := some s.opened, run := .connectWrite } := by
  refine ⟨?_, ?_, ?_, fun hp => absurd hp (not_passed (s := s) hc), ?_, h.app⟩
  · intro i hi
    by_cases heq : i = s.opened
    · exact .inl (congrArg some heq.symm)
    · rcases h.fields i (by dsimp only at hi; omega) with hf | hf
      · rw [hw] at hf
        cases hf
      · exact .inr hf
  · rintro i hi
    cases hi
    exact Nat.lt_succ_self _
  · intro i hi
    exact Nat.lt_succ_of_lt (h.readLt i hi)
  · intro hp i hi
    have hlt : i ≠ s.opened := Nat.ne_of_lt (h.readLt i hi)
    simp only [Function.update_of_ne hlt]
    exact h.read hp i hi

theorem inv_createRead (h : Inv s) (hr : s.readSocket = none) (hc : ∀ x ∈ s.close, x.rank ≤ Closing.readSocket.rank) :
    Inv { s with
      opened := s.opened + 1, closed := Function.update s.closed s.opened false,
      readSocket := some s.opened, run := .connectRead } := by
  refine ⟨?_, ?_, ?_, ?_, fun hp => absurd hp (not_passed (s := s) hc), h.app⟩
  · intro i hi
    by_cases heq : i = s.opened
    · exact .inr (congrArg some heq.symm)
    · rcases h.fields i (by dsimp only at hi; omega) with hf | hf
      · exact .inl hf
      · rw [hr] at hf
        cases hf
  · intro i hi
    exact Nat.lt_succ_of_lt (h.writeLt i hi)
  · rintro i hi
    cases hi
    exact Nat.lt_succ_self _
  · intro hp i hi
    have hlt : i ≠ s.opened := Nat.ne_of_lt (h.writeLt i hi)
    simp only [Function.update_of_ne hlt]
    exact h.write hp i hi

/-- Closing a socket keeps the others as they are, and closes the one in the field. -/
theorem closeSocket_spec (s : State) (o : Option Nat) : (s.closeSocket o).opened = s.opened ∧
    (s.closeSocket o).writeSocket = s.writeSocket ∧ (s.closeSocket o).readSocket = s.readSocket ∧
    (s.closeSocket o).appClosed = s.appClosed ∧ (∀ i ∈ o, (s.closeSocket o).closed i = true) ∧
    ∀ i, s.closed i = true → (s.closeSocket o).closed i = true := by
  cases o with
  | none => exact ⟨rfl, rfl, rfl, rfl, nofun, fun _ hi => hi⟩
  | some j =>
    refine ⟨rfl, rfl, rfl, rfl, ?_, ?_⟩
    · rintro i hi
      cases hi
      exact Function.update_self _ _ _
    · intro i hi
      simp only [closeSocket, Function.update_apply]
      split
      · rfl
      · exact hi

/-- The statement of `close` that closes the field's socket is the one that passes it. -/
theorem inv_close (h : Inv s) {x : Closing} (hx : s.close = some x) (hs : s.closeStep x = some s') : Inv s' := by
  cases x with
  | writeSocket =>
    cases hs
    obtain ⟨hopen, hwr, hrd, happ, hcl, hmono⟩ := closeSocket_spec s s.writeSocket
    refine ⟨by simpa only [hopen, hwr, hrd] using h.fields, by simpa only [hopen, hwr] using h.writeLt,
      by simpa only [hopen, hrd] using h.readLt, fun _ i hi => ?_, ?_, ?_⟩
    · exact hcl i (hwr ▸ hi)
    · rintro ⟨y, hy, hlt⟩
      cases hy
      exact absurd hlt (by decide)
    · rintro ⟨y, hy, hlt⟩
      cases hy
      exact absurd hlt (by decide)
  | readSocket =>
    cases hs
    obtain ⟨hopen, hwr, hrd, happ, hcl, hmono⟩ := closeSocket_spec s s.readSocket
    have hp : s.Passed .writeSocket := ⟨_, hx, by decide⟩
    refine ⟨by simpa only [hopen, hwr, hrd] using h.fields, by simpa only [hopen, hwr] using h.writeLt,
      by simpa only [hopen, hrd] using h.readLt, fun _ i hi => ?_, fun _ i hi => ?_, ?_⟩
    · exact hmono i (h.write hp i (hwr ▸ hi))
    · exact hcl i (hrd ▸ hi)
    · rintro ⟨y, hy, hlt⟩
      cases hy
      exact absurd hlt (by decide)
  | appSocket =>
    cases hs
    have hw : s.Passed .writeSocket := ⟨_, hx, by decide⟩
    have hr : s.Passed .readSocket := ⟨_, hx, by decide⟩
    exact ⟨h.fields, h.writeLt, h.readLt, fun _ => h.write hw, fun _ => h.read hr, fun _ => rfl⟩
  | onClosed =>
    cases hs
    have hw : s.Passed .writeSocket := ⟨_, hx, by decide⟩
    have hr : s.Passed .readSocket := ⟨_, hx, by decide⟩
    have ha : s.Passed .appSocket := ⟨_, hx, by decide⟩
    exact ⟨h.fields, h.writeLt, h.readLt, fun _ => h.write hw, fun _ => h.read hr, fun _ => h.app ha⟩
  | done => cases hs

theorem inv_step {e : Event} (h : Inv s) (hc : OpensInTime s e) (hs : step s e = some s') : Inv s' := by
  cases e with
  | callClose =>
    cases hs
    exact h.of_onlyCalls (onlyCalls_callClose s)
  | relay i ok => exact h.of_onlyCalls (onlyCalls_relayStep hs)
  | close =>
    obtain ⟨x, hx, hs⟩ := Option.bind_eq_some_iff.mp hs
    exact inv_close h hx hs
  | run ok =>
    by_cases hw : s.run = .createWrite
    · obtain ⟨hnone, hrank⟩ := hc.1 hw
      simp only [step, runStep, hw] at hs
      cases hs
      exact inv_createWrite h hnone hrank
    · by_cases hr : s.run = .createRead
      · obtain ⟨hnone, hrank⟩ := hc.2 hr
        simp only [step, runStep, hr] at hs
        cases hs
        exact inv_createRead h hnone hrank
      · exact h.of_onlyCalls (onlyCalls_runStep hs hw hr)

end Steps

/-! ### Runs -/

/-- In every run that opens its sockets in time, `close` closes all of them and calls `onClosed` once. -/
theorem sockets_closed (s : State) (h : StepSystem.Reachable system OpensInTime s) : s.ClosedOnce := by
  have hinv : Inv s := by
    refine h.inv ?_ fun _ _ _ hi hc hs => inv_step hi hc hs
    rintro s ⟨payloadConfig, rfl⟩
    exact inv_initial _
  refine ⟨onClosed_once (h.mono fun _ _ _ => trivial), fun hdone _ _ => ?_⟩
  have hpass : ∀ c : Closing, c ≠ .done → s.Passed c := by
    intro c hne
    refine ⟨.done, hdone, ?_⟩
    cases c <;> first | decide | exact absurd rfl hne
  refine ⟨hinv.app (hpass _ (by decide)), fun i hi => ?_⟩
  rcases hinv.fields i hi with hf | hf
  · exact hinv.write (hpass _ (by decide)) i hf
  · exact hinv.read (hpass _ (by decide)) i hf

/-- One piece: the tunnel is set up, both relays end, and the second one closes. -/
def inTimeEvents : List Event :=
  [.run true, .run true, .run true, .run true, .run true, .run true, .run true, .run true, .run true, .run true,
   .relay 0 true, .relay 0 true, .relay 1 true, .relay 1 true, .close, .close, .close, .close, .relay 1 true,
   .callClose]

theorem sockets_closed_one_piece : ∃ s : State,
    (s.close == some .done && s.run == .ended && s.relays.all (· == .ended) && s.opened == 2) = true ∧ s.ClosedOnce := by
  obtain ⟨s, hs, hp⟩ := StepSystem.exists_reachable (S := system) (C := OpensInTime)
    (p := fun s => s.close == some .done && s.run == .ended && s.relays.all (· == .ended) && s.opened == 2)
    (s := State.initial 0) ⟨"CONNECT [host_port] HTTP/1.1", congrArg State.initial (by decide)⟩
    inTimeEvents (by decide)
  exact ⟨s, hp, sockets_closed s hs⟩

/-- A `close` before `run` opens its first socket leaves that socket open. -/
theorem socket_left_open : ¬∀ s, StepSystem.Reachable system StepSystem.Any s → s.ClosedOnce := by
  intro h
  obtain ⟨s, hs, hp⟩ := StepSystem.exists_reachable (S := system) (C := StepSystem.Any)
    (p := fun s => s.close == some .done && s.run == .ended && s.relays.isEmpty && s.opened == 1 && !s.closed 0)
    (s := State.initial 0) ⟨"", congrArg State.initial (by decide)⟩
    [.callClose, .close, .close, .close, .close, .run true, .run true, .run false] (by decide)
  simp only [Bool.and_eq_true, beq_iff_eq, List.isEmpty_iff, Bool.not_eq_true'] at hp
  obtain ⟨⟨⟨⟨hdone, hrun⟩, hrel⟩, hopen⟩, hleft⟩ := hp
  have hclosed := ((h s hs).2 hdone hrun (by simp [hrel])).2 0 (by omega)
  exact Bool.noConfusion (hclosed.symm.trans hleft)

end Connection
end NicVpn
