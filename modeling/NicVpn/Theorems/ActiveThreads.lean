import NicVpn.ActiveThreads

/-! The list `active` and the answers of `stopOpenVPN` are right in every run where no `run` leaves its `try` block
    past the removal, and where the last thread that is told decides nothing that an earlier one decided. -/

namespace NicVpn
namespace OpenVpnManagementThread
namespace Active

/-- `run` has started and not ended. -/
def Pc.Running : Pc → Prop
  | .accept | .read | .remove => True
  | .notStarted | .ended => False

/-- The list has exactly the running threads, and every answer says whether the line was written. -/
structure State.Exact (s : State) : Prop where
  nodup : s.active.Nodup
  mem_active : ∀ i, i ∈ s.active ↔ (s.pc i).Running
  answers : ∀ a ∈ s.answers, a.sendCMD = true ↔ a.written = true

/-- The present thread, if it is the last one of the loop. -/
def Call.last? (call : Call) : Option Nat :=
  match call.left with
  | [i] => some i
  | _ => none

/-- No thread ends with the end of its stream or with an exception without a message, and a line that was written
    to some thread, and returned from, is one that was written to the last thread. -/
def Orderly (s : State) : Event → Prop
  | .eof _ => False
  | .ioException _ message => message ≠ none
  | .tell write => ∀ call ∈ s.stop, ∀ i ∈ call.last?,
      call.written = true ∨ (managmentCommand (s.mSocket i) write).2 = true →
        (managmentCommand (s.mSocket i) write).1 = true
  | _ => True

/-! ### The invariant -/

/-- The present thread is the last one, and was told. -/
def Call.Decided (call : Call) : Prop := call.left = [] ∨ ∃ i, call.left = [i] ∧ call.told = true

structure Inv (s : State) : Prop extends s.Exact where
  decided : ∀ call, s.stop = some call → call.Decided → (call.sendCMD = true ↔ call.written = true)

theorem inv_initial : Inv State.initial where
  nodup := List.nodup_nil
  mem_active i := by simp [State.initial, Pc.Running]
  answers := nofun
  decided := nofun

theorem written_of_sent {mSocket : Socket} {write : Write} (h : (managmentCommand mSocket write).1 = true) :
    (managmentCommand mSocket write).2 = true := by
  cases mSocket <;> cases write <;> first | rfl | cases h

section Steps
variable {s s' : State} {i : Nat}

/-- A thread that goes on and stays what it is keeps the invariant. -/
theorem Inv.goto (h : Inv s) {pc : Pc} (hpc : pc.Running ↔ (s.pc i).Running) (mSocket : Nat → Socket) :
    Inv { s.goto i pc with mSocket := mSocket } := by
  refine ⟨⟨h.nodup, fun j => (h.mem_active j).trans ?_, h.answers⟩, h.decided⟩
  by_cases hj : j = i
  · subst hj
    simp only [State.goto, Function.update_self, hpc]
  · simp only [State.goto, Function.update_of_ne hj]

theorem inv_start (h : Inv s) (hs : s.start i = some s') : Inv s' := by
  obtain ⟨⟨hpc, hstop⟩, hs⟩ := Option.ite_none_right_eq_some.mp hs
  obtain rfl := Option.some.inj hs
  have hnot : i ∉ s.active := by
    rw [h.mem_active, hpc]
    exact id
  refine ⟨⟨?_, fun j => ?_, h.answers⟩, fun call hcall => ?_⟩
  · refine List.nodup_append.mpr ⟨h.nodup, List.nodup_cons.mpr ⟨List.not_mem_nil, List.nodup_nil⟩, ?_⟩
    rintro a ha b hb rfl
    exact hnot (List.mem_singleton.mp hb ▸ ha)
  · by_cases hj : j = i
    · subst hj
      simp [State.goto, Pc.Running]
    · simp [State.goto, hj, h.mem_active j]
  · exact absurd (hstop.symm.trans hcall) (Option.some_ne_none _).symm

theorem inv_remove (h : Inv s) (hs : s.remove i = some s') : Inv s' := by
  obtain ⟨⟨hpc, hstop⟩, hs⟩ := Option.ite_none_right_eq_some.mp hs
  obtain rfl := Option.some.inj hs
  refine ⟨⟨h.nodup.erase i, fun j => ?_, h.answers⟩, fun call hcall => ?_⟩
  · rw [h.nodup.mem_erase_iff, h.mem_active j]
    by_cases hj : j = i
    · subst hj
      simp [State.goto, Pc.Running]
    · simp [State.goto, hj]
  · exact absurd (hstop.symm.trans hcall) (Option.some_ne_none _).symm

theorem inv_tell (h : Inv s) {write : Write} (hc : Orderly s (.tell write)) (hs : s.tell write = some s') :
    Inv s' := by
  unfold State.tell at hs
  split at hs
  · rename_i i left sendCMD written hstop
    obtain rfl := Option.some.inj hs
    refine ⟨⟨h.nodup, h.mem_active, h.answers⟩, fun call hcall hdecided => ?_⟩
    obtain rfl := Option.some.inj hcall
    have hlast : i :: left = [i] := by
      rcases hdecided with hnil | ⟨j, hj, -⟩
      · cases hnil
      · rw [(List.cons.inj hj).2]
    simp only [Bool.or_eq_true]
    refine ⟨fun hsent => .inr (written_of_sent hsent), hc _ hstop i ?_⟩
    rw [Call.last?, hlast]
    rfl
  · cases hs

theorem inv_closeSocket (h : Inv s) {throws : Bool} (hs : s.closeSocket throws = some s') : Inv s' := by
  unfold State.closeSocket at hs
  split at hs
  · rename_i i left sendCMD written hstop
    obtain rfl := Option.some.inj hs
    refine ⟨⟨h.nodup, h.mem_active, h.answers⟩, fun call hcall hdecided => ?_⟩
    obtain rfl := Option.some.inj hcall
    rcases hdecided with hnil | ⟨j, -, htold⟩
    · have hbefore := h.decided _ hstop
      exact hbefore (.inr ⟨i, congrArg (i :: ·) hnil, rfl⟩)
    · cases htold
  · cases hs

theorem inv_stopReturns (h : Inv s) (hs : s.stopReturns = some s') : Inv s' := by
  unfold State.stopReturns at hs
  split at hs
  · rename_i told sendCMD written hstop
    obtain rfl := Option.some.inj hs
    refine ⟨⟨h.nodup, h.mem_active, ?_⟩, nofun⟩
    exact List.forall_mem_cons.mpr ⟨h.decided _ hstop (.inl rfl), h.answers⟩
  · cases hs

theorem inv_step {e : Event} (h : Inv s) (hc : Orderly s e) (hs : step s e = some s') : Inv s' := by
  cases e with
  | start i => exact inv_start h hs
  | accept i =>
    obtain ⟨hpc, hs⟩ := Option.ite_none_right_eq_some.mp hs
    obtain rfl := Option.some.inj hs
    exact h.goto (by rw [hpc]; rfl) _
  | eof i => exact hc.elim
  | ioException i message =>
    obtain ⟨hpc, hs⟩ := Option.ite_none_right_eq_some.mp hs
    obtain rfl := Option.some.inj hs
    rw [if_pos (Option.isSome_iff_ne_none.mpr hc)]
    refine h.goto ?_ s.mSocket
    rcases hpc with hpc | hpc <;> rw [hpc] <;> rfl
  | remove i => exact inv_remove h hs
  | stopOpenVPN =>
    obtain ⟨hstop, hs⟩ := Option.ite_none_right_eq_some.mp hs
    obtain rfl := Option.some.inj hs
    refine ⟨⟨h.nodup, h.mem_active, h.answers⟩, fun call hcall _ => ?_⟩
    obtain rfl := Option.some.inj hcall
    exact Iff.rfl
  | tell write => exact inv_tell h hc hs
  | closeSocket throws => exact inv_closeSocket h hs
  | stopReturns => exact inv_stopReturns h hs

end Steps

/-! ### Runs -/

/-- In every orderly run, `active` has exactly the threads whose `run` has started and not ended, and each call of
    `stopOpenVPN` has returned whether its line was written. -/
theorem registry_exact {s : State} (h : StepSystem.Reachable system Orderly s) : s.Exact := by
  have hinv : Inv s := h.inv (fun s hs => hs ▸ inv_initial) fun s e t hinv hc hs => inv_step hinv hc hs
  exact hinv.toExact

/-! ### Three runs -/

instance (s : State) : (e : Event) → Decidable (Orderly s e)
  | .eof _ => isFalse id
  | .ioException _ message => inferInstanceAs (Decidable (message ≠ none))
  | .tell _ => inferInstanceAs (Decidable (∀ call ∈ s.stop, ∀ i ∈ call.last?, _ → _))
  | .start _ | .accept _ | .remove _ | .stopOpenVPN | .closeSocket _ | .stopReturns => isTrue trivial

/-- The socket of a running thread was closed by `stopOpenVPN`, and the thread takes itself out of the list. -/
theorem registry_exact_stopped :
    ∃ s, StepSystem.Reachable system Orderly s ∧ s.active = [1] ∧ s.answers = [{ sendCMD := true, written := true }] ∧
      s.Exact := by
  have hrun : (system.run Orderly .initial [.start 0, .accept 0, .stopOpenVPN, .tell .sent, .closeSocket false,
      .ioException 0 (some "socket closed".toList), .stopReturns, .start 1, .remove 0]).any
      (fun s => decide (s.active = [1] ∧ s.answers = [{ sendCMD := true, written := true }])) = true := by decide
  obtain ⟨s, hreach, hend⟩ := StepSystem.exists_reachable rfl _ hrun
  obtain ⟨hactive, hanswers⟩ := of_decide_eq_true hend
  exact ⟨s, hreach, hactive, hanswers, registry_exact hreach⟩

/-- A thread whose stream has ended stays in the list; and `stopOpenVPN`, which writes its line to the first thread,
    returns what the second one gave, which has no socket yet. -/
theorem ended_thread_stays :
    (∃ s, StepSystem.Reachable system StepSystem.Any s ∧ s.active = [0] ∧ s.pc 0 = .ended ∧ ¬s.Exact) ∧
      ∃ s, StepSystem.Reachable system StepSystem.Any s ∧ s.answers = [{ sendCMD := false, written := true }] ∧
        ¬s.Exact := by
  constructor
  · have hrun : (system.run StepSystem.Any .initial [.start 0, .accept 0, .eof 0]).any
        (fun s => decide (s.active = [0] ∧ s.pc 0 = .ended)) = true := by decide
    obtain ⟨s, hreach, hend⟩ := StepSystem.exists_reachable rfl _ hrun
    obtain ⟨hactive, hpc⟩ := of_decide_eq_true hend
    refine ⟨s, hreach, hactive, hpc, fun hexact => ?_⟩
    have hrunning := (hexact.mem_active 0).mp (hactive ▸ List.mem_singleton.mpr rfl)
    rw [hpc] at hrunning
    exact hrunning
  · have hrun : (system.run StepSystem.Any .initial [.start 0, .accept 0, .start 1, .stopOpenVPN, .tell .sent,
        .closeSocket false, .tell .fails, .closeSocket false, .stopReturns]).any
        (fun s => decide (s.answers = [{ sendCMD := false, written := true }])) = true := by decide
    obtain ⟨s, hreach, hend⟩ := StepSystem.exists_reachable rfl _ hrun
    have hanswers := of_decide_eq_true hend
    refine ⟨s, hreach, hanswers, fun hexact => ?_⟩
    have hanswer := hexact.answers _ (hanswers ▸ List.mem_singleton.mpr rfl)
    exact absurd (hanswer.mpr rfl) Bool.false_ne_true

end Active
end OpenVpnManagementThread
end NicVpn
