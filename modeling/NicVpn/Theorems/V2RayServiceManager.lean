import NicVpn.V2RayServiceManager

/-! The core follows the last request in every run where a start waits for the stops before it, a stop waits for the
    start before it, and the callbacks of the core stop nothing that was last started. -/

namespace NicVpn
namespace V2RayServiceManager

/-- No call is under way, and no job or callback is pending. -/
structure State.Quiet (s : State) : Prop where
  main : s.main = .idle
  calls : s.calls = []
  jobs : s.jobs = 0
  setups : s.setups = 0
  shutdowns : s.shutdowns = 0

/-- Once everything is done, the core runs if and only if the last request was a start. -/
def State.InOrder (s : State) : Prop := s.Quiet → (s.isRunning = true ↔ s.last = some .start)

/-- The main thread is between the check of `isRunning` and the end of `runLoop`. -/
def Main.Starting (main : Main) : Prop := main = .register ∨ main = .runLoop

instance (main : Main) : Decidable main.Starting := inferInstanceAs (Decidable (_ ∨ _))

theorem Main.not_starting_stop (pc : Stop) : ¬(Main.stop pc).Starting := by
  rintro (h | h) <;> cases h

/-- A start comes when no job is pending and no other thread is in `stopV2rayPoint`, a stop when no start is under
    way; after a start, `setup` finds an interface and `shutdown` is not called. -/
def Orderly (s : State) : Event → Prop
  | .onStartCommand | .msgStateRestart => s.jobs = 0 ∧ s.calls = []
  | .msgStateStop | .onRevoke => ¬s.main.Starting
  | .setup fails => fails = true → s.last ≠ some .start
  | .shutdown => s.last ≠ some .start
  | _ => True

/-! ### The invariant -/

/-- A job is pending, or a call will launch one if the core runs. -/
def State.Stopping (s : State) : Prop :=
  0 < s.jobs ∨ (∃ pc, s.main = .stop pc ∧ pc ≠ .unregister) ∨ ∃ pc ∈ s.calls, pc ≠ .unregister

/-- After a start, nothing stops the core, and the receiver is registered before the core runs. -/
structure State.Started (s : State) : Prop where
  jobs : s.jobs = 0
  calls : s.calls = []
  main : ∀ pc, s.main ≠ .stop pc
  registered : s.main ≠ .register → s.registered = true
  running : s.main = .idle → s.isRunning = true

structure State.Stopped (s : State) : Prop where
  main : ¬s.main.Starting
  stopping : s.isRunning = true → s.Stopping

structure Inv (s : State) : Prop where
  started : s.last = some .start → s.Started
  stopped : s.last ≠ some .start → s.Stopped

theorem inv_initial : Inv State.initial where
  started := nofun
  stopped _ := ⟨by decide, nofun⟩

/-- Where nothing is under way, nothing is about to stop the core. -/
theorem not_stopping {s : State} (hidle : s.main = .idle) (hjobs : s.jobs = 0) (hcalls : s.calls = []) :
    ¬s.Stopping := by
  rintro (hpos | ⟨pc, hmain, -⟩ | ⟨pc, hpc, -⟩)
  · rw [hjobs] at hpos
    exact absurd hpos (Nat.lt_irrefl 0)
  · rw [hidle] at hmain
    cases hmain
  · rw [hcalls] at hpc
    cases hpc

theorem Inv.inOrder {s : State} (h : Inv s) : s.InOrder := by
  intro quiet
  constructor
  · intro running
    refine Decidable.byContradiction fun hlast => ?_
    exact not_stopping quiet.main quiet.jobs quiet.calls ((h.stopped hlast).stopping running)
  · intro hlast
    exact (h.started hlast).running quiet.main

section Steps
variable {s s' : State}

/-- A start that waited finds the core stopped, or running with its receiver. -/
theorem inv_startV2rayPoint (h : Inv s) (hidle : s.main = .idle) (hjobs : s.jobs = 0) (hcalls : s.calls = []) :
    Inv s.startV2rayPoint := by
  refine ⟨fun _ => ?_, fun hlast => absurd rfl hlast⟩
  cases running : s.isRunning with
  | false =>
    have hmain : s.startV2rayPoint.main = .register := by simp [State.startV2rayPoint, running]
    exact ⟨hjobs, hcalls, fun pc => by simp [hmain], fun hne => absurd hmain hne, fun hi => by simp [hmain] at hi⟩
  | true =>
    have hlast : s.last = some .start := by
      refine Decidable.byContradiction fun hlast => ?_
      exact not_stopping hidle hjobs hcalls ((h.stopped hlast).stopping running)
    have hmain : s.startV2rayPoint.main = .idle := by simp [State.startV2rayPoint, running]
    have hregistered := (h.started hlast).registered (by simp [hidle])
    exact ⟨hjobs, hcalls, fun pc => by simp [hmain], fun _ => hregistered, fun _ => running⟩

/-- The core is started only after a start. -/
theorem Inv.last_eq_start (h : Inv s) (hmain : s.main.Starting) : s.last = some .start := by
  refine Decidable.byContradiction fun hlast => ?_
  exact (h.stopped hlast).main hmain

theorem inv_register (h : Inv s) (hs : s.register = some s') : Inv s' := by
  obtain ⟨hmain, hs⟩ := Option.ite_none_right_eq_some.mp hs
  obtain rfl := Option.some.inj hs
  have hlast := h.last_eq_start (.inl hmain)
  have hstarted := h.started hlast
  exact ⟨fun _ => ⟨hstarted.jobs, hstarted.calls, nofun, fun _ => rfl, nofun⟩, fun hne => absurd hlast hne⟩

theorem inv_runLoop (h : Inv s) (hs : s.runLoop = some s') : Inv s' := by
  obtain ⟨hmain, hs⟩ := Option.ite_none_right_eq_some.mp hs
  obtain rfl := Option.some.inj hs
  have hlast := h.last_eq_start (.inr hmain)
  have hstarted := h.started hlast
  have hregistered := hstarted.registered (by simp [hmain])
  exact ⟨fun _ => ⟨hstarted.jobs, hstarted.calls, nofun, fun _ => hregistered, fun _ => rfl⟩,
    fun hne => absurd hlast hne⟩

theorem inv_msgStateStop (h : Inv s) (hc : Orderly s .msgStateStop) (hs : s.msgStateStop = some s') : Inv s' := by
  unfold State.msgStateStop at hs
  split at hs
  · obtain ⟨hmain, hs⟩ := Option.ite_none_right_eq_some.mp hs
    obtain rfl := Option.some.inj hs
    exact ⟨nofun, fun _ => ⟨Main.not_starting_stop _, fun _ => .inr (.inl ⟨.check, rfl, by decide⟩)⟩⟩
  · -- Nobody hears the message, and the core does not run after a start.
    rename_i hregistered
    obtain rfl := Option.some.inj hs
    refine ⟨nofun, fun _ => ⟨hc, fun running => ?_⟩⟩
    have hlast : s.last ≠ some .start := fun hlast =>
      hregistered ((h.started hlast).registered fun hmain => hc (.inl hmain))
    exact (h.stopped hlast).stopping running

/-- One more call on another thread, after a stop. -/
theorem inv_call (hmain : ¬s.main.Starting) (hlast : s.last ≠ some .start) (hcall : .check ∈ s.calls) : Inv s :=
  ⟨fun h => absurd h hlast, fun _ => ⟨hmain, fun _ => .inr (.inr ⟨.check, hcall, by decide⟩)⟩⟩

/-- Steps that only count callbacks. -/
theorem Inv.callbacks (h : Inv s) (setups shutdowns : Nat) : Inv { s with setups := setups, shutdowns := shutdowns } :=
  ⟨fun hlast => ⟨(h.started hlast).jobs, (h.started hlast).calls, (h.started hlast).main, (h.started hlast).registered,
    (h.started hlast).running⟩, fun hlast => ⟨(h.stopped hlast).main, (h.stopped hlast).stopping⟩⟩

theorem inv_setup (h : Inv s) {fails : Bool} (hc : Orderly s (.setup fails)) (hs : s.setup fails = some s') :
    Inv s' := by
  obtain ⟨-, hs⟩ := Option.ite_none_right_eq_some.mp hs
  obtain rfl := Option.some.inj hs
  cases fails with
  | false => exact h.callbacks _ _
  | true =>
    have hlast := hc rfl
    exact inv_call (h.stopped hlast).main hlast (List.mem_append_right _ (List.mem_singleton.mpr rfl))

theorem inv_shutdown (h : Inv s) (hc : Orderly s .shutdown) (hs : s.shutdown = some s') : Inv s' := by
  obtain ⟨-, hs⟩ := Option.ite_none_right_eq_some.mp hs
  obtain rfl := Option.some.inj hs
  exact inv_call (h.stopped hc).main hc (List.mem_append_right _ (List.mem_singleton.mpr rfl))

theorem inv_stopLoop (h : Inv s) (hs : s.stopLoop = some s') : Inv s' := by
  obtain ⟨hpos, hs⟩ := Option.ite_none_right_eq_some.mp hs
  obtain rfl := Option.some.inj hs
  refine ⟨fun hlast => ?_, fun hlast => ⟨(h.stopped hlast).main, nofun⟩⟩
  rw [(h.started hlast).jobs] at hpos
  exact absurd hpos (Nat.lt_irrefl 0)

/-- The core is about to be stopped until a call has seen it stopped, or has launched a job. -/
theorem inv_mainStep (h : Inv s) (hs : s.mainStep = some s') : Inv s' := by
  unfold State.mainStep at hs
  split at hs
  · rename_i pc hmain
    obtain rfl := Option.some.inj hs
    have hlast : s.last ≠ some .start := fun hlast => (h.started hlast).main pc hmain
    cases pc with
    | check =>
      refine ⟨fun h => absurd h hlast, fun _ => ⟨Main.not_starting_stop _, fun running => ?_⟩⟩
      refine .inr (.inl ⟨.launch, ?_, by decide⟩)
      replace running : s.isRunning = true := running
      simp [State.next, running]
    | launch =>
      exact ⟨fun h => absurd h hlast, fun _ => ⟨Main.not_starting_stop _, fun _ => .inl (Nat.succ_pos _)⟩⟩
    | unregister =>
      refine ⟨fun h => absurd h hlast, fun _ => ⟨show ¬Main.idle.Starting by decide, fun running => ?_⟩⟩
      rcases (h.stopped hlast).stopping running with hjobs | ⟨pc, hpc, hne⟩ | hcalls
      · exact .inl hjobs
      · rw [hmain] at hpc
        exact absurd (Main.stop.inj hpc).symm hne
      · exact .inr (.inr hcalls)
  · cases hs

theorem inv_callStep (h : Inv s) {i : Nat} (hs : s.callStep i = some s') : Inv s' := by
  unfold State.callStep at hs
  split at hs
  · rename_i pc hpc
    obtain rfl := Option.some.inj hs
    have hmem : pc ∈ s.calls := List.mem_of_getElem? hpc
    have hlast : s.last ≠ some .start := fun hlast => by
      rw [(h.started hlast).calls] at hmem
      cases hmem
    have hi : i < s.calls.length := (List.getElem?_eq_some_iff.mp hpc).1
    have hstopped := h.stopped hlast
    cases pc with
    | check =>
      refine ⟨fun h => absurd h hlast, fun _ => ⟨hstopped.main, fun running => ?_⟩⟩
      refine .inr (.inr ⟨.launch, ?_, by decide⟩)
      replace running : s.isRunning = true := running
      simp [State.next, running, List.mem_set hi]
    | launch => exact ⟨fun h => absurd h hlast, fun _ => ⟨hstopped.main, fun _ => .inl (Nat.succ_pos _)⟩⟩
    | unregister =>
      refine ⟨fun h => absurd h hlast, fun _ => ⟨hstopped.main, fun running => ?_⟩⟩
      rcases hstopped.stopping running with hjobs | hmain | ⟨c, hc, hne⟩
      · exact .inl hjobs
      · exact .inr (.inl hmain)
      · refine .inr (.inr ⟨c, ?_, hne⟩)
        obtain ⟨j, hj⟩ := List.mem_iff_getElem?.mp hc
        refine List.mem_eraseIdx_iff_getElem?.mpr ⟨j, fun hij => ?_, hj⟩
        subst hij
        exact hne (Option.some.inj (hj.symm.trans hpc))
  · cases hs

theorem inv_step {e : Event} (h : Inv s) (hc : Orderly s e) (hs : step s e = some s') : Inv s' := by
  cases e with
  | onStartCommand =>
    obtain ⟨hidle, hs⟩ := Option.ite_none_right_eq_some.mp hs
    obtain rfl := Option.some.inj hs
    exact inv_startV2rayPoint h hidle hc.1 hc.2
  | msgStateRestart =>
    obtain ⟨⟨hidle, -⟩, hs⟩ := Option.ite_none_right_eq_some.mp hs
    obtain rfl := Option.some.inj hs
    exact inv_startV2rayPoint h hidle hc.1 hc.2
  | register => exact inv_register h hs
  | runLoop => exact inv_runLoop h hs
  | msgStateStop => exact inv_msgStateStop h hc hs
  | onRevoke =>
    obtain rfl := Option.some.inj hs
    exact inv_call hc nofun (List.mem_append_right _ (List.mem_singleton.mpr rfl))
  | setupDue =>
    obtain rfl := Option.some.inj hs
    exact h.callbacks _ _
  | shutdownDue =>
    obtain rfl := Option.some.inj hs
    exact h.callbacks _ _
  | setup fails => exact inv_setup h hc hs
  | shutdown => exact inv_shutdown h hc hs
  | stopLoop => exact inv_stopLoop h hs
  | mainStep => exact inv_mainStep h hs
  | callStep i => exact inv_callStep h hs

end Steps

/-! ### Runs -/

/-- In every orderly run the core follows the last request. -/
theorem core_follows_request {s : State} (h : StepSystem.Reachable system Orderly s) : s.InOrder := by
  have hinv : Inv s := h.inv (fun s hs => hs ▸ inv_initial) fun s e t hinv hc hs => inv_step hinv hc hs
  exact hinv.inOrder

/-! ### Two runs -/

instance (s : State) : (e : Event) → Decidable (Orderly s e)
  | .onStartCommand | .msgStateRestart => inferInstanceAs (Decidable (_ ∧ _))
  | .msgStateStop | .onRevoke => inferInstanceAs (Decidable (¬_))
  | .setup _ => inferInstanceAs (Decidable (_ → _))
  | .shutdown => inferInstanceAs (Decidable (_ ≠ _))
  | .register | .runLoop | .setupDue | .shutdownDue | .stopLoop | .mainStep | .callStep _ => isTrue trivial

/-- A start, a stop whose job runs, and a second start. -/
theorem core_follows_second_start :
    ∃ s, StepSystem.Reachable system Orderly s ∧ s.Quiet ∧ s.last = some .start ∧ s.isRunning = true := by
  have hrun : (system.run Orderly .initial [.onStartCommand, .register, .setupDue, .runLoop, .setup false,
      .msgStateStop, .mainStep, .mainStep, .mainStep, .shutdownDue, .stopLoop, .shutdown, .callStep 0, .callStep 0,
      .onStartCommand, .register, .runLoop]).any
      (fun s => decide (s.main = .idle ∧ s.calls = [] ∧ s.jobs = 0 ∧ s.setups = 0 ∧ s.shutdowns = 0 ∧
        s.last = some .start)) = true := by decide
  obtain ⟨s, hreach, hend⟩ := StepSystem.exists_reachable rfl _ hrun
  obtain ⟨hmain, hcalls, hjobs, hsetups, hshutdowns, hlast⟩ := of_decide_eq_true hend
  have hquiet : s.Quiet := ⟨hmain, hcalls, hjobs, hsetups, hshutdowns⟩
  exact ⟨s, hreach, hquiet, hlast, (core_follows_request hreach hquiet).mpr hlast⟩

/-- `restartProxy` stops and starts in a row: the start finds the core still running, and then the job stops it. -/
theorem restart_lost :
    ∃ s, StepSystem.Reachable system StepSystem.Any s ∧ s.Quiet ∧ s.last = some .start ∧ s.isRunning = false ∧
      ¬s.InOrder := by
  have hrun : (system.run StepSystem.Any .initial [.onStartCommand, .register, .setupDue, .runLoop, .setup false,
      .msgStateStop, .mainStep, .mainStep, .mainStep, .onStartCommand, .stopLoop]).any
      (fun s => decide (s.main = .idle ∧ s.calls = [] ∧ s.jobs = 0 ∧ s.setups = 0 ∧ s.shutdowns = 0 ∧
        s.last = some .start ∧ s.isRunning = false)) = true := by decide
  obtain ⟨s, hreach, hend⟩ := StepSystem.exists_reachable rfl _ hrun
  obtain ⟨hmain, hcalls, hjobs, hsetups, hshutdowns, hlast, hrunning⟩ := of_decide_eq_true hend
  have hquiet : s.Quiet := ⟨hmain, hcalls, hjobs, hsetups, hshutdowns⟩
  refine ⟨s, hreach, hquiet, hlast, hrunning, fun hinOrder => ?_⟩
  rw [(hinOrder hquiet).mpr hlast] at hrunning
  cases hrunning

end V2RayServiceManager
end NicVpn
