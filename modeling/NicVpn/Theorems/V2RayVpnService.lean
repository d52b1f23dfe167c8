import NicVpn.V2RayVpnService

/-! There is one tun2socks process at most, and none after a stop, in every run where a start waits for the threads
    of the start before it and a stop does not come while a process is being started. -/

namespace NicVpn
namespace V2RayVpnService

/-- No thread can take a step, and no process is about to end: what is left are watchers that wait. -/
structure State.Quiet (s : State) : Prop where
  threads : ∀ pc ∈ s.threads, ∃ pid ∈ s.alive, pc = .waitFor pid
  stops : s.stops = 0
  alive : ∀ pid ∈ s.alive, pid ∉ s.destroyed

/-- At most one process is alive, and none once a stop is done. -/
structure State.OneProcess (s : State) : Prop where
  one : s.alive.length ≤ 1
  none : s.last = some .stop → s.Quiet → s.alive = []

/-- The thread starts a process, or has started one that is not in the field yet. -/
def Pc.Starts : Pc → Prop
  | .startProcess | .assign _ => True
  | .startWatcher | .readField | .waitFor _ | .testFlag => False

instance : (pc : Pc) → Decidable pc.Starts
  | .startProcess | .assign _ => isTrue trivial
  | .startWatcher | .readField | .waitFor _ | .testFlag => isFalse id

/-- A start comes when no watcher and no start is under way, a stop when no thread starts a process. -/
def Orderly (s : State) : Event → Prop
  | .setup => s.threads = []
  | .stopV2Ray => ∀ pc ∈ s.threads, ¬pc.Starts
  | _ => True

/-! ### The invariant -/

/-- What the field and the processes are while the only thread is at `pc`. -/
def State.At (s : State) : Pc → Prop
  | .startProcess | .testFlag => s.alive = []
  | .assign pid => s.alive.Sublist [pid]
  | .startWatcher | .readField => ∃ pid, s.process = some pid ∧ s.alive.Sublist [pid]
  | .waitFor pid => s.process = some pid ∧ s.alive.Sublist [pid]

/-- After a stop nothing is started, and what is alive was destroyed or will be. -/
structure State.Stopped (s : State) : Prop where
  isRunning : s.isRunning = false
  threads : ∀ pc ∈ s.threads, ¬pc.Starts
  alive : 0 < s.stops ∨ ∀ pid ∈ s.alive, pid ∈ s.destroyed

structure Inv (s : State) : Prop where
  threads : s.threads = [] ∧ s.alive = [] ∨ ∃ pc, s.threads = [pc] ∧ s.At pc
  stopped : s.last = some .stop → s.Stopped

theorem inv_initial : Inv State.initial where
  threads := .inl ⟨rfl, rfl⟩
  stopped := nofun

theorem State.At.alive_length {s : State} {pc : Pc} (h : s.At pc) : s.alive.length ≤ 1 := by
  cases pc with
  | startProcess | testFlag =>
    rw [show s.alive = [] from h]
    exact Nat.zero_le 1
  | assign pid => exact List.Sublist.length_le h
  | startWatcher | readField =>
    obtain ⟨pid, -, hsub⟩ := h
    exact hsub.length_le
  | waitFor pid => exact h.2.length_le

theorem Inv.oneProcess {s : State} (h : Inv s) : s.OneProcess where
  one := by
    rcases h.threads with ⟨-, hnil⟩ | ⟨pc, -, hat⟩
    · rw [hnil]
      exact Nat.zero_le 1
    · exact hat.alive_length
  none hlast quiet := by
    refine List.eq_nil_iff_forall_not_mem.mpr fun pid hpid => ?_
    rcases (h.stopped hlast).alive with hstops | hdestroyed
    · rw [quiet.stops] at hstops
      exact absurd hstops (Nat.lt_irrefl 0)
    · exact quiet.alive pid hpid (hdestroyed pid hpid)

/-! ### Steps -/

section Steps
variable {s s' : State}

theorem inv_setup (h : Inv s) (hc : Orderly s .setup) : Inv s.setup := by
  have hthreads : s.threads = [] := hc
  refine ⟨.inr ⟨.startProcess, ?_, ?_⟩, nofun⟩
  · rw [State.setup, hthreads]
    rfl
  · rcases h.threads with ⟨-, hnil⟩ | ⟨pc, hpc, -⟩
    · exact hnil
    · rw [hthreads] at hpc
      cases hpc

theorem State.At.frame {t : State} {pc : Pc} (h : s.At pc) (hprocess : t.process = s.process)
    (halive : t.alive.Sublist s.alive) : t.At pc := by
  cases pc with
  | startProcess | testFlag =>
    rw [show s.alive = [] from h] at halive
    exact List.sublist_nil.mp halive
  | assign pid => exact halive.trans h
  | startWatcher | readField =>
    obtain ⟨pid, hpid, hsub⟩ := h
    exact ⟨pid, hprocess.trans hpid, halive.trans hsub⟩
  | waitFor pid => exact ⟨hprocess.trans h.1, halive.trans h.2⟩

/-- Steps of no thread: the field stays, and processes only end. -/
theorem Inv.threads_frame {t : State} (h : Inv s) (hthreads : t.threads = s.threads)
    (hprocess : t.process = s.process) (halive : t.alive.Sublist s.alive) :
    t.threads = [] ∧ t.alive = [] ∨ ∃ pc, t.threads = [pc] ∧ t.At pc := by
  rcases h.threads with ⟨hnil, hdead⟩ | ⟨pc, hpc, hat⟩
  · rw [hdead] at halive
    exact .inl ⟨hthreads.trans hnil, List.sublist_nil.mp halive⟩
  · exact .inr ⟨pc, hthreads.trans hpc, hat.frame hprocess halive⟩

theorem inv_stopV2Ray (h : Inv s) (hc : Orderly s .stopV2Ray) : Inv s.stopV2Ray :=
  ⟨h.threads_frame rfl rfl (List.Sublist.refl _), fun _ => ⟨rfl, hc, .inl (Nat.succ_pos _)⟩⟩

/-- Unless a process is being started, the field names the only one that may be alive. -/
theorem State.At.mem_process {pc : Pc} (h : s.At pc) (hpc : ¬pc.Starts) {pid : Nat} (hpid : pid ∈ s.alive) :
    s.process = some pid := by
  cases pc with
  | startProcess | assign _ => exact absurd trivial hpc
  | testFlag =>
    rw [show s.alive = [] from h] at hpid
    cases hpid
  | startWatcher | readField =>
    obtain ⟨p, hp, hsub⟩ := h
    rw [List.mem_singleton.mp (hsub.subset hpid), hp]
  | waitFor p => rw [List.mem_singleton.mp (h.2.subset hpid), h.1]

theorem inv_destroy (h : Inv s) (hs : s.destroy = some s') : Inv s' := by
  obtain ⟨-, hs⟩ := Option.ite_none_right_eq_some.mp hs
  obtain rfl := Option.some.inj hs
  refine ⟨h.threads_frame rfl rfl (List.Sublist.refl _), fun hlast => ?_⟩
  have hstopped := h.stopped hlast
  refine ⟨hstopped.isRunning, hstopped.threads, .inr fun pid hpid => List.mem_append_left _ ?_⟩
  rcases h.threads with ⟨-, hnil⟩ | ⟨pc, hpc, hat⟩
  · replace hpid : pid ∈ s.alive := hpid
    rw [hnil] at hpid
    cases hpid
  · have hstarts := hstopped.threads pc (by rw [hpc]; exact List.mem_singleton.mpr rfl)
    rw [hat.mem_process hstarts hpid]
    exact List.mem_singleton.mpr rfl

theorem inv_exit (h : Inv s) {pid : Nat} (hs : s.exit pid = some s') : Inv s' := by
  obtain ⟨-, hs⟩ := Option.ite_none_right_eq_some.mp hs
  obtain rfl := Option.some.inj hs
  refine ⟨h.threads_frame rfl rfl List.erase_sublist, fun hlast => ?_⟩
  have hstopped := h.stopped hlast
  refine ⟨hstopped.isRunning, hstopped.threads, ?_⟩
  rcases hstopped.alive with hstops | hdestroyed
  · exact .inl hstops
  · exact .inr fun p hp => hdestroyed p (List.erase_subset hp)

/-- A thread that takes a step is the only one. -/
theorem Inv.only_thread (h : Inv s) {i : Nat} {pc : Pc} (hi : s.threads[i]? = some pc) :
    i = 0 ∧ s.threads = [pc] ∧ s.At pc := by
  rcases h.threads with ⟨hnil, -⟩ | ⟨only, honly, hat⟩
  · rw [hnil] at hi
    cases hi
  · rw [honly] at hi
    obtain ⟨hlt, hpc⟩ := List.getElem?_eq_some_iff.mp hi
    obtain rfl := Nat.lt_one_iff.mp hlt
    obtain rfl : only = pc := hpc
    exact ⟨rfl, honly, hat⟩

/-- The only thread goes on to `pc`, which starts nothing after a stop. -/
theorem Inv.goto (h : Inv s) {old pc : Pc} (hthreads : s.threads = [old]) (hat : s.At pc)
    (hpc : s.last = some .stop → ¬pc.Starts) : Inv (s.goto 0 pc) := by
  have hnext : (s.goto 0 pc).threads = [pc] := by
    rw [State.goto, hthreads]
    rfl
  refine ⟨.inr ⟨pc, hnext, hat.frame rfl (List.Sublist.refl _)⟩, fun hlast => ?_⟩
  have hstopped := h.stopped hlast
  refine ⟨hstopped.isRunning, fun c hc => ?_, hstopped.alive⟩
  rw [hnext] at hc
  rw [List.mem_singleton.mp hc]
  exact hpc hlast

theorem Inv.ends (h : Inv s) {old : Pc} (hthreads : s.threads = [old]) (hdead : s.alive = []) : Inv (s.ends 0) := by
  have hnext : (s.ends 0).threads = [] := by
    rw [State.ends, hthreads]
    rfl
  refine ⟨.inl ⟨hnext, hdead⟩, fun hlast => ?_⟩
  have hstopped := h.stopped hlast
  refine ⟨hstopped.isRunning, fun c hc => ?_, hstopped.alive⟩
  rw [hnext] at hc
  cases hc

/-- After a stop the only thread starts nothing. -/
theorem Inv.last_ne_stop (h : Inv s) {pc : Pc} (hthreads : s.threads = [pc]) (hpc : pc.Starts) :
    s.last ≠ some .stop := fun hlast =>
  (h.stopped hlast).threads pc (by rw [hthreads]; exact List.mem_singleton.mpr rfl) hpc

/-- The thread that starts the process: nothing was alive before. -/
theorem inv_startProcess (h : Inv s) (hthreads : s.threads = [.startProcess]) (hdead : s.alive = []) :
    Inv { s.goto 0 (.assign s.fresh) with fresh := s.fresh + 1, alive := s.fresh :: s.alive } := by
  have hlast := h.last_ne_stop hthreads trivial
  refine ⟨.inr ⟨.assign s.fresh, ?_, ?_⟩, fun h => absurd h hlast⟩
  · simp only [State.goto, hthreads, List.set_cons_zero]
  · show (s.fresh :: s.alive).Sublist [s.fresh]
    exact (congrArg (List.cons s.fresh) hdead) ▸ List.Sublist.refl _

theorem inv_assign (h : Inv s) {pid : Nat} (hthreads : s.threads = [.assign pid]) (hat : s.At (.assign pid)) :
    Inv { s.goto 0 .startWatcher with process := some pid } := by
  have hlast := h.last_ne_stop hthreads trivial
  refine ⟨.inr ⟨.startWatcher, ?_, pid, rfl, hat⟩, fun h => absurd h hlast⟩
  simp only [State.goto, hthreads, List.set_cons_zero]

/-- The process has ended, so that the watcher waits no longer. -/
theorem State.At.dead {pid : Nat} (h : s.At (.waitFor pid)) (hpid : pid ∉ s.alive) : s.alive = [] := by
  refine List.eq_nil_iff_forall_not_mem.mpr fun p hp => hpid ?_
  rw [← List.mem_singleton.mp (h.2.subset hp)]
  exact hp

theorem inv_run (h : Inv s) {i : Nat} {throws : Bool} (hs : s.run i throws = some s') : Inv s' := by
  cases hi : s.threads[i]? with
  | none =>
    simp only [State.run, hi] at hs
    cases hs
  | some pc =>
    obtain ⟨rfl, hthreads, hat⟩ := h.only_thread hi
    simp only [State.run, hi] at hs
    cases pc with
    | startProcess =>
      cases throws with
      | true =>
        obtain rfl := Option.some.inj hs
        exact h.ends hthreads hat
      | false =>
        obtain rfl := Option.some.inj hs
        exact inv_startProcess h hthreads hat
    | assign pid =>
      obtain rfl := Option.some.inj hs
      exact inv_assign h hthreads hat
    | startWatcher =>
      obtain rfl := Option.some.inj hs
      exact h.goto hthreads hat fun _ => id
    | readField =>
      obtain ⟨pid, hpid, hsub⟩ := hat
      simp only [hpid] at hs
      obtain rfl := Option.some.inj hs
      exact h.goto hthreads ⟨hpid, hsub⟩ fun _ => id
    | waitFor pid =>
      obtain ⟨hpid, hs⟩ := Option.ite_none_left_eq_some.mp hs
      obtain rfl := Option.some.inj hs
      exact h.goto hthreads (State.At.dead hat hpid) fun _ => id
    | testFlag =>
      obtain rfl := Option.some.inj hs
      cases running : s.isRunning with
      | true =>
        refine h.goto hthreads hat fun hlast => ?_
        rw [(h.stopped hlast).isRunning] at running
        cases running
      | false => exact h.ends hthreads hat

theorem inv_step {e : Event} (h : Inv s) (hc : Orderly s e) (hs : step s e = some s') : Inv s' := by
  cases e with
  | setup =>
    obtain rfl := Option.some.inj hs
    exact inv_setup h hc
  | stopV2Ray =>
    obtain rfl := Option.some.inj hs
    exact inv_stopV2Ray h hc
  | destroy => exact inv_destroy h hs
  | exit pid => exact inv_exit h hs
  | run i throws => exact inv_run h hs

end Steps

/-! ### Runs -/

/-- In every orderly run at most one process is alive at any time, and none once a stop is done. -/
theorem one_process {s : State} (h : StepSystem.Reachable system Orderly s) : s.OneProcess := by
  have hinv : Inv s := h.inv (fun s hs => hs ▸ inv_initial) fun s e t hinv hc hs => inv_step hinv hc hs
  exact hinv.oneProcess

/-! ### Three runs -/

instance (s : State) : (e : Event) → Decidable (Orderly s e)
  | .setup => inferInstanceAs (Decidable (_ = _))
  | .stopV2Ray => inferInstanceAs (Decidable (∀ pc ∈ s.threads, _))
  | .destroy | .exit _ | .run _ _ => isTrue trivial

/-- The process ends by itself and is started again by its watcher, and the stop destroys the second one. -/
theorem one_process_restarted :
    ∃ s, StepSystem.Reachable system Orderly s ∧ s.last = some .stop ∧ s.fresh = 2 ∧ s.Quiet ∧ s.alive = [] := by
  have hrun : (system.run Orderly .initial [.setup, .run 0 false, .run 0 false, .run 0 false, .run 0 false, .exit 0,
      .run 0 false, .run 0 false, .run 0 false, .run 0 false, .run 0 false, .run 0 false, .stopV2Ray, .destroy,
      .exit 1, .run 0 false, .run 0 false]).any
      (fun s => decide (s.last = some .stop ∧ s.fresh = 2 ∧ s.threads = [] ∧ s.stops = 0 ∧
        ∀ pid ∈ s.alive, pid ∉ s.destroyed)) = true := by decide
  obtain ⟨s, hreach, hend⟩ := StepSystem.exists_reachable rfl _ hrun
  obtain ⟨hlast, hfresh, hthreads, hstops, halive⟩ := of_decide_eq_true hend
  have hquiet : s.Quiet := by
    refine ⟨fun pc hpc => ?_, hstops, halive⟩
    rw [hthreads] at hpc
    cases hpc
  exact ⟨s, hreach, hlast, hfresh, hquiet, (one_process hreach).none hlast hquiet⟩

/-- A start after a stop sets the flag before the old watcher tests it, and both start a process. A stop while the
    watcher starts the process again destroys the old process, and the new one stays. -/
theorem second_process :
    (∃ s, StepSystem.Reachable system StepSystem.Any s ∧ s.alive.length = 2 ∧ ¬s.OneProcess) ∧
      ∃ s, StepSystem.Reachable system StepSystem.Any s ∧ s.last = some .stop ∧ s.Quiet ∧ s.alive = [1] ∧
        ¬s.OneProcess := by
  constructor
  · have hrun : (system.run StepSystem.Any .initial [.setup, .run 0 false, .run 0 false, .run 0 false, .run 0 false,
        .stopV2Ray, .destroy, .exit 0, .setup, .run 1 false, .run 0 false, .run 0 false, .run 0 false]).any
        (fun s => decide (s.alive.length = 2)) = true := by decide
    obtain ⟨s, hreach, hend⟩ := StepSystem.exists_reachable rfl _ hrun
    have htwo := of_decide_eq_true hend
    refine ⟨s, hreach, htwo, fun hone => ?_⟩
    have hle := hone.one
    rw [htwo] at hle
    exact absurd hle (by decide)
  · have hrun : (system.run StepSystem.Any .initial [.setup, .run 0 false, .run 0 false, .run 0 false, .run 0 false,
        .exit 0, .run 0 false, .run 0 false, .stopV2Ray, .destroy, .run 0 false, .run 0 false, .run 0 false,
        .run 0 false]).any
        (fun s => decide (s.last = some .stop ∧ s.threads = [.waitFor 1] ∧ s.stops = 0 ∧ s.destroyed = [0] ∧
          s.alive = [1])) = true := by decide
    obtain ⟨s, hreach, hend⟩ := StepSystem.exists_reachable rfl _ hrun
    obtain ⟨hlast, hthreads, hstops, hdestroyed, halive⟩ := of_decide_eq_true hend
    have hquiet : s.Quiet := by
      refine ⟨fun pc hpc => ⟨1, ?_, ?_⟩, hstops, ?_⟩
      · rw [halive]
        exact List.mem_singleton.mpr rfl
      · rw [hthreads] at hpc
        exact List.mem_singleton.mp hpc
      · rw [halive, hdestroyed]
        decide
    refine ⟨s, hreach, hlast, hquiet, halive, fun hone => ?_⟩
    rw [hone.none hlast hquiet] at halive
    cases halive

end V2RayVpnService
end NicVpn
