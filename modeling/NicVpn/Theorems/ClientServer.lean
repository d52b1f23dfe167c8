import NicVpn.ClientServer
import Mathlib.Tactic.ByContra

/-! What a shutdown of `ClientServer` reaches. `close` sees the server socket and the connections that the
    fields hold when it looks, so it reaches all of them in every run where it looks for the socket after
    `run` has created it, copies the list while no accepted connection waits to be added, and no removal
    from the list runs beside an addition or a copy. -/

namespace NicVpn
namespace ClientServer
open State

/-- The call of `close` has returned. -/
def CloserPc.Returned (pc : CloserPc) : Prop := pc = .done ∨ pc = .skipped ∨ pc = .failed

/-- Once `run` and every call of `close` have returned, the server socket and all accepted connections
    are closed, and the list is empty when their `onClosed` calls have run. -/
def State.ShutDown (s : State) : Prop :=
  s.run = .returned → (∀ k < s.calls, (s.closers k).Returned) →
    s.serverSocket ≠ some false ∧ (∀ c < s.accepted, s.closed c = true) ∧
      ((∀ c < s.accepted, s.onClosedPending c = false) → s.connections = [])

/-- `run` opens no server socket any more. -/
def RunPc.exiting : RunPc → Bool
  | .finallyClose => true
  | .closing _ => true
  | .returned => true
  | _ => false

/-- The connection that `run` has accepted and not added to the list yet. -/
def RunPc.waiting : RunPc → Option Nat
  | .addConnection c => some c
  | .adding c => some c
  | _ => none

def RunPc.beginsAdd : RunPc → Bool
  | .addConnection _ => true
  | _ => false

/-- `close` looks for the server socket when `run` has created it or will not any more, and copies the
    list when no connection waits to be added. Additions and copies begin while no removal runs, removals
    while neither an addition nor a copy does. -/
def ClosesInTime (s : State) : Event → Prop
  | .run _ => s.run.beginsAdd = true → s.removing = none
  | .closer k =>
    (s.closers k = .closeServerSocket → s.serverSocket ≠ none ∨ s.run.exiting = true) ∧
    (s.closers k = .copyConnections → s.run.waiting = none ∧ s.removing = none)
  | .onClosed _ => s.monitor = false
  | _ => True

instance (s : State) : (e : Event) → Decidable (ClosesInTime s e)
  | .run _ => inferInstanceAs (Decidable (_ → _))
  | .closer _ => inferInstanceAs (Decidable ((_ → _ ∨ _) ∧ (_ → _ ∧ _)))
  | .onClosed _ => inferInstanceAs (Decidable (_ = _))
  | .callClose => isTrue trivial
  | .closerFails _ => isTrue trivial
  | .connectionCloses _ => isTrue trivial
  | .removed => isTrue trivial
  | .raced _ => isTrue trivial

/-! ### Connections -/

/-- Where the accepted connections are. -/
structure Kept (s : State) : Prop where
  /-- An open connection is in the list, or about to be added. -/
  inList : ∀ c < s.accepted, s.closed c = false → c ∈ s.connections ∨ s.run.waiting = some c
  /-- A closed one in the list waits for its `onClosed`. -/
  pending : ∀ c ∈ s.connections, s.closed c = true → s.onClosedPending c = true
  closed : ∀ c, s.onClosedPending c = true → s.closed c = true
  accepted : ∀ c ∈ s.connections, c < s.accepted
  fresh : ∀ c, s.accepted ≤ c → s.closed c = false
  adding : ∀ c, s.run.waiting = some c → c < s.accepted ∧ s.closed c = false ∧ c ∉ s.connections
  nodup : s.connections.Nodup
  removing : ∀ c, s.removing = some c → s.onClosedPending c = true

/-- A call of `close` has closed the server socket it found. -/
def CloserPc.pastSocket : CloserPc → Bool
  | .copyConnections => true
  | .copying => true
  | .closeConnections _ => true
  | .done => true
  | _ => false

/-- A call of `close` copies the list or has copied it. -/
def CloserPc.copies : CloserPc → Bool
  | .copying => true
  | .closeConnections _ => true
  | .done => true
  | _ => false

/-- A call of `close` has copied the list. -/
def CloserPc.pastCopy : CloserPc → Bool
  | .closeConnections _ => true
  | .done => true
  | _ => false

/-- The connections that a call of `close` has still to close. -/
def CloserPc.left : CloserPc → List Nat
  | .closeConnections l => l
  | _ => []

/-- What the calls of `close` have reached. -/
structure Reached (s : State) : Prop where
  created : s.run = .createServerSocket → s.serverSocket = none
  socket : ∀ k, (s.closers k).pastSocket = true →
    s.serverSocket = some true ∨ (s.serverSocket = none ∧ s.run.exiting = true)
  /-- From then on no accepted connection waits. -/
  settled : ∀ k, (s.closers k).copies = true → s.run.waiting = none
  copied : ∀ k, (s.closers k).pastCopy = true → ∀ c < s.accepted, s.closed c = true ∨ c ∈ (s.closers k).left
  left : ∀ k, ∀ c ∈ (s.closers k).left, c < s.accepted
  /-- The first call goes on to the end. -/
  stopped : s.isStopped = true → ∃ k, s.closers k = .closeServerSocket ∨ (s.closers k).pastSocket = true
  skipped : ∀ k, s.closers k = .skipped → s.isStopped = true
  called : ∀ k, s.closers k ≠ .idle → k < s.calls
  returned : s.run = .returned → 0 < s.calls
  closing : ∀ k, s.run = .closing k → 0 < s.calls
  intact : s.intact = true
  unfailed : ∀ k, s.closers k ≠ .failed

theorem kept_initial : Kept State.initial :=
  ⟨nofun, nofun, nofun, nofun, fun _ _ => rfl, nofun, List.nodup_nil, nofun⟩

theorem reached_initial : Reached State.initial :=
  ⟨fun _ => rfl, nofun, nofun, nofun, nofun, nofun, nofun, fun _ h => absurd rfl h, nofun, nofun, rfl, nofun⟩

theorem shutDown_of {s : State} (hk : Kept s) (hr : Reached s) : s.ShutDown := by
  intro hrun hret
  -- among the calls that have returned, one went through to the end
  have hdone : ∃ k, s.closers k = .done := by
    have hpos := hr.returned hrun
    rcases hret 0 hpos with hd | hsk | hfa
    · exact ⟨0, hd⟩
    · obtain ⟨k, hk'⟩ := hr.stopped (hr.skipped 0 hsk)
      have hidle : s.closers k ≠ .idle := by
        intro hi
        rw [hi] at hk'
        rcases hk' with h | h <;> cases h
      rcases hret k (hr.called k hidle) with hd | hsk | hfa
      · exact ⟨k, hd⟩
      · rw [hsk] at hk'
        rcases hk' with h | h <;> cases h
      · exact absurd hfa (hr.unfailed k)
    · exact absurd hfa (hr.unfailed 0)
  obtain ⟨k, hd⟩ := hdone
  have hclosed : ∀ c < s.accepted, s.closed c = true := by
    intro c hc
    rcases hr.copied k (by rw [hd]; rfl) c hc with h | h
    · exact h
    · rw [hd] at h
      cases h
  refine ⟨?_, hclosed, fun hpend => ?_⟩
  · rcases hr.socket k (by rw [hd]; rfl) with h | ⟨h, -⟩ <;> rw [h] <;> decide
  · rw [List.eq_nil_iff_forall_not_mem]
    intro c hc
    have hlt := hk.accepted c hc
    exact Bool.noConfusion ((hk.pending c hc (hclosed c hlt)).symm.trans (hpend c hlt))

/-! ### Steps of a call of `close` -/

section Closers
variable {s : State}

/-- A step that changes nothing of the connections. -/
theorem Kept.congr {s' : State} (h : Kept s) (hrun : s'.run.waiting = s.run.waiting) (hacc : s'.accepted = s.accepted)
    (hcl : s'.closed = s.closed) (hpe : s'.onClosedPending = s.onClosedPending) (hco : s'.connections = s.connections)
    (hre : s'.removing = s.removing) : Kept s' := by
  constructor
  · rw [hacc, hcl, hco, hrun]
    exact h.inList
  · rw [hcl, hpe, hco]
    exact h.pending
  · rw [hcl, hpe]
    exact h.closed
  · rw [hacc, hco]
    exact h.accepted
  · rw [hacc, hcl]
    exact h.fresh
  · rw [hacc, hcl, hrun, hco]
    exact h.adding
  · rw [hco]
    exact h.nodup
  · rw [hre, hpe]
    exact h.removing

theorem kept_closeConnection (h : Kept s) {c : Nat} (hc : c < s.accepted) (hadd : s.run.waiting ≠ some c) :
    Kept (s.closeConnection c) := by
  unfold closeConnection
  split
  · exact h
  · rename_i hopen
    constructor
    · intro d hd hcl
      have hne : d ≠ c := by
        rintro rfl
        simp only [Function.update_self] at hcl
        cases hcl
      simp only [Function.update_of_ne hne] at hcl
      exact h.inList d hd hcl
    · intro d hd hcl
      by_cases hne : d = c
      · subst hne
        exact Function.update_self _ _ _
      · simp only [Function.update_of_ne hne] at hcl ⊢
        exact h.pending d hd hcl
    · intro d hp
      by_cases hne : d = c
      · subst hne
        exact Function.update_self _ _ _
      · simp only [Function.update_of_ne hne] at hp ⊢
        exact h.closed d hp
    · exact h.accepted
    · intro d hd
      have hne : d ≠ c := fun heq => by
        rw [heq] at hd
        exact absurd hc (Nat.not_lt.mpr hd)
      simp only [Function.update_of_ne hne]
      exact h.fresh d hd
    · intro d hrun
      have hne : d ≠ c := by
        rintro rfl
        exact hadd hrun
      simp only [Function.update_of_ne hne]
      exact h.adding d hrun
    · exact h.nodup
    · intro d hd
      have hp := h.removing d hd
      by_cases hne : d = c
      · subst hne
        exact Function.update_self _ _ _
      · simp only [Function.update_of_ne hne]
        exact hp

/-- The parts of the state that `Connection.close` leaves alone. -/
theorem closeConnection_frame (s : State) (c : Nat) : (s.closeConnection c).run = s.run ∧
    (s.closeConnection c).isStopped = s.isStopped ∧ (s.closeConnection c).serverSocket = s.serverSocket ∧
    (s.closeConnection c).accepted = s.accepted ∧ (s.closeConnection c).calls = s.calls ∧
    (s.closeConnection c).closers = s.closers ∧ (s.closeConnection c).intact = s.intact := by
  unfold closeConnection
  split <;> exact ⟨rfl, rfl, rfl, rfl, rfl, rfl, rfl⟩

theorem closed_closeConnection (s : State) (c d : Nat) (h : s.closed d = true ∨ d = c) :
    (s.closeConnection c).closed d = true := by
  unfold closeConnection
  split
  · rename_i hc
    rcases h with h | rfl
    · exact h
    · exact hc
  · simp only [Function.update_apply]
    split
    · rfl
    · rename_i hne
      exact h.resolve_right hne

theorem reached_closeConnection (h : Reached s) (c : Nat) : Reached (s.closeConnection c) := by
  obtain ⟨hrun, hst, hss, hacc, hcalls, hcl, hin⟩ := closeConnection_frame s c
  constructor
  · rw [hrun, hss]
    exact h.created
  · rw [hcl, hss, hrun]
    exact h.socket
  · rw [hcl, hrun]
    exact h.settled
  · rw [hcl, hacc]
    intro k hk d hd
    exact (h.copied k hk d hd).imp_left fun hd' => closed_closeConnection s c d (.inl hd')
  · rw [hcl, hacc]
    exact h.left
  · rw [hcl, hst]
    exact h.stopped
  · rw [hcl, hst]
    exact h.skipped
  · rw [hcl, hcalls]
    exact h.called
  · rw [hrun, hcalls]
    exact h.returned
  · rw [hrun, hcalls]
    exact h.closing
  · rw [hin]
    exact h.intact
  · rw [hcl]
    exact h.unfailed

theorem forall_setCloser {P : Nat → CloserPc → Prop} {k : Nat} {pc : CloserPc} (hk : P k pc)
    (h : ∀ j, P j (s.closers j)) : ∀ j, P j ((s.setCloser k pc).closers j) :=
  (Function.forall_update_iff s.closers P).mpr ⟨hk, fun j _ => h j⟩

/-- A call of `close` moves to a place where it has reached what it should. -/
theorem Reached.move (h : Reached s) {k : Nat} {pc : CloserPc} (hcall : k < s.calls)
    (hkeep : (s.closers k).pastSocket = true ∨ s.closers k = .closeServerSocket →
      pc.pastSocket = true ∨ pc = .closeServerSocket)
    (hsock : pc.pastSocket = true → s.serverSocket = some true ∨ (s.serverSocket = none ∧ s.run.exiting = true))
    (hsettled : pc.copies = true → s.run.waiting = none)
    (hcopy : pc.pastCopy = true → ∀ c < s.accepted, s.closed c = true ∨ c ∈ pc.left)
    (hleft : ∀ c ∈ pc.left, c < s.accepted) (hskip : pc = .skipped → s.isStopped = true) (hfail : pc ≠ .failed) :
    Reached (s.setCloser k pc) := by
  constructor
  · exact h.created
  · exact forall_setCloser (P := fun _ pc => pc.pastSocket = true →
      s.serverSocket = some true ∨ (s.serverSocket = none ∧ s.run.exiting = true)) hsock h.socket
  · exact forall_setCloser (P := fun _ pc => pc.copies = true → s.run.waiting = none) hsettled h.settled
  · exact forall_setCloser (P := fun _ pc => pc.pastCopy = true →
      ∀ c < s.accepted, s.closed c = true ∨ c ∈ pc.left) hcopy h.copied
  · exact forall_setCloser (P := fun _ pc => ∀ c ∈ pc.left, c < s.accepted) hleft h.left
  · intro hst
    obtain ⟨j, hj⟩ := h.stopped hst
    refine ⟨j, ?_⟩
    by_cases hjk : j = k
    · subst hjk
      simp only [setCloser, Function.update_self]
      exact (hkeep hj.symm).symm
    · simp only [setCloser, Function.update_of_ne hjk]
      exact hj
  · exact forall_setCloser (P := fun _ pc => pc = .skipped → s.isStopped = true) hskip h.skipped
  · exact forall_setCloser (P := fun j pc => pc ≠ .idle → j < s.calls) (fun _ => hcall) h.called
  · exact h.returned
  · exact h.closing
  · exact h.intact
  · exact forall_setCloser (P := fun _ pc => pc ≠ .failed) hfail h.unfailed

theorem kept_setCloser (h : Kept s) (k : Nat) (pc : CloserPc) : Kept (s.setCloser k pc) :=
  h.congr rfl rfl rfl rfl rfl rfl

theorem reached_setStopped (h : Reached s) {k : Nat} (hk : s.closers k = .setStopped) :
    Reached { s.setCloser k .closeServerSocket with isStopped := true } := by
  have hmove : Reached (s.setCloser k .closeServerSocket) := by
    refine h.move (h.called k ?_) (fun _ => .inr rfl) nofun nofun nofun nofun nofun nofun
    rw [hk]
    nofun
  exact { hmove with
    stopped := fun _ => ⟨k, .inl (by simp only [setCloser, Function.update_self])⟩
    skipped := fun _ _ => rfl }

theorem reached_closeServerSocket (h : Reached s) {k : Nat} (hk : s.closers k = .closeServerSocket)
    (hc : s.serverSocket ≠ none ∨ s.run.exiting = true) :
    Reached { s.setCloser k .copyConnections with serverSocket := s.serverSocket.map fun _ => true } := by
  have hss : s.serverSocket.map (fun _ => true) = some true ∨
      (s.serverSocket.map (fun _ => true) = none ∧ s.run.exiting = true) := by
    cases hs : s.serverSocket with
    | some b => exact .inl rfl
    | none => exact .inr ⟨rfl, hc.resolve_left fun hne => hne hs⟩
  have hclosed : Reached { s with serverSocket := s.serverSocket.map fun _ => true } :=
    { h with
      created := fun hrun => by
        rw [h.created hrun]
        rfl
      socket := fun _ _ => hss }
  have hidle : s.closers k ≠ .idle := by
    rw [hk]
    nofun
  have hmove : Reached (setCloser { s with serverSocket := s.serverSocket.map fun _ => true } k .copyConnections) :=
    hclosed.move (h.called k hidle) (fun _ => .inl rfl) (fun _ => hss) nofun nofun nofun nofun nofun
  exact hmove

/-- Entering the monitor beside no removal, and leaving it, change nothing that a shutdown needs. -/
theorem reached_enterMonitor (h : Reached s) (hre : s.removing = none) : Reached s.enterMonitor :=
  { h with
    intact := by
      unfold enterMonitor
      rw [hre, h.intact]
      rfl }

theorem reached_exitMonitor (h : Reached s) : Reached s.exitMonitor := { h with }

theorem reached_copyConnections (h : Reached s) {k : Nat} (hk : s.closers k = .copyConnections)
    (hc : s.run.waiting = none ∧ s.removing = none) : Reached (s.enterMonitor.setCloser k .copying) := by
  refine (reached_enterMonitor h hc.2).move (h.called k ?_) (fun _ => .inl rfl) (fun _ => h.socket k (by rw [hk]; rfl))
    (fun _ => hc.1) nofun nofun nofun nofun
  rw [hk]
  nofun

theorem reached_copying (hkept : Kept s) (h : Reached s) {k : Nat} (hk : s.closers k = .copying) :
    Reached (s.exitMonitor.setCloser k (.closeConnections s.connections)) := by
  have hwait : s.run.waiting = none := h.settled k (by rw [hk]; rfl)
  refine (reached_exitMonitor h).move (h.called k ?_) (fun _ => .inl rfl) (fun _ => h.socket k (by rw [hk]; rfl))
    (fun _ => hwait) (fun _ c hlt => ?_) hkept.accepted nofun nofun
  · rw [hk]
    nofun
  · cases hcl : s.closed c with
    | true => exact .inl hcl
    | false =>
      rcases hkept.inList c hlt hcl with hmem | hrun
      · exact .inr hmem
      · rw [hwait] at hrun
        cases hrun

theorem reached_closeNext (h : Reached s) {k c : Nat} {left : List Nat}
    (hk : s.closers k = .closeConnections (c :: left)) :
    Reached ((s.closeConnection c).setCloser k (.closeConnections left)) := by
  have hwait : s.run.waiting = none := h.settled k (by rw [hk]; rfl)
  have hleft := h.copied k (by rw [hk]; rfl)
  obtain ⟨hrun, -, hss, hacc, hcalls, -, -⟩ := closeConnection_frame s c
  refine (reached_closeConnection h c).move ?_ (fun _ => .inl rfl) (fun _ => ?_) (fun _ => ?_) (fun _ => ?_)
    (fun d hd => ?_) nofun nofun
  · rw [hcalls]
    refine h.called k ?_
    rw [hk]
    nofun
  · rw [hss, hrun]
    exact h.socket k (by rw [hk]; rfl)
  · rw [hrun]
    exact hwait
  · rw [hacc]
    intro d hd
    rcases hleft d hd with hd' | hd'
    · exact .inl (closed_closeConnection s c d (.inl hd'))
    · rw [hk] at hd'
      rcases List.mem_cons.mp hd' with heq | hmem
      · exact .inl (closed_closeConnection s c d (.inr heq))
      · exact .inr hmem
  · rw [hacc]
    refine h.left k d ?_
    rw [hk]
    exact List.mem_cons_of_mem c hd

theorem inv_closerStep {s' : State} (hkept : Kept s) (h : Reached s) {k : Nat} (hc : ClosesInTime s (.closer k))
    (hs : s.closerStep k = some s') : Kept s' ∧ Reached s' := by
  unfold closerStep at hs
  split at hs
  · cases hs
  · rename_i hk
    have hidle : s.closers k ≠ .idle := by
      rw [hk]
      nofun
    have hkeep : ∀ {P : Prop}, (s.closers k).pastSocket = true ∨ s.closers k = .closeServerSocket → P := by
      rw [hk]
      rintro P (h | h) <;> cases h
    cases hs
    split
    · rename_i hst
      exact ⟨kept_setCloser hkept k _, h.move (h.called k hidle) hkeep nofun nofun nofun nofun (fun _ => hst) nofun⟩
    · exact ⟨kept_setCloser hkept k _, h.move (h.called k hidle) hkeep nofun nofun nofun nofun nofun nofun⟩
  · rename_i hk
    cases hs
    exact ⟨hkept.congr rfl rfl rfl rfl rfl rfl, reached_setStopped h hk⟩
  · rename_i hk
    cases hs
    exact ⟨hkept.congr rfl rfl rfl rfl rfl rfl, reached_closeServerSocket h hk (hc.1 hk)⟩
  · rename_i hk
    simp only [Option.ite_none_left_eq_some, Option.some.injEq] at hs
    obtain ⟨-, rfl⟩ := hs
    exact ⟨hkept.congr rfl rfl rfl rfl rfl rfl, reached_copyConnections h hk (hc.2 hk)⟩
  · rename_i hk
    cases hs
    exact ⟨hkept.congr rfl rfl rfl rfl rfl rfl, reached_copying hkept h hk⟩
  · rename_i hk
    cases hs
    have hidle : s.closers k ≠ .idle := by
      rw [hk]
      nofun
    have hleft := h.copied k (by rw [hk]; rfl)
    rw [hk] at hleft
    exact ⟨kept_setCloser hkept k _, h.move (h.called k hidle) (fun _ => .inl rfl)
      (fun _ => h.socket k (by rw [hk]; rfl)) (fun _ => h.settled k (by rw [hk]; rfl)) (fun _ => hleft) nofun nofun
      nofun⟩
  · rename_i c left hk
    cases hs
    have hwait : s.run.waiting = none := h.settled k (by rw [hk]; rfl)
    have hlt : c < s.accepted := by
      refine h.left k c ?_
      rw [hk]
      exact List.mem_cons_self
    have hne : s.run.waiting ≠ some c := by
      rw [hwait]
      nofun
    exact ⟨kept_setCloser (kept_closeConnection hkept hlt hne) k _, reached_closeNext h hk⟩
  all_goals cases hs

theorem reached_callClose (h : Reached s) : Reached s.callClose := by
  have hidle : s.closers s.calls = .idle := by
    by_contra hne
    exact absurd (h.called _ hne) (Nat.lt_irrefl _)
  have hcounted : Reached { s with calls := s.calls + 1 } :=
    { h with
      called := fun k hk => Nat.lt_succ_of_lt (h.called k hk)
      returned := fun _ => Nat.succ_pos _
      closing := fun _ _ => Nat.succ_pos _ }
  have hmove : Reached (setCloser { s with calls := s.calls + 1 } s.calls .testStopped) := by
    refine hcounted.move (Nat.lt_succ_self _) (fun hpast => ?_) nofun nofun nofun nofun nofun nofun
    -- a call that was not made has reached nothing
    change (s.closers s.calls).pastSocket = true ∨ s.closers s.calls = _ at hpast
    rw [hidle] at hpast
    rcases hpast with hpast | hpast <;> cases hpast
  exact hmove

end Closers

/-! ### Steps of `run` -/

section Run
variable {s : State}

theorem Reached.goto (h : Reached s) {pc : RunPc} (hcreate : pc ≠ .createServerSocket)
    (hexit : s.run.exiting = true → pc.exiting = true) (hwait : s.run.waiting = none → pc.waiting = none)
    (hret : pc.exiting = true → pc = .finallyClose ∨ 0 < s.calls) : Reached { s with run := pc } :=
  { h with
    created := fun hrun => absurd hrun hcreate
    socket := fun k hk => (h.socket k hk).imp_right (And.imp_right hexit)
    settled := fun k hk => hwait (h.settled k hk)
    returned := fun hrun => by
      have hrun : pc = .returned := hrun
      subst hrun
      exact (hret rfl).resolve_left nofun
    closing := fun k hrun => by
      have hrun : pc = .closing k := hrun
      subst hrun
      exact (hret rfl).resolve_left nofun }

theorem inv_fails (hkept : Kept s) (h : Reached s) (hwait : s.run.waiting = none) :
    Kept { s with run := .finallyClose } ∧ Reached { s with run := .finallyClose } :=
  ⟨hkept.congr hwait.symm rfl rfl rfl rfl rfl, h.goto nofun (fun _ => rfl) (fun _ => rfl) fun _ => .inl rfl⟩

/-- With an open server socket no call of `close` has come as far as to look for it. -/
theorem Reached.not_pastSocket (h : Reached s) (hss : s.serverSocket = some false) (k : Nat) :
    (s.closers k).pastSocket = false := by
  by_contra hk
  rcases h.socket k (by simpa using hk) with h' | ⟨h', -⟩ <;> rw [hss] at h' <;> cases h'

theorem pastSocket_of_copies {pc : CloserPc} (h : pc.copies = true) : pc.pastSocket = true := by
  cases pc <;> first | rfl | cases h

theorem pastSocket_of_pastCopy {pc : CloserPc} (h : pc.pastCopy = true) : pc.pastSocket = true := by
  cases pc <;> first | rfl | cases h

theorem reached_create (h : Reached s) (hrun : s.run = .createServerSocket) :
    Reached { s with serverSocket := some false, run := .bind } := by
  have hnone := h.created hrun
  have hnot : ∀ k, (s.closers k).pastSocket = true → False := by
    intro k hk
    rcases h.socket k hk with h' | ⟨-, h'⟩
    · rw [hnone] at h'
      cases h'
    · rw [hrun] at h'
      cases h'
  exact { h with
    created := nofun
    socket := fun k hk => (hnot k hk).elim
    settled := fun k hk => (hnot k (pastSocket_of_copies hk)).elim
    copied := fun k hk => (hnot k (pastSocket_of_pastCopy hk)).elim
    returned := nofun
    closing := nofun }

theorem kept_accept (h : Kept s) (hwait : s.run.waiting = none) :
    Kept { s with accepted := s.accepted + 1, run := .addConnection s.accepted } :=
  { h with
    inList := fun c hc hcl => by
      by_cases heq : c = s.accepted
      · exact .inr (congrArg some heq.symm)
      · have hlt : c < s.accepted := by
          dsimp only at hc
          omega
        rcases h.inList c hlt hcl with hmem | hrun
        · exact .inl hmem
        · rw [hwait] at hrun
          cases hrun
    accepted := fun c hc => Nat.lt_succ_of_lt (h.accepted c hc)
    fresh := fun c hc => h.fresh c (Nat.le_of_succ_le hc)
    adding := fun c hrun => by
      cases hrun
      refine ⟨Nat.lt_succ_self _, h.fresh _ (Nat.le_refl _), fun hmem => ?_⟩
      exact Nat.lt_irrefl _ (h.accepted _ hmem) }

theorem reached_accept (h : Reached s) (hss : s.serverSocket = some false) :
    Reached { s with accepted := s.accepted + 1, run := .addConnection s.accepted } := by
  have hnot : ∀ k, (s.closers k).pastSocket = true → False := by
    intro k hk
    exact Bool.noConfusion (hk.symm.trans (h.not_pastSocket hss k))
  exact { h with
    created := nofun
    socket := fun k hk => (hnot k hk).elim
    settled := fun k hk => (hnot k (pastSocket_of_copies hk)).elim
    copied := fun k hk => (hnot k (pastSocket_of_pastCopy hk)).elim
    left := fun k c hc => Nat.lt_succ_of_lt (h.left k c hc)
    returned := nofun
    closing := nofun }

theorem kept_adding (h : Kept s) {c : Nat} (hrun : s.run = .adding c) :
    Kept { s.exitMonitor with connections := s.connections ++ [c], run := .startConnection c } := by
  have hwait : s.run.waiting = some c := by rw [hrun]; rfl
  obtain ⟨hlt, hopen, hnot⟩ := h.adding c hwait
  exact { h with
    inList := fun d hd hcl => by
      rcases h.inList d hd hcl with hmem | hrun'
      · exact .inl (List.mem_append_left _ hmem)
      · rw [hwait] at hrun'
        cases hrun'
        exact .inl (List.mem_append_right _ (List.mem_singleton_self _))
    pending := fun d hd hcl => by
      rcases List.mem_append.mp hd with hd | hd
      · exact h.pending d hd hcl
      · rw [List.mem_singleton.mp hd] at hcl
        exact Bool.noConfusion (hcl.symm.trans hopen)
    accepted := fun d hd => by
      rcases List.mem_append.mp hd with hd | hd
      · exact h.accepted d hd
      · rw [List.mem_singleton.mp hd]
        exact hlt
    adding := nofun
    nodup := by
      refine List.nodup_append.mpr ⟨h.nodup, List.pairwise_singleton _ c, ?_⟩
      rintro d hd _ hc rfl
      exact hnot (List.mem_singleton.mp hc ▸ hd) }

theorem inv_runStep {s' : State} (hkept : Kept s) (h : Reached s) {ok : Bool} (hc : ClosesInTime s (.run ok))
    (hs : s.runStep ok = some s') : Kept s' ∧ Reached s' := by
  unfold runStep at hs
  split at hs
  · rename_i hrun
    have hwait : s.run.waiting = none := by rw [hrun]; rfl
    cases hs
    split
    · exact ⟨hkept.congr hwait.symm rfl rfl rfl rfl rfl, reached_create h hrun⟩
    · exact inv_fails hkept h hwait
  · rename_i hrun
    have hwait : s.run.waiting = none := by rw [hrun]; rfl
    cases hs
    split
    · refine ⟨hkept.congr hwait.symm rfl rfl rfl rfl rfl, h.goto nofun ?_ (fun _ => rfl) nofun⟩
      rw [hrun]
      nofun
    · exact inv_fails hkept h hwait
  · rename_i hrun
    have hwait : s.run.waiting = none := by rw [hrun]; rfl
    cases hs
    split
    · rename_i hok
      exact ⟨kept_accept hkept hwait, reached_accept h hok.2⟩
    · exact inv_fails hkept h hwait
  · rename_i c hrun
    simp only [Option.ite_none_left_eq_some, Option.some.injEq] at hs
    obtain ⟨-, rfl⟩ := hs
    have hwait : s.run.waiting = some c := by rw [hrun]; rfl
    have hre : s.removing = none := hc (by rw [hrun]; rfl)
    refine ⟨hkept.congr hwait.symm rfl rfl rfl rfl rfl, (reached_enterMonitor h hre).goto nofun ?_ ?_ nofun⟩
    · change s.run.exiting = true → _
      rw [hrun]
      nofun
    · change s.run.waiting = none → _
      rw [hwait]
      nofun
  · rename_i c hrun
    cases hs
    refine ⟨kept_adding hkept hrun, ?_⟩
    have hgoto : Reached { s with run := .startConnection c } := by
      refine h.goto nofun ?_ (fun _ => rfl) nofun
      rw [hrun]
      nofun
    exact { hgoto with }
  · rename_i hrun
    have hwait : s.run.waiting = none := by rw [hrun]; rfl
    cases hs
    refine ⟨hkept.congr hwait.symm rfl rfl rfl rfl rfl, h.goto nofun ?_ (fun _ => rfl) nofun⟩
    rw [hrun]
    nofun
  · rename_i hrun
    have hwait : s.run.waiting = none := by rw [hrun]; rfl
    cases hs
    exact ⟨hkept.congr hwait.symm rfl rfl rfl rfl rfl,
      (reached_callClose h).goto nofun (fun _ => rfl) (fun _ => rfl) fun _ => .inr (Nat.succ_pos _)⟩
  · rename_i call hrun
    have hwait : s.run.waiting = none := by rw [hrun]; rfl
    simp only [Option.ite_none_right_eq_some, Option.some.injEq] at hs
    obtain ⟨-, rfl⟩ := hs
    exact ⟨hkept.congr hwait.symm rfl rfl rfl rfl rfl,
      h.goto nofun (fun _ => rfl) (fun _ => rfl) fun _ => .inr (h.closing call hrun)⟩
  · cases hs

end Run

/-! ### `onClosed` -/

theorem kept_onClosed {s : State} (h : Kept s) {c : Nat} (hp : s.onClosedPending c = true) : Kept (s.onClosed c) :=
  { h with
    removing := fun d hd => by
      cases hd
      exact hp }

theorem reached_onClosed {s : State} (h : Reached s) {c : Nat} (hm : s.monitor = false) : Reached (s.onClosed c) :=
  { h with
    intact := by
      unfold onClosed
      rw [hm, h.intact]
      rfl }

theorem kept_remove {s : State} (h : Kept s) {c : Nat} (hre : s.removing = some c) : Kept (s.remove c) := by
  have hc := h.closed c (h.removing c hre)
  constructor
  · intro d hd hcl
    have hne : d ≠ c := by
      rintro rfl
      exact Bool.noConfusion (hc.symm.trans hcl)
    exact (h.inList d hd hcl).imp_left (List.mem_erase_of_ne hne).mpr
  · intro d hd hcl
    obtain ⟨hne, hmem⟩ := h.nodup.mem_erase_iff.mp hd
    simp only [remove, Function.update_of_ne hne]
    exact h.pending d hmem hcl
  · intro d hd
    by_cases hne : d = c
    · subst hne
      exact hc
    · simp only [remove, Function.update_of_ne hne] at hd
      exact h.closed d hd
  · intro d hd
    exact h.accepted d (List.mem_of_mem_erase hd)
  · exact h.fresh
  · intro d hrun
    obtain ⟨hlt, hopen, hnot⟩ := h.adding d hrun
    exact ⟨hlt, hopen, fun hmem => hnot (List.mem_of_mem_erase hmem)⟩
  · exact h.nodup.erase c
  · exact nofun

/-! ### Runs -/

theorem waiting_ne_of_unstarted {pc : RunPc} {c : Nat} (h : pc.unstarted ≠ some c) : pc.waiting ≠ some c := by
  cases pc <;> first | exact h | exact nofun

theorem inv_step {s s' : State} {e : Event} (h : Kept s ∧ Reached s) (hc : ClosesInTime s e)
    (hs : step s e = some s') : Kept s' ∧ Reached s' := by
  obtain ⟨hkept, hr⟩ := h
  cases e with
  | run ok => exact inv_runStep hkept hr hc hs
  | callClose =>
    cases hs
    exact ⟨hkept.congr rfl rfl rfl rfl rfl rfl, reached_callClose hr⟩
  | closer k => exact inv_closerStep hkept hr hc hs
  | closerFails k =>
    simp only [step, hr.intact, ↓reduceIte] at hs
    cases hs
  | connectionCloses c =>
    simp only [step, Option.ite_none_right_eq_some, Option.some.injEq] at hs
    obtain ⟨⟨hlt, hne⟩, rfl⟩ := hs
    exact ⟨kept_closeConnection hkept hlt (waiting_ne_of_unstarted hne), reached_closeConnection hr c⟩
  | onClosed c =>
    simp only [step, Option.ite_none_right_eq_some, Option.some.injEq] at hs
    obtain ⟨⟨hp, -⟩, rfl⟩ := hs
    exact ⟨kept_onClosed hkept hp, reached_onClosed hr hc⟩
  | removed =>
    obtain ⟨c, hre, rfl⟩ := Option.map_eq_some_iff.mp hs
    exact ⟨kept_remove hkept hre, { hr with }⟩
  | raced connections =>
    simp only [step, hr.intact, Bool.true_eq_false, false_and, ↓reduceIte] at hs
    cases hs

/-- In every run whose calls of `close` look in time, and whose removals run beside no addition and no
    copy, a shutdown is complete. -/
theorem shutdown_complete (s : State) (h : StepSystem.Reachable system ClosesInTime s) : s.ShutDown := by
  have hinv : Kept s ∧ Reached s := by
    refine h.inv (I := fun s => Kept s ∧ Reached s) ?_ ?_
    · rintro _ rfl
      exact ⟨kept_initial, reached_initial⟩
    · intro s e t hi hc hs
      exact inv_step hi hc hs
  exact shutDown_of hinv.1 hinv.2

/-- One connection is served, and `close` is called while the loop waits for the next. -/
def stoppedWhileAccepting : List Event :=
  [.run true, .run true, .run true, .run true, .run true, .run true, .callClose,
    .closer 0, .closer 0, .closer 0, .closer 0, .closer 0, .closer 0, .closer 0, .onClosed 0, .removed,
    .run false, .run true, .closer 1, .run true]

theorem shutdown_complete_one_connection : ∃ s, StepSystem.Reachable system ClosesInTime s ∧
    (s.run = .returned ∧ s.accepted = 1 ∧ s.calls = 2) ∧ s.ShutDown := by
  obtain ⟨s, hs, hp⟩ := StepSystem.exists_reachable (S := system) (C := ClosesInTime)
    (p := fun s => decide (s.run = .returned ∧ s.accepted = 1 ∧ s.calls = 2)) (s := State.initial) rfl
    stoppedWhileAccepting (by decide)
  exact ⟨s, hs, of_decide_eq_true hp, shutdown_complete s hs⟩

/-- `close` runs between the return of `accept` and the addition to the list. -/
def stoppedBeforeAdding : List Event :=
  [.run true, .run true, .run true, .callClose, .closer 0, .closer 0, .closer 0, .closer 0, .closer 0, .closer 0,
    .run true, .run true, .run true, .run false, .run true, .closer 1, .run true]

/-- `close` before the connection is added misses it: it stays open when `run` has returned. -/
theorem connection_left_open : ¬∀ s, StepSystem.Reachable system StepSystem.Any s → s.ShutDown := by
  intro hall
  obtain ⟨s, hs, hp⟩ := StepSystem.exists_reachable (S := system) (C := StepSystem.Any)
    (p := fun s => decide (s.run = .returned ∧ s.accepted = 1 ∧ s.closed 0 = false ∧
      s.calls = 2 ∧ s.closers 0 = .done ∧ s.closers 1 = .skipped))
    (s := State.initial) rfl stoppedBeforeAdding (by decide)
  obtain ⟨hrun, hacc, hopen, hcalls, h0, h1⟩ := of_decide_eq_true hp
  have hret : ∀ k < s.calls, (s.closers k).Returned := by
    intro k hk
    rw [hcalls] at hk
    match k, hk with
    | 0, _ => exact .inl h0
    | 1, _ => exact .inr (.inl h1)
  have hclosed := (hall s hs hrun hret).2.1 0 (by rw [hacc]; exact Nat.one_pos)
  exact Bool.noConfusion (hclosed.symm.trans hopen)

end ClientServer
end NicVpn
