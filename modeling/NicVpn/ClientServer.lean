import NicVpn.Lib.Run
import Mathlib.Logic.Function.Basic

/-! `ClientServer`: the accept loop of `run`, and `close`, which may be called by any thread at any time
    and is called by `run` itself at its end. Reading and writing a field are steps of their own. A
    connection closes by `close` or by itself, and its `onClosed` follows. Adding to the list and copying it
    hold the monitor of `connectionsLock`, removing from it holds the lock `connectionsLock`: these do not
    exclude each other, so each of the three begins and ends with a step of its own. -/

namespace NicVpn
namespace ClientServer

/-- Where a call of `close` is: before the named statement. -/
inductive CloserPc
  /-- Not called yet. -/
  | idle
  | testStopped
  | setStopped
  | closeServerSocket
  | copyConnections
  /-- In `LinkedList(this.connections)`. -/
  | copying
  | closeConnections (left : List Nat)
  | done
  /-- Returned at once, since `isStopped` was set. -/
  | skipped
  /-- Ended by an exception that the list threw, or that `close` of a null connection in it threw. -/
  | failed
  deriving DecidableEq, Repr

inductive RunPc
  | createServerSocket
  | bind
  | accept
  /-- A connection was accepted and is not in the list yet. -/
  | addConnection (c : Nat)
  /-- In `connections.add`. -/
  | adding (c : Nat)
  | startConnection (c : Nat)
  | finallyClose
  /-- In its own call of `close`. -/
  | closing (call : Nat)
  | returned
  deriving DecidableEq, Repr

structure State where
  run : RunPc
  isStopped : Bool
  /-- `ss`, and whether it was closed. -/
  serverSocket : Option Bool
  accepted : Nat
  /-- `close` of the connection was called. -/
  closed : Nat → Bool
  /-- Its `onClosed` has still to run. -/
  onClosedPending : Nat → Bool
  connections : List Nat
  /-- An addition or a copy is in `synchronized(connectionsLock)`. -/
  monitor : Bool
  /-- The connection whose `onClosed` holds `connectionsLock`. -/
  removing : Option Nat
  /-- No removal has run beside an addition or a copy. The list is a plain `LinkedList`, which promises
      nothing after that. -/
  intact : Bool
  calls : Nat
  closers : Nat → CloserPc

namespace State

def initial : State where
  run := .createServerSocket
  isStopped := false
  serverSocket := none
  accepted := 0
  closed := fun _ => false
  onClosedPending := fun _ => false
  connections := []
  monitor := false
  removing := none
  intact := true
  calls := 0
  closers := fun _ => .idle

def callClose (s : State) : State :=
  { s with calls := s.calls + 1, closers := Function.update s.closers s.calls .testStopped }

/-- `Connection.close`: a second call does nothing. -/
def closeConnection (s : State) (c : Nat) : State :=
  if s.closed c then s
  else
    { s with
      closed := Function.update s.closed c true
      onClosedPending := Function.update s.onClosedPending c true }

def enterMonitor (s : State) : State :=
  { s with monitor := true, intact := s.intact && s.removing.isNone }

def exitMonitor (s : State) : State := { s with monitor := false }

/-- `onClosed` takes the lock. -/
def onClosed (s : State) (c : Nat) : State :=
  { s with removing := some c, intact := s.intact && !s.monitor }

/-- `connections.remove(this)`, and the lock is given back. -/
def remove (s : State) (c : Nat) : State :=
  { s with
    onClosedPending := Function.update s.onClosedPending c false
    connections := s.connections.erase c
    removing := none }

def setCloser (s : State) (k : Nat) (pc : CloserPc) : State :=
  { s with closers := Function.update s.closers k pc }

/-- The next statement of a call of `close`. -/
def closerStep (s : State) (k : Nat) : Option State :=
  match s.closers k with
  | .idle => none
  | .testStopped => some (if s.isStopped then s.setCloser k .skipped else s.setCloser k .setStopped)
  | .setStopped => some { s.setCloser k .closeServerSocket with isStopped := true }
  | .closeServerSocket =>
    some { s.setCloser k .copyConnections with serverSocket := s.serverSocket.map fun _ => true }
  | .copyConnections => if s.monitor then none else some (s.enterMonitor.setCloser k .copying)
  | .copying => some (s.exitMonitor.setCloser k (.closeConnections s.connections))
  | .closeConnections [] => some (s.setCloser k .done)
  | .closeConnections (c :: left) => some ((s.closeConnection c).setCloser k (.closeConnections left))
  | .done => none
  | .skipped => none
  | .failed => none

/-- A list that two threads used at once may throw, or hold nulls: the call of `close` ends. -/
def closerFails (s : State) (k : Nat) : Option State :=
  match s.closers k with
  | .copying => some (s.exitMonitor.setCloser k .failed)
  | .closeConnections _ => some (s.setCloser k .failed)
  | _ => none

/-- The next statement of `run`; `ok` is false when it throws. A closed server socket always throws. -/
def runStep (s : State) (ok : Bool) : Option State :=
  match s.run with
  | .createServerSocket =>
    some (if ok then { s with serverSocket := some false, run := .bind } else { s with run := .finallyClose })
  | .bind =>
    some (if ok ∧ s.serverSocket = some false then { s with run := .accept } else { s with run := .finallyClose })
  | .accept =>
    some (if ok ∧ s.serverSocket = some false then
        { s with accepted := s.accepted + 1, run := .addConnection s.accepted }
      else { s with run := .finallyClose })
  | .addConnection c => if s.monitor then none else some { s.enterMonitor with run := .adding c }
  | .adding c => some { s.exitMonitor with connections := s.connections ++ [c], run := .startConnection c }
  | .startConnection _ => some { s with run := .accept }
  | .finallyClose => some { s.callClose with run := .closing s.calls }
  | .closing call =>
    if s.closers call = .done ∨ s.closers call = .skipped ∨ s.closers call = .failed then
      some { s with run := .returned }
    else none
  | .returned => none

end State

/-- The connection that was accepted and not started yet. -/
def RunPc.unstarted : RunPc → Option Nat
  | .addConnection c => some c
  | .adding c => some c
  | .startConnection c => some c
  | _ => none

inductive Event
  | run (ok : Bool)
  | callClose
  | closer (k : Nat)
  | closerFails (k : Nat)
  | connectionCloses (c : Nat)
  | onClosed (c : Nat)
  | removed
  /-- The list, used by two threads at once, now holds these connections. -/
  | raced (connections : List Nat)
  deriving DecidableEq, Repr

def step (s : State) : Event → Option State
  | .run ok => s.runStep ok
  | .callClose => some s.callClose
  | .closer k => s.closerStep k
  | .closerFails k => if s.intact then none else s.closerFails k
  | .connectionCloses c =>
    if c < s.accepted ∧ s.run.unstarted ≠ some c then some (s.closeConnection c) else none
  | .onClosed c => if s.onClosedPending c ∧ s.removing = none then some (s.onClosed c) else none
  | .removed => s.removing.map s.remove
  | .raced connections =>
    if s.intact = false ∧ ∀ c ∈ connections, c < s.accepted then some { s with connections := connections } else none

/-- The server with its threads and callers in any order of steps. -/
def system : StepSystem.System State Event where
  init s := s = State.initial
  step := step

end ClientServer
end NicVpn
