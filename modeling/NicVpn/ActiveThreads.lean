import NicVpn.Lib.Run
import Mathlib.Logic.Function.Basic

/-! The management threads of all sessions. `run` puts its thread into the static list `active` and takes it out
    behind its `try` block; `stopOpenVPN` tells every thread of the list to stop. Both hold a lock on the list, and
    everything else that `run` does can come in between. -/

namespace NicVpn
namespace OpenVpnManagementThread
namespace Active

/-- Where `run` of a thread is. -/
inductive Pc
  | notStarted
  | accept
  | read
  /-- Behind the `catch`, before the removal. -/
  | remove
  | ended
  deriving DecidableEq, Repr

inductive Socket
  | null
  | opened
  | closed
  deriving DecidableEq, Repr

/-- What becomes of a line on an open socket. -/
inductive Write
  | sent
  /-- The line is out, and `flush` throws. -/
  | flushFails
  | fails
  deriving DecidableEq, Repr

/-- What `managmentCommand` returns, and whether the line was written. The exceptions of a closed socket are
    caught. -/
def managmentCommand (mSocket : Socket) (write : Write) : Bool × Bool :=
  match mSocket, write with
  | .opened, .sent => (true, true)
  | .opened, .flushFails => (false, true)
  | _, _ => (false, false)

/-- A call of `stopOpenVPN` in its loop. -/
structure Call where
  /-- The threads of the loop from the present one on. -/
  left : List Nat
  /-- The present thread was told, and its socket is next. -/
  told : Bool
  sendCMD : Bool
  /-- The line was written to one of the threads. -/
  written : Bool
  deriving DecidableEq, Repr

/-- What a call of `stopOpenVPN` returned, and whether its line was written to one of the threads. -/
structure Answer where
  sendCMD : Bool
  written : Bool
  deriving DecidableEq, Repr

structure State where
  pc : Nat → Pc
  mSocket : Nat → Socket
  active : List Nat
  /-- The call that holds the lock. -/
  stop : Option Call
  answers : List Answer

namespace State

def initial : State where
  pc := fun _ => .notStarted
  mSocket := fun _ => .null
  active := []
  stop := none
  answers := []

def goto (s : State) (i : Nat) (pc : Pc) : State := { s with pc := Function.update s.pc i pc }

/-- The first block of `run`. -/
def start (s : State) (i : Nat) : Option State :=
  if s.pc i = .notStarted ∧ s.stop = none then some { s.goto i .accept with active := s.active ++ [i] } else none

def accept (s : State) (i : Nat) : Option State :=
  if s.pc i = .accept then some { s.goto i .read with mSocket := Function.update s.mSocket i .opened } else none

/-- The end of the stream: `run` returns out of its `try` block. -/
def eof (s : State) (i : Nat) : Option State := if s.pc i = .read then some (s.goto i .ended) else none

/-- An `IOException` of `accept`, `getInputStream` or `read`. The handler asks for its message, which may be
    null. -/
def ioException (s : State) (i : Nat) (message : Option (List Char)) : Option State :=
  if s.pc i = .accept ∨ s.pc i = .read then some (s.goto i (if message.isSome then .remove else .ended)) else none

/-- The last block of `run`. -/
def remove (s : State) (i : Nat) : Option State :=
  if s.pc i = .remove ∧ s.stop = none then some { s.goto i .ended with active := s.active.erase i } else none

def stopOpenVPN (s : State) : Option State :=
  if s.stop = none then
    some { s with stop := some { left := s.active, told := false, sendCMD := false, written := false } }
  else none

/-- The command to the present thread of the loop. -/
def tell (s : State) (write : Write) : Option State :=
  match s.stop with
  | some { left := i :: left, told := false, sendCMD := _, written := written } =>
    let r := managmentCommand (s.mSocket i) write
    some { s with stop := some { left := i :: left, told := true, sendCMD := r.1, written := written || r.2 } }
  | _ => none

/-- The socket of the present thread is closed, unless there is none or `close` throws. -/
def closeSocket (s : State) (throws : Bool) : Option State :=
  match s.stop with
  | some { left := i :: left, told := true, sendCMD := sendCMD, written := written } =>
    some { s with
      mSocket := if s.mSocket i = .null ∨ throws then s.mSocket else Function.update s.mSocket i .closed
      stop := some { left := left, told := false, sendCMD := sendCMD, written := written } }
  | _ => none

def stopReturns (s : State) : Option State :=
  match s.stop with
  | some { left := [], told := _, sendCMD := sendCMD, written := written } =>
    some { s with stop := none, answers := { sendCMD := sendCMD, written := written } :: s.answers }
  | _ => none

end State

inductive Event
  | start (i : Nat)
  | accept (i : Nat)
  | eof (i : Nat)
  | ioException (i : Nat) (message : Option (List Char))
  | remove (i : Nat)
  | stopOpenVPN
  | tell (write : Write)
  | closeSocket (throws : Bool)
  | stopReturns
  deriving DecidableEq, Repr

def step (s : State) : Event → Option State
  | .start i => s.start i
  | .accept i => s.accept i
  | .eof i => s.eof i
  | .ioException i message => s.ioException i message
  | .remove i => s.remove i
  | .stopOpenVPN => s.stopOpenVPN
  | .tell write => s.tell write
  | .closeSocket throws => s.closeSocket throws
  | .stopReturns => s.stopReturns

/-- Any number of threads and of calls, in any order. -/
def system : StepSystem.System State Event where
  init s := s = State.initial
  step := step

end Active
end OpenVpnManagementThread
end NicVpn
