import NicVpn.Lib.Run
import NicVpn.Lib.Text
import Mathlib.Logic.Function.Basic

/-! The sockets of one `Connection`. `run` goes through the pieces of the payload; each piece opens a write
    and a read socket and starts two relay threads. `close` may be called by any thread: the first call
    closes the sockets that the fields name at that time, one after another. -/

namespace NicVpn
namespace Connection

/-- The pieces of a payload. The separator is the literal text, backslash included. -/
def pieces (payloadConfig : String) : List (List Char) := Text.split "\\[split]".toList payloadConfig.toList

/-- Where `close` is, for the one call that gets to close: before the named statement. -/
inductive Closing
  | writeSocket
  | readSocket
  | appSocket
  | onClosed
  | done
  deriving DecidableEq, Repr

inductive RunPc
  | createWrite
  | connectWrite
  | sendCreate
  | createRead
  | connectRead
  | sendComplete
  | openApp
  | startAppRead
  | startRead
  | sleeping
  /-- In the `close` of its own `catch`. -/
  | closing
  | ended
  deriving DecidableEq, Repr

inductive RelayPc
  | copying
  /-- In the `close` of its `catch`; `finallyClose` comes after it. -/
  | closing
  | finallyClose
  /-- In the `close` of `finallyClose`. -/
  | lastClosing
  | ended
  deriving DecidableEq, Repr

structure State where
  /-- Pieces after the present one. -/
  piecesLeft : Nat
  run : RunPc
  opened : Nat
  closed : Nat → Bool
  appClosed : Bool
  writeSocket : Option Nat
  readSocket : Option Nat
  relays : List RelayPc
  threadEndCount : Nat
  /-- The call that found `isStopped` unset, if there was one. -/
  close : Option Closing
  onClosedCalls : Nat

namespace State

def initial (piecesLeft : Nat) : State where
  piecesLeft := piecesLeft
  run := .createWrite
  opened := 0
  closed := fun _ => false
  appClosed := false
  writeSocket := none
  readSocket := none
  relays := []
  threadEndCount := 0
  close := none
  onClosedCalls := 0

/-- A call of `close`: only the first one goes on. -/
def callClose (s : State) : State := if s.close = none then { s with close := some .writeSocket } else s

/-- `close()` of a socket in a field that may be null. -/
def closeSocket (s : State) : Option Nat → State
  | some i => { s with closed := Function.update s.closed i true }
  | none => s

/-- The next statement of the call that closes. -/
def closeStep (s : State) : Closing → Option State
  | .writeSocket => some { s.closeSocket s.writeSocket with close := some .readSocket }
  | .readSocket => some { s.closeSocket s.readSocket with close := some .appSocket }
  | .appSocket => some { s with appClosed := true, close := some .onClosed }
  | .onClosed => some { s with onClosedCalls := s.onClosedCalls + 1, close := some .done }
  | .done => none

/-- An `IOException` in `run`: when another call closes already, `close` returns at once. -/
def runFails (s : State) : State :=
  { s.callClose with run := if s.close = none then .closing else .ended }

/-- The next statement of `run`; `ok` is false when it throws. -/
def runStep (s : State) (ok : Bool) : Option State :=
  match s.run with
  | .createWrite =>
    some { s with
      opened := s.opened + 1, closed := Function.update s.closed s.opened false,
      writeSocket := some s.opened, run := .connectWrite }
  | .connectWrite => some (if ok then { s with run := .sendCreate } else s.runFails)
  | .sendCreate => some (if ok then { s with run := .createRead } else s.runFails)
  | .createRead =>
    some { s with
      opened := s.opened + 1, closed := Function.update s.closed s.opened false,
      readSocket := some s.opened, run := .connectRead }
  | .connectRead => some (if ok then { s with run := .sendComplete } else s.runFails)
  | .sendComplete => some (if ok then { s with run := .openApp } else s.runFails)
  | .openApp => some (if ok then { s with run := .startAppRead } else s.runFails)
  | .startAppRead => some { s with relays := s.relays ++ [.copying], run := .startRead }
  | .startRead => some { s with relays := s.relays ++ [.copying], run := .sleeping }
  | .sleeping =>
    match s.piecesLeft with
    | 0 => some { s with run := .ended }
    | n + 1 => some { s with piecesLeft := n, run := .createWrite }
  | .closing => if s.close = some .done then some { s with run := .ended } else none
  | .ended => none

/-- The next step of a relay thread; `ok` is true for the end of its input and false for an exception. -/
def relayStep (s : State) (i : Nat) (ok : Bool) : Option State :=
  match s.relays[i]? with
  | some .copying =>
    if ok then some { s with relays := s.relays.set i .finallyClose }
    else some { s.callClose with relays := s.relays.set i (if s.close = none then .closing else .finallyClose) }
  | some .closing =>
    if s.close = some .done then some { s with relays := s.relays.set i .finallyClose } else none
  | some .finallyClose =>
    let s := { s with threadEndCount := s.threadEndCount + 1 }
    if s.threadEndCount = 2 then
      some { s.callClose with relays := s.relays.set i (if s.close = none then .lastClosing else .ended) }
    else some { s with relays := s.relays.set i .ended }
  | some .lastClosing =>
    if s.close = some .done then some { s with relays := s.relays.set i .ended } else none
  | some .ended => none
  | none => none

end State

inductive Event
  | run (ok : Bool)
  | relay (i : Nat) (ok : Bool)
  | callClose
  | close
  deriving DecidableEq, Repr

def step (s : State) : Event → Option State
  | .run ok => s.runStep ok
  | .relay i ok => s.relayStep i ok
  | .callClose => some s.callClose
  | .close => s.close.bind s.closeStep

/-- A connection with any payload; its threads and callers step in any order. -/
def system : StepSystem.System State Event where
  init s := ∃ payloadConfig, s = State.initial ((pieces payloadConfig).length - 1)
  step := step

end Connection
end NicVpn
