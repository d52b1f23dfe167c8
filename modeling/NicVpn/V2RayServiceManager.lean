import NicVpn.Lib.Run

/-! Starts and stops of the V2Ray core. `startV2rayPoint` runs on the main thread and starts the core itself;
    `stopV2rayPoint` runs on whatever thread calls it and leaves the core to a coroutine. The broadcast receiver that
    hears `MSG_STATE_STOP` is registered by the one and unregistered by the other. -/

namespace NicVpn
namespace V2RayServiceManager

inductive Request
  | start
  | stop
  deriving DecidableEq, Repr

/-- Where a call of `stopV2rayPoint` is. -/
inductive Stop
  | check
  /-- `isRunning` was true. -/
  | launch
  | unregister
  deriving DecidableEq, Repr

/-- Where the main thread is. -/
inductive Main
  | idle
  /-- In `startV2rayPoint`, where `isRunning` was false. -/
  | register
  | runLoop
  | stop (pc : Stop)
  deriving DecidableEq, Repr

structure State where
  /-- `v2rayPoint.isRunning`. -/
  isRunning : Bool
  /-- `mMsgReceive` is registered. -/
  registered : Bool
  main : Main
  /-- The calls of `stopV2rayPoint` on other threads. -/
  calls : List Stop
  /-- The coroutines that have not run `stopLoop` yet. -/
  jobs : Nat
  /-- The callbacks that the core has still to make. -/
  setups : Nat
  shutdowns : Nat
  last : Option Request
  deriving DecidableEq, Repr

namespace State

def initial : State where
  isRunning := false
  registered := false
  main := .idle
  calls := []
  jobs := 0
  setups := 0
  shutdowns := 0
  last := none

/-- `startV2rayPoint`, up to the check of `isRunning`. -/
def startV2rayPoint (s : State) : State :=
  { s with last := some .start, main := if s.isRunning then .idle else .register }

def onStartCommand (s : State) : Option State := if s.main = .idle then some s.startV2rayPoint else none

/-- `MSG_STATE_RESTART` in `onReceive`. -/
def msgStateRestart (s : State) : Option State :=
  if s.main = .idle ∧ s.registered = true then some s.startV2rayPoint else none

def register (s : State) : Option State :=
  if s.main = .register then some { s with registered := true, main := .runLoop } else none

def runLoop (s : State) : Option State :=
  if s.main = .runLoop then some { s with isRunning := true, main := .idle } else none

/-- `MSG_STATE_STOP`: heard on the main thread, or by nobody. -/
def msgStateStop (s : State) : Option State :=
  if s.registered = true then
    if s.main = .idle then some { s with last := some .stop, main := .stop .check } else none
  else some { s with last := some .stop }

/-- `onRevoke`, on a thread of its own. -/
def onRevoke (s : State) : State := { s with last := some .stop, calls := s.calls ++ [.check] }

/-- A callback of the core becomes due. When the core makes them is not part of the source. -/
def setupDue (s : State) : State := { s with setups := s.setups + 1 }

def shutdownDue (s : State) : State := { s with shutdowns := s.shutdowns + 1 }

/-- `setup`; it calls `stopV2Ray` if there is no interface. -/
def setup (s : State) (fails : Bool) : Option State :=
  if 0 < s.setups then
    some { s with setups := s.setups - 1, calls := if fails then s.calls ++ [.check] else s.calls }
  else none

def shutdown (s : State) : Option State :=
  if 0 < s.shutdowns then some { s with shutdowns := s.shutdowns - 1, calls := s.calls ++ [.check] } else none

/-- The coroutine of `stopV2rayPoint`. -/
def stopLoop (s : State) : Option State :=
  if 0 < s.jobs then some { s with jobs := s.jobs - 1, isRunning := false } else none

/-- What the next step of `stopV2rayPoint` does. -/
def stopV2rayPoint (s : State) : Stop → State
  | .check => s
  | .launch => { s with jobs := s.jobs + 1 }
  | .unregister => { s with registered := false }

/-- Where `stopV2rayPoint` is after its next step. -/
def next (s : State) : Stop → Option Stop
  | .check => some (if s.isRunning then .launch else .unregister)
  | .launch => some .unregister
  | .unregister => none

def mainStep (s : State) : Option State :=
  match s.main with
  | .stop pc => some { s.stopV2rayPoint pc with main := ((s.next pc).map Main.stop).getD .idle }
  | _ => none

def callStep (s : State) (i : Nat) : Option State :=
  match s.calls[i]? with
  | some pc => some { s.stopV2rayPoint pc with
      calls := ((s.next pc).map (s.calls.set i)).getD (s.calls.eraseIdx i) }
  | none => none

end State

inductive Event
  | onStartCommand
  | msgStateRestart
  | register
  | runLoop
  | msgStateStop
  | onRevoke
  | setupDue
  | shutdownDue
  | setup (fails : Bool)
  | shutdown
  | stopLoop
  | mainStep
  | callStep (i : Nat)
  deriving DecidableEq, Repr

def step (s : State) : Event → Option State
  | .onStartCommand => s.onStartCommand
  | .msgStateRestart => s.msgStateRestart
  | .register => s.register
  | .runLoop => s.runLoop
  | .msgStateStop => s.msgStateStop
  | .onRevoke => some s.onRevoke
  | .setupDue => some s.setupDue
  | .shutdownDue => some s.shutdownDue
  | .setup fails => s.setup fails
  | .shutdown => s.shutdown
  | .stopLoop => s.stopLoop
  | .mainStep => s.mainStep
  | .callStep i => s.callStep i

/-- Any requests and callbacks, in any order. -/
def system : StepSystem.System State Event where
  init s := s = State.initial
  step := step

end V2RayServiceManager
end NicVpn
