import NicVpn.Lib.Run
import Mathlib.Logic.Function.Basic

/-! The stunnel process. `HTTProcessManager.start` runs on the thread of its service: it starts the process,
    waits, destroys it and, in custom-ping mode, starts over from a `finally` block; `stop` runs on another
    thread. Both share a flag and a field without a lock. -/

namespace NicVpn
namespace HTTProcessManager

/-- Where `start` is, before the named statement. A reconnect is a call in tail position, so one position is
    enough for any depth. -/
inductive StartPc
  | setupConfig
  | exec
  /-- The process runs and is not stored in the field yet. -/
  | store (p : Nat)
  /-- Asleep for the configured ping, or in `waitFor`. -/
  | waiting (customPing : Bool)
  | destroy
  | checkStopService
  | returned
  deriving DecidableEq, Repr

inductive StopPc
  | notCalled
  | setStopService
  | destroy
  | readPid
  | kill (pid : Option Nat)
  | deletePid
  | returned
  deriving DecidableEq, Repr

structure State where
  start : StartPc
  stop : StopPc
  stunnelProcess : Option Nat
  stopService : Bool
  /-- Processes started so far. -/
  started : Nat
  alive : Nat → Bool
  /-- The process whose number the PID file holds. -/
  pidFile : Option Nat
  /-- A process was started after `stop` had returned. -/
  startedAfterStop : Bool

namespace State

/-- `start` and `stop` are about to run on a new instance. -/
def initial : State where
  start := .setupConfig
  stop := .notCalled
  stunnelProcess := none
  stopService := false
  started := 0
  alive := fun _ => false
  pidFile := none
  startedAfterStop := false

/-- The process in a field that may be null has ended. -/
def destroyProcess (s : State) (q : Option Nat) : State := { s with alive := fun p => s.alive p && q ≠ some p }

/-- The next statement of `start`. `flag` is what the statement gets from outside: whether `exec` succeeds,
    and whether custom ping is on. -/
def startStep (s : State) (flag : Bool) : Option State :=
  match s.start with
  | .setupConfig => some { s with start := .exec }
  | .exec =>
    if flag then
      some { s with
        start := .store s.started
        started := s.started + 1
        alive := Function.update s.alive s.started true
        startedAfterStop := s.startedAfterStop || s.stop = .returned }
    else some { s with start := .returned }
  | .store p => some { s with start := .waiting flag, stunnelProcess := some p }
  | .waiting true => some { s with start := .destroy }
  | .waiting false =>
    -- `waitFor` returns when the process has ended
    if s.stunnelProcess.any s.alive then none else some { s with start := .destroy }
  | .destroy => some { s.destroyProcess s.stunnelProcess with start := .checkStopService }
  | .checkStopService => some { s with start := if !s.stopService && flag then .setupConfig else .returned }
  | .returned => none

/-- The next statement of `stop`. `readable` is false when the PID file cannot be read. -/
def stopStep (s : State) (readable : Bool) : Option State :=
  match s.stop with
  | .notCalled => some { s with stop := .setStopService }
  | .setStopService => some { s with stopService := true, stop := .destroy }
  | .destroy => some { s.destroyProcess s.stunnelProcess with stop := .readPid }
  | .readPid =>
    match s.pidFile with
    | none => some { s with stop := .returned }
    | some pid => some { s with stop := .kill (if readable then some pid else none) }
  | .kill pid => some { s.destroyProcess pid with stop := .deletePid }
  | .deletePid => some { s with pidFile := none, stop := .returned }
  | .returned => none

end State

inductive Event
  | start (flag : Bool)
  | stop (readable : Bool)
  /-- A process ends by itself. -/
  | exit (p : Nat)
  /-- A process writes its number into the PID file. -/
  | writePid (p : Nat)
  deriving DecidableEq, Repr

def step (s : State) : Event → Option State
  | .start flag => s.startStep flag
  | .stop readable => s.stopStep readable
  | .exit p => some (s.destroyProcess (some p))
  | .writePid p => if s.alive p then some { s with pidFile := some p } else none

def system : StepSystem.System State Event where
  init s := s = State.initial
  step := step

end HTTProcessManager
end NicVpn
