import NicVpn.Lib.Run

/-! The service `Connection_Timer`. Each instance of the service has one `java.util.Timer`, whose
    periodic tasks post a runnable that replaces the countdown, and at most one countdown at a time. An
    instance that was destroyed may still have runnables in the queue of the main thread. -/

namespace NicVpn
namespace ConnectionTimer

/-- A `TimeTask`, with the number of the `onStartCommand` that scheduled it. -/
structure TimeTask where
  start : Nat
  time : Int
  deriving DecidableEq, Repr

structure Instance where
  value : Int
  cancelled : Bool
  /-- The tasks that `timer` runs periodically. -/
  tasks : List TimeTask
  /-- Runnables of `mHandler` that have not run yet, the oldest first. -/
  posted : List TimeTask
  /-- `countDownTimer`, by the task that created it. -/
  countDownTimer : Option TimeTask
  counting : Bool
  deriving DecidableEq, Repr

namespace Instance

def create : Instance where
  value := 0
  cancelled := false
  tasks := []
  posted := []
  countDownTimer := none
  counting := false

/-- The value that `onStartCommand` schedules with: the intent's, else the one before, and a minute for none. -/
def startValue (i : Instance) (milliseconds : Option Int) : Int :=
  let value := milliseconds.getD i.value
  if value = 0 then 60000 else value

/-- `onStartCommand`. Scheduling throws for a negative period and on a cancelled timer. -/
def onStartCommand (i : Instance) (start : Nat) (milliseconds : Option Int) : Except Unit Instance :=
  let value := i.startValue milliseconds
  if value < 0 ∨ i.cancelled then .error ()
  else .ok { i with value, tasks := i.tasks ++ [{ start, time := value }] }

/-- `TimeTask.run` of a scheduled task. -/
def fire (i : Instance) (k : Nat) : Option Instance :=
  i.tasks[k]?.map fun task => { i with posted := i.posted ++ [task] }

/-- The oldest posted runnable: a new countdown replaces the one before. -/
def handle (i : Instance) : Option Instance :=
  match i.posted with
  | [] => none
  | task :: posted => some { i with posted, countDownTimer := some task, counting := true }

/-- `onTick`: a remaining time under a second ends the countdown, and the timer stays. -/
def onTick (i : Instance) (millisUntilFinished : Nat) : Option Instance :=
  if i.counting then some (if millisUntilFinished / 1000 ≠ 0 then i else { i with counting := false }) else none

/-- `onFinish`: the queue and the timer are cleared as well. -/
def onFinish (i : Instance) : Option Instance :=
  if i.counting then some { i with posted := [], counting := false, cancelled := true, tasks := [] } else none

/-- `onDestroy`: without a countdown the queue keeps its runnables. -/
def onDestroy (i : Instance) : Instance :=
  let i := { i with cancelled := true, tasks := [] }
  if i.countDownTimer.isSome then { i with counting := false, posted := [] } else i

end Instance

/-- Which instance an event of the main thread belongs to. -/
inductive Place
  | alive
  | dead (k : Nat)
  deriving DecidableEq, Repr

structure State where
  /-- The number of `onStartCommand` calls so far. -/
  starts : Nat
  alive : Option Instance
  dead : List Instance
  thrown : Bool
  /-- The value 0 was broadcast for the most recent `onStartCommand`. -/
  expired : Bool
  /-- A countdown started after that. -/
  restarted : Bool
  deriving DecidableEq, Repr

namespace State

def initial : State where
  starts := 0
  alive := none
  dead := []
  thrown := false
  expired := false
  restarted := false

def get (s : State) : Place → Option Instance
  | .alive => s.alive
  | .dead k => s.dead[k]?

def set (s : State) (i : Instance) : Place → State
  | .alive => { s with alive := some i }
  | .dead k => { s with dead := s.dead.set k i }

/-- The value 0 is broadcast by a countdown of `task`. -/
def broadcastZero (s : State) (task : Option TimeTask) : State :=
  { s with expired := s.expired || (task.map (·.start) == some s.starts) }

end State

inductive Event
  | startCommand (milliseconds : Option Int)
  | fire (k : Nat)
  | handle (p : Place)
  | tick (p : Place) (millisUntilFinished : Nat)
  | finish (p : Place)
  | destroy
  deriving DecidableEq, Repr

def step (s : State) : Event → Option State
  | .startCommand milliseconds =>
    -- the first call after a destruction creates an instance
    let s := { s with starts := s.starts + 1, expired := false }
    match (s.alive.getD .create).onStartCommand s.starts milliseconds with
    | .ok i => some { s with alive := some i }
    | .error _ => some { s with thrown := true }
  | .fire k => do
    let i ← (← s.alive).fire k
    return { s with alive := some i }
  | .handle p => do
    let i ← (← s.get p).handle
    return { s.set i p with restarted := s.restarted || s.expired }
  | .tick p millisUntilFinished => do
    let i ← s.get p
    let i' ← i.onTick millisUntilFinished
    return if millisUntilFinished / 1000 ≠ 0 then s.set i' p else (s.set i' p).broadcastZero i.countDownTimer
  | .finish p => do
    let i ← s.get p
    let i' ← i.onFinish
    return (s.set i' p).broadcastZero i.countDownTimer
  | .destroy => do
    let i ← s.alive
    return { s with alive := none, dead := i.onDestroy :: s.dead }

/-- The service with its calls and callbacks in any order. -/
def system : StepSystem.System State Event where
  init s := s = State.initial
  step := step

end ConnectionTimer
end NicVpn
