import NicVpn.Lib.Run

/-! The tun2socks process of the V2Ray service. `setup` sets the flag `isRunning` and starts the process; a watcher
    thread waits for its end and starts it again while the flag is set; `stopV2Ray` clears the flag and destroys the
    process that the field `process` names. Flag and field are shared by all threads without a lock. -/

namespace NicVpn
namespace V2RayVpnService

inductive Request
  | start
  | stop
  deriving DecidableEq, Repr

/-- Where a thread is that runs `runTun2socks`, or the watcher that `runTun2socks` starts. -/
inductive Pc
  | startProcess
  /-- The process is started, and not yet in the field. -/
  | assign (pid : Nat)
  | startWatcher
  /-- The watcher, before it reads the field. -/
  | readField
  | waitFor (pid : Nat)
  | testFlag
  deriving DecidableEq, Repr

structure State where
  isRunning : Bool
  process : Option Nat
  /-- The processes that have been started are those below. -/
  fresh : Nat
  alive : List Nat
  /-- `destroy` was called. -/
  destroyed : List Nat
  threads : List Pc
  /-- The calls of `stopV2Ray` that have cleared the flag and have not destroyed the process yet. -/
  stops : Nat
  last : Option Request
  deriving DecidableEq, Repr

namespace State

def initial : State where
  isRunning := false
  process := none
  fresh := 0
  alive := []
  destroyed := []
  threads := []
  stops := 0
  last := none

/-- `setup` from `isRunning = true` on. -/
def setup (s : State) : State :=
  { s with isRunning := true, threads := s.threads ++ [.startProcess], last := some .start }

/-- `stopV2Ray` up to `process.destroy()`. -/
def stopV2Ray (s : State) : State := { s with isRunning := false, stops := s.stops + 1, last := some .stop }

/-- `process.destroy()`, where the exception of an uninitialized field is caught. -/
def destroy (s : State) : Option State :=
  if 0 < s.stops then some { s with stops := s.stops - 1, destroyed := s.process.toList ++ s.destroyed } else none

/-- A process ends, by itself or because it was destroyed. -/
def exit (s : State) (pid : Nat) : Option State :=
  if pid ∈ s.alive then some { s with alive := s.alive.erase pid } else none

def goto (s : State) (i : Nat) (pc : Pc) : State := { s with threads := s.threads.set i pc }

def ends (s : State) (i : Nat) : State := { s with threads := s.threads.eraseIdx i }

/-- The next step of a thread. `throws` tells whether `ProcessBuilder.start` throws, where it is called. -/
def run (s : State) (i : Nat) (throws : Bool) : Option State :=
  match s.threads[i]? with
  | none => none
  | some .startProcess =>
    if throws then some (s.ends i)
    else some { s.goto i (.assign s.fresh) with fresh := s.fresh + 1, alive := s.fresh :: s.alive }
  | some (.assign pid) => some { s.goto i .startWatcher with process := some pid }
  -- The thread of `runTun2socks` has done its part, and the watcher goes on.
  | some .startWatcher => some (s.goto i .readField)
  | some .readField =>
    match s.process with
    | some pid => some (s.goto i (.waitFor pid))
    | none => some (s.ends i)
  | some (.waitFor pid) => if pid ∈ s.alive then none else some (s.goto i .testFlag)
  | some .testFlag => some (if s.isRunning then s.goto i .startProcess else s.ends i)

end State

inductive Event
  | setup
  | stopV2Ray
  | destroy
  | exit (pid : Nat)
  | run (i : Nat) (throws : Bool)
  deriving DecidableEq, Repr

def step (s : State) : Event → Option State
  | .setup => some s.setup
  | .stopV2Ray => some s.stopV2Ray
  | .destroy => s.destroy
  | .exit pid => s.exit pid
  | .run i throws => s.run i throws

/-- Any number of starts, stops and exits, in any order. -/
def system : StepSystem.System State Event where
  init s := s = State.initial
  step := step

end V2RayVpnService
end NicVpn
