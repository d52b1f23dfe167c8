import NicVpn.Lib.Run
import Mathlib.Logic.Function.Basic

/-! `DnsService` and the helpers it starts. `FastDnsProcess`, `DnsttProcess` and `UdpModeProcess` have one
    body: a singleton whose supervising thread starts a helper and starts it again when it exits, and
    whose `destroy` interrupts the thread and ends the helper in its fields. The main thread, the
    supervising threads and the helpers step in any order. -/

namespace NicVpn
namespace DnsService

inductive Kind
  | dnstt
  | fastDns
  | udpMode
  deriving DecidableEq, Repr

def Kind.connection : Kind → String
  | .dnstt => "DNSTT"
  | .fastDns => "FastDNS"
  | .udpMode => "UDP MODE [Developing]"

/-- The wrapper that the tests on `type_conn` choose. -/
def kindOf (typeConn : String) : Option Kind :=
  if typeConn = Kind.dnstt.connection then some .dnstt
  else if typeConn = Kind.fastDns.connection then some .fastDns
  else if typeConn = Kind.udpMode.connection then some .udpMode
  else none

inductive Pc
  /-- Before `isDestroyed = false`. -/
  | entered
  /-- At the test of the loop. -/
  | loop
  /-- Past the test, before the helper is started. -/
  | spawning
  /-- In `waitFor` of a helper. -/
  | waiting (process : Nat)
  | ended
  deriving DecidableEq, Repr

structure Supervisor where
  kind : Kind
  pc : Pc
  interrupted : Bool
  /-- It has released the semaphore that `start` waits for. -/
  released : Bool
  deriving DecidableEq, Repr

structure Wrapper where
  isDestroyed : Bool
  thread : Nat
  process : Option Nat
  deriving DecidableEq, Repr

inductive Stage
  | setDestroyed
  | interrupt
  | destroyProcess
  | join
  deriving DecidableEq, Repr

inductive Main
  | idle
  /-- In `start`, waiting for the semaphore of a thread. -/
  | starting (thread : Nat)
  /-- In `destroy` of a wrapper, called by `onDestroy`. -/
  | destroying (kind : Kind) (stage : Stage)
  deriving DecidableEq, Repr

structure State where
  wrappers : Kind → Wrapper
  threads : Nat → Supervisor
  nextThread : Nat
  alive : Nat → Bool
  nextProcess : Nat
  /-- `type_conn` of the service, when there is one. -/
  service : Option String
  main : Main

namespace State

def initial : State where
  wrappers := fun _ => { isDestroyed := false, thread := 0, process := none }
  threads := fun _ => { kind := .dnstt, pc := .ended, interrupted := false, released := true }
  nextThread := 0
  alive := fun _ => false
  nextProcess := 0
  service := none
  main := .idle

def setThread (s : State) (t : Nat) (f : Supervisor → Supervisor) : State :=
  { s with threads := Function.update s.threads t (f (s.threads t)) }

def setWrapper (s : State) (k : Kind) (f : Wrapper → Wrapper) : State :=
  { s with wrappers := Function.update s.wrappers k (f (s.wrappers k)) }

/-- `process.destroy()`, on a field that may be null. -/
def kill (s : State) : Option Nat → State
  | some p => { s with alive := Function.update s.alive p false }
  | none => s

/-! ### The main thread -/

/-- `start` of a wrapper: a new thread replaces the one in the field. -/
def start (s : State) (k : Kind) : State :=
  { s with
    wrappers := Function.update s.wrappers k { s.wrappers k with thread := s.nextThread }
    threads := Function.update s.threads s.nextThread
      { kind := k, pc := .entered, interrupted := false, released := false }
    nextThread := s.nextThread + 1
    main := .starting s.nextThread }

/-- `onStartCommand`. An intent without `type_conn` keeps the one before. -/
def onStartCommand (s : State) (typeConn : Option String) : State :=
  let type := typeConn.getD (s.service.getD "")
  let s := { s with service := some type }
  match kindOf type with
  | some k => s.start k
  | none => s

/-- `onDestroy`, up to the `destroy` of the wrapper of the last type. -/
def onDestroy (s : State) (type : String) : State :=
  match kindOf type with
  | some k => { s with main := .destroying k .setDestroyed }
  | none => { s with service := none }

/-- The next statement of `destroy`. -/
def destroyStep (s : State) (k : Kind) : Stage → Option State
  | .setDestroyed =>
    some { s.setWrapper k fun w => { w with isDestroyed := true } with main := .destroying k .interrupt }
  | .interrupt =>
    some { s.setThread (s.wrappers k).thread fun t => { t with interrupted := true } with
      main := .destroying k .destroyProcess }
  | .destroyProcess => some { s.kill (s.wrappers k).process with main := .destroying k .join }
  | .join =>
    if (s.threads (s.wrappers k).thread).pc = .ended then some { s with main := .idle, service := none } else none

/-! ### A supervising thread -/

def finish (s : State) (t : Nat) : State := s.setThread t fun th => { th with pc := .ended, released := true }

/-- The next step of a thread that is not in `waitFor`. `ok` says whether the helper can be started. -/
def threadStep (s : State) (t : Nat) (ok : Bool) : Option State :=
  let th := s.threads t
  match th.pc with
  | .entered =>
    some ((s.setWrapper th.kind fun w => { w with isDestroyed := false }).setThread t fun th => { th with pc := .loop })
  | .loop =>
    if (s.wrappers th.kind).isDestroyed then some (s.finish t)
    else some (s.setThread t fun th => { th with pc := .spawning })
  | .spawning =>
    if ok then
      some { (s.setWrapper th.kind fun w => { w with process := some s.nextProcess }).setThread t fun th =>
          { th with pc := .waiting s.nextProcess, released := true } with
        alive := Function.update s.alive s.nextProcess true
        nextProcess := s.nextProcess + 1 }
    else some (s.finish t)
  | .waiting _ => none
  | .ended => none

/-- `waitFor` returns. A helper that ran less than a second is not started again. -/
def waitReturns (s : State) (t : Nat) (quick : Bool) : Option State :=
  match (s.threads t).pc with
  | .waiting p =>
    if s.alive p then none
    else
      let s := s.setThread t fun th => { th with pc := .loop }
      some (if quick then s.setWrapper (s.threads t).kind fun w => { w with isDestroyed := true } else s)
  | _ => none

/-- `waitFor` is interrupted: the helper in the field is ended. -/
def waitInterrupted (s : State) (t : Nat) : Option State :=
  match (s.threads t).pc with
  | .waiting _ =>
    if (s.threads t).interrupted then some ((s.kill (s.wrappers (s.threads t).kind).process).finish t) else none
  | _ => none

def AllEnded (s : State) : Prop := ∀ t < s.nextThread, (s.threads t).pc = .ended

instance (s : State) : Decidable s.AllEnded := inferInstanceAs (Decidable (∀ t < s.nextThread, _))

end State

inductive Event
  | startCommand (typeConn : Option String)
  | started
  | destroy
  | destroyStep
  | threadStep (t : Nat) (ok : Bool)
  | waitReturns (t : Nat) (quick : Bool)
  | waitInterrupted (t : Nat)
  | exit (p : Nat)
  deriving DecidableEq, Repr

def step (s : State) : Event → Option State
  | .startCommand typeConn => if s.main = .idle then some (s.onStartCommand typeConn) else none
  | .started =>
    match s.main with
    | .starting t => if (s.threads t).released then some { s with main := .idle } else none
    | _ => none
  | .destroy =>
    match s.service with
    | some type => if s.main = .idle then some (s.onDestroy type) else none
    | none => none
  | .destroyStep =>
    match s.main with
    | .destroying k stage => s.destroyStep k stage
    | _ => none
  | .threadStep t ok => s.threadStep t ok
  | .waitReturns t quick => s.waitReturns t quick
  | .waitInterrupted t => s.waitInterrupted t
  | .exit p => some { s with alive := Function.update s.alive p false }

/-- The service, its threads and its helpers in any order of steps. -/
def system : StepSystem.System State Event where
  init s := s = State.initial
  step := step

end DnsService
end NicVpn
