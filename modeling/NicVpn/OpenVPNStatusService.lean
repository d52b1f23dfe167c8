import NicVpn.Lib.Replica
import NicVpn.Lib.Run

/-! The status of OpenVPN in several processes. `VpnStatus` of the process `:openvpn` tells `OpenVPNStatusService`,
    whose handler sends every update and every log on to the callbacks that are registered; in each other process
    `StatusListener` registers one and tells the `VpnStatus` there. The registration runs on a thread of the binder,
    between any two messages of the handler. -/

namespace NicVpn

inductive ConnectionStatus
  | connected
  | vpnPaused
  | connectingServerReplied
  | connectingNoServerReplyYet
  | noNetwork
  | notConnected
  | start
  | authFailed
  | waitingForUserInput
  | unknownLevel
  deriving DecidableEq, Repr

structure UpdateMessage where
  state : String
  logmessage : String
  resId : Int
  level : ConnectionStatus
  intent : Option String := none
  deriving DecidableEq, Repr

namespace VpnStatus

/-- The status of a process before its first update; the resource is `R.string.state_noprocess`. -/
def noProcess (stateNoprocess : Int) : UpdateMessage :=
  { state := "NOPROCESS", logmessage := "", resId := stateNoprocess, level := .notConnected }

/-- OpenVPN does AUTH and WAIT and is connected. -/
def ignores (last u : UpdateMessage) : Bool := last.level = .connected && (u.state = "WAIT" || u.state = "AUTH")

def updateStateString (last u : UpdateMessage) : UpdateMessage := Replica.take ignores last u

def maxLogEntries : Nat := 1000

/-- The buffer with one more log, cut to its newest entries when it is half as long again. -/
def newLogItem {ι : Type} (logbuffer : List ι) (logItem : ι) : List ι :=
  let logbuffer := logbuffer ++ [logItem]
  if maxLogEntries + maxLogEntries / 2 < logbuffer.length then logbuffer.drop (logbuffer.length - maxLogEntries)
  else logbuffer

end VpnStatus

namespace OpenVPNStatusService

/-- A message of the handler, and of a callback. -/
inductive Message (ι : Type)
  | newState (u : UpdateMessage)
  | newLogItem (logItem : ι)
  deriving DecidableEq

/-- How far `registerStatusCallback` is. -/
inductive Phase
  | unbound
  /-- `getlogbuffer` has returned. -/
  | snapped
  /-- `mLastUpdateMessage` has been sent. -/
  | sent
  | registered
  deriving DecidableEq, Repr

/-- A process with a `StatusListener`. -/
structure Client (ι : Type) where
  phase : Phase := .unbound
  /-- What `pushLogs` writes and `onServiceConnected` has not read. -/
  pipe : List ι := []
  /-- The calls of the callback that are on their way, which are in order. -/
  channel : List (Message ι) := []
  status : UpdateMessage
  /-- The logs that `VpnStatus.newLogItem` has been given. -/
  shown : List ι := []
  /-- Not in the source: the logs of the buffer that was read, and all later ones. -/
  since : List ι := []
  /-- Not in the source: how many messages had been posted when the buffer was read, and when the status was sent. -/
  snapAt : Nat := 0
  sentAt : Nat := 0
  /-- Not in the source: a later log, a later update was handled before the callback was registered. -/
  missedLog : Bool := false
  missedState : Bool := false

structure State (κ ι : Type) where
  status : UpdateMessage
  logbuffer : List ι := []
  /-- `onCreate` has added the service to the listeners. -/
  created : Bool := false
  mLastUpdateMessage : Option UpdateMessage := none
  /-- The messages of `mHandler`. -/
  queue : List (Message ι) := []
  /-- Not in the source: how many messages have been handled. -/
  handled : Nat := 0
  clients : κ → Client ι

inductive Event (κ ι : Type)
  | onCreate
  /-- A call of `VpnStatus.updateStateString`. -/
  | updateStateString (u : UpdateMessage)
  /-- A call of `VpnStatus.newLogItem`. -/
  | newLogItem (logItem : ι)
  /-- A call of `VpnStatus.clearLog`, which logs `information` into the empty buffer. -/
  | clearLog (information : ι)
  | handleMessage
  | getlogbuffer (k : κ)
  | sendUpdate (k : κ)
  | register (k : κ)
  /-- One log is read from the pipe. -/
  | readLog (k : κ)
  /-- One call of the callback is made. -/
  | callback (k : κ)

variable {κ ι : Type} [DecidableEq κ]

namespace Client

/-- A log is posted while the client has the buffer, or is about to be told. -/
def posted (m : Message ι) (c : Client ι) : Client ι :=
  match m with
  | .newState _ => c
  | .newLogItem logItem => if c.phase = .unbound then c else { c with since := c.since ++ [logItem] }

/-- The handler is at the message with the number `n`. -/
def broadcast (n : Nat) (m : Message ι) (c : Client ι) : Client ι :=
  match c.phase, m with
  | .registered, m => { c with channel := c.channel ++ [m] }
  | .snapped, .newLogItem _ | .sent, .newLogItem _ => { c with missedLog := c.missedLog || c.snapAt ≤ n }
  | .sent, .newState _ => { c with missedState := c.missedState || c.sentAt ≤ n }
  | _, _ => c

/-- `mCallback`, for a message that has arrived; the log that an update is ignored is not among those of the
    service. -/
def receive (m : Message ι) (c : Client ι) : Client ι :=
  match m with
  | .newState u => { c with status := VpnStatus.updateStateString c.status u }
  | .newLogItem logItem => { c with shown := c.shown ++ [logItem] }

end Client

namespace State

def set (s : State κ ι) (k : κ) (c : Client ι) : State κ ι := { s with clients := Function.update s.clients k c }

def post (s : State κ ι) (m : Message ι) : State κ ι :=
  { s with queue := s.queue ++ [m], clients := fun k => (s.clients k).posted m }

/-- `updateState` of the service. -/
def updateState (s : State κ ι) (u : UpdateMessage) : State κ ι := { s with mLastUpdateMessage := some u }.post (.newState u)

end State

variable (ignoring : UpdateMessage → ι)

/-- `newLogItem` in the process of the service. -/
def newLogItem (s : State κ ι) (logItem : ι) : State κ ι :=
  let s := { s with logbuffer := VpnStatus.newLogItem s.logbuffer logItem }
  if s.created then s.post (.newLogItem logItem) else s

/-- `updateStateString` in the process of the service; an update that is ignored is logged. -/
def updateStateString (s : State κ ι) (u : UpdateMessage) : State κ ι :=
  if VpnStatus.ignores s.status u then newLogItem s (ignoring u)
  else
    let s := { s with status := u }
    if s.created then s.updateState u else s

def step (s : State κ ι) : Event κ ι → Option (State κ ι)
  | .onCreate => if s.created then none else some ({ s with created := true }.updateState s.status)
  | .updateStateString u => some (updateStateString ignoring s u)
  | .newLogItem logItem => some (newLogItem s logItem)
  | .clearLog information => some (newLogItem { s with logbuffer := [] } information)
  | .handleMessage =>
    match s.queue with
    | [] => none
    | m :: queue =>
      some { s with queue := queue, handled := s.handled + 1, clients := fun k => (s.clients k).broadcast s.handled m }
  | .getlogbuffer k =>
    let c := s.clients k
    if s.created ∧ c.phase = .unbound then
      some (s.set k { c with
        phase := .snapped, pipe := s.logbuffer, since := s.logbuffer, snapAt := s.handled + s.queue.length })
    else none
  | .sendUpdate k =>
    let c := s.clients k
    if c.phase = .snapped then
      some (s.set k { c with
        phase := .sent, channel := c.channel ++ s.mLastUpdateMessage.toList.map .newState
        sentAt := s.handled + s.queue.length })
    else none
  | .register k =>
    let c := s.clients k
    if c.phase = .sent then some (s.set k { c with phase := .registered }) else none
  | .readLog k =>
    let c := s.clients k
    match c.phase, c.pipe with
    | .registered, logItem :: pipe => some (s.set k { c with pipe := pipe, shown := c.shown ++ [logItem] })
    | _, _ => none
  | .callback k =>
    let c := s.clients k
    match c.channel with
    | [] => none
    | m :: channel => some (s.set k ({ c with channel := channel }.receive m))

/-- The processes start without an update; the one of the service has logs already. -/
def system (stateNoprocess : Int) : StepSystem.System (State κ ι) (Event κ ι) where
  init s := s.status = VpnStatus.noProcess stateNoprocess ∧ s.created = false ∧ s.mLastUpdateMessage = none ∧
    s.queue = [] ∧ s.handled = 0 ∧ ∀ k, s.clients k = { status := VpnStatus.noProcess stateNoprocess }
  step := step ignoring

end OpenVPNStatusService
end NicVpn
