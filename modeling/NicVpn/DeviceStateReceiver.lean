import Mathlib.Algebra.Ring.Int.Defs
import NicVpn.Lib.Run

/-! Pausing a VPN. `DeviceStateReceiver` follows the network, the screen and the user, and tells the
    management thread to pause, to resume or to rebind; the thread holds the native process back while it
    waits for a release. -/

namespace NicVpn
namespace DeviceStateReceiver

inductive ConnectState
  | shouldBeConnected
  | pendingDisconnect
  | disconnected
  deriving DecidableEq, Repr

inductive PauseReason
  | noNetwork
  | userPause
  | screenOff
  deriving DecidableEq, Repr

/-- What a connectivity broadcast finds as the active network. -/
structure NetworkInfo where
  type : Int
  extraInfo : Option String
  /-- `getState() == State.CONNECTED` -/
  connected : Bool
  deriving DecidableEq, Repr

structure Datapoint where
  timestamp : Int
  data : Int
  deriving DecidableEq, Repr

def trafficWindow : Int := 60

def trafficLimit : Int := 64 * 1024

/-- The fields of the receiver. -/
structure Device where
  network : ConnectState
  screen : ConnectState
  userpause : ConnectState
  lastConnectedNetwork : Option NetworkInfo
  trafficdata : List Datapoint
  /-- Posts of `mDelayDisconnectRunnable` that have not run yet. -/
  delayed : Nat
  deriving DecidableEq, Repr

namespace Device

def shouldBeConnected (d : Device) : Bool :=
  d.screen = .shouldBeConnected && d.userpause = .shouldBeConnected && d.network = .shouldBeConnected

def getPauseReason (d : Device) : PauseReason :=
  if d.userpause = .disconnected then .userPause
  else if d.screen = .disconnected then .screenOff
  else if d.network = .disconnected then .noNetwork
  else .userPause

/-- The network of a broadcast is the one that was connected last. -/
def sameNetwork (d : Device) (info : NetworkInfo) : Bool :=
  match d.lastConnectedNetwork with
  | none => false
  | some last => last.type = info.type && last.extraInfo = info.extraInfo

/-- Another network, or one whose connection is not established any more: a screen that is about to pause
    pauses now. -/
def reconnected (d : Device) : Device :=
  { d with
    network := .shouldBeConnected
    screen := if d.screen = .pendingDisconnect then .disconnected else d.screen }

end Device

/-- What the receiver and the thread do to the outside. -/
inductive Call
  | pause (reason : PauseReason)
  | holdRelease
  | networkChange (samenetwork : Bool)
  | sigusr1
  deriving DecidableEq, Repr

structure State where
  device : Device
  waitingForRelease : Bool
  /-- Posts of `mResumeHoldRunnable` that have not run yet. -/
  resumeHold : Nat
  lastPauseReason : PauseReason
  /-- The calls so far, each with the receiver at that time. -/
  log : List (Call × Device)
  deriving DecidableEq, Repr

namespace State

def call (s : State) (c : Call) : State := { s with log := (c, s.device) :: s.log }

/-! ### The management thread -/

def releaseHoldCmd (s : State) : State :=
  { s with resumeHold := 0, waitingForRelease := false }.call .holdRelease

def releaseHold (s : State) : State := if s.waitingForRelease then s.releaseHoldCmd else s

def networkChange (s : State) (samenetwork : Bool) : State :=
  if s.waitingForRelease then s.releaseHold else s.call (.networkChange samenetwork)

def signalusr1 (s : State) : State :=
  let s := { s with resumeHold := 0 }
  if s.waitingForRelease then s else s.call .sigusr1

def pause (s : State) (reason : PauseReason) : State :=
  { s.call (.pause reason) with lastPauseReason := reason }.signalusr1

def resume (s : State) : State := { s.releaseHold with lastPauseReason := .noNetwork }

/-- `handleHold`: the release is posted with the wait time when the VPN should run. -/
def handleHold (s : State) : State :=
  { s with
    waitingForRelease := true
    resumeHold := if s.device.shouldBeConnected then s.resumeHold + 1 else s.resumeHold }

def resumeHoldRunnable (s : State) : State :=
  let s := { s with resumeHold := s.resumeHold - 1 }
  if s.device.shouldBeConnected then s.releaseHoldCmd else s

/-! ### The receiver -/

def delayDisconnectRunnable (s : State) : State :=
  let d := { s.device with delayed := s.device.delayed - 1 }
  if d.network = .pendingDisconnect then
    let d := { d with
      network := .disconnected
      screen := if d.screen = .pendingDisconnect then .disconnected else d.screen }
    { s with device := d }.pause d.getPauseReason
  else { s with device := d }

/-- `updateByteCount` at a time in milliseconds. -/
def updateByteCount (s : State) (now diffIn diffOut : Int) : State :=
  if s.device.screen ≠ .pendingDisconnect then s
  else
    let added := s.device.trafficdata ++ [{ timestamp := now, data := diffIn + diffOut }]
    let trafficdata := added.dropWhile fun dp => dp.timestamp ≤ now - trafficWindow * 1000
    let d := { s.device with trafficdata }
    if (trafficdata.map (·.data)).sum < trafficLimit then
      let d := { d with screen := .disconnected }
      { s with device := d }.pause d.getPauseReason
    else { s with device := d }

def userPause (s : State) (pause : Bool) : State :=
  if pause then
    let d := { s.device with userpause := .disconnected }
    { s with device := d }.pause d.getPauseReason
  else
    let wereConnected := s.device.shouldBeConnected
    let d := { s.device with userpause := .shouldBeConnected }
    if d.shouldBeConnected && !wereConnected then { s with device := d }.resume
    else { s with device := d }.pause d.getPauseReason

/-- `ACTION_SCREEN_OFF`, with the preference `screenoff`. -/
def onScreenOff (s : State) (screenOffPause : Bool) (now : Int) : State :=
  if screenOffPause then
    { s with device := { s.device with
        trafficdata := s.device.trafficdata ++ [⟨now, trafficLimit⟩]
        screen := if s.device.network = .disconnected ∨ s.device.userpause = .disconnected then .disconnected
          else .pendingDisconnect } }
  else s

def onScreenOn (s : State) : State :=
  let connected := s.device.shouldBeConnected
  let d := { s.device with screen := .shouldBeConnected, delayed := 0 }
  if d.shouldBeConnected ≠ connected then { s with device := d }.resume
  else if !d.shouldBeConnected then { s with device := d }.pause d.getPauseReason
  else { s with device := d }

def setLastConnectedNetwork (s : State) (info : NetworkInfo) : State :=
  { s with device := { s.device with lastConnectedNetwork := some info } }

/-- `networkStateChange` on a connected network. -/
def networkConnected (s : State) (info : NetworkInfo) : State :=
  let pendingDisconnect : Bool := s.device.network = .pendingDisconnect
  let sameNetwork := s.device.sameNetwork info
  if pendingDisconnect && sameNetwork then
    { s with device := { s.device with network := .shouldBeConnected, delayed := 0 } }.networkChange true
  else
    let d := s.device.reconnected
    if d.shouldBeConnected then
      let s := { s with device := { d with delayed := 0 } }
      (if pendingDisconnect || !sameNetwork then s.networkChange sameNetwork else s.resume).setLastConnectedNetwork info
    else { s with device := d }.setLastConnectedNetwork info

/-- `networkStateChange`, with the preference `netchangereconnect`. A network that is not connected is
    only logged. -/
def networkStateChange (s : State) (networkInfo : Option NetworkInfo) (sendusr1 : Bool) : State :=
  match networkInfo with
  | some info => if info.connected then s.networkConnected info else s
  | none =>
    if sendusr1 then
      { s with device := { s.device with network := .pendingDisconnect, delayed := s.device.delayed + 1 } }
    else s

/-- A new receiver. A hold may have come before it. -/
def initial (waitingForRelease : Bool) : State where
  device :=
    { network := .disconnected
      screen := .shouldBeConnected
      userpause := .shouldBeConnected
      lastConnectedNetwork := none
      trafficdata := []
      delayed := 0 }
  waitingForRelease := waitingForRelease
  resumeHold := 0
  lastPauseReason := .noNetwork
  log := []

end State

inductive Event
  | userPause (pause : Bool)
  | screenOff (screenOffPause : Bool) (now : Int)
  | screenOn
  | connectivity (networkInfo : Option NetworkInfo) (sendusr1 : Bool)
  | delayDisconnect
  | byteCount (now diffIn diffOut : Int)
  | hold (waittime : Int)
  | resumeHold
  deriving DecidableEq, Repr

def step (s : State) : Event → Option State
  | .userPause pause => some (s.userPause pause)
  | .screenOff screenOffPause now => some (s.onScreenOff screenOffPause now)
  | .screenOn => some s.onScreenOn
  | .connectivity networkInfo sendusr1 => some (s.networkStateChange networkInfo sendusr1)
  | .delayDisconnect => if 0 < s.device.delayed then some s.delayDisconnectRunnable else none
  | .byteCount now diffIn diffOut => some (s.updateByteCount now diffIn diffOut)
  | .hold _ => some s.handleHold
  | .resumeHold => if 0 < s.resumeHold then some s.resumeHoldRunnable else none

/-- The events of the device, the user and the native process, in any order. -/
def system : StepSystem.System State Event where
  init s := ∃ waitingForRelease, s = State.initial waitingForRelease
  step := step

end DeviceStateReceiver
end NicVpn
