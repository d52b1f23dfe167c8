import NicVpn.Prefs
import NicVpn.Lib.Clock
import NicVpn.Lib.Run

/-! The start screen: four tabs, the start and stop buttons of the five modes, their confirmation
    dialogs, the delayed start of V2Ray, the countdown broadcasts and restarts of the application. A step
    is one callback on the main thread. What the services are told to do is part of the state, what they
    then do by themselves is not; whether the network, the tunnel interface or a permission is there when
    a callback asks for it comes with the event. -/

namespace NicVpn
namespace StartFragment

/-! ### Modes, tabs and layouts -/

inductive Mode
  | fastDns
  | udpMode
  | openVpn
  | dnsTT
  | v2Ray
  deriving DecidableEq, Repr

theorem Mode.forall_iff {p : Mode → Prop} :
    (p .fastDns ∧ p .udpMode ∧ p .openVpn ∧ p .dnsTT ∧ p .v2Ray) ↔ ∀ m, p m := by
  constructor
  · rintro ⟨h₁, h₂, h₃, h₄, h₅⟩ m
    cases m <;> assumption
  · exact fun h => ⟨h _, h _, h _, h _, h _⟩

instance (p : Mode → Prop) [DecidablePred p] : Decidable (∀ m, p m) := decidable_of_iff _ Mode.forall_iff

/-- The preference that says whether the mode is started. -/
def Mode.startedKey : Mode → String
  | .fastDns => DmPrefsKeys.startedFastDns
  | .udpMode => DmPrefsKeys.startedUdpMode
  | .openVpn => DmPrefsKeys.startedOpenVpn
  | .dnsTT => DmPrefsKeys.startedDnsTT
  | .v2Ray => DmPrefsKeys.startedV2Ray

def Mode.connection : Mode → String
  | .fastDns => "FastDNS"
  | .udpMode => "UDP MODE [Developing]"
  | .openVpn => "OpenVPN"
  | .dnsTT => "DNSTT"
  | .v2Ray => "V2Ray"

inductive Method
  | fastDns
  | dnsTT
  | openVpn
  | v2Ray
  deriving DecidableEq, Repr

def Method.connection : Method → String
  | .fastDns => "FastDNS"
  | .dnsTT => "DNSTT"
  | .openVpn => "OpenVPN"
  | .v2Ray => "V2Ray"

def connectionMethods : List Method := [.fastDns, .dnsTT, .openVpn, .v2Ray]

/-- The layouts that hold a start button. -/
inductive Layout
  | fastDns
  | dnsTT
  | v2RayNG
  deriving DecidableEq, Repr

def Method.layout : Method → Layout
  | .fastDns => .fastDns
  | .dnsTT => .dnsTT
  | .openVpn => .fastDns
  | .v2Ray => .v2RayNG

/-- The layout that `onItemSelected` shows for an item; the other connection types have no start button
    of these modes. -/
def layoutOf (item : String) : Option Layout :=
  let item := String.ofList (Text.trim item.toList)
  if item = Mode.fastDns.connection ∨ item = Mode.openVpn.connection ∨ item = Mode.udpMode.connection then
    some .fastDns
  else if item = Mode.dnsTT.connection then some .dnsTT
  else if item = Mode.v2Ray.connection then some .v2RayNG
  else none

/-- A dialog that waits for an answer: the two alerts of this screen, and the activity `DisconnectVPN`. -/
inductive Dialog
  | dnsTT
  | v2Ray
  | disconnectVPN
  deriving DecidableEq, Repr

/-! ### State -/

structure State where
  /-- The preferences `STARTED_*`, by key. -/
  started : String → Bool
  typeConnection : String
  isImportFile : Bool
  /-- The selected item of `spConnectionMethod`. -/
  selected : Method
  layout : Option Layout
  /-- Delayed starts of V2Ray that have not run yet. -/
  delayedV2Ray : Nat
  /-- Open dialogs, the top one first. They take all clicks. -/
  dialogs : List Dialog
  timerConnecting : Bool
  dnsService : Bool
  openVpn : Bool
  v2Ray : Bool
  /-- The length in milliseconds that `Connection_Timer` runs with. -/
  connectionTimer : Option Nat
  /-- The text of `timeLeft_val`. -/
  timeLeft : String

namespace State

def isStarted (s : State) (m : Mode) : Bool := s.started m.startedKey

def putStarted (s : State) (m : Mode) (v : Bool) : State :=
  { s with started := fun k => if k = m.startedKey then v else s.started k }

/-! ### Tabs -/

/-- `onItemSelected`: an imported configuration keeps its connection type. -/
def onItemSelected (s : State) : State :=
  if s.isImportFile then { s with layout := layoutOf s.typeConnection }
  else { s with typeConnection := s.selected.connection, layout := layoutOf s.selected.connection }

/-- `spConnectionMethod.setSelection`: the listener runs when the selection changes. -/
def setSelection (s : State) (m : Method) : State :=
  if s.selected = m then s else { s with selected := m }.onItemSelected

/-- The tests behind `Disconnect VPN First`. -/
def isConnected (s : State) : Bool :=
  s.isStarted .fastDns || s.isStarted .dnsTT || s.isStarted .v2Ray || s.isStarted .openVpn

/-- `txt_fastdns`, `txt_dnstt`, `txt_openvpn` and `txt_v2ray`: the tab shows its layout, and the listener
    of the selection runs after it. -/
def clickTab (s : State) (m : Method) : State :=
  if s.isConnected then s else { s with layout := some m.layout }.setSelection m

/-! ### Time -/

def setInitialValueTime (s : State) (timerVal : Nat) (tunnel : Bool) : State :=
  if tunnel then s else { s with timeLeft := Clock.minutesText timerVal }

/-- `Connection_Timer.onStartCommand`: no time means one minute. -/
def startConnectionTimer (s : State) (milliseconds : Nat) : State :=
  { s with connectionTimer := some (if milliseconds = 0 then 60000 else milliseconds) }

def startServiceToCalculate (s : State) : State :=
  let s := if Text.contains "00:00:00".toList s.timeLeft.toList then { s with timeLeft := "00:1:00" } else s
  match Clock.parse s.timeLeft.toList with
  | some milliseconds => s.startConnectionTimer milliseconds
  | none => s

/-! ### Start and stop -/

def openVpnConnection (s : State) (timerVal : Nat) (granted : Bool) : State :=
  if !s.isStarted .openVpn then
    { s.putStarted .openVpn true with openVpn := s.openVpn || granted, timerConnecting := true }
  else
    { s.putStarted .openVpn false with
      connectionTimer := none
      dialogs := .disconnectVPN :: s.dialogs
      timeLeft := Clock.minutesText timerVal }

def fastDnsConnection (s : State) (timerVal : Nat) (granted : Bool) : State :=
  if !s.isStarted .fastDns then
    { s.putStarted .fastDns true with dnsService := true, openVpn := s.openVpn || granted, timerConnecting := true }
  else
    { s.putStarted .fastDns false with
      dnsService := false
      connectionTimer := none
      dialogs := .disconnectVPN :: s.dialogs
      timeLeft := Clock.minutesText timerVal }

/-- `udpModeConnection`: its stop ends V2Ray, which this mode does not start. -/
def udpModeConnection (s : State) (granted : Bool) : State :=
  if !s.isStarted .udpMode then
    { s.putStarted .udpMode true with dnsService := true, openVpn := s.openVpn || granted, timerConnecting := true }
  else
    { s.putStarted .udpMode false with dnsService := false, v2Ray := false }

/-- The mode that `btnFastDNSStart` serves. -/
def buttonMode (s : State) : Mode :=
  if s.typeConnection = Mode.openVpn.connection then .openVpn
  else if s.typeConnection = Mode.udpMode.connection then .udpMode
  else .fastDns

def btnFastDNSStart (s : State) (timerVal : Nat) (granted : Bool) : State :=
  if s.typeConnection = Mode.openVpn.connection then s.openVpnConnection timerVal granted
  else if s.typeConnection = Mode.udpMode.connection then s.udpModeConnection granted
  else s.fastDnsConnection timerVal granted

def btnDNSTTStart (s : State) (granted : Bool) : State :=
  if !s.isStarted .dnsTT then
    { s.putStarted .dnsTT true with dnsService := true, v2Ray := s.v2Ray || granted, timerConnecting := true }
  else { s with dialogs := .dnsTT :: s.dialogs }

/-- The listener of `btnStartV2RayCC`: the start itself comes 500 ms later. -/
def btnStartV2RayCC (s : State) : State :=
  if !s.isStarted .v2Ray then { s with delayedV2Ray := s.delayedV2Ray + 1 }
  else { s with dialogs := .v2Ray :: s.dialogs }

def startV2Ray (s : State) (granted : Bool) : State :=
  { s.putStarted .v2Ray true with
    delayedV2Ray := s.delayedV2Ray - 1
    v2Ray := s.v2Ray || granted
    timerConnecting := true }

/-- The positive answer of a dialog. `DisconnectVPN` stops the session only when its service is bound. -/
def confirm (s : State) (timerVal : Nat) (bound : Bool) : Dialog → State
  | .dnsTT =>
    { s.putStarted .dnsTT false with
      dnsService := false, v2Ray := false, connectionTimer := none, timeLeft := Clock.minutesText timerVal }
  | .v2Ray =>
    { s.putStarted .v2Ray false with
      connectionTimer := none, v2Ray := false, timeLeft := Clock.minutesText timerVal }
  | .disconnectVPN => { s with openVpn := s.openVpn && !bound }

/-! ### Countdown -/

/-- The preferences that an expiry clears, whatever the selection. -/
def clearStarted (s : State) : State :=
  s.putStarted .fastDns false |>.putStarted .openVpn false |>.putStarted .dnsTT false |>.putStarted .v2Ray false

/-- What an expiry does for the selected item. -/
def expire (s : State) : State :=
  let s := { s with connectionTimer := none }
  match s.selected with
  | .fastDns => { s.clearStarted with dialogs := .disconnectVPN :: s.dialogs }
  | .dnsTT => { s.clearStarted with dnsService := false, v2Ray := false }
  | .openVpn => { s.clearStarted with dialogs := .disconnectVPN :: s.dialogs }
  | .v2Ray => { s.clearStarted with v2Ray := false }

def onReceive (s : State) (millisUntilFinished : Nat) (tunnel : Bool) : State :=
  if tunnel then
    if millisUntilFinished = 0 then s.expire
    else { s with timeLeft := Clock.format millisUntilFinished }
  else { s with connectionTimer := none }

def connectingTick (s : State) (tunnel : Bool) : State :=
  if tunnel then { s with timerConnecting := false }.startServiceToCalculate else s

def connectingFinish (s : State) : State :=
  { s with timerConnecting := false, connectionTimer := none }

/-- The application opens on the stored preferences. A connection type that is no tab selects FastDNS;
    callbacks of the screen before find no context any more. -/
def onCreateView (s : State) (timerVal : Nat) (tunnel : Bool) : State :=
  { s with
    selected := (connectionMethods.find? fun m : Method => m.connection = s.typeConnection).getD .fastDns
    delayedV2Ray := 0
    dialogs := []
    timerConnecting := false
    timeLeft := "00:00:00" }.onItemSelected.setInitialValueTime timerVal tunnel

/-- Something waits to run: a delayed start, a dialog or `timer_connecting`. -/
def Pending (s : State) : Prop := 0 < s.delayedV2Ray ∨ s.dialogs ≠ [] ∨ s.timerConnecting = true

end State

/-! ### Events -/

inductive Event
  | tab (m : Method)
  | fastDnsButton (network granted : Bool)
  | dnsTTButton (network granted : Bool)
  | v2RayButton (network : Bool)
  | delayedStart (granted : Bool)
  | answerYes (bound : Bool)
  | answerNo
  | countdown (millisUntilFinished : Nat) (tunnel : Bool)
  | connectingTick (tunnel : Bool)
  | connectingFinish
  | resume (tunnel : Bool)
  | restart (tunnel : Bool)
  | reward
  deriving DecidableEq, Repr

/-- A click needs its button in sight and no dialog over it. -/
def clickable (s : State) (l : Layout) : Prop := s.dialogs = [] ∧ s.layout = some l

instance (s : State) (l : Layout) : Decidable (clickable s l) :=
  inferInstanceAs (Decidable (_ ∧ _))

/-- One callback. The listener of an earned reward declares a function and does not call it. -/
def step (timerVal : Nat) (s : State) : Event → Option State
  | .tab m => if s.dialogs = [] then some (s.clickTab m) else none
  | .fastDnsButton network granted =>
    if clickable s .fastDns then some (if network then s.btnFastDNSStart timerVal granted else s) else none
  | .dnsTTButton network granted =>
    if clickable s .dnsTT then some (if network then s.btnDNSTTStart granted else s) else none
  | .v2RayButton network =>
    if clickable s .v2RayNG then some (if network then s.btnStartV2RayCC else s) else none
  | .delayedStart granted => if 0 < s.delayedV2Ray then some (s.startV2Ray granted) else none
  | .answerYes bound =>
    match s.dialogs with
    | [] => none
    | d :: ds => some ({ s with dialogs := ds }.confirm timerVal bound d)
  | .answerNo =>
    match s.dialogs with
    | [] => none
    | _ :: ds => some { s with dialogs := ds }
  | .countdown millisUntilFinished tunnel => some (s.onReceive millisUntilFinished tunnel)
  | .connectingTick tunnel => if s.timerConnecting then some (s.connectingTick tunnel) else none
  | .connectingFinish => if s.timerConnecting then some s.connectingFinish else none
  | .resume tunnel => some (s.setInitialValueTime timerVal tunnel)
  | .restart tunnel => some (s.onCreateView timerVal tunnel)
  | .reward => some s

/-- The mode that an event starts, when it takes the branch that starts one. -/
def Event.starts (s : State) : Event → Option Mode
  | .fastDnsButton true _ => if s.isStarted s.buttonMode then none else some s.buttonMode
  | .dnsTTButton true _ => if s.isStarted .dnsTT then none else some .dnsTT
  | .delayedStart _ => some .v2Ray
  | _ => none

def Event.expiry : Event → Option Bool
  | .countdown 0 tunnel => some tunnel
  | _ => none

/-! ### Histories -/

/-- What has happened so far, beside what the code stores. -/
structure History where
  /-- The mode has been started, and neither stopped nor expired since. -/
  active : Mode → Bool
  /-- Rewards earned since the previous connection ended. -/
  rewards : Nat
  /-- Their number when the present countdown began. -/
  rewardsAtStart : Nat
  /-- Some connection was ended by the countdown. -/
  endedByCountdown : Bool
  /-- The remaining time on the screen was reset to the server's, and no tick was displayed since. -/
  reset : Bool

namespace History

def setActive (h : History) (m : Mode) (v : Bool) : History :=
  { h with active := fun n => if n = m then v else h.active n }

/-- A connection ends: its mode is stopped, and rewards count for the next one. UDP mode's stop does
    not reset the remaining time. -/
def stop (h : History) (m : Mode) : History :=
  { h.setActive m false with rewards := 0, reset := h.reset || m ≠ .udpMode }

/-- A click on a button that starts or stops its mode at once. -/
def toggle (h : History) (s : State) (m : Mode) : History :=
  if s.isStarted m then h.stop m else h.setActive m true

/-- The history after an event that occurs in `s`. -/
def next (h : History) (s : State) : Event → History
  | .fastDnsButton true _ => h.toggle s s.buttonMode
  | .dnsTTButton true _ => if s.isStarted .dnsTT then h else h.setActive .dnsTT true
  | .delayedStart _ => h.setActive .v2Ray true
  | .answerYes _ =>
    match s.dialogs with
    | .dnsTT :: _ => h.stop .dnsTT
    | .v2Ray :: _ => h.stop .v2Ray
    | _ => h
  | .countdown 0 tunnel =>
    { h with
      active := fun _ => false
      rewards := 0
      endedByCountdown := h.endedByCountdown || (tunnel && s.connectionTimer.isSome) }
  | .countdown (_ + 1) true => { h with reset := false }
  | .connectingTick true => { h with rewardsAtStart := h.rewards }
  | .resume tunnel => { h with reset := h.reset || !tunnel }
  | .restart tunnel => { h with reset := !tunnel }
  | .reward => { h with rewards := h.rewards + 1 }
  | _ => h

end History

structure Traced where
  state : State
  history : History

/-- Nothing is started and nothing runs. -/
def stopped (typeConnection : String) (isImportFile : Bool) : State where
  started := fun _ => false
  typeConnection := typeConnection
  isImportFile := isImportFile
  selected := .fastDns
  layout := none
  delayedV2Ray := 0
  dialogs := []
  timerConnecting := false
  dnsService := false
  openVpn := false
  v2Ray := false
  connectionTimer := none
  timeLeft := "00:00:00"

/-- The application opens for the first time on any stored connection type, of an imported
    configuration or not. -/
def initial (timerVal : Nat) (typeConnection : String) (isImportFile : Bool) : Traced where
  state := (stopped typeConnection isImportFile).onCreateView timerVal false
  history :=
    { active := fun _ => false, rewards := 0, rewardsAtStart := 0, endedByCountdown := false, reset := true }

/-- The start screen with servers of the given time. -/
def system (timerVal : Nat) : StepSystem.System Traced Event where
  init t := ∃ typeConnection isImportFile, t = initial timerVal typeConnection isImportFile
  step t e := (step timerVal t.state e).map fun s => ⟨s, t.history.next t.state e⟩

end StartFragment
end NicVpn
