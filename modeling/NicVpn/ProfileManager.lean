import NicVpn.GetConfigFile
import NicVpn.Lib.Run
import NicVpn.Lib.WrittenFile

/-! `ProfileManager` in two processes. The process of the app saves the profile of a connection as
    `temporary-vpn-profile.vp` and asks for the service by the UUID and the version of the profile; the process of the
    service loads the file until it has that profile, and a thread writes its configuration and starts OpenVPN, which
    reads it. The list `vpnlist` is empty: only applications that use the external API, and the restrictions that the
    administrator of a device sets, store a profile there. -/

namespace NicVpn
namespace ProfileManager
open WrittenFile

/-- A profile, as it is saved and loaded: `mUuid` and `mVersion`, and the settings. -/
structure Profile where
  mUuid : Nat
  mVersion : Nat
  settings : VpnProfile
  deriving DecidableEq, Repr

/-- The extras of an intent that starts the service. The UUID of the profile for always-on, which is asked for without an
    intent of the app, is null. -/
structure Extras where
  profileUUID : Option Nat
  profileVersion : Nat
  deriving DecidableEq, Repr

def Profile.getStartServiceIntent (p : Profile) : Extras :=
  { profileUUID := some p.mUuid, profileVersion := p.mVersion }

/-- Where the main thread of the service is in `onStartCommand`. -/
inductive MainPc (β : Type)
  | idle
  /-- The condition of the loop in `get`, with the tries that are left. -/
  | check (asked : Extras) (tries : Nat)
  | loadVPNList (asked : Extras) (tries : Nat)
  /-- `readObject`, with the bytes that are read. -/
  | readObject (asked : Extras) (tries : Nat) (got : List β)
  /-- The thread of the start runs. -/
  | setConnectedVpnProfile
  deriving DecidableEq, Repr

/-- Where a thread is in `startOpenVPN`. -/
inductive StartPc
  | writeConfigFile
  /-- `android.conf` is open and empty, and the profile is asked for its text. -/
  | getConfigFile (profile : Profile)
  | openManagementInterface
  /-- The thread of the process is about to start beside the management thread, which has its own `mProfile`. -/
  | startProcess (mProfile : Option Profile)
  deriving DecidableEq, Repr

structure StartThread where
  /-- The UUID that the start was asked for with. -/
  asked : Option Nat
  pc : StartPc
  deriving DecidableEq, Repr

/-- The thread of an OpenVPN process, and then the process until it has read `android.conf`, with the profile that the
    management thread answers from. -/
structure Process where
  asked : Option Nat
  management : Option Profile
  deriving DecidableEq, Repr

/-- The process of the service: the static fields of `ProfileManager`, `mProfile`, and the threads. -/
structure Service (β : Type) where
  /-- `instance` is not null. -/
  loaded : Bool := false
  tmpprofile : Option Profile := none
  mProfile : Option Profile := none
  main : MainPc β := .idle
  threads : List StartThread := []
  deriving DecidableEq, Repr

/-- An OpenVPN process that runs: what it read, and the profile that its management thread answers from. -/
structure Started where
  asked : Option Nat
  config : Option (List Char)
  management : Option Profile
  deriving DecidableEq, Repr

structure State (β : Type) where
  /-- `tmpprofile` in the process of the app. -/
  tmpprofile : Option Profile := none
  /-- `mSelectedProfile` of the activities that wait for the permission. -/
  selected : List Profile := []
  file : File β := {}
  /-- What the service will be started with; an intent of the system has no extras. -/
  intents : List (Option Extras) := []
  lastConnectedProfile : Option Nat := none
  /-- `android.conf` -/
  config : Option (List Char) := none
  service : Service β := {}
  processes : List Process := []
  started : List Started := []
  /-- All profiles that were ever handed to `saveProfile`. -/
  saved : List Profile := []
  deriving DecidableEq, Repr

/-- `get(String key)`; no profile is stored but the temporary one. -/
def lookup (tmpprofile : Option Profile) (key : Option Nat) : Option Profile :=
  tmpprofile.filter fun p => some p.mUuid = key

variable {β : Type} (C : Codec Profile β) (context : DeviceContext)

namespace State

/-! ### The process of the app -/

/-- `setTemporaryProfile` up to the first write. Each profile is a new one with a random UUID, and its thread does
    nothing else while it saves. -/
def setTemporaryProfile (s : State β) (p : Profile) : Option (State β) :=
  let tmp := { p with mVersion := p.mVersion + 1 }
  if s.file.rest.isNone ∧ tmp.mUuid ∉ s.saved.map (·.mUuid) then
    some { s with tmpprofile := some tmp, file := File.create (C.encode tmp), saved := s.saved ++ [tmp] }
  else none

/-- An `IOException`, or the end of the process for another reason. -/
def appDies (s : State β) : State β := { s with tmpprofile := none, selected := [], file := s.file.abandon }

/-- `LaunchVPN.startVpnFromIntent`, on the thread that saves. A profile that is not at hand is loaded. -/
def startVpnFromIntent (s : State β) (uuid : Nat) : Option (State β) :=
  if s.file.rest.isNone then
    let tmp :=
      if (lookup s.tmpprofile (some uuid)).isSome then s.tmpprofile
      else (s.file.content.bind C.decode).or s.tmpprofile
    some { s with tmpprofile := tmp, selected := s.selected ++ (lookup tmp (some uuid)).toList }
  else none

/-- The permission is there: `startOpenVpn` with the profile of the activity. -/
def startOpenVpn (s : State β) (k : Nat) : Option (State β) :=
  s.selected[k]?.map fun p =>
    { s with selected := s.selected.eraseIdx k, intents := s.intents ++ [some p.getStartServiceIntent] }

/-! ### The process of the service -/

/-- What is left of `onStartCommand` once `get` has returned, up to the start of the thread. -/
def gotProfile (s : State β) (asked : Option Nat) (profile : Option Profile) : State β :=
  { s with service :=
      match profile with
      | none => { s.service with mProfile := none, main := .idle }
      | some p =>
        { s.service with
          mProfile := some p, main := .setConnectedVpnProfile
          threads := s.service.threads ++ [⟨asked, .writeConfigFile⟩] } }

/-- `get(context, profileUUID, version, tries)` up to its loop. -/
def get (s : State β) (asked : Extras) (tries : Nat) : State β :=
  { s with service := { s.service with
      main := if s.service.loaded then .check asked tries else .loadVPNList asked tries } }

/-- The main thread takes the next intent. -/
def onStartCommand (s : State β) : Option (State β) :=
  match s.service.main, s.intents with
  | .idle, intent :: intents =>
    let s := { s with intents := intents }
    match intent with
    | some extras => some (s.get extras 100)
    | none =>
      match s.lastConnectedProfile with
      | some uuid => some (s.get ⟨some uuid, 0⟩ 10)
      -- `getAlwaysOnVPN` loads the list as `get` does; nobody sets the preference that it asks for.
      | none => some (s.get ⟨none, 0⟩ 0)
  | _, _ => none

/-- `loadVPNList` is at its end, with a profile or without. -/
def loadedList (s : State β) (asked : Extras) (tries : Nat) (vp : Option Profile) : State β :=
  { s with service := { s.service with
      loaded := true, tmpprofile := vp.or s.service.tmpprofile, main := .check asked tries } }

/-- A step of the main thread in `onStartCommand`; a read returns `n` bytes at most. -/
def runMain (s : State β) (n : Nat) : Option (State β) :=
  match s.service.main with
  | .idle => none
  | .check asked tries =>
    let profile := lookup s.service.tmpprofile asked.profileUUID
    if profile.all (·.mVersion < asked.profileVersion) ∧ 0 < tries then
      some { s with service := { s.service with main := .loadVPNList asked (tries - 1) } }
    else some (s.gotProfile asked.profileUUID profile)
  | .loadVPNList asked tries =>
    match s.file.content with
    | none => some (s.loadedList asked tries none)
    | some _ => some { s with service := { s.service with main := .readObject asked tries [] } }
  | .readObject asked tries got =>
    match C.decode got with
    | some vp => some (s.loadedList asked tries (some vp))
    | none =>
      -- At the end of the file `readObject` throws.
      if s.file.atEnd got then some (s.loadedList asked tries none)
      else some { s with service := { s.service with main := .readObject asked tries (s.file.read got n) } }
  | .setConnectedVpnProfile =>
    some { s with
      lastConnectedProfile := s.service.mProfile.map (·.mUuid), service := { s.service with main := .idle } }

/-- The processes that were started live on. -/
def serviceDies (s : State β) : State β := { s with service := {} }

/-- When the system revokes the permission, OpenVPN has ended, or a start fails. -/
def endVpnService (s : State β) : State β := { s with lastConnectedProfile := none }

/-- A step of a thread in `startOpenVPN`. -/
def runThread (s : State β) (i : Nat) : Option (State β) :=
  match s.service.threads[i]? with
  | none => none
  | some ⟨asked, .writeConfigFile⟩ =>
    match s.service.mProfile with
    | some p =>
      some { s with
        config := some []
        service := { s.service with threads := s.service.threads.set i ⟨asked, .getConfigFile p⟩ } }
    -- Nobody catches what a missing profile throws, nor below what a missing connection throws.
    | none => some s.serviceDies
  | some ⟨asked, .getConfigFile p⟩ =>
    match p.settings.getConfigFile context false with
    | some text =>
      some { s with
        config := some text
        service := { s.service with threads := s.service.threads.set i ⟨asked, .openManagementInterface⟩ } }
    | none => some s.serviceDies
  | some ⟨asked, .openManagementInterface⟩ =>
    some { s with service := { s.service with
      threads := s.service.threads.set i ⟨asked, .startProcess s.service.mProfile⟩ } }
  | some ⟨asked, .startProcess mProfile⟩ =>
    some { s with
      processes := s.processes ++ [⟨asked, mProfile⟩]
      service := { s.service with threads := s.service.threads.eraseIdx i } }

/-- A thread ends in `startOpenVPN`: the file cannot be opened, or of its text only the first `n` characters can be
    written, or the management socket cannot be bound. -/
def threadFails (s : State β) (i n : Nat) : Option (State β) :=
  let ended := { s.endVpnService with service := { s.service with threads := s.service.threads.eraseIdx i } }
  match s.service.threads[i]? with
  | none => none
  | some ⟨_, .writeConfigFile⟩ => s.service.mProfile.map fun _ => ended
  | some ⟨_, .getConfigFile p⟩ =>
    (p.settings.getConfigFile context false).map fun text => { ended with config := some (text.take n) }
  | some ⟨_, .openManagementInterface⟩ => some ended
  | some ⟨_, .startProcess _⟩ => none

/-! ### OpenVPN -/

/-- The process reads its configuration. -/
def readConfig (s : State β) (i : Nat) : Option (State β) :=
  s.processes[i]?.map fun p =>
    { s with
      processes := s.processes.eraseIdx i
      started := s.started ++ [{ asked := p.asked, config := s.config, management := p.management }] }

/-- The process does not start, or ends before it has read its configuration. -/
def processDies (s : State β) (i : Nat) : Option (State β) :=
  s.processes[i]?.map fun _ => { s with processes := s.processes.eraseIdx i }

end State

inductive Event
  | setTemporaryProfile (p : Profile)
  | write (n : Nat)
  | close
  | appDies
  | startVpnFromIntent (uuid : Nat)
  | startOpenVpn (k : Nat)
  /-- The system starts the service, again or as always-on. -/
  | systemStart
  | onStartCommand
  | runMain (n : Nat)
  | runThread (i : Nat)
  | threadFails (i n : Nat)
  | endVpnService
  | serviceDies
  | readConfig (i : Nat)
  | processDies (i : Nat)
  deriving DecidableEq, Repr

def step (s : State β) : Event → Option (State β)
  | .setTemporaryProfile p => s.setTemporaryProfile C p
  | .write n => (s.file.write n).map fun file => { s with file }
  | .close => s.file.close.map fun file => { s with file }
  | .appDies => some s.appDies
  | .startVpnFromIntent uuid => s.startVpnFromIntent C uuid
  | .startOpenVpn k => s.startOpenVpn k
  | .systemStart => some { s with intents := s.intents ++ [none] }
  | .onStartCommand => s.onStartCommand
  | .runMain n => s.runMain C n
  | .runThread i => s.runThread context i
  | .threadFails i n => s.threadFails context i n
  | .endVpnService => some s.endVpnService
  | .serviceDies => some s.serviceDies
  | .readConfig i => s.readConfig i
  | .processDies i => s.processDies i

/-- Connections of any number, in any order with the starts of the service, what OpenVPN does and the ends of all
    processes. -/
def system : StepSystem.System (State β) Event where
  init s := s = {}
  step := step C context

end ProfileManager
end NicVpn
