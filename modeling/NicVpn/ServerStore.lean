import NicVpn.Lib.Assoc
import NicVpn.Lib.Run
import NicVpn.Utils
import Mathlib.Data.List.Sort

/-! The V2Ray servers on the device: `MmkvManager`, which stores them and the one that is selected,
    `AngConfigManager`, which imports them from links, the import of the chosen server by `StartFragment`, and
    the configuration that `startV2rayPoint` reads; then the test results of the servers, and any sequence of
    operations on all of it. -/

namespace NicVpn

/-! ### Server configurations -/

inductive EConfigType
  | vmess
  | custom
  | shadowsocks
  | socks
  | vless
  | trojan
  | wireguard
  deriving DecidableEq, Repr

namespace EConfigType

def name : EConfigType → String
  | vmess => "VMESS"
  | custom => "CUSTOM"
  | shadowsocks => "SHADOWSOCKS"
  | socks => "SOCKS"
  | vless => "VLESS"
  | trojan => "TROJAN"
  | wireguard => "WIREGUARD"

def protocolScheme : EConfigType → String
  | vmess => "vmess://"
  | custom => ""
  | shadowsocks => "ss://"
  | socks => "socks://"
  | vless => "vless://"
  | trojan => "trojan://"
  | wireguard => "wireguard://"

def values : List EConfigType := [vmess, custom, shadowsocks, socks, vless, trojan, wireguard]

end EConfigType

/-- An address with its port, as `vnext` and `servers` list them. -/
structure Endpoint where
  address : String
  port : Int
  deriving DecidableEq, Repr

/-- The settings that name a server; `peers` holds the endpoints of WireGuard. -/
structure OutSettingsBean where
  vnext : Option (List Endpoint) := none
  servers : Option (List Endpoint) := none
  peers : Option (List String) := none
  deriving DecidableEq, Repr

structure OutboundBean where
  protocol : String
  settings : Option OutSettingsBean
  deriving DecidableEq, Repr

namespace OutboundBean

def hasProtocol (b : OutboundBean) (t : EConfigType) : Bool :=
  Text.equalsIgnoreCase b.protocol.toList t.name.toList

def first {α : Type} : Option (List α) → Except Exc (Option α)
  | none => .ok none
  | some [] => .error .indexOutOfBounds
  | some (a :: _) => .ok (some a)

def getServerAddress (b : OutboundBean) : Except Exc (Option String) :=
  if b.hasProtocol .vmess || b.hasProtocol .vless then do
    return (← first (b.settings.bind (·.vnext))).map (·.address)
  else if b.hasProtocol .shadowsocks || b.hasProtocol .socks || b.hasProtocol .trojan then do
    return (← first (b.settings.bind (·.servers))).map (·.address)
  else if b.hasProtocol .wireguard then do
    return (← first (b.settings.bind (·.peers))).map fun endpoint =>
      String.ofList (Text.substringBeforeLast ':' endpoint.toList)
  else return none

def toInt : Option (List Char) → Except Exc (Option Int)
  | none => .ok none
  | some s =>
    match Text.toInt s with
    | some n => .ok (some n)
    | none => .error .numberFormat

def getServerPort (b : OutboundBean) : Except Exc (Option Int) :=
  if b.hasProtocol .vmess || b.hasProtocol .vless then do
    return (← first (b.settings.bind (·.vnext))).map (·.port)
  else if b.hasProtocol .shadowsocks || b.hasProtocol .socks || b.hasProtocol .trojan then do
    return (← first (b.settings.bind (·.servers))).map (·.port)
  else if b.hasProtocol .wireguard then do
    toInt ((← first (b.settings.bind (·.peers))).map fun endpoint => Text.substringAfterLast ':' endpoint.toList)
  else return none

end OutboundBean

structure ServerConfig where
  configType : EConfigType
  subscriptionId : String := ""
  outboundBean : Option OutboundBean := none
  /-- The outbounds of `fullConfig`, for a custom configuration. -/
  fullConfig : Option (List OutboundBean) := none
  deriving DecidableEq, Repr

namespace ServerConfig

def getProxyOutbound (c : ServerConfig) : Option OutboundBean :=
  if c.configType ≠ .custom then c.outboundBean
  else c.fullConfig.bind fun outbounds => outbounds.find? fun b => EConfigType.values.any b.hasProtocol

/-- A getter of the outbound, when there is one. -/
def ofProxy {α : Type} (get : OutboundBean → Except Exc (Option α)) (c : ServerConfig) : Except Exc (Option α) :=
  match c.getProxyOutbound with
  | none => .ok none
  | some b => get b

/-- Two configurations with the same address and port. -/
def sameServer (c d : ServerConfig) : Except Exc Bool := do
  if (← c.ofProxy OutboundBean.getServerAddress) = (← d.ofProxy OutboundBean.getServerAddress) then
    return (← c.ofProxy OutboundBean.getServerPort) = (← d.ofProxy OutboundBean.getServerPort)
  else return false

end ServerConfig

/-! ### The store -/

structure Store where
  selected : Option String
  serverList : List String
  servers : List (String × ServerConfig)
  /-- The subscriptions by id, with their URLs. -/
  subs : List (String × String)
  /-- Calls of `getUuid` so far. -/
  drawn : Nat
  deriving DecidableEq, Repr

/-- Why a link is not imported; `exception` is the −1 of the `catch`. -/
inductive ImportError
  | noneData
  | incorrectProtocol
  | decodingFailed
  | exception
  deriving DecidableEq, Repr

/-- The code around the store: `getUuid`, `Utils.decode`, and the parsing of a link of each kind. -/
structure Env where
  uuid : Nat → String
  decode : List Char → List Char
  parse : EConfigType → List Char → Except ImportError ServerConfig

def isBlank (s : String) : Bool := Text.isBlank s.toList

def isNullOrBlank : Option String → Bool
  | none => true
  | some s => isBlank s

namespace MmkvManager

def decodeServerConfig (s : Store) (guid : String) : Option ServerConfig :=
  if isBlank guid then none else s.servers.lookup guid

/-- `encodeServerConfig`; a blank guid stands for a new one. -/
def encodeServerConfig (env : Env) (s : Store) (guid : String) (config : ServerConfig) : String × Store :=
  let (key, s) := if isBlank guid then (env.uuid s.drawn, { s with drawn := s.drawn + 1 }) else (guid, s)
  let s := { s with servers := Assoc.put s.servers key config }
  if key ∈ s.serverList then (key, s)
  else
    let s := { s with serverList := s.serverList ++ [key] }
    if isNullOrBlank s.selected then (key, { s with selected := some key }) else (key, s)

def removeServer (s : Store) (guid : String) : Store :=
  if isBlank guid then s
  else
    { s with
      selected := if s.selected = some guid then none else s.selected
      serverList := s.serverList.erase guid
      servers := Assoc.remove s.servers guid }

/-- One key in `removeServerViaSubid`. -/
def removeIfOf (subid : String) (s : Store) (key : String) : Store :=
  match decodeServerConfig s key with
  | some config => if config.subscriptionId = subid then removeServer s key else s
  | none => s

def removeServerViaSubid (s : Store) (subid : String) : Store :=
  if isBlank subid then s else (Assoc.keys s.servers).foldl (removeIfOf subid) s

def importUrlAsSubscription (env : Env) (s : Store) (url : String) : Store :=
  if s.subs.any (·.2 = url) then s
  else { s with subs := Assoc.put s.subs (env.uuid s.drawn) url, drawn := s.drawn + 1 }

end MmkvManager

namespace AngConfigManager
open MmkvManager

/-- The kinds of links that `importConfig` knows, in the order it tries them. -/
def schemes : List EConfigType := [.vmess, .shadowsocks, .socks, .trojan, .vless]

def resolve (env : Env) (str : List Char) : Except ImportError ServerConfig :=
  match schemes.find? fun t => t.protocolScheme.toList.isPrefixOf str with
  | some t => env.parse t str
  | none => .error .incorrectProtocol

/-- `importConfig`: the new server is stored before it is compared with the one that was selected. -/
def importConfig (env : Env) (s : Store) (str : List Char) (subid : String)
    (removedSelectedServer : Option ServerConfig) : Except ImportError Unit × Store :=
  if str = [] then (.error .noneData, s)
  else if subid = "" ∧ ("http://".toList.isPrefixOf str ∨ "https://".toList.isPrefixOf str) then
    (.ok (), importUrlAsSubscription env s (String.ofList str))
  else
    match resolve env str with
    | .error e => (.error e, s)
    | .ok config =>
      let config := { config with subscriptionId := subid }
      let (guid, s) := encodeServerConfig env s "" config
      match removedSelectedServer with
      | none => (.ok (), s)
      | some removed =>
        match config.sameServer removed with
        | .error _ => (.error .exception, s)
        | .ok true => (.ok (), { s with selected := some guid })
        | .ok false => (.ok (), s)

/-- One line in `importBatchConfig`. -/
def importLine (env : Env) (subid : String) (removedSelectedServer : Option ServerConfig) (p : Nat × Store)
    (str : List Char) : Nat × Store :=
  match importConfig env p.2 str subid removedSelectedServer with
  | (.ok _, s) => (p.1 + 1, s)
  | (.error _, s) => (p.1, s)

/-- The selected server, when it belongs to the subscription. -/
def selectedOf (s : Store) (subid : String) : Option ServerConfig :=
  (decodeServerConfig s (s.selected.getD "")).filter (·.subscriptionId = subid)

/-- `importBatchConfig`: the number of imported servers. -/
def importBatchConfig (env : Env) (s : Store) (servers : Option (List Char)) (subid : String) (append : Bool) :
    Nat × Store :=
  match servers with
  | none => (0, s)
  | some servers =>
    let removedSelectedServer := if subid ≠ "" ∧ !append then selectedOf s subid else none
    let s := if append then s else removeServerViaSubid s subid
    (Text.lines servers).foldl (importLine env subid removedSelectedServer) (0, s)

end AngConfigManager

namespace StartFragment

/-- The subscription that the servers of the application belong to. -/
def subid : String := "v2ray_ic_config"

/-- `importBatchConfig`: a text that holds no server is decoded and tried again. -/
def importBatchConfig (env : Env) (s : Store) (server : Option (List Char)) : Except Exc (Nat × Store) :=
  let (count, s) := AngConfigManager.importBatchConfig env s server subid (subid = "")
  if count = 0 then
    match server with
    | none => .error .nullPointer
    | some server => .ok (AngConfigManager.importBatchConfig env s (some (env.decode server)) subid (subid = ""))
  else .ok (count, s)

end StartFragment

namespace V2RayServiceManager

/-- The configuration that `startV2rayPoint` starts with. -/
def startV2rayPoint (s : Store) : Option ServerConfig := s.selected.bind (MmkvManager.decodeServerConfig s)

end V2RayServiceManager

/-! ### Test results -/

structure ServerAffiliationInfo where
  testDelayMillis : Int := 0
  deriving DecidableEq, Repr

/-- The servers with `serverAffStorage`, what was measured of them. -/
structure Storage extends Store where
  affs : List (String × ServerAffiliationInfo)
  deriving DecidableEq, Repr

namespace Storage

def empty : Storage where
  selected := none
  serverList := []
  servers := []
  subs := []
  drawn := 0
  affs := []

def decodeServerAffiliationInfo (s : Storage) (guid : String) : Option ServerAffiliationInfo :=
  if isBlank guid then none else s.affs.lookup guid

def encodeServerTestDelayMillis (s : Storage) (guid : String) (testResult : Int) : Storage :=
  if isBlank guid then s
  else
    let aff := (s.decodeServerAffiliationInfo guid).getD {}
    { s with affs := Assoc.put s.affs guid { aff with testDelayMillis := testResult } }

def encodeServerConfig (env : Env) (s : Storage) (guid : String) (config : ServerConfig) : Storage :=
  { s with toStore := (MmkvManager.encodeServerConfig env s.toStore guid config).2 }

/-- `removeServer` with its last line, which the other storages do not see. -/
def removeServer (s : Storage) (guid : String) : Storage where
  toStore := MmkvManager.removeServer s.toStore guid
  affs := if isBlank guid then s.affs else Assoc.remove s.affs guid

/-- One key in `removeServerViaSubid`. -/
def removeIfOf (subid : String) (s : Storage) (key : String) : Storage :=
  match MmkvManager.decodeServerConfig s.toStore key with
  | some config => if config.subscriptionId = subid then s.removeServer key else s
  | none => s

def removeServerViaSubid (s : Storage) (subid : String) : Storage :=
  if isBlank subid then s else (Assoc.keys s.servers).foldl (removeIfOf subid) s

def removeAllServer (s : Storage) : Storage := { s with selected := none, serverList := [], servers := [], affs := [] }

/-- One key in `removeInvalidServer`. -/
def removeIfInvalid (s : Storage) (key : String) : Storage :=
  match s.decodeServerAffiliationInfo key with
  | some aff => if aff.testDelayMillis ≤ 0 then s.removeServer key else s
  | none => s

def removeInvalidServer (s : Storage) : Storage := (Assoc.keys s.affs).foldl removeIfInvalid s

/-- The delay that a server is sorted by. -/
def delay (s : Storage) (guid : String) : Int :=
  let delay := ((s.decodeServerAffiliationInfo guid).map (·.testDelayMillis)).getD 0
  if delay ≤ 0 then 999999 else delay

structure ServerDelay where
  guid : String
  testDelayMillis : Int
  deriving DecidableEq, Repr

/-- A server is taken out of the list and put to its end. -/
def moveToEnd (serverList : List String) (d : ServerDelay) : List String := serverList.erase d.guid ++ [d.guid]

def sortByTestResults (s : Storage) : Storage :=
  let serverDelays := s.serverList.map fun key => { guid := key, testDelayMillis := s.delay key }
  -- `sortBy` is stable, as is the insertion sort.
  let sorted := serverDelays.insertionSort fun a b => a.testDelayMillis ≤ b.testDelayMillis
  { s with serverList := sorted.foldl moveToEnd s.serverList }

/-- `AngConfigManager.importBatchConfig`: test results go only with the servers that it removes. -/
def importBatchConfig (env : Env) (s : Storage) (servers : Option (List Char)) (subid : String) (append : Bool) :
    Storage where
  toStore := (AngConfigManager.importBatchConfig env s.toStore servers subid append).2
  affs := if servers.isNone || append then s.affs else (s.removeServerViaSubid subid).affs

/-- An operation on the storages. -/
inductive Op
  | encodeServerConfig (guid : String) (config : ServerConfig)
  | removeServer (guid : String)
  | removeServerViaSubid (subid : String)
  | removeAllServer
  | removeInvalidServer
  | sortByTestResults
  | encodeServerTestDelayMillis (guid : String) (testResult : Int)
  | importBatchConfig (servers : Option (List Char)) (subid : String) (append : Bool)
  deriving DecidableEq, Repr

def apply (env : Env) (s : Storage) : Op → Storage
  | .encodeServerConfig guid config => s.encodeServerConfig env guid config
  | .removeServer guid => s.removeServer guid
  | .removeServerViaSubid subid => s.removeServerViaSubid subid
  | .removeAllServer => s.removeAllServer
  | .removeInvalidServer => s.removeInvalidServer
  | .sortByTestResults => s.sortByTestResults
  | .encodeServerTestDelayMillis guid testResult => s.encodeServerTestDelayMillis guid testResult
  | .importBatchConfig servers subid append => s.importBatchConfig env servers subid append

/-- Any sequence of operations on empty storages. -/
def system (env : Env) : StepSystem.System Storage Op where
  init s := s = empty
  step s op := some (s.apply env op)

end Storage
end NicVpn
