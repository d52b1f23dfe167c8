import NicVpn.Utils

/-! The shared preferences of the application. Only texts are stored, and each of them is the
    encrypted form of a value; a getter takes a text that equals the default for the default itself. -/

namespace NicVpn

abbrev Prefs := String → Option String

namespace DmPrefsKeys

def server := "SP_SERVER"
def serverDefault := ""
def serverPort := "SP_SERVER_PORT"
def serverPortDefault : Int := 0
def sni := "SP_SNI"
def sniDefault := ""
def dns := "SP_DNS"
def dnsDefault := ""
def dnsTT := "SP_DNS_TT"
def dnsTTDefault := "8.8.8.8:53"
def dnsTTConn := "SP_DNS_TT_CONN"
def dnsTTConnDefault := "UDP"
def ping := "SP_PING"
def pingDefault : Int := 7000
def customPing := "SP_CUSTOM_PING"
def dnsConnection := "SP_DNS_CONNECTION"
def typeConnection := "SP_TYPE_CONNECTION"
def typeConnectionDefault := "TLS Over HTTP"
def isImportCf := "ST_DIAM_PROXY_IS_IMPORT_CF"
def payloadConfig := "SP_PAYLOAD_CONFIG"
def payloadConfigDefault := ""
def feCustomMsg := "SP_PAYLOAD_FE_CUSTOM_MSG"
def feCustomMsgDefault := ""
def fileName := "SP_PREFERENCES_FILE_NAME"
def fileNameDefault := ""
def blockConfServer := "SP_BLOCK_CONF_SERVER"

def startedFastDns := "SP_STARTED_FAST_DNS_SERVICE"
def startedUdpMode := "SP_STARTED_UDP_MODE_SERVICE"
def startedOpenVpn := "SP_STARTED_OPEN_VPN_SERVICE"
def startedDnsTT := "SP_STARTED_DNS_TT_SERVICE"
def startedV2Ray := "SP_STARTED_OPEN_VPN_SERVICE"

end DmPrefsKeys

namespace Prefs

def getObject (p : Prefs) (key defaultValue : String) : Except Exc String :=
  let hexString := (p key).getD defaultValue
  if hexString ≠ defaultValue then Utils.decryptValue hexString else .ok defaultValue

/-- `getObject` and `getString` where the default may be null. -/
def getNullable (p : Prefs) (key : String) (defaultValue : Option String) : Except Exc (Option String) :=
  match (p key).or defaultValue with
  | some hexString =>
    if some hexString ≠ defaultValue then some <$> Utils.decryptValue hexString else .ok defaultValue
  | none => .ok defaultValue

def getString (p : Prefs) (key defaultValue : String) : Except Exc String := p.getObject key defaultValue

def getLong (p : Prefs) (key : String) (defaultValue : Int) : Except Exc Int := do
  Utils.toLong (← p.getObject key (toString defaultValue))

def getInt (p : Prefs) (key : String) (defaultValue : Int32) : Except Exc Int := do
  Utils.toInt (← p.getObject key (toString defaultValue))

def getBoolean (p : Prefs) (key : String) (defaultValue : Bool) : Except Exc Bool := do
  return Utils.toBoolean (← p.getObject key (toString defaultValue))

/-- `putObject`; `putString`, `putInt`, `putLong` and `putBoolean` are this at their types. -/
def putObject {α : Type} [ToString α] (p : Prefs) (rnd : Utils.Draw) (key : String) (value : α) : Prefs :=
  fun k => if k = key then some (Utils.encryptValue rnd value) else p k

def remove (p : Prefs) (key : String) : Prefs := fun k => if k = key then none else p k

def clear : Prefs := fun _ => none

end Prefs

/-! ### Sequences of operations -/

/-- An operation that changes the store, with the salt of its call. -/
inductive PrefsOp
  | putString (rnd : Utils.Draw) (key value : String)
  | putInt (rnd : Utils.Draw) (key : String) (value : Int32)
  | putLong (rnd : Utils.Draw) (key : String) (value : Int64)
  | putBoolean (rnd : Utils.Draw) (key : String) (value : Bool)
  | remove (key : String)
  | clear

namespace PrefsOp

/-- The one key that an operation is about. -/
def key? : PrefsOp → Option String
  | putString _ key _ => some key
  | putInt _ key _ => some key
  | putLong _ key _ => some key
  | putBoolean _ key _ => some key
  | remove key => some key
  | clear => none

def apply (p : Prefs) : PrefsOp → Prefs
  | putString rnd key value => p.putObject rnd key value
  | putInt rnd key value => p.putObject rnd key value
  | putLong rnd key value => p.putObject rnd key value
  | putBoolean rnd key value => p.putObject rnd key value
  | remove key => p.remove key
  | clear => Prefs.clear

/-- The store after a sequence of operations on an empty one. -/
def run (ops : List PrefsOp) : Prefs := ops.foldl apply Prefs.clear

end PrefsOp

end NicVpn
