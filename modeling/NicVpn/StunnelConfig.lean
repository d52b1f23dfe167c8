import NicVpn.Prefs

/-! The configuration file of stunnel. The start switch of `StartFragment` writes it, and
    `HTTProcessManager.start` writes it again before it starts the process. -/

namespace NicVpn

namespace Constants

def defConfig : String := "foreground = yes\nclient = yes\npid = [PID_KEY]\n[VPN]\naccept= 2323\n"
def serverLabel : String := "connect="
def sniLabel : String := "sni="
def defaultHost : String := "www.google.com"
def defaultHostNickname : String := "MOVISTAR-PANAMA"
def pid : String := "pid"

/-- The names of the connection types. -/
def directConnection : String := "Direct"
def httpConnection : String := "TLS Over HTTP"
def dnsConnection : String := "HTTP Over DNS"
def fastDnsConnection : String := "FastDNS"
def openVpnConnection : String := "OpenVPN"
def udpConnection : String := "UDP MODE [Developing]"

end Constants

/-- `getTypeConnection`, the same in both classes. -/
def getTypeConnection (p : Prefs) : Except Exc String :=
  p.getString DmPrefsKeys.typeConnection DmPrefsKeys.typeConnectionDefault

/-- `isDnsConnection` and its siblings. -/
def isConnection (p : Prefs) (name : String) : Except Exc Bool := do
  return (← getTypeConnection p) == name

/-- A chain of `||` over the connection types. -/
def isOneOf (p : Prefs) : List String → Except Exc Bool
  | [] => return false
  | name :: names => do if ← isConnection p name then return true else isOneOf p names

/-- The server, its port and the DNS prefix, as both classes put them together. -/
def configuredServer (p : Prefs) : Except Exc String := do
  let server ← p.getString DmPrefsKeys.server DmPrefsKeys.serverDefault
  let port ← p.getLong DmPrefsKeys.serverPort DmPrefsKeys.serverPortDefault
  let configuredServer := server ++ ":" ++ toString port
  if ← p.getBoolean DmPrefsKeys.dnsConnection false then
    return (← p.getString DmPrefsKeys.dns DmPrefsKeys.dnsDefault) ++ "." ++ configuredServer
  else return configuredServer

namespace HTTProcessManager

def getConfiguredServer (p : Prefs) : Except Exc String := configuredServer p

def getConfiguredSni (p : Prefs) : Except Exc String := p.getString DmPrefsKeys.sni DmPrefsKeys.sniDefault

def getCustomConfig (p : Prefs) : Except Exc String := do
  let sni ← getConfiguredSni p
  let customSni := if sni ≠ "" then Constants.sniLabel ++ sni else sni
  let noSni ← isOneOf p [Constants.dnsConnection, Constants.directConnection]
  let customSni := if noSni then "" else customSni
  return Constants.defConfig ++ Constants.serverLabel ++ (← getConfiguredServer p) ++ "\n" ++ customSni

/-- The text that `setupConfig` writes into the file. -/
def setupConfig (filesDir config : String) : List Char :=
  Text.replace "[PID_KEY]".toList (filesDir ++ "/" ++ Constants.pid).toList config.toList

/-- The file that `start` writes. -/
def start (filesDir : String) (p : Prefs) : Except Exc (List Char) := do
  return setupConfig filesDir (← getCustomConfig p)

end HTTProcessManager

namespace StartFragment

/-- What is put together from the preferences is not returned. -/
def getConfiguredServer (p : Prefs) : Except Exc String := do
  let _ ← configuredServer p
  return "67.205.169.117"

def getConfiguredSni (p : Prefs) : Except Exc String := do
  let customHost ← p.getString DmPrefsKeys.sni DmPrefsKeys.sniDefault
  if customHost = Constants.defaultHost then return Constants.defaultHostNickname else return customHost

/-- `getConfiguredDNS`: the text of the field, if there is one, is stored first. -/
def getConfiguredDNS (p : Prefs) (rnd : Utils.Draw) (etDns : String) : Except Exc (Prefs × String) := do
  let p := if etDns ≠ "" then p.putObject rnd DmPrefsKeys.dns etDns else p
  return (p, ← p.getString DmPrefsKeys.dns DmPrefsKeys.dnsDefault)

def customConfig (p : Prefs) : Except Exc String := do
  let sni ← getConfiguredSni p
  let customSni := if sni ≠ "" then Constants.sniLabel ++ sni else sni
  let noSni ← isOneOf p [Constants.dnsConnection, Constants.directConnection, Constants.fastDnsConnection,
    Constants.openVpnConnection, Constants.udpConnection]
  let customSni := if noSni then "" else customSni
  return Constants.defConfig ++ Constants.serverLabel ++ (← getConfiguredServer p) ++ customSni

/-- Over HTTP the handler asks for a server name. -/
def missingSni (p : Prefs) : Except Exc Bool := do
  if ← isConnection p Constants.httpConnection then return (← getConfiguredSni p) == "" else return false

/-- Over DNS it asks for a prefix, whose field it stores. -/
def missingDns (p : Prefs) (rnd : Utils.Draw) (etDns : String) : Except Exc (Prefs × Bool) := do
  if ← isConnection p Constants.dnsConnection then
    let (p, dns) ← getConfiguredDNS p rnd etDns
    return (p, dns == "")
  else return (p, false)

/-- The handler of the start switch, switched on: the preferences it leaves, and the file if it writes one. -/
def onStartSwitch (filesDir : String) (p : Prefs) (rnd : Utils.Draw) (etDns : String) :
    Except Exc (Prefs × Option (List Char)) := do
  if ← missingSni p then return (p, none)
  let (p, missing) ← missingDns p rnd etDns
  if missing then return (p, none)
  return (p, some (HTTProcessManager.setupConfig filesDir (← customConfig p)))

end StartFragment
end NicVpn
