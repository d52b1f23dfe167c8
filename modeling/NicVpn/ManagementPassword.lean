import NicVpn.Lib.Base64
import NicVpn.Lib.Utf8
import NicVpn.OpenVpnManagementThread
import NicVpn.VpnProfile

/-! What the app writes to the management socket of what a user types: user names, passwords and the answer to a
    challenge. -/

namespace NicVpn
namespace OpenVpnManagementThread

/-- `mProxyAuthUser` and `mProxyAuthPassword` of a connection; a field may be null. -/
structure ProxyAuth where
  mProxyAuthUser : Option (List Char)
  mProxyAuthPassword : Option (List Char)
  deriving Repr, DecidableEq

/-- What the profile, the password cache and the present connection know. -/
structure Credentials where
  getPasswordPrivateKey : Option (List Char)
  getPasswordAuth : Option (List Char)
  mUsername : Option (List Char)
  mCurrentProxyConnection : Option ProxyAuth
  deriving Repr, DecidableEq

/-- What one `>PASSWORD` message does. -/
inductive PWOutcome
  | ignored
  | couldNotParse
  | failed (needed args : List Char)
  | requestInputFromUser (needed : List Char)
  | commands (lines : List (List Char))
  deriving Repr, DecidableEq

def usercmd (needed username : List Char) : List Char :=
  "username '".toList ++ needed ++ "' ".toList ++ VpnProfile.openVpnEscape username ++ ['\n']

def pwcmd (needed pw : List Char) : List Char :=
  "password '".toList ++ needed ++ "' ".toList ++ VpnProfile.openVpnEscape pw ++ ['\n']

/-- The password and the user name for what is needed. -/
def credentialsFor (c : Credentials) (needed : List Char) : Option (List Char) × Option (List Char) :=
  if needed = "Private Key".toList then (c.getPasswordPrivateKey, none)
  else if needed = "Auth".toList then (c.getPasswordAuth, c.mUsername)
  else if needed = "HTTP Proxy".toList then
    match c.mCurrentProxyConnection with
    | some proxy => (proxy.mProxyAuthPassword, proxy.mProxyAuthUser)
    | none => (none, none)
  else (none, none)

/-- The text behind the second quote. -/
def behindQuoted (argument : List Char) : List Char :=
  (((argument.dropWhile (· ≠ '\'')).tail).dropWhile (· ≠ '\'')).tail

def processPWCommand (c : Credentials) (argument : List Char) : PWOutcome :=
  if "Auth-Token:".toList.isPrefixOf argument then .ignored
  else
    match quoted argument with
    | none => .couldNotParse
    | some needed =>
      if "Verification Failed".toList.isPrefixOf argument then .failed needed (behindQuoted argument)
      else
        match credentialsFor c needed with
        | (none, _) => .requestInputFromUser needed
        | (some pw, none) => .commands [pwcmd needed pw]
        | (some pw, some username) => .commands [usercmd needed username, pwcmd needed pw]

def sendCRResponse (response : List Char) : List Char := "cr-response ".toList ++ response ++ ['\n']

end OpenVpnManagementThread

namespace OpenVPNService

/-- The command of a response, when there is a management thread. -/
def challengeResponse (response : List Char) : List Char :=
  OpenVpnManagementThread.sendCRResponse (Base64.encodeToString (Utf8.encode response))

end OpenVPNService
end NicVpn
