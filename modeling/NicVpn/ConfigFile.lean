import NicVpn.Prefs

/-! The configuration file: `MainActivity.saveExportFile` writes the settings as positional fields,
    `StartFragment.readConfigurationFile` reads them on another device. -/

namespace NicVpn
namespace ConfigFile
open Utils

def fileSeparator : Char := ';'

/-- The preferences that an exported file carries. -/
structure Settings where
  typeConfig : String
  server : String
  port : Int
  host : String
  dns : String
  ping : Int
  payload : String
  customMessage : String
  blockServer : Bool
  dnsTTHost : String
  connDnsTTHost : String
  deriving DecidableEq, Repr

/-- The values of these preferences, as `saveExportFile` gets them. -/
def settings (p : Prefs) : Except Exc Settings := do
  let typeConfig ← p.getString DmPrefsKeys.typeConnection DmPrefsKeys.typeConnectionDefault
  let server ← p.getString DmPrefsKeys.server DmPrefsKeys.serverDefault
  let port ← p.getLong DmPrefsKeys.serverPort DmPrefsKeys.serverPortDefault
  let host ← p.getString DmPrefsKeys.sni DmPrefsKeys.sniDefault
  let dns ← p.getString DmPrefsKeys.dns DmPrefsKeys.dnsDefault
  let ping ← p.getLong DmPrefsKeys.ping DmPrefsKeys.pingDefault
  let payload ← p.getString DmPrefsKeys.payloadConfig DmPrefsKeys.payloadConfigDefault
  let customMessage ← p.getString DmPrefsKeys.feCustomMsg DmPrefsKeys.feCustomMsgDefault
  let blockServer ← p.getBoolean DmPrefsKeys.blockConfServer false
  let dnsTTHost ← p.getString DmPrefsKeys.dnsTT DmPrefsKeys.dnsTTDefault
  let connDnsTTHost ← p.getString DmPrefsKeys.dnsTTConn DmPrefsKeys.dnsTTConnDefault
  return { typeConfig, server, port, host, dns, ping, payload, customMessage, blockServer, dnsTTHost,
           connDnsTTHost }

/-- The fields in the order in which they are written, each with the salt of its own call. -/
def fields (rnd : Nat → Draw) (c : Settings) : List String :=
  [encryptValue (rnd 0) c.typeConfig, encryptValue (rnd 1) c.server, encryptValue (rnd 2) c.port,
   encryptValue (rnd 3) c.host, encryptValue (rnd 4) c.dns, encryptValue (rnd 5) c.ping,
   encryptValue (rnd 6) c.payload, encryptValue (rnd 7) c.customMessage, encryptValue (rnd 8) c.blockServer,
   encryptValue (rnd 9) c.dnsTTHost, encryptValue (rnd 10) c.connDnsTTHost]

/-- The message of a file: the separator follows every field, the last one included. -/
def message (rnd : Nat → Draw) (c : Settings) : String :=
  (fields rnd c).foldr (fun f rest => f ++ String.singleton fileSeparator ++ rest) ""

/-- `saveExportFile`: the bytes of the written file. -/
def saveExportFile (aes : FileCipher) (rnd : Nat → Draw) (p : Prefs) : Except Exc (List UInt8) := do
  let c ← settings p
  return aes.encrypt (toByteArray (encryptValue (rnd 11) (message rnd c)))

/-- What `readConfigurationFile` tells the user. -/
inductive Outcome
  | imported
  | fileImported
  | fileInvalid
  deriving DecidableEq, Repr

/-- The values that a file holds for its reader. -/
structure Contents extends Settings where
  useCustomPing : Bool
  fileId : String

/-- Reading with a default on any exception. -/
def tryOr (x : Except Exc String) (d : String) : String :=
  match x with
  | .ok v => v
  | .error _ => d

def readParts (parts : List String) : Except Exc Contents := do
  let typeConfig ← decryptValue (← index parts 0)
  let server ← decryptValue (← index parts 1)
  let port ← toLong (← decryptValue (← index parts 2))
  let host ← decryptValue (← index parts 3)
  let dns ← decryptValue (← index parts 4)
  let useCustomPing := toBoolean (← decryptValue (← index parts 5))
  let ping ← toLong (← decryptValue (← index parts 6))
  let payload ← decryptValue (← index parts 7)
  let customMsg := tryOr (index parts 8 >>= decryptValue) ""
  let fileId := tryOr (index parts 9 >>= decryptValue) ""
  let fileBlocked := toBoolean (← decryptValue (← index parts 10))
  let dnsTTHost ← decryptValue (← index parts 11)
  let connDnsTTHost ← decryptValue (← index parts 12)
  return { typeConfig, server, port, host, dns, ping, payload, customMessage := customMsg,
           blockServer := fileBlocked, dnsTTHost, connDnsTTHost, useCustomPing, fileId }

/-- `typeConfig.toLowerCase().trim()` against the name `HTTP Over DNS`. -/
def isDnsConnection (typeConfig : String) : Bool :=
  Text.strip (typeConfig.toList.map Char.toLower) == "http over dns".toList

def store (rnd : Nat → Draw) (c : Contents) (p : Prefs) : Prefs :=
  p |>.putObject (rnd 0) DmPrefsKeys.fileName c.fileId
    |>.putObject (rnd 1) DmPrefsKeys.isImportCf true
    |>.putObject (rnd 2) DmPrefsKeys.typeConnection c.typeConfig
    |>.putObject (rnd 3) DmPrefsKeys.server c.server
    |>.putObject (rnd 4) DmPrefsKeys.serverPort c.port
    |>.putObject (rnd 5) DmPrefsKeys.sni c.host
    |>.putObject (rnd 6) DmPrefsKeys.dns c.dns
    |>.putObject (rnd 7) DmPrefsKeys.dnsConnection (isDnsConnection c.typeConfig)
    |>.putObject (rnd 8) DmPrefsKeys.customPing c.useCustomPing
    |>.putObject (rnd 9) DmPrefsKeys.ping c.ping
    |>.putObject (rnd 10) DmPrefsKeys.payloadConfig c.payload
    |>.putObject (rnd 11) DmPrefsKeys.feCustomMsg c.customMessage
    |>.putObject (rnd 12) DmPrefsKeys.blockConfServer c.blockServer
    |>.putObject (rnd 13) DmPrefsKeys.dnsTTConn c.connDnsTTHost
    |>.putObject (rnd 14) DmPrefsKeys.dnsTT c.dnsTTHost

/-- The body of `readConfigurationFile`'s `try`. -/
def importFile (aes : FileCipher) (rnd : Nat → Draw) (file : List UInt8) (p : Prefs) :
    Except Exc (Outcome × Prefs) := do
  let fileData ← match aes.decrypt file with
    | some data => .ok (ofByteArray data)
    | none => .error .badPadding
  let fileExtracted ← decryptValue fileData
  let c ← readParts (split fileExtracted fileSeparator)
  let fileIdTmp ← p.getString DmPrefsKeys.fileName DmPrefsKeys.fileNameDefault
  if c.fileId ≠ "" ∧ c.fileId = fileIdTmp then return (.fileImported, p)
  return (.imported, store rnd c p)

/-- `readConfigurationFile`: any exception ends in a message, before the first preference is written. -/
def readConfigurationFile (aes : FileCipher) (rnd : Nat → Draw) (file : List UInt8) (p : Prefs) : Outcome × Prefs :=
  match importFile aes rnd file p with
  | .ok r => r
  | .error _ => (.fileInvalid, p)

/-- The settings of `p` are exported, and importing the file on device `d` is accepted and leaves each of
    them there. -/
def RoundTrips (aes : FileCipher) (rnd rnd' : Nat → Draw) (p d : Prefs) : Prop :=
  ∃ c file d', settings p = .ok c ∧ saveExportFile aes rnd p = .ok file ∧
    readConfigurationFile aes rnd' file d = (.imported, d') ∧ settings d' = .ok c

end ConfigFile
end NicVpn
