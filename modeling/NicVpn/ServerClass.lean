import Mathlib.Data.List.Basic

/-! `Server_Class`: the refresh of the server list. The response is a JSON object with an array of servers; those that
    can be read are kept in the preferences as JSON. -/

namespace NicVpn

/-- A value of `org.json`; a number is kept as its text. -/
inductive JSONValue
  | object (members : List (String × JSONValue))
  | array (elements : List JSONValue)
  | string (value : String)
  | number (text : String)
  | boolean (value : Bool)
  | null

/-- `api_response` -/
structure ApiResponse where
  serverId : Int := 0
  serverStatus : Int := 0
  type : Int := 0
  port : Int := 0
  timerVal : Int := 0
  hostName : String := ""
  city : String := ""
  ip : String := ""
  v2rayUdp : String := ""
  v2rayTcp : String := ""
  publickey : String := ""
  drawable : String := ""
  ipDnstt : String := ""
  deriving DecidableEq, Repr

namespace ServerClass

/-- The JSON libraries. -/
structure Libraries where
  /-- The value of a text, as `org.json` reads it. -/
  nextValue : String → Option JSONValue
  /-- The coercions of `getInt` and `getString`. -/
  toInteger : JSONValue → Option Int
  toText : JSONValue → Option String
  /-- `Gson` -/
  toJson : List ApiResponse → String
  fromJson : String → Option (List ApiResponse)

/-- What is left of the activity and of its preferences: the cached text and the list that is shown. -/
structure State where
  listSavedCache : Option String
  apiResponses : Option (List ApiResponse)
  deriving DecidableEq, Repr

variable (lib : Libraries)

/-! ### Reading -/

/-- `new JSONObject(text)` -/
def newJSONObject (text : String) : Option (List (String × JSONValue)) :=
  match lib.nextValue text with
  | some (.object members) => some members
  | _ => none

/-- `new JSONArray(text)` -/
def newJSONArray (text : String) : Option (List JSONValue) :=
  match lib.nextValue text with
  | some (.array elements) => some elements
  | _ => none

def getJSONArray (object : List (String × JSONValue)) (name : String) : Option (List JSONValue) :=
  match object.lookup name with
  | some (.array elements) => some elements
  | _ => none

def getInt (object : List (String × JSONValue)) (name : String) : Option Int :=
  (object.lookup name).bind lib.toInteger

def getString (object : List (String × JSONValue)) (name : String) : Option String :=
  (object.lookup name).bind lib.toText

/-- The array of servers of a response. -/
def getServers (input : String) : Option (List JSONValue) :=
  (newJSONObject lib input).bind fun jsonObject => getJSONArray jsonObject "servers"

/-- The twelve fields of a server; the first that cannot be read ends the reading. -/
def readServer (object : List (String × JSONValue)) : Option ApiResponse := do
  let serverId ← getInt lib object "server_id"
  let serverStatus ← getInt lib object "ServerStatus"
  let hostName ← getString lib object "HostName"
  let city ← getString lib object "city"
  let ip ← getString lib object "IP"
  let type ← getInt lib object "type"
  let timerVal ← getInt lib object "time"
  let v2rayUdp ← getString lib object "v2ray_udp"
  let v2rayTcp ← getString lib object "v2ray_tcp"
  let publickey ← getString lib object "publickey"
  let drawable ← getString lib object "drawable"
  let ipDnstt ← getString lib object "ip_dnstt"
  return { serverId, serverStatus, type, timerVal, hostName, city, ip, v2rayUdp, v2rayTcp, publickey, drawable, ipDnstt }

/-- The loop over the array: the servers added to the list, and whether it came to its end. An element that is no object
    ends it, for the exception is caught outside. -/
def readServers : List JSONValue → List ApiResponse → List ApiResponse × Bool
  | [], apiResponses => (apiResponses, true)
  | .object object :: elements, apiResponses =>
    match readServer lib object with
    | some server => readServers elements (apiResponses ++ [server])
    | none => readServers elements apiResponses
  | _ :: _, apiResponses => (apiResponses, false)

/-! ### Storing -/

def isJSONValid (test : String) : Bool := (newJSONObject lib test).isSome || (newJSONArray lib test).isSome

/-- The cached list; an exception of `Gson` is caught. -/
def getAllServersFromCache (s : State) : Option (List ApiResponse) :=
  match s.listSavedCache with
  | some json => if json ≠ "" then lib.fromJson json else none
  | none => none

def populateData (s : State) : State := { s with apiResponses := getAllServersFromCache lib s }

def parseData (s : State) (input : String) : State :=
  let s := { s with apiResponses := some [] }
  match getServers lib input with
  | none => s
  | some jsonArray =>
    let (apiResponses, completed) := readServers lib jsonArray []
    let s := { s with apiResponses := some apiResponses }
    let json := lib.toJson apiResponses
    if completed ∧ apiResponses ≠ [] ∧ json ≠ "" ∧ isJSONValid lib json then
      populateData lib { s with listSavedCache := some json }
    else s

end ServerClass
end NicVpn
