import NicVpn.Connection
import NicVpn.Utils

/-! The handshake of a `Connection`: `ServerResponse`, which reads a response byte by byte, the requests that
    `buildPayload` makes of a payload piece, and `establishConnection`, which asks for a connection on the
    write socket and completes it on the read socket. -/

namespace NicVpn

/-- What the server does on one socket. -/
structure Peer where
  connects : Bool
  /-- The request can be written. -/
  accepts : Bool
  sent : List UInt8
  /-- Reading past the bytes sent throws, as after a reset; otherwise the stream ends there. -/
  reset : Bool
  deriving DecidableEq, Repr

namespace Client

def maxLenServerResponseHead : Nat := 1024 * 1000

end Client

namespace Constants

def actionHeader : List Char := "X-Action: ".toList
def targetHeader : List Char := "X-Target: ".toList
def idHeader : List Char := "X-Id: ".toList
def passHeader : List Char := "X-Pass: ".toList
def contentHeader : List Char := "Content-Length: ".toList
def actionCreate : List Char := "create".toList
def actionComplete : List Char := "complete".toList
def actionData : List Char := "data".toList
def msgConnectionCreated : List Char := "Created".toList
def msgConnectionCompleted : List Char := "Completed".toList
def listeningAddr : List Char := "127.0.0.1".toList
def listeningAddrPort : List Char := "2323".toList
def listeningServer : List Char := listeningAddr ++ ":".toList ++ listeningAddrPort

end Constants

def crlf : List Char := ['\r', '\n']

/-! ### Responses -/

structure ServerResponse where
  statusCode : Int := 0
  statusMsg : Option (List Char) := none
  id : Option (List Char) := none
  isValid : Bool := false
  deriving DecidableEq, Repr

namespace ServerResponse

/-- `read()` of a stream with no bytes left, in `getLinha`. -/
def endOfStream (reset : Bool) : Except Exc (Option (List Char) × List UInt8) :=
  if reset then .error .io else .ok (none, [])

/-- The loop of `getLinha`. After a CR the next byte is taken whatever it is, so that a CR there begins
    no line end; a line that is too long loses the byte read last. -/
def getLinhaFrom (reset : Bool) (maxQtdBytes : Nat) (count : Nat) (builder : List Char) :
    List UInt8 → Except Exc (Option (List Char) × List UInt8)
  | [] => endOfStream reset
  | b :: rest =>
    if count < maxQtdBytes then
      if b = 13 then
        match rest with
        | [] => endOfStream reset
        | c :: rest =>
          if c = 10 then .ok (some (builder ++ [Utf8.ofByte b, Utf8.ofByte c]), rest)
          else getLinhaFrom reset maxQtdBytes (count + 2) (builder ++ [Utf8.ofByte b, Utf8.ofByte c]) rest
      else getLinhaFrom reset maxQtdBytes (count + 1) (builder ++ [Utf8.ofByte b]) rest
    else .ok (some builder, rest)

/-- `getLinha`: the next line with its line end, or none at the end of the stream; and what follows it. -/
def getLinha (reset : Bool) (bytes : List UInt8) (maxQtdBytes : Nat) :
    Except Exc (Option (List Char) × List UInt8) :=
  getLinhaFrom reset maxQtdBytes 0 [] bytes

/-- `setStatusLine`; no value when it returns false. -/
def setStatusLine (r : ServerResponse) (statusLine : List Char) : Option ServerResponse := do
  let start ← Text.indexOf [' '] statusLine
  let code := statusLine.drop (start + 1)
  let stop ← Text.indexOf [' '] code
  let statusCode ← Text.toInt (code.take stop)
  let msg := code.drop (stop + 1)
  match Text.indexOf ['\r'] msg with
  | none => some { r with statusCode, statusMsg := some msg }
  | some stop => some { r with statusCode, statusMsg := some (msg.take stop) }

/-- `getHeaderVal`. Without a line end the upper bound of the last `substring` is −1. -/
def getHeaderVal (header : List Char) : Except Exc (Option (List Char)) :=
  match Text.indexOf [':'] header with
  | none => .ok none
  | some ini =>
    match Text.indexOf crlf header with
    | none => .error .indexOutOfBounds
    | some fim => if ini + 2 ≤ fim then .ok (some ((header.take fim).drop (ini + 2))) else .error .indexOutOfBounds

/-- The loop of `read`, for at most `fuel` lines. -/
def readHeaders (reset : Bool) : Nat → List Char → Nat → Bool → ServerResponse → List UInt8 →
    Except Exc ServerResponse
  | 0, _, _, _, r, _ => .ok r
  | fuel + 1, linha, count, ignore, r, bytes =>
    if linha ≠ crlf ∧ count < Client.maxLenServerResponseHead then do
      match ← getLinha reset bytes Client.maxLenServerResponseHead with
      | (none, _) => .ok r
      | (some linha, bytes) =>
        if !ignore && Constants.idHeader.isPrefixOf linha then do
          let id ← getHeaderVal linha
          readHeaders reset fuel linha (count + linha.length) true
            { r with id, isValid := r.isValid && id.isSome } bytes
        else readHeaders reset fuel linha (count + linha.length) ignore r bytes
    else .ok r

/-- `read`: what it returns, and the fields it leaves. Each line takes a byte at least, so that the number
    of bytes bounds the lines. -/
def read (p : Peer) : Except Exc (Bool × ServerResponse) := do
  let r : ServerResponse := { isValid := true }
  match ← getLinha p.reset p.sent Client.maxLenServerResponseHead with
  | (none, _) => .ok (false, r)
  | (some linha, bytes) =>
    match setStatusLine r linha with
    | none => .ok (false, r)
    | some r => do
      let r ← readHeaders p.reset (bytes.length + 1) linha 0 false r bytes
      .ok (r.isValid, r)

/-- What can be seen of a call that reads a stream: its result, the stream at each call of `getLinha`, and
    what is left unread. -/
structure Reading (α : Type) where
  result : Except Exc α
  calls : List (List UInt8)
  unread : List UInt8

namespace Reading
variable {α β : Type}

/-- A call of `getLinha` before the rest of the work. -/
def before (bytes : List UInt8) (g : Reading α) : Reading α := { g with calls := bytes :: g.calls }

def map (k : α → β) (g : Reading α) : Reading β := ⟨g.result.map k, g.calls, g.unread⟩

end Reading

/-- The loop of `read`, as `readHeaders` has it. -/
def readHeadersReading (reset : Bool) : Nat → List Char → Nat → Bool → ServerResponse → List UInt8 →
    Reading ServerResponse
  | 0, _, _, _, r, bytes => ⟨.ok r, [], bytes⟩
  | fuel + 1, linha, count, ignore, r, bytes =>
    if linha ≠ crlf ∧ count < Client.maxLenServerResponseHead then
      .before bytes <|
        match getLinha reset bytes Client.maxLenServerResponseHead with
        | .error e => ⟨.error e, [], []⟩
        | .ok (none, rest) => ⟨.ok r, [], rest⟩
        | .ok (some linha, rest) =>
          if !ignore && Constants.idHeader.isPrefixOf linha then
            match getHeaderVal linha with
            | .error e => ⟨.error e, [], rest⟩
            | .ok id =>
              readHeadersReading reset fuel linha (count + linha.length) true
                { r with id, isValid := r.isValid && id.isSome } rest
          else readHeadersReading reset fuel linha (count + linha.length) ignore r rest
    else ⟨.ok r, [], bytes⟩

/-- `read`, as it is seen from the stream. -/
def reading (p : Peer) : Reading (Bool × ServerResponse) :=
  let r : ServerResponse := { isValid := true }
  .before p.sent <|
    match getLinha p.reset p.sent Client.maxLenServerResponseHead with
    | .error e => ⟨.error e, [], []⟩
    | .ok (none, rest) => ⟨.ok (false, r), [], rest⟩
    | .ok (some linha, bytes) =>
      match setStatusLine r linha with
      | none => ⟨.ok (false, r), [], bytes⟩
      | some r => (readHeadersReading p.reset (bytes.length + 1) linha 0 false r bytes).map fun r => (r.isValid, r)

end ServerResponse

/-! ### Requests -/

namespace Connection

/-- The fields of a connection that its requests use. -/
structure Fields where
  target : List Char
  pass : Option (List Char)

/-- The texts that `buildPayload` replaces, in its order. -/
def placeholders : List (List Char × List Char) :=
  [("[host_port]".toList, Constants.listeningServer),
    ("[host]".toList, Constants.listeningAddr),
    ("[port]".toList, Constants.listeningAddrPort),
    ("[raw]".toList, "CONNECT [host_port] HTTP/1.1".toList),
    ("[netData]".toList, "CONNECT [host_port] [protocol]".toList),
    ("[crlf][crlf]".toList, crlf),
    ("[crlf][crlf][crlf]".toList, crlf),
    ("[crlf][crlf][crlf][crlf]".toList, crlf),
    ("[crlf]".toList, crlf),
    ("[cr]".toList, ['\r']),
    ("[cr][cr]".toList, ['\r']),
    ("[cr][cr][cr]".toList, ['\r']),
    ("[cr][cr][cr][cr]".toList, ['\r']),
    ("[lf]".toList, ['\n']),
    ("[lf][lf]".toList, ['\n']),
    ("[lf][lf][lf]".toList, ['\n']),
    ("[lf][lf][lf][lf]".toList, ['\n']),
    ("[lfcr]".toList, ['\n', '\r']),
    ("[lfcr][lfcr]".toList, ['\n', '\r']),
    ("[lfcr][lfcr][lfcr]".toList, ['\n', '\r']),
    ("[lfcr][lfcr][lfcr][lfcr]".toList, ['\n', '\r']),
    ("[protocol]".toList, "HTTP/1.0".toList),
    ("[ua]".toList, ("Mozilla/5.0 (Windows NT 6.3; WOW64) AppleWebKit/537.36 (KHTML, like Gecko) " ++
      "Chrome/44.0.2403.130 Safari/537.36").toList),
    ("[method]".toList, "CONNECT".toList),
    ("\\n".toList, ['\n']),
    ("\\r".toList, ['\n'])]

/-- The payload piece with its placeholders replaced, one after another. -/
def expand (payloadConfig : List Char) : List Char :=
  placeholders.foldl (fun text p => Text.replace p.1 p.2 text) payloadConfig

def buildPayload (f : Fields) (payloadConfig : List Char) (action : Nat) (id : List Char) : List Char :=
  let builder := expand payloadConfig
  match action with
  | 1 =>
    builder ++ Constants.actionHeader ++ Constants.actionCreate ++ crlf ++
      (match f.pass with
        | some pass => Constants.passHeader ++ pass ++ crlf
        | none => []) ++
      Constants.targetHeader ++ f.target ++ crlf ++ Constants.contentHeader ++ "0".toList ++ crlf ++ crlf
  | 2 =>
    builder ++ Constants.actionHeader ++ Constants.actionComplete ++ crlf ++ Constants.idHeader ++ id ++ crlf ++
      "Connection: close".toList ++ crlf ++ crlf
  | 3 =>
    builder ++ Constants.actionHeader ++ Constants.actionData ++ crlf ++
      Constants.contentHeader ++ "2147483647".toList ++ crlf ++ "Connection: Keep-Alive".toList ++ crlf ++ crlf
  | _ => builder

/-! ### The handshake -/

/-- The bytes written so far, on the write socket and on the read socket. -/
structure Written where
  writeOut : List UInt8 := []
  readOut : List UInt8 := []

abbrev Io := ExceptT Exc (StateM Written)

def connect (p : Peer) : Io Unit := if p.connects then pure () else throw .io

def sendConnectionCreate (f : Fields) (connConfig : List Char) (p : Peer) : Io Unit :=
  if p.accepts then
    modify fun w => { w with writeOut := w.writeOut ++ Utf8.encode (buildPayload f connConfig 1 "0".toList) }
  else throw .io

def sendConnectionComplete (f : Fields) (connConfig : List Char) (p : Peer) (id : List Char) : Io Unit :=
  if p.accepts then
    modify fun w => { w with readOut := w.readOut ++ Utf8.encode (buildPayload f connConfig 2 id) }
  else throw .io

def nullableToString : Option (List Char) → List Char
  | some s => s
  | none => "null".toList

/-- A response that reads well and has the status message asked for. -/
def receive (p : Peer) (msg : List Char) : Io ServerResponse := do
  let (valid, response) ← (ServerResponse.read p : Except Exc _)
  if !valid then throw .io
  else if response.statusMsg ≠ some msg then throw .io
  else return response

/-- `establishConnection`, between the servers on the write socket and on the read socket. -/
def establishConnection (f : Fields) (connConfig : List Char) (write read : Peer) : Io Bool := do
  connect write
  sendConnectionCreate f connConfig write
  let response ← receive write Constants.msgConnectionCreated
  let id := nullableToString response.id
  connect read
  sendConnectionComplete f connConfig read id
  let _ ← receive read Constants.msgConnectionCompleted
  return true

/-- The result of `establishConnection`, and what it has written. -/
def handshake (f : Fields) (connConfig : List Char) (write read : Peer) : Except Exc Bool × Written :=
  (establishConnection f connConfig write read).run.run {}

/-! ### The rounds of `run` -/

def sendDataRequest (f : Fields) (connConfig : List Char) (p : Peer) : Io Unit :=
  if p.accepts then
    modify fun w => { w with writeOut := w.writeOut ++ Utf8.encode (buildPayload f connConfig 3 "0".toList) }
  else throw .io

/-- One turn of the loop of `run`: what it has written to the two servers, for the piece it is about. -/
structure Round where
  config : List Char
  written : Written

/-- The handshake of one turn, and the data request behind it. -/
def round (f : Fields) (config : List Char) (write read : Peer) : Except Exc Unit × Written :=
  (do
    if ← establishConnection f config write read then sendDataRequest f config write : Io Unit).run.run {}

/-- The loop of `run` over the pieces, with the two servers that each turn connects to. -/
def rounds (f : Fields) : List (List Char) → (Nat → Peer × Peer) → Except Exc Unit × List Round
  | [], _ => (.ok (), [])
  | config :: configs, servers =>
    let (result, written) := round f config (servers 0).1 (servers 0).2
    match result with
    | .error e => (.error e, [⟨config, written⟩])
    | .ok _ =>
      let (result, rest) := rounds f configs fun i => servers (i + 1)
      (result, ⟨config, written⟩ :: rest)

/-- `run`, as the servers see it: its rounds one after another, up to the first exception. -/
def run (f : Fields) (payloadConfig : String) (servers : Nat → Peer × Peer) : Except Exc Unit × List Round :=
  rounds f (pieces payloadConfig) servers

end Connection
end NicVpn
