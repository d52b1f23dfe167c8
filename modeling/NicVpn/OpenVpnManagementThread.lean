import NicVpn.Lib.Text
import NicVpn.Lib.Utf8

/-! The thread that speaks with the native process over the management socket: how it cuts what it reads
    into commands, and how it answers the questions among them. -/

namespace NicVpn
namespace OpenVpnManagementThread

/-! ### Input -/

/-- What one `instream.read(buffer)` fills of the buffer. -/
structure Read where
  bytes : List UInt8
  nonempty : bytes ≠ []
  fits : bytes.length ≤ 2048

/-- `split("\\r?\\n", 2)`: the text before the first match, and the text after it. -/
def split : List Char → List Char × Option (List Char)
  | [] => ([], none)
  | '\n' :: s => ([], some s)
  | '\r' :: '\n' :: s => ([], some s)
  | c :: s => (c :: (split s).1, (split s).2)

/-- What is left of the input, and the commands that `processCommand` was called with so far. -/
structure Input where
  pendingInput : List Char
  commands : List (List Char)
  deriving Repr, DecidableEq

/-- The loop of `processInput`. Each turn takes a line feed away, so the length of the text is fuel enough. -/
def processLoop : Nat → Input → Input
  | 0, i => i
  | fuel + 1, i =>
    if '\n' ∈ i.pendingInput then
      let tokens := split i.pendingInput
      processLoop fuel { pendingInput := tokens.2.getD [], commands := i.commands ++ [tokens.1] }
    else i

def processInput (i : Input) : Input := processLoop i.pendingInput.length i

/-- One turn of the loop of `run`: each read is decoded on its own. -/
def read (i : Input) (r : Read) : Input :=
  processInput { i with pendingInput := i.pendingInput ++ Utf8.decode r.bytes }

/-- The commands of all reads until the socket is closed. -/
def run (reads : List Read) : List (List Char) := (reads.foldl read { pendingInput := [], commands := [] }).commands

/-! ### Questions -/

/-- The kinds of `>NEED-OK` that `processNeedCommand` knows. -/
inductive Needed
  | protectfd | dnsserver | dns6server | dnsdomain | route | route6 | ifconfig | ifconfig6 | persistTunAction | opentun
  deriving Repr, DecidableEq

def Needed.name : Needed → List Char
  | .protectfd => "PROTECTFD".toList
  | .dnsserver => "DNSSERVER".toList
  | .dns6server => "DNS6SERVER".toList
  | .dnsdomain => "DNSDOMAIN".toList
  | .route => "ROUTE".toList
  | .route6 => "ROUTE6".toList
  | .ifconfig => "IFCONFIG".toList
  | .ifconfig6 => "IFCONFIG6".toList
  | .persistTunAction => "PERSIST_TUN_ACTION".toList
  | .opentun => "OPENTUN".toList

def Needed.all : List Needed :=
  [.protectfd, .dnsserver, .dns6server, .dnsdomain, .route, .route6, .ifconfig, .ifconfig6, .persistTunAction, .opentun]

/-- The `switch` over the name. -/
def Needed.ofName? (name : List Char) : Option Needed := Needed.all.find? fun n => n.name == name

/-- What `openTun` ends with. -/
inductive Tun
  | descriptor (fd : Nat)
  | null
  | threw
  deriving Repr, DecidableEq

/-- What the thread calls, over the state `σ` of the rest of the application. `none` is an unchecked
    exception. `setInt` says whether the hidden method is found and returns, `close` whether closing the
    descriptor returns without an `IOException`. -/
structure Service (σ : Type) where
  protectFileDescriptor : Option Nat → σ → Option σ
  addDNS : List Char → σ → Option σ
  setDomain : List Char → σ → Option σ
  addRoute : List Char → List Char → List Char → Option (List Char) → σ → Option σ
  addRoutev6 : List Char → List Char → σ → Option σ
  setLocalIP : List Char → List Char → Int → List Char → σ → Option σ
  setMtu : Int → σ → Option σ
  setLocalIPv6 : List Char → σ → Option σ
  getTunReopenStatus : σ → List Char
  openTun : σ → Tun × σ
  setInt : σ → Bool
  close : σ → Bool

/-- A command written to the socket, with the descriptor that goes with it. -/
structure Line where
  text : List Char
  fd : Option Nat
  deriving Repr, DecidableEq

structure Thread (σ : Type) where
  service : σ
  mFDList : List Nat
  /-- What `setFileDescriptorsForSend` was called with last: it is sent with every write. -/
  fdsForSend : Option Nat

def words (s : List Char) : List (List Char) := Text.parts ' ' s

/-- The text between the first two quotes. -/
def quoted (argument : List Char) : Option (List Char) :=
  match argument.dropWhile (· ≠ '\'') with
  | [] => none
  | _ :: rest => if '\'' ∈ rest then some (rest.takeWhile (· ≠ '\'')) else none

/-- `split(":", 2)[1]` -/
def extra (argument : List Char) : Option (List Char) :=
  match argument.dropWhile (· ≠ ':') with
  | [] => none
  | _ :: rest => some rest

def needok (needed status : List Char) : List Char := "needok '".toList ++ needed ++ "' ".toList ++ status ++ ['\n']

def ok : List Char := "ok".toList

def cancel : List Char := "cancel".toList

section
variable {σ : Type} (S : Service σ)

/-- The kinds that only tell the service something. -/
def push (needed : Needed) (extra : List Char) (s : σ) : Option σ :=
  match needed with
  | .dnsserver | .dns6server => S.addDNS extra s
  | .dnsdomain => S.setDomain extra s
  | .route =>
    let routeparts := words extra
    if routeparts.length == 5 then
      S.addRoute (routeparts.getD 0 []) (routeparts.getD 1 []) (routeparts.getD 2 []) routeparts[4]? s
    else if routeparts.length ≥ 3 then
      S.addRoute (routeparts.getD 0 []) (routeparts.getD 1 []) (routeparts.getD 2 []) none s
    else some s
  | .route6 => do
    let network ← (words extra)[0]?
    let device ← (words extra)[1]?
    S.addRoutev6 network device s
  | .ifconfig => do
    let mtu ← Text.toInt (← (words extra)[2]?)
    let mode ← (words extra)[3]?
    S.setLocalIP ((words extra).getD 0 []) ((words extra).getD 1 []) mtu mode s
  | .ifconfig6 => do
    let mtu ← Text.toInt (← (words extra)[1]?)
    S.setMtu mtu s >>= S.setLocalIPv6 ((words extra).getD 0 [])
  | .protectfd | .persistTunAction | .opentun => some s

namespace Thread

def managmentCommand (t : Thread σ) (cmd : List Char) : Line := { text := cmd, fd := t.fdsForSend }

/-- The returned flag, and the lines that it wrote itself. -/
def sendTunFD (t : Thread σ) (needed extra : List Char) : Option (Bool × Thread σ × List Line) :=
  if extra ≠ "tun".toList then some (false, t, [])
  else
    match S.openTun t.service with
    | (.threw, _) => none
    | (.null, s) => some (false, { t with service := s }, [])
    | (.descriptor fd, s) =>
      let t := { t with service := s }
      if S.setInt s then
        let t := { t with fdsForSend := some fd }
        let line := t.managmentCommand (needok needed ok)
        -- after the write the descriptor is taken back, and a failing close only makes the result false
        some (S.close s, { t with fdsForSend := none }, [line])
      else some (false, t, [])

/-- The status of a question, and the lines written before the answer. -/
def status (t : Thread σ) (needed : Needed) (extra : List Char) : Option (List Char × Thread σ × List Line) :=
  match needed with
  | .protectfd => do
    let s ← S.protectFileDescriptor t.mFDList.head? t.service
    some (ok, { t with service := s, mFDList := t.mFDList.tail }, [])
  | .persistTunAction => some (S.getTunReopenStatus t.service, t, [])
  | .opentun => do
    let (sent, t, lines) ← t.sendTunFD S needed.name extra
    some (if sent then ok else cancel, t, lines)
  | .dnsserver | .dns6server | .dnsdomain | .route | .route6 | .ifconfig | .ifconfig6 => do
    let s ← push S needed extra t.service
    some (ok, { t with service := s }, [])

/-- The lines that one question writes; `none` ends the thread. -/
def processNeedCommand (t : Thread σ) (argument : List Char) : Option (Thread σ × List Line) := do
  let name ← quoted argument
  let extra ← extra argument
  match Needed.ofName? name with
  | none => some (t, [])
  | some needed =>
    let (status, t, lines) ← t.status S needed extra
    some (t, lines ++ [t.managmentCommand (needok needed.name status)])

end Thread
end

end OpenVpnManagementThread
end NicVpn
