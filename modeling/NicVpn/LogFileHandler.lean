import NicVpn.Lib.Run
import Mathlib.Data.List.Basic

/-! The log of `VpnStatus` and its cache on disk. Any thread puts items into the buffer and messages into the queue of
    `LogFileHandler`; the handler first reads the file of the previous run, which restores its items one by one, and
    then takes one message after the other. A log item is an object of its own, so it is known by where it comes from;
    the bytes of its record are not part of the model, and the file can be written. -/

namespace NicVpn
namespace LogFileHandler
open StepSystem

def maxLogEntries : Nat := 1000

/-- An item of the cache file, or the item that the `n`-th call of this run made. -/
inductive LogItem
  | cached (n : Nat)
  | logged (n : Nat)
  deriving DecidableEq, Repr

/-- The messages that the handler takes after `LOG_INIT`. -/
inductive Message
  | logMessage (logItem : LogItem)
  | trimLogFile
  | flushToDisk
  deriving DecidableEq, Repr

inductive Handler
  /-- `LOG_INIT` is the first message; the file of the previous run, if there is one, holds these items. -/
  | created (cacheFile : Option (List LogItem))
  /-- The items that are still to be read, and how many have been. -/
  | reading (items : List LogItem) (itemsRead : Nat)
  /-- `mLogFile` is open and holds these items. -/
  | ready (logFile : List LogItem)
  deriving DecidableEq, Repr

structure State where
  logbuffer : List LogItem
  handler : Handler
  queue : List Message := []
  /-- The items made in this run so far. -/
  made : Nat
  deriving DecidableEq, Repr

/-! ### `VpnStatus` -/

def sendMessage (s : State) (m : Message) : State := { s with queue := s.queue ++ [m] }

/-- The oldest items go as soon as there are too many. -/
def trimBuffer (s : State) : State :=
  if maxLogEntries + maxLogEntries / 2 < s.logbuffer.length then
    sendMessage { s with logbuffer := s.logbuffer.drop (s.logbuffer.length - maxLogEntries) } .trimLogFile
  else s

def newLogItem (s : State) (logItem : LogItem) (cachedLine : Bool) : State :=
  trimBuffer
    (if cachedLine then { s with logbuffer := logItem :: s.logbuffer }
    else sendMessage { s with logbuffer := s.logbuffer ++ [logItem] } (.logMessage logItem))

/-- `logInfo`, `logDebug`, `logError` and their like. -/
def log (s : State) : State := newLogItem { s with made := s.made + 1 } (.logged s.made) false

def clearLog (s : State) : State := sendMessage (log { s with logbuffer := [] }) .trimLogFile

/-! ### The handler -/

/-- One round of the loop of `readCacheContents`, or its end and `openLogFile`. -/
def readCacheContents (s : State) : List LogItem → Nat → State
  | logItem :: items, itemsRead =>
    let s := newLogItem s logItem true
    if 2 * maxLogEntries < itemsRead + 1 then { log s with handler := .reading [] (itemsRead + 1) }
    else { s with handler := .reading items (itemsRead + 1) }
  | [], _ => { log s with handler := .ready [] }

/-- A message after `LOG_INIT`, with what the file holds then. -/
def writeLog (s : State) (logFile : List LogItem) : Message → State
  | .logMessage logItem => { s with handler := .ready (logFile ++ [logItem]) }
  | .trimLogFile => { s with handler := .ready s.logbuffer }
  | .flushToDisk => s

/-- The handler goes on, if there is something to do. -/
def handleMessage (s : State) : Option State :=
  match s.handler with
  | .created none => some { s with handler := .ready [] }
  | .created (some items) => some { s with handler := .reading items 0 }
  | .reading items itemsRead => some (readCacheContents s items itemsRead)
  | .ready logFile =>
    match s.queue with
    | [] => none
    | m :: queue => some (writeLog { s with queue := queue } logFile m)

/-! ### Runs -/

inductive Event
  | newLogItem
  | clearLog
  | flushLog
  | handleMessage
  deriving DecidableEq, Repr

def step (s : State) : Event → Option State
  | .newLogItem => some (log s)
  | .clearLog => some (clearLog s)
  | .flushLog => some (sendMessage s .flushToDisk)
  | .handleMessage => handleMessage s

/-- What the program starts with: some items in the buffer, logged before there was a handler. -/
structure Init (cacheFile : Option (List Nat)) (s : State) : Prop where
  handler : s.handler = .created (cacheFile.map (List.map .cached))
  queue : s.queue = []
  length : s.logbuffer.length ≤ maxLogEntries + maxLogEntries / 2
  nodup : s.logbuffer.Nodup
  logged : ∀ x ∈ s.logbuffer, ∃ n < s.made, x = .logged n

def system (cacheFile : Option (List Nat)) : System State Event where
  init := Init cacheFile
  step := step

/-- Nothing is left to do. -/
def Idle (s : State) : Prop := s.queue = [] ∧ ∃ logFile, s.handler = .ready logFile

end LogFileHandler
end NicVpn
