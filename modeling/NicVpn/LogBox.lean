import NicVpn.Lib.Text

/-! `LogBox`: the last logs, told to a listener as one text when logs have been added. -/

namespace NicVpn

structure LogBox where
  /-- A listener is set. -/
  listener : Bool := false
  logList : List (List Char) := []
  boxSize : BitVec 32 := 50
  lastCount : BitVec 64 := -1
  logCount : BitVec 64 := 0
  deriving DecidableEq, Repr

namespace LogBox

def setBoxSize (b : LogBox) (boxSize : BitVec 32) : LogBox := { b with boxSize }

def setListener (b : LogBox) (listener : Bool) : LogBox := { b with listener }

def clearLog (b : LogBox) : LogBox := { b with logList := [] }

/-- `poll` of an empty list does nothing. -/
def addLog (b : LogBox) (log : List Char) : LogBox :=
  let logList := if BitVec.ofNat 32 b.logList.length = b.boxSize then b.logList.tail else b.logList
  { b with logList := logList ++ [log], logCount := b.logCount + 1 }

def indent : List Char := List.replicate 20 ' '

/-- The text of one log, between the line feeds and the indentation of the source. -/
def entry (log : List Char) : List Char :=
  Text.trimIndent ('\n' :: indent ++ log ++ '\n' :: indent ++ '\n' :: indent)

def toString (b : LogBox) : List Char := b.logList.flatMap entry

/-- The box, and the text that `onLog` is given. -/
def call (b : LogBox) : LogBox × Option (List Char) :=
  if b.listener ∧ b.lastCount ≠ b.logCount then ({ b with lastCount := b.logCount }, some b.toString)
  else (b, none)

end LogBox
end NicVpn
