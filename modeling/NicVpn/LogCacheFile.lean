import NicVpn.LogFileHandler
import NicVpn.LogItem

/-! The bytes of the cache file: a magic byte, the length and the escaped record for each item. The reader looks for the
    magic byte, reads the record byte by byte and starts over where the file is damaged. What `restoreLogItem` does is a
    parameter of the reader, which ends with the first exception; reading at the end of the file gives -1. -/

namespace NicVpn
namespace LogCacheFile
open LogFileHandler (maxLogEntries)

def magicByte : UInt8 := 0x55

/-- `buf.length` -/
def bufLength : Nat := 16384

/-! ### Writing -/

/-- What `eBytes` gets for a byte. -/
def escape (b : UInt8) : List UInt8 :=
  if b = magicByte ∨ b = magicByte + 1 then [magicByte + 1, b - magicByte] else [b]

/-- The bytes that `writeEscapedBytes` appends to the file. -/
def writeEscapedBytes (bytes : List UInt8) : List UInt8 :=
  magicByte :: (BigEndian.ofWord (BitVec.ofNat 32 bytes.length) ++ bytes.flatMap escape)

/-! ### Reading -/

/-- `logFile.read(buf, offset, length)`: the result, the buffer, and what is left of the file. -/
def readInto (buf : List UInt8) (offset length : Nat) (input : List UInt8) : Int × List UInt8 × List UInt8 :=
  let bytes := input.take length
  (if input = [] then -1 else bytes.length, buf.take offset ++ bytes ++ buf.drop (offset + bytes.length),
    input.drop length)

/-- `(byte) logFile.read()` -/
def readByte : List UInt8 → UInt8 × List UInt8
  | [] => (0xff, [])
  | b :: input => (b, input)

/-- The search for a magic byte from `buf[skipped]` on; one byte more is read for each that is skipped. -/
def skip (buf : List UInt8) (skipped : Nat) (input : List UInt8) : Option (List UInt8 × Nat × List UInt8) :=
  if buf.getD skipped 0 = magicByte then some (buf, skipped, input)
  else
    match input with
    | [] => none
    | b :: input =>
      if bufLength < skipped + 1 + 10 then none else skip (buf.set (skipped + 1 + 4) b) (skipped + 1) input

/-- The next byte of the record, or none behind a magic byte or a wrong escape. -/
def readEscaped (input : List UInt8) : Option UInt8 × List UInt8 :=
  let (b, input) := readByte input
  if b = magicByte then (none, input)
  else if b = magicByte + 1 then
    let (b, input) := readByte input
    if b = 0 then (some magicByte, input)
    else if b = 1 then (some (magicByte + 1), input)
    else (none, input)
  else (some b, input)

inductive Payload
  | complete (buf2 : List UInt8) (input : List UInt8)
  | aborted (input : List UInt8)
  /-- `buf2` has no place left. -/
  | outOfBounds
  deriving DecidableEq, Repr

/-- The loop over `pos`: so many bytes are still to be read, and `buf2` holds these. -/
def readPayload : Nat → List UInt8 → List UInt8 → Payload
  | 0, buf2, input => .complete buf2 input
  | n + 1, buf2, input =>
    match readEscaped input with
    | (none, input) => .aborted input
    | (some b, input) => if buf2.length < bufLength then readPayload n (buf2 ++ [b]) input else .outOfBounds

inductive Ending (ε : Type)
  | finished
  | outOfBounds
  | failed (exception : ε)
  deriving DecidableEq, Repr

/-- The calls of `restoreLogItem`, and how the reading ends. -/
structure Contents (ε : Type) where
  restored : List (List UInt8 × Int)
  ending : Ending ε
  deriving DecidableEq, Repr

/-- The variables of `readloop`. -/
structure Loop where
  buf : List UInt8
  read : Int
  input : List UInt8
  itemsRead : Nat
  restored : List (List UInt8 × Int)
  deriving DecidableEq, Repr

/-- The next five bytes. -/
def next (buf input : List UInt8) (itemsRead : Nat) (restored : List (List UInt8 × Int)) : Loop :=
  let (read, buf, input) := readInto buf 0 5 input
  { buf, read, input, itemsRead, restored }

section
variable {ε α : Type} (restoreLogItem : List UInt8 → Int → Except ε α)

/-- One round of `readloop`. -/
def readItem (s : Loop) : Contents ε ⊕ Loop :=
  match skip s.buf 0 s.input with
  | none => .inl ⟨s.restored, .finished⟩
  | some (buf, skipped, input) =>
    let len := (BigEndian.toWord 32 ((buf.drop (skipped + 1)).take 4)).toInt
    match readPayload len.toNat [] input with
    | .aborted input =>
      let (read, buf, input) := readInto buf 1 4 input
      .inr { s with buf, read := read + 1, input }
    | .outOfBounds => .inl ⟨s.restored, .outOfBounds⟩
    | .complete buf2 input =>
      let buf2 := buf2 ++ List.replicate (bufLength - buf2.length) 0
      let restored := s.restored ++ [(buf2, len)]
      match restoreLogItem buf2 len with
      | .error exception => .inl ⟨restored, .failed exception⟩
      | .ok _ =>
        let t := next buf input (s.itemsRead + 1) restored
        -- too many entries
        .inr (if 2 * maxLogEntries < t.itemsRead then { t with read := 0 } else t)

/-- `readloop`, in at most so many rounds. -/
def readloop : Nat → Loop → Option (Contents ε)
  | 0, _ => none
  | n + 1, s =>
    if s.read < 5 then some ⟨s.restored, .finished⟩
    else
      match readItem restoreLogItem s with
      | .inl contents => some contents
      | .inr s => readloop n s

/-- A round takes a byte of the file at least. -/
def readCacheContents (file : List UInt8) : Option (Contents ε) :=
  readloop restoreLogItem (file.length + 2) (next (List.replicate bufLength 0) file 0 [])

end

/-- The item for `VpnStatus.newLogItem`, or none if it is reported as unreadable. -/
def restoreLogItem (buf : List UInt8) (len : Int) : Except LogItem.Failure (Option LogItem) := do
  let li ← LogItem.ofBytes buf len
  return if li.verify then some li else none

end LogCacheFile
end NicVpn
