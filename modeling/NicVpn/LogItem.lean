import NicVpn.Lib.Reading
import NicVpn.Lib.Utf8

/-! A log item and its record. The numbers of a record are big-endian, a text is its length and its UTF-8 bytes, and
    each argument has a `char` in front that tells its kind. -/

namespace NicVpn

/-- `VpnStatus.LogLevel` -/
inductive LogLevel
  | info
  | error
  | warning
  | verbose
  | debug
  deriving DecidableEq, Repr

namespace LogLevel

def getInt : LogLevel → BitVec 32
  | info => 2
  | error => -2
  | warning => 1
  | verbose => 3
  | debug => 4

def getEnumByValue (value : BitVec 32) : Option LogLevel :=
  if value = 2 then some info
  else if value = -2 then some error
  else if value = 1 then some warning
  else if value = 3 then some verbose
  else if value = 4 then some debug
  else none

theorem getEnumByValue_getInt (level : LogLevel) : getEnumByValue level.getInt = some level := by
  cases level <;> rfl

end LogLevel

/-- An object of `mArgs`. A floating point number is known by its bits. -/
inductive Arg
  | string (s : List Char)
  | integer (n : BitVec 32)
  | float (bits : BitVec 32)
  | double (bits : BitVec 64)
  | long (n : BitVec 64)
  | null
  /-- An object of another class, with what its `toString` gives. -/
  | other (toString : List Char)
  deriving DecidableEq, Repr

structure LogItem where
  mArgs : Option (List Arg) := none
  mMessage : Option (List Char) := none
  mRessourceId : BitVec 32 := 0
  mLevel : Option LogLevel := some .info
  logtime : BitVec 64
  mVerbosityLevel : BitVec 32 := -1
  deriving DecidableEq, Repr

namespace LogItem

/-- The exceptions of writing and of reading a record. -/
inductive Failure
  | nullPointer
  | bufferOverflow
  | bufferUnderflow
  | negativeArraySize
  /-- `ByteBuffer.wrap` with a length that the array does not have. -/
  | indexOutOfBounds
  /-- "String length `len` is bigger than remaining bytes `remaining`" -/
  | stringLength (len : Int) (remaining : Nat)
  /-- "Too many arguments for Logitem to unmarschal" -/
  | tooManyArguments
  /-- "Unknown format type: `type`" -/
  | unknownFormat (type : BitVec 16)
  /-- "`remaining` bytes left after unmarshaling everything" -/
  | bytesLeft (remaining : Nat)
  deriving DecidableEq, Repr

/-! ### Writing -/

def capacity : Nat := 16384

/-- What has been put into `ByteBuffer.allocate(16384)`. -/
structure ByteBuffer where
  bytes : List UInt8
  le : bytes.length ≤ capacity

namespace ByteBuffer

def allocate : ByteBuffer := ⟨[], Nat.zero_le _⟩

def put (bb : ByteBuffer) (l : List UInt8) : Except Failure ByteBuffer :=
  if h : (bb.bytes ++ l).length ≤ capacity then .ok ⟨bb.bytes ++ l, h⟩ else .error .bufferOverflow

/-- `putChar`, `putInt`, `putLong`, and `putFloat` and `putDouble` of the bits. -/
def putWord {n : Nat} (bb : ByteBuffer) (w : BitVec n) : Except Failure ByteBuffer := bb.put (BigEndian.ofWord w)

def putInt (bb : ByteBuffer) (n : BitVec 32) : Except Failure ByteBuffer := bb.putWord n

end ByteBuffer

/-- The code unit of a tag. -/
def tag (c : Char) : BitVec 16 := BitVec.ofNat 16 c.toNat

def marschalString (str : List Char) (bb : ByteBuffer) : Except Failure ByteBuffer := do
  let utf8bytes := Utf8.encode str
  let bb ← bb.putInt (BitVec.ofNat 32 utf8bytes.length)
  bb.put utf8bytes

def marschalArg (bb : ByteBuffer) : Arg → Except Failure ByteBuffer
  | .string s => do
    let bb ← bb.putWord (tag 's')
    marschalString s bb
  | .integer n => do
    let bb ← bb.putWord (tag 'i')
    bb.putWord n
  | .float bits => do
    let bb ← bb.putWord (tag 'f')
    bb.putWord bits
  | .double bits => do
    let bb ← bb.putWord (tag 'd')
    bb.putWord bits
  | .long n => do
    let bb ← bb.putWord (tag 'l')
    bb.putWord n
  | .null => bb.putWord (tag '0')
  | .other toString => do
    let bb ← bb.putWord (tag 's')
    marschalString toString bb

/-- The part of `getMarschaledBytes` for the message. -/
def marschalMessage (bb : ByteBuffer) : Option (List Char) → Except Failure ByteBuffer
  | none | some [] => bb.putInt 0
  | some message => marschalString message bb

/-- The part of `getMarschaledBytes` for the arguments. -/
def marschalArgs (bb : ByteBuffer) : Option (List Arg) → Except Failure ByteBuffer
  | none | some [] => bb.putInt 0
  | some args => do
    let bb ← bb.putInt (BitVec.ofNat 32 args.length)
    args.foldlM marschalArg bb

def getMarschaledBytes (li : LogItem) : Except Failure (List UInt8) := do
  -- version
  let bb ← ByteBuffer.allocate.put [0]
  let bb ← bb.putWord li.logtime
  let bb ← bb.putInt li.mVerbosityLevel
  let level ← li.mLevel.elim (.error .nullPointer) .ok
  let bb ← bb.putInt level.getInt
  let bb ← bb.putInt li.mRessourceId
  let bb ← marschalMessage bb li.mMessage
  let bb ← marschalArgs bb li.mArgs
  return bb.bytes

/-! ### Reading -/

abbrev Unmarschal := Reader UInt8 Failure

/-- `getChar`, `getInt`, `getLong`, and the bits that `getFloat` and `getDouble` read. -/
def getWord (n : Nat) : Unmarschal (BitVec n) := do
  let l ← Reader.take (n / 8) .bufferUnderflow
  return BigEndian.toWord n l

/-- `new byte[len]` and `get` into it. -/
def getBytes (len : BitVec 32) : Unmarschal (List UInt8) :=
  if len.toInt < 0 then throw .negativeArraySize else Reader.take len.toNat .bufferUnderflow

def unmarschalString : Unmarschal (List Char) := do
  let len ← getWord 32
  let utf8bytes ← getBytes len
  return Utf8.decode utf8bytes

def unmarschalMessage : Unmarschal (Option (List Char)) := do
  let len ← getWord 32
  if len = 0 then return none
  else
    let remaining ← Reader.remaining
    if (remaining : Int) < len.toInt then throw (.stringLength len.toInt remaining)
    else
      let utf8bytes ← getBytes len
      return some (Utf8.decode utf8bytes)

def unmarschalArg : Unmarschal Arg := do
  let type ← getWord 16
  if type = tag 's' then
    let s ← unmarschalString
    return .string s
  else if type = tag 'i' then
    let n ← getWord 32
    return .integer n
  else if type = tag 'd' then
    let bits ← getWord 64
    return .double bits
  else if type = tag 'f' then
    let bits ← getWord 32
    return .float bits
  else if type = tag 'l' then
    let n ← getWord 64
    return .long n
  else if type = tag '0' then return .null
  else throw (.unknownFormat type)

def unmarschalArgs : Unmarschal (Option (List Arg)) := do
  let numArgs ← getWord 32
  if 30 < numArgs.toInt then throw .tooManyArguments
  else if numArgs = 0 then return none
  else if numArgs.toInt < 0 then throw .negativeArraySize
  else
    let args ← Reader.times unmarschalArg numArgs.toNat
    return some args

def unmarschal : Unmarschal LogItem := do
  -- ignore version
  let _ ← Reader.take 1 .bufferUnderflow
  let logtime ← getWord 64
  let mVerbosityLevel ← getWord 32
  let level ← getWord 32
  let mRessourceId ← getWord 32
  let mMessage ← unmarschalMessage
  let mArgs ← unmarschalArgs
  return { mArgs, mMessage, mRessourceId, mLevel := LogLevel.getEnumByValue level, logtime, mVerbosityLevel }

/-- The constructor `LogItem(byte[] in, int length)`. -/
def ofBytes (bytes : List UInt8) (length : Int) : Except Failure LogItem :=
  if length < 0 ∨ bytes.length < length then .error .indexOutOfBounds
  else do
    let (li, rest) ← unmarschal.run (bytes.take length.toNat)
    if rest = [] then return li else throw (.bytesLeft rest.length)

def verify (li : LogItem) : Bool := li.mLevel.isSome && (li.mMessage.isSome || li.mRessourceId != 0)

end LogItem
end NicVpn
