import Mathlib.Data.List.Basic

/-! `Base64` of the application's own tools. A byte is signed, and the bits are taken from its `Int`; arrays are checked
    at each access. The decoder casts an `Int` to a `Byte`, which is no conversion: the cast never succeeds. -/

namespace NicVpn.Tools

abbrev Byte := BitVec 8

/-- The exceptions of an array and of a cast, and the one that the decoder throws itself. -/
inductive Base64Error
  | arrayIndexOutOfBounds
  | negativeArraySize
  | classCast
  | illegalState
  deriving DecidableEq, Repr

namespace Base64

abbrev Result := Except Base64Error

/-- The result of an operation on `Int`. -/
def int (n : Int) : Int := n.bmod 4294967296

def get (buf : List Byte) (i : Int) : Result Byte :=
  match if 0 ≤ i then buf[i.toNat]? else none with
  | some b => .ok b
  | none => .error .arrayIndexOutOfBounds

def set (buf : List Byte) (i : Int) (b : Byte) : Result (List Byte) :=
  if 0 ≤ i ∧ i < buf.length then .ok (buf.set i.toNat b) else .error .arrayIndexOutOfBounds

/-- `ByteArray(size)` -/
def byteArray (size : Int) : Result (List Byte) :=
  if 0 ≤ size then .ok (List.replicate size.toNat 0) else .error .negativeArraySize

/-- A new array of the first bytes, by `System.arraycopy`. -/
def copy (buf : List Byte) (size : Int) : Result (List Byte) :=
  if size < 0 then .error .negativeArraySize
  else if size ≤ buf.length then .ok (buf.take size.toNat)
  else .error .arrayIndexOutOfBounds

def toInt (b : Byte) : BitVec 32 := b.signExtend 32

/-- `as Byte` of an `Int`. -/
def asByte (_ : BitVec 32) : Result Byte := .error .classCast

def b64 : List Byte :=
  "ABCDEFGHIJKLMNOPQRSTUVWXYZabcdefghijklmnopqrstuvwxyz0123456789+/=".toList.map fun c => BitVec.ofNat 8 c.toNat

def valueValidate (foo : Byte) : Byte :=
  if foo = 61 then 0 else BitVec.ofNat 8 ((b64.idxOf? foo).getD 0)

/-! ### The decoder -/

/-- The loop of `fromBase64`: the bytes, and how many of them there are. -/
def fromBase64Loop (buf : List Byte) (stop : Int) (foo : List Byte) (j i : Int) : Result (List Byte × Int) :=
  if stop ≤ i then .ok (foo, j)
  else do
    let b0 ← get buf i
    let b1 ← get buf (i + 1)
    let foo ← set foo j (← asByte (toInt (valueValidate b0) <<< 2 ||| (toInt (valueValidate b1) &&& 48) >>> 4))
    let b2 ← get buf (i + 2)
    if b2 = 61 then return (foo, j + 1)
    let foo ← set foo (j + 1)
      (← asByte ((toInt (valueValidate b1) &&& 15) <<< 4 ||| (toInt (valueValidate b2) &&& 60) >>> 2))
    let b3 ← get buf (i + 3)
    if b3 = 61 then return (foo, j + 2)
    let foo ← set foo (j + 2) (← asByte ((toInt (valueValidate b2) &&& 3) <<< 6 ||| toInt (valueValidate b3) &&& 63))
    fromBase64Loop buf stop foo (j + 3) (i + 4)
termination_by (stop - i).toNat

/-- A bad index becomes an `IllegalStateException`; no other exception is caught. -/
def caught {α : Type} (r : Result α) : Result α :=
  match r with
  | .error .arrayIndexOutOfBounds => .error .illegalState
  | r => r

def fromBase64 (buf : List Byte) (start length : Int) : Result (List Byte) :=
  caught do
    let foo ← byteArray length
    let (foo, j) ← fromBase64Loop buf (int (start + length)) foo 0 start
    copy foo j

/-! ### The encoder -/

/-- `b64.get` -/
def letter (n : BitVec 32) : Result Byte := get b64 n.toInt

def first (b0 : Byte) : BitVec 32 := toInt b0 >>> 2 &&& 63

def second (b0 b1 : Byte) : BitVec 32 := (toInt b0 &&& 3) <<< 4 ||| (toInt b1 >>> 4 &&& 15)

def third (b1 b2 : Byte) : BitVec 32 := (toInt b1 &&& 15) <<< 2 ||| (toInt b2 >>> 6 &&& 3)

def fourth (b2 : Byte) : BitVec 32 := toInt b2 &&& 63

/-- The loop of `toBase64` over whole groups: the letters so far, and the next indices in both arrays. -/
def toBase64Loop (buf : List Byte) (foo : Int) (tmp : List Byte) (j i2 : Int) : Result (List Byte × Int × Int) :=
  if foo ≤ j then .ok (tmp, j, i2)
  else do
    let tmp ← set tmp i2 (← letter (first (← get buf j)))
    let tmp ← set tmp (i2 + 1) (← letter (second (← get buf j) (← get buf (j + 1))))
    let tmp ← set tmp (i2 + 2) (← letter (third (← get buf (j + 1)) (← get buf (j + 2))))
    let tmp ← set tmp (i2 + 3) (← letter (fourth (← get buf (j + 2))))
    toBase64Loop buf foo tmp (j + 3) (i2 + 4)
termination_by (foo - j).toNat

/-- The last group, of one byte or of two. -/
def toBase64Rest (buf : List Byte) (foo2 : Int) (tmp : List Byte) (j i2 : Int) : Result (List Byte × Int) :=
  if foo2 = 1 then do
    let tmp ← set tmp i2 (← letter (first (← get buf j)))
    let tmp ← set tmp (i2 + 1) (← letter ((toInt (← get buf j) &&& 3) <<< 4 &&& 63))
    let tmp ← set tmp (i2 + 2) 61
    let tmp ← set tmp (i2 + 3) 61
    return (tmp, i2 + 4)
  else if foo2 = 2 then do
    let tmp ← set tmp i2 (← letter (first (← get buf j)))
    let tmp ← set tmp (i2 + 1) (← letter (second (← get buf j) (← get buf (j + 1))))
    let tmp ← set tmp (i2 + 2) (← letter ((toInt (← get buf (j + 1)) &&& 15) <<< 2 &&& 63))
    let tmp ← set tmp (i2 + 3) 61
    return (tmp, i2 + 4)
  else return (tmp, i2)

def toBase64 (buf : List Byte) (start length : Int) : Result (List Byte) := do
  let tmp ← byteArray (int (length * 2))
  let foo := length.tdiv 3 * 3 + start
  let (tmp, j, i2) ← toBase64Loop buf foo tmp start 0
  let (tmp, i) ← toBase64Rest buf (start + length - foo) tmp j i2
  copy tmp i

end Base64
end NicVpn.Tools
