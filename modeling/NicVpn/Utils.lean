import NicVpn.Lib.Text
import NicVpn.Lib.Utf8

/-! The text transformations of `Utils`: a value is written as hexadecimal text, salted, and written as
    hexadecimal text again. Every preference and every field of an exported file goes through them. -/

namespace NicVpn

/-- The exceptions that the modelled code throws. -/
inductive Exc
  | indexOutOfBounds
  | numberFormat
  | badPadding
  | io
  | nullPointer
  deriving DecidableEq, Repr

namespace Utils

def bytesToHex (value : List UInt8) : String := String.ofList (value.flatMap Text.hexByte)

/-- `hexToBytes`: a text of odd length reads past its end. -/
def hexToBytes (s : String) : Except Exc (List UInt8) :=
  match Text.pairBytes (Text.digits 16 s.toList) with
  | some data => .ok data
  | none => .error .indexOutOfBounds

/-- The characters that a salt is drawn from. -/
def saltChars : List Char := "\x7d\x7dUrTYU%38[PJ%[PJö╝╕ï'╛?[hTd#v╢═¶ﺐﺼ".toList

/-- The indices that one call of `getSaltString` draws. -/
abbrev Draw := Nat → Fin saltChars.length

/-- `getSaltString`: the separator and `length` drawn characters. -/
def getSaltString (rnd : Draw) (length : Nat) (separator : String) : String :=
  separator ++ String.ofList ((List.range length).map fun i => saltChars.get (rnd i))

def toByteArray (s : String) : List UInt8 := Utf8.encode s.toList

def ofByteArray (b : List UInt8) : String := String.ofList (Utf8.decode b)

def encryptValue {α : Type} [ToString α] (rnd : Draw) (value : α) : String :=
  let mValue := bytesToHex (toByteArray (toString value)) ++ getSaltString rnd 1845 "="
  bytesToHex (toByteArray mValue)

/-- `split` on a separator of one character; the parts after the last separator included. -/
def split (s : String) (sep : Char) : List String := (s.toList.splitOn sep).map String.ofList

def index {α : Type} (l : List α) (i : Nat) : Except Exc α :=
  match l[i]? with
  | some a => .ok a
  | none => .error .indexOutOfBounds

def decryptValue (value : String) : Except Exc String := do
  let hashInBytes ← hexToBytes value
  let mValue := split (ofByteArray hashInBytes) '='
  let hashInBytes ← hexToBytes (← index mValue 0)
  return ofByteArray hashInBytes

/-- `encrypt` and `decrypt` of a file: AES under the fixed key of the application, where `decrypt` undoes
    `encrypt`. Bytes that are no ciphertext have no plaintext. -/
structure FileCipher where
  encrypt : List UInt8 → List UInt8
  decrypt : List UInt8 → Option (List UInt8)
  decrypt_encrypt : ∀ b, decrypt (encrypt b) = some b

/-- Parsing of a number that the code reads back. -/
def toLong (s : String) : Except Exc Int :=
  match Text.toLong s.toList with
  | some n => .ok n
  | none => .error .numberFormat

def toInt (s : String) : Except Exc Int :=
  match Text.toInt s.toList with
  | some n => .ok n
  | none => .error .numberFormat

def toBoolean (s : String) : Bool := Text.toBoolean s.toList

end Utils

end NicVpn
