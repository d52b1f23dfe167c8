import NicVpn.ConfigParser
import Mathlib.Algebra.Ring.Int.Defs

/-! Addresses and masks in the `long` values of the source: masks are `int` literals that are extended by their sign,
    and a shift may go by 32 places. -/

namespace NicVpn

structure CIDRIP where
  mIp : List Char
  len : Nat
  deriving Repr, DecidableEq

namespace ConfigParser

/-! ### Reading -/

/-- A `long`, and an `int`. -/
def wrap64 (n : Int) : Int := Int.bmod n (2 ^ 64)

def wrap32 (n : Int) : Int := Int.bmod n (2 ^ 32)

/-- `CIDRIP.getInt`, whatever the size of the parts. -/
def getInt (ipaddr : List Char) : Except Failure Int := do
  let ipt := Text.parts '.' ipaddr
  let a ← parseLong (← get ipt 0)
  let b ← parseInt (← get ipt 1)
  let c ← parseInt (← get ipt 2)
  let d ← parseInt (← get ipt 3)
  return wrap64 (wrap64 (a * 16777216) + wrap32 (b * 65536) + wrap32 (c * 256) + d)

/-- The loop over the zeros below the lowest one: how many there are, and what is left. It does not end on zero. -/
def lenZeros : Nat → Int → Option (Nat × Int)
  | 0, _ => none
  | fuel + 1, netmask =>
    if netmask % 2 = 0 then (lenZeros fuel (netmask / 2)).map fun p => (p.1 + 1, p.2) else some (0, netmask)

def calculateLenFromMask (mask : List Char) : Except Failure Nat := do
  -- The 33rd bit is to end the loop.
  let netmask := wrap64 ((← getInt mask) + 4294967296)
  -- The lowest one of 64 bits comes before the 64th turn.
  match lenZeros 64 netmask with
  | none => .error .endless
  | some (zeros, netmask) => return if netmask ≠ 8589934591 / 2 ^ zeros then 32 else 32 - zeros

theorem calculateLenFromMask_le {mask : List Char} {len : Nat} (h : calculateLenFromMask mask = .ok len) : len ≤ 32 := by
  unfold calculateLenFromMask at h
  cases hn : getInt mask with
  | error e =>
    rw [hn] at h
    cases h
  | ok n =>
    rw [hn] at h
    simp only [bind, Except.bind] at h
    split at h
    · cases h
    · cases h
      split <;> omega

/-- `new CIDRIP(ip, mask)`. -/
def newCidr (ip mask : List Char) : Except Failure CIDRIP := return { mIp := ip, len := ← calculateLenFromMask mask }

/-! ### Writing -/

abbrev Long := BitVec 64

/-- An `int` literal beside a `long`. -/
def literal (n : BitVec 32) : Long := n.signExtend 64

/-- The places of a shift are the six lowest bits of its distance. -/
def places (distance : Int) : Nat := (distance % 64).toNat

/-- `%d` -/
def decimal (n : Long) : List Char := (toString n.toInt).toList

def dottedLong (ip : Long) : List Char :=
  decimal ((ip &&& literal 0xff000000).sshiftRight 24) ++ ['.'] ++ decimal ((ip &&& literal 0xff0000).sshiftRight 16) ++
    ['.'] ++ decimal ((ip &&& literal 0xff00).sshiftRight 8) ++ ['.'] ++ decimal (ip &&& literal 0xff)

/-- `CIDRIP.normalise`: the address that is left, and whether it is another one. -/
def normalise (c : CIDRIP) : Except Failure (CIDRIP × Bool) := do
  let ip : Long := BitVec.ofInt 64 (← getInt c.mIp)
  let newip := ip &&& 0xffffffff#64 <<< places (32 - c.len)
  return if newip ≠ ip then ({ c with mIp := dottedLong newip }, true) else (c, false)

/-- `VpnProfile.cidrToIPAndNetmask` -/
def cidrToIPAndNetmask (route : List Char) : Option (List Char) := do
  let parts := Text.parts '/' route
  -- no length, so 32
  let parts := if parts.length = 1 then Text.parts '/' (route ++ "/32".toList) else parts
  match parts with
  | [ip, prefix_length] =>
    let len ← Text.toInt prefix_length
    if len < 0 ∨ 32 < len then none
    else
      let nm := 0xffffffff#64 <<< places (32 - len) &&& 0xffffffff#64
      some (ip ++ "  ".toList ++ dottedLong nm)
  | _ => none

end ConfigParser
end NicVpn
