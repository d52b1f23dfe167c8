import Mathlib.Algebra.Group.Nat.Defs
import NicVpn.CIDRIP

/-! Networks, and the routes that a set of included and excluded networks amounts to. `generateIPList` sweeps
    the networks from the lowest address up and splits the ones that overlap, until what is left is disjoint. -/

namespace NicVpn

/-- The dotted form that `%d.%d.%d.%d` gives. -/
def dotted (ip : Nat) : List Char :=
  let part (n : Nat) : List Char := (toString n).toList
  part (ip / 16777216 % 256) ++ ['.'] ++ part (ip / 65536 % 256) ++ ['.'] ++ part (ip / 256 % 256) ++ ['.'] ++
    part (ip % 256)

/-! ### Addresses and masks. `none` is an unchecked exception, or the loop of a mask that does not end. -/

namespace CIDRIP

def getInt (ipaddr : List Char) : Option Int := (ConfigParser.getInt ipaddr).toOption

def calculateLenFromMask (mask : List Char) : Option Nat := (ConfigParser.calculateLenFromMask mask).toOption

theorem calculateLenFromMask_le {mask : List Char} {len : Nat} (h : calculateLenFromMask mask = some len) :
    len ≤ 32 := by
  unfold calculateLenFromMask at h
  cases hlen : ConfigParser.calculateLenFromMask mask with
  | error e =>
    rw [hlen] at h
    cases h
  | ok n =>
    rw [hlen] at h
    cases h
    exact ConfigParser.calculateLenFromMask_le hlen

def ofMask (ip mask : List Char) : Option CIDRIP := (ConfigParser.newCidr ip mask).toOption

theorem ofMask_eq (ip mask : List Char) :
    ofMask ip mask = (calculateLenFromMask mask).map fun len => { mIp := ip, len := len } := by
  unfold ofMask ConfigParser.newCidr calculateLenFromMask
  cases ConfigParser.calculateLenFromMask mask <;> rfl

def toText (c : CIDRIP) : List Char := c.mIp ++ ['/'] ++ (toString c.len).toList

/-- The address that `normalise` leaves. -/
def normalise (c : CIDRIP) : Option CIDRIP := (ConfigParser.normalise c).toOption.map Prod.fst

theorem len_normalise {c normal : CIDRIP} (h : c.normalise = some normal) : normal.len = c.len := by
  unfold normalise ConfigParser.normalise at h
  cases hip : ConfigParser.getInt c.mIp with
  | error e =>
    rw [hip] at h
    cases h
  | ok ip =>
    rw [hip] at h
    obtain ⟨p, hp, rfl⟩ := Option.map_eq_some_iff.mp h
    rw [← Option.some.inj hp]
    split <;> rfl

end CIDRIP

/-! ### Networks -/

structure IpAddress where
  netAddress : Nat
  networkMask : Nat
  included : Bool
  isV4 : Bool
  deriving Repr, DecidableEq

namespace IpAddress

/-- The number is that of an address, which is not negative. -/
def ofCidr (ip : CIDRIP) (incl : Bool) : Option IpAddress := do
  some { netAddress := (← CIDRIP.getInt ip.mIp).toNat, networkMask := ip.len, included := incl, isV4 := true }

/-- An IPv6 address is the number of its 16 bytes. -/
def ofInet6 (address mask : Nat) (incl : Bool) : IpAddress :=
  { netAddress := address, networkMask := mask, included := incl, isV4 := false }

def width (ip : IpAddress) : Nat := if ip.isV4 then 32 else 128

/-- The bits of an address that the mask leaves open. -/
def numBits (ip : IpAddress) : Nat := ip.width - ip.networkMask

/-- The low bits set or cleared, one after the other. -/
def getMaskedAddress (ip : IpAddress) (one : Bool) : Nat :=
  (List.range ip.numBits).foldl (fun n i => if one then n ||| 1 <<< i else (n ||| 1 <<< i) - 1 <<< i) ip.netAddress

def getFirstAddress (ip : IpAddress) : Nat := ip.getMaskedAddress false

def getLastAddress (ip : IpAddress) : Nat := ip.getMaskedAddress true

/-- By the first address, and the smaller network first. -/
def compareTo (ip another : IpAddress) : Ordering :=
  match compare ip.getFirstAddress another.getFirstAddress with
  | .eq => compare another.networkMask ip.networkMask
  | comp => comp

/-- `equals`, which ignores `included`. -/
def equals (ip on : IpAddress) : Bool :=
  ip.networkMask == on.networkMask && on.getFirstAddress == ip.getFirstAddress

def split (ip : IpAddress) : IpAddress × IpAddress :=
  let firstHalf := { ip with netAddress := ip.getFirstAddress, networkMask := ip.networkMask + 1 }
  let secondHalf := { ip with netAddress := firstHalf.getLastAddress + 1, networkMask := ip.networkMask + 1 }
  (firstHalf, secondHalf)

/-- The assertion of `split` in a debug build. -/
def splitAsserts (ip : IpAddress) : Bool := ip.split.2.getLastAddress == ip.getLastAddress

def containsNet (ip network : IpAddress) : Bool :=
  ip.getFirstAddress ≤ network.getFirstAddress && network.getLastAddress ≤ ip.getLastAddress

/-- The loop of `getIPv6Address` over the groups from the low end; `none` while only zeros were seen. -/
def ipv6Groups : Nat → Nat → Bool → Option (List Char) → Option (List Char)
  | 0, _, _, ipv6str => ipv6str
  | fuel + 1, r, lastPart, ipv6str =>
    if r = 0 then ipv6str
    else
      let part := r % 65536
      let hex := Nat.toDigits 16 part
      let ipv6str :=
        if ipv6str.isSome || part ≠ 0 then
          let ipv6str := if ipv6str.isNone && !lastPart then some [':'] else ipv6str
          if lastPart then some hex else some (hex ++ [':'] ++ ipv6str.getD [])
        else ipv6str
      ipv6Groups fuel (r / 65536) false ipv6str

def getIPv6Address (ip : IpAddress) : List Char := (ipv6Groups 8 ip.netAddress true none).getD [':', ':']

def getIPv4Address (ip : IpAddress) : List Char := dotted ip.netAddress

def toText (ip : IpAddress) : List Char :=
  (if ip.isV4 then ip.getIPv4Address else ip.getIPv6Address) ++ ['/'] ++ (toString ip.networkMask).toList

end IpAddress

/-- A `TreeSet` of networks, from the least up. -/
abbrev NetworkSpace := List IpAddress

namespace NetworkSpace

/-- `TreeSet.add`: an equal network that is there already stays. -/
def add (ip : IpAddress) : List IpAddress → List IpAddress
  | [] => [ip]
  | x :: s =>
    match ip.compareTo x with
    | .lt => ip :: x :: s
    | .eq => x :: s
    | .gt => x :: add ip s

def addIP (s : NetworkSpace) (cidrIp : CIDRIP) (incl : Bool) : Option NetworkSpace := do
  some (add (← IpAddress.ofCidr cidrIp incl) s)

def addIPSplit (s : NetworkSpace) (cidrIp : CIDRIP) (incl : Bool) : Option NetworkSpace := do
  let newIP ← IpAddress.ofCidr cidrIp incl
  some (add newIP.split.2 (add newIP.split.1 s))

def addIPv6 (s : NetworkSpace) (address mask : Nat) (included : Bool) : NetworkSpace :=
  add (IpAddress.ofInet6 address mask included) s

def getNetworks (s : NetworkSpace) (included : Bool) : List IpAddress := s.filter fun ip => ip.included == included

/-! ### The sweep -/

/-- The least elements of a `PriorityQueue`. -/
def least (networks : List IpAddress) : List IpAddress :=
  networks.filter fun x => networks.all fun y => x.compareTo y != .gt

/-- `PriorityQueue.poll`. Which of several least elements comes out is left open: `tie` says it. -/
def poll (tie : Nat) (networks : List IpAddress) : Option (IpAddress × List IpAddress) := do
  let x ← (least networks)[tie % (least networks).length]?
  some (x, networks.erase x)

/-- `PriorityQueue.contains` -/
def contains (networks : List IpAddress) (ip : IpAddress) : Bool := networks.any fun x => ip.equals x

/-- The loop of `generateIPList` between two turns. -/
structure Sweep where
  currentNet : IpAddress
  networks : List IpAddress
  ipsDone : List IpAddress
  deriving Repr, DecidableEq

/-- A turn of the loop with the network that was polled; `none` is the end, with `currentNet` done. -/
def Sweep.turn (s : Sweep) (nextNet : IpAddress) (networks : List IpAddress) : Sweep :=
  if s.currentNet.getLastAddress < nextNet.getFirstAddress then
    { currentNet := nextNet, networks := networks, ipsDone := add s.currentNet s.ipsDone }
  else if s.currentNet.getFirstAddress = nextNet.getFirstAddress ∧ nextNet.networkMask ≤ s.currentNet.networkMask then
    if s.currentNet.included = nextNet.included then { s with currentNet := nextNet, networks := networks }
    else
      let newNets := nextNet.split
      let networks := if contains networks newNets.2 then networks else newNets.2 :: networks
      if newNets.1.getLastAddress = s.currentNet.getLastAddress then { s with networks := networks }
      else { s with networks := if contains networks newNets.1 then networks else newNets.1 :: networks }
  else if s.currentNet.included = nextNet.included then { s with networks := networks }
  else
    let newNets := s.currentNet.split
    if newNets.2.networkMask = nextNet.networkMask then
      { s with currentNet := newNets.1, networks := nextNet :: networks }
    else { s with currentNet := newNets.1, networks := nextNet :: newNets.2 :: networks }

/-- The assertions of a turn in a debug build, those of `split` among them. -/
def Sweep.asserts (s : Sweep) (nextNet : IpAddress) : Bool :=
  if s.currentNet.getLastAddress < nextNet.getFirstAddress then true
  else if s.currentNet.getFirstAddress = nextNet.getFirstAddress ∧ nextNet.networkMask ≤ s.currentNet.networkMask then
    if s.currentNet.included = nextNet.included then true
    else
      let newNets := nextNet.split
      nextNet.splitAsserts &&
        (newNets.1.getLastAddress != s.currentNet.getLastAddress ||
          newNets.1.networkMask == s.currentNet.networkMask)
  else
    decide (s.currentNet.networkMask < nextNet.networkMask) &&
      decide (s.currentNet.getFirstAddress < nextNet.getFirstAddress) &&
      decide (nextNet.getLastAddress ≤ s.currentNet.getLastAddress) &&
      if s.currentNet.included = nextNet.included then true
      else
        let newNets := s.currentNet.split
        s.currentNet.splitAsserts &&
          (newNets.2.networkMask != nextNet.networkMask ||
            newNets.2.getFirstAddress == nextNet.getFirstAddress &&
              newNets.2.getLastAddress == s.currentNet.getLastAddress)

/-- The loop, with the choice of each poll; `none` is a loop that is not at its end yet. -/
def sweep : Nat → (Nat → Nat) → Sweep → Option (List IpAddress)
  | 0, _, _ => none
  | fuel + 1, ties, s =>
    match poll (ties 0) s.networks with
    | none => some (add s.currentNet s.ipsDone)
    | some (nextNet, networks) => sweep fuel (fun n => ties (n + 1)) (s.turn nextNet networks)

def generateIPList (fuel : Nat) (ties : Nat → Nat) (s : NetworkSpace) : Option (List IpAddress) :=
  match poll (ties 0) s with
  | none => some []
  | some (currentNet, networks) =>
    sweep fuel (fun n => ties (n + 1)) { currentNet := currentNet, networks := networks, ipsDone := [] }

/-- What came of an end of the loop. -/
inductive Outcome
  | ipsDone (ips : List IpAddress)
  /-- An assertion has failed. -/
  | illegalState
  deriving Repr, DecidableEq

/-- The loop in a debug build. -/
def sweepDebug : Nat → (Nat → Nat) → Sweep → Option Outcome
  | 0, _, _ => none
  | fuel + 1, ties, s =>
    match poll (ties 0) s.networks with
    | none => some (.ipsDone (add s.currentNet s.ipsDone))
    | some (nextNet, networks) =>
      if s.asserts nextNet then sweepDebug fuel (fun n => ties (n + 1)) (s.turn nextNet networks)
      else some .illegalState

def generateIPListDebug (fuel : Nat) (ties : Nat → Nat) (s : NetworkSpace) : Option Outcome :=
  match poll (ties 0) s with
  | none => some (.ipsDone [])
  | some (currentNet, networks) =>
    sweepDebug fuel (fun n => ties (n + 1)) { currentNet := currentNet, networks := networks, ipsDone := [] }

/-- Before Android 4.4 an included network of the set comes back unless it contains an excluded block. -/
def restored (s ipsSorted : List IpAddress) : List IpAddress :=
  s.filter fun origIp =>
    origIp.included && !contains ipsSorted origIp &&
      !ipsSorted.any fun calculatedIp => !calculatedIp.included && origIp.containsNet calculatedIp

def kitkat : Nat := 19

def getPositiveIPList (fuel : Nat) (ties : Nat → Nat) (sdkInt : Nat) (s : NetworkSpace) : Option (List IpAddress) := do
  let ipsSorted ← generateIPList fuel ties s
  let ips := ipsSorted.filter fun ia => ia.included
  some (if sdkInt < kitkat then ips ++ restored s ipsSorted else ips)

end NetworkSpace
end NicVpn
