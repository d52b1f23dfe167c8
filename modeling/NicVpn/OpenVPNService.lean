import NicVpn.Lib.Joined
import NicVpn.NetworkSpace
import NicVpn.OpenVpnManagementThread

/-! What the service collects for the next tun device from the messages of the native process, how `openTun`
    hands it to the `Builder`, and how the service decides whether an open tun can stay. -/

namespace NicVpn
namespace OpenVPNService

def lollipop : Nat := 21

/-- What a host name or address text stands for. -/
inductive Resolved
  | inet6 (address : Nat)
  /-- The cast to `Inet6Address` fails. -/
  | inet4
  /-- `UnknownHostException` -/
  | unknown
  deriving Repr, DecidableEq

/-- The device and the profile. -/
structure Env where
  sdkInt : Nat
  /-- Android 4.4 before 4.4.3, which opens no tun with an MTU below 1280. -/
  oldKitkat : Bool
  samsung : Bool
  mAllowLocalLAN : Bool
  /-- `NetworkUtils.getLocalNetworks` for IPv4 and for IPv6. -/
  localNetworks : List (List Char)
  localNetworks6 : List (List Char)
  getByName : List Char → Resolved
  /-- Turns of the route calculation, and how its queue breaks ties. -/
  fuel : Nat
  ties : Nat → Nat

/-- What the `Builder` and `setAllowedVpnPackages` do with one request. -/
structure Builder where
  acceptsAddress : List Char → Int → Bool
  acceptsMtu : Int → Bool
  allowedPackagesReturn : Bool
  establish : Option Nat

/-- The fields that `openTun` resets. -/
structure TunConfig where
  mDnslist : List (List Char)
  mDomain : Option (List Char)
  mLocalIP : Option CIDRIP
  mLocalIPv6 : Option (List Char)
  mRoutes : NetworkSpace
  mRoutesv6 : NetworkSpace
  deriving Repr, DecidableEq

def TunConfig.empty : TunConfig where
  mDnslist := []
  mDomain := none
  mLocalIP := none
  mLocalIPv6 := none
  mRoutes := []
  mRoutesv6 := []

structure State where
  config : TunConfig
  mMtu : Int
  mRemoteGW : Option (List Char)
  mLastTunCfg : Option (List Char)
  deriving Repr, DecidableEq

def State.initial : State := { config := .empty, mMtu := 0, mRemoteGW := none, mLastTunCfg := none }

/-! ### What is pushed. `none` is an unchecked exception. -/

namespace State

def addDNS (s : State) (dns : List Char) : State :=
  { s with config := { s.config with mDnslist := s.config.mDnslist ++ [dns] } }

/-- Only the first domain is kept. -/
def setDomain (s : State) (domain : List Char) : State :=
  { s with config := { s.config with mDomain := s.config.mDomain.or (some domain) } }

def isAndroidTunDevice (device : Option (List Char)) : Bool :=
  match device with
  | none => false
  | some device =>
    "tun".toList.isPrefixOf device || device == "(null)".toList || device == "vpnservice-tun".toList

def addRoute (s : State) (dest mask gateway : List Char) (device : Option (List Char)) : Option State := do
  let route ← CIDRIP.ofMask dest mask
  let gatewayIP ← IpAddress.ofCidr { mIp := gateway, len := 32 } false
  match s.config.mLocalIP with
  | none => some s
  | some mLocalIP =>
    let localNet ← IpAddress.ofCidr mLocalIP true
    let incl := isAndroidTunDevice device || localNet.containsNet gatewayIP || gateway == "255.255.255.255".toList ||
      some gateway == s.mRemoteGW
    let routes ← NetworkSpace.addIP s.config.mRoutes (← route.normalise) incl
    some { s with config := { s.config with mRoutes := routes } }

def addRoutev6Included (env : Env) (s : State) (network : List Char) (included : Bool) : Option State :=
  let v6parts := Text.parts '/' network
  match v6parts.head? with
  | none => none
  | some host =>
    match env.getByName host with
    | .inet4 => none
    | .unknown => some s
    | .inet6 ip => do
      let mask ← Text.toInt (← v6parts[1]?)
      some { s with config := { s.config with mRoutesv6 := NetworkSpace.addIPv6 s.config.mRoutesv6 ip mask.toNat included } }

def addRoutev6 (env : Env) (s : State) (network device : List Char) : Option State :=
  addRoutev6Included env s network (isAndroidTunDevice (some device))

def setMtu (s : State) (mtu : Int) : State := { s with mMtu := mtu }

/-- The prefix length of a local address: a mask that is no mask is the peer of a small net. -/
def localLen (local_ netmask mode : List Char) : Option Nat := do
  let len ← CIDRIP.calculateLenFromMask netmask
  if len = 32 ∧ netmask ≠ "255.255.255.255".toList then
    let masklen := if mode = "net30".toList then 30 else 31
    let netMaskAsInt ← CIDRIP.getInt netmask
    let ip ← CIDRIP.getInt local_
    some (if netMaskAsInt / 2 ^ (32 - masklen) = ip / 2 ^ (32 - masklen) then masklen else 32)
  else some len

/-- Lollipop does not route traffic to the VPN's own network mask, so that network is included. -/
def addInterfaceRoute (env : Env) (mLocalIP : CIDRIP) (routes : NetworkSpace) : Option NetworkSpace :=
  if mLocalIP.len ≤ 31 ∧ lollipop ≤ env.sdkInt then do
    NetworkSpace.addIP routes (← mLocalIP.normalise) true
  else some routes

def setLocalIP (env : Env) (s : State) (local_ netmask : List Char) (mtu : Int) (mode : List Char) : Option State := do
  let len ← localLen local_ netmask mode
  let mLocalIP : CIDRIP := { mIp := local_, len := len }
  let routes ← addInterfaceRoute env mLocalIP s.config.mRoutes
  some { s with
    config := { s.config with mLocalIP := some mLocalIP, mRoutes := routes }
    mMtu := mtu
    mRemoteGW := some netmask }

def setLocalIPv6 (s : State) (ipv6addr : List Char) : State :=
  { s with config := { s.config with mLocalIPv6 := some ipv6addr } }

/-! ### The text of a configuration -/

/-- `TextUtils.join("|", ...)` -/
def join (texts : List (List Char)) : List Char := Joined.join '|' texts

def networks (c : TunConfig) (included : Bool) : List Char :=
  join ((c.mRoutes.getNetworks included).map IpAddress.toText) ++
    join ((c.mRoutesv6.getNetworks included).map IpAddress.toText)

def configString (c : TunConfig) (mtu : Int) : List Char :=
  "TUNCFG UNQIUE STRING ips:".toList ++ ((c.mLocalIP.map CIDRIP.toText).getD [] ++ c.mLocalIPv6.getD []) ++
    "routes: ".toList ++ networks c true ++ "excl. routes:".toList ++ networks c false ++
    "dns: ".toList ++ join c.mDnslist ++ "domain: ".toList ++ c.mDomain.getD "null".toList ++
    "mtu: ".toList ++ (toString mtu).toList

def getTunConfigString (s : State) : List Char := configString s.config s.mMtu

def getTunReopenStatus (env : Env) (s : State) : List Char :=
  if some s.getTunConfigString = s.mLastTunCfg then "NOACTION".toList
  else if env.oldKitkat then "OPEN_AFTER_CLOSE".toList
  else "OPEN_BEFORE_CLOSE".toList

/-! ### Opening the tun -/

/-- One network of the device that the tun is opened on. -/
def addLocalNetwork (env : Env) (localIp : CIDRIP) (routes : NetworkSpace) (net : List Char) : Option NetworkSpace := do
  let netparts := Text.parts '/' net
  let ipAddr ← netparts[0]?
  let netMask ← Text.toInt (← netparts[1]?)
  if ipAddr = localIp.mIp then some routes
  else if env.sdkInt < NetworkSpace.kitkat ∧ env.mAllowLocalLAN = false then
    NetworkSpace.addIPSplit routes { mIp := ipAddr, len := netMask.toNat } true
  else if NetworkSpace.kitkat ≤ env.sdkInt ∧ env.mAllowLocalLAN = true then
    NetworkSpace.addIP routes { mIp := ipAddr, len := netMask.toNat } false
  else some routes

def addLocalNetworksToRoutes (env : Env) (s : State) (localIp : CIDRIP) : Option State := do
  let routes ← env.localNetworks.foldlM (addLocalNetwork env localIp) s.config.mRoutes
  let s := { s with config := { s.config with mRoutes := routes } }
  if env.mAllowLocalLAN then env.localNetworks6.foldlM (fun s net => addRoutev6Included env s net false) s
  else some s

/-- Local networks are added only where there is an IPv4 address. -/
def prepareRoutes (env : Env) (s : State) : Option State :=
  match s.config.mLocalIP with
  | some localIp => addLocalNetworksToRoutes env s localIp
  | none => some s

/-- What the `Builder` is called with. -/
structure Handed where
  addresses : List (List Char × Int)
  dns : List (List Char)
  routes : List IpAddress
  routes6 : List IpAddress
  searchDomain : Option (List Char)
  deriving Repr, DecidableEq

def Handed.addressesOnly (addresses : List (List Char × Int)) : Handed where
  addresses := addresses
  dns := []
  routes := []
  routes6 := []
  searchDomain := none

/-- Samsung devices ignore DNS servers outside the VPN range, so the first one gets a route. -/
def withDnsRoute (env : Env) (dns : List (List Char)) (routes : List IpAddress) : List IpAddress :=
  if env.samsung && lollipop ≤ env.sdkInt then
    match dns.head?.bind fun d => IpAddress.ofCidr { mIp := d, len := 32 } true with
    | some dnsServer => if routes.any fun net => net.containsNet dnsServer then routes else routes ++ [dnsServer]
    | none => routes
  else routes

def multicastRange : IpAddress := { netAddress := 3758096384, networkMask := 3, included := true, isV4 := true }

/-- The addresses, in the order of the calls; `false` where one of them was rejected. -/
def addAddresses (b : Builder) (c : TunConfig) : Option (List (List Char × Int) × Bool) :=
  let v4 := (c.mLocalIP.map fun ip => (ip.mIp, (ip.len : Int))).toList
  if !v4.all fun a => b.acceptsAddress a.1 a.2 then some (v4, false)
  else
    match c.mLocalIPv6 with
    | none => some (v4, true)
    | some ipv6 => do
      let ipv6parts := Text.parts '/' ipv6
      let ip ← ipv6parts[0]?
      -- a prefix length that is no number is rejected like an address
      match Text.toInt (← ipv6parts[1]?) with
      | none => some (v4, false)
      | some len => some (v4 ++ [(ip, len)], b.acceptsAddress ip len)

/-- The part of `openTun` after the addresses, up to `establish`. -/
def handOver (env : Env) (b : Builder) (c : TunConfig) (mtu : Int) (addresses : List (List Char × Int)) :
    Option Handed := do
  let mtu := if env.oldKitkat ∧ mtu < 1280 then 1280 else mtu
  if !b.acceptsMtu mtu then none
  else
    let positiveIPv4Routes ← NetworkSpace.getPositiveIPList env.fuel env.ties env.sdkInt c.mRoutes
    let positiveIPv6Routes ← NetworkSpace.getPositiveIPList env.fuel env.ties env.sdkInt c.mRoutesv6
    if !b.allowedPackagesReturn then none
    else
      some { addresses := addresses
             dns := c.mDnslist
             routes := (withDnsRoute env c.mDnslist positiveIPv4Routes).filter fun r => !multicastRange.containsNet r
             routes6 := positiveIPv6Routes
             searchDomain := c.mDomain }

/-- What the `Builder` was given, the descriptor if there is one, and the state afterwards. Only the last path
    resets what was pushed. -/
def openTun (env : Env) (b : Builder) (s : State) : Option (Handed × Option Nat × State) :=
  if s.config.mLocalIP = none ∧ s.config.mLocalIPv6 = none then some (.addressesOnly [], none, s)
  else do
    let s ← prepareRoutes env s
    let (addresses, accepted) ← addAddresses b s.config
    if !accepted then some (.addressesOnly addresses, none, s)
    else
      let handed ← handOver env b s.config s.mMtu addresses
      some (handed, b.establish, { s with mLastTunCfg := some s.getTunConfigString, config := .empty })

end State

/-! ### The service behind the management thread -/

/-- The service as the management thread calls it, with what the `Builder` does next. -/
def service (env : Env) (b : Builder) : OpenVpnManagementThread.Service State where
  protectFileDescriptor _ := some
  addDNS dns s := some (s.addDNS dns)
  setDomain domain s := some (s.setDomain domain)
  addRoute dest mask gateway device s := s.addRoute dest mask gateway device
  addRoutev6 network device s := s.addRoutev6 env network device
  setLocalIP local_ netmask mtu mode s := s.setLocalIP env local_ netmask mtu mode
  setMtu mtu s := some (s.setMtu mtu)
  setLocalIPv6 ipv6addr s := some (s.setLocalIPv6 ipv6addr)
  getTunReopenStatus s := s.getTunReopenStatus env
  openTun s :=
    match s.openTun env b with
    | none => (.threw, s)
    | some (_, some fd, s) => (.descriptor fd, s)
    | some (_, none, s) => (.null, s)
  setInt _ := true
  close _ := true

/-- A `Builder` that is not used. -/
def Builder.unused : Builder where
  acceptsAddress _ _ := false
  acceptsMtu _ := false
  allowedPackagesReturn := false
  establish := none

/-- A message that only tells the service something, as `processNeedCommand` passes it on. -/
def push (env : Env) (needed : OpenVpnManagementThread.Needed) (extra : List Char) (s : State) : Option State :=
  OpenVpnManagementThread.push (service env .unused) needed extra s

/-- An `OPENTUN` message, as `sendTunFD` answers it. -/
def request (env : Env) (b : Builder) (extra : List Char) (s : State) : Option State :=
  let thread : OpenVpnManagementThread.Thread State := { service := s, mFDList := [], fdsForSend := none }
  (thread.sendTunFD (service env b) OpenVpnManagementThread.Needed.opentun.name extra).map fun r => r.2.1.service

end OpenVPNService
end NicVpn
