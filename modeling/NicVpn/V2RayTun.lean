import NicVpn.V2rayConfigUtil

/-! What `V2RayVpnService` asks of the system and of tun2socks: `setup`, which configures the interface, and
    `runTun2socks`. -/

namespace NicVpn.V2ray
namespace V2RayTun
open SettingsStorage V2ray.Utils

/-- The settings that the service reads besides those of the generator. -/
structure VpnSettings extends SettingsStorage where
  vpnDns : Option (List Char) := none
  preferIpv6 : Option Bool := none
  deriving DecidableEq, Repr

def vpnMtu : Int := 1500

def privateVlan4Client : List Char := "26.26.26.1".toList

def privateVlan4Router : List Char := "26.26.26.2".toList

def privateVlan6Client : List Char := "da26:2626::1".toList

def privateVlan6Router : List Char := "da26:2626::2".toList

/-- An address and the length of its prefix. -/
structure Route where
  address : List Char
  prefixLength : Int
  deriving DecidableEq, Repr

/-- What `VpnService.Builder` was given. -/
structure Builder where
  mtu : Int
  addresses : List Route
  routes : List Route
  dnsServers : List (List Char)
  session : List Char
  disallowedApplications : List (List Char)
  deriving DecidableEq, Repr

/-- The string array `bypass_private_ip_address`. -/
def bypassPrivateIpAddress : List (List Char) :=
  ["0.0.0.0/5", "8.0.0.0/7", "11.0.0.0/8", "12.0.0.0/6", "16.0.0.0/4", "32.0.0.0/3", "64.0.0.0/2", "128.0.0.0/3",
    "160.0.0.0/5", "168.0.0.0/6", "172.0.0.0/12", "172.32.0.0/11", "172.64.0.0/10", "172.128.0.0/9", "173.0.0.0/8",
    "174.0.0.0/7", "176.0.0.0/4", "192.0.0.0/9", "192.128.0.0/11", "192.160.0.0/13", "192.169.0.0/16", "192.170.0.0/15",
    "192.172.0.0/14", "192.176.0.0/12", "192.192.0.0/10", "193.0.0.0/8", "194.0.0.0/7", "196.0.0.0/6", "200.0.0.0/5",
    "208.0.0.0/4", "240.0.0.0/4"].map String.toList

/-- `addr[0]` and `addr[1].toInt()` of `it.split('/')` -/
def splitRoute (it : List Char) : Option Route := do
  let addr := Text.split ['/'] it
  return { address := ← addr[0]?, prefixLength := ← Text.toInt (← addr[1]?) }

/-- The two modes that leave private addresses out. -/
def bypassesLan (s : VpnSettings) : Bool :=
  s.mode = ERoutingMode.bypassLan.value || s.mode = ERoutingMode.bypassLanMainland.value

def getVpnDnsServers (s : VpnSettings) : List (List Char) :=
  let vpnDns := (s.vpnDns.or s.remoteDns).getD dnsAgent
  (Text.split [','] vpnDns).filter isPureIpAddress

/-- The name servers that `setup` has the builder add. -/
def nameServers (s : VpnSettings) : List (List Char) :=
  if decodeBool s.localDnsEnabled then [privateVlan4Router] else (getVpnDnsServers s).filter isPureIpAddress

/-- `setup` up to `establish`, with the remarks of the chosen server. The system decides which texts `addDnsServer`
    takes; an `IllegalArgumentException` of it leaves `setup` uncaught. -/
def setup (addsDnsServer : List Char → Bool) (s : VpnSettings) (remarks : Option (List Char)) : Option Builder := do
  let routes ← (if bypassesLan s then bypassPrivateIpAddress.mapM splitRoute else some [⟨"0.0.0.0".toList, 0⟩])
  let preferIpv6 := decodeBool s.preferIpv6
  guard ((nameServers s).all addsDnsServer)
  return {
    mtu := vpnMtu
    addresses := ⟨privateVlan4Client, 30⟩ :: if preferIpv6 then [⟨privateVlan6Client, 126⟩] else []
    routes := routes ++
      (if preferIpv6 then [if bypassesLan s then ⟨"2000::".toList, 3⟩ else ⟨"::".toList, 0⟩] else [])
    dnsServers := nameServers s
    session := remarks.getD []
    disallowedApplications := ["com.nicadevelop.nicavpn".toList] }

/-- `"127.0.0.1:${port}"` -/
def loopback (port : Int) : List Char := "127.0.0.1:".toList ++ (toString port).toList

/-- The command of `runTun2socks`, with the path of the program. -/
def runTun2socks (s : VpnSettings) (program : List Char) : List (List Char) :=
  [program, "--netif-ipaddr".toList, privateVlan4Router, "--netif-netmask".toList, "255.255.255.252".toList,
    "--socks-server-addr".toList, loopback (parseIntOr s.socksPort portSocks), "--tunmtu".toList,
    (toString vpnMtu).toList, "--sock-path".toList, "sock_path".toList, "--enable-udprelay".toList,
    "--loglevel".toList, "notice".toList] ++
  (if decodeBool s.preferIpv6 then ["--netif-ip6addr".toList, privateVlan6Router] else []) ++
  (if decodeBool s.localDnsEnabled then
    ["--dnsgw".toList, loopback (parseIntOr s.localDnsPort portLocalDns)] else [])

end V2RayTun
end NicVpn.V2ray
