import NicVpn.AngConfigManager

/-! `V2rayConfigUtil`: the configuration that the core runs with, from the settings and the outbound of the
    chosen server. -/

namespace NicVpn.V2ray
open NicVpn.Utils

/-! ### `AppConfig` and the settings -/

def tagAgent : List Char := "proxy".toList

def tagDirect : List Char := "direct".toList

def tagBlocked : List Char := "block".toList

def dnsAgent : List Char := "1.1.1.1".toList

def dnsDirect : List Char := "223.5.5.5".toList

def portLocalDns : Int := 10853

def portSocks : Int := 10808

def portHttp : Int := 10809

inductive ERoutingMode
  | globalProxy
  | bypassLan
  | bypassMainland
  | bypassLanMainland
  | globalDirect
  deriving DecidableEq, Repr

def ERoutingMode.value : ERoutingMode → List Char
  | globalProxy => ['0']
  | bypassLan => ['1']
  | bypassMainland => ['2']
  | bypassLanMainland => ['3']
  | globalDirect => ['4']

/-- What `settingsStorage` holds under the keys that the generator reads; `none` is a key that is not stored. -/
structure SettingsStorage where
  loglevel : Option (List Char) := none
  socksPort : Option (List Char) := none
  httpPort : Option (List Char) := none
  localDnsPort : Option (List Char) := none
  proxySharing : Option Bool := none
  sniffingEnabled : Option Bool := none
  fakeDnsEnabled : Option Bool := none
  localDnsEnabled : Option Bool := none
  speedEnabled : Option Bool := none
  remoteDns : Option (List Char) := none
  domesticDns : Option (List Char) := none
  routingAgent : Option (List Char) := none
  routingDirect : Option (List Char) := none
  routingBlocked : Option (List Char) := none
  routingDomainStrategy : Option (List Char) := none
  routingMode : Option (List Char) := none
  deriving DecidableEq, Repr

namespace SettingsStorage

/-- `decodeBool` without a default. -/
def decodeBool (b : Option Bool) : Bool := b.getD false

/-- `decodeString(key) ?: ""` -/
def text (s : Option (List Char)) : List Char := s.getD []

def mode (s : SettingsStorage) : List Char := s.routingMode.getD ERoutingMode.globalProxy.value

/-- The two modes that reach the mainland directly. -/
def bypassesMainland (s : SettingsStorage) : Bool :=
  s.mode = ERoutingMode.bypassMainland.value || s.mode = ERoutingMode.bypassLanMainland.value

end SettingsStorage

/-! ### Addresses -/

namespace Utils
open RegularExpression

/-- `parseInt(str, default)` -/
def parseIntOr (str : Option (List Char)) (default : Int) : Int := (str.bind Text.toInt).getD default

/-- `([01]?[0-9]?[0-9]|2[0-4][0-9]|25[0-5])` -/
def regOctet : RegularExpression Char :=
  let digit := oneOf "0123456789".toList
  (1 + oneOf "01".toList) * (1 + digit) * digit + char '2' * oneOf "01234".toList * digit +
    char '2' * char '5' * oneOf "012345".toList

def regV4 : RegularExpression Char := regOctet * (char '.' * regOctet) ^ 3

def isIpv4Address (value : List Char) : Bool := regV4.rmatch value

def isPureIpAddress (value : List Char) : Bool := isIpv4Address value || isIpv6Address value

/-- The length of a network is dropped; one that is zero stays, and one that is no number throws. -/
def withoutLength (value : List Char) : Option (List Char) :=
  if value.head? ≠ some '/' ∧ '/' ∈ value then
    match Text.split ['/'] value with
    | [addr, length] => (Text.toInt length).map fun n => if 0 < n then addr else value
    | _ => some value
  else some value

/-- The IPv6 notation around an IPv4 address is dropped. -/
def withoutMapping (addr : List Char) : List Char :=
  if "::ffff:".toList.isPrefixOf addr ∧ '.' ∈ addr then addr.drop 7
  else if "[::ffff:".toList.isPrefixOf addr ∧ '.' ∈ addr then Text.replace [']'] [] (addr.drop 8)
  else addr

def isIpAddress (value : List Char) : Bool :=
  if Text.isBlank value then false
  else
    match withoutLength value with
    | none => false
    | some addr =>
      let addr := withoutMapping addr
      match Text.split ['.'] addr with
      | [_, _, _, octet] =>
        if octet.head? ≠ some ':' ∧ ':' ∈ octet then isIpv4Address (addr.takeWhile (· ≠ ':'))
        else isIpv4Address addr
      | _ => isIpv6Address addr

def isCoreDNSAddress (s : List Char) : Bool :=
  "https".toList.isPrefixOf s || "tcp".toList.isPrefixOf s || "quic".toList.isPrefixOf s

/-- DNS servers, of which there is always a first. -/
structure DnsServers where
  first : List Char
  rest : List (List Char)
  deriving DecidableEq, Repr

def DnsServers.toList (d : DnsServers) : List (List Char) := d.first :: d.rest

/-- `getRemoteDnsServers` and `getDomesticDnsServers`: the stored ones that are addresses, or the default. -/
def getDnsServers (stored : Option (List Char)) (default : List Char) : DnsServers :=
  match (Text.split [','] (stored.getD default)).filter fun a => isPureIpAddress a || isCoreDNSAddress a with
  | [] => { first := default, rest := [] }
  | a :: l => { first := a, rest := l }

def getRemoteDnsServers (s : SettingsStorage) : DnsServers := getDnsServers s.remoteDns dnsAgent

def getDomesticDnsServers (s : SettingsStorage) : DnsServers := getDnsServers s.domesticDns dnsDirect

end Utils

/-! ### The configuration -/

namespace V2rayConfig

structure InSettingsBean where
  auth : Option (List Char) := none
  udp : Option Bool := none
  userLevel : Option Int := none
  address : Option (List Char) := none
  port : Option Int := none
  network : Option (List Char) := none
  deriving DecidableEq, Repr

structure SniffingBean where
  enabled : Bool
  destOverride : List (List Char)
  deriving DecidableEq, Repr

structure InboundBean where
  tag : List Char
  port : Int
  protocol : List Char
  listen : Option (List Char) := none
  settings : Option InSettingsBean := none
  sniffing : Option SniffingBean
  deriving DecidableEq, Repr

structure OutSettingsBean where
  vnext : Option VnextBean := none
  servers : Option ServersBean := none
  /-- The type of the response of a blackhole. -/
  response : Option (List Char) := none
  domainStrategy : Option (List Char) := none
  deriving DecidableEq, Repr

structure OutboundBean where
  tag : List Char := tagAgent
  protocol : List Char
  settings : Option OutSettingsBean := none
  streamSettings : Option StreamSettingsBean := none
  deriving DecidableEq, Repr

structure ServersBean where
  address : List Char
  port : Option Int := none
  domains : Option (List (List Char)) := none
  expectIPs : Option (List (List Char)) := none
  deriving DecidableEq, Repr

/-- An element of `servers`, which holds texts and beans. -/
inductive DnsServer
  | address (a : List Char)
  | bean (b : ServersBean)
  deriving DecidableEq, Repr

structure DnsBean where
  servers : List DnsServer := []
  hosts : List (List Char × List Char) := []
  deriving DecidableEq, Repr

structure RulesBean where
  type : List Char := []
  ip : Option (List (List Char)) := none
  domain : Option (List (List Char)) := none
  outboundTag : List Char := []
  port : Option (List Char) := none
  inboundTag : Option (List (List Char)) := none
  deriving DecidableEq, Repr

structure RoutingBean where
  domainStrategy : List Char
  domainMatcher : Option (List Char) := none
  rules : List RulesBean
  deriving DecidableEq, Repr

structure FakednsBean where
  ipPool : List Char := "198.18.0.0/15".toList
  poolSize : Int := 10000
  deriving DecidableEq, Repr

end V2rayConfig

open V2rayConfig in
structure V2rayConfig where
  loglevel : Option (List Char)
  /-- Whether `stats` and `policy` are there; they are as the asset has them. -/
  counts : Bool
  inbounds : List InboundBean
  outbounds : List V2rayConfig.OutboundBean
  dns : DnsBean
  routing : RoutingBean
  fakedns : Option (List FakednsBean) := none
  deriving DecidableEq, Repr

/-- `getProxyOutbound` of a server that is not custom; a server of WireGuard has no outbound. -/
def ServerConfig.getProxyOutbound (c : ServerConfig) : Option V2rayConfig.OutboundBean :=
  if c.configType = .custom ∨ c.configType = .wireguard then none
  else some
    { tag := tagAgent
      protocol := c.configType.name.toList.map Char.toLower
      settings := some { vnext := c.outboundBean.vnext, servers := c.outboundBean.servers }
      streamSettings := some c.outboundBean.streamSettings }

/-- `getAllOutboundTags` of a server that is not custom. -/
def ServerConfig.getAllOutboundTags : List (List Char) := [tagAgent, tagDirect, tagBlocked]

namespace V2rayConfigUtil
open V2rayConfig SettingsStorage V2ray.Utils

/-- The inbound `socks` of the asset. -/
def socksInbound : InboundBean :=
  { tag := "socks".toList, port := portSocks, protocol := "socks".toList
    settings := some { auth := some "noauth".toList, udp := some true, userLevel := some 8 }
    sniffing := some { enabled := true, destOverride := ["http".toList, "tls".toList] } }

/-- The inbound `http` of the asset. -/
def httpInbound : InboundBean :=
  { tag := "http".toList, port := portHttp, protocol := "http".toList
    settings := some { userLevel := some 8 }, sniffing := none }

def freedomOutbound : V2rayConfig.OutboundBean :=
  { tag := tagDirect, protocol := "freedom".toList, settings := some {} }

def blackholeOutbound : V2rayConfig.OutboundBean :=
  { tag := tagBlocked, protocol := "blackhole".toList, settings := some { response := some "http".toList } }

/-- `v2ray_config.json`; the server that its first outbound names is replaced before anything reads it. -/
def assets : V2rayConfig where
  loglevel := some "warning".toList
  counts := true
  inbounds := [socksInbound, httpInbound]
  outbounds := [{ protocol := "vmess".toList }, freedomOutbound, blackholeOutbound]
  dns := {}
  routing := { domainStrategy := "IPIfNonMatch".toList, rules := [] }

/-! ### Inbounds and outbounds -/

/-- `curInbound.listen`, on every inbound. -/
def listen (s : SettingsStorage) (b : InboundBean) : InboundBean :=
  if decodeBool s.proxySharing then b else { b with listen := some "127.0.0.1".toList }

def sniffing (s : SettingsStorage) (b : SniffingBean) : SniffingBean :=
  let fakedns := decodeBool s.fakeDnsEnabled
  let sniffAllTlsAndHttp := s.sniffingEnabled.getD true
  { enabled := fakedns || sniffAllTlsAndHttp
    destOverride :=
      (if sniffAllTlsAndHttp then b.destOverride else []) ++ (if fakedns then ["fakedns".toList] else []) }

/-- `inbounds`; a list with fewer than two inbounds ends it early, with what is done by then. -/
def inbounds (s : SettingsStorage) (c : V2rayConfig) : V2rayConfig :=
  let socksPort := parseIntOr s.socksPort portSocks
  let httpPort := parseIntOr s.httpPort portHttp
  let first (b : InboundBean) := { b with port := socksPort, sniffing := b.sniffing.map (sniffing s) }
  { c with
    inbounds :=
      match c.inbounds.map (listen s) with
      | [] => []
      | [b] => [first b]
      | b :: d :: l => first b :: { d with port := httpPort } :: l }

/-- The request that `requestString` asks for, with the path and the host of the one before; a stream without
    a request gets one without a host (`host!!` throws). -/
def httpRequestObject (outbound : V2rayConfig.OutboundBean) : V2rayConfig.OutboundBean :=
  { outbound with
    streamSettings := outbound.streamSettings.map fun stream =>
      if stream.network = defaultNetwork then
        { stream with
          tcpSettings := stream.tcpSettings.map fun tcp =>
            if tcp.headerType = http then
              let path := (tcp.request.map (·.path)).getD []
              { tcp with
                request := some
                  { path := if path = [] then [['/']] else path, Host := (tcp.request.map (·.Host)).getD [] } }
            else tcp }
      else stream }

def fakedns (s : SettingsStorage) (c : V2rayConfig) : V2rayConfig :=
  if decodeBool s.fakeDnsEnabled then
    { c with
      fakedns := some [{}]
      outbounds := c.outbounds.map fun b =>
        if b.protocol = "freedom".toList then
          { b with settings := b.settings.map fun st => { st with domainStrategy := some "UseIP".toList } }
        else b }
  else c

/-! ### Routing -/

/-- `routing.rules.add` -/
def addRule (c : V2rayConfig) (r : RulesBean) : V2rayConfig :=
  { c with routing := { c.routing with rules := c.routing.rules ++ [r] } }

/-- `routing.rules.add(0, …)` -/
def addFirst (c : V2rayConfig) (r : RulesBean) : V2rayConfig :=
  { c with routing := { c.routing with rules := r :: c.routing.rules } }

def field : List Char := "field".toList

def routingGeo (ipOrDomain code tag : List Char) (c : V2rayConfig) : V2rayConfig :=
  if code = [] then c
  else
    let c :=
      if ipOrDomain = "ip".toList ∨ ipOrDomain = [] then
        addRule c { type := field, outboundTag := tag, ip := some ["geoip:".toList ++ code] }
      else c
    if ipOrDomain = "domain".toList ∨ ipOrDomain = [] then
      addRule c { type := field, outboundTag := tag, domain := some ["geosite:".toList ++ code] }
    else c

/-- `userRule.split(",").map { it.trim() }` -/
def entries (userRule : List Char) : List (List Char) := (Text.split [','] userRule).map Text.strip

/-- The entries that count as addresses. -/
def isIpEntry (it : List Char) : Bool := isIpAddress it || "geoip:".toList.isPrefixOf it

/-- One entry goes to the rule of the addresses, to the rule of the domains or, when empty, to none. -/
def sortEntry (lists : List (List Char) × List (List Char)) (it : List Char) :
    List (List Char) × List (List Char) :=
  if isIpEntry it then (lists.1, lists.2 ++ [it])
  else if it = [] then lists
  else (lists.1 ++ [it], lists.2)

def routingUserRule (userRule tag : List Char) (c : V2rayConfig) : V2rayConfig :=
  if userRule = [] then c
  else
    let (domain, ip) := (entries userRule).foldl sortEntry ([], [])
    let c := if 0 < domain.length then addRule c { type := field, outboundTag := tag, domain := some domain } else c
    if 0 < ip.length then addRule c { type := field, outboundTag := tag, ip := some ip } else c

def googleapisRoute : RulesBean :=
  { type := field, outboundTag := tagAgent, domain := some ["domain:googleapis.cn".toList] }

def globalDirect : RulesBean := { type := field, outboundTag := tagDirect, port := some "0-65535".toList }

/-- The rules of the mode. -/
def routingByMode (mode : List Char) (c : V2rayConfig) : V2rayConfig :=
  if mode = ERoutingMode.bypassLan.value then routingGeo "ip".toList "private".toList tagDirect c
  else if mode = ERoutingMode.bypassMainland.value then addFirst (routingGeo [] "cn".toList tagDirect c) googleapisRoute
  else if mode = ERoutingMode.bypassLanMainland.value then
    addFirst (routingGeo [] "cn".toList tagDirect (routingGeo "ip".toList "private".toList tagDirect c)) googleapisRoute
  else if mode = ERoutingMode.globalDirect.value then addRule c globalDirect
  else c

def routing (s : SettingsStorage) (c : V2rayConfig) : V2rayConfig :=
  let c := routingUserRule (text s.routingAgent) tagAgent c
  let c := routingUserRule (text s.routingDirect) tagDirect c
  let c := routingUserRule (text s.routingBlocked) tagBlocked c
  let c := { c with routing := { c.routing with
    domainStrategy := s.routingDomainStrategy.getD "IPIfNonMatch".toList, domainMatcher := some "mph".toList } }
  routingByMode s.mode c

/-! ### DNS -/

def userRule2Domian (userRule : List Char) : List (List Char) :=
  (entries userRule).filter fun it => "geosite:".toList.isPrefixOf it || "domain:".toList.isPrefixOf it

def geositeCn : List (List Char) := ["geosite:cn".toList]

def geoipCn : List (List Char) := ["geoip:cn".toList]

/-- The rule for the queries to a DNS server. -/
def dnsRule (server tag : List Char) : RulesBean :=
  { type := field, outboundTag := tag, port := some "53".toList, ip := some [server] }

/-- `hosts[key] = value` on a `LinkedHashMap`: a key that is there keeps its place. -/
def putHost (hosts : List (List Char × List Char)) (key value : List Char) : List (List Char × List Char) :=
  if hosts.any (·.1 = key) then hosts.map fun p => if p.1 = key then (key, value) else p
  else hosts ++ [(key, value)]

def dns (s : SettingsStorage) (c : V2rayConfig) : V2rayConfig :=
  let remoteDns := getRemoteDnsServers s
  let proxyDomain := userRule2Domian (text s.routingAgent)
  let servers := remoteDns.toList.map DnsServer.address ++
    (if 0 < proxyDomain.length then
      [.bean { address := remoteDns.first, port := some 53, domains := some proxyDomain }] else [])
  let directDomain := userRule2Domian (text s.routingDirect)
  let domesticDns := getDomesticDnsServers s
  let domestic (domains : List (List Char)) : DnsServer :=
    .bean { address := domesticDns.first, port := some 53, domains := some domains, expectIPs := some geoipCn }
  let servers := servers ++ (if 0 < directDomain.length then [domestic directDomain] else []) ++
    (if s.bypassesMainland then [domestic geositeCn] else [])
  let c :=
    if (0 < directDomain.length || s.bypassesMainland) && isPureIpAddress domesticDns.first then
      addFirst c (dnsRule domesticDns.first tagDirect)
    else c
  let blkDomain := userRule2Domian (text s.routingBlocked)
  let hosts := blkDomain.foldl (fun hosts d => putHost hosts d "127.0.0.1".toList) []
  let hosts := putHost hosts "domain:googleapis.cn".toList "googleapis.com".toList
  let c := { c with dns := { servers := servers, hosts := hosts } }
  if isPureIpAddress remoteDns.first then addFirst c (dnsRule remoteDns.first tagAgent) else c

def dnsIn : List Char := "dns-in".toList

def dnsOut : List Char := "dns-out".toList

def customLocalDns (s : SettingsStorage) (c : V2rayConfig) : V2rayConfig :=
  let c :=
    if decodeBool s.fakeDnsEnabled then
      let proxyDomain := userRule2Domian (text s.routingAgent)
      let directDomain := userRule2Domian (text s.routingDirect)
      { c with dns := { c.dns with
        servers := .bean { address := "fakedns".toList, domains := some (geositeCn ++ proxyDomain ++ directDomain) } ::
          c.dns.servers } }
    else c
  let remoteDns := getRemoteDnsServers s
  let c :=
    if c.inbounds.any fun e => e.protocol = "dokodemo-door".toList && e.tag = dnsIn then c
    else
      { c with inbounds := c.inbounds ++
        [{ tag := dnsIn, port := parseIntOr s.localDnsPort portLocalDns, listen := some "127.0.0.1".toList
           protocol := "dokodemo-door".toList
           settings := some
            { address := some (if isPureIpAddress remoteDns.first then remoteDns.first else "1.1.1.1".toList)
              port := some 53, network := some "tcp,udp".toList }
           sniffing := none }] }
  let c :=
    if c.outbounds.any fun e => e.protocol = "dns".toList && e.tag = dnsOut then c
    else { c with outbounds := c.outbounds ++ [{ tag := dnsOut, protocol := "dns".toList }] }
  addFirst c { type := field, inboundTag := some [dnsIn], outboundTag := dnsOut }

/-! ### The whole -/

/-- `v2rayConfig.outbounds[0] = outbound` -/
def setOutbound (outbound : V2rayConfig.OutboundBean) (c : V2rayConfig) : V2rayConfig :=
  { c with outbounds := c.outbounds.set 0 outbound }

def getV2rayNonCustomConfig (s : SettingsStorage) (outbound : V2rayConfig.OutboundBean) : V2rayConfig :=
  let c := { assets with loglevel := some (s.loglevel.getD "warning".toList) }
  let c := inbounds s c
  let c := setOutbound (httpRequestObject outbound) c
  let c := dns s (fakedns s (routing s c))
  let c := if decodeBool s.localDnsEnabled then customLocalDns s c else c
  if decodeBool s.speedEnabled then c else { c with counts := false }

/-- `getV2rayConfig` for a server that is not custom. -/
def getV2rayConfig (s : SettingsStorage) (config : ServerConfig) : Option V2rayConfig :=
  config.getProxyOutbound.map (getV2rayNonCustomConfig s)

end V2rayConfigUtil
end NicVpn.V2ray
