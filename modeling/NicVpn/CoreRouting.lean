import NicVpn.Lib.FirstMatch
import NicVpn.V2rayConfigUtil

/-! What the rules and the DNS servers of a configuration say: the outbound of the first rule that a connection
    matches, and the servers that list an entry. Beside it stands what the settings ask for, setting by setting. The
    core is not part of the repository; with the domain strategy `IPIfNonMatch` it looks at the rules again after it
    has resolved a name, and for that the destination can have both its name and its addresses. -/

namespace NicVpn.V2ray
open V2rayConfig V2rayConfigUtil SettingsStorage V2ray.Utils

/-- A connection with a destination of type `δ`. -/
structure Target (δ : Type) where
  inboundTag : List Char
  port : UInt16
  dest : δ

/-- Which destinations an entry of a rule names; the lists behind `geoip:` and `geosite:` are not in the
    repository. -/
structure Matcher (δ : Type) where
  domain : List Char → δ → Bool
  ip : List Char → δ → Bool

/-- A port, or the first and the last of a range. -/
def inPorts (text : List Char) (port : UInt16) : Bool :=
  match (Text.split ['-'] text).map Text.toInt with
  | [some p] => p = port.toNat
  | [some lo, some hi] => lo ≤ port.toNat ∧ port.toNat ≤ hi
  | _ => false

variable {δ : Type} (M : Matcher δ) (t : Target δ)

/-- A rule matches when each of its conditions does. -/
def coreRules : Rules RulesBean (List Char) where
  matches? r :=
    (r.inboundTag.all fun tags => decide (t.inboundTag ∈ tags)) && (r.domain.all fun l => l.any (M.domain · t.dest)) &&
      (r.ip.all fun l => l.any (M.ip · t.dest)) && (r.port.all fun p => inPorts p t.port)
  verdict := RulesBean.outboundTag

/-- The rules read in order: the outbound of the first that matches, or the first outbound. -/
def V2rayConfig.route (c : V2rayConfig) : Option (List Char) :=
  ((coreRules M t).decide c.routing.rules).or (c.outbounds.head?.map (·.tag))

/-- The servers without a list of domains. -/
def V2rayConfig.DnsServer.plain? : DnsServer → Option (List Char)
  | .address a => some a
  | .bean _ => none

/-- A server that lists the entry, without its list. -/
def V2rayConfig.DnsServer.listing? (entry : List Char) : DnsServer → Option V2rayConfig.ServersBean
  | .address _ => none
  | .bean b => if b.domains.any fun l => decide (entry ∈ l) then some { b with domains := none } else none

/-! ### What the settings ask for -/

/-- A query to a DNS server that is known by its address. -/
def queries (server : List Char) : Bool := isPureIpAddress server && t.port = 53 && M.ip server t.dest

/-- A destination that an entry of a list of the user names. -/
def listed (userRule : List Char) : Bool :=
  (entries userRule).any fun it => if isIpEntry it then M.ip it t.dest else it ≠ [] && M.domain it t.dest

namespace SettingsStorage
variable (s : SettingsStorage)

/-- The domestic DNS server is in use. -/
def usesDomesticDns : Bool := userRule2Domian (text s.routingDirect) ≠ [] || s.bypassesMainland

/-- A destination that the mode reaches without the server. -/
def modeDirect : Bool :=
  (s.mode = ERoutingMode.bypassLan.value || s.mode = ERoutingMode.bypassLanMainland.value) &&
      M.ip "geoip:private".toList t.dest ||
    s.bypassesMainland && (M.ip "geoip:cn".toList t.dest || M.domain "geosite:cn".toList t.dest) ||
    s.mode = ERoutingMode.globalDirect.value

/-- The outbound that the settings ask for. -/
def route : List Char :=
  if decodeBool s.localDnsEnabled && t.inboundTag = dnsIn then dnsOut
  else if queries M t (getRemoteDnsServers s).first then tagAgent
  else if s.usesDomesticDns && queries M t (getDomesticDnsServers s).first then tagDirect
  else if s.bypassesMainland && M.domain "domain:googleapis.cn".toList t.dest then tagAgent
  else if listed M t (text s.routingAgent) then tagAgent
  else if listed M t (text s.routingDirect) then tagDirect
  else if listed M t (text s.routingBlocked) then tagBlocked
  else if s.modeDirect M t then tagDirect
  else tagAgent

/-- The servers that the settings ask for an entry, in their order. -/
def serversFor (entry : List Char) : List V2rayConfig.ServersBean :=
  let agent := decide (entry ∈ userRule2Domian (text s.routingAgent))
  let direct := decide (entry ∈ userRule2Domian (text s.routingDirect))
  let cn := decide (entry = "geosite:cn".toList)
  let domestic : V2rayConfig.ServersBean :=
    { address := (getDomesticDnsServers s).first, port := some 53, expectIPs := some geoipCn }
  (if decodeBool s.localDnsEnabled && decodeBool s.fakeDnsEnabled && (cn || agent || direct) then
    [{ address := "fakedns".toList }] else []) ++
  (if agent then [{ address := (getRemoteDnsServers s).first, port := some 53 }] else []) ++
  (if direct then [domestic] else []) ++ (if s.bypassesMainland && cn then [domestic] else [])

/-- The host that an entry stands for by the settings. -/
def host (entry : List Char) : Option (List Char) :=
  if entry = "domain:googleapis.cn".toList then some "googleapis.com".toList
  else if entry ∈ userRule2Domian (text s.routingBlocked) then some "127.0.0.1".toList
  else none

end SettingsStorage
end NicVpn.V2ray
