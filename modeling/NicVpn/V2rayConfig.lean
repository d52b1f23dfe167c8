import NicVpn.ServerStore
import NicVpn.Lib.Joined

/-! The outbound of a V2Ray configuration in full, and how the few fields of a link become the settings of its
    transport. -/

namespace NicVpn.V2ray

def defaultPort : Int := 443

def defaultSecurity : List Char := "auto".toList

def defaultNetwork : List Char := "tcp".toList

def tls : List Char := "tls".toList

def xtls : List Char := "xtls".toList

def http : List Char := "http".toList

/-- `joinToString()` -/
def joinToString (l : List (List Char)) : List Char := (l.intersperse ", ".toList).flatten

/-- `split(",").map { it.trim() }.filter { it.isNotEmpty() }` -/
def splitList (s : List Char) : List (List Char) := ((Text.split [','] s).map Text.strip).filter (· ≠ [])

/-! ### Transport -/

structure RequestBean where
  path : List (List Char) := []
  Host : List (List Char) := []
  deriving DecidableEq, Repr

structure TcpSettingsBean where
  headerType : List Char := "none".toList
  request : Option RequestBean := none
  deriving DecidableEq, Repr

structure KcpSettingsBean where
  headerType : List Char := "none".toList
  seed : Option (List Char) := none
  deriving DecidableEq, Repr

structure WsSettingsBean where
  path : List Char := []
  Host : List Char := []
  deriving DecidableEq, Repr

structure HttpSettingsBean where
  host : List (List Char) := []
  path : List Char := []
  deriving DecidableEq, Repr

structure QuicSettingBean where
  security : List Char := "none".toList
  key : List Char := []
  headerType : List Char := "none".toList
  deriving DecidableEq, Repr

structure GrpcSettingsBean where
  serviceName : List Char := []
  multiMode : Option Bool := none
  deriving DecidableEq, Repr

structure TlsSettingsBean where
  allowInsecure : Bool := false
  serverName : List Char := []
  alpn : Option (List (List Char)) := none
  fingerprint : Option (List Char) := none
  deriving DecidableEq, Repr

structure StreamSettingsBean where
  network : List Char := defaultNetwork
  security : List Char := []
  tcpSettings : Option TcpSettingsBean := none
  kcpSettings : Option KcpSettingsBean := none
  wsSettings : Option WsSettingsBean := none
  httpSettings : Option HttpSettingsBean := none
  tlsSettings : Option TlsSettingsBean := none
  quicSettings : Option QuicSettingBean := none
  xtlsSettings : Option TlsSettingsBean := none
  grpcSettings : Option GrpcSettingsBean := none
  deriving DecidableEq, Repr

/-- The parameters of `populateTransportSettings` after the transport; a null is `none`. -/
structure TransportFields where
  headerType : Option (List Char) := none
  host : Option (List Char) := none
  path : Option (List Char) := none
  seed : Option (List Char) := none
  quicSecurity : Option (List Char) := none
  key : Option (List Char) := none
  mode : Option (List Char) := none
  serviceName : Option (List Char) := none
  deriving DecidableEq, Repr

/-- `TextUtils.isEmpty`, and `isNullOrEmpty`. -/
def isEmpty (s : Option (List Char)) : Bool := s.getD [] = []

namespace StreamSettingsBean

def tcpOf (f : TransportFields) : TcpSettingsBean :=
  if f.headerType = some http then
    { headerType := http
      request :=
        if isEmpty f.host && isEmpty f.path then none
        else some { Host := splitList (f.host.getD []), path := splitList (f.path.getD []) } }
  else { headerType := "none".toList }

def kcpOf (f : TransportFields) : KcpSettingsBean :=
  { headerType := f.headerType.getD "none".toList, seed := if isEmpty f.seed then none else f.seed }

def wsOf (f : TransportFields) : WsSettingsBean := { Host := f.host.getD [], path := f.path.getD ['/'] }

def h2Of (f : TransportFields) : HttpSettingsBean :=
  { host := splitList (f.host.getD []), path := f.path.getD ['/'] }

def quicOf (f : TransportFields) : QuicSettingBean :=
  { security := f.quicSecurity.getD "none".toList, key := f.key.getD [], headerType := f.headerType.getD "none".toList }

def grpcOf (f : TransportFields) : GrpcSettingsBean :=
  { multiMode := some (f.mode = some "multi".toList), serviceName := f.serviceName.getD [] }

/-- The name that the transport gives the server. -/
def tcpSni (f : TransportFields) : List Char :=
  if f.headerType = some http then (((tcpOf f).request.map (·.Host)).getD []).headD [] else f.host.getD []

/-- The settings of the transport, and the name that they give the server. -/
def populateTransportSettings (s : StreamSettingsBean) (transport : List Char) (f : TransportFields) :
    StreamSettingsBean × List Char :=
  if transport = "tcp".toList then ({ s with network := transport, tcpSettings := some (tcpOf f) }, tcpSni f)
  else if transport = "kcp".toList then ({ s with network := transport, kcpSettings := some (kcpOf f) }, [])
  else if transport = "ws".toList then ({ s with network := transport, wsSettings := some (wsOf f) }, (wsOf f).Host)
  else if transport = "h2".toList ∨ transport = "http".toList then
    ({ s with network := "h2".toList, httpSettings := some (h2Of f) }, (h2Of f).host.headD [])
  else if transport = "quic".toList then ({ s with network := transport, quicSettings := some (quicOf f) }, [])
  else if transport = "grpc".toList then
    ({ s with network := transport, grpcSettings := some (grpcOf f) }, f.host.getD [])
  else ({ s with network := transport }, [])

/-- A security of another kind leaves the settings of TLS as they are. -/
def populateTlsSettings (s : StreamSettingsBean) (streamSecurity : List Char) (allowInsecure : Bool) (sni : List Char)
    (fingerprint alpns : Option (List Char)) : StreamSettingsBean :=
  let tlsSetting : TlsSettingsBean :=
    { allowInsecure := allowInsecure, serverName := sni, fingerprint := fingerprint
      alpn := if isEmpty alpns then none else some (splitList (alpns.getD [])) }
  if streamSecurity = tls then
    { s with security := streamSecurity, tlsSettings := some tlsSetting, xtlsSettings := none }
  else if streamSecurity = xtls then
    { s with security := streamSecurity, tlsSettings := none, xtlsSettings := some tlsSetting }
  else { s with security := streamSecurity }

/-- `getTransportSettingDetails`: header type, host and path as the transport understands them. -/
def getTransportSettingDetails (s : StreamSettingsBean) : Option (List Char × List Char × List Char) :=
  if s.network = "tcp".toList then
    s.tcpSettings.map fun t =>
      (t.headerType, ((t.request.map (·.Host)).map joinToString).getD [], ((t.request.map (·.path)).map joinToString).getD [])
  else if s.network = "kcp".toList then s.kcpSettings.map fun t => (t.headerType, [], t.seed.getD [])
  else if s.network = "ws".toList then s.wsSettings.map fun t => ([], t.Host, t.path)
  else if s.network = "h2".toList then s.httpSettings.map fun t => ([], joinToString t.host, t.path)
  else if s.network = "quic".toList then s.quicSettings.map fun t => (t.headerType, t.security, t.key)
  else if s.network = "grpc".toList then
    s.grpcSettings.map fun t => (if t.multiMode = some true then "multi".toList else "gun".toList, [], t.serviceName)
  else none

end StreamSettingsBean

/-! ### Outbound -/

/-- The one user of `vnext`. -/
structure UsersBean where
  id : List Char := []
  alterId : Option Int := none
  security : List Char := defaultSecurity
  encryption : List Char := []
  flow : List Char := []
  deriving DecidableEq, Repr

/-- The one element of `vnext`. -/
structure VnextBean where
  address : List Char := []
  port : Int := defaultPort
  user : UsersBean := {}
  deriving DecidableEq, Repr

structure SocksUsersBean where
  user : List Char := []
  pass : List Char := []
  deriving DecidableEq, Repr

/-- The one element of `servers`. -/
structure ServersBean where
  address : List Char := []
  method : List Char := "chacha20-poly1305".toList
  password : List Char := []
  port : Int := defaultPort
  flow : Option (List Char) := none
  users : Option SocksUsersBean := none
  deriving DecidableEq, Repr

structure OutboundBean where
  vnext : Option VnextBean := none
  servers : Option ServersBean := none
  streamSettings : StreamSettingsBean := {}
  deriving DecidableEq, Repr

/-- What is stored for a server, less its id and the time it was added. -/
structure ServerConfig where
  configType : EConfigType
  subscriptionId : List Char := []
  remarks : List Char := []
  outboundBean : OutboundBean
  deriving DecidableEq, Repr

namespace ServerConfig

/-- `create` for the protocols with one server. -/
def create (configType : EConfigType) : ServerConfig where
  configType := configType
  outboundBean :=
    if configType = .vmess ∨ configType = .vless then { vnext := some {} } else { servers := some {} }

/-- The address, as `getServerAddress` tells it by the protocol. -/
def getServerAddress (c : ServerConfig) : Option (List Char) :=
  if c.configType = .vmess ∨ c.configType = .vless then c.outboundBean.vnext.map (·.address)
  else c.outboundBean.servers.map (·.address)

def getServerPort (c : ServerConfig) : Option Int :=
  if c.configType = .vmess ∨ c.configType = .vless then c.outboundBean.vnext.map (·.port)
  else c.outboundBean.servers.map (·.port)

def getPassword (c : ServerConfig) : Option (List Char) :=
  if c.configType = .vmess ∨ c.configType = .vless then c.outboundBean.vnext.map (·.user.id)
  else if c.configType = .socks then c.outboundBean.servers.bind fun s => s.users.map (·.pass)
  else c.outboundBean.servers.map (·.password)

/-- The method or security, null for the other protocols. -/
def getSecurityEncryption (c : ServerConfig) : Option (List Char) :=
  match c.configType with
  | .vmess => c.outboundBean.vnext.map (·.user.security)
  | .vless => c.outboundBean.vnext.map (·.user.encryption)
  | .shadowsocks => c.outboundBean.servers.map (·.method)
  | _ => none

/-- `getTransportSettingDetails`, which knows no transport of the other protocols. -/
def getTransportSettingDetails (c : ServerConfig) : Option (List Char × List Char × List Char) :=
  if c.configType = .vmess ∨ c.configType = .vless ∨ c.configType = .trojan then
    c.outboundBean.streamSettings.getTransportSettingDetails
  else none

end ServerConfig
end NicVpn.V2ray
