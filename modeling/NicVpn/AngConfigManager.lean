import NicVpn.Lib.Backtrack
import NicVpn.Lib.Base64
import NicVpn.Lib.Uri
import NicVpn.V2rayConfig
import Mathlib.Computability.RegularExpressions

/-! `AngConfigManager`: the configuration that a link stands for, and the link of a configuration. -/

namespace NicVpn

namespace Utils
open RegularExpression

/-- `parseInt`, which is zero for a text that is no number. -/
def parseInt (s : List Char) : Int := (Text.toInt s).getD 0

def removeWhiteSpace (s : List Char) : List Char := Text.replace [' '] [] s

def encode (text : List Char) : List Char := Base64.encodeNoWrap (Utf8.encode text)

def trimEnd (c : Char) (s : List Char) : List Char := (s.reverse.dropWhile (· = c)).reverse

def urlDecode (url : List Char) : List Char := ((Percent.urlDecode url).bind Percent.urlDecode).getD url

def urlEncode (url : List Char) : List Char := Percent.urlEncode url

def fixIllegalUrl (str : List Char) : List Char :=
  Text.replace ['|'] "%7C".toList (Text.replace [' '] "%20".toList str)

/-- One of the given characters. -/
def oneOf (l : List Char) : RegularExpression Char := (l.map char).foldr (· + ·) 0

/-- `[0-9A-Fa-f]{1,4}` -/
def hexGroup : RegularExpression Char :=
  let hex := oneOf "0123456789ABCDEFabcdef".toList
  hex * (1 + hex * (1 + hex * (1 + hex)))

def colonGroup : RegularExpression Char := char ':' * hexGroup

def regV6 : RegularExpression Char :=
  (1 + hexGroup) * star colonGroup * (char ':' * char ':') * (1 + hexGroup) * star colonGroup + hexGroup * colonGroup ^ 7

/-- An opening bracket is dropped, with the last closing one and what follows it. -/
def unbracketed (value : List Char) : List Char :=
  if value.head? = some '[' ∧ ']' ∈ value then Text.substringBeforeLast ']' (value.drop 1) else value

def isIpv6Address (value : List Char) : Bool := regV6.rmatch (unbracketed value)

def getIpv6Address (address : List Char) : List Char :=
  if isIpv6Address address then '[' :: address ++ [']'] else address

/-- `removeSurrounding("[", "]")` -/
def removeBrackets (s : List Char) : List Char :=
  if 2 ≤ s.length ∧ s.head? = some '[' ∧ s.getLast? = some ']' then s.tail.dropLast else s

end Utils

namespace V2ray

/-- The object that a VMESS link carries. -/
structure VmessQRCode where
  v : List Char := []
  ps : List Char := []
  add : List Char := []
  port : List Char := []
  id : List Char := []
  aid : List Char := ['0']
  scy : List Char := []
  net : List Char := []
  type : List Char := []
  host : List Char := []
  path : List Char := []
  tls : List Char := []
  sni : List Char := []
  alpn : List Char := []
  deriving DecidableEq, Repr

/-- Keys with their values. -/
abbrev Params := List (List Char × List Char)

/-- The libraries around the links. -/
structure Libraries where
  /-- `Gson`, on an object without nulls. -/
  toJson : VmessQRCode → List Char
  fromJson : List Char → Option VmessQRCode
  /-- `Base64.decode` with `NO_WRAP`, and with `URL_SAFE` too. -/
  base64Decode : List Char → Option (List UInt8)
  base64DecodeUrlSafe : List Char → Option (List UInt8)
  lowercase : List Char → List Char
  /-- The entries of a `HashMap` in the order of its iterator. -/
  hashOrder : Params → Params

namespace Utils
open NicVpn.Utils

def tryDecodeBase64 (lib : Libraries) (text : List Char) : Option (List Char) :=
  ((lib.base64Decode text).or (lib.base64DecodeUrlSafe text)).map Utf8.decode

def decode (lib : Libraries) (text : List Char) : List Char :=
  match tryDecodeBase64 lib text with
  | some s => s
  | none =>
    if ['='].isSuffixOf text then (tryDecodeBase64 lib (trimEnd '=' text)).getD [] else []

end Utils

abbrev Import := Except ImportError ServerConfig

namespace AngConfigManager
open NicVpn.Utils

def scheme (t : EConfigType) : List Char := t.protocolScheme.toList

/-- Whether a text occurs behind the first character. -/
def indexPositive (pat s : List Char) : Bool :=
  match Text.indexOf pat s with
  | some (_ + 1) => true
  | _ => false

/-- A value that must be there, or else an exception ends the import. -/
def get {α : Type} (a : Option α) : Except ImportError α :=
  match a with
  | some a => .ok a
  | none => .error .exception

def setVnext (config : ServerConfig) (f : VnextBean → VnextBean) : ServerConfig :=
  { config with outboundBean := { config.outboundBean with vnext := config.outboundBean.vnext.map f } }

def setServer (config : ServerConfig) (f : ServersBean → ServersBean) : ServerConfig :=
  { config with outboundBean := { config.outboundBean with servers := config.outboundBean.servers.map f } }

def setStreamSettings (config : ServerConfig) (streamSettings : StreamSettingsBean) : ServerConfig :=
  { config with outboundBean := { config.outboundBean with streamSettings := streamSettings } }

/-- `idnHost` of a URI with a host. -/
def idnHost (host : List Char) : List Char := host.filter fun c => c ≠ '[' && c ≠ ']'

/-! ### VMESS -/

/-- The user info `NET[+tls]:UUID` of a new-style link: the whole match and its three groups. -/
def newVmessGroups (userInfo : List Char) : Option (List (List Char)) := do
  let lower := fun c : Char => ('0' ≤ c && c ≤ '9') || ('a' ≤ c && c ≤ 'z')
  let protocol ← ["tcp", "http", "ws", "kcp", "quic", "grpc"].map String.toList |>.find? fun t =>
    (t ++ [':']).isPrefixOf userInfo || (t ++ "+tls:".toList).isPrefixOf userInfo
  let rest := userInfo.drop protocol.length
  let plusTls := "+tls:".toList.isPrefixOf rest
  let tls := if plusTls then "+tls".toList else []
  let rest := rest.drop (if plusTls then 5 else 1)
  if (Text.split ['-'] rest).map List.length = [8, 4, 4, 4, 12] ∧ rest.all (fun c => lower c || c = '-') then
    return [userInfo, protocol, tls, rest]
  else none

/-- `tryParseNewVmess`: before anything is set, the groups are taken apart into five, and there are four. -/
def tryParseNewVmess (uriString : List Char) : Bool :=
  match (Uri.parse uriString).filter (·.scheme = some "vmess".toList) with
  | none => false
  | some uri =>
    match uri.userInfo.bind newVmessGroups with
    | none => false
    | some groupValues => groupValues[4]?.isSome

/-- `tryResolveVmess4Kitsunebi` -/
def tryResolveVmess4Kitsunebi (lib : Libraries) (server : List Char) (config : ServerConfig) : Import :=
  let result := Text.replace (scheme .vmess) [] server
  let result := if indexPositive ['?'] result then result.takeWhile (· ≠ '?') else result
  match Text.split ['@'] (Utils.decode lib result) with
  | [arr21, arr22] =>
    match Text.split [':'] arr21 with
    | [security, id] =>
      match Text.split [':'] arr22 with
      | address :: port :: _ =>
        .ok (setVnext { config with remarks := "Alien".toList } fun vnext => { vnext with
          address := address, port := parseInt port
          user := { vnext.user with id := id, security := security, alterId := some 0 } })
      | _ => .error .exception
    | _ => .error .incorrectProtocol
  | _ => .error .incorrectProtocol

def vmessFields (q : VmessQRCode) : TransportFields where
  headerType := some q.type
  host := some q.host
  path := some q.path
  seed := some q.path
  quicSecurity := some q.host
  key := some q.path
  mode := some q.type
  serviceName := some q.path

def ofVmessQRCode (allowInsecure : Bool) (config : ServerConfig) (q : VmessQRCode) : Import :=
  if q.add = [] ∨ q.port = [] ∨ q.id = [] ∨ q.net = [] then .error .incorrectProtocol
  else
    let streamSetting := config.outboundBean.streamSettings
    let fingerprint := streamSetting.tlsSettings.bind (·.fingerprint)
    let config := setVnext { config with remarks := q.ps } fun vnext => { vnext with
      address := q.add, port := parseInt q.port
      user := { vnext.user with
        id := q.id, security := if q.scy = [] then defaultSecurity else q.scy
        alterId := some (parseInt q.aid) } }
    let (streamSetting, sni) := streamSetting.populateTransportSettings q.net (vmessFields q)
    .ok (setStreamSettings config (streamSetting.populateTlsSettings q.tls allowInsecure
      (if q.sni = [] then sni else q.sni) fingerprint (some q.alpn)))

def importVmess (lib : Libraries) (allowInsecure : Bool) (str : List Char) : Import :=
  let config := ServerConfig.create .vmess
  if tryParseNewVmess str then .ok config
  else if indexPositive ['?'] str then tryResolveVmess4Kitsunebi lib str config
  else
    let result := Utils.decode lib (Text.replace (scheme .vmess) [] str)
    if result = [] then .error .decodingFailed
    else
      match lib.fromJson result with
      | none => .error .exception
      | some vmessQRCode => ofVmessQRCode allowInsecure config vmessQRCode

/-! ### Shadowsocks and SOCKS -/

/-- The remarks behind a `#`, and what stands before it. -/
def cutRemarks (config : ServerConfig) (result : List Char) : ServerConfig × List Char :=
  if indexPositive ['#'] result then
    ({ config with remarks := urlDecode (result.dropWhile (· ≠ '#')).tail }, result.takeWhile (· ≠ '#'))
  else (config, result)

/-- The user info is Base64, or else all of it. -/
def partDecode (lib : Libraries) (result : List Char) : List Char :=
  if indexPositive ['@'] result then Utils.decode lib (result.takeWhile (· ≠ '@')) ++ result.dropWhile (· ≠ '@')
  else Utils.decode lib result

/-- The four groups of an address. -/
structure Address where
  user : List Char
  pass : List Char
  host : List Char
  port : List Char
  deriving DecidableEq, Repr

section Patterns
open Backtrack

/-- `:(.*)@(.+?):(\d+?)`, and what follows it. -/
def addressPattern (slash : Bool) (user s : List Char) : Option Address :=
  char ':' s fun s =>
    longest dot s fun pass s =>
      char '@' s fun s =>
        shortestPlus dot s fun host s =>
          char ':' s fun s =>
            shortestPlus digit s fun port s =>
              if s = [] ∨ (slash ∧ s = ['/']) then some { user := user, pass := pass, host := host, port := port }
              else none

/-- `^(.+?):(.*)@(.+?):(\d+?)/?$` -/
def shadowsocksPattern (s : List Char) : Option Address := shortestPlus dot s (addressPattern true)

/-- `^(.*):(.*)@(.+?):(\d+?)$` -/
def socksPattern (s : List Char) : Option Address := longest dot s (addressPattern false)

end Patterns

/-- `tryResolveResolveSip002`: the remarks are set although the rest may fail. -/
def tryResolveResolveSip002 (lib : Libraries) (str : List Char) (config : ServerConfig) : ServerConfig × Bool :=
  match Uri.parse (fixIllegalUrl str) with
  | none => (config, false)
  | some uri =>
    let config := { config with remarks := urlDecode (uri.fragment.getD []) }
    let methodAndPassword :=
      uri.userInfo.bind fun userInfo =>
        if ':' ∈ userInfo then
          match (Text.split [':'] userInfo).map Text.strip with
          | [method, password] => some (method, urlDecode password)
          | _ => none
        else
          let base64Decode := Utils.decode lib userInfo
          match (Text.split [':'] base64Decode).map Text.strip with
          | method :: _ :: _ => some (method, (base64Decode.dropWhile (· ≠ ':')).tail)
          | _ => none
    match methodAndPassword, uri.host with
    | some (method, password), some host =>
      (setServer config fun server => { server with
        address := idnHost host, port := uri.port, password := password, method := method }, true)
    | _, _ => (config, false)

def importShadowsocks (lib : Libraries) (str : List Char) : Import :=
  let (config, resolved) := tryResolveResolveSip002 lib str (ServerConfig.create .shadowsocks)
  if resolved then .ok config
  else
    let (config, result) := cutRemarks config (Text.replace (scheme .shadowsocks) [] str)
    match shadowsocksPattern (partDecode lib result) with
    | none => .error .incorrectProtocol
    | some address => do
      let port ← get (Text.toInt address.port)
      return setServer config fun server => { server with
        address := removeBrackets address.host, port := port
        password := address.pass, method := lib.lowercase address.user }

def importSocks (lib : Libraries) (str : List Char) : Import :=
  let (config, result) := cutRemarks (ServerConfig.create .socks) (Text.replace (scheme .socks) [] str)
  match socksPattern (partDecode lib result) with
  | none => .error .incorrectProtocol
  | some address => do
    let port ← get (Text.toInt address.port)
    return setServer config fun server => { server with
      address := removeBrackets address.host, port := port
      users := some { user := lib.lowercase address.user, pass := address.pass } }

/-! ### TROJAN and VLESS -/

/-- One parameter of a query, which needs an equals sign. -/
def param (s : List Char) : Except ImportError (List Char × List Char) :=
  match Text.split ['='] s with
  | k :: v :: _ => .ok (k, urlDecode v)
  | _ => .error .exception

/-- The parameters of a query in its order. -/
def queryParams (rawQuery : List Char) : Except ImportError Params := (Text.split ['&'] rawQuery).mapM param

/-- The last of the values of a key. -/
def queryParam (l : Params) (k : String) : Option (List Char) := l.reverse.lookup k.toList

def queryFields (l : Params) : TransportFields where
  headerType := queryParam l "headerType"
  host := queryParam l "host"
  path := queryParam l "path"
  seed := queryParam l "seed"
  quicSecurity := queryParam l "quicSecurity"
  key := queryParam l "key"
  mode := queryParam l "mode"
  serviceName := queryParam l "serviceName"

/-- The stream settings of a query. -/
def ofQuery (allowInsecure : Bool) (defaultSecurity : List Char) (s : StreamSettingsBean) (l : Params) :
    StreamSettingsBean :=
  let fingerprint := s.tlsSettings.bind (·.fingerprint)
  let (s, sni) := s.populateTransportSettings ((queryParam l "type").getD defaultNetwork) (queryFields l)
  s.populateTlsSettings ((queryParam l "security").getD defaultSecurity) allowInsecure ((queryParam l "sni").getD sni)
    fingerprint (queryParam l "alpn")

def importTrojan (allowInsecure : Bool) (str : List Char) : Import := do
  let uri ← get (Uri.parse (fixIllegalUrl str))
  let config := { ServerConfig.create .trojan with remarks := urlDecode (uri.fragment.getD []) }
  let s := config.outboundBean.streamSettings
  let (s, flow) ←
    match uri.rawQuery with
    | some rawQuery => do
      let l ← queryParams rawQuery
      pure (ofQuery allowInsecure tls s l, (queryParam l "flow").getD [])
    | none => pure (s.populateTlsSettings tls allowInsecure [] (s.tlsSettings.bind (·.fingerprint)) none, [])
  let host ← get uri.host
  let userInfo ← get uri.userInfo
  return setServer (setStreamSettings config s) fun server => { server with
    address := idnHost host, port := uri.port, password := userInfo, flow := some flow }

def importVless (allowInsecure : Bool) (str : List Char) : Import := do
  let uri ← get (Uri.parse (fixIllegalUrl str))
  let rawQuery ← get uri.rawQuery
  let l ← queryParams rawQuery
  let config := { ServerConfig.create .vless with remarks := urlDecode (uri.fragment.getD []) }
  let host ← get uri.host
  let userInfo ← get uri.userInfo
  let config := setVnext config fun vnext => { vnext with
    address := idnHost host, port := uri.port
    user := { vnext.user with
      id := userInfo, encryption := (queryParam l "encryption").getD "none".toList
      flow := (queryParam l "flow").getD [] } }
  return setStreamSettings config (ofQuery allowInsecure [] config.outboundBean.streamSettings l)

/-! ### Import -/

/-- The configuration of a link of each kind. -/
def parseLink (lib : Libraries) (allowInsecure : Bool) (t : EConfigType) (str : List Char) : Import :=
  match t with
  | .vmess => importVmess lib allowInsecure str
  | .shadowsocks => importShadowsocks lib str
  | .socks => importSocks lib str
  | .trojan => importTrojan allowInsecure str
  | .vless => importVless allowInsecure str
  | _ => .error .incorrectProtocol

/-- The configuration that `importConfig` stores for the link of a server. -/
def importedConfig (lib : Libraries) (allowInsecure : Bool) (str subid : List Char) : Import := do
  match NicVpn.AngConfigManager.schemes.find? fun t => (scheme t).isPrefixOf str with
  | some t => return { ← parseLink lib allowInsecure t str with subscriptionId := subid }
  | none => .error .incorrectProtocol

/-! ### Sharing -/

/-- `toString` of what may be null. -/
def orNull (s : Option (List Char)) : List Char := s.getD "null".toList

def portText (c : ServerConfig) : List Char := orNull (c.getServerPort.map fun port => (toString port).toList)

def toVmessQRCode (c : ServerConfig) : VmessQRCode :=
  let user := c.outboundBean.vnext.map (·.user)
  let streamSetting := c.outboundBean.streamSettings
  let transportDetails := c.getTransportSettingDetails.getD ([], [], [])
  { v := "2".toList
    ps := c.remarks
    add := c.getServerAddress.getD []
    port := portText c
    id := c.getPassword.getD []
    aid := orNull ((user.bind (·.alterId)).map fun alterId => (toString alterId).toList)
    scy := orNull (user.map (·.security))
    net := streamSetting.network
    tls := streamSetting.security
    sni := (streamSetting.tlsSettings.map (·.serverName)).getD []
    alpn := ((streamSetting.tlsSettings.bind (·.alpn)).map fun alpn => removeWhiteSpace (joinToString alpn)).getD []
    type := transportDetails.1
    host := transportDetails.2.1
    path := transportDetails.2.2 }

def shareVmess (lib : Libraries) (c : ServerConfig) : List Char := encode (lib.toJson (toVmessQRCode c))

def remark (c : ServerConfig) : List Char := '#' :: urlEncode c.remarks

/-- User info, address and port; there is no link without an address. -/
def shareUrl (c : ServerConfig) (pw : List Char) : Option (List Char) :=
  c.getServerAddress.map fun address => pw ++ '@' :: getIpv6Address address ++ ':' :: portText c

def shareShadowsocks (c : ServerConfig) : Option (List Char) :=
  let pw := encode (orNull c.getSecurityEncryption ++ ':' :: orNull c.getPassword)
  (shareUrl c pw).map (· ++ remark c)

def shareSocks (c : ServerConfig) : Option (List Char) :=
  let user := (c.outboundBean.servers.bind (·.users)).map (·.user)
  let pw := encode (orNull user ++ ':' :: orNull c.getPassword)
  (shareUrl c pw).map (· ++ remark c)

def ifEmpty (s t : List Char) : List Char := if s = [] then t else s

/-- A parameter that is left out when it is empty. -/
def unlessEmpty (k : String) (s : List Char) : Params := if s = [] then [] else [(k.toList, s)]

def flowParams (c : ServerConfig) : Params :=
  match c.configType with
  | .vless =>
    unlessEmpty "flow" ((c.outboundBean.vnext.map (·.user.flow)).getD []) ++
      [("encryption".toList, ifEmpty (c.getSecurityEncryption.getD []) "none".toList)]
  | .trojan => unlessEmpty "flow" ((c.outboundBean.servers.bind (·.flow)).getD [])
  | _ => []

def tlsParams (s : StreamSettingsBean) : Params :=
  match s.tlsSettings.or s.xtlsSettings with
  | some tlsSetting =>
    unlessEmpty "sni" tlsSetting.serverName ++
      match tlsSetting.alpn with
      | none => []
      | some [] => []
      | some alpn => [("alpn".toList, removeWhiteSpace (joinToString alpn))]
  | none => []

/-- A coded parameter that is left out when it is empty. -/
def codedUnlessEmpty (k : String) (s : List Char) : Params := if s = [] then [] else [(k.toList, urlEncode s)]

/-- The parameters of a transport, with the details that `getTransportSettingDetails` gives. -/
def transportParams (network : List Char) (d : List Char × List Char × List Char) : Params :=
  if network = "tcp".toList then ("headerType".toList, ifEmpty d.1 "none".toList) :: codedUnlessEmpty "host" d.2.1
  else if network = "kcp".toList then ("headerType".toList, ifEmpty d.1 "none".toList) :: codedUnlessEmpty "seed" d.2.2
  else if network = "ws".toList then codedUnlessEmpty "host" d.2.1 ++ codedUnlessEmpty "path" d.2.2
  else if network = "http".toList ∨ network = "h2".toList then
    codedUnlessEmpty "host" d.2.1 ++ codedUnlessEmpty "path" d.2.2
  else if network = "quic".toList then
    [("headerType".toList, ifEmpty d.1 "none".toList), ("quicSecurity".toList, urlEncode d.2.1),
      ("key".toList, urlEncode d.2.2)]
  else if network = "grpc".toList then [("mode".toList, d.1), ("serviceName".toList, d.2.2)]
  else []

/-- The `type` of a network: `h2` is written as `http`, if it has settings. -/
def typeParam (s : StreamSettingsBean) (details : Option (List Char × List Char × List Char)) : List Char :=
  if details.isSome ∧ (s.network = "http".toList ∨ s.network = "h2".toList) then "http".toList
  else ifEmpty s.network defaultNetwork

/-- `dicQuery` -/
def dicQuery (c : ServerConfig) : Params :=
  let s := c.outboundBean.streamSettings
  let details := c.getTransportSettingDetails
  flowParams c ++ ("security".toList, ifEmpty s.security "none".toList) :: tlsParams s ++
    ("type".toList, typeParam s details) :: ((details.map (transportParams s.network)).getD [])

/-- `joinToString("&")` of the parameters. -/
def joinQuery (l : Params) : List Char := ((l.map fun p => p.1 ++ '=' :: p.2).intersperse ['&']).flatten

def shareQuery (lib : Libraries) (c : ServerConfig) : Option (List Char) :=
  (shareUrl c (orNull c.getPassword)).map fun url => url ++ '?' :: joinQuery (lib.hashOrder (dicQuery c)) ++ remark c

/-- `shareConfig`; empty if there is an exception. -/
def shareConfig (lib : Libraries) (c : ServerConfig) : List Char :=
  let link := fun t : Option (List Char) => (t.map (scheme c.configType ++ ·)).getD []
  match c.configType with
  | .vmess => link (some (shareVmess lib c))
  | .custom => link (some [])
  | .wireguard => link (some [])
  | .shadowsocks => link (shareShadowsocks c)
  | .socks => link (shareSocks c)
  | .vless => link (shareQuery lib c)
  | .trojan => link (shareQuery lib c)

end AngConfigManager
end V2ray
end NicVpn
