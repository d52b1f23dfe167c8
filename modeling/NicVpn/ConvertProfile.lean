import NicVpn.ConfigParser
import NicVpn.Lib.Joined
import NicVpn.VpnProfile

/-! `ConfigParser`, second half: the options become a profile. Each option is taken out of the options as it is read;
    what is left at the end is kept as a custom option. -/

namespace NicVpn
namespace ConfigParser

/-! ### Reading options -/

/-- A computation that takes options out. -/
abbrev Parser := StateT Options (Except Failure)

def getAllOption (option : String) (minarg maxarg : Nat) : Parser (Option (List Args)) := fun o =>
  match o.all option with
  | none => .ok (none, o)
  | some args =>
    match args.find? fun optionline => optionline.length < minarg + 1 ∨ maxarg + 1 < optionline.length with
    | some optionline =>
      configParseError ("Option ".toList ++ option.toList ++ " has ".toList ++
        (toString ((optionline.length : Int) - 1)).toList ++ " parameters, expected between ".toList ++
        (toString minarg).toList ++ " and ".toList ++ (toString maxarg).toList)
    | none => .ok (some args, o.remove option)

/-- The last line of an option. -/
def getOption (option : String) (minarg maxarg : Nat) : Parser (Option Args) := do
  return (← getAllOption option minarg maxarg).bind List.getLast?

/-- An option that is read once: its name, how many arguments its lines have, and what they do to the result. -/
structure Setting (α : Type) where
  name : String
  minarg : Nat
  maxarg : Nat
  apply : α → List Args → Except Failure α

namespace Setting
variable {α : Type}

/-- A setting of which the last line counts. -/
def last (name : String) (minarg maxarg : Nat) (f : α → Args → Except Failure α) : Setting α where
  name := name
  minarg := minarg
  maxarg := maxarg
  apply a lines :=
    match lines.getLast? with
    | some args => f a args
    | none => .ok a

/-- The setting is made if the option is there. -/
def read (st : Setting α) (a : α) : Parser α := do
  match ← getAllOption st.name st.minarg st.maxarg with
  | none => return a
  | some lines => (st.apply a lines : Except Failure α)

end Setting

/-- Settings in the order of the source. -/
def readAll {α : Type} (settings : List (Setting α)) (a : α) : Parser α := settings.foldlM (fun a st => st.read a) a

/-- The `i`-th argument if the condition holds, and `default` if not. -/
def getIf (cond : Bool) (args : Args) (i : Nat) (default : List Char) : Except Failure (List Char) :=
  if cond then get args i else .ok default

/-- The variables of `convertProfile`, and the field that it sets in the parser. -/
structure Draft where
  np : VpnProfile
  noauthtypeset : Bool := true
  auth_user_pass_file : Option (List Char) := none
  deriving DecidableEq, Repr

/-- An option without arguments that matter. -/
def flag (name : String) (minarg maxarg : Nat) (set : VpnProfile → VpnProfile) : Setting Draft :=
  .last name minarg maxarg fun d _ => .ok { d with np := set d.np }

/-- An option of one argument. -/
def value (name : String) (set : VpnProfile → List Char → VpnProfile) : Setting Draft :=
  .last name 1 1 fun d args => do return { d with np := set d.np (← get args 1) }

/-! ### Keys and routes -/

def secret : Setting Draft :=
  .last "secret" 1 2 fun d secret => do
    let filename ← get secret 1
    let direction ← getIf (secret.length = 3) secret 2 d.np.mTLSAuthDirection
    return { d with
      noauthtypeset := false
      np := { d.np with
        mAuthenticationType := .statickeys, mUseTLSAuth := true, mTLSAuthFilename := some filename
        mTLSAuthDirection := direction } }

/-- The two texts of routes with one more. -/
def addRoute (acc : List Char × List Char) (route : Args) : Except Failure (List Char × List Char) := do
  let netmask ← getIf (3 ≤ route.length) route 2 "255.255.255.255".toList
  let gateway ← getIf (4 ≤ route.length) route 3 "vpn_gateway".toList
  let net ← get route 1
  match newCidr net netmask with
  | .ok cidr =>
    if gateway = "net_gateway".toList then return (acc.1, acc.2 ++ cidr.toText ++ [' '])
    else return (acc.1 ++ cidr.toText ++ [' '], acc.2)
  | .error .arrayIndexOutOfBounds | .error (.numberFormat _) =>
    configParseError ("Could not parse netmask of route ".toList ++ netmask)
  | .error e => .error e

def route : Setting Draft where
  name := "route"
  minarg := 1
  maxarg := 4
  apply d routes := do
    let (routeopt, routeExcluded) ← routes.foldlM addRoute ([], [])
    return { d with np := { d.np with mCustomRoutes := some routeopt, mExcludedRoutes := some routeExcluded } }

def routeIpv6 : Setting Draft where
  name := "route-ipv6"
  minarg := 1
  maxarg := 4
  apply d routes := do
    let nets ← routes.mapM fun route => get route 1
    return { d with np := { d.np with mCustomRoutesv6 := nets.flatMap (· ++ [' ']) } }

def routeNopull : Setting Draft := flag "route-nopull" 0 0 fun np => { np with mRoutenopull := true }

/-- One line of `tls-auth`, which may be `[inline]` with the key elsewhere. -/
def addTlsAuth (np : VpnProfile) (tlsauth : Args) : Except Failure VpnProfile := do
  let filename ← get tlsauth 1
  let np :=
    if filename ≠ "[inline]".toList then { np with mTLSAuthFilename := some filename, mUseTLSAuth := true } else np
  let direction ← getIf (tlsauth.length = 3) tlsauth 2 np.mTLSAuthDirection
  return { np with mTLSAuthDirection := direction }

def tlsAuth : Setting Draft where
  name := "tls-auth"
  minarg := 1
  maxarg := 2
  apply d tlsauthoptions := do return { d with np := ← tlsauthoptions.foldlM addTlsAuth d.np }

def keyDirection : Setting Draft := value "key-direction" fun np direction => { np with mTLSAuthDirection := direction }

def tlsCryptOf (crypt : String) : Setting Draft :=
  value crypt fun np filename =>
    { np with mUseTLSAuth := true, mTLSAuthFilename := some filename, mTLSAuthDirection := crypt.toList }

/-- One argument of `redirect-gateway`; the flag is `noIpv4`. -/
def redirectParameter (p : VpnProfile × Bool) (arg : List Char) : VpnProfile × Bool :=
  if arg = "block-local".toList then ({ p.1 with mAllowLocalLAN := false }, p.2)
  else if arg = "unblock-local".toList then ({ p.1 with mAllowLocalLAN := true }, p.2)
  else if arg = "!ipv4".toList then (p.1, true)
  else if arg = "ipv6".toList then ({ p.1 with mUseDefaultRoutev6 := true }, p.2)
  else p

def checkRedirectParameters (np : VpnProfile) (defgw : List Args) (defaultRoute : Bool) : VpnProfile :=
  if defaultRoute then
    let (np, noIpv4) := (defgw.flatMap fun redirect => redirect.drop 1).foldl redirectParameter (np, false)
    if noIpv4 then np else { np with mUseDefaultRoute := true }
  else np

def redirectGateway : Setting Draft where
  name := "redirect-gateway"
  minarg := 0
  maxarg := 7
  apply d defgw := .ok { d with np := checkRedirectParameters d.np defgw true }

def redirectPrivate : Setting Draft where
  name := "redirect-private"
  minarg := 0
  maxarg := 5
  apply d redirect := .ok { d with np := checkRedirectParameters d.np redirect false }

/-- Only tun devices. -/
def checkDev (dev devtype : Option Args) : Except Failure Unit := do
  let typeArg ← devtype.mapM (get · 1)
  let devArg ← dev.mapM (get · 1)
  if typeArg = some "tun".toList ∨ devArg.any ("tun".toList.isPrefixOf ·) = true ∨ devtype = none ∧ dev = none then
    return ()
  else configParseError "Sorry. Only tun mode is supported. See the FAQ for more detail".toList

def devOptions (d : Draft) : Parser Draft := do
  let dev ← getOption "dev" 1 1
  let devtype ← getOption "dev-type" 1 1
  (checkDev dev devtype : Except Failure Unit)
  return d

/-! ### The tunnel -/

/-- A number, or the error that its option gives. -/
def parseIntOr (s message : List Char) : Except Failure Int :=
  match parseInt s with
  | .ok n => .ok n
  | .error _ => configParseError message

/-- `mssfix` with its default size. -/
def mssfixSize (mssfix : Args) : Except Failure Int :=
  if 2 ≤ mssfix.length then do
    parseIntOr (← get mssfix 1) "Argument to --mssfix has to be an integer".toList
  else .ok 1450

def mssfixMtu (mssfix : Args) : Except Failure Unit :=
  if 3 ≤ mssfix.length then do
    if (← get mssfix 2) = "mtu".toList then return () else configParseError "Second argument to --mssfix unkonwn".toList
  else .ok ()

def mssfix : Setting Draft :=
  .last "mssfix" 0 2 fun d mssfix => do
    let size ← mssfixSize mssfix
    mssfixMtu mssfix
    return { d with np := { d.np with mMssFix := size } }

def tunMtu : Setting Draft :=
  .last "tun-mtu" 1 1 fun d tunmtu => do
    let mtu ← parseIntOr (← get tunmtu 1) "Argument to --tun-mtu has to be an integer".toList
    return { d with np := { d.np with mTunMtu := mtu } }

def mode : Setting Draft :=
  .last "mode" 1 1 fun d mode => do
    if (← get mode 1) = "p2p".toList then return d
    else configParseError "Invalid mode for --mode specified, need p2p".toList

def addDhcpOption (np : VpnProfile) (dhcpoption : Args) : Except Failure VpnProfile := do
  let type ← get dhcpoption 1
  let arg ← get dhcpoption 2
  if type = "DOMAIN".toList then return { np with mSearchDomain := arg }
  else if type = "DNS".toList then
    if np.mDNS1 = VpnProfile.defaultDns1 then return { np with mOverrideDNS := true, mDNS1 := arg }
    else return { np with mOverrideDNS := true, mDNS2 := arg }
  else return np

def dhcpOption : Setting Draft where
  name := "dhcp-option"
  minarg := 2
  maxarg := 2
  apply d dhcpoptions := do return { d with np := ← dhcpoptions.foldlM addDhcpOption d.np }

/-- The address, where only a text that is no number is reported. -/
def ifconfigAddress (ip mask : List Char) : Except Failure CIDRIP :=
  match newCidr ip mask with
  | .error (.numberFormat s) =>
    configParseError ("Could not pase ifconfig IP address: ".toList ++ numberFormatMessage s)
  | r => r

def ifconfig : Setting Draft :=
  .last "ifconfig" 2 2 fun d ifconfig => do
    let cidr ← ifconfigAddress (← get ifconfig 1) (← get ifconfig 2)
    return { d with np := { d.np with mIPv4Address := some cidr.toText } }

/-! ### Identity -/

def remoteRandomHostname : Setting Draft :=
  flag "remote-random-hostname" 0 0 fun np => { np with mUseRandomHostname := true }

def float : Setting Draft := flag "float" 0 0 fun np => { np with mUseFloat := true }

def compLzo : Setting Draft := flag "comp-lzo" 0 1 fun np => { np with mUseLzo := true }

def cipher : Setting Draft := value "cipher" fun np cipher => { np with mCipher := cipher }

def auth : Setting Draft := value "auth" fun np auth => { np with mAuth := auth }

def ca : Setting Draft := value "ca" fun np ca => { np with mCaFilename := some ca }

/-- An option of one argument that decides how to authenticate. -/
def credential (name : String) (set : VpnProfile → List Char → VpnProfile) : Setting Draft :=
  .last name 1 1 fun d args => do return { d with np := set d.np (← get args 1), noauthtypeset := false }

def cert : Setting Draft :=
  credential "cert" fun np cert => { np with mClientCertFilename := some cert, mAuthenticationType := .certificates }

def key : Setting Draft := value "key" fun np key => { np with mClientKeyFilename := some key }

def pkcs12 : Setting Draft :=
  credential "pkcs12" fun np pkcs12 => { np with mPKCS12Filename := some pkcs12, mAuthenticationType := .keystore }

def cryptoapicert : Setting Draft :=
  .last "cryptoapicert" 1 1 fun d _ =>
    .ok { d with np := { d.np with mAuthenticationType := .keystore }, noauthtypeset := false }

/-- `tls-remote` with the two options that change its meaning. -/
def tlsRemote (np : VpnProfile) (compatnames nonameremapping tlsremote : Option Args) : Except Failure VpnProfile :=
  match tlsremote with
  | none => .ok np
  | some tlsremote => do
    let name ← get tlsremote 1
    return { np with
      mRemoteCN := name, mCheckRemoteCN := true
      mX509AuthType :=
        if compatnames.any (2 < ·.length) ∨ nonameremapping ≠ none then .tlsremoteCompatNoremapping else .tlsremote }

def tlsRemoteOptions (d : Draft) : Parser Draft := do
  let compatnames ← getOption "compat-names" 1 2
  let nonameremapping ← getOption "no-name-remapping" 1 1
  let tlsremote ← getOption "tls-remote" 1 1
  let np ← (tlsRemote d.np compatnames nonameremapping tlsremote : Except Failure VpnProfile)
  return { d with np := np }

def x509Type (verifyx509name : Args) : Except Failure X509Verify :=
  if 2 < verifyx509name.length then do
    let type ← get verifyx509name 2
    if type = "name".toList then return .tlsremoteRdn
    else if type = "subject".toList then return .tlsremoteDn
    else if type = "name-prefix".toList then return .tlsremoteRdnPrefix
    else configParseError ("Unknown parameter to verify-x509-name: ".toList ++ type)
  else .ok .tlsremoteDn

def verifyX509Name : Setting Draft :=
  .last "verify-x509-name" 1 2 fun d verifyx509name => do
    let name ← get verifyx509name 1
    let type ← x509Type verifyx509name
    return { d with np := { d.np with mRemoteCN := name, mCheckRemoteCN := true, mX509AuthType := type } }

def x509UsernameField : Setting Draft :=
  value "x509-username-field" fun np field => { np with mx509UsernameField := some field }

def verb : Setting Draft := value "verb" fun np verb => { np with mVerb := verb }

def nobind : Setting Draft := flag "nobind" 0 0 fun np => { np with mNobind := true }

def persistTun : Setting Draft := flag "persist-tun" 0 0 fun np => { np with mPersistTun := true }

def pushPeerInfo : Setting Draft := flag "push-peer-info" 0 0 fun np => { np with mPushPeerInfo := true }

def connectRetry : Setting Draft :=
  .last "connect-retry" 1 2 fun d connectretry => do
    let retry ← get connectretry 1
    let maxTime ← getIf (2 < connectretry.length) connectretry 2 d.np.mConnectRetryMaxTime
    return { d with np := { d.np with mConnectRetry := retry, mConnectRetryMaxTime := maxTime } }

def connectRetryMax : Setting Draft := value "connect-retry-max" fun np max => { np with mConnectRetryMax := max }

/-- Any other use of the certificate than `server` goes back to the options, under a name of its own. -/
def remoteCertTls (d : Draft) : Parser Draft := do
  match ← getAllOption "remote-cert-tls" 1 1 with
  | none => return d
  | some remotetls =>
    let first ← (get remotetls 0 : Except Failure Args)
    let use ← (get first 1 : Except Failure (List Char))
    if use = "server".toList then return { d with np := { d.np with mExpectTLSCert := true } }
    else
      modify fun o => Options.remove o "remotetls" ++ remotetls.map ("remotetls", ·)
      return d

def userpassType (noauthtypeset : Bool) (type : AuthenticationType) : AuthenticationType :=
  if noauthtypeset then .userpass
  else if type = .certificates then .userpassCertificates
  else if type = .keystore then .userpassKeystore
  else type

def useEmbbedUserAuth (np : VpnProfile) (inlinedata : List Char) : VpnProfile :=
  match Text.parts '\n' (VpnProfile.getEmbeddedContent inlinedata) with
  | user :: password :: _ => { np with mUsername := some user, mPassword := password }
  | _ => np

def authUserPass : Setting Draft :=
  .last "auth-user-pass" 0 1 fun d authuser => do
    let np := { d.np with mAuthenticationType := userpassType d.noauthtypeset d.np.mAuthenticationType }
    if 1 < authuser.length then
      let data ← get authuser 1
      let file := if VpnProfile.inlineTag.isPrefixOf data then d.auth_user_pass_file else some data
      return { d with np := useEmbbedUserAuth { np with mUsername := none } data, auth_user_pass_file := file }
    else return { d with np := np }

/-- `auth-retry`; the message for an unknown parameter asks for one more than there is. -/
def authRetryOf (authretry : Args) : Except Failure AuthRetry := do
  let type ← get authretry 1
  if type = "none".toList then return .noneForget
  else if type = "nointeract".toList then return .nointeract
  else if type = "interact".toList then return .nointeract
  else configParseError ("Unknown parameter to auth-retry: ".toList ++ (← get authretry 2))

def authRetry : Setting Draft :=
  .last "auth-retry" 1 1 fun d authretry => do
    return { d with np := { d.np with mAuthRetry := ← authRetryOf authretry } }

def crlVerify : Setting Draft :=
  .last "crl-verify" 1 2 fun d crlfile => do
    if crlfile[2]? = some "dir".toList ∧ crlfile.length = 3 then
      return { d with np := { d.np with
        mCustomConfigOptions := d.np.mCustomConfigOptions ++ Joined.join ' ' crlfile ++ ['\n'] } }
    else return { d with np := { d.np with mCrlFilename := some (← get crlfile 1) } }

/-! ### Connections -/

def isUdpProto (proto : List Char) : Except Failure Bool :=
  if proto = "udp".toList ∨ proto = "udp4".toList ∨ proto = "udp6".toList then .ok true
  else if proto = "tcp-client".toList ∨ proto = "tcp".toList ∨ proto = "tcp4".toList ∨
      "tcp4-client".toList.isSuffixOf proto ∨ proto = "tcp6".toList ∨ "tcp6-client".toList.isSuffixOf proto then
    .ok false
  else configParseError ("Unsupported option to --proto ".toList ++ proto)

/-- `port` and `rport`. -/
def portOf (name : String) : Setting VpnConnection :=
  .last name 1 1 fun conn port => do return { conn with mServerPort := ← get port 1 }

def proto : Setting VpnConnection :=
  .last "proto" 1 1 fun conn proto => do return { conn with mUseUdp := ← isUdpProto (← get proto 1) }

def timeoutOf (text : List Char) : Except Failure Int :=
  parseIntOr text ("Argument to connect-timeout (".toList ++ text ++ ") must to be an integer: ".toList ++
    numberFormatMessage text)

def connectTimeout : Setting VpnConnection :=
  .last "connect-timeout" 1 1 fun conn connectTimeout => do
    return { conn with mConnectTimeout := ← timeoutOf (← get connectTimeout 1) }

/-- The HTTP proxy is read only if there is no SOCKS proxy. -/
def getProxy : Parser (Option Args) := do
  match ← getOption "socks-proxy" 1 2 with
  | some proxy => return some proxy
  | none => getOption "http-proxy" 2 2

/-- SOCKS has a default port, HTTP always sets one. -/
def setProxy (conn : VpnConnection) : Option Args → Except Failure VpnConnection
  | none => .ok conn
  | some proxy => do
    let conn :=
      if (← get proxy 0) = "socks-proxy".toList then { conn with mProxyType := .socks5, mProxyPort := "1080".toList }
      else { conn with mProxyType := .http }
    let name ← get proxy 1
    let port ← getIf (3 ≤ proxy.length) proxy 2 conn.mProxyPort
    return { conn with mProxyName := name, mProxyPort := port }

def proxyOptions (conn : VpnConnection) : Parser VpnConnection := do
  let proxy ← getProxy
  (setProxy conn proxy : Except Failure VpnConnection)

def useEmbbedHttpAuth (conn : VpnConnection) (inlinedata : List Char) : VpnConnection :=
  match Text.parts '\n' (VpnProfile.getEmbeddedContent inlinedata) with
  | user :: password :: _ =>
    { conn with mProxyAuthUser := some user, mProxyAuthPassword := some password, mUseProxyAuth := true }
  | _ => conn

def httpProxyUserPass : Setting VpnConnection :=
  .last "http-proxy-user-pass" 1 1 fun conn httpproxyauthhttp => do
    return useEmbbedHttpAuth conn (← get httpproxyauthhttp 1)

def ignoreOptionsWithArg : List Args :=
  [["setenv".toList, "IV_GUI_VER".toList], ["setenv".toList, "IV_SSO".toList], ["setenv".toList, "IV_PLAT_VER".toList],
   ["setenv".toList, "IV_OPENVPN_GUI_VERSION".toList], ["engine".toList, "dynamic".toList],
   ["setenv".toList, "CLIENT_CERT".toList], ["resolv-retry".toList, "60".toList]]

def ignoreThisOption (option : Args) : Bool := ignoreOptionsWithArg.any (·.isPrefixOf option)

/-- The lines of an option, written again. -/
def getOptionStrings (option : List Args) : List Char :=
  option.flatMap fun optionsline =>
    if ignoreThisOption optionsline then []
    else
      match optionsline with
      | [name, data] =>
        if name = "extra-certs".toList then VpnProfile.insertFileData name data
        else VpnProfile.openVpnEscape name ++ [' '] ++ VpnProfile.openVpnEscape data ++ " \n".toList
      | args => args.flatMap (fun arg => VpnProfile.openVpnEscape arg ++ [' ']) ++ ['\n']

/-- The order in which a `HashMap` lists its keys. -/
structure HashOrder where
  list : List String → List String
  perm : ∀ keys, (list keys).Perm keys

def connectionOptions : List String :=
  ["local", "remote", "float", "port", "connect-retry", "connect-timeout", "connect-retry-max", "link-mtu", "tun-mtu",
   "tun-mtu-extra", "fragment", "mtu-disc", "local-port", "remote-port", "bind", "nobind", "proto", "http-proxy",
   "http-proxy-retry", "http-proxy-timeout", "http-proxy-option", "socks-proxy", "socks-proxy-retry",
   "http-proxy-user-pass", "explicit-exit-notify"]

/-- The options that stay with the connection: all of a connection block, or those of `connectionOptions`. -/
def takeCustom (order : HashOrder) (block : Bool) : Parser (List Char) := fun o =>
  let names := (order.list (Options.keys o)).filter fun name => block || connectionOptions.contains name
  .ok (names.flatMap fun name => getOptionStrings ((Options.all o name).getD []),
    o.filter fun line => !names.contains line.1)

/-- A connection to one of the remotes. -/
def connectTo (conn : VpnConnection) (remote : Args) : Except Failure VpnConnection := do
  match remote with
  | [_, name, port, proto] =>
    return { conn with mUseUdp := ← isUdpProto proto, mServerPort := port, mServerName := name }
  | [_, name, port] => return { conn with mServerPort := port, mServerName := name }
  | [_, name] => return { conn with mServerName := name }
  | _ => return conn

def connectionSettings : List (Setting VpnConnection) := [portOf "port", portOf "rport", proto, connectTimeout]

def parseConnectionOptions (order : HashOrder) (connDefault : Option VpnConnection) :
    Parser (VpnConnection × List VpnConnection) := do
  let conn ← readAll connectionSettings (connDefault.getD {})
  let conn ← proxyOptions conn
  let conn ← httpProxyUserPass.read conn
  let remotes ← getAllOption "remote" 1 3
  let custom ← takeCustom order connDefault.isSome
  let conn := { conn with mCustomConfiguration := conn.mCustomConfiguration ++ custom }
  let conn := if Text.trim conn.mCustomConfiguration ≠ [] then { conn with mUseCustomConfig := true } else conn
  let connections ← ((remotes.getD []).mapM (connectTo conn) : Except Failure (List VpnConnection))
  return (conn, connections)

/-- `substring(n)`, in units of UTF-16; `none` if there are fewer. A pair that is cut leaves a unit that is no
    character. -/
def substring : Nat → List Char → Option (List Char)
  | 0, s => some s
  | _ + 1, [] => none
  | n + 1, c :: s =>
    if c.toNat < 0x10000 then substring n s
    else
      match n with
      | 0 => some ('\uFFFD' :: s)
      | n + 1 => substring n s

/-- A connection block is a configuration of its own. -/
def parseConnection (order : HashOrder) (connection : List Char) (defaultValues : VpnConnection) :
    Except Failure (VpnConnection × List VpnConnection) :=
  match substring VpnProfile.inlineTag.length connection with
  | none => .error .stringIndexOutOfBounds
  | some text => do
    let p ← parseConfig text
    return (← (parseConnectionOptions order (some defaultValues)).run p.options).1

/-- A connection block has exactly one remote. -/
def parseBlock (order : HashOrder) (defaultValues : VpnConnection) (conn : Args) : Except Failure VpnConnection := do
  match (← parseConnection order (← get conn 1) defaultValues).2 with
  | [connection] => return connection
  | _ => configParseError "A <connection> block must have exactly one remote".toList

/-- The connections of the blocks, or of the remotes. -/
def blockConnections (order : HashOrder) (conns : VpnConnection × List VpnConnection) :
    Option (List Args) → Except Failure (List VpnConnection)
  | none => .ok conns.2
  | some connectionBlocks =>
    if conns.2 ≠ [] then configParseError "Using a <connection> block and --remote is not allowed.".toList
    else connectionBlocks.mapM (parseBlock order conns.1)

def connections (order : HashOrder) (d : Draft) : Parser Draft := do
  let conns ← parseConnectionOptions order none
  let connectionBlocks ← getAllOption "connection" 1 1
  let mConnections ← (blockConnections order conns connectionBlocks : Except Failure (List VpnConnection))
  return { d with np := { d.np with mConnections := mConnections } }

def remoteRandom : Setting Draft := flag "remote-random" 0 0 fun np => { np with mRemoteRandom := true }

def disableUdp (proto : List Char) : Except Failure Bool :=
  if proto = "udp".toList then .ok true
  else if proto = "tcp".toList then .ok false
  else configParseError ("Unknown protocol ".toList ++ proto ++ " in proto-force".toList)

def protoForce : Setting Draft :=
  .last "proto-force" 1 1 fun d protoforce => do
    let disableUDP ← disableUdp (← get protoforce 1)
    return { d with np := { d.np with
      mConnections := d.np.mConnections.map fun conn =>
        if conn.mUseUdp = disableUDP then { conn with mEnabled := false } else conn } }

/-! ### The profile -/

def unsupportedOptions : List String := ["config", "tls-server"]

def ignoreOptions : List String :=
  ["tls-client", "allow-recursive-routing", "askpass", "auth-nocache", "up", "down", "route-up", "ipchange",
   "route-pre-down", "auth-user-pass-verify", "block-outside-dns", "client-cert-not-required", "dhcp-release",
   "dhcp-renew", "dh", "group", "ip-win32", "ifconfig-nowarn", "management-hold", "management", "management-client",
   "management-query-remote", "management-query-passwords", "management-query-proxy", "management-external-key",
   "management-forget-disconnect", "management-signal", "management-log-cache", "management-up-down",
   "management-client-user", "management-client-group", "pause-exit", "preresolve", "plugin",
   "machine-readable-output", "persist-key", "push", "register-dns", "route-delay", "route-gateway", "route-metric",
   "route-method", "status", "script-security", "show-net-up", "suppress-timestamps", "tap-sleep", "tmp-dir",
   "tun-ipv6", "topology", "user", "win-sys"]

/-- The options that are left become custom options. -/
def customOptions (order : HashOrder) (np : VpnProfile) (o : Options) : VpnProfile :=
  if List.all o fun line => ignoreThisOption line.2 then np
  else
    let options := (order.list o.keys).flatMap fun name => getOptionStrings ((Options.all o name).getD [])
    { np with
      mCustomConfigOptions := "# These options found in the config file do not map to config settings:\n".toList ++
        np.mCustomConfigOptions ++ options
      mUseCustomConfig := true }

def checkIgnoreAndInvalidOptions (order : HashOrder) (d : Draft) : Parser Draft := fun o =>
  match unsupportedOptions.find? o.containsKey with
  | some option =>
    configParseError ("Unsupported Option ".toList ++ option.toList ++ " encountered in config file. Aborting".toList)
  | none =>
    let o := o.filter fun line => !ignoreOptions.contains line.1
    .ok ({ d with np := customOptions order d.np o }, o)

def fixup (np : VpnProfile) : VpnProfile := if np.mRemoteCN = np.mServerName then { np with mRemoteCN := [] } else np

/-- The value of a line of meta information. -/
def metaValue (metas : List (String × Args)) (name : String) : Option (List Char) :=
  (metas.lookup name).bind (·[1]?)

/-- The names that the OpenVPN Access Server gives. -/
def setNames (metas : List (String × Args)) (np : VpnProfile) : VpnProfile :=
  let name := (metaValue metas "FRIENDLY_NAME").or (metaValue metas "PROFILE")
  { np with mName := name.getD np.mName, mUsername := (metaValue metas "USERNAME").or np.mUsername }

/-- `client` and `pull` mean the same here. -/
def pull (d : Draft) : Parser Draft := fun o =>
  if o.containsKey "client" || o.containsKey "pull" then
    .ok ({ d with np := { d.np with mUsePull := true } }, Options.remove (Options.remove o "pull") "client")
  else .ok (d, o)

def routeSettings : List (Setting Draft) := [secret, route, routeIpv6, routeNopull]

def tunnelSettings : List (Setting Draft) :=
  [tlsAuth, keyDirection, tlsCryptOf "tls-crypt", tlsCryptOf "tls-crypt-v2", redirectGateway, redirectPrivate]

def deviceSettings : List (Setting Draft) :=
  [mssfix, tunMtu, mode, dhcpOption, ifconfig, remoteRandomHostname, float, compLzo, cipher, auth, ca, cert, key, pkcs12,
   cryptoapicert]

def verifySettings : List (Setting Draft) :=
  [verifyX509Name, x509UsernameField, verb, nobind, persistTun, pushPeerInfo, connectRetry, connectRetryMax]

def loginSettings : List (Setting Draft) := [authUserPass, authRetry, crlVerify]

/-- The settings of a new profile, in the order of the source. -/
def convert (order : HashOrder) (metas : List (String × Args)) (d : Draft) : Parser Draft := do
  let d ← pull d
  let d ← readAll (routeSettings ++ tunnelSettings) d
  let d ← devOptions d
  let d ← readAll deviceSettings d
  let d ← tlsRemoteOptions d
  let d ← readAll verifySettings d
  let d ← remoteCertTls d
  let d ← readAll loginSettings d
  let d ← connections order d
  let d ← readAll [remoteRandom, protoForce] d
  checkIgnoreAndInvalidOptions order { d with np := setNames metas d.np }

/-- `convertProfile`: the profile and the file that `getAuthUserPassFile` returns. -/
def convertProfile (order : HashOrder) (p : Parsed) : Except Failure (VpnProfile × Option (List Char)) := do
  let np := VpnProfile.clearDefaults { mName := "converted Profile".toList }
  let (d, _) ← (convert order p.metas { np := np }).run p.options
  return (fixup d.np, d.auth_user_pass_file)

/-- What `generateOvpn` does in its `try` block, up to the profile. -/
def parseAndConvert (order : HashOrder) (text : List Char) : Except Failure VpnProfile := do
  let p ← parseConfig text
  return (← convertProfile order p).1

end ConfigParser
end NicVpn
