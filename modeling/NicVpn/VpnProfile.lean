import NicVpn.NetworkSpace

/-! A profile, and the texts that OpenVPN reads of it. -/

namespace NicVpn

inductive AuthenticationType
  | certificates
  | pkcs12
  | keystore
  | userpass
  | statickeys
  | userpassCertificates
  | userpassPkcs12
  | userpassKeystore
  | externalApp
  deriving DecidableEq, Repr

inductive X509Verify
  | tlsremote
  | tlsremoteCompatNoremapping
  | tlsremoteDn
  | tlsremoteRdn
  | tlsremoteRdnPrefix
  deriving DecidableEq, Repr

inductive AuthRetry
  | noneForget
  | noneKeep
  | nointeract
  | interact
  deriving DecidableEq, Repr

inductive ProxyType
  | none
  | http
  | socks5
  | orbot
  deriving DecidableEq, Repr

/-- `de.blinkt.openvpn.core.Connection`. -/
structure VpnConnection where
  mServerName : List Char := "openvpn.example.com".toList
  mServerPort : List Char := "1194".toList
  mUseUdp : Bool := true
  mCustomConfiguration : List Char := []
  mUseCustomConfig : Bool := false
  mEnabled : Bool := true
  mConnectTimeout : Int := 0
  mProxyType : ProxyType := .none
  mProxyName : List Char := "proxy.example.com".toList
  mProxyPort : List Char := "8080".toList
  mUseProxyAuth : Bool := false
  mProxyAuthUser : Option (List Char) := none
  mProxyAuthPassword : Option (List Char) := none
  deriving DecidableEq, Repr

/-- The fields that `convertProfile` sets and those that `getConfigFile` and `checkProfile` read, with their
    values in a new profile. -/
structure VpnProfile where
  mAuthenticationType : AuthenticationType := .keystore
  mName : List Char
  mClientCertFilename : Option (List Char) := none
  mTLSAuthDirection : List Char := []
  mTLSAuthFilename : Option (List Char) := none
  mClientKeyFilename : Option (List Char) := none
  mCaFilename : Option (List Char) := none
  mUseLzo : Bool := true
  mPKCS12Filename : Option (List Char) := none
  mUseTLSAuth : Bool := false
  mDNS1 : List Char := "8.8.8.8".toList
  mDNS2 : List Char := "1.1.1.1".toList
  mIPv4Address : Option (List Char) := none
  mIPv6Address : Option (List Char) := none
  mOverrideDNS : Bool := false
  mSearchDomain : List Char := "blinkt.de".toList
  mUseDefaultRoute : Bool := true
  mUsePull : Bool := true
  mCustomRoutes : Option (List Char) := none
  mCheckRemoteCN : Bool := true
  mExpectTLSCert : Bool := false
  mRemoteCN : List Char := []
  mPassword : List Char := []
  mUsername : Option (List Char) := some []
  mRoutenopull : Bool := false
  mUseRandomHostname : Bool := false
  mUseFloat : Bool := false
  mUseCustomConfig : Bool := false
  mCustomConfigOptions : List Char := []
  mVerb : List Char := "1".toList
  mCipher : List Char := []
  mNobind : Bool := true
  mUseDefaultRoutev6 : Bool := true
  mCustomRoutesv6 : List Char := []
  mPersistTun : Bool := false
  mConnectRetryMax : List Char := "-1".toList
  mConnectRetry : List Char := "2".toList
  mConnectRetryMaxTime : List Char := "300".toList
  mAuth : List Char := []
  mX509AuthType : X509Verify := .tlsremoteRdn
  mx509UsernameField : Option (List Char) := none
  mAllowLocalLAN : Bool := false
  mExcludedRoutes : Option (List Char) := none
  mMssFix : Int := 0
  mConnections : List VpnConnection := [{}]
  mRemoteRandom : Bool := false
  mCrlFilename : Option (List Char) := none
  mAuthRetry : AuthRetry := .noneForget
  mTunMtu : Int := 0
  mPushPeerInfo : Bool := false
  mServerName : List Char := "openvpn.example.com".toList
  deriving DecidableEq, Repr

namespace VpnProfile

def openVpnEscape (unescaped : List Char) : List Char :=
  let escapedString := Text.replace ['\\'] ['\\', '\\'] unescaped
  let escapedString := Text.replace ['"'] ['\\', '"'] escapedString
  let escapedString := Text.replace ['\n'] ['\\', 'n'] escapedString
  if escapedString = unescaped ∧ ' ' ∉ escapedString ∧ '#' ∉ escapedString ∧ ';' ∉ escapedString ∧ escapedString ≠ [] then
    unescaped
  else '"' :: escapedString ++ ['"']

def defaultDns1 : List Char := "8.8.8.8".toList

def inlineTag : List Char := "[[INLINE]]".toList

def displaynameTag : List Char := "[[NAME]]".toList

def getEmbeddedContent (data : List Char) : List Char :=
  match Text.indexOf inlineTag data with
  | none => data
  | some i => data.drop (i + inlineTag.length)

def isEmbedded (data : List Char) : Bool := inlineTag.isPrefixOf data || displaynameTag.isPrefixOf data

/-- Inline data stands inline, other data as an escaped filename. -/
def insertFileData (cfgentry filedata : List Char) : List Char :=
  if isEmbedded filedata then
    ['<'] ++ cfgentry ++ ">\n".toList ++ getEmbeddedContent filedata ++ "\n</".toList ++ cfgentry ++ ">\n".toList
  else cfgentry ++ [' '] ++ openVpnEscape filedata ++ ['\n']

def clearDefaults (np : VpnProfile) : VpnProfile :=
  { np with
    mServerName := "unknown".toList, mUsePull := false, mUseLzo := false, mUseDefaultRoute := false
    mUseDefaultRoutev6 := false, mExpectTLSCert := false, mCheckRemoteCN := false, mPersistTun := false
    mAllowLocalLAN := true, mPushPeerInfo := false, mMssFix := 0, mNobind := false }

/-! ### Routes -/

/-- `ip/len` as `ip  netmask`, and `ip` alone as a single address. -/
def cidrToIPAndNetmask (route : List Char) : Option (List Char) := do
  let parts := Text.parts '/' route
  let parts := if parts.length = 1 then Text.parts '/' (route ++ "/32".toList) else parts
  match parts with
  | [ip, prefix_length] =>
    let len ← Text.toInt prefix_length
    if len < 0 ∨ 32 < len then none
    else
      let nm := 4294967295 * 2 ^ (32 - len.toNat) % 4294967296
      some (ip ++ "  ".toList ++ dotted nm)
  | _ => none

/-- The routes up to the first one that is malformed. -/
def cidrRoutes : List (List Char) → List (List Char)
  | [] => []
  | route :: routes =>
    if route = [] then cidrRoutes routes
    else
      match cidrToIPAndNetmask route with
      | none => []
      | some cidrroute => cidrroute :: cidrRoutes routes

/-- `split("[\n \t]")`; the empty texts that it leaves out at the end count for nothing. -/
def splitRoutes (routes : List Char) : List (List Char) := routes.splitOnP fun c => c = '\n' || c = ' ' || c = '\t'

def getCustomRoutes (routes : Option (List Char)) : List (List Char) :=
  match routes with
  | none => []
  | some routes => cidrRoutes (splitRoutes routes)

def vpnGateway : List Char := "vpn_gateway".toList

def netGateway : List Char := "net_gateway".toList

def routeLine (route gateway : List Char) : List Char := "route ".toList ++ route ++ [' '] ++ gateway ++ ['\n']

/-- The IPv4 routes that `getConfigFile` writes, line by line. -/
def routeLines (np : VpnProfile) : List (List Char) :=
  if np.mUseDefaultRoute then [routeLine "0.0.0.0 0.0.0.0".toList vpnGateway]
  else
    (getCustomRoutes np.mCustomRoutes).map (routeLine · vpnGateway) ++
      (getCustomRoutes np.mExcludedRoutes).map (routeLine · netGateway)

/-! ### Servers -/

def dnsLine (server : List Char) : List Char := "dhcp-option DNS ".toList ++ server ++ ['\n']

/-- The lines of the servers and of the search domain that `getConfigFile` writes. -/
def dnsLines (np : VpnProfile) : List (List Char) :=
  if np.mOverrideDNS || !np.mUsePull then
    (if np.mDNS1 = [] then [] else [dnsLine np.mDNS1]) ++ (if np.mDNS2 = [] then [] else [dnsLine np.mDNS2]) ++
      (if np.mSearchDomain = [] then [] else ["dhcp-option DOMAIN ".toList ++ np.mSearchDomain ++ ['\n']])
  else []

/-! ### Checks -/

/-- The messages of `checkProfile`. -/
inductive CheckResult
  | noKeystoreCertSelected
  | noCaCertSelected
  | deprecatedTlsRemote
  | ipv4FormatError
  | customRouteFormatError
  | missingTlsauth
  | missingCertificates
  | missingCaCertificate
  | remoteNoServerSelected
  | openvpn3Nostatickeys
  | openvpn3Pkcs12
  | openvpn3Socksproxy
  | errorOrbotAndProxyOptions
  | noOrbotfound
  | noErrorFound
  deriving DecidableEq, Repr

/-- `TextUtils.isEmpty` -/
def isEmpty (text : Option (List Char)) : Bool := text.getD [] = []

def usesCertificates (np : VpnProfile) : Bool :=
  np.mAuthenticationType = .certificates || np.mAuthenticationType = .userpassCertificates

def checkCredentials (np : VpnProfile) (mAlias : Option (List Char)) : Option CheckResult :=
  if np.mAuthenticationType = .keystore ∨ np.mAuthenticationType = .userpassKeystore ∨
      np.mAuthenticationType = .externalApp then
    if mAlias = none then some .noKeystoreCertSelected else none
  else if np.usesCertificates ∧ isEmpty np.mCaFilename then some .noCaCertSelected
  else none

def checkRemote (np : VpnProfile) : Option CheckResult :=
  if np.mCheckRemoteCN ∧ np.mX509AuthType = .tlsremote then some .deprecatedTlsRemote else none

def checkAddress (np : VpnProfile) : Option CheckResult :=
  if (!np.mUsePull ∨ np.mAuthenticationType = .statickeys) ∧ np.mIPv4Address.bind cidrToIPAndNetmask = none then
    some .ipv4FormatError
  else none

def checkRoutes (np : VpnProfile) : Option CheckResult :=
  if np.mUseDefaultRoute then none
  else if !isEmpty np.mCustomRoutes ∧ (getCustomRoutes np.mCustomRoutes).length = 0 then some .customRouteFormatError
  else if !isEmpty np.mExcludedRoutes ∧ (getCustomRoutes np.mExcludedRoutes).length = 0 then
    some .customRouteFormatError
  else none

def checkKeys (np : VpnProfile) : Option CheckResult :=
  if np.mUseTLSAuth ∧ isEmpty np.mTLSAuthFilename then some .missingTlsauth
  else if np.usesCertificates ∧ (isEmpty np.mClientCertFilename ∨ isEmpty np.mClientKeyFilename) then
    some .missingCertificates
  else if np.usesCertificates ∧ isEmpty np.mCaFilename then some .missingCaCertificate
  else if np.mConnections.all fun c => !c.mEnabled then some .remoteNoServerSelected
  else none

def checkOpenVPN3 (np : VpnProfile) : Option CheckResult :=
  if np.mAuthenticationType = .statickeys then some .openvpn3Nostatickeys
  else if np.mAuthenticationType = .pkcs12 ∨ np.mAuthenticationType = .userpassPkcs12 then some .openvpn3Pkcs12
  else if np.mConnections.any fun conn => conn.mProxyType = .orbot || conn.mProxyType = .socks5 then
    some .openvpn3Socksproxy
  else none

def usesExtraProxyOptions (np : VpnProfile) : Bool :=
  (np.mUseCustomConfig && Text.contains "http-proxy-option ".toList np.mCustomConfigOptions) ||
    np.mConnections.any fun c => c.mUseCustomConfig && Text.contains "http-proxy-option ".toList c.mCustomConfiguration

/-- The first connection over Orbot decides. -/
def checkOrbot (np : VpnProfile) (checkTorReceiver : Bool) : Option CheckResult :=
  if np.mConnections.any fun c => c.mProxyType = .orbot then
    if np.usesExtraProxyOptions then some .errorOrbotAndProxyOptions
    else if checkTorReceiver then none
    else some .noOrbotfound
  else none

/-- What is checked behind the routes. -/
def checkRest (np : VpnProfile) (useOpenVPN3 checkTorReceiver : Bool) : Option CheckResult :=
  ((checkKeys np).or (if useOpenVPN3 then checkOpenVPN3 np else none)).or (checkOrbot np checkTorReceiver)

/-- What is checked before the routes. -/
def checkFirst (np : VpnProfile) (mAlias : Option (List Char)) : Option CheckResult :=
  ((checkCredentials np mAlias).or (checkRemote np)).or (checkAddress np)

/-- The first check that fails. -/
def checkProfile (np : VpnProfile) (mAlias : Option (List Char)) (useOpenVPN3 checkTorReceiver : Bool) : CheckResult :=
  (((checkFirst np mAlias).or (checkRoutes np)).or (checkRest np useOpenVPN3 checkTorReceiver)).getD .noErrorFound

end VpnProfile
end NicVpn
