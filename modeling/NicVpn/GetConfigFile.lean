import NicVpn.VpnProfile

/-! `VpnProfile.getConfigFile`: the configuration that a profile is written as. -/

namespace NicVpn

/-- What `getExternalCertificates` returns: the authorities, other certificates of the chain, the certificate. -/
structure ExternalCertificates where
  ca : Option (List Char)
  extra : Option (List Char)
  user : List Char
  deriving DecidableEq, Repr

/-- What `getConfigFile` asks of the device. -/
structure DeviceContext where
  cacheDir : List Char
  versionEnvString : List Char
  platformVersionEnvString : List Char
  externalCertificates : Option ExternalCertificates := none
  keychainAccess : List Char := []
  usesystemproxy : Bool := true
  deriving DecidableEq, Repr

/-- What is appended for a text that may be missing. -/
def orNull (text : Option (List Char)) : List Char := text.getD "null".toList

/-- `%d` -/
def intText (n : Int) : List Char := (toString n).toList

/-- A text that is appended if a condition holds. -/
def textIf (c : Bool) (text : List Char) : List Char := if c then text else []

namespace VpnConnection

def usesExtraProxyOptions (conn : VpnConnection) : Bool :=
  conn.mUseCustomConfig && Text.contains "http-proxy-option ".toList conn.mCustomConfiguration

def isOnlyRemote (conn : VpnConnection) : Bool := conn.mCustomConfiguration = [] || !conn.mUseCustomConfig

def remoteText (conn : VpnConnection) : List Char :=
  "remote ".toList ++ conn.mServerName ++ [' '] ++ conn.mServerPort ++
    (if conn.mUseUdp then " udp\n".toList else " tcp-client\n".toList)

def timeoutText (conn : VpnConnection) : List Char :=
  textIf (conn.mConnectTimeout ≠ 0) (" connect-timeout  ".toList ++ intText conn.mConnectTimeout ++ ['\n'])

/-- OpenVPN 2 connects to a proxy over the management interface, unless there are options for the proxy. -/
def httpProxyText (conn : VpnConnection) (isOpenVPN3 : Bool) : List Char :=
  textIf ((isOpenVPN3 || conn.usesExtraProxyOptions) && conn.mProxyType = .http)
    ("http-proxy ".toList ++ conn.mProxyName ++ [' '] ++ conn.mProxyPort ++ ['\n'] ++
      textIf conn.mUseProxyAuth
        ("<http-proxy-user-pass>\n".toList ++ orNull conn.mProxyAuthUser ++ ['\n'] ++ orNull conn.mProxyAuthPassword ++
          "\n</http-proxy-user-pass>\n".toList))

def socksProxyText (conn : VpnConnection) : List Char :=
  textIf (conn.usesExtraProxyOptions && conn.mProxyType = .socks5)
    ("socks-proxy ".toList ++ conn.mProxyName ++ [' '] ++ conn.mProxyPort ++ ['\n'])

def customText (conn : VpnConnection) : List Char :=
  textIf (!conn.isOnlyRemote) (conn.mCustomConfiguration ++ ['\n'])

def getConnectionBlock (conn : VpnConnection) (isOpenVPN3 : Bool) : List Char :=
  conn.remoteText ++ conn.timeoutText ++ conn.httpProxyText isOpenVPN3 ++ conn.socksProxyText ++ conn.customText

end VpnConnection

namespace VpnProfile

/-- `insertFileData` of a file that may be missing. -/
def insertFile (cfgentry : List Char) (filedata : Option (List Char)) : List Char :=
  match filedata with
  | none => cfgentry ++ " file missing in config profile\n".toList
  | some filedata => insertFileData cfgentry filedata

/-! ### The head -/

def setenvText (context : DeviceContext) : List Char :=
  "setenv IV_GUI_VER ".toList ++ openVpnEscape context.versionEnvString ++ " \n".toList ++
    "setenv IV_SSO openurl,crtext\n".toList ++
    ("setenv IV_PLAT_VER ".toList ++ openVpnEscape context.platformVersionEnvString ++ ['\n'])

def managementText (context : DeviceContext) : List Char :=
  "# Config for OpenVPN 2.x\n".toList ++ "# Enables connection to GUI\n".toList ++
    ("management ".toList ++ context.cacheDir ++ "/mgmtsocket".toList ++ " unix\n".toList) ++
    "management-client\n".toList ++ "management-query-passwords\n".toList ++ "management-hold\n".toList ++ ['\n'] ++
    setenvText context ++ "machine-readable-output\n".toList ++ "allow-recursive-routing\n".toList ++
    "ifconfig-nowarn\n".toList

def headText (context : DeviceContext) (configForOvpn3 : Bool) : List Char :=
  if configForOvpn3 then "# Config for OpenVPN 3 C++\n".toList else managementText context

def useTLSClient (np : VpnProfile) : Bool := np.mAuthenticationType ≠ .statickeys

def clientText (np : VpnProfile) : List Char :=
  if np.useTLSClient && np.mUsePull then "client\n".toList
  else if np.mUsePull then "pull\n".toList
  else textIf np.useTLSClient "tls-client\n".toList

def retryText (np : VpnProfile) : List Char :=
  "verb 4\n".toList ++
    textIf (np.mConnectRetryMax ≠ "-1".toList) ("connect-retry-max ".toList ++ np.mConnectRetryMax ++ ['\n']) ++
    ("connect-retry ".toList ++ (if np.mConnectRetry = [] then "2".toList else np.mConnectRetry) ++ [' '] ++
      (if np.mConnectRetryMaxTime = [] then "300".toList else np.mConnectRetryMaxTime) ++ ['\n']) ++
    "resolv-retry 60\n".toList ++ "dev tun\n".toList

/-! ### Connections -/

/-- A single connection is not asked. -/
def canUsePlainRemotes (np : VpnProfile) : Bool :=
  np.mConnections.length = 1 || np.mConnections.all (·.isOnlyRemote)

/-- The connections that are written as remotes. -/
def plainConnections (np : VpnProfile) : List VpnConnection :=
  if np.mConnections.length = 1 then np.mConnections
  else if np.canUsePlainRemotes then np.mConnections.filter (·.mEnabled)
  else []

def connectionsText (np : VpnProfile) (configForOvpn3 : Bool) : List Char :=
  textIf (np.mConnections.length ≠ 1 && np.mRemoteRandom) "remote-random\n".toList ++
    np.plainConnections.flatMap (·.getConnectionBlock configForOvpn3)

def connectionBlock (conn : VpnConnection) (configForOvpn3 : Bool) : List Char :=
  "<connection>\n".toList ++ conn.getConnectionBlock configForOvpn3 ++ "</connection>\n".toList

def connectionBlocksText (np : VpnProfile) (configForOvpn3 : Bool) : List Char :=
  textIf (!np.canUsePlainRemotes)
    ("# Connection Options are at the end to allow global options (and global custom options) to influence ".toList ++
      "connection blocks\n".toList ++
      (np.mConnections.filter (·.mEnabled)).flatMap (connectionBlock · configForOvpn3))

/-! ### Identity -/

def isUserPWAuth (np : VpnProfile) : Bool :=
  match np.mAuthenticationType with
  | .userpass | .userpassCertificates | .userpassKeystore | .userpassPkcs12 => true
  | _ => false

def externalCertificatesText (context : DeviceContext) : List Char :=
  "### From Keystore/ext auth app ####\n".toList ++
    match context.externalCertificates with
    | none => context.keychainAccess ++ ['\n']
    | some ks =>
      "<ca>\n".toList ++ orNull ks.ca ++ "\n</ca>\n".toList ++
        textIf (!isEmpty ks.extra) ("<extra-certs>\n".toList ++ orNull ks.extra ++ "\n</extra-certs>\n".toList) ++
        "<cert>\n".toList ++ ks.user ++ "\n</cert>\nmanagement-external-key nopadding\n".toList

/-- The cases that fall through write `auth-user-pass` first. -/
def credentialsText (np : VpnProfile) (context : DeviceContext) (configForOvpn3 : Bool) : List Char :=
  textIf np.isUserPWAuth "auth-user-pass\n".toList ++
    match np.mAuthenticationType with
    | .certificates | .userpassCertificates =>
      insertFile "ca".toList np.mCaFilename ++ insertFile "key".toList np.mClientKeyFilename ++
        insertFile "cert".toList np.mClientCertFilename
    | .pkcs12 | .userpassPkcs12 =>
      insertFile "pkcs12".toList np.mPKCS12Filename ++
        textIf (!isEmpty np.mCaFilename) (insertFile "ca".toList np.mCaFilename)
    | .keystore | .userpassKeystore | .externalApp => textIf (!configForOvpn3) (externalCertificatesText context)
    | .userpass => insertFile "ca".toList np.mCaFilename ++ textIf configForOvpn3 "client-cert-not-required\n".toList
    | .statickeys => []

def loginText (np : VpnProfile) : List Char :=
  textIf (np.isUserPWAuth && np.mAuthRetry = .nointeract) "auth-retry nointeract\n".toList ++
    textIf (!isEmpty np.mCrlFilename) (insertFile "crl-verify".toList np.mCrlFilename) ++
    textIf np.mUseLzo "comp-lzo\n".toList

def useTlsCrypt (np : VpnProfile) : Bool := np.mTLSAuthDirection = "tls-crypt".toList

def useTlsCrypt2 (np : VpnProfile) : Bool := np.mTLSAuthDirection = "tls-crypt-v2".toList

/-- The option that carries the key. -/
def tlsAuthEntry (np : VpnProfile) : String :=
  if np.mAuthenticationType = .statickeys then "secret"
  else if np.useTlsCrypt then "tls-crypt"
  else if np.useTlsCrypt2 then "tls-crypt-v2"
  else "tls-auth"

def tlsAuthText (np : VpnProfile) : List Char :=
  textIf np.mUseTLSAuth
    (insertFile np.tlsAuthEntry.toList np.mTLSAuthFilename ++
      textIf (np.mTLSAuthDirection ≠ [] && !np.useTlsCrypt && !np.useTlsCrypt2)
        ("key-direction ".toList ++ np.mTLSAuthDirection ++ ['\n']))

/-! ### Networks -/

/-- An IPv6 address is its own gateway, without the prefix length. -/
def ifconfigIpv6Line (address : List Char) : List Char :=
  "ifconfig-ipv6 ".toList ++ address ++ [' '] ++ address.takeWhile (· ≠ '/') ++ ['\n']

def writesIpv6Address (np : VpnProfile) : Bool := !np.mUsePull && !isEmpty np.mIPv6Address

def ifconfigText (np : VpnProfile) : List Char :=
  textIf (!np.mUsePull && !isEmpty np.mIPv4Address)
    ("ifconfig ".toList ++ orNull (np.mIPv4Address.bind cidrToIPAndNetmask) ++ ['\n']) ++
    textIf np.writesIpv6Address (ifconfigIpv6Line (np.mIPv6Address.getD []))

def getCustomRoutesv6 (routes : List Char) : List (List Char) := (splitRoutes routes).filter (· ≠ [])

/-- The IPv6 default route comes before the other routes, single IPv6 routes behind them. -/
def netsText (np : VpnProfile) : List Char :=
  textIf np.mUseDefaultRoutev6 "route-ipv6 ::/0\n".toList ++ np.routeLines.flatten ++
    textIf (!np.mUseDefaultRoutev6)
      ((getCustomRoutesv6 np.mCustomRoutesv6).flatMap fun route => "route-ipv6 ".toList ++ route ++ ['\n'])

def routesText (np : VpnProfile) : List Char :=
  textIf (np.mUsePull && np.mRoutenopull) "route-nopull\n".toList ++ np.netsText

def mssfixText (np : VpnProfile) (configForOvpn3 : Bool) : List Char :=
  textIf (np.mMssFix ≠ 0)
    (if np.mMssFix ≠ 1450 then
      "mssfix ".toList ++ intText np.mMssFix ++ (if configForOvpn3 then " mtu\n".toList else ['\n'])
    else "mssfix\n".toList)

def mtuText (np : VpnProfile) (configForOvpn3 : Bool) : List Char :=
  np.mssfixText configForOvpn3 ++
    textIf (48 ≤ np.mTunMtu && np.mTunMtu ≠ 1500) ("tun-mtu ".toList ++ intText np.mTunMtu ++ ['\n']) ++
    textIf np.mNobind "nobind\n".toList

/-! ### The other side -/

/-- Without a name of its own the certificate is that of the first server, if there is one. -/
def remoteCnText (np : VpnProfile) : Option (List Char) :=
  if np.mRemoteCN = [] then
    np.mConnections.head?.map fun conn =>
      "verify-x509-name ".toList ++ openVpnEscape conn.mServerName ++ " name\n".toList
  else
    match np.mX509AuthType with
    | .tlsremoteCompatNoremapping =>
      some ("compat-names no-remapping\n".toList ++ ("tls-remote ".toList ++ openVpnEscape np.mRemoteCN ++ ['\n']))
    | .tlsremote => some ("tls-remote ".toList ++ openVpnEscape np.mRemoteCN ++ ['\n'])
    | .tlsremoteRdn => some ("verify-x509-name ".toList ++ openVpnEscape np.mRemoteCN ++ " name\n".toList)
    | .tlsremoteRdnPrefix => some ("verify-x509-name ".toList ++ openVpnEscape np.mRemoteCN ++ " name-prefix\n".toList)
    | .tlsremoteDn => some ("verify-x509-name ".toList ++ openVpnEscape np.mRemoteCN ++ ['\n'])

/-- There is no text where the first of no connections is asked for. -/
def verifyText (np : VpnProfile) : Option (List Char) :=
  if np.mAuthenticationType = .statickeys then some []
  else
    let remoteCertTls := textIf np.mExpectTLSCert "remote-cert-tls server\n".toList
    if np.mCheckRemoteCN then
      np.remoteCnText.map fun text =>
        text ++
          textIf (!isEmpty np.mx509UsernameField)
            ("x509-username-field ".toList ++ openVpnEscape (np.mx509UsernameField.getD []) ++ ['\n']) ++
          remoteCertTls
    else some remoteCertTls

/-! ### The rest -/

def cipherText (np : VpnProfile) : List Char :=
  textIf (np.mCipher ≠ []) ("cipher ".toList ++ np.mCipher ++ ['\n']) ++
    textIf (np.mAuth ≠ []) ("auth ".toList ++ np.mAuth ++ ['\n'])

def persistTunText : List Char :=
  "persist-tun\n".toList ++ "# persist-tun also enables pre resolving to avoid DNS resolve problem\n".toList ++
    "preresolve\n".toList

def otherText (np : VpnProfile) (context : DeviceContext) (configForOvpn3 : Bool) : List Char :=
  textIf np.mUseRandomHostname ("#my favorite options :)\n".toList ++ "remote-random-hostname\n".toList) ++
    textIf np.mUseFloat "float\n".toList ++ textIf np.mPersistTun persistTunText ++
    textIf np.mPushPeerInfo "push-peer-info\n".toList ++
    textIf (context.usesystemproxy && !configForOvpn3 && !np.usesExtraProxyOptions)
      ("# Use system proxy setting\n".toList ++ "management-query-proxy\n".toList)

def customText (np : VpnProfile) : List Char :=
  textIf np.mUseCustomConfig
    ("# Custom configuration options\n# You are on your on own here :)\n".toList ++ np.mCustomConfigOptions ++ ['\n'])

/-- There is no configuration where the first of no connections is asked for. -/
def getConfigFile (np : VpnProfile) (context : DeviceContext) (configForOvpn3 : Bool) : Option (List Char) :=
  np.verifyText.map fun verify =>
    headText context configForOvpn3 ++ np.clientText ++ np.retryText ++ np.connectionsText configForOvpn3 ++
      np.credentialsText context configForOvpn3 ++ np.loginText ++ np.tlsAuthText ++ np.ifconfigText ++ np.routesText ++
      np.dnsLines.flatten ++ np.mtuText configForOvpn3 ++ verify ++ np.cipherText ++
      np.otherText context configForOvpn3 ++ np.customText ++ np.connectionBlocksText configForOvpn3

end VpnProfile
end NicVpn
