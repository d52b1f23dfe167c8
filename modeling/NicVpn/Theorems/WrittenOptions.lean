import NicVpn.Theorems.Routes
import NicVpn.Theorems.WrittenLines

/-! The options that `getConfigFile` writes, and that the parser reads them from its text. The options are told apart by
    an enumeration, so that what is written of each one is one line of a table. -/

namespace NicVpn
namespace ConfigParser

/-- The options in the order in which they are written. -/
inductive Written
  | management | managementClient | managementQueryPasswords | managementHold | setenv | machineReadableOutput
  | allowRecursiveRouting | ifconfigNowarn
  | client | pull | tlsClient
  | verb | connectRetryMax | connectRetry | resolvRetry | dev
  | remoteRandom | remote | connectTimeout
  | authUserPass | pkcs12 | ca | key | cert
  | authRetry | crlVerify | compLzo
  | secret | tlsCrypt | tlsCryptV2 | tlsAuth | keyDirection
  | ifconfig | routeNopull | route | routeIpv6 | dhcpOption
  | mssfix | tunMtu | nobind
  | verifyX509Name | compatNames | tlsRemote | x509UsernameField | remoteCertTls
  | cipher | auth
  | remoteRandomHostname | float | persistTun | preresolve | pushPeerInfo | managementQueryProxy
  deriving DecidableEq, Repr

namespace Written

def name : Written → String
  | management => "management"
  | managementClient => "management-client"
  | managementQueryPasswords => "management-query-passwords"
  | managementHold => "management-hold"
  | setenv => "setenv"
  | machineReadableOutput => "machine-readable-output"
  | allowRecursiveRouting => "allow-recursive-routing"
  | ifconfigNowarn => "ifconfig-nowarn"
  | client => "client"
  | pull => "pull"
  | tlsClient => "tls-client"
  | verb => "verb"
  | connectRetryMax => "connect-retry-max"
  | connectRetry => "connect-retry"
  | resolvRetry => "resolv-retry"
  | dev => "dev"
  | remoteRandom => "remote-random"
  | remote => "remote"
  | connectTimeout => "connect-timeout"
  | authUserPass => "auth-user-pass"
  | ca => "ca"
  | key => "key"
  | cert => "cert"
  | pkcs12 => "pkcs12"
  | authRetry => "auth-retry"
  | crlVerify => "crl-verify"
  | compLzo => "comp-lzo"
  | secret => "secret"
  | tlsCrypt => "tls-crypt"
  | tlsCryptV2 => "tls-crypt-v2"
  | tlsAuth => "tls-auth"
  | keyDirection => "key-direction"
  | ifconfig => "ifconfig"
  | routeNopull => "route-nopull"
  | route => "route"
  | routeIpv6 => "route-ipv6"
  | dhcpOption => "dhcp-option"
  | mssfix => "mssfix"
  | tunMtu => "tun-mtu"
  | nobind => "nobind"
  | verifyX509Name => "verify-x509-name"
  | compatNames => "compat-names"
  | tlsRemote => "tls-remote"
  | x509UsernameField => "x509-username-field"
  | remoteCertTls => "remote-cert-tls"
  | cipher => "cipher"
  | auth => "auth"
  | remoteRandomHostname => "remote-random-hostname"
  | float => "float"
  | persistTun => "persist-tun"
  | preresolve => "preresolve"
  | pushPeerInfo => "push-peer-info"
  | managementQueryProxy => "management-query-proxy"

def all : List Written :=
  [management, managementClient, managementQueryPasswords, managementHold, setenv, machineReadableOutput,
   allowRecursiveRouting, ifconfigNowarn, client, pull, tlsClient, verb, connectRetryMax, connectRetry, resolvRetry, dev,
   remoteRandom, remote, connectTimeout, authUserPass, pkcs12, ca, key, cert, authRetry, crlVerify, compLzo, secret,
   tlsCrypt, tlsCryptV2, tlsAuth, keyDirection, ifconfig, routeNopull, route, routeIpv6, dhcpOption, mssfix, tunMtu,
   nobind, verifyX509Name, compatNames, tlsRemote, x509UsernameField, remoteCertTls, cipher, auth, remoteRandomHostname,
   float, persistTun, preresolve, pushPeerInfo, managementQueryProxy]

theorem mem_all (x : Written) : x ∈ all := by cases x <;> decide

theorem nodup_names : (all.map name).Nodup := by decide

theorem isOption (x : Written) : IsOption x.name where
  no_dashes := by cases x <;> rw [name, String.toList_ofList] <;> decide
  no_tag := by cases x <;> rw [name, String.toList_ofList] <;> decide
  no_alias := by cases x <;> decide

theorem word_name (x : Written) : Word x.name.toList := by
  cases x <;> rw [name, String.toList_ofList] <;> decide

end Written

/-! ### Networks -/

/-- A network of a text of routes: its address and the length of its prefix. -/
def netOf (route : List Char) : Option (List Char × Nat) := do
  let parts := Text.parts '/' route
  let parts := if parts.length = 1 then Text.parts '/' (route ++ "/32".toList) else parts
  match parts with
  | [ip, prefix_length] =>
    let len ← Text.toInt prefix_length
    if len < 0 ∨ 32 < len then none else some (ip, len.toNat)
  | _ => none

/-- The networks up to the first one that is malformed. -/
def netsOf : List (List Char) → List (List Char × Nat)
  | [] => []
  | route :: routes =>
    if route = [] then netsOf routes
    else
      match netOf route with
      | none => []
      | some net => net :: netsOf routes

def customNets (routes : Option (List Char)) : List (List Char × Nat) :=
  match routes with
  | none => []
  | some routes => netsOf (VpnProfile.splitRoutes routes)

def netText (net : List Char × Nat) : List Char := net.1 ++ "  ".toList ++ maskOf net.2

theorem cidrToIPAndNetmask_netOf (route : List Char) :
    VpnProfile.cidrToIPAndNetmask route = (netOf route).map netText := by
  unfold VpnProfile.cidrToIPAndNetmask netOf
  dsimp only
  generalize (if (Text.parts '/' route).length = 1 then Text.parts '/' (route ++ "/32".toList)
    else Text.parts '/' route) = parts
  match parts with
  | [] | [_] | _ :: _ :: _ :: _ => rfl
  | [ip, prefix_length] =>
    dsimp only
    cases Text.toInt prefix_length with
    | none => rfl
    | some len =>
      simp only [Option.bind_eq_bind, Option.bind_some]
      split <;> rfl

theorem getCustomRoutes_eq (routes : Option (List Char)) :
    VpnProfile.getCustomRoutes routes = (customNets routes).map netText := by
  have htokens : ∀ tokens, VpnProfile.cidrRoutes tokens = (netsOf tokens).map netText := by
    intro tokens
    induction tokens with
    | nil => rfl
    | cons token tokens ih =>
      unfold VpnProfile.cidrRoutes netsOf
      rw [cidrToIPAndNetmask_netOf]
      split
      · exact ih
      · cases netOf token with
        | none => rfl
        | some net => exact congrArg (netText net :: ·) ih
  cases routes with
  | none => rfl
  | some routes => exact htokens _

theorem length_netOf {route : List Char} {net : List Char × Nat} (h : netOf route = some net) : net.2 ≤ 32 := by
  unfold netOf at h
  dsimp only at h
  split at h
  · obtain ⟨len, -, h⟩ := Option.bind_eq_some_iff.mp h
    split at h
    · cases h
    · cases h
      show len.toNat ≤ 32
      omega
  · cases h

theorem length_customNets {routes : Option (List Char)} {net : List Char × Nat} (h : net ∈ customNets routes) :
    net.2 ≤ 32 := by
  have htokens : ∀ tokens, ∀ net ∈ netsOf tokens, net.2 ≤ 32 := by
    intro tokens
    induction tokens with
    | nil => exact fun _ h => absurd h List.not_mem_nil
    | cons token tokens ih =>
      unfold netsOf
      split
      · exact ih
      · split
        · exact fun _ h => absurd h List.not_mem_nil
        · rename_i hnet
          exact List.forall_mem_cons.mpr ⟨length_netOf hnet, ih⟩
  cases routes with
  | none => cases h
  | some routes => exact htokens _ net h

/-- The networks that go through the tunnel, and those that do not. -/
def includedNets (np : VpnProfile) : List (List Char × Nat) :=
  if np.mUseDefaultRoute then [("0.0.0.0".toList, 0)] else customNets np.mCustomRoutes

def excludedNets (np : VpnProfile) : List (List Char × Nat) :=
  if np.mUseDefaultRoute then [] else customNets np.mExcludedRoutes

/-- The IPv6 networks as they are written. -/
def netsV6 (np : VpnProfile) : List (List Char) :=
  if np.mUseDefaultRoutev6 then ["::/0".toList] else VpnProfile.getCustomRoutesv6 np.mCustomRoutesv6

/-! ### The table -/

/-- The servers that are written. -/
def writtenServers (np : VpnProfile) : List (List Char) :=
  if np.mOverrideDNS || !np.mUsePull then [np.mDNS1, np.mDNS2].filter (· ≠ []) else []

/-- The domain that is written. -/
def writtenDomain (np : VpnProfile) : List Char :=
  if np.mOverrideDNS || !np.mUsePull then np.mSearchDomain else []

/-- Whether the other side has a certificate. -/
def checksCertificate (np : VpnProfile) : Bool := np.mAuthenticationType ≠ .statickeys

def usesPkcs12 (np : VpnProfile) : Bool :=
  np.mAuthenticationType = .pkcs12 || np.mAuthenticationType = .userpassPkcs12

/-- Whether the authorities are written. -/
def writesCa (np : VpnProfile) : Bool :=
  np.usesCertificates || np.mAuthenticationType = .userpass || (usesPkcs12 np && !VpnProfile.isEmpty np.mCaFilename)

def checksName (np : VpnProfile) : Bool := checksCertificate np && np.mCheckRemoteCN

/-- The name that the certificate must have, and how. -/
def writtenName (np : VpnProfile) : List Char × X509Verify :=
  if np.mRemoteCN = [] then ((np.mConnections.head?.map (·.mServerName)).getD [], .tlsremoteRdn)
  else (np.mRemoteCN, np.mX509AuthType)

/-- The option that carries the key. -/
def keyOption (np : VpnProfile) : Written :=
  if np.mAuthenticationType = .statickeys then .secret
  else if np.useTlsCrypt then .tlsCrypt
  else if np.useTlsCrypt2 then .tlsCryptV2
  else .tlsAuth

def writesDirection (np : VpnProfile) : Bool :=
  np.mUseTLSAuth && (np.mTLSAuthDirection ≠ [] && !np.useTlsCrypt && !np.useTlsCrypt2)

/-- `verify-x509-name` with its type. -/
def verifyArgs (name : List Char × X509Verify) : Args :=
  match name.2 with
  | .tlsremoteRdn => [name.1, "name".toList]
  | .tlsremoteRdnPrefix => [name.1, "name-prefix".toList]
  | _ => [name.1]

def isTlsRemote : X509Verify → Bool
  | .tlsremote | .tlsremoteCompatNoremapping => true
  | _ => false

def remoteArgs (conn : VpnConnection) : Args :=
  ["remote".toList, conn.mServerName, conn.mServerPort, if conn.mUseUdp then "udp".toList else "tcp-client".toList]

/-- The address that is written. -/
def ifconfigNet (np : VpnProfile) : Option (List Char × Nat) :=
  if !np.mUsePull && !VpnProfile.isEmpty np.mIPv4Address then np.mIPv4Address.bind netOf else none

def ifconfigArgs (net : List Char × Nat) : Args := ["ifconfig".toList, net.1, maskOf net.2]

/-- A route to a gateway. -/
def netArgs (gateway : List Char) (net : List Char × Nat) : Args := ["route".toList, net.1, maskOf net.2, gateway]

def netArgsV6 (net : List Char) : Args := ["route-ipv6".toList, net]

def serverArgs (server : List Char) : Args := ["dhcp-option".toList, "DNS".toList, server]

namespace Written

/-- The lines of an option that has one line or none. -/
def one (x : Written) (c : Bool) (args : Args) : List Args := if c then [x.name.toList :: args] else []

/-- The lines of an option with a file. -/
def file (x : Written) (c : Bool) (filedata : Option (List Char)) : List Args := x.one c [readFile (filedata.getD [])]

def timeoutLines (conn : VpnConnection) : List Args :=
  connectTimeout.one (conn.mConnectTimeout ≠ 0) [intText conn.mConnectTimeout]

/-- The lines that `getConfigFile` writes of an option. -/
def lines (np : VpnProfile) (context : DeviceContext) : Written → List Args
  | management => management.one true [context.cacheDir ++ "/mgmtsocket".toList, "unix".toList]
  | managementClient => managementClient.one true []
  | managementQueryPasswords => managementQueryPasswords.one true []
  | managementHold => managementHold.one true []
  | setenv =>
    [["setenv".toList, "IV_GUI_VER".toList, context.versionEnvString],
     ["setenv".toList, "IV_SSO".toList, "openurl,crtext".toList],
     ["setenv".toList, "IV_PLAT_VER".toList, context.platformVersionEnvString]]
  | machineReadableOutput => machineReadableOutput.one true []
  | allowRecursiveRouting => allowRecursiveRouting.one true []
  | ifconfigNowarn => ifconfigNowarn.one true []
  | client => client.one (np.useTLSClient && np.mUsePull) []
  | pull => pull.one (!np.useTLSClient && np.mUsePull) []
  | tlsClient => tlsClient.one (np.useTLSClient && !np.mUsePull) []
  | verb => verb.one true ["4".toList]
  | connectRetryMax => connectRetryMax.one (np.mConnectRetryMax ≠ "-1".toList) [np.mConnectRetryMax]
  | connectRetry =>
    connectRetry.one true
      [if np.mConnectRetry = [] then "2".toList else np.mConnectRetry,
       if np.mConnectRetryMaxTime = [] then "300".toList else np.mConnectRetryMaxTime]
  | resolvRetry => resolvRetry.one true ["60".toList]
  | dev => dev.one true ["tun".toList]
  | remoteRandom => remoteRandom.one (np.mConnections.length ≠ 1 && np.mRemoteRandom) []
  | remote => np.plainConnections.map remoteArgs
  | connectTimeout => np.plainConnections.flatMap timeoutLines
  | authUserPass => authUserPass.one np.isUserPWAuth []
  | ca => ca.file (writesCa np) np.mCaFilename
  | key => key.file np.usesCertificates np.mClientKeyFilename
  | cert => cert.file np.usesCertificates np.mClientCertFilename
  | pkcs12 => pkcs12.file (usesPkcs12 np) np.mPKCS12Filename
  | authRetry => authRetry.one (np.isUserPWAuth && np.mAuthRetry = .nointeract) ["nointeract".toList]
  | crlVerify => crlVerify.file (!VpnProfile.isEmpty np.mCrlFilename) np.mCrlFilename
  | compLzo => compLzo.one np.mUseLzo []
  | secret => secret.file (np.mUseTLSAuth && keyOption np = secret) np.mTLSAuthFilename
  | tlsCrypt => tlsCrypt.file (np.mUseTLSAuth && keyOption np = tlsCrypt) np.mTLSAuthFilename
  | tlsCryptV2 => tlsCryptV2.file (np.mUseTLSAuth && keyOption np = tlsCryptV2) np.mTLSAuthFilename
  | tlsAuth => tlsAuth.file (np.mUseTLSAuth && keyOption np = tlsAuth) np.mTLSAuthFilename
  | keyDirection => keyDirection.one (writesDirection np) [np.mTLSAuthDirection]
  | ifconfig => ((ifconfigNet np).map ifconfigArgs).toList
  | routeNopull => routeNopull.one (np.mUsePull && np.mRoutenopull) []
  | route =>
    (includedNets np).map (netArgs VpnProfile.vpnGateway) ++ (excludedNets np).map (netArgs VpnProfile.netGateway)
  | routeIpv6 => (netsV6 np).map netArgsV6
  | dhcpOption =>
    (writtenServers np).map serverArgs ++ dhcpOption.one (writtenDomain np ≠ []) ["DOMAIN".toList, writtenDomain np]
  | mssfix => mssfix.one (np.mMssFix ≠ 0) (if np.mMssFix ≠ 1450 then [intText np.mMssFix] else [])
  | tunMtu => tunMtu.one (48 ≤ np.mTunMtu && np.mTunMtu ≠ 1500) [intText np.mTunMtu]
  | nobind => nobind.one np.mNobind []
  | verifyX509Name => verifyX509Name.one (checksName np && !isTlsRemote (writtenName np).2) (verifyArgs (writtenName np))
  | compatNames =>
    compatNames.one (checksName np && (writtenName np).2 = .tlsremoteCompatNoremapping) ["no-remapping".toList]
  | tlsRemote => tlsRemote.one (checksName np && isTlsRemote (writtenName np).2) [(writtenName np).1]
  | x509UsernameField =>
    x509UsernameField.one (checksName np && !VpnProfile.isEmpty np.mx509UsernameField) [np.mx509UsernameField.getD []]
  | remoteCertTls => remoteCertTls.one (checksCertificate np && np.mExpectTLSCert) ["server".toList]
  | cipher => cipher.one (np.mCipher ≠ []) [np.mCipher]
  | auth => auth.one (np.mAuth ≠ []) [np.mAuth]
  | remoteRandomHostname => remoteRandomHostname.one np.mUseRandomHostname []
  | float => float.one np.mUseFloat []
  | persistTun => persistTun.one np.mPersistTun []
  | preresolve => preresolve.one np.mPersistTun []
  | pushPeerInfo => pushPeerInfo.one np.mPushPeerInfo []
  | managementQueryProxy => managementQueryProxy.one context.usesystemproxy []

/-- An option with its lines. -/
def group (np : VpnProfile) (context : DeviceContext) (x : Written) : String × List Args := (x.name, x.lines np context)

end Written
end ConfigParser
end NicVpn
