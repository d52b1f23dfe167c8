import NicVpn.Theorems.WrittenOptions

/-! The parser reads the text of `getConfigFile` piece by piece as the lines of its options. -/

namespace NicVpn
namespace ConfigParser

/-- An argument that comes back when it is written with `openVpnEscape`. -/
structure Escapable (arg : List Char) : Prop where
  plain : Plain arg
  survives : Survives arg

/-- The device gives texts that are arguments. -/
structure IsContext (context : DeviceContext) : Prop where
  management : Word (context.cacheDir ++ "/mgmtsocket".toList)
  version : Escapable context.versionEnvString
  platformVersion : Escapable context.platformVersionEnvString

/-- The file of an option is there. -/
def HasFile (n : String) (filedata : Option (List Char)) : Prop := ∃ f, filedata = some f ∧ IsFile n f

/-- A number of the source's `int`. -/
structure IsInt (n : Int) : Prop where
  lower : -2147483648 ≤ n
  upper : n ≤ 2147483647

/-- A connection that is no more than a remote. -/
structure IsRemote (conn : VpnConnection) : Prop where
  onlyRemote : conn.isOnlyRemote = true
  serverName : Word conn.mServerName
  serverPort : Word conn.mServerPort
  connectTimeout : IsInt conn.mConnectTimeout

/-- A profile whose files are there and whose texts are arguments, as far as they are written. Its certificate comes
    from a file, and it has no options of its own and no IPv6 address to write. -/
structure Exportable (np : VpnProfile) : Prop where
  authenticationType : np.mAuthenticationType ∉ [.keystore, .userpassKeystore, .externalApp]
  useCustomConfig : np.mUseCustomConfig = false
  connections : np.mConnections ≠ []
  remote : ∀ conn ∈ np.mConnections, IsRemote conn
  connectRetryMax : Word np.mConnectRetryMax
  connectRetry : np.mConnectRetry ≠ [] → Word np.mConnectRetry
  connectRetryMaxTime : np.mConnectRetryMaxTime ≠ [] → Word np.mConnectRetryMaxTime
  ca : writesCa np = true → HasFile "ca" np.mCaFilename
  key : np.usesCertificates = true → HasFile "key" np.mClientKeyFilename
  cert : np.usesCertificates = true → HasFile "cert" np.mClientCertFilename
  pkcs12 : usesPkcs12 np = true → HasFile "pkcs12" np.mPKCS12Filename
  crl : (!VpnProfile.isEmpty np.mCrlFilename) = true → HasFile "crl-verify" np.mCrlFilename
  tlsAuth : np.mUseTLSAuth = true → HasFile (keyOption np).name np.mTLSAuthFilename
  notInline : np.mTLSAuthFilename ≠ some "[inline]".toList
  direction : writesDirection np = true → Word np.mTLSAuthDirection
  address : (!np.mUsePull && !VpnProfile.isEmpty np.mIPv4Address) = true →
    ∃ net, np.mIPv4Address.bind netOf = some net ∧ Word net.1
  /-- `ifconfig-ipv6` comes back as a custom option. -/
  addressV6 : np.writesIpv6Address = false
  included : ∀ net ∈ includedNets np, Word net.1
  excluded : ∀ net ∈ excludedNets np, Word net.1
  netsV6 : ∀ net ∈ netsV6 np, Word net
  servers : ∀ server ∈ writtenServers np, Word server
  domain : writtenDomain np ≠ [] → Word (writtenDomain np)
  mssFix : IsInt np.mMssFix
  tunMtu : IsInt np.mTunMtu
  checkedName : checksName np = true → Escapable (writtenName np).1
  x509UsernameField : (checksName np && !VpnProfile.isEmpty np.mx509UsernameField) = true →
    Escapable (np.mx509UsernameField.getD [])
  cipher : np.mCipher ≠ [] → Word np.mCipher
  auth : np.mAuth ≠ [] → Word np.mAuth

/-- The parser reads a text as the lines of some options. -/
def ReadsAll (np : VpnProfile) (context : DeviceContext) (text : List Char) (options : List Written) : Prop :=
  Reads text (options.map (Written.group np context))

section
variable {np : VpnProfile} {context : DeviceContext} {t t' s w w' : List Char} {xs ys : List Written} {x : Written}
  {args : Args} {c : Bool}

theorem ReadsAll.append (h : ReadsAll np context t xs) (h' : ReadsAll np context t' ys) :
    ReadsAll np context (t ++ t') (xs ++ ys) := by
  unfold ReadsAll
  rw [List.map_append]
  exact Reads.append h h'

theorem Escapable.token (h : Escapable w) : Token (VpnProfile.openVpnEscape w) w := token_openVpnEscape h.plain h.survives

theorem Written.token (x : Written) : Token x.name.toList x.name.toList := token_word x.word_name

/-! ### One line -/

theorem reads_written (x : Written) (ht : t = s ++ ['\n']) (h : IsLine s (x.name.toList :: args)) :
    Reads t [(x.name, [x.name.toList :: args])] := by
  subst ht
  exact reads_line x.isOption h

theorem reads_one (x : Written) (hx : x.lines np context = x.one c args) (ht : t = s ++ ['\n'])
    (h : c = true → IsLine s (x.name.toList :: args)) : ReadsAll np context (textIf c t) [x] := by
  have hreads : Reads (textIf c t) [(x.name, x.one c args)] := reads_textIf fun hc => reads_written x ht (h hc)
  rw [← hx] at hreads
  exact hreads

theorem reads_flag (x : Written) (c : Bool) (hx : x.lines np context = x.one c []) (ht : t = x.name.toList ++ ['\n']) :
    ReadsAll np context (textIf c t) [x] :=
  reads_one x hx ht fun _ => .last x.token

theorem reads_argument (x : Written) (hx : x.lines np context = x.one c [w])
    (ht : t = x.name.toList ++ ' ' :: s ++ ['\n']) (h : c = true → Token s w) :
    ReadsAll np context (textIf c t) [x] :=
  reads_one x hx ht fun hc => .cons x.token (.last (h hc))

theorem reads_arguments (x : Written) (hx : x.lines np context = x.one c (w :: args))
    (ht : t = x.name.toList ++ ' ' :: (s ++ ' ' :: w') ++ ['\n']) (h : c = true → Token s w)
    (h' : c = true → IsLine w' args) : ReadsAll np context (textIf c t) [x] :=
  reads_one x hx ht fun hc => .cons x.token (.cons (h hc) (h' hc))

theorem reads_insertFile (x : Written) {filedata : Option (List Char)} (hx : x.lines np context = x.file c filedata)
    (h : c = true → HasFile x.name filedata) :
    ReadsAll np context (textIf c (VpnProfile.insertFile x.name.toList filedata)) [x] := by
  have hreads : Reads (textIf c (VpnProfile.insertFile x.name.toList filedata)) [(x.name, x.file c filedata)] := by
    refine reads_textIf fun hc => ?_
    obtain ⟨f, rfl, hf⟩ := h hc
    exact reads_file x.isOption x.word_name hf
  rw [← hx] at hreads
  exact hreads

/-! ### Words -/

theorem word_of_safe (hne : w ≠ []) (h : ∀ c ∈ w, c.isDigit = true ∨ c = '-' ∨ c = '.') : Word w := by
  have hsafe : ∀ c ∈ w, space c = false ∧ c ≠ '\\' ∧ c ≠ '"' ∧ c ≠ '\'' ∧ c ≠ '#' ∧ c ≠ ';' := by
    intro c hc
    rcases h c hc with hdigit | rfl | rfl
    · have hname : IsName [c] := isName_of_alphanum fun d hd => by
        rw [List.mem_singleton.mp hd]
        exact .inl (Bool.or_eq_true_iff.mpr (.inr hdigit))
      obtain ⟨hblank, hwhite, hback⟩ := hname c List.mem_cons_self
      have hne : ∀ d : Char, d.isDigit = false → c ≠ d := by
        rintro d hd rfl
        rw [hdigit] at hd
        cases hd
      have hzero := hne '\x00' rfl
      exact ⟨by simp [space, hwhite, hzero], hback, hne _ rfl, hne _ rfl, hne _ rfl, hne _ rfl⟩
    · decide
    · decide
  obtain ⟨c, w, rfl⟩ := List.exists_cons_of_ne_nil hne
  obtain ⟨-, -, hfirst⟩ := hsafe c List.mem_cons_self
  refine Bool.and_eq_true_iff.mpr ⟨by simp [hfirst], List.all_eq_true.mpr fun d hd => ?_⟩
  obtain ⟨hspace, hback, -⟩ := hsafe d hd
  simp [hspace, hback]

theorem word_intText (n : Int) : Word (intText n) := by
  refine word_of_safe (Text.toString_ne_nil n) fun c hc => ?_
  cases n with
  | ofNat m => exact .inl (Text.isDigit_of_mem_toString (Int.natCast_nonneg m) hc)
  | negSucc m =>
    have hlist : intText (Int.negSucc m) = '-' :: (toString ((m + 1 : Nat) : Int)).toList := String.toList_append
    rw [hlist] at hc
    rcases List.mem_cons.mp hc with rfl | hc
    · exact .inr (.inl rfl)
    · exact .inl (Text.isDigit_of_mem_toString (Int.natCast_nonneg _) hc)

theorem word_maskOf (len : Nat) : Word (maskOf len) := by
  have hpart : ∀ n : Nat, ∀ c ∈ (toString n).toList, c.isDigit = true := fun n c hc => by
    rw [toList_toString] at hc
    exact Nat.isDigit_of_mem_toDigits (by decide) (by decide) hc
  refine word_of_safe (by simp [maskOf, dotted]) fun c hc => ?_
  simp only [maskOf, dotted, List.mem_append, List.mem_singleton] at hc
  rcases hc with (((((hc | hc) | hc) | hc) | hc) | hc) | hc
  all_goals first
    | exact .inr (.inr hc)
    | exact .inl (hpart _ c hc)

/-! ### The head -/

/-- The text is the line of a comment, and no mark of an access server. -/
def isComment (t : List Char) : Bool :=
  let s := t.tail.dropLast
  t = '#' :: s ++ ['\n'] && '\n' ∉ s && '\r' ∉ s && !accessServer.isPrefixOf ('#' :: s)

theorem reads_comment (h : isComment t = true) : ReadsAll np context t [] := by
  simp only [isComment, Bool.and_eq_true, decide_eq_true_eq, Bool.not_eq_true'] at h
  obtain ⟨⟨⟨ht, hfeed⟩, hreturn⟩, hmeta⟩ := h
  rw [ht]
  exact reads_ignored (by simp [hfeed]) (by simp [hreturn]) (by simp [hmeta]) rfl

theorem reads_blank : ReadsAll np context ['\n'] [] :=
  reads_ignored List.not_mem_nil List.not_mem_nil (by decide) rfl

theorem reads_setenvText (h : IsContext context) : ReadsAll np context (VpnProfile.setenvText context) [.setenv] := by
  have hname : Token "setenv".toList "setenv".toList := Written.setenv.token
  have hword : ∀ w : List Char, Word w → Token w w := fun w => token_word
  have hversion : IsLine ("setenv".toList ++ ' ' :: ("IV_GUI_VER".toList ++ ' ' ::
      (VpnProfile.openVpnEscape context.versionEnvString ++ ' ' :: [])))
      ["setenv".toList, "IV_GUI_VER".toList, context.versionEnvString] :=
    .cons hname (.cons (hword _ (by decide)) (.cons h.version.token .nil))
  have hsso : IsLine ("setenv".toList ++ ' ' :: ("IV_SSO".toList ++ ' ' :: "openurl,crtext".toList))
      ["setenv".toList, "IV_SSO".toList, "openurl,crtext".toList] :=
    .cons hname (.cons (hword _ (by decide)) (.last (hword _ (by decide))))
  have hplatform : IsLine ("setenv".toList ++ ' ' :: ("IV_PLAT_VER".toList ++ ' ' ::
      VpnProfile.openVpnEscape context.platformVersionEnvString))
      ["setenv".toList, "IV_PLAT_VER".toList, context.platformVersionEnvString] :=
    .cons hname (.cons (hword _ (by decide)) (.last h.platformVersion.token))
  exact ((reads_written .setenv (by simp) hversion).merge (reads_written .setenv (by simp) hsso)).merge
    (reads_written .setenv (by simp) hplatform)

/-- The options before `client`. -/
def headOptions : List Written :=
  [.management, .managementClient, .managementQueryPasswords, .managementHold, .setenv, .machineReadableOutput,
   .allowRecursiveRouting, .ifconfigNowarn]

theorem reads_headText (h : IsContext context) : ReadsAll np context (VpnProfile.headText context false) headOptions := by
  have hmanagement : ReadsAll np context
      ("management ".toList ++ context.cacheDir ++ "/mgmtsocket".toList ++ " unix\n".toList) [.management] :=
    reads_arguments (c := true) .management rfl (by simp [Written.name]) (fun _ => token_word h.management)
      fun _ => .last (token_word (by decide : Word "unix".toList))
  have hflag : ∀ (x : Written) (t : List Char), x.lines np context = x.one true [] → t = x.name.toList ++ ['\n'] →
      ReadsAll np context t [x] := fun x _ hx ht => reads_flag x true hx ht
  have hcomment : ReadsAll np context "# Config for OpenVPN 2.x\n".toList [] :=
    reads_comment (by unfold isComment accessServer; repeat rw [String.toList_ofList]; decide)
  have hcomment' : ReadsAll np context "# Enables connection to GUI\n".toList [] :=
    reads_comment (by unfold isComment accessServer; repeat rw [String.toList_ofList]; decide)
  exact ((((((((((hcomment.append hcomment').append hmanagement).append (hflag .managementClient _ rfl rfl)).append
    (hflag .managementQueryPasswords _ rfl rfl)).append (hflag .managementHold _ rfl rfl)).append reads_blank).append
    (reads_setenvText h)).append (hflag .machineReadableOutput _ rfl rfl)).append
    (hflag .allowRecursiveRouting _ rfl rfl)).append (hflag .ifconfigNowarn _ rfl rfl))

theorem clientText_eq (np : VpnProfile) : np.clientText =
    textIf (np.useTLSClient && np.mUsePull) "client\n".toList ++ textIf (!np.useTLSClient && np.mUsePull) "pull\n".toList ++
      textIf (np.useTLSClient && !np.mUsePull) "tls-client\n".toList := by
  unfold VpnProfile.clientText
  cases np.useTLSClient <;> cases np.mUsePull <;> rfl

theorem reads_clientText : ReadsAll np context np.clientText [.client, .pull, .tlsClient] := by
  rw [clientText_eq]
  exact ((reads_flag .client _ rfl rfl).append (reads_flag .pull _ rfl rfl)).append
    (reads_flag .tlsClient _ rfl rfl)

theorem reads_retryText (h : Exportable np) :
    ReadsAll np context np.retryText [.verb, .connectRetryMax, .connectRetry, .resolvRetry, .dev] := by
  have hliteral : ∀ (x : Written) (w : List Char), Word w → x.lines np context = x.one true [w] →
      ReadsAll np context (x.name.toList ++ ' ' :: w ++ ['\n']) [x] := fun x w hw hx =>
    reads_argument (c := true) x hx rfl fun _ => token_word hw
  have hmax : ReadsAll np context
      (textIf (np.mConnectRetryMax ≠ "-1".toList) ("connect-retry-max ".toList ++ np.mConnectRetryMax ++ ['\n']))
      [.connectRetryMax] :=
    reads_argument .connectRetryMax rfl (by simp [Written.name]) fun _ => token_word h.connectRetryMax
  have hretry : Word (if np.mConnectRetry = [] then "2".toList else np.mConnectRetry) := by
    split
    · decide
    · exact h.connectRetry ‹_›
  have htime : Word (if np.mConnectRetryMaxTime = [] then "300".toList else np.mConnectRetryMaxTime) := by
    split
    · decide
    · exact h.connectRetryMaxTime ‹_›
  have hboth : ReadsAll np context
      ("connect-retry ".toList ++ (if np.mConnectRetry = [] then "2".toList else np.mConnectRetry) ++ [' '] ++
        (if np.mConnectRetryMaxTime = [] then "300".toList else np.mConnectRetryMaxTime) ++ ['\n']) [.connectRetry] :=
    reads_arguments (c := true) .connectRetry rfl (by simp [Written.name]) (fun _ => token_word hretry)
      fun _ => .last (token_word htime)
  exact ((((hliteral .verb "4".toList (by decide) rfl).append hmax).append hboth).append
    (hliteral .resolvRetry "60".toList (by decide) rfl)).append (hliteral .dev "tun".toList (by decide) rfl)

/-! ### Connections -/

/-- Texts of two options are put together option by option. -/
theorem Reads.merge_two {m n : String} (hmn : m ≠ n) {a a' b b' : List Args} (h : Reads t [(m, a), (n, b)])
    (h' : Reads t' [(m, a'), (n, b')]) : Reads (t ++ t') [(m, a ++ a'), (n, b ++ b')] := by
  refine (h.append h').congr fun x => ?_
  simp only [List.cons_append, List.nil_append, linesOf_cons]
  by_cases hm : m = x
  · have hn : n ≠ x := fun hn => hmn (hm.trans hn.symm)
    simp [hm, hn]
  · by_cases hn : n = x <;> simp [hm, hn]

theorem usesExtraProxyOptions_of_onlyRemote {conn : VpnConnection} (h : conn.isOnlyRemote = true) :
    conn.usesExtraProxyOptions = false := by
  unfold VpnConnection.usesExtraProxyOptions
  rcases Bool.or_eq_true_iff.mp h with hcustom | huse
  · have hnone : Text.contains "http-proxy-option ".toList [] = false := by decide
    rw [of_decide_eq_true hcustom, hnone, Bool.and_false]
  · rw [Bool.not_eq_true' _ |>.mp huse, Bool.false_and]

theorem getConnectionBlock_eq {conn : VpnConnection} (h : conn.isOnlyRemote = true) :
    conn.getConnectionBlock false = conn.remoteText ++ conn.timeoutText := by
  unfold VpnConnection.getConnectionBlock VpnConnection.httpProxyText VpnConnection.socksProxyText
    VpnConnection.customText
  rw [usesExtraProxyOptions_of_onlyRemote h, h]
  simp [textIf]

theorem reads_getConnectionBlock {conn : VpnConnection} (h : IsRemote conn) :
    Reads (conn.getConnectionBlock false) [("remote", [remoteArgs conn]), ("connect-timeout", Written.timeoutLines conn)] := by
  have hproto : Word (if conn.mUseUdp then "udp".toList else "tcp-client".toList) := by
    split <;> decide
  have hremote : IsLine ("remote".toList ++ ' ' :: (conn.mServerName ++ ' ' :: (conn.mServerPort ++ ' ' ::
      (if conn.mUseUdp then "udp".toList else "tcp-client".toList)))) (remoteArgs conn) :=
    .cons Written.remote.token (.cons (token_word h.serverName) (.cons (token_word h.serverPort)
      (.last (token_word hproto))))
  have htimeout : IsLine (' ' :: ("connect-timeout".toList ++ ' ' :: (' ' :: intText conn.mConnectTimeout)))
      ["connect-timeout".toList, intText conn.mConnectTimeout] :=
    .blank (.cons Written.connectTimeout.token (.blank (.last (token_word (word_intText _)))))
  have htext : conn.remoteText = "remote".toList ++ ' ' :: (conn.mServerName ++ ' ' :: (conn.mServerPort ++ ' ' ::
      (if conn.mUseUdp then "udp".toList else "tcp-client".toList))) ++ ['\n'] := by
    unfold VpnConnection.remoteText
    cases conn.mUseUdp <;> simp
  rw [getConnectionBlock_eq h.onlyRemote]
  refine (reads_written .remote htext hremote).append (reads_textIf fun _ => ?_)
  exact reads_written .connectTimeout (by simp) htimeout

theorem reads_connections {conns : List VpnConnection} (h : ∀ conn ∈ conns, IsRemote conn) :
    Reads (conns.flatMap (·.getConnectionBlock false))
      [("remote", conns.map remoteArgs), ("connect-timeout", conns.flatMap Written.timeoutLines)] := by
  induction conns with
  | nil => exact (reads_empty "remote").append (reads_empty "connect-timeout")
  | cons conn conns ih =>
    obtain ⟨hconn, hconns⟩ := List.forall_mem_cons.mp h
    exact (reads_getConnectionBlock hconn).merge_two (by decide) (ih hconns)

theorem plainConnections_sub {conn : VpnConnection} (h : conn ∈ np.plainConnections) : conn ∈ np.mConnections := by
  unfold VpnProfile.plainConnections at h
  split at h
  · exact h
  · split at h
    · exact List.mem_of_mem_filter h
    · cases h

theorem reads_connectionsText (h : Exportable np) :
    ReadsAll np context (np.connectionsText false) [.remoteRandom, .remote, .connectTimeout] := by
  have hrandom : ReadsAll np context
      (textIf (np.mConnections.length ≠ 1 && np.mRemoteRandom) "remote-random\n".toList) [.remoteRandom] :=
    reads_flag .remoteRandom _ rfl rfl
  have hconns : ReadsAll np context (np.plainConnections.flatMap (·.getConnectionBlock false))
      [.remote, .connectTimeout] :=
    reads_connections fun conn hconn => h.remote conn (plainConnections_sub hconn)
  exact hrandom.append hconns

theorem reads_connectionBlocksText (h : Exportable np) : ReadsAll np context (np.connectionBlocksText false) [] := by
  have hplain : np.canUsePlainRemotes = true := by
    unfold VpnProfile.canUsePlainRemotes
    rw [Bool.or_eq_true_iff]
    exact .inr (List.all_eq_true.mpr fun conn hconn => (h.remote conn hconn).onlyRemote)
  unfold VpnProfile.connectionBlocksText
  rw [hplain]
  exact reads_nil

/-! ### Keys -/

theorem credentialsText_eq (h : Exportable np) : np.credentialsText context false =
    textIf np.isUserPWAuth "auth-user-pass\n".toList ++
      textIf (usesPkcs12 np) (VpnProfile.insertFile "pkcs12".toList np.mPKCS12Filename) ++
      textIf (writesCa np) (VpnProfile.insertFile "ca".toList np.mCaFilename) ++
      textIf np.usesCertificates (VpnProfile.insertFile "key".toList np.mClientKeyFilename) ++
      textIf np.usesCertificates (VpnProfile.insertFile "cert".toList np.mClientCertFilename) := by
  have htype := h.authenticationType
  unfold VpnProfile.credentialsText writesCa usesPkcs12 VpnProfile.usesCertificates VpnProfile.isUserPWAuth
  generalize VpnProfile.insertFile "ca".toList np.mCaFilename = ca
  generalize VpnProfile.insertFile "key".toList np.mClientKeyFilename = key
  generalize VpnProfile.insertFile "cert".toList np.mClientCertFilename = cert
  generalize VpnProfile.insertFile "pkcs12".toList np.mPKCS12Filename = pkcs12
  generalize "auth-user-pass\n".toList = login
  generalize np.mAuthenticationType = type at htype ⊢
  cases type with
  | keystore | userpassKeystore | externalApp => exact absurd (by simp) htype
  | _ => simp [textIf]

theorem reads_credentialsText (h : Exportable np) :
    ReadsAll np context (np.credentialsText context false) [.authUserPass, .pkcs12, .ca, .key, .cert] := by
  rw [credentialsText_eq h]
  exact ((((reads_flag .authUserPass _ rfl rfl).append (reads_insertFile .pkcs12 rfl h.pkcs12)).append
    (reads_insertFile .ca rfl h.ca)).append (reads_insertFile .key rfl h.key)).append (reads_insertFile .cert rfl h.cert)

theorem reads_loginText (h : Exportable np) :
    ReadsAll np context np.loginText [.authRetry, .crlVerify, .compLzo] := by
  have hretry : ReadsAll np context
      (textIf (np.isUserPWAuth && np.mAuthRetry = .nointeract) "auth-retry nointeract\n".toList) [.authRetry] :=
    reads_argument .authRetry rfl rfl fun _ => token_word (by decide : Word "nointeract".toList)
  exact (hretry.append (reads_insertFile .crlVerify rfl h.crl)).append (reads_flag .compLzo _ rfl rfl)

theorem tlsAuthEntry_eq (np : VpnProfile) : np.tlsAuthEntry = (keyOption np).name := by
  unfold VpnProfile.tlsAuthEntry keyOption
  split_ifs <;> rfl

theorem keyOption_cases (np : VpnProfile) :
    keyOption np = .secret ∨ keyOption np = .tlsCrypt ∨ keyOption np = .tlsCryptV2 ∨ keyOption np = .tlsAuth := by
  unfold keyOption
  split_ifs <;> simp

theorem tlsAuthText_eq (np : VpnProfile) : np.tlsAuthText =
    textIf (np.mUseTLSAuth && keyOption np = .secret) (VpnProfile.insertFile "secret".toList np.mTLSAuthFilename) ++
      textIf (np.mUseTLSAuth && keyOption np = .tlsCrypt) (VpnProfile.insertFile "tls-crypt".toList np.mTLSAuthFilename) ++
      textIf (np.mUseTLSAuth && keyOption np = .tlsCryptV2)
        (VpnProfile.insertFile "tls-crypt-v2".toList np.mTLSAuthFilename) ++
      textIf (np.mUseTLSAuth && keyOption np = .tlsAuth) (VpnProfile.insertFile "tls-auth".toList np.mTLSAuthFilename) ++
      textIf (writesDirection np) ("key-direction ".toList ++ np.mTLSAuthDirection ++ ['\n']) := by
  unfold VpnProfile.tlsAuthText writesDirection
  rw [tlsAuthEntry_eq]
  generalize "key-direction ".toList ++ np.mTLSAuthDirection ++ ['\n'] = direction
  cases np.mUseTLSAuth with
  | false => rfl
  | true =>
    rcases keyOption_cases np with hkey | hkey | hkey | hkey
    all_goals
      rw [hkey]
      simp only [textIf, Written.name, Bool.true_and, reduceCtorEq, decide_false, decide_true, ↓reduceIte,
        Bool.false_eq_true, List.nil_append, List.append_nil]

theorem reads_tlsAuthText (h : Exportable np) :
    ReadsAll np context np.tlsAuthText [.secret, .tlsCrypt, .tlsCryptV2, .tlsAuth, .keyDirection] := by
  have hkey : ∀ x : Written, (np.mUseTLSAuth && keyOption np = x) = true → HasFile x.name np.mTLSAuthFilename := by
    intro x hx
    obtain ⟨huse, hx⟩ := Bool.and_eq_true_iff.mp hx
    have hfile := h.tlsAuth huse
    rwa [of_decide_eq_true hx] at hfile
  rw [tlsAuthText_eq]
  exact ((((reads_insertFile .secret rfl (hkey _)).append (reads_insertFile .tlsCrypt rfl (hkey _))).append
    (reads_insertFile .tlsCryptV2 rfl (hkey _))).append (reads_insertFile .tlsAuth rfl (hkey _))).append
    (reads_argument .keyDirection rfl (by simp [Written.name]) fun hc => token_word (h.direction hc))

/-! ### Networks -/

theorem reads_ifconfigText (h : Exportable np) : ReadsAll np context np.ifconfigText [.ifconfig] := by
  have htext : Reads np.ifconfigText [("ifconfig", ((ifconfigNet np).map ifconfigArgs).toList)] := by
    have hv6 : textIf np.writesIpv6Address (VpnProfile.ifconfigIpv6Line (np.mIPv6Address.getD [])) = [] := by
      rw [h.addressV6]
      rfl
    rw [VpnProfile.ifconfigText, hv6, List.append_nil, ifconfigNet]
    cases hc : !np.mUsePull && !VpnProfile.isEmpty np.mIPv4Address with
    | false => exact reads_empty _
    | true =>
      obtain ⟨net, hnet, hword⟩ := h.address hc
      have hcidr : np.mIPv4Address.bind VpnProfile.cidrToIPAndNetmask = some (netText net) := by
        obtain ⟨address, haddress, hnet⟩ := Option.bind_eq_some_iff.mp hnet
        rw [haddress, Option.bind_some, cidrToIPAndNetmask_netOf, hnet]
        rfl
      have hline : IsLine ("ifconfig".toList ++ ' ' :: (net.1 ++ ' ' :: (' ' :: maskOf net.2))) (ifconfigArgs net) :=
        .cons Written.ifconfig.token (.cons (token_word hword) (.blank (.last (token_word (word_maskOf _)))))
      have ht : "ifconfig ".toList ++ netText net ++ ['\n'] =
          "ifconfig".toList ++ ' ' :: (net.1 ++ ' ' :: (' ' :: maskOf net.2)) ++ ['\n'] := by
        simp [netText]
      rw [hnet, hcidr]
      exact reads_written .ifconfig ht hline
  exact htext

theorem reads_routeLine {net : List Char × Nat} (h : Word net.1) {gateway : List Char} (hgateway : Word gateway) :
    Reads (VpnProfile.routeLine (netText net) gateway) [("route", [netArgs gateway net])] := by
  have hline : IsLine ("route".toList ++ ' ' :: (net.1 ++ ' ' :: (' ' :: (maskOf net.2 ++ ' ' :: gateway))))
      (netArgs gateway net) :=
    .cons Written.route.token (.cons (token_word h) (.blank (.cons (token_word (word_maskOf _))
      (.last (token_word hgateway)))))
  have ht : "route ".toList ++ netText net ++ [' '] ++ gateway ++ ['\n'] =
      "route".toList ++ ' ' :: (net.1 ++ ' ' :: (' ' :: (maskOf net.2 ++ ' ' :: gateway))) ++ ['\n'] := by
    simp [netText]
  exact reads_written .route ht hline

theorem reads_routeLines {routes : Option (List Char)} (h : ∀ net ∈ customNets routes, Word net.1) {gateway : List Char}
    (hgateway : Word gateway) :
    Reads ((VpnProfile.getCustomRoutes routes).map (VpnProfile.routeLine · gateway)).flatten
      [("route", (customNets routes).map (netArgs gateway))] := by
  rw [getCustomRoutes_eq, List.map_map, ← List.flatMap_def]
  exact reads_flatMap fun net hnet => reads_routeLine (h net hnet) hgateway

theorem reads_defaultRoute : Reads (VpnProfile.routeLine "0.0.0.0 0.0.0.0".toList VpnProfile.vpnGateway)
    [("route", [netArgs VpnProfile.vpnGateway ("0.0.0.0".toList, 0)])] := by
  have hline : IsLine ("route".toList ++ ' ' :: ("0.0.0.0".toList ++ ' ' :: (maskOf 0 ++ ' ' :: VpnProfile.vpnGateway)))
      (netArgs VpnProfile.vpnGateway ("0.0.0.0".toList, 0)) :=
    .cons Written.route.token (.cons (token_word (by decide)) (.cons (token_word (word_maskOf _))
      (.last (token_word (by decide)))))
  exact reads_written .route rfl hline

theorem reads_routes (h : Exportable np) : ReadsAll np context np.routeLines.flatten [.route] := by
  have hincluded := h.included
  have hexcluded := h.excluded
  have htext : Reads np.routeLines.flatten [("route", (includedNets np).map (netArgs VpnProfile.vpnGateway) ++
      (excludedNets np).map (netArgs VpnProfile.netGateway))] := by
    unfold includedNets excludedNets at *
    unfold VpnProfile.routeLines
    cases hdefault : np.mUseDefaultRoute with
    | true => exact reads_defaultRoute
    | false =>
      simp only [hdefault, Bool.false_eq_true, ↓reduceIte, List.flatten_append] at hincluded hexcluded ⊢
      exact (reads_routeLines hincluded (by decide)).merge (reads_routeLines hexcluded (by decide))
  exact htext

theorem reads_routesV6 {nets : List (List Char)} (h : ∀ net ∈ nets, Word net) :
    Reads (nets.flatMap fun net => "route-ipv6 ".toList ++ net ++ ['\n']) [("route-ipv6", nets.map netArgsV6)] := by
  refine reads_flatMap fun net hnet => ?_
  have hline : IsLine ("route-ipv6".toList ++ ' ' :: net) (netArgsV6 net) :=
    .cons Written.routeIpv6.token (.last (token_word (h net hnet)))
  exact reads_written .routeIpv6 (by simp) hline

theorem reads_netsText (h : Exportable np) : ReadsAll np context np.netsText [.route, .routeIpv6] := by
  have hroute := (reads_routes h : ReadsAll np context _ _)
  have hnets := h.netsV6
  have htext : Reads np.netsText
      ([.route].map (Written.group np context) ++ [("route-ipv6", (netsV6 np).map netArgsV6)]) := by
    unfold netsV6 at hnets ⊢
    unfold VpnProfile.netsText
    cases hdefault : np.mUseDefaultRoutev6 with
    | true =>
      have hline : Reads "route-ipv6 ::/0\n".toList [("route-ipv6", [netArgsV6 "::/0".toList])] :=
        reads_written .routeIpv6 (s := "route-ipv6".toList ++ ' ' :: "::/0".toList) rfl
          (.cons Written.routeIpv6.token (.last (token_word (by decide))))
      -- The IPv6 default route comes first, and no route is read of either text for the other option.
      refine ((hline.append hroute).append reads_nil).congr fun n => ?_
      simp only [List.append_nil, linesOf_append, ↓reduceIte, List.map_cons, List.map_nil, linesOf_cons, Written.group]
      by_cases hn : Written.route.name = n
      · have hother : "route-ipv6" ≠ n := fun heq => absurd (hn.trans heq.symm) (by decide)
        simp [hn, hother]
      · simp [hn]
    | false =>
      simp only [hdefault, Bool.false_eq_true, ↓reduceIte] at hnets
      exact (reads_nil.append hroute).append (reads_routesV6 hnets)
  exact htext

theorem reads_routesText (h : Exportable np) :
    ReadsAll np context np.routesText [.routeNopull, .route, .routeIpv6] :=
  (reads_flag .routeNopull _ rfl rfl).append (reads_netsText h)

theorem reads_dnsLines (h : Exportable np) : ReadsAll np context np.dnsLines.flatten [.dhcpOption] := by
  have hserver : ∀ server ∈ writtenServers np, Reads (VpnProfile.dnsLine server) [("dhcp-option", [serverArgs server])] := by
    intro server hserver
    have hline : IsLine ("dhcp-option".toList ++ ' ' :: ("DNS".toList ++ ' ' :: server)) (serverArgs server) :=
      .cons Written.dhcpOption.token (.cons (token_word (by decide)) (.last (token_word (h.servers server hserver))))
    have ht : "dhcp-option DNS ".toList ++ server ++ ['\n'] =
        "dhcp-option".toList ++ ' ' :: ("DNS".toList ++ ' ' :: server) ++ ['\n'] := by
      simp
    exact reads_written .dhcpOption ht hline
  have hdomain : Reads (textIf (writtenDomain np ≠ []) ("dhcp-option DOMAIN ".toList ++ writtenDomain np ++ ['\n']))
      [("dhcp-option", Written.dhcpOption.one (writtenDomain np ≠ []) ["DOMAIN".toList, writtenDomain np])] := by
    refine reads_textIf fun hc => ?_
    have hline : IsLine ("dhcp-option".toList ++ ' ' :: ("DOMAIN".toList ++ ' ' :: writtenDomain np))
        ["dhcp-option".toList, "DOMAIN".toList, writtenDomain np] :=
      .cons Written.dhcpOption.token (.cons (token_word (by decide))
        (.last (token_word (h.domain (of_decide_eq_true hc)))))
    exact reads_written .dhcpOption (by simp) hline
  have htext : np.dnsLines.flatten = (writtenServers np).flatMap VpnProfile.dnsLine ++
      textIf (writtenDomain np ≠ []) ("dhcp-option DOMAIN ".toList ++ writtenDomain np ++ ['\n']) := by
    unfold VpnProfile.dnsLines writtenServers writtenDomain
    split
    · generalize "dhcp-option DOMAIN ".toList = domain
      by_cases h1 : np.mDNS1 = [] <;> by_cases h2 : np.mDNS2 = [] <;> by_cases h3 : np.mSearchDomain = [] <;>
        simp [h1, h2, h3, textIf]
    · simp [textIf]
  rw [htext]
  exact (reads_flatMap hserver).merge hdomain

theorem reads_mssfixText : ReadsAll np context (np.mssfixText false) [.mssfix] := by
  have htext : np.mssfixText false = textIf (np.mMssFix ≠ 0)
      ((if np.mMssFix ≠ 1450 then "mssfix".toList ++ ' ' :: intText np.mMssFix else "mssfix".toList) ++ ['\n']) := by
    unfold VpnProfile.mssfixText
    split
    · simp
    · rfl
  rw [htext]
  refine reads_one .mssfix rfl rfl fun _ => ?_
  split
  · exact .cons Written.mssfix.token (.last (token_word (word_intText _)))
  · exact .last Written.mssfix.token

theorem reads_mtuText : ReadsAll np context (np.mtuText false) [.mssfix, .tunMtu, .nobind] := by
  have hmtu : ReadsAll np context
      (textIf (48 ≤ np.mTunMtu && np.mTunMtu ≠ 1500) ("tun-mtu ".toList ++ intText np.mTunMtu ++ ['\n'])) [.tunMtu] :=
    reads_argument .tunMtu rfl (by simp [Written.name]) fun _ => token_word (word_intText _)
  exact (reads_mssfixText.append hmtu).append (reads_flag .nobind _ rfl rfl)

/-! ### The other side -/

/-- `verify-x509-name` with its type. -/
def verifyLine (name : List Char × X509Verify) : List Char :=
  "verify-x509-name".toList ++ ' ' :: (VpnProfile.openVpnEscape name.1 ++
    match name.2 with
    | .tlsremoteRdn => " name".toList
    | .tlsremoteRdnPrefix => " name-prefix".toList
    | _ => [])

/-- The text of the name, option by option. -/
theorem remoteCnText_eq (h : Exportable np) : np.remoteCnText = some
    (textIf (!isTlsRemote (writtenName np).2) (verifyLine (writtenName np) ++ ['\n']) ++
      textIf ((writtenName np).2 = .tlsremoteCompatNoremapping) "compat-names no-remapping\n".toList ++
      textIf (isTlsRemote (writtenName np).2)
        ("tls-remote".toList ++ ' ' :: VpnProfile.openVpnEscape (writtenName np).1 ++ ['\n'])) := by
  obtain ⟨conn, conns, hconns⟩ := List.exists_cons_of_ne_nil h.connections
  have hverify : "verify-x509-name ".toList = "verify-x509-name".toList ++ [' '] := rfl
  have htls : "tls-remote ".toList = "tls-remote".toList ++ [' '] := rfl
  have hrdn : " name\n".toList = " name".toList ++ ['\n'] := rfl
  have hprefix : " name-prefix\n".toList = " name-prefix".toList ++ ['\n'] := rfl
  unfold VpnProfile.remoteCnText writtenName verifyLine
  rw [hverify, htls, hrdn, hprefix]
  generalize "verify-x509-name".toList = verify
  generalize "tls-remote".toList = tls
  generalize "compat-names no-remapping\n".toList = compat
  generalize " name".toList = rdn
  generalize " name-prefix".toList = rdnPrefix
  by_cases hname : np.mRemoteCN = []
  · simp [hname, hconns, isTlsRemote, textIf]
  · cases np.mX509AuthType <;> simp [hname, isTlsRemote, textIf]

theorem isLine_verifyLine {name : List Char × X509Verify} (h : Escapable name.1) :
    IsLine (verifyLine name) ("verify-x509-name".toList :: verifyArgs name) := by
  have hline : ∀ {s args}, IsLine (VpnProfile.openVpnEscape name.1 ++ s) args →
      IsLine ("verify-x509-name".toList ++ ' ' :: (VpnProfile.openVpnEscape name.1 ++ s)) ("verify-x509-name".toList :: args) :=
    fun h => .cons Written.verifyX509Name.token h
  have hbare : IsLine (VpnProfile.openVpnEscape name.1 ++ []) [name.1] := by
    rw [List.append_nil]
    exact .last h.token
  unfold verifyLine verifyArgs
  cases name.2 with
  | tlsremoteRdn => exact hline (.cons h.token (.last (token_word (by decide : Word "name".toList))))
  | tlsremoteRdnPrefix => exact hline (.cons h.token (.last (token_word (by decide : Word "name-prefix".toList))))
  | _ => exact hline hbare

/-- The text of the checks, option by option. -/
theorem verifyText_eq (h : Exportable np) : np.verifyText = some
    (textIf (checksName np && !isTlsRemote (writtenName np).2) (verifyLine (writtenName np) ++ ['\n']) ++
      textIf (checksName np && (writtenName np).2 = .tlsremoteCompatNoremapping) "compat-names no-remapping\n".toList ++
      textIf (checksName np && isTlsRemote (writtenName np).2)
        ("tls-remote".toList ++ ' ' :: VpnProfile.openVpnEscape (writtenName np).1 ++ ['\n']) ++
      textIf (checksName np && !VpnProfile.isEmpty np.mx509UsernameField)
        ("x509-username-field ".toList ++ VpnProfile.openVpnEscape (np.mx509UsernameField.getD []) ++ ['\n']) ++
      textIf (checksCertificate np && np.mExpectTLSCert) "remote-cert-tls server\n".toList) := by
  unfold VpnProfile.verifyText
  rw [remoteCnText_eq h]
  unfold checksName checksCertificate
  generalize verifyLine (writtenName np) ++ ['\n'] = verify
  generalize "compat-names no-remapping\n".toList = compat
  generalize "tls-remote".toList ++ ' ' :: VpnProfile.openVpnEscape (writtenName np).1 ++ ['\n'] = tls
  generalize "x509-username-field ".toList ++ VpnProfile.openVpnEscape (np.mx509UsernameField.getD []) ++ ['\n'] = field
  generalize "remote-cert-tls server\n".toList = usage
  by_cases htype : np.mAuthenticationType = .statickeys
  · simp [htype, textIf]
  · cases np.mCheckRemoteCN <;> simp [htype, textIf]

theorem reads_verifyText (context : DeviceContext) (h : Exportable np) : ∃ text, np.verifyText = some text ∧
    ReadsAll np context text [.verifyX509Name, .compatNames, .tlsRemote, .x509UsernameField, .remoteCertTls] := by
  have hchecked : ∀ {b : Bool}, (checksName np && b) = true → Escapable (writtenName np).1 :=
    fun hc => h.checkedName (Bool.and_eq_true_iff.mp hc).1
  have hfield : ReadsAll np context (textIf (checksName np && !VpnProfile.isEmpty np.mx509UsernameField)
      ("x509-username-field ".toList ++ VpnProfile.openVpnEscape (np.mx509UsernameField.getD []) ++ ['\n']))
      [.x509UsernameField] :=
    reads_argument .x509UsernameField rfl (by simp [Written.name]) fun hc => (h.x509UsernameField hc).token
  have hcompat : ReadsAll np context (textIf (checksName np && (writtenName np).2 = .tlsremoteCompatNoremapping)
      "compat-names no-remapping\n".toList) [.compatNames] :=
    reads_argument .compatNames rfl rfl fun _ => token_word (by decide : Word "no-remapping".toList)
  refine ⟨_, verifyText_eq h, ?_⟩
  exact ((((reads_one .verifyX509Name rfl rfl fun hc => isLine_verifyLine (hchecked hc)).append hcompat).append
    (reads_argument .tlsRemote rfl rfl fun hc => (hchecked hc).token)).append hfield).append
    (reads_argument .remoteCertTls rfl rfl fun _ => token_word (by decide : Word "server".toList))

/-! ### The rest -/

theorem reads_cipherText (h : Exportable np) : ReadsAll np context np.cipherText [.cipher, .auth] := by
  have hcipher : ReadsAll np context (textIf (np.mCipher ≠ []) ("cipher ".toList ++ np.mCipher ++ ['\n'])) [.cipher] :=
    reads_argument .cipher rfl (by simp [Written.name]) fun hc => token_word (h.cipher (of_decide_eq_true hc))
  exact hcipher.append (reads_argument .auth rfl (by simp [Written.name]) fun hc =>
    token_word (h.auth (of_decide_eq_true hc)))

/-- A comment before a text that is written under a condition. -/
theorem reads_commented {c : Bool} (hcomment : ReadsAll np context t []) (h : ReadsAll np context (textIf c t') xs) :
    ReadsAll np context (textIf c (t ++ t')) xs := by
  cases c with
  | false => exact h
  | true => exact hcomment.append h

theorem textIf_append (c : Bool) (t t' : List Char) : textIf c (t ++ t') = textIf c t ++ textIf c t' := by
  cases c <;> rfl

theorem reads_persistTun : ReadsAll np context (textIf np.mPersistTun VpnProfile.persistTunText)
    [.persistTun, .preresolve] := by
  have hcomment : ReadsAll np context
      "# persist-tun also enables pre resolving to avoid DNS resolve problem\n".toList [] :=
    reads_comment (by unfold isComment accessServer; repeat rw [String.toList_ofList]; decide)
  unfold VpnProfile.persistTunText
  rw [List.append_assoc, textIf_append]
  exact (reads_flag .persistTun np.mPersistTun rfl rfl).append
    (reads_commented hcomment (reads_flag .preresolve np.mPersistTun rfl rfl))

theorem usesExtraProxyOptions_eq (h : Exportable np) : np.usesExtraProxyOptions = false := by
  unfold VpnProfile.usesExtraProxyOptions
  rw [h.useCustomConfig, Bool.false_and, Bool.false_or, List.any_eq_false]
  exact fun conn hconn => by
    have hnone := usesExtraProxyOptions_of_onlyRemote (h.remote conn hconn).onlyRemote
    unfold VpnConnection.usesExtraProxyOptions at hnone
    rw [hnone]
    decide

/-- The options behind `auth`. -/
def otherOptions : List Written :=
  [.remoteRandomHostname, .float, .persistTun, .preresolve, .pushPeerInfo, .managementQueryProxy]

theorem reads_otherText (h : Exportable np) : ReadsAll np context (np.otherText context false) otherOptions := by
  have hfavorite : ReadsAll np context "#my favorite options :)\n".toList [] :=
    reads_comment (by unfold isComment accessServer; repeat rw [String.toList_ofList]; decide)
  have hproxy : ReadsAll np context "# Use system proxy setting\n".toList [] :=
    reads_comment (by unfold isComment accessServer; repeat rw [String.toList_ofList]; decide)
  have hquery : (context.usesystemproxy && !false && !np.usesExtraProxyOptions) = context.usesystemproxy := by
    rw [usesExtraProxyOptions_eq h]
    simp
  unfold VpnProfile.otherText
  rw [hquery]
  exact ((((reads_commented hfavorite (reads_flag .remoteRandomHostname _ rfl rfl)).append
    (reads_flag .float _ rfl rfl)).append reads_persistTun).append (reads_flag .pushPeerInfo _ rfl rfl)).append
    (reads_commented hproxy (reads_flag .managementQueryProxy _ rfl rfl))

theorem reads_customText (h : Exportable np) : ReadsAll np context np.customText [] := by
  unfold VpnProfile.customText
  rw [h.useCustomConfig]
  exact reads_nil

/-! ### The text -/

theorem comment_headText (context : DeviceContext) : ['#'] <+: VpnProfile.headText context false := by
  have hcomment : ['#'] <+: "# Config for OpenVPN 2.x\n".toList := ⟨" Config for OpenVPN 2.x\n".toList, by decide⟩
  show ['#'] <+: VpnProfile.managementText context
  unfold VpnProfile.managementText
  iterate 10 refine List.prefix_append_of_prefix ?_
  exact hcomment

/-- The parser reads the whole text as the lines of all options. -/
theorem reads_getConfigFile (hcontext : IsContext context) (h : Exportable np) :
    ∃ text, np.getConfigFile context false = some text ∧ ['#'] <+: text ∧
      ReadsAll np context text Written.all := by
  obtain ⟨verify, hverify, hreads⟩ := reads_verifyText context h
  have hhead := (((reads_headText hcontext).append reads_clientText).append (reads_retryText h)).append
    (reads_connectionsText h)
  have hkeys := ((hhead.append (reads_credentialsText h)).append (reads_loginText h)).append (reads_tlsAuthText h)
  have hnets := (((hkeys.append (reads_ifconfigText h)).append (reads_routesText h)).append (reads_dnsLines h)).append
    reads_mtuText
  have hrest := ((((hnets.append hreads).append (reads_cipherText h)).append (reads_otherText h)).append
    (reads_customText h)).append (reads_connectionBlocksText h)
  refine ⟨_, ?_, ?_, hrest⟩
  · rw [VpnProfile.getConfigFile, hverify, Option.map_some]
  · iterate 15 refine List.prefix_append_of_prefix ?_
    exact comment_headText context

/-- The lines of the options of a text: those of the table, and no others. -/
structure HasLines (np : VpnProfile) (context : DeviceContext) (o : Options) : Prop where
  lines : ∀ x : Written, Options.lines o x.name = x.lines np context
  only : ∀ line ∈ o, ∃ x : Written, line.1 = x.name ∧ line.2 ∈ x.lines np context

/-- The parser reads what `getConfigFile` writes. -/
theorem parseConfig_getConfigFile (hcontext : IsContext context) (h : Exportable np) :
    ∃ text o, np.getConfigFile context false = some text ∧ parseConfig text = .ok { options := o, metas := [] } ∧
      HasLines np context o := by
  obtain ⟨text, htext, ⟨t, hcomment⟩, hreads⟩ := reads_getConfigFile hcontext h
  obtain ⟨o, hparse, ho⟩ := parseConfig_of_reads hreads hcomment.symm
  refine ⟨text, o, htext, hparse, ⟨fun x => ?_, fun line hline => ?_⟩⟩
  · have hnames : ((Written.all.map (Written.group np context)).map (·.1)).Nodup := by
      rw [List.map_map]
      exact Written.nodup_names
    rw [ho, linesOf_of_nodup hnames (List.mem_map_of_mem (Written.mem_all x))]
  · obtain ⟨p, hp, hname, hmem⟩ := mem_linesOf ho hline
    obtain ⟨x, -, rfl⟩ := List.mem_map.mp hp
    exact ⟨x, hname.symm, hmem⟩

end
end ConfigParser
end NicVpn
