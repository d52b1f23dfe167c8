import NicVpn.Theorems.ImportedOptions

/-! What comes back of a profile that `getConfigFile` writes and that is imported again. -/

namespace NicVpn
namespace ConfigParser
open Taking

/-! ### The profile -/

/-- The types of a certificate in a file of its own become those of the key store. -/
def importedType (np : VpnProfile) : AuthenticationType :=
  match np.mAuthenticationType with
  | .pkcs12 => .keystore
  | .userpassPkcs12 => .userpassKeystore
  | .statickeys => if np.mUseTLSAuth then .statickeys else .keystore
  | type => type

/-- The direction stands for `tls-crypt` too, of which a static key knows nothing. -/
def importedDirection (np : VpnProfile) : List Char :=
  if !np.mUseTLSAuth || (keyOption np = .secret && (np.useTlsCrypt || np.useTlsCrypt2)) then [] else np.mTLSAuthDirection

/-- The name is no longer checked without remapping. -/
def importedX509Type : X509Verify → X509Verify
  | .tlsremoteCompatNoremapping => .tlsremote
  | type => type

/-- The last timeout is that of all connections. -/
def importedTimeout (np : VpnProfile) : Int :=
  ((np.plainConnections.filter (·.mConnectTimeout ≠ 0)).getLast?.map (·.mConnectTimeout)).getD 0

def importedConnection (np : VpnProfile) (conn : VpnConnection) : VpnConnection where
  mServerName := conn.mServerName
  mServerPort := conn.mServerPort
  mUseUdp := conn.mUseUdp
  mConnectTimeout := importedTimeout np

/-- The profile that comes back. -/
def imported (np : VpnProfile) : VpnProfile :=
  fixup
    { VpnProfile.clearDefaults { mName := "converted Profile".toList } with
      mAuthenticationType := importedType np
      mClientCertFilename := importedFile np.usesCertificates np.mClientCertFilename
      mTLSAuthDirection := importedDirection np
      mTLSAuthFilename := importedFile np.mUseTLSAuth np.mTLSAuthFilename
      mClientKeyFilename := importedFile np.usesCertificates np.mClientKeyFilename
      mCaFilename := importedFile (writesCa np) np.mCaFilename
      mUseLzo := np.mUseLzo
      mPKCS12Filename := importedFile (usesPkcs12 np) np.mPKCS12Filename
      mUseTLSAuth := np.mUseTLSAuth
      mDNS1 := (importedServers np).1
      mDNS2 := (importedServers np).2
      mIPv4Address := importedAddress np
      mOverrideDNS := writtenServers np ≠ []
      mSearchDomain := importedDomain np
      mUsePull := np.mUsePull
      mCustomRoutes := importedRoutes np (includedNets np)
      mCheckRemoteCN := checksName np
      mExpectTLSCert := checksCertificate np && np.mExpectTLSCert
      mRemoteCN := if checksName np then (writtenName np).1 else []
      mRoutenopull := np.mUsePull && np.mRoutenopull
      mUseRandomHostname := np.mUseRandomHostname
      mUseFloat := np.mUseFloat
      mVerb := "4".toList
      mCipher := np.mCipher
      mNobind := np.mNobind
      mCustomRoutesv6 := (netsV6 np).flatMap (· ++ [' '])
      mPersistTun := np.mPersistTun
      mConnectRetryMax := np.mConnectRetryMax
      mConnectRetry := if np.mConnectRetry = [] then "2".toList else np.mConnectRetry
      mConnectRetryMaxTime := if np.mConnectRetryMaxTime = [] then "300".toList else np.mConnectRetryMaxTime
      mAuth := np.mAuth
      mX509AuthType := if checksName np then importedX509Type (writtenName np).2 else .tlsremoteRdn
      mx509UsernameField :=
        if checksName np && !VpnProfile.isEmpty np.mx509UsernameField then np.mx509UsernameField else none
      mExcludedRoutes := importedRoutes np (excludedNets np)
      mMssFix := np.mMssFix
      mConnections := np.plainConnections.map (importedConnection np)
      mRemoteRandom := np.mConnections.length ≠ 1 && np.mRemoteRandom
      mCrlFilename := importedFile (!VpnProfile.isEmpty np.mCrlFilename) np.mCrlFilename
      mAuthRetry := if np.isUserPWAuth && np.mAuthRetry = .nointeract then .nointeract else .noneForget
      mTunMtu := importedMtu np
      mPushPeerInfo := np.mPushPeerInfo }

section
variable {np : VpnProfile} {context : DeviceContext} {o : Options} {d : Draft} {names : List String}

/-! ### Options that are read by themselves -/

theorem pull_given (ho : HasLines np context o) : pull d o =
    .ok ({ d with np := { d.np with mUsePull := d.np.mUsePull || np.mUsePull } }, o.without ["pull", "client"]) := by
  have hclient : o.lines "client" = Written.client.one (np.useTLSClient && np.mUsePull) [] := ho.lines .client
  have hpull : o.lines "pull" = Written.pull.one (!np.useTLSClient && np.mUsePull) [] := ho.lines .pull
  have hkey : (o.containsKey "client" || o.containsKey "pull") = np.mUsePull := by
    rw [Options.containsKey_eq, Options.containsKey_eq, hclient, hpull]
    cases np.useTLSClient <;> cases np.mUsePull <;> rfl
  have hremove : (o.remove "pull").remove "client" = o.without ["pull", "client"] := by
    conv_lhs => rw [← Options.without_nil o]
    rw [Options.remove_without, Options.remove_without]
    rfl
  unfold pull
  rw [hkey]
  cases huse : np.mUsePull with
  | false =>
    have hnone : o.without ["pull", "client"] = o := by
      rw [huse, Bool.and_false] at hclient hpull
      have hno : o.remove "pull" = o := Options.remove_of_lines hpull
      rw [← hremove, hno]
      exact Options.remove_of_lines hclient
    rw [hnone, Bool.or_false]
    rfl
  | true =>
    rw [← hremove, Bool.or_true]
    rfl

theorem devOptions_given (ho : HasLines np context o) (hdev : "dev" ∉ names) (htype : "dev-type" ∉ names) :
    devOptions d (o.without names) = .ok (d, o.without ((names ++ ["dev"]) ++ ["dev-type"])) := by
  have hfirst : (o.without names).lines "dev" = [["dev".toList, "tun".toList]] :=
    (Options.lines_without hdev).trans (ho.lines .dev)
  have hsecond : (o.without (names ++ ["dev"])).lines "dev-type" = [] := by
    rw [Options.lines_without (by simpa using htype)]
    exact lines_of_notWritten ho (by decide)
  have hrange : InRange 1 1 ((o.without names).lines "dev") := by
    rw [hfirst]
    exact fun line hline => List.mem_singleton.mp hline ▸ ⟨Nat.le_refl 2, Nat.le_refl 2⟩
  have hrange' : InRange 1 1 ((o.without (names ++ ["dev"])).lines "dev-type") :=
    hsecond ▸ fun _ h => absurd h List.not_mem_nil
  unfold devOptions
  refine run_bind_eq_ok.mpr ⟨_, _, getOption_given hrange, ?_⟩
  rw [Options.remove_without]
  refine run_bind_eq_ok.mpr ⟨_, _, getOption_given hrange', ?_⟩
  rw [Options.remove_without, hfirst, hsecond]
  exact run_bind_eq_ok.mpr ⟨_, _, run_lift_of_ok rfl _, rfl⟩

/-! ### Connections -/

theorem getLast?_timeoutLines (conns : List VpnConnection) :
    (conns.flatMap Written.timeoutLines).getLast? =
      ((conns.filter (·.mConnectTimeout ≠ 0)).getLast?).map fun conn =>
        ["connect-timeout".toList, intText conn.mConnectTimeout] := by
  have hlines : conns.flatMap Written.timeoutLines = (conns.filter (·.mConnectTimeout ≠ 0)).map fun conn =>
      ["connect-timeout".toList, intText conn.mConnectTimeout] := by
    induction conns with
    | nil => rfl
    | cons conn conns ih =>
      rw [List.flatMap_cons, List.filter_cons, ih]
      unfold Written.timeoutLines Written.one
      split <;> rfl
  rw [hlines, List.getLast?_map]

theorem makes_connectTimeout (h : Exportable np) {conn : VpnConnection} (hconn : conn.mConnectTimeout = 0) :
    connectTimeout.Makes (Written.lines np context .connectTimeout) conn
      { conn with mConnectTimeout := importedTimeout np } := by
  have hlast : (Written.lines np context .connectTimeout).getLast? = _ := getLast?_timeoutLines np.plainConnections
  have happly : connectTimeout.apply conn (Written.lines np context .connectTimeout) =
      .ok { conn with mConnectTimeout := importedTimeout np } := by
    simp only [connectTimeout, Setting.last]
    rw [hlast]
    unfold importedTimeout
    cases hfound : (np.plainConnections.filter (·.mConnectTimeout ≠ 0)).getLast? with
    | none =>
      show Except.ok conn = .ok { conn with mConnectTimeout := 0 }
      rw [← hconn]
    | some last =>
      have hmem := List.mem_of_mem_filter (List.mem_of_getLast? hfound)
      have hread : timeoutOf (intText last.mConnectTimeout) = .ok last.mConnectTimeout :=
        parseIntOr_intText (h.remote last (plainConnections_sub hmem)).connectTimeout _
      simp only [Option.map_some, get, List.getElem?_cons_succ, List.getElem?_cons_zero, bind, Except.bind, hread]
      rfl
  refine ⟨fun line hline => ?_, fun hnil => ?_, fun _ => happly⟩
  · obtain ⟨conn, -, hline⟩ := List.mem_flatMap.mp hline
    unfold Written.timeoutLines Written.one at hline
    split at hline
    · rw [List.mem_singleton.mp hline]
      exact ⟨Nat.le_refl 2, Nat.le_refl 2⟩
    · cases hline
  · rw [hnil] at happly
    exact Except.ok.inj happly

theorem makesAll_connectionSettings (ho : HasLines np context o) (h : Exportable np) :
    MakesAll o connectionSettings {} { ({} : VpnConnection) with mConnectTimeout := importedTimeout np } :=
  .absent ho (by decide) (.absent ho (by decide) (.absent ho (by decide)
    (.written ho .connectTimeout rfl (makes_connectTimeout h rfl) .nil)))

theorem mapM_remoteArgs (conn : VpnConnection) (conns : List VpnConnection) :
    (conns.map remoteArgs).mapM (connectTo conn) = Except.ok (conns.map fun remote =>
      { conn with
        mUseUdp := remote.mUseUdp, mServerPort := remote.mServerPort, mServerName := remote.mServerName }) := by
  have hproto : ∀ udp : Bool, isUdpProto (if udp then "udp".toList else "tcp-client".toList) = .ok udp := by
    intro udp
    cases udp <;> rfl
  induction conns with
  | nil => rfl
  | cons remote conns ih =>
    have hconnect : connectTo conn (remoteArgs remote) = .ok
        { conn with mUseUdp := remote.mUseUdp, mServerPort := remote.mServerPort, mServerName := remote.mServerName } := by
      unfold connectTo remoteArgs
      simp only [hproto, bind, Except.bind]
      rfl
    rw [List.map_cons, List.mapM_cons, hconnect, ih]
    rfl

/-- No option is left that belongs to the connections. -/
theorem takeCustom_given (ho : HasLines np context o)
    (hnames : ∀ x : Written, connectionOptions.contains x.name = true → x.name ∈ names) :
    takeCustom order false (o.without names) = .ok ([], o.without names) := by
  have hline : ∀ line ∈ o.without names, connectionOptions.contains line.1 = false := by
    intro line hline
    obtain ⟨hline, hnot⟩ := List.mem_filter.mp hline
    obtain ⟨x, hx, -⟩ := ho.only line hline
    rw [hx] at hnot ⊢
    exact Bool.eq_false_iff.mpr fun hcontains => of_decide_eq_true hnot (hnames x hcontains)
  have hkeys : (order.list (Options.keys (o.without names))).filter (fun name => false || connectionOptions.contains name) =
      [] := by
    refine List.filter_eq_nil_iff.mpr fun name hname => ?_
    obtain ⟨line, hmem, rfl⟩ := List.mem_map.mp (List.mem_dedup.mp ((order.perm _).mem_iff.mp hname))
    rw [Bool.false_or, hline line hmem]
    exact Bool.false_ne_true
  have hall : (o.without names).filter (fun line => !([] : List String).contains line.1) = o.without names :=
    List.filter_eq_self.mpr fun _ _ => rfl
  unfold takeCustom
  dsimp only
  rw [hkeys, hall]
  rfl

theorem absent_given {n : String} {minarg maxarg : Nat} (ho : HasLines np context o) (hn : n ∈ notWritten)
    (hname : n ∉ names) :
    getAllOption n minarg maxarg (o.without names) = .ok (none, o.without (names ++ [n])) := by
  have hlines : (o.without names).lines n = [] := (Options.lines_without hname).trans (lines_of_notWritten ho hn)
  have hrange : InRange minarg maxarg ((o.without names).lines n) := hlines ▸ fun _ h => absurd h List.not_mem_nil
  rw [getAllOption_given hrange, hlines, if_pos rfl, Options.remove_without]

theorem proxyOptions_given (ho : HasLines np context o) (hsocks : "socks-proxy" ∉ names) (hhttp : "http-proxy" ∉ names)
    (conn : VpnConnection) :
    proxyOptions conn (o.without names) = .ok (conn, o.without ((names ++ ["socks-proxy"]) ++ ["http-proxy"])) := by
  have hfirst : getOption "socks-proxy" 1 2 (o.without names) = .ok (none, o.without (names ++ ["socks-proxy"])) :=
    run_bind_eq_ok.mpr ⟨_, _, absent_given ho (by decide) hsocks, rfl⟩
  have hsecond : getOption "http-proxy" 2 2 (o.without (names ++ ["socks-proxy"])) =
      .ok (none, o.without ((names ++ ["socks-proxy"]) ++ ["http-proxy"])) :=
    run_bind_eq_ok.mpr ⟨_, _, absent_given ho (by decide) (by simpa using hhttp), rfl⟩
  unfold proxyOptions getProxy
  refine run_bind_eq_ok.mpr ⟨none, _, run_bind_eq_ok.mpr ⟨_, _, hfirst, hsecond⟩, ?_⟩
  exact run_lift_of_ok rfl _

theorem remote_given (ho : HasLines np context o) (hname : "remote" ∉ names) :
    ∃ remotes, getAllOption "remote" 1 3 (o.without names) = .ok (remotes, o.without (names ++ ["remote"])) ∧
      remotes.getD [] = np.plainConnections.map remoteArgs := by
  have hlines : (o.without names).lines "remote" = np.plainConnections.map remoteArgs :=
    (Options.lines_without hname).trans (ho.lines .remote)
  have hrange : InRange 1 3 ((o.without names).lines "remote") := by
    rw [hlines]
    intro line hline
    obtain ⟨conn, -, rfl⟩ := List.mem_map.mp hline
    exact ⟨Nat.le_add_right 2 2, Nat.le_refl 4⟩
  refine ⟨_, (getAllOption_given hrange).trans (by rw [Options.remove_without]), ?_⟩
  rw [hlines]
  split
  · rename_i hnil
    rw [hnil]
    rfl
  · rfl

theorem parseConnectionOptions_given (order : HashOrder) (ho : HasLines np context o) (h : Exportable np)
    (hnodup : (names ++ connectionLooks).Nodup)
    (hnames : ∀ x : Written, connectionOptions.contains x.name = true → x.name ∈ names ++ connectionLooks) :
    ∃ conn, parseConnectionOptions order none (o.without names) =
      .ok ((conn, np.plainConnections.map (importedConnection np)), o.without (names ++ connectionLooks)) := by
  have hlooks : names ++ connectionLooks = ((((names ++ connectionSettings.map (·.name)) ++ ["socks-proxy"]) ++
      ["http-proxy"]) ++ ["http-proxy-user-pass"]) ++ ["remote"] := by
    have hsplit : connectionLooks =
        connectionSettings.map (·.name) ++ ["socks-proxy", "http-proxy", "http-proxy-user-pass", "remote"] := rfl
    rw [hsplit]
    simp only [List.append_assoc, List.cons_append, List.nil_append]
  rw [hlooks] at hnodup hnames ⊢
  have hnot : ∀ {names : List String} {n : String}, (names ++ [n]).Nodup → n ∉ names := fun h hmem =>
    (List.nodup_append.mp h).2.2 _ hmem _ List.mem_cons_self rfl
  have huser := (List.nodup_append.mp hnodup).1
  have hhttp := (List.nodup_append.mp huser).1
  have hsocks := (List.nodup_append.mp hhttp).1
  have hsettings := (List.nodup_append.mp hsocks).1
  obtain ⟨remotes, hremotes, hlines⟩ := remote_given ho (hnot hnodup)
  rw [parseConnectionOptions_eq]
  refine ⟨withCustom { mConnectTimeout := importedTimeout np } [],
    run_bind_eq_ok.mpr ⟨_, _, readAll_given (makesAll_connectionSettings ho h) hsettings, ?_⟩⟩
  have hhttp' : "http-proxy" ∉ names ++ connectionSettings.map (·.name) := by
    have hnone := hnot hhttp
    rw [List.mem_append] at hnone
    exact fun hmem => hnone (.inl hmem)
  refine run_bind_eq_ok.mpr ⟨_, _, proxyOptions_given ho (hnot hsocks) hhttp' _, ?_⟩
  refine run_bind_eq_ok.mpr ⟨_, _, run_bind_eq_ok.mpr ⟨_, _, absent_given ho (by decide) (hnot huser), rfl⟩, ?_⟩
  refine run_bind_eq_ok.mpr ⟨_, _, hremotes, run_bind_eq_ok.mpr ⟨_, _, takeCustom_given ho hnames, ?_⟩⟩
  rw [hlines]
  exact run_bind_eq_ok.mpr ⟨_, _, run_lift_of_ok (mapM_remoteArgs _ _) _, rfl⟩

theorem connections_given (ho : HasLines np context o) (h : Exportable np)
    (hnodup : (names ++ (connectionLooks ++ ["connection"])).Nodup)
    (hnames : ∀ x : Written, connectionOptions.contains x.name = true → x.name ∈ names ++ connectionLooks) :
    connections order d (o.without names) = .ok
      ({ d with np := { d.np with mConnections := np.plainConnections.map (importedConnection np) } },
        o.without (names ++ (connectionLooks ++ ["connection"]))) := by
  rw [← List.append_assoc] at hnodup ⊢
  have hnot : "connection" ∉ names ++ connectionLooks := fun hmem =>
    (List.nodup_append.mp hnodup).2.2 _ hmem _ List.mem_cons_self rfl
  obtain ⟨conn, hconn⟩ := parseConnectionOptions_given order ho h (List.nodup_append.mp hnodup).1 hnames
  unfold connections
  refine run_bind_eq_ok.mpr ⟨_, _, hconn, run_bind_eq_ok.mpr ⟨_, _, absent_given ho (by decide) hnot, ?_⟩⟩
  exact run_bind_eq_ok.mpr ⟨_, _, run_lift_of_ok rfl _, rfl⟩

/-! ### What is left -/

/-- Every option that is left is ignored. -/
theorem checkIgnoreAndInvalidOptions_given (order : HashOrder) (d : Draft) (ho : HasLines np context o)
    (hnames : ∀ x : Written, x.name ∈ names ∨ x.name ∈ ignoreOptions ∨ x = .setenv ∨ x = .resolvRetry) :
    ∃ t, checkIgnoreAndInvalidOptions order d (o.without names) = .ok (d, t) := by
  have hnone : unsupportedOptions.find? (o.without names).containsKey = none := by
    refine List.find?_eq_none.mpr fun n hn => ?_
    have hlines : (o.without names).lines n = [] := by
      refine List.map_eq_nil_iff.mpr (List.filter_eq_nil_iff.mpr fun line hline => ?_)
      have hempty := lines_of_notWritten ho ((by decide : ∀ n ∈ unsupportedOptions, n ∈ notWritten) n hn)
      exact List.filter_eq_nil_iff.mp (List.map_eq_nil_iff.mp hempty) line (List.mem_of_mem_filter hline)
    rw [Options.containsKey_eq, hlines]
    exact Bool.false_ne_true
  have hignored : List.all ((o.without names).filter fun line => !ignoreOptions.contains line.1) (fun line =>
      ignoreThisOption line.2) = true := by
    refine List.all_eq_true.mpr fun line hline => ?_
    obtain ⟨hline, hkept⟩ := List.mem_filter.mp hline
    obtain ⟨hline, hleft⟩ := List.mem_filter.mp hline
    obtain ⟨x, hx, hmem⟩ := ho.only line hline
    rw [hx] at hkept hleft
    rcases hnames x with hread | hignore | rfl | rfl
    · exact absurd hread (of_decide_eq_true hleft)
    · rw [List.contains_iff_mem.mpr hignore] at hkept
      cases hkept
    · have hall : ∀ args ∈ Written.lines np context .setenv, ignoreThisOption args = true :=
        List.forall_mem_cons.mpr ⟨rfl, List.forall_mem_cons.mpr ⟨rfl, List.forall_mem_singleton.mpr rfl⟩⟩
      exact hall _ hmem
    · rw [List.mem_singleton.mp hmem]
      rfl
  unfold checkIgnoreAndInvalidOptions customOptions
  rw [hnone]
  dsimp only
  rw [if_pos hignored]
  exact ⟨_, rfl⟩

/-! ### The settings, one group after the other -/

theorem MakesAll.of_eq {α : Type} {settings : List (Setting α)} {a b c : α} (h : MakesAll o settings a b) (hb : b = c) :
    MakesAll o settings a c := hb ▸ h

def pulled (np : VpnProfile) : Draft := { np := { newDraft.np with mUsePull := np.mUsePull } }

/-- With the key and the routes. -/
def routed (np : VpnProfile) : Draft where
  noauthtypeset := !writesKey np .secret
  np := { (pulled np).np with
    mAuthenticationType := if writesKey np .secret then .statickeys else .keystore
    mUseTLSAuth := np.mUseTLSAuth
    mTLSAuthFilename := importedFile np.mUseTLSAuth np.mTLSAuthFilename
    mTLSAuthDirection := importedDirection np
    mCustomRoutes := importedRoutes np (includedNets np)
    mExcludedRoutes := importedRoutes np (excludedNets np)
    mCustomRoutesv6 := (netsV6 np).flatMap (· ++ [' '])
    mRoutenopull := np.mUsePull && np.mRoutenopull }

/-- The key is written as one option, whichever it is. -/
theorem writesKey_eq (np : VpnProfile) : (((writesKey np .secret || writesKey np .tlsAuth) || writesKey np .tlsCrypt) ||
    writesKey np .tlsCryptV2) = np.mUseTLSAuth := by
  unfold writesKey
  cases np.mUseTLSAuth with
  | false => rfl
  | true => rcases keyOption_cases np with h | h | h | h <;> simp [h]

theorem importedFile_eq (np : VpnProfile) (file : Option (List Char)) :
    (if writesKey np .tlsCryptV2 then file else if writesKey np .tlsCrypt then file else
      if writesKey np .tlsAuth then file else if writesKey np .secret then file else none) =
      if np.mUseTLSAuth then file else none := by
  rw [← writesKey_eq]
  cases writesKey np .secret <;> cases writesKey np .tlsAuth <;> cases writesKey np .tlsCrypt <;>
    cases writesKey np .tlsCryptV2 <;> rfl

theorem importedDirection_eq (np : VpnProfile) :
    (if writesKey np .tlsCryptV2 then "tls-crypt-v2".toList else if writesKey np .tlsCrypt then "tls-crypt".toList else
      if writesDirection np then np.mTLSAuthDirection else []) = importedDirection np := by
  have hsecret : (keyOption np = .tlsCrypt → np.mTLSAuthDirection = "tls-crypt".toList) ∧
      (keyOption np = .tlsCryptV2 → np.mTLSAuthDirection = "tls-crypt-v2".toList) ∧
      (keyOption np = .tlsAuth → np.useTlsCrypt = false ∧ np.useTlsCrypt2 = false) := by
    unfold keyOption
    split_ifs with h1 h2 h3
    · exact ⟨nofun, nofun, nofun⟩
    · exact ⟨fun _ => of_decide_eq_true h2, nofun, nofun⟩
    · exact ⟨nofun, fun _ => of_decide_eq_true h3, nofun⟩
    · exact ⟨nofun, nofun, fun _ => ⟨Bool.eq_false_iff.mpr h2, Bool.eq_false_iff.mpr h3⟩⟩
  unfold writesKey writesDirection importedDirection
  generalize "tls-crypt".toList = crypt at hsecret ⊢
  generalize "tls-crypt-v2".toList = crypt2 at hsecret ⊢
  obtain ⟨hcrypt, hcrypt2, hauth⟩ := hsecret
  cases np.mUseTLSAuth with
  | false => rfl
  | true =>
    rcases keyOption_cases np with h | h | h | h
    · by_cases hnil : np.mTLSAuthDirection = [] <;>
        cases np.useTlsCrypt <;> cases np.useTlsCrypt2 <;> simp [h, hnil]
    · simp [h, hcrypt h]
    · simp [h, hcrypt2 h]
    · obtain ⟨hno, hno2⟩ := hauth h
      by_cases hnil : np.mTLSAuthDirection = [] <;> simp [h, hno, hno2, hnil]

theorem makes_keyDirection (hd : d.np.mTLSAuthDirection = []) :
    keyDirection.Makes (Written.lines np context .keyDirection) d
      { d with
        np := { d.np with mTLSAuthDirection := if writesDirection np then np.mTLSAuthDirection else [] } } := by
  refine makes_value ⟨(·.mTLSAuthDirection), fun np direction => { np with mTLSAuthDirection := direction }, fun _ => rfl⟩
    (fun hc _ => ?_) fun hc => ?_
  · rw [if_pos hc]
  · rw [hc]
    exact hd

theorem makesAll_routed (ho : HasLines np context o) (h : Exportable np) :
    MakesAll o (routeSettings ++ tunnelSettings) (pulled np) (routed np) := by
  have hnopull : ∀ {d : Draft}, d.np.mRoutenopull = false → routeNopull.Makes (Written.lines np context .routeNopull) d
      { d with np := { d.np with mRoutenopull := np.mUsePull && np.mRoutenopull } } :=
    makes_flag ⟨(·.mRoutenopull), fun np b => { np with mRoutenopull := b }, fun _ => rfl⟩ fun _ => rfl
  refine MakesAll.of_eq
    (.written ho .secret rfl (makes_secret h) (.written ho .route rfl (makes_route rfl rfl)
      (.written ho .routeIpv6 rfl (makes_routeIpv6 rfl) (.written ho .routeNopull rfl (hnopull rfl)
      (.written ho .tlsAuth rfl (makes_tlsAuth h) (.written ho .keyDirection rfl (makes_keyDirection rfl)
      (.written ho .tlsCrypt rfl (makes_tlsCryptOf h) (.written ho .tlsCryptV2 rfl (makes_tlsCryptOf h)
      (.absent ho (by decide) (.absent ho (by decide) .nil)))))))))) ?_
  unfold routed importedFile
  rw [← importedDirection_eq, ← importedFile_eq, ← writesKey_eq np]
  rfl

/-- With the addresses, the servers and the certificates. -/
def equipped (np : VpnProfile) : Draft where
  noauthtypeset := (!writesKey np .secret && !np.usesCertificates) && !usesPkcs12 np
  np := { (routed np).np with
    mMssFix := np.mMssFix
    mTunMtu := importedMtu np
    mDNS1 := (importedServers np).1
    mDNS2 := (importedServers np).2
    mOverrideDNS := writtenServers np ≠ []
    mSearchDomain := importedDomain np
    mIPv4Address := importedAddress np
    mUseRandomHostname := np.mUseRandomHostname
    mUseFloat := np.mUseFloat
    mUseLzo := np.mUseLzo
    mCipher := np.mCipher
    mAuth := np.mAuth
    mCaFilename := importedFile (writesCa np) np.mCaFilename
    mClientCertFilename := importedFile np.usesCertificates np.mClientCertFilename
    mClientKeyFilename := importedFile np.usesCertificates np.mClientKeyFilename
    mPKCS12Filename := importedFile (usesPkcs12 np) np.mPKCS12Filename
    mAuthenticationType :=
      if usesPkcs12 np then .keystore
      else if np.usesCertificates then .certificates
      else if writesKey np .secret then .statickeys
      else .keystore }

/-- A text that is written if there is one. -/
theorem makes_text {name : String} {set : VpnProfile → List Char → VpnProfile} (x : Written) (f : Field (List Char))
    (text : List Char) (hset : ∀ np w, set np w = f.set np w) (hd : f.get d.np = []) :
    (value name set).Makes (x.one (text ≠ []) [text]) d { d with np := f.set d.np text } :=
  makes_value f (fun _ np => hset np text) fun hc => hd.trans (Decidable.not_not.mp (of_decide_eq_false hc)).symm

theorem makesAll_equipped (ho : HasLines np context o) (h : Exportable np) :
    MakesAll o deviceSettings (routed np) (equipped np) := by
  have hhostname : ∀ {d : Draft}, d.np.mUseRandomHostname = false →
      remoteRandomHostname.Makes (Written.lines np context .remoteRandomHostname) d
        { d with np := { d.np with mUseRandomHostname := np.mUseRandomHostname } } :=
    makes_flag ⟨(·.mUseRandomHostname), fun np b => { np with mUseRandomHostname := b }, fun _ => rfl⟩ fun _ => rfl
  have hfloat : ∀ {d : Draft}, d.np.mUseFloat = false → float.Makes (Written.lines np context .float) d
      { d with np := { d.np with mUseFloat := np.mUseFloat } } :=
    makes_flag ⟨(·.mUseFloat), fun np b => { np with mUseFloat := b }, fun _ => rfl⟩ fun _ => rfl
  have hlzo : ∀ {d : Draft}, d.np.mUseLzo = false → compLzo.Makes (Written.lines np context .compLzo) d
      { d with np := { d.np with mUseLzo := np.mUseLzo } } :=
    makes_flag ⟨(·.mUseLzo), fun np b => { np with mUseLzo := b }, fun _ => rfl⟩ fun _ => rfl
  have hcipher : ∀ {d : Draft}, d.np.mCipher = [] → cipher.Makes (Written.lines np context .cipher) d
      { d with np := { d.np with mCipher := np.mCipher } } :=
    makes_text .cipher ⟨(·.mCipher), fun np cipher => { np with mCipher := cipher }, fun _ => rfl⟩ _ fun _ _ => rfl
  have hauth : ∀ {d : Draft}, d.np.mAuth = [] → auth.Makes (Written.lines np context .auth) d
      { d with np := { d.np with mAuth := np.mAuth } } :=
    makes_text .auth ⟨(·.mAuth), fun np auth => { np with mAuth := auth }, fun _ => rfl⟩ _ fun _ _ => rfl
  have hca : ∀ {d : Draft}, d.np.mCaFilename = none → ca.Makes (Written.lines np context .ca) d
      { d with np := { d.np with mCaFilename := importedFile (writesCa np) np.mCaFilename } } :=
    makes_file ⟨(·.mCaFilename), fun np ca => { np with mCaFilename := ca }, fun _ => rfl⟩ h.ca fun _ _ => rfl
  have hkey : ∀ {d : Draft}, d.np.mClientKeyFilename = none → key.Makes (Written.lines np context .key) d
      { d with np := { d.np with mClientKeyFilename := importedFile np.usesCertificates np.mClientKeyFilename } } :=
    makes_file ⟨(·.mClientKeyFilename), fun np key => { np with mClientKeyFilename := key }, fun _ => rfl⟩ h.key
      fun _ _ => rfl
  have hcert : ∀ {d : Draft}, d.np.mClientCertFilename = none → cert.Makes (Written.lines np context .cert) d
      { d with
        noauthtypeset := d.noauthtypeset && !np.usesCertificates
        np := { d.np with
          mClientCertFilename := importedFile np.usesCertificates np.mClientCertFilename
          mAuthenticationType := if np.usesCertificates then .certificates else d.np.mAuthenticationType } } :=
    makes_credential ⟨(·.mClientCertFilename), fun np cert => { np with mClientCertFilename := cert }, fun _ => rfl⟩
      .certificates h.cert fun _ _ => rfl
  have hpkcs12 : ∀ {d : Draft}, d.np.mPKCS12Filename = none → pkcs12.Makes (Written.lines np context .pkcs12) d
      { d with
        noauthtypeset := d.noauthtypeset && !usesPkcs12 np
        np := { d.np with
          mPKCS12Filename := importedFile (usesPkcs12 np) np.mPKCS12Filename
          mAuthenticationType := if usesPkcs12 np then .keystore else d.np.mAuthenticationType } } :=
    makes_credential ⟨(·.mPKCS12Filename), fun np pkcs12 => { np with mPKCS12Filename := pkcs12 }, fun _ => rfl⟩
      .keystore h.pkcs12 fun _ _ => rfl
  refine MakesAll.of_eq
    (.written ho .mssfix rfl (makes_mssfix h rfl) (.written ho .tunMtu rfl (makes_tunMtu h rfl)
      (.absent ho (by decide) (.written ho .dhcpOption rfl (makes_dhcpOption rfl rfl rfl rfl)
      (.written ho .ifconfig rfl (makes_ifconfig rfl) (.written ho .remoteRandomHostname rfl (hhostname rfl)
      (.written ho .float rfl (hfloat rfl) (.written ho .compLzo rfl (hlzo rfl)
      (.written ho .cipher rfl (hcipher rfl) (.written ho .auth rfl (hauth rfl) (.written ho .ca rfl (hca rfl)
      (.written ho .cert rfl (hcert rfl) (.written ho .key rfl (hkey rfl) (.written ho .pkcs12 rfl (hpkcs12 rfl)
      (.absent ho (by decide) .nil))))))))))))))) ?_
  rfl

def named (np : VpnProfile) : Draft :=
  { equipped np with
    np := withName (equipped np).np (checksName np && isTlsRemote (writtenName np).2) ((writtenName np).1, .tlsremote) }

/-- With the name of the other side and the retries. -/
def verified (np : VpnProfile) : Draft :=
  { equipped np with
    np := { (equipped np).np with
      mRemoteCN := if checksName np then (writtenName np).1 else []
      mCheckRemoteCN := checksName np
      mX509AuthType := if checksName np then importedX509Type (writtenName np).2 else .tlsremoteRdn
      mx509UsernameField :=
        if checksName np && !VpnProfile.isEmpty np.mx509UsernameField then np.mx509UsernameField else none
      mVerb := "4".toList
      mNobind := np.mNobind
      mPersistTun := np.mPersistTun
      mPushPeerInfo := np.mPushPeerInfo
      mConnectRetry := if np.mConnectRetry = [] then "2".toList else np.mConnectRetry
      mConnectRetryMaxTime := if np.mConnectRetryMaxTime = [] then "300".toList else np.mConnectRetryMaxTime
      mConnectRetryMax := np.mConnectRetryMax } }

/-- Either option gives the name. -/
theorem withName_withName {p : VpnProfile} (hname : p.mRemoteCN = []) (hchecks : p.mCheckRemoteCN = false)
    (htype : p.mX509AuthType = .tlsremoteRdn) (np : VpnProfile) :
    withName (withName p (checksName np && isTlsRemote (writtenName np).2) ((writtenName np).1, .tlsremote))
        (checksName np && !isTlsRemote (writtenName np).2) (writtenName np) =
      { p with
        mRemoteCN := if checksName np then (writtenName np).1 else []
        mCheckRemoteCN := checksName np
        mX509AuthType := if checksName np then importedX509Type (writtenName np).2 else .tlsremoteRdn } := by
  unfold withName
  generalize writtenName np = name
  obtain ⟨name, type⟩ := name
  rw [hname, hchecks, htype]
  cases checksName np <;> cases type <;> rfl

theorem makes_x509UsernameField (hd : d.np.mx509UsernameField = none) :
    x509UsernameField.Makes (Written.lines np context .x509UsernameField) d
      { d with
        np := { d.np with
          mx509UsernameField :=
            if checksName np && !VpnProfile.isEmpty np.mx509UsernameField then np.mx509UsernameField else none } } := by
  refine makes_value
    ⟨(·.mx509UsernameField), fun np field => { np with mx509UsernameField := field }, fun _ => rfl⟩ (fun hc _ => ?_)
    fun hc => ?_
  · rw [if_pos hc]
    cases hfield : np.mx509UsernameField with
    | none =>
      rw [hfield] at hc
      exact absurd (Bool.and_eq_true_iff.mp hc).2 Bool.false_ne_true
    | some field => rfl
  · rw [hc]
    exact hd

theorem makesAll_verified (ho : HasLines np context o) : MakesAll o verifySettings (named np) (verified np) := by
  have hverb : ∀ {d : Draft}, verb.Makes (Written.lines np context .verb) d
      { d with np := { d.np with mVerb := "4".toList } } :=
    makes_value ⟨(·.mVerb), fun np verb => { np with mVerb := verb }, fun _ => rfl⟩ (fun _ _ => rfl) nofun
  have hnobind : ∀ {d : Draft}, d.np.mNobind = false → nobind.Makes (Written.lines np context .nobind) d
      { d with np := { d.np with mNobind := np.mNobind } } :=
    makes_flag ⟨(·.mNobind), fun np b => { np with mNobind := b }, fun _ => rfl⟩ fun _ => rfl
  have hpersist : ∀ {d : Draft}, d.np.mPersistTun = false → persistTun.Makes (Written.lines np context .persistTun) d
      { d with np := { d.np with mPersistTun := np.mPersistTun } } :=
    makes_flag ⟨(·.mPersistTun), fun np b => { np with mPersistTun := b }, fun _ => rfl⟩ fun _ => rfl
  have hpush : ∀ {d : Draft}, d.np.mPushPeerInfo = false → pushPeerInfo.Makes (Written.lines np context .pushPeerInfo) d
      { d with np := { d.np with mPushPeerInfo := np.mPushPeerInfo } } :=
    makes_flag ⟨(·.mPushPeerInfo), fun np b => { np with mPushPeerInfo := b }, fun _ => rfl⟩ fun _ => rfl
  refine MakesAll.of_eq
    (.written ho .verifyX509Name rfl makes_verifyX509Name (.written ho .x509UsernameField rfl (makes_x509UsernameField rfl)
      (.written ho .verb rfl hverb (.written ho .nobind rfl (hnobind rfl) (.written ho .persistTun rfl (hpersist rfl)
      (.written ho .pushPeerInfo rfl (hpush rfl) (.written ho .connectRetry rfl makes_connectRetry
      (.written ho .connectRetryMax rfl (makes_connectRetryMax rfl) .nil)))))))) ?_
  unfold named
  dsimp only
  rw [withName_withName rfl rfl rfl]
  rfl

/-- With what is asked at the login. -/
def loggedIn (np : VpnProfile) : Draft :=
  { verified np with
    np := { (verified np).np with
      mExpectTLSCert := checksCertificate np && np.mExpectTLSCert
      mAuthenticationType := importedType np
      mAuthRetry := if np.isUserPWAuth && np.mAuthRetry = .nointeract then .nointeract else .noneForget
      mCrlFilename := importedFile (!VpnProfile.isEmpty np.mCrlFilename) np.mCrlFilename } }

theorem writesKey_secret (np : VpnProfile) :
    writesKey np .secret = (np.mUseTLSAuth && np.mAuthenticationType = .statickeys) := by
  unfold writesKey keyOption
  split_ifs with htype <;> simp [htype]

theorem importedType_eq (h : Exportable np) :
    (if np.isUserPWAuth then userpassType (equipped np).noauthtypeset (equipped np).np.mAuthenticationType
      else (equipped np).np.mAuthenticationType) = importedType np := by
  have htype := h.authenticationType
  unfold equipped importedType VpnProfile.isUserPWAuth usesPkcs12 VpnProfile.usesCertificates
  rw [writesKey_secret]
  cases hnp : np.mAuthenticationType with
  | keystore | userpassKeystore | externalApp => exact absurd (by simp [hnp]) htype
  | statickeys => cases np.mUseTLSAuth <;> simp
  | _ => simp [userpassType]

theorem makesAll_loggedIn (ho : HasLines np context o) (h : Exportable np) :
    MakesAll o loginSettings
      { verified np with
        np := { (verified np).np with mExpectTLSCert := checksCertificate np && np.mExpectTLSCert } } (loggedIn np) := by
  refine MakesAll.of_eq
    (.written ho .authUserPass rfl makes_authUserPass (.written ho .authRetry rfl makes_authRetry
      (.written ho .crlVerify rfl (makes_crlVerify h rfl) .nil))) ?_
  unfold loggedIn
  rw [← importedType_eq h]
  rfl

/-- The draft at the end. -/
def connected (np : VpnProfile) : Draft :=
  { loggedIn np with
    np := { (loggedIn np).np with
      mConnections := np.plainConnections.map (importedConnection np)
      mRemoteRandom := np.mConnections.length ≠ 1 && np.mRemoteRandom } }

theorem fixup_connected (np : VpnProfile) : fixup (connected np).np = imported np := rfl

theorem makesAll_connected (ho : HasLines np context o) : MakesAll o [remoteRandom, protoForce]
    { loggedIn np with
      np := { (loggedIn np).np with mConnections := np.plainConnections.map (importedConnection np) } }
    (connected np) := by
  have hrandom : ∀ {d : Draft}, d.np.mRemoteRandom = false → remoteRandom.Makes (Written.lines np context .remoteRandom) d
      { d with np := { d.np with mRemoteRandom := np.mConnections.length ≠ 1 && np.mRemoteRandom } } :=
    makes_flag ⟨(·.mRemoteRandom), fun np b => { np with mRemoteRandom := b }, fun _ => rfl⟩ fun _ => rfl
  exact .written ho .remoteRandom rfl (hrandom rfl) (.absent ho (by decide) .nil)

/-! ### The whole profile -/

/-- The options that are read before the device, the name, the use of the certificate, the connections, and all. -/
def namesRouted : List String := ["pull", "client"] ++ (routeSettings ++ tunnelSettings).map (·.name)

def namesEquipped : List String := namesRouted ++ ["dev"] ++ ["dev-type"] ++ deviceSettings.map (·.name)

def namesVerified : List String :=
  namesEquipped ++ ["compat-names"] ++ ["no-name-remapping"] ++ ["tls-remote"] ++ verifySettings.map (·.name)

def namesLoggedIn : List String := namesVerified ++ ["remote-cert-tls"] ++ loginSettings.map (·.name)

def namesRead : List String :=
  namesLoggedIn ++ (connectionLooks ++ ["connection"]) ++ [remoteRandom, protoForce].map (·.name)

theorem nodup_namesRead : namesRead.Nodup := by decide

theorem nodup_namesConnected : (namesLoggedIn ++ (connectionLooks ++ ["connection"])).Nodup :=
  (List.nodup_append.mp nodup_namesRead).1

theorem nodup_namesLoggedIn : namesLoggedIn.Nodup := (List.nodup_append.mp nodup_namesConnected).1

theorem nodup_namesVerified : namesVerified.Nodup :=
  (List.nodup_append.mp (List.nodup_append.mp nodup_namesLoggedIn).1).1

theorem convert_given (order : HashOrder) (ho : HasLines np context o) (h : Exportable np) :
    ∃ t, convert order [] newDraft o = .ok (connected np, t) := by
  have hconnection : ∀ x : Written, connectionOptions.contains x.name = true → x.name ∈ namesLoggedIn ++ connectionLooks := by
    intro x
    cases x <;> decide
  have hleft : ∀ x : Written, x.name ∈ namesRead ∨ x.name ∈ ignoreOptions ∨ x = .setenv ∨ x = .resolvRetry := by
    intro x
    cases x <;> decide
  obtain ⟨t, hrest⟩ := checkIgnoreAndInvalidOptions_given order (connected np) ho hleft
  have hrouted : readAll (routeSettings ++ tunnelSettings) (pulled np) (o.without ["pull", "client"]) =
      .ok (routed np, o.without namesRouted) := readAll_given (makesAll_routed ho h) (by decide)
  have hequipped : readAll deviceSettings (routed np) (o.without (namesRouted ++ ["dev"] ++ ["dev-type"])) =
      .ok (equipped np, o.without namesEquipped) := readAll_given (makesAll_equipped ho h) (by decide)
  have hverified : readAll verifySettings (named np)
      (o.without (namesEquipped ++ ["compat-names"] ++ ["no-name-remapping"] ++ ["tls-remote"])) =
      .ok (verified np, o.without namesVerified) := readAll_given (makesAll_verified ho) nodup_namesVerified
  have hloggedIn := readAll_given (makesAll_loggedIn ho h) nodup_namesLoggedIn
  have hlast := readAll_given (makesAll_connected ho) nodup_namesRead
  unfold convert
  refine ⟨t, run_bind_eq_ok.mpr ⟨pulled np, _, pull_given ho, run_bind_eq_ok.mpr ⟨_, _, hrouted, ?_⟩⟩⟩
  refine run_bind_eq_ok.mpr ⟨_, _, devOptions_given ho (by decide) (by decide), ?_⟩
  refine run_bind_eq_ok.mpr ⟨_, _, hequipped, ?_⟩
  refine run_bind_eq_ok.mpr ⟨named np, _, tlsRemoteOptions_given ho (by decide), ?_⟩
  refine run_bind_eq_ok.mpr ⟨_, _, hverified, run_bind_eq_ok.mpr ⟨_, _, remoteCertTls_given ho (by decide), ?_⟩⟩
  refine run_bind_eq_ok.mpr ⟨_, _, hloggedIn, ?_⟩
  refine run_bind_eq_ok.mpr ⟨_, _, connections_given ho h nodup_namesConnected hconnection, ?_⟩
  exact run_bind_eq_ok.mpr ⟨_, _, hlast, hrest⟩

/-- A profile that is written and imported comes back as `imported` says. -/
theorem parseAndConvert_getConfigFile (order : HashOrder) (hcontext : IsContext context) (h : Exportable np) :
    ∃ text, np.getConfigFile context false = some text ∧ parseAndConvert order text = .ok (imported np) := by
  obtain ⟨text, o, htext, hparse, ho⟩ := parseConfig_getConfigFile hcontext h
  obtain ⟨t, hconvert⟩ := convert_given order ho h
  refine ⟨text, htext, ?_⟩
  have hprofile : convertProfile order { options := o, metas := [] } =
      .ok (fixup (connected np).np, (connected np).auth_user_pass_file) := by
    rw [convertProfile_eq, hconvert]
    rfl
  unfold parseAndConvert
  rw [hparse]
  show (convertProfile order { options := o, metas := [] } >>= fun r => pure r.1) = _
  rw [hprofile, ← fixup_connected]
  rfl

end

def phone : DeviceContext where
  cacheDir := "/data/cache".toList
  versionEnvString := "de.blinkt.openvpn 0.7".toList
  platformVersionEnvString := "33 13 arm64-v8a".toList

/-- Two connections, a network of its own, a key of `tls-crypt`, and a name that is checked. -/
def home : VpnProfile where
  mName := "home".toList
  mAuthenticationType := .userpass
  mCaFilename := some "[[INLINE]]-----BEGIN CERTIFICATE-----\n-----END CERTIFICATE-----".toList
  mUseTLSAuth := true
  mTLSAuthFilename := some "[[INLINE]]-----BEGIN OpenVPN Static key V1-----".toList
  mTLSAuthDirection := "tls-crypt".toList
  mUseLzo := false
  mOverrideDNS := true
  mDNS1 := "9.9.9.9".toList
  mUseDefaultRoute := false
  mCustomRoutes := some "10.0.0.0/8 192.168.1.1".toList
  mRemoteCN := "vpn home".toList
  mCipher := "AES-256-GCM".toList
  mConnections :=
    [{ mServerName := "vpn.example.com".toList, mConnectTimeout := 10 },
     { mServerName := "vpn.example.com".toList, mServerPort := "443".toList, mUseUdp := false }]

theorem isFile_of_inline {n : String} {filedata : List Char} (hembedded : VpnProfile.isEmbedded filedata = true)
    (h : Block n.toList (VpnProfile.getEmbeddedContent filedata)) : IsFile n filedata :=
  ⟨fun _ => h, fun hno => absurd (hembedded.symm.trans hno) (by decide),
    fun hno => absurd (hembedded.symm.trans hno) (by decide)⟩

theorem exportable_home : Exportable home where
  authenticationType := by decide
  useCustomConfig := rfl
  connections := List.cons_ne_nil _ _
  remote := by
    have hremote : ∀ conn : VpnConnection, conn.isOnlyRemote = true ∧ Word conn.mServerName ∧ Word conn.mServerPort ∧
        -2147483648 ≤ conn.mConnectTimeout ∧ conn.mConnectTimeout ≤ 2147483647 → IsRemote conn :=
      fun conn ⟨honly, hname, hport, hlower, hupper⟩ => ⟨honly, hname, hport, ⟨hlower, hupper⟩⟩
    exact List.forall_mem_cons.mpr ⟨hremote _ (by decide), List.forall_mem_singleton.mpr (hremote _ (by decide))⟩
  connectRetryMax := by decide
  connectRetry _ := by decide
  connectRetryMaxTime _ := by decide
  ca _ := ⟨_, rfl, isFile_of_inline (by decide)
    ⟨isName_of_alphanum (Text.forall_of_all (by decide)), by decide, by decide, by decide⟩⟩
  key := nofun
  cert := nofun
  pkcs12 := nofun
  crl := nofun
  tlsAuth _ := ⟨_, rfl, isFile_of_inline (by decide)
    ⟨isName_of_alphanum (Text.forall_of_all (by decide)), by decide, by decide, by decide⟩⟩
  notInline := by decide
  direction := by decide
  address := nofun
  addressV6 := by decide
  included := by decide
  excluded := by decide
  netsV6 := by decide
  servers := by decide
  domain := by decide
  mssFix := ⟨by decide, by decide⟩
  tunMtu := ⟨by decide, by decide⟩
  checkedName _ := ⟨Text.forall_of_all (by decide),
    .inl ⟨.inr ⟨' ', by decide, .inr (.inr (.inl rfl))⟩, Text.forall_of_all (by decide)⟩⟩
  x509UsernameField := nofun
  cipher _ := by decide
  auth h := absurd rfl h

theorem parseAndConvert_getConfigFile_home : ∃ text, home.getConfigFile phone false = some text ∧
    parseAndConvert fileOrder text = .ok (imported home) := by
  have hspace : ∀ {w : List Char}, ' ' ∈ w → w.all (fun c => decide (c ≠ '\n' ∧ c ≠ '\r' ∧ c ≠ '\x00')) = true →
      (w.drop 1).all (fun c => decide (¬(c = '\\' ∨ c = '"'))) = true → Escapable w := fun hw hplain hback =>
    ⟨Text.forall_of_all hplain, .inl ⟨.inr ⟨' ', hw, .inr (.inr (.inl rfl))⟩, Text.forall_of_all hback⟩⟩
  have hcontext : IsContext phone :=
    ⟨by decide, hspace (by decide) (by decide) (by decide), hspace (by decide) (by decide) (by decide)⟩
  exact parseAndConvert_getConfigFile fileOrder hcontext exportable_home

end ConfigParser
end NicVpn
