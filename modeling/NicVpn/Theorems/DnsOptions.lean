import NicVpn.Theorems.Untouched

/-! The DNS servers of a configuration. The first one is recognised by the default that it replaces, every later one
    replaces the second field, and what is not replaced is written out as a server. -/

namespace NicVpn
namespace ConfigParser
open Taking

/-- The servers of the `dhcp-option` lines. -/
def serversOf (lines : List Args) : List (List Char) :=
  lines.filterMap fun args => if args[1]? = some "DNS".toList then args[2]? else none

def dnsArgs (o : Options) : List (List Char) := serversOf ((o.all "dhcp-option").getD [])

/-- The two fields with one more server. -/
def addServer (s : List Char × List Char) (server : List Char) : List Char × List Char :=
  if s.1 = VpnProfile.defaultDns1 then (server, s.2) else (s.1, server)

def Networks.servers (n : Networks) : List Char × List Char := (n.dns1, n.dns2)

/-- The servers and whether they count. -/
def Networks.dns (n : Networks) : (List Char × List Char) × Bool := (n.servers, n.overrideDns)

/-! ### The fields -/

theorem foldl_addServer_of_ne {a : List Char} (h : a ≠ VpnProfile.defaultDns1) (b : List Char) (ds : List (List Char)) :
    ds.foldl addServer (a, b) = (a, ds.getLast?.getD b) := by
  induction ds generalizing b with
  | nil => rfl
  | cons d ds ih =>
    have hstep : addServer (a, b) d = (a, d) := if_neg h
    rw [List.foldl_cons, hstep, ih, List.getLast?_cons]
    rfl

/-- If the first field is the default in the end, no other server was read. -/
theorem foldl_addServer_default {b : List Char} {ds : List (List Char)}
    (h : (ds.foldl addServer (VpnProfile.defaultDns1, b)).1 = VpnProfile.defaultDns1) :
    (ds.foldl addServer (VpnProfile.defaultDns1, b)).2 = b ∧ ∀ d ∈ ds, d = VpnProfile.defaultDns1 := by
  induction ds with
  | nil => exact ⟨rfl, fun _ h => absurd h List.not_mem_nil⟩
  | cons d ds ih =>
    have hstep : addServer (VpnProfile.defaultDns1, b) d = (d, b) := if_pos rfl
    rw [List.foldl_cons, hstep] at h ⊢
    by_cases hd : d = VpnProfile.defaultDns1
    · rw [hd] at h ⊢
      obtain ⟨hsecond, hds⟩ := ih h
      exact ⟨hsecond, List.forall_mem_cons.mpr ⟨rfl, hds⟩⟩
    · rw [foldl_addServer_of_ne hd] at h
      exact absurd h hd

theorem addDhcpOption_eq_ok {np np' : VpnProfile} {args : Args} (h : addDhcpOption np args = .ok np') :
    (networks np').servers = (serversOf [args]).foldl addServer (networks np).servers ∧
      np'.mOverrideDNS = (np.mOverrideDNS || !(serversOf [args]).isEmpty) := by
  unfold addDhcpOption get at h
  cases htype : args[1]? with
  | none =>
    rw [htype] at h
    cases h
  | some type =>
    cases harg : args[2]? with
    | none =>
      rw [htype, harg] at h
      cases h
    | some arg =>
      simp only [htype, harg, bind, Except.bind] at h
      have hnone : type ≠ "DNS".toList → serversOf [args] = [] := by
        intro hne
        have hcond : ¬args[1]? = some "DNS".toList := fun heq => hne (Option.some.inj (htype.symm.trans heq))
        exact List.filterMap_cons_none (if_neg hcond)
      split at h
      · rename_i hdomain
        cases h
        rw [hnone (by rw [hdomain]; decide)]
        exact ⟨rfl, (Bool.or_false _).symm⟩
      · split at h
        · rename_i hdns
          have hone : serversOf [args] = [arg] := by simp [serversOf, htype, hdns, harg]
          rw [hone, List.foldl_cons, List.foldl_nil, addServer]
          split at h
          · rename_i hdefault
            cases h
            exact ⟨(if_pos hdefault).symm, (Bool.or_true _).symm⟩
          · rename_i hdefault
            cases h
            exact ⟨(if_neg hdefault).symm, (Bool.or_true _).symm⟩
        · rename_i hdns
          cases h
          rw [hnone hdns]
          exact ⟨rfl, (Bool.or_false _).symm⟩

theorem foldlM_addDhcpOption {lines : List Args} {np np' : VpnProfile} (h : lines.foldlM addDhcpOption np = .ok np') :
    (networks np').servers = (serversOf lines).foldl addServer (networks np).servers ∧
      np'.mOverrideDNS = (np.mOverrideDNS || !(serversOf lines).isEmpty) := by
  induction lines generalizing np with
  | nil =>
    cases h
    exact ⟨rfl, (Bool.or_false _).symm⟩
  | cons line lines ih =>
    rw [List.foldlM_cons] at h
    cases hline : addDhcpOption np line with
    | error e =>
      rw [hline] at h
      cases h
    | ok np₁ =>
      rw [hline] at h
      obtain ⟨hservers, hoverride⟩ := addDhcpOption_eq_ok hline
      obtain ⟨hservers', hoverride'⟩ := ih h
      have hcons : serversOf (line :: lines) = serversOf [line] ++ serversOf lines := by
        rw [serversOf, serversOf, serversOf, ← List.filterMap_append]
        rfl
      rw [hcons, List.foldl_append, ← hservers, hservers', hoverride', hoverride]
      refine ⟨rfl, ?_⟩
      cases serversOf [line] <;> simp

/-- The option is taken out, and its lines are what the fields come from. -/
theorem read_dhcpOption {d d' : Draft} {o t : Options} (h : dhcpOption.read d o = .ok (d', t)) :
    (networks d'.np).servers = (dnsArgs o).foldl addServer (networks d.np).servers ∧
      d'.np.mOverrideDNS = (d.np.mOverrideDNS || !(dnsArgs o).isEmpty) ∧ t.all "dhcp-option" = none := by
  obtain ⟨lines, t', hget, hr⟩ := run_bind_eq_ok.mp h
  rcases getAllOption_cases "dhcp-option" 2 2 o with
    ⟨hall, hnone⟩ | ⟨lines', hall, -, ⟨-, hsome⟩ | ⟨-, message, herror⟩⟩
  · cases hnone.symm.trans hget
    cases hr
    have hargs : dnsArgs o = [] := by
      rw [dnsArgs, hall]
      rfl
    rw [hargs]
    exact ⟨rfl, (Bool.or_false _).symm, hall⟩
  · cases hsome.symm.trans hget
    have hargs : dnsArgs o = serversOf lines' := by
      rw [dnsArgs, hall]
      rfl
    obtain ⟨happly, rfl⟩ : dhcpOption.apply d lines' = .ok d' ∧ t = o.remove "dhcp-option" := by
      cases hresult : dhcpOption.apply d lines' with
      | error e =>
        have herr : (liftM (dhcpOption.apply d lines') : Parser Draft) (o.remove "dhcp-option") = .ok (d', t) := hr
        rw [hresult] at herr
        cases herr
      | ok d'' =>
        have hok : (liftM (dhcpOption.apply d lines') : Parser Draft) (o.remove "dhcp-option") = .ok (d', t) := hr
        rw [hresult] at hok
        cases hok
        exact ⟨rfl, rfl⟩
    have hremoved : (o.remove "dhcp-option").all "dhcp-option" = none := by
      have hfilter : (o.remove "dhcp-option").filter (·.1 = "dhcp-option") = [] := by
        rw [Options.remove, List.filter_filter]
        simp
      rw [Options.all, hfilter]
      rfl
    have hfold : lines'.foldlM addDhcpOption d.np >>= (fun np => pure { d with np := np }) = .ok d' := happly
    cases hnp : lines'.foldlM addDhcpOption d.np with
    | error e =>
      rw [hnp] at hfold
      cases hfold
    | ok np' =>
      rw [hnp] at hfold
      cases hfold
      obtain ⟨hservers, hoverride⟩ := foldlM_addDhcpOption hnp
      rw [hargs]
      exact ⟨hservers, hoverride, hremoved⟩
  · cases herror.symm.trans hget

/-! ### The other options -/

theorem leaves_route : route.Leaves fun np => (networks np).dns := by
  intro d lines
  exact Yields.bind (Yields.any _) fun texts _ => Yields.ok rfl

theorem dns_checkRedirectParameters (np : VpnProfile) (defgw : List Args) :
    (networks (checkRedirectParameters np defgw true)).dns = (networks np).dns := by
  have hfold : ∀ (args : List (List Char)) (p : VpnProfile × Bool),
      (networks (args.foldl redirectParameter p).1).dns = (networks p.1).dns := by
    intro args
    induction args with
    | nil => exact fun _ => rfl
    | cons arg args ih =>
      intro p
      rw [List.foldl_cons, ih]
      unfold redirectParameter
      split
      · rfl
      · split
        · rfl
        · split
          · rfl
          · split <;> rfl
  have hdns := hfold (defgw.flatMap fun redirect => redirect.drop 1) (np, false)
  unfold checkRedirectParameters
  rw [if_pos rfl]
  dsimp only
  split
  · exact hdns
  · exact hdns

theorem leaves_redirectGateway : redirectGateway.Leaves fun np => (networks np).dns := fun d lines =>
  Yields.ok (dns_checkRedirectParameters d.np lines)

/-- What is read before `dhcp-option`. -/
def beforeDhcp (d : Draft) : Parser Draft :=
  pull d >>= fun d => secret.read d >>= fun d => route.read d >>= fun d => readAll keySettings d >>= fun d =>
    redirectGateway.read d >>= fun d => redirectPrivate.read d >>= fun d => devOptions d >>= fun d =>
      readAll mtuSettings d

/-- What is read after it, up to the connections. -/
def afterDhcp (order : HashOrder) (d : Draft) : Parser Draft :=
  ifconfig.read d >>= fun d => readAll identitySettings d >>= fun d => tlsRemoteOptions d >>= fun d =>
    readAll verifySettings d >>= fun d => remoteCertTls d >>= fun d => readAll loginSettings d >>= fun d =>
      connections order d

theorem convert_eq_dhcp (order : HashOrder) (metas : List (String × Args)) (d : Draft) :
    convert order metas d = beforeDhcp d >>= fun d => dhcpOption.read d >>= fun d => afterDhcp order d >>= fun d =>
      afterConnections order metas d := by
  have hnil : readAll ([] : List (Setting Draft)) = pure := rfl
  have hroute : readAll (routeSettings ++ tunnelSettings) = fun d => secret.read d >>= fun d => route.read d >>= fun d =>
      readAll keySettings d >>= fun d => redirectGateway.read d >>= fun d => redirectPrivate.read d := by
    show readAll (secret :: route :: (keySettings ++ [redirectGateway, redirectPrivate])) = _
    rw [readAll_cons, readAll_cons, readAll_append, readAll_cons, readAll_cons, hnil]
    simp only [bind_pure]
  have hdevice : readAll deviceSettings = fun d => readAll mtuSettings d >>= fun d => dhcpOption.read d >>= fun d =>
      ifconfig.read d >>= readAll identitySettings := by
    show readAll (mtuSettings ++ dhcpOption :: ifconfig :: identitySettings) = _
    rw [readAll_append, readAll_cons, readAll_cons]
  unfold convert beforeDhcp afterDhcp
  rw [hroute, hdevice]
  simp only [bind_assoc]
  rfl

theorem leaves_dns {m : Draft → Parser Draft} (h : Leaves networks m) : Leaves (fun np => (networks np).dns) m :=
  h.comp Networks.dns

theorem leaves_beforeDhcp : Leaves (fun np => (networks np).dns) beforeDhcp :=
  leaves_bind (leaves_dns leaves_pull) <| leaves_bind (leaves_dns (leaves_read leaves_secret)) <|
    leaves_bind (leaves_read leaves_route) <| leaves_bind (leaves_dns (leaves_readAll leaves_keySettings)) <|
      leaves_bind (leaves_read leaves_redirectGateway) <| leaves_dns <|
        leaves_bind (leaves_read leaves_redirectPrivate) <| leaves_bind leaves_devOptions <|
          leaves_readAll leaves_mtuSettings

theorem leaves_afterDhcp (order : HashOrder) : Leaves networks (afterDhcp order) :=
  leaves_bind (leaves_read leaves_ifconfig) <| leaves_bind (leaves_readAll leaves_identitySettings) <|
    leaves_bind leaves_tlsRemoteOptions <| leaves_bind (leaves_readAll leaves_verifySettings) <|
      leaves_bind leaves_remoteCertTls <| leaves_bind (leaves_readAll leaves_loginSettings) <|
        leaves_connections order

theorem spares_beforeDhcp : Spares "dhcp-option" beforeDhcp := by
  have hmtu : ∀ st ∈ mtuSettings, st.Uniform fun _ => True := fun st hst =>
    uniform_deviceChecks st (List.mem_append_left [dhcpOption] hst)
  have hgateway : redirectGateway.Uniform fun _ => True := uniform_tunnelChecks _ (by simp [tunnelChecks, tunnelSettings])
  have hprivate : redirectPrivate.Uniform fun _ => True := uniform_tunnelChecks _ (by simp [tunnelChecks, tunnelSettings])
  exact spares_bind (spares_of_spec spec_pull (by decide)) <|
    spares_bind (spares_of_spec (Setting.spec_read uniform_secret) (by decide)) <|
    spares_bind (spares_of_spec (Setting.spec_read uniform_route) (by decide)) <|
    spares_bind (spares_of_spec (spec_readAll (by decide) uniform_keySettings) (by decide)) <|
    spares_bind (spares_of_spec (Setting.spec_read hgateway) (by decide)) <|
    spares_bind (spares_of_spec (Setting.spec_read hprivate) (by decide)) <|
    spares_bind (spares_of_spec spec_devOptions (by decide)) <|
      spares_of_spec (spec_readAll (by decide) hmtu) (by decide)

theorem spares_afterDhcp (order : HashOrder) : Spares "dhcp-option" (afterDhcp order) := by
  have hlogin : Spares "dhcp-option" (readAll loginSettings) := by
    have hnil : readAll ([] : List (Setting Draft)) = pure := rfl
    unfold loginSettings
    rw [readAll_cons, readAll_cons, readAll_cons, hnil]
    simp only [bind_pure]
    exact spares_bind (spares_of_spec (Setting.spec_read uniform_authUserPass) (by decide)) <|
      spares_bind (spares_of_spec (Setting.spec_read uniform_authRetry) (by decide)) <|
        spares_of_spec (Setting.spec_read uniform_crlVerify) (by decide)
  exact spares_bind (spares_of_spec (Setting.spec_read uniform_ifconfig) (by decide)) <|
    spares_bind (spares_of_spec (spec_readAll (by decide) uniform_identitySettings) (by decide)) <|
    spares_bind (spares_of_spec spec_tlsRemoteOptions (by decide)) <|
    spares_bind (spares_of_spec (spec_readAll (by decide) uniform_verifySettings) (by decide)) <|
    spares_bind (spares_of_spec spec_remoteCertTls (by decide)) <|
    spares_bind hlogin (spares_of_spec (spec_connections order) (by decide))

/-- The last options to go are ignored ones. -/
theorem spares_afterConnections (order : HashOrder) (metas : List (String × Args)) :
    Spares "dhcp-option" (afterConnections order metas) := by
  refine spares_bind (spares_of_spec (spec_readAll (by decide) uniform_lastSettings) (by decide)) fun d o r hr => ?_
  unfold checkIgnoreAndInvalidOptions at hr
  split at hr
  · cases hr
  · cases hr
    refine Options.all_filter fun line hline => ?_
    rw [hline]
    decide

/-! ### The profile -/

/-- The options that are left for the custom options in the end. -/
def leftOver (order : HashOrder) (p : Parsed) : Options :=
  match convert order p.metas newDraft p.options with
  | .ok (_, o) => o
  | .error _ => []

theorem servers_of_convertProfile {order : HashOrder} {p : Parsed} {r : VpnProfile × Option (List Char)}
    (h : convertProfile order p = .ok r) :
    (r.1.mDNS1, r.1.mDNS2) =
        (dnsArgs p.options).foldl addServer (VpnProfile.defaultDns1, newDraft.np.mDNS2) ∧
      r.1.mOverrideDNS = !(dnsArgs p.options).isEmpty ∧ (leftOver order p).all "dhcp-option" = none := by
  have hrun : ∃ d t, convert order p.metas newDraft p.options = .ok (d, t) ∧ r = (fixup d.np, d.auth_user_pass_file) := by
    rw [convertProfile_eq] at h
    cases hconvert : convert order p.metas newDraft p.options with
    | error e =>
      rw [hconvert] at h
      cases h
    | ok x =>
      rw [hconvert] at h
      cases h
      exact ⟨x.1, x.2, rfl, rfl⟩
  obtain ⟨d, t, hconvert, rfl⟩ := hrun
  have hleft : leftOver order p = t := by
    rw [leftOver, hconvert]
  rw [convert_eq_dhcp] at hconvert
  obtain ⟨d₁, o₁, hbefore, hconvert⟩ := run_bind_eq_ok.mp hconvert
  obtain ⟨d₂, o₂, hread, hconvert⟩ := run_bind_eq_ok.mp hconvert
  obtain ⟨d₃, o₃, hafter, hconvert⟩ := run_bind_eq_ok.mp hconvert
  have hargs : dnsArgs o₁ = dnsArgs p.options := by
    have hall : o₁.all "dhcp-option" = p.options.all "dhcp-option" := spares_beforeDhcp _ _ _ hbefore
    rw [dnsArgs, dnsArgs, hall]
  have hstart : (networks d₁.np).servers = (networks newDraft.np).servers ∧ d₁.np.mOverrideDNS = false :=
    Prod.mk.inj (leaves_beforeDhcp _ _ _ hbefore)
  obtain ⟨hservers, hoverride, hnone⟩ := read_dhcpOption hread
  have hend : networks (fixup d.np) = networks d₂.np :=
    (networks_fixup d.np).trans ((leaves_afterConnections order p.metas _ _ _ hconvert).trans
      (leaves_afterDhcp order _ _ _ hafter))
  rw [hargs, hstart.1] at hservers
  rw [hargs, hstart.2, Bool.false_or] at hoverride
  refine ⟨(congrArg Networks.servers hend).trans hservers, (congrArg Networks.overrideDns hend).trans hoverride, ?_⟩
  rw [hleft]
  exact ((spares_afterConnections order p.metas _ _ _ hconvert).trans (spares_afterDhcp order _ _ _ hafter)).trans hnone

/-! ### The lines -/

theorem dnsLine_inj {a b : List Char} (h : VpnProfile.dnsLine a = VpnProfile.dnsLine b) : a = b :=
  List.append_cancel_left (List.append_cancel_right h)

theorem dnsLine_ne_domain (a b : List Char) : VpnProfile.dnsLine a ≠ "dhcp-option DOMAIN ".toList ++ b ++ ['\n'] := by
  intro heq
  have hchar := congrArg (·[13]?) heq
  dsimp only [VpnProfile.dnsLine] at hchar
  rw [List.append_assoc, List.append_assoc, List.getElem?_append_left (by decide),
    List.getElem?_append_left (by decide)] at hchar
  exact absurd hchar (by decide)

/-- The fields that are not empty are the servers that are written. -/
theorem mem_dnsLines {np : VpnProfile} (h : np.mOverrideDNS = true) (server : List Char) :
    VpnProfile.dnsLine server ∈ VpnProfile.dnsLines np ↔ server ≠ [] ∧ (server = np.mDNS1 ∨ server = np.mDNS2) := by
  have hone : ∀ d : List Char, VpnProfile.dnsLine server ∈ (if d = [] then [] else [VpnProfile.dnsLine d]) ↔
      server ≠ [] ∧ server = d := by
    intro d
    by_cases hd : d = []
    · rw [if_pos hd, hd]
      exact iff_of_false List.not_mem_nil fun h => h.1 h.2
    · rw [if_neg hd, List.mem_singleton]
      constructor
      · intro heq
        obtain rfl := dnsLine_inj heq
        exact ⟨hd, rfl⟩
      · rintro ⟨-, rfl⟩
        rfl
  have hdomain : VpnProfile.dnsLine server ∉ (if np.mSearchDomain = [] then []
      else ["dhcp-option DOMAIN ".toList ++ np.mSearchDomain ++ ['\n']]) := by
    split
    · exact List.not_mem_nil
    · exact fun hmem => dnsLine_ne_domain _ _ (List.mem_singleton.mp hmem)
  have hcond : (np.mOverrideDNS || !np.mUsePull) = true := by rw [h, Bool.true_or]
  rw [VpnProfile.dnsLines, if_pos hcond, List.mem_append, List.mem_append, hone, hone]
  simp only [hdomain, or_false]
  exact and_or_left.symm

/-- The servers of a configuration are kept in a profile: in the two fields, and in the lines that are written. -/
structure KeepsServers (ds : List (List Char)) (np : VpnProfile) : Prop where
  first : ds.head? = some np.mDNS1
  second : ∀ d, ds[1]? = some d → np.mDNS2 = d
  written : ((ds.take 2).map VpnProfile.dnsLine).Sublist (VpnProfile.dnsLines np)
  known : ∀ server, VpnProfile.dnsLine server ∈ VpnProfile.dnsLines np → server ∈ ds

/-- One server that is the second default, or a first one that is not the first default and a second one that is the
    last; both have to be there. -/
def Kept : List (List Char) → Prop
  | [] => False
  | [d] => d = "1.1.1.1".toList
  | d₁ :: d₂ :: ds => d₁ ≠ VpnProfile.defaultDns1 ∧ d₁ ≠ [] ∧ d₂ ≠ [] ∧ (d₂ :: ds).getLast? = some d₂

theorem keepsServers_one {np : VpnProfile} {d : List Char} (hoverride : np.mOverrideDNS = true)
    (hfields : (np.mDNS1, np.mDNS2) = (d, newDraft.np.mDNS2)) : KeepsServers [d] np ↔ Kept [d] := by
  obtain ⟨hfirst, hsecond⟩ := Prod.mk.inj hfields
  constructor
  · intro h
    have hmem : VpnProfile.dnsLine newDraft.np.mDNS2 ∈ VpnProfile.dnsLines np :=
      (mem_dnsLines hoverride _).mpr ⟨by decide, .inr hsecond.symm⟩
    exact (List.mem_singleton.mp (h.known _ hmem)).symm
  · intro h
    have hd : d = newDraft.np.mDNS2 := h
    refine ⟨by rw [hfirst]; rfl, nofun, ?_, fun server hserver => ?_⟩
    · refine List.singleton_sublist.mpr ((mem_dnsLines hoverride d).mpr ⟨?_, .inl hfirst.symm⟩)
      rw [hd]
      decide
    · obtain ⟨-, rfl | rfl⟩ := (mem_dnsLines hoverride server).mp hserver
      · rw [hfirst]
        exact List.mem_cons_self
      · rw [hsecond, hd]
        exact List.mem_cons_self

theorem keepsServers_more {np : VpnProfile} {d₁ d₂ : List Char} {ds : List (List Char)}
    (hoverride : np.mOverrideDNS = true)
    (hfields : (np.mDNS1, np.mDNS2) =
      (d₁ :: d₂ :: ds).foldl addServer (VpnProfile.defaultDns1, newDraft.np.mDNS2)) :
    KeepsServers (d₁ :: d₂ :: ds) np ↔ Kept (d₁ :: d₂ :: ds) := by
  have hstep : addServer (VpnProfile.defaultDns1, newDraft.np.mDNS2) d₁ = (d₁, newDraft.np.mDNS2) := if_pos rfl
  obtain ⟨last, hlast⟩ := Option.ne_none_iff_exists'.mp fun hnone =>
    List.cons_ne_nil d₂ ds (List.getLast?_eq_none_iff.mp hnone)
  constructor
  · intro h
    have hd₁ : np.mDNS1 = d₁ := (Option.some.inj h.first).symm
    have hd₂ : np.mDNS2 = d₂ := h.second d₂ rfl
    have hne : d₁ ≠ VpnProfile.defaultDns1 := by
      intro heq
      -- every server is the first default, and the second field was never set
      have hall := foldl_addServer_default ((congrArg Prod.fst hfields).symm.trans (hd₁.trans heq))
      have hboth : newDraft.np.mDNS2 = VpnProfile.defaultDns1 := by
        rw [← hall.1, ← congrArg Prod.snd hfields]
        exact hd₂.trans (hall.2 d₂ (List.mem_cons_of_mem _ List.mem_cons_self))
      exact absurd hboth (by decide)
    rw [List.foldl_cons, hstep, foldl_addServer_of_ne hne, hlast] at hfields
    have hlast₂ : last = d₂ := (Prod.mk.inj hfields).2.symm.trans hd₂
    have hmem : ∀ d ∈ [d₁, d₂], VpnProfile.dnsLine d ∈ VpnProfile.dnsLines np := fun d hd =>
      h.written.subset (List.mem_map_of_mem hd)
    refine ⟨hne, ((mem_dnsLines hoverride _).mp (hmem d₁ (by simp))).1,
      ((mem_dnsLines hoverride _).mp (hmem d₂ (by simp))).1, ?_⟩
    rw [hlast, hlast₂]
  · rintro ⟨hne, hnil₁, hnil₂, hlast₂⟩
    rw [List.foldl_cons, hstep, foldl_addServer_of_ne hne, hlast₂] at hfields
    obtain ⟨hd₁, hd₂⟩ := Prod.mk.inj hfields
    have hd₂ : np.mDNS2 = d₂ := hd₂
    refine ⟨by rw [hd₁]; rfl, fun d hd => hd₂.trans (Option.some.inj hd), ?_, fun server hserver => ?_⟩
    · have hcond : (np.mOverrideDNS || !np.mUsePull) = true := by rw [hoverride, Bool.true_or]
      rw [VpnProfile.dnsLines, if_pos hcond, hd₁, hd₂, if_neg hnil₁, if_neg hnil₂]
      exact List.sublist_append_left _ _
    · obtain ⟨-, rfl | rfl⟩ := (mem_dnsLines hoverride server).mp hserver
      · rw [hd₁]
        exact List.mem_cons_self
      · rw [hd₂]
        exact List.mem_cons_of_mem _ List.mem_cons_self

/-- The servers of an accepted configuration are kept just when there is one that is the second default, or two that
    the defaults do not get in the way of; no `dhcp-option` becomes a custom option. -/
theorem keepsServers_iff {order : HashOrder} {p : Parsed} {np : VpnProfile} {file : Option (List Char)}
    (h : convertProfile order p = .ok (np, file)) (hne : dnsArgs p.options ≠ []) :
    (KeepsServers (dnsArgs p.options) np ∧ (leftOver order p).all "dhcp-option" = none) ↔ Kept (dnsArgs p.options) := by
  obtain ⟨hfields, hoverride, hleft⟩ := servers_of_convertProfile h
  rw [and_iff_left hleft]
  cases hds : dnsArgs p.options with
  | nil => exact absurd hds hne
  | cons d₁ ds =>
    rw [hds] at hfields hoverride
    cases ds with
    | nil => exact keepsServers_one hoverride hfields
    | cons d₂ ds => exact keepsServers_more hoverride hfields

theorem keepsServers_two : ∃ np file,
    convertProfile fileOrder { options := [
      ("dhcp-option", ["dhcp-option".toList, "DNS".toList, "9.9.9.9".toList]),
      ("dhcp-option", ["dhcp-option".toList, "DNS".toList, "8.8.8.8".toList])] } = .ok (np, file) ∧
    KeepsServers ["9.9.9.9".toList, "8.8.8.8".toList] np := by
  let p : Parsed := { options := [
    ("dhcp-option", ["dhcp-option".toList, "DNS".toList, "9.9.9.9".toList]),
    ("dhcp-option", ["dhcp-option".toList, "DNS".toList, "8.8.8.8".toList])] }
  have hargs : dnsArgs p.options = ["9.9.9.9".toList, "8.8.8.8".toList] := by decide
  have hne : dnsArgs p.options ≠ [] := by decide
  have hok : (convertProfile fileOrder p).isOk = true := by decide
  cases h : convertProfile fileOrder p with
  | error e =>
    rw [h] at hok
    cases hok
  | ok r =>
    have hkept : Kept (dnsArgs p.options) := by
      rw [hargs]
      exact ⟨by decide, by decide, by decide, rfl⟩
    have hkeeps := ((keepsServers_iff h hne).mpr hkept).1
    rw [hargs] at hkeeps
    exact ⟨r.1, r.2, rfl, hkeeps⟩

/-- A single server has the second default beside it, and a first server that is the first default is overwritten. -/
theorem servers_lost :
    ((parseAndConvert fileOrder "dhcp-option DNS 9.9.9.9\n".toList).toOption.map
      fun np => (VpnProfile.dnsLines np).take 2) =
        some ["dhcp-option DNS 9.9.9.9\n".toList, "dhcp-option DNS 1.1.1.1\n".toList] ∧
    ((parseAndConvert fileOrder "dhcp-option DNS 8.8.8.8\ndhcp-option DNS 9.9.9.9\n".toList).toOption.map
      fun np => (np.mDNS1, np.mDNS2)) = some ("9.9.9.9".toList, "1.1.1.1".toList) := by
  decide +kernel

end ConfigParser
end NicVpn
