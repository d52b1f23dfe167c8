import NicVpn.Theorems.Untouched

/-! Which options decide about the routes of a profile: `route` sets the two texts of routes, `redirect-gateway` the
    default route, and no other option touches them. -/

namespace NicVpn
namespace ConfigParser
open Taking

/-- What the IPv4 routes of a profile are made from. -/
structure Routing where
  customRoutes : Option (List Char)
  excludedRoutes : Option (List Char)
  useDefaultRoute : Bool
  deriving DecidableEq

def routing (np : VpnProfile) : Routing where
  customRoutes := np.mCustomRoutes
  excludedRoutes := np.mExcludedRoutes
  useDefaultRoute := np.mUseDefaultRoute

/-- The routes are a part of what most options leave alone. -/
def Networks.routing (n : Networks) : Routing where
  customRoutes := n.customRoutes
  excludedRoutes := n.excludedRoutes
  useDefaultRoute := n.useDefaultRoute

theorem leaves_routing {m : Draft → Parser Draft} (h : Leaves networks m) : Leaves routing m := h.comp Networks.routing

theorem leaves_dhcpOption : dhcpOption.Leaves routing := by
  intro d lines
  refine Yields.bind (Yields.foldlM (P := fun np => routing np = routing d.np) (fun np line hnp => ?_) lines rfl)
    fun np hnp => Yields.ok hnp
  refine Yields.bind (Yields.any _) fun type _ => Yields.bind (Yields.any _) fun arg _ => ?_
  split
  · exact Yields.ok hnp
  · split
    · split <;> exact Yields.ok hnp
    · exact Yields.ok hnp

theorem leaves_deviceSettings : Leaves routing (readAll deviceSettings) := by
  have htables : deviceSettings = mtuSettings ++ dhcpOption :: ifconfig :: identitySettings := rfl
  rw [htables, readAll_append, readAll_cons, readAll_cons]
  exact leaves_bind (leaves_routing (leaves_readAll leaves_mtuSettings)) <|
    leaves_bind (leaves_read leaves_dhcpOption) <| leaves_routing <|
      leaves_bind (leaves_read leaves_ifconfig) (leaves_readAll leaves_identitySettings)

/-- What comes after `redirect-gateway`. -/
def afterRedirect (order : HashOrder) (metas : List (String × Args)) (d : Draft) : Parser Draft :=
  redirectPrivate.read d >>= fun d => devOptions d >>= fun d => readAll deviceSettings d >>= fun d =>
    tlsRemoteOptions d >>= fun d => readAll verifySettings d >>= fun d => remoteCertTls d >>= fun d =>
      readAll loginSettings d >>= fun d => connections order d >>= fun d => afterConnections order metas d

theorem leaves_afterRedirect (order : HashOrder) (metas : List (String × Args)) :
    Leaves routing (afterRedirect order metas) :=
  leaves_bind (leaves_routing (leaves_read leaves_redirectPrivate)) <| leaves_bind leaves_devOptions <|
    leaves_bind leaves_deviceSettings <| leaves_routing <| leaves_bind leaves_tlsRemoteOptions <|
      leaves_bind (leaves_readAll leaves_verifySettings) <| leaves_bind leaves_remoteCertTls <|
        leaves_bind (leaves_readAll leaves_loginSettings) <| leaves_bind (leaves_connections order) <|
          leaves_afterConnections order metas

theorem convert_eq_afterRedirect (order : HashOrder) (metas : List (String × Args)) (d : Draft) :
    convert order metas d = pull d >>= fun d => secret.read d >>= fun d => route.read d >>= fun d =>
      readAll keySettings d >>= fun d => redirectGateway.read d >>= fun d => afterRedirect order metas d := by
  have hroute : readAll (routeSettings ++ tunnelSettings) = fun d => secret.read d >>= fun d => route.read d >>= fun d =>
      readAll keySettings d >>= fun d => redirectGateway.read d >>= fun d => redirectPrivate.read d := by
    have hnil : readAll ([] : List (Setting Draft)) = pure := rfl
    show readAll (secret :: route :: (keySettings ++ [redirectGateway, redirectPrivate])) = _
    rw [readAll_cons, readAll_cons, readAll_append, readAll_cons, readAll_cons, hnil]
    simp only [bind_pure]
  unfold convert afterRedirect
  rw [hroute]
  simp only [bind_assoc]
  rfl

/-! ### The two options -/

def routesOf (o : Options) : List Args := (o.all "route").getD []

/-- The default route is asked for, and not switched off for IPv4. -/
def usesDefaultRoute (o : Options) : Bool :=
  match o.all "redirect-gateway" with
  | none => false
  | some defgw => !(defgw.flatMap fun redirect => redirect.drop 1).contains "!ipv4".toList

theorem read_route {d d' : Draft} {o t : Options} (h : route.read d o = .ok (d', t))
    (hnone : d.np.mCustomRoutes = none ∧ d.np.mExcludedRoutes = none) : ∃ texts,
      (routesOf o).foldlM addRoute ([], []) = .ok texts ∧
      VpnProfile.getCustomRoutes d'.np.mCustomRoutes = VpnProfile.getCustomRoutes (some texts.1) ∧
      VpnProfile.getCustomRoutes d'.np.mExcludedRoutes = VpnProfile.getCustomRoutes (some texts.2) ∧
      d'.np.mUseDefaultRoute = d.np.mUseDefaultRoute := by
  obtain ⟨lines, t', hget, hr⟩ := run_bind_eq_ok.mp h
  have hlines := getAllOption_value hget
  unfold routesOf
  show ∃ texts, ((o.all route.name).getD []).foldlM addRoute ([], []) = .ok texts ∧ _
  rw [← hlines]
  cases lines with
  | none =>
    cases hr
    refine ⟨([], []), rfl, ?_, ?_, rfl⟩
    · rw [hnone.1]
      rfl
    · rw [hnone.2]
      rfl
  | some lines =>
    have happly : route.apply d lines = .ok d' := eq_ok_of_lift hr
    simp only [route] at happly
    cases hfold : lines.foldlM addRoute ([], []) with
    | error e =>
      rw [hfold] at happly
      cases happly
    | ok texts =>
      rw [hfold] at happly
      cases happly
      exact ⟨texts, hfold, rfl, rfl, rfl⟩

theorem redirectParameter_noIpv4 (p : VpnProfile × Bool) (arg : List Char) :
    (redirectParameter p arg).2 = (p.2 || arg == "!ipv4".toList) := by
  have hne : ∀ word : List Char, arg = word → word ≠ "!ipv4".toList → (arg == "!ipv4".toList) = false := by
    rintro word rfl h
    exact beq_eq_false_iff_ne.mpr h
  unfold redirectParameter
  split
  · rename_i h
    rw [hne _ h (by decide), Bool.or_false]
  · split
    · rename_i h
      rw [hne _ h (by decide), Bool.or_false]
    · split
      · rename_i h
        rw [h, beq_self_eq_true, Bool.or_true]
      · rename_i h
        have hfalse := beq_eq_false_iff_ne.mpr h
        split <;> rw [hfalse, Bool.or_false]

theorem routing_redirectParameter (p : VpnProfile × Bool) (arg : List Char) :
    routing (redirectParameter p arg).1 = routing p.1 := by
  unfold redirectParameter
  split
  · rfl
  · split
    · rfl
    · split
      · rfl
      · split <;> rfl

theorem foldl_redirectParameter (args : List (List Char)) (p : VpnProfile × Bool) :
    routing (args.foldl redirectParameter p).1 = routing p.1 ∧
      (args.foldl redirectParameter p).2 = (p.2 || args.contains "!ipv4".toList) := by
  induction args generalizing p with
  | nil => exact ⟨rfl, (Bool.or_false _).symm⟩
  | cons arg args ih =>
    obtain ⟨hrouting, hflag⟩ := ih (redirectParameter p arg)
    refine ⟨hrouting.trans (routing_redirectParameter p arg), hflag.trans ?_⟩
    rw [redirectParameter_noIpv4, List.contains_cons, Bool.or_assoc, Bool.beq_comm (a := arg)]

theorem routing_checkRedirectParameters (np : VpnProfile) (defgw : List Args) :
    routing (checkRedirectParameters np defgw true) = { routing np with
      useDefaultRoute := np.mUseDefaultRoute ||
        !(defgw.flatMap fun redirect => redirect.drop 1).contains "!ipv4".toList } := by
  obtain ⟨hrouting, hflag⟩ := foldl_redirectParameter (defgw.flatMap fun redirect => redirect.drop 1) (np, false)
  rw [Bool.false_or] at hflag
  unfold checkRedirectParameters
  rw [if_pos rfl, ← hflag]
  dsimp only
  generalize (defgw.flatMap fun redirect => redirect.drop 1).foldl redirectParameter (np, false) = p at hrouting hflag ⊢
  obtain ⟨np', noIpv4⟩ := p
  cases noIpv4 with
  | true =>
    show routing np' = _
    rw [Bool.not_true, Bool.or_false]
    exact hrouting
  | false =>
    have hcustom := congrArg Routing.customRoutes hrouting
    have hexcluded := congrArg Routing.excludedRoutes hrouting
    show Routing.mk np'.mCustomRoutes np'.mExcludedRoutes true = _
    rw [Bool.not_false, Bool.or_true]
    exact Routing.mk.injEq .. ▸ ⟨hcustom, hexcluded, rfl⟩

theorem read_redirectGateway {d d' : Draft} {o t : Options} (h : redirectGateway.read d o = .ok (d', t)) :
    d'.np.mCustomRoutes = d.np.mCustomRoutes ∧ d'.np.mExcludedRoutes = d.np.mExcludedRoutes ∧
      d'.np.mUseDefaultRoute = (d.np.mUseDefaultRoute || usesDefaultRoute o) := by
  obtain ⟨lines, t', hget, hr⟩ := run_bind_eq_ok.mp h
  have hlines : lines = o.all "redirect-gateway" := getAllOption_value hget
  unfold usesDefaultRoute
  rw [← hlines]
  cases lines with
  | none =>
    cases hr
    exact ⟨rfl, rfl, (Bool.or_false _).symm⟩
  | some defgw =>
    cases hr
    have hrouting := routing_checkRedirectParameters d.np defgw
    exact ⟨congrArg Routing.customRoutes hrouting, congrArg Routing.excludedRoutes hrouting,
      congrArg Routing.useDefaultRoute hrouting⟩

/-- What the conversion makes of the routes, in two texts. -/
structure Routed (o : Options) (np : VpnProfile) (texts : List Char × List Char) : Prop where
  added : (routesOf o).foldlM addRoute ([], []) = .ok texts
  custom : VpnProfile.getCustomRoutes np.mCustomRoutes = VpnProfile.getCustomRoutes (some texts.1)
  excluded : VpnProfile.getCustomRoutes np.mExcludedRoutes = VpnProfile.getCustomRoutes (some texts.2)
  useDefaultRoute : np.mUseDefaultRoute = usesDefaultRoute o

theorem Routed.congr {o : Options} {np np' : VpnProfile} {texts : List Char × List Char} (h : Routed o np texts)
    (hnp : routing np' = routing np) : Routed o np' texts where
  added := h.added
  custom := (congrArg (fun r : Routing => VpnProfile.getCustomRoutes r.customRoutes) hnp).trans h.custom
  excluded := (congrArg (fun r : Routing => VpnProfile.getCustomRoutes r.excludedRoutes) hnp).trans h.excluded
  useDefaultRoute := (congrArg Routing.useDefaultRoute hnp).trans h.useDefaultRoute

theorem routed_of_convertProfile {order : HashOrder} {p : Parsed} {r : VpnProfile × Option (List Char)}
    (h : convertProfile order p = .ok r) : ∃ texts, Routed p.options r.1 texts := by
  have hrun : ∃ d t, convert order p.metas newDraft p.options = .ok (d, t) ∧ r = (fixup d.np, d.auth_user_pass_file) := by
    rw [convertProfile_eq] at h
    cases hconvert : convert order p.metas newDraft p.options with
    | error e =>
      rw [hconvert] at h
      cases h
    | ok x =>
      rw [hconvert] at h
      cases h
      exact ⟨x.1, x.2, rfl, rfl⟩
  obtain ⟨d, t, hconvert, rfl⟩ := hrun
  rw [convert_eq_afterRedirect] at hconvert
  obtain ⟨d₁, o₁, hpull, hconvert⟩ := run_bind_eq_ok.mp hconvert
  obtain ⟨d₂, o₂, hsecret, hconvert⟩ := run_bind_eq_ok.mp hconvert
  obtain ⟨d₃, o₃, hroute, hconvert⟩ := run_bind_eq_ok.mp hconvert
  obtain ⟨d₄, o₄, hkeys, hconvert⟩ := run_bind_eq_ok.mp hconvert
  obtain ⟨d₅, o₅, hredirect, hafter⟩ := run_bind_eq_ok.mp hconvert
  have hfirst : routing d₂.np = routing newDraft.np :=
    (leaves_routing (leaves_read leaves_secret) d₁ o₁ _ hsecret).trans (leaves_routing leaves_pull newDraft p.options _ hpull)
  have hoption : ∀ n, n ∉ ["client", "pull"] → n ≠ "secret" → o₂.all n = p.options.all n := fun n hn hn' =>
    ((Setting.spec_read uniform_secret d₁).frame _ _ _ hsecret n hn').trans ((spec_pull newDraft).frame _ _ _ hpull n hn)
  have hroutes : routesOf o₂ = routesOf p.options := by
    unfold routesOf
    rw [hoption "route" (by decide) (by decide)]
  have hdefault : usesDefaultRoute o₄ = usesDefaultRoute p.options := by
    unfold usesDefaultRoute
    rw [(spec_readAll (by decide) uniform_keySettings d₃).frame _ _ _ hkeys _ (by decide),
      (Setting.spec_read uniform_route d₂).frame _ _ _ hroute _ (by decide), hoption _ (by decide) (by decide)]
  obtain ⟨texts, hadded, hcustom, hexcluded, huse⟩ := read_route hroute
    ⟨congrArg Routing.customRoutes hfirst, congrArg Routing.excludedRoutes hfirst⟩
  obtain ⟨hcustom', hexcluded', huse'⟩ := read_redirectGateway hredirect
  have hkeep : routing d₄.np = routing d₃.np := leaves_routing (leaves_readAll leaves_keySettings) d₃ o₃ _ hkeys
  have hrouted : Routed p.options d₅.np texts := by
    refine ⟨hroutes ▸ hadded, ?_, ?_, ?_⟩
    · rw [hcustom', ← hcustom]
      exact congrArg (fun r : Routing => VpnProfile.getCustomRoutes r.customRoutes) hkeep
    · rw [hexcluded', ← hexcluded]
      exact congrArg (fun r : Routing => VpnProfile.getCustomRoutes r.excludedRoutes) hkeep
    · have hstart : d₄.np.mUseDefaultRoute = false :=
        (congrArg Routing.useDefaultRoute hkeep).trans (huse.trans (congrArg Routing.useDefaultRoute hfirst))
      rw [huse', hstart, Bool.false_or, hdefault]
  refine ⟨texts, (hrouted.congr ?_).congr (congrArg Networks.routing (networks_fixup d.np))⟩
  exact leaves_afterRedirect order p.metas d₅ o₅ _ hafter

end ConfigParser
end NicVpn
