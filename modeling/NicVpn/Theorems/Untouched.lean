import NicVpn.Theorems.ConvertProfile

/-! What the options leave alone. Only `route`, `redirect-gateway` and `dhcp-option` touch the routes of a profile and its
    servers. -/

namespace NicVpn
namespace ConfigParser
open Taking

/-- What the IPv4 routes and the servers of a profile come from. -/
structure Networks where
  customRoutes : Option (List Char)
  excludedRoutes : Option (List Char)
  useDefaultRoute : Bool
  dns1 : List Char
  dns2 : List Char
  overrideDns : Bool

def networks (np : VpnProfile) : Networks where
  customRoutes := np.mCustomRoutes
  excludedRoutes := np.mExcludedRoutes
  useDefaultRoute := np.mUseDefaultRoute
  dns1 := np.mDNS1
  dns2 := np.mDNS2
  overrideDns := np.mOverrideDNS

namespace Setting
variable {β : Type} {view : VpnProfile → β}

/-- The setting leaves a view of the profile alone. -/
def Leaves (view : VpnProfile → β) (st : Setting Draft) : Prop :=
  ∀ d lines, Yields (fun d' => view d'.np = view d.np) (st.apply d lines)

theorem Leaves.comp {γ : Type} {st : Setting Draft} (h : st.Leaves view) (f : β → γ) :
    st.Leaves fun np => f (view np) := fun d lines d' hd => congrArg f (h d lines d' hd)

theorem leaves_last {name : String} {minarg maxarg : Nat} {f : Draft → Args → Except Failure Draft}
    (h : ∀ d args, Yields (fun d' => view d'.np = view d.np) (f d args)) :
    (Setting.last name minarg maxarg f).Leaves view := by
  intro d lines
  unfold Setting.last
  dsimp only
  split
  · exact h d _
  · exact Yields.ok rfl

end Setting

section Rows

theorem leaves_flag {set : VpnProfile → VpnProfile} (h : ∀ np, networks (set np) = networks np) (name : String)
    (minarg maxarg : Nat) : (flag name minarg maxarg set).Leaves networks :=
  Setting.leaves_last fun d _ => Yields.ok (h d.np)

theorem leaves_value {set : VpnProfile → List Char → VpnProfile} (h : ∀ np arg, networks (set np arg) = networks np)
    (name : String) : (value name set).Leaves networks :=
  Setting.leaves_last fun d _ => Yields.bind (Yields.any _) fun arg _ => Yields.ok (h d.np arg)

theorem leaves_credential {set : VpnProfile → List Char → VpnProfile} (h : ∀ np arg, networks (set np arg) = networks np)
    (name : String) : (credential name set).Leaves networks :=
  Setting.leaves_last fun d _ => Yields.bind (Yields.any _) fun arg _ => Yields.ok (h d.np arg)

theorem leaves_secret : secret.Leaves networks :=
  Setting.leaves_last fun _ _ => Yields.bind (Yields.any _) fun _ _ => Yields.bind (Yields.any _) fun _ _ => Yields.ok rfl

theorem leaves_routeIpv6 : routeIpv6.Leaves networks := fun _ _ => Yields.bind (Yields.any _) fun _ _ => Yields.ok rfl

theorem leaves_tlsAuth : tlsAuth.Leaves networks := by
  intro d lines
  refine Yields.bind (Yields.foldlM (P := fun np => networks np = networks d.np) (fun np line hnp => ?_) lines rfl)
    fun np hnp => Yields.ok hnp
  refine Yields.bind (Yields.any _) fun filename _ => Yields.bind (Yields.any _) fun direction _ => Yields.ok ?_
  show networks (if _ then _ else _) = _
  split <;> exact hnp

theorem leaves_mssfix : mssfix.Leaves networks :=
  Setting.leaves_last fun _ _ => Yields.bind (Yields.any _) fun _ _ => Yields.bind (Yields.any _) fun _ _ => Yields.ok rfl

theorem leaves_tunMtu : tunMtu.Leaves networks :=
  Setting.leaves_last fun _ _ => Yields.bind (Yields.any _) fun _ _ => Yields.bind (Yields.any _) fun _ _ => Yields.ok rfl

theorem leaves_mode : mode.Leaves networks := by
  refine Setting.leaves_last fun d args => Yields.bind (Yields.any _) fun arg _ => ?_
  split
  · exact Yields.ok rfl
  · exact Yields.error _

theorem leaves_ifconfig : ifconfig.Leaves networks :=
  Setting.leaves_last fun _ _ => Yields.bind (Yields.any _) fun _ _ => Yields.bind (Yields.any _) fun _ _ =>
    Yields.bind (Yields.any _) fun _ _ => Yields.ok rfl

theorem leaves_verifyX509Name : verifyX509Name.Leaves networks :=
  Setting.leaves_last fun _ _ => Yields.bind (Yields.any _) fun _ _ => Yields.bind (Yields.any _) fun _ _ => Yields.ok rfl

theorem leaves_connectRetry : connectRetry.Leaves networks :=
  Setting.leaves_last fun _ _ => Yields.bind (Yields.any _) fun _ _ => Yields.bind (Yields.any _) fun _ _ => Yields.ok rfl

theorem networks_useEmbbedUserAuth (np : VpnProfile) (inlinedata : List Char) :
    networks (useEmbbedUserAuth np inlinedata) = networks np := by
  unfold useEmbbedUserAuth
  split <;> rfl

theorem leaves_authUserPass : authUserPass.Leaves networks := by
  refine Setting.leaves_last fun d args => ?_
  dsimp only
  split
  · exact Yields.bind (Yields.any _) fun data _ => Yields.ok (networks_useEmbbedUserAuth _ data)
  · exact Yields.ok rfl

theorem leaves_authRetry : authRetry.Leaves networks :=
  Setting.leaves_last fun _ _ => Yields.bind (Yields.any _) fun _ _ => Yields.ok rfl

theorem leaves_crlVerify : crlVerify.Leaves networks := by
  refine Setting.leaves_last fun d args => ?_
  split
  · exact Yields.ok rfl
  · exact Yields.bind (Yields.any _) fun _ _ => Yields.ok rfl

theorem leaves_protoForce : protoForce.Leaves networks :=
  Setting.leaves_last fun _ _ => Yields.bind (Yields.any _) fun _ _ => Yields.bind (Yields.any _) fun _ _ => Yields.ok rfl

end Rows

/-! ### Tables -/

/-- The settings of `tunnelChecks` before `redirect-gateway`. -/
def keySettings : List (Setting Draft) :=
  [routeIpv6, routeNopull, tlsAuth, keyDirection, tlsCryptOf "tls-crypt", tlsCryptOf "tls-crypt-v2"]

theorem leaves_keySettings : ∀ st ∈ keySettings, st.Leaves networks := by
  simp only [keySettings, List.forall_mem_cons]
  refine ⟨leaves_routeIpv6, leaves_flag ?_ _ _ _, leaves_tlsAuth, leaves_value ?_ _,
    leaves_value ?_ _, leaves_value ?_ _, List.forall_mem_nil _⟩
  all_goals
    intros
    rfl

theorem uniform_keySettings : ∀ st ∈ keySettings, st.Uniform fun _ => True := fun st hst =>
  uniform_tunnelChecks st (List.mem_append_left [redirectGateway, redirectPrivate] hst)

theorem leaves_redirectPrivate : redirectPrivate.Leaves networks := fun _ _ => Yields.ok rfl

/-- The settings of `deviceSettings` before `dhcp-option`. -/
def mtuSettings : List (Setting Draft) := [mssfix, tunMtu, mode]

theorem leaves_mtuSettings : ∀ st ∈ mtuSettings, st.Leaves networks := by
  simp only [mtuSettings, List.forall_mem_cons]
  exact ⟨leaves_mssfix, leaves_tunMtu, leaves_mode, List.forall_mem_nil _⟩

theorem leaves_identitySettings : ∀ st ∈ identitySettings, st.Leaves networks := by
  simp only [identitySettings, List.forall_mem_cons]
  refine ⟨leaves_flag ?_ _ _ _, leaves_flag ?_ _ _ _, leaves_flag ?_ _ _ _, leaves_value ?_ _, leaves_value ?_ _,
    leaves_value ?_ _, leaves_credential ?_ _, leaves_value ?_ _, leaves_credential ?_ _,
    Setting.leaves_last fun _ _ => Yields.ok rfl, List.forall_mem_nil _⟩
  all_goals
    intros
    rfl

theorem leaves_verifySettings : ∀ st ∈ verifySettings, st.Leaves networks := by
  simp only [verifySettings, List.forall_mem_cons]
  refine ⟨leaves_verifyX509Name, leaves_value ?_ _, leaves_value ?_ _,
    leaves_flag ?_ _ _ _, leaves_flag ?_ _ _ _, leaves_flag ?_ _ _ _,
    leaves_connectRetry, leaves_value ?_ _, List.forall_mem_nil _⟩
  all_goals
    intros
    rfl

theorem leaves_loginSettings : ∀ st ∈ loginSettings, st.Leaves networks := by
  simp only [loginSettings, List.forall_mem_cons]
  exact ⟨leaves_authUserPass, leaves_authRetry, leaves_crlVerify, List.forall_mem_nil _⟩

theorem leaves_lastSettings : ∀ st ∈ [remoteRandom, protoForce], st.Leaves networks := by
  simp only [List.forall_mem_cons]
  refine ⟨leaves_flag ?_ _ _ _, leaves_protoForce, List.forall_mem_nil _⟩
  all_goals
    intros
    rfl

/-! ### Parsers -/

section
variable {β : Type} {view : VpnProfile → β}

/-- The parser leaves a view of the profile alone. -/
def Leaves (view : VpnProfile → β) (m : Draft → Parser Draft) : Prop :=
  ∀ d o, Yields (fun r => view r.1.np = view d.np) (m d o)

theorem Leaves.comp {γ : Type} {m : Draft → Parser Draft} (h : Leaves view m) (f : β → γ) :
    Leaves (fun np => f (view np)) m := fun d o r hr => congrArg f (h d o r hr)

theorem leaves_bind {m m' : Draft → Parser Draft} (hm : Leaves view m) (hm' : Leaves view m') :
    Leaves view fun d => m d >>= m' := by
  intro d o r hr
  obtain ⟨d', t, h, hr⟩ := run_bind_eq_ok.mp hr
  exact (hm' d' t r hr).trans (hm d o (d', t) h)

theorem leaves_read {st : Setting Draft} (h : st.Leaves view) : Leaves view st.read := by
  intro d o r hr
  obtain ⟨lines, t, -, hr⟩ := run_bind_eq_ok.mp hr
  cases lines with
  | none =>
    cases hr
    rfl
  | some lines => exact h d lines r.1 (eq_ok_of_lift hr)

theorem leaves_readAll {settings : List (Setting Draft)} (h : ∀ st ∈ settings, st.Leaves view) :
    Leaves view (readAll settings) := by
  induction settings with
  | nil =>
    intro d o r hr
    cases hr
    rfl
  | cons st settings ih =>
    obtain ⟨hst, hsettings⟩ := List.forall_mem_cons.mp h
    rw [readAll_cons]
    exact leaves_bind (leaves_read hst) (ih hsettings)

theorem leaves_devOptions : Leaves view devOptions := by
  intro d o r hr
  obtain ⟨dev, o₁, -, hr⟩ := run_bind_eq_ok.mp hr
  obtain ⟨devtype, o₂, -, hr⟩ := run_bind_eq_ok.mp hr
  obtain ⟨u, o₃, -, hr⟩ := run_bind_eq_ok.mp hr
  cases hr
  rfl

end

theorem leaves_pull : Leaves networks pull := by
  intro d o r hr
  unfold pull at hr
  split at hr <;> (cases hr; rfl)

theorem leaves_tlsRemoteOptions : Leaves networks tlsRemoteOptions := by
  intro d o r hr
  obtain ⟨compatnames, o₁, -, hr⟩ := run_bind_eq_ok.mp hr
  obtain ⟨nonameremapping, o₂, -, hr⟩ := run_bind_eq_ok.mp hr
  obtain ⟨tlsremote, o₃, -, hr⟩ := run_bind_eq_ok.mp hr
  obtain ⟨np, o₄, hnp, hr⟩ := run_bind_eq_ok.mp hr
  cases hr
  have hyields : Yields (fun np' => networks np' = networks d.np) (tlsRemote d.np compatnames nonameremapping tlsremote) := by
    unfold tlsRemote
    split
    · exact Yields.ok rfl
    · exact Yields.bind (Yields.any _) fun _ _ => Yields.ok rfl
  exact hyields np (eq_ok_of_lift hnp)

theorem leaves_remoteCertTls : Leaves networks remoteCertTls := by
  intro d o r hr
  obtain ⟨remotetls, o₁, -, hr⟩ := run_bind_eq_ok.mp hr
  cases remotetls with
  | none =>
    cases hr
    rfl
  | some remotetls =>
    obtain ⟨first, o₂, -, hr⟩ := run_bind_eq_ok.mp hr
    obtain ⟨use, o₃, -, hr⟩ := run_bind_eq_ok.mp hr
    split at hr
    · cases hr
      rfl
    · obtain ⟨u, o₄, -, hr⟩ := run_bind_eq_ok.mp hr
      cases hr
      rfl

theorem leaves_connections (order : HashOrder) : Leaves networks (connections order) := by
  intro d o r hr
  obtain ⟨conns, o₁, -, hr⟩ := run_bind_eq_ok.mp hr
  obtain ⟨connectionBlocks, o₂, -, hr⟩ := run_bind_eq_ok.mp hr
  obtain ⟨mConnections, o₃, -, hr⟩ := run_bind_eq_ok.mp hr
  cases hr
  rfl

theorem networks_customOptions (order : HashOrder) (np : VpnProfile) (o : Options) :
    networks (customOptions order np o) = networks np := by
  unfold customOptions
  split <;> rfl

theorem leaves_afterConnections (order : HashOrder) (metas : List (String × Args)) :
    Leaves networks (afterConnections order metas) := by
  refine leaves_bind (leaves_readAll leaves_lastSettings) fun d o r hr => ?_
  unfold checkIgnoreAndInvalidOptions at hr
  split at hr
  · cases hr
  · cases hr
    exact networks_customOptions order _ _

theorem networks_fixup (np : VpnProfile) : networks (fixup np) = networks np := by
  unfold fixup
  split <;> rfl

/-! ### Options -/

/-- The parser leaves the lines of an option alone. -/
def Spares (n : String) (m : Draft → Parser Draft) : Prop := ∀ d o, Yields (fun r => Options.all r.2 n = o.all n) (m d o)

theorem spares_bind {n : String} {m m' : Draft → Parser Draft} (hm : Spares n m) (hm' : Spares n m') :
    Spares n fun d => m d >>= m' := by
  intro d o r hr
  obtain ⟨d', t, h, hr⟩ := run_bind_eq_ok.mp hr
  exact (hm' d' t r hr).trans (hm d o (d', t) h)

theorem spares_of_spec {n : String} {m : Draft → Parser Draft} {takes : String → Prop} {looks : List String}
    {V D : Options → Prop} (h : ∀ d, Spec Options.all IsCaught takes looks (m d) V D) (hn : ¬takes n) : Spares n m :=
  fun d o r hr => (h d).frame o r.1 r.2 hr n hn

end ConfigParser
end NicVpn
