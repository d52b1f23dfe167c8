import NicVpn.Theorems.TunConfig
import NicVpn.Theorems.TunConfigString

/-! Whether an open tun can stay. The service compares the text of what was pushed since with the text that
    `openTun` kept, so the answer is right where a text tells its configuration and where `openTun` had no local
    network to add. -/

namespace NicVpn
namespace OpenVPNService

/-! ### What is pushed -/

/-- The sets have networks of their kind. -/
structure WellTyped (c : TunConfig) : Prop where
  len : ∀ ip ∈ c.mLocalIP, ip.len ≤ 32
  v4 : ∀ ip ∈ c.mRoutes, ip.isV4 = true ∧ ip.networkMask ≤ 32
  v6 : ∀ ip ∈ c.mRoutesv6, ip.isV4 = false

theorem WellTyped.typed {c : TunConfig} (h : WellTyped c) (mtu : Int) : Typed (.of c mtu) := by
  have hmem : ∀ {s : NetworkSpace} {included : Bool} {ip : IpAddress}, ip ∈ s.getNetworks included →
      ip ∈ s ∧ ip.included = included := by
    intro s included ip hip
    simpa [NetworkSpace.getNetworks] using hip
  refine ⟨h.len, fun ip hip => ?_, fun ip hip => ?_, fun ip hip => ?_, fun ip hip => ?_⟩
  · rcases List.mem_append.mp hip with hip | hip <;> exact h.v4 ip (hmem hip).1
  · rcases List.mem_append.mp hip with hip | hip <;> exact h.v6 ip (hmem hip).1
  · rcases List.mem_append.mp hip with hip | hip <;> exact (hmem hip).2
  · rcases List.mem_append.mp hip with hip | hip <;> exact (hmem hip).2

theorem mem_or_eq_of_mem_add {ip x : IpAddress} {s : List IpAddress} (h : x ∈ NetworkSpace.add ip s) : x = ip ∨ x ∈ s := by
  induction s with
  | nil => exact .inl (List.mem_singleton.mp h)
  | cons b s ih =>
    simp only [NetworkSpace.add] at h
    split at h
    · exact List.mem_cons.mp h
    · exact .inr h
    · rcases List.mem_cons.mp h with h | h
      · exact .inr (h ▸ List.mem_cons_self)
      · exact (ih h).imp_right (List.mem_cons_of_mem _)

theorem localLen_le {local_ netmask mode : List Char} {len : Nat} (h : State.localLen local_ netmask mode = some len) :
    len ≤ 32 := by
  obtain ⟨n, hn, h⟩ := Option.bind_eq_some_iff.mp h
  split at h
  · obtain ⟨netMaskAsInt, -, h⟩ := Option.bind_eq_some_iff.mp h
    obtain ⟨ip, -, h⟩ := Option.bind_eq_some_iff.mp h
    obtain rfl := Option.some.inj h
    have hnet : (if mode = "net30".toList then 30 else 31) ≤ 32 := by split <;> decide
    generalize (if mode = "net30".toList then 30 else 31) = masklen at hnet ⊢
    split
    · exact hnet
    · exact Nat.le_refl 32
  · obtain rfl := Option.some.inj h
    exact CIDRIP.calculateLenFromMask_le hn

/-- The MTU comes with each local address. -/
def pushedMtu : OpenVpnManagementThread.Needed → List Char → Option Int
  | .ifconfig, extra => (OpenVpnManagementThread.words extra)[2]?.bind Text.toInt
  | .ifconfig6, extra => (OpenVpnManagementThread.words extra)[1]?.bind Text.toInt
  | _, _ => none

/-- What a push does beside the configuration itself. -/
structure Pushes (mtu : Option Int) (s s' : State) : Prop where
  last : s'.mLastTunCfg = s.mLastTunCfg
  mMtu : s'.mMtu = mtu.getD s.mMtu
  addresses : mtu = none → s'.config.mLocalIP = s.config.mLocalIP ∧ s'.config.mLocalIPv6 = s.config.mLocalIPv6
  typed : WellTyped s.config → WellTyped s'.config

section
variable {env : Env} {s s' : State}

/-- A network that is added keeps its mask. -/
theorem addIP_normalise_typed {routes routes' : NetworkSpace} {cidr normal : CIDRIP} {incl : Bool} (hlen : cidr.len ≤ 32)
    (hnormal : cidr.normalise = some normal) (hadd : NetworkSpace.addIP routes normal incl = some routes')
    (h : ∀ ip ∈ routes, ip.isV4 = true ∧ ip.networkMask ≤ 32) :
    ∀ ip ∈ routes', ip.isV4 = true ∧ ip.networkMask ≤ 32 := by
  have hsame : normal.len = cidr.len := CIDRIP.len_normalise hnormal
  obtain ⟨net, hnet, hadd⟩ := Option.bind_eq_some_iff.mp hadd
  obtain rfl := Option.some.inj hadd
  obtain ⟨address, -, hnet⟩ := Option.bind_eq_some_iff.mp hnet
  obtain rfl := Option.some.inj hnet
  intro ip hip
  rcases mem_or_eq_of_mem_add hip with rfl | hip
  · exact ⟨rfl, hsame ▸ hlen⟩
  · exact h ip hip

theorem addRoute_pushes {dest mask gateway : List Char} {device : Option (List Char)}
    (hs : s.addRoute dest mask gateway device = some s') : Pushes none s s' := by
  simp only [State.addRoute] at hs
  obtain ⟨route, hroute, hs⟩ := Option.bind_eq_some_iff.mp hs
  obtain ⟨gatewayIP, -, hs⟩ := Option.bind_eq_some_iff.mp hs
  split at hs
  · obtain rfl := Option.some.inj hs
    exact ⟨rfl, rfl, fun _ => ⟨rfl, rfl⟩, id⟩
  · obtain ⟨localNet, -, hs⟩ := Option.bind_eq_some_iff.mp hs
    obtain ⟨normal, hnormal, hs⟩ := Option.bind_eq_some_iff.mp hs
    obtain ⟨routes, hroutes, hs⟩ := Option.bind_eq_some_iff.mp hs
    obtain rfl := Option.some.inj hs
    rw [CIDRIP.ofMask_eq] at hroute
    obtain ⟨len, hlen, rfl⟩ := Option.map_eq_some_iff.mp hroute
    refine ⟨rfl, rfl, fun _ => ⟨rfl, rfl⟩, fun h => ⟨h.len, ?_, h.v6⟩⟩
    exact addIP_normalise_typed (CIDRIP.calculateLenFromMask_le hlen) hnormal hroutes h.v4

theorem addRoutev6_pushes {network device : List Char} (hs : s.addRoutev6 env network device = some s') :
    Pushes none s s' := by
  simp only [State.addRoutev6, State.addRoutev6Included] at hs
  split at hs
  · cases hs
  · split at hs
    · cases hs
    · obtain rfl := Option.some.inj hs
      exact ⟨rfl, rfl, fun _ => ⟨rfl, rfl⟩, id⟩
    · obtain ⟨maskText, -, hs⟩ := Option.bind_eq_some_iff.mp hs
      obtain ⟨mask, -, hs⟩ := Option.bind_eq_some_iff.mp hs
      obtain rfl := Option.some.inj hs
      refine ⟨rfl, rfl, fun _ => ⟨rfl, rfl⟩, fun h => ⟨h.len, h.v4, fun ip hip => ?_⟩⟩
      rcases mem_or_eq_of_mem_add hip with rfl | hip
      · rfl
      · exact h.v6 ip hip

theorem setLocalIP_pushes {local_ netmask mode : List Char} {mtu : Int}
    (hs : s.setLocalIP env local_ netmask mtu mode = some s') : Pushes (some mtu) s s' := by
  simp only [State.setLocalIP] at hs
  obtain ⟨len, hlen, hs⟩ := Option.bind_eq_some_iff.mp hs
  obtain ⟨routes, hroutes, hs⟩ := Option.bind_eq_some_iff.mp hs
  obtain rfl := Option.some.inj hs
  have hlen := localLen_le hlen
  refine ⟨rfl, rfl, fun hmtu => absurd hmtu (Option.some_ne_none _), fun h => ⟨?_, ?_, h.v6⟩⟩
  · intro ip hip
    obtain rfl := Option.some.inj hip
    exact hlen
  · simp only [State.addInterfaceRoute] at hroutes
    split at hroutes
    · obtain ⟨normal, hnormal, hroutes⟩ := Option.bind_eq_some_iff.mp hroutes
      exact addIP_normalise_typed hlen hnormal hroutes h.v4
    · obtain rfl := Option.some.inj hroutes
      exact h.v4

theorem push_pushes {needed : OpenVpnManagementThread.Needed} {extra : List Char}
    (hs : push env needed extra s = some s') : Pushes (pushedMtu needed extra) s s' := by
  simp only [OpenVPNService.push] at hs
  cases needed with
  | protectfd | persistTunAction | opentun | dnsserver | dns6server | dnsdomain =>
    obtain rfl := Option.some.inj hs
    exact ⟨rfl, rfl, fun _ => ⟨rfl, rfl⟩, fun h => ⟨h.len, h.v4, h.v6⟩⟩
  | route =>
    simp only [OpenVpnManagementThread.push, service] at hs
    split at hs
    · exact addRoute_pushes hs
    · split at hs
      · exact addRoute_pushes hs
      · obtain rfl := Option.some.inj hs
        exact ⟨rfl, rfl, fun _ => ⟨rfl, rfl⟩, id⟩
  | route6 =>
    obtain ⟨network, -, hs⟩ := Option.bind_eq_some_iff.mp hs
    obtain ⟨device, -, hs⟩ := Option.bind_eq_some_iff.mp hs
    exact addRoutev6_pushes hs
  | ifconfig =>
    obtain ⟨text, htext, hs⟩ := Option.bind_eq_some_iff.mp hs
    obtain ⟨mtu, hmtu, hs⟩ := Option.bind_eq_some_iff.mp hs
    obtain ⟨mode, -, hs⟩ := Option.bind_eq_some_iff.mp hs
    rw [pushedMtu, htext, Option.bind_some, hmtu]
    exact setLocalIP_pushes hs
  | ifconfig6 =>
    obtain ⟨text, htext, hs⟩ := Option.bind_eq_some_iff.mp hs
    obtain ⟨mtu, hmtu, hs⟩ := Option.bind_eq_some_iff.mp hs
    obtain rfl := Option.some.inj hs
    rw [pushedMtu, htext, Option.bind_some, hmtu]
    exact ⟨rfl, rfl, fun hnone => absurd hnone (Option.some_ne_none _), fun h => ⟨h.len, h.v4, h.v6⟩⟩

end

theorem pushed_typed {env : Env} {ps : List Push} {p : State} (h : pushed env ps = some p) : WellTyped p.config := by
  have hfold : ∀ (ps : List Push) (s : State), WellTyped s.config →
      ps.foldlM (fun s p => push env p.needed p.extra s) s = some p → WellTyped p.config := by
    intro ps
    induction ps with
    | nil =>
      intro s hs h
      obtain rfl := Option.some.inj h
      exact hs
    | cons q ps ih =>
      intro s hs h
      rw [List.foldlM_cons] at h
      obtain ⟨s₁, h₁, h⟩ := Option.bind_eq_some_iff.mp h
      exact ih s₁ ((push_pushes h₁).typed hs) h
  exact hfold ps State.initial ⟨nofun, List.forall_mem_nil _, List.forall_mem_nil _⟩ h

/-! ### Runs -/

namespace Reuse

inductive Event
  | push (p : Push)
  /-- A call that returns a descriptor. -/
  | openTun (b : Builder)

/-- The service, what was pushed since the last `openTun`, and what had been pushed for it. -/
structure Session where
  state : State
  since : List Push
  opened : Option (List Push)

def step (env : Env) (t : Session) : Event → Option Session
  | .push p => (push env p.needed p.extra t.state).map fun s => { t with state := s, since := t.since ++ [p] }
  | .openTun b =>
    match t.state.openTun env b with
    | some (_, some _, s) => some { state := s, since := [], opened := some t.since }
    | _ => none

def Session.initial : Session := { state := State.initial, since := [], opened := none }

def system (env : Env) : StepSystem.System Session Event where
  init t := t = .initial
  step := step env

/-- The configuration that a new service has after some pushes. -/
def configuration (env : Env) (ps : List Push) : Option Configuration :=
  (pushed env ps).map fun s => .of s.config s.mMtu

/-- The tun stays exactly where what was pushed is what had been pushed for it. -/
def Exact (env : Env) (t : Session) : Prop :=
  t.state.getTunReopenStatus env = "NOACTION".toList ↔
    ∃ ps, t.opened = some ps ∧ configuration env ps = configuration env t.since

/-- A tun is opened for a configuration that its text tells, with no local network to add. -/
def Condition (env : Env) (t : Session) : Event → Prop
  | .push _ => True
  | .openTun _ => Plain (.of t.state.config t.state.mMtu) ∧
      withLocalNetworks env t.state.config = some (t.state.config.mRoutes, t.state.config.mRoutesv6)

/-! ### What is kept -/

def HasAddress (c : TunConfig) : Prop := ¬(c.mLocalIP = none ∧ c.mLocalIPv6 = none)

/-- The same configuration, and the same MTU once there is an address, which it came with. -/
structure Follows (s p : State) : Prop where
  same : Same s p
  mtu : HasAddress s.config → s.mMtu = p.mMtu

structure Inv (env : Env) (t : Session) : Prop where
  since : ∃ p, pushed env t.since = some p ∧ Follows t.state p
  none : t.opened = none → t.state.mLastTunCfg = none
  some : ∀ ps, t.opened = some ps → ∃ p, pushed env ps = some p ∧ HasAddress p.config ∧
    Plain (.of p.config p.mMtu) ∧ t.state.mLastTunCfg = some (Configuration.of p.config p.mMtu).text

section
variable {env : Env} {t u : Session}

theorem Follows.push {s p s' : State} (h : Follows s p) {needed : OpenVpnManagementThread.Needed} {extra : List Char}
    (hs : push env needed extra s = some s') : ∃ p', push env needed extra p = some p' ∧ Follows s' p' := by
  obtain ⟨p', hp', hsame⟩ := h.same.push hs
  refine ⟨p', hp', hsame, fun haddr => ?_⟩
  have hpush := push_pushes hs
  have hpush' := push_pushes hp'
  rw [hpush.mMtu, hpush'.mMtu]
  cases hmtu : pushedMtu needed extra with
  | some mtu => rfl
  | none =>
    obtain ⟨h4, h6⟩ := hpush.addresses hmtu
    rw [HasAddress, h4, h6] at haddr
    exact h.mtu haddr

/-- A tun that opens without local networks to add keeps the text of what was pushed. -/
theorem openTun_opened {s s' : State} {b : Builder} {handed : State.Handed} {fd : Nat}
    (h : s.openTun env b = some (handed, some fd, s'))
    (hlocal : withLocalNetworks env s.config = some (s.config.mRoutes, s.config.mRoutesv6)) :
    HasAddress s.config ∧ s'.config = .empty ∧ s'.mLastTunCfg = some (Configuration.of s.config s.mMtu).text := by
  simp only [State.openTun] at h
  split at h
  · cases h
  · rename_i haddr
    obtain ⟨s₁, h₁, h⟩ := Option.bind_eq_some_iff.mp h
    obtain ⟨nets, nets6, hnets, rfl⟩ := prepareRoutes_eq h₁
    rw [hlocal] at hnets
    obtain ⟨rfl, rfl⟩ := Prod.mk.inj (Option.some.inj hnets)
    obtain ⟨⟨addresses, accepted⟩, -, h⟩ := Option.bind_eq_some_iff.mp h
    cases accepted with
    | false => cases h
    | true =>
      obtain ⟨all, -, h⟩ := Option.bind_eq_some_iff.mp h
      obtain ⟨-, h⟩ := Prod.mk.inj (Option.some.inj h)
      obtain ⟨-, rfl⟩ := Prod.mk.inj h
      exact ⟨haddr, rfl, congrArg some (configString_eq s.config s.mMtu)⟩

theorem inv_step {e : Event} (h : Inv env t) (hc : Condition env t e) (hs : step env t e = some u) : Inv env u := by
  obtain ⟨p, hp, hfollows⟩ := h.since
  cases e with
  | push q =>
    obtain ⟨s, hpush, rfl⟩ := Option.map_eq_some_iff.mp hs
    obtain ⟨p', hp', hfollows'⟩ := hfollows.push hpush
    have hlast := (push_pushes hpush).last
    refine ⟨⟨p', pushed_append hp hp', hfollows'⟩, fun hnone => ?_, fun ps hps => ?_⟩
    · exact hlast.trans (h.none hnone)
    · obtain ⟨o, ho, haddr, hplain, htext⟩ := h.some ps hps
      exact ⟨o, ho, haddr, hplain, hlast.trans htext⟩
  | openTun b =>
    obtain ⟨hplain, hlocal⟩ := hc
    simp only [step] at hs
    split at hs
    · rename_i handed fd s hopen
      obtain rfl := Option.some.inj hs
      obtain ⟨haddr, hempty, htext⟩ := openTun_opened hopen hlocal
      refine ⟨⟨State.initial, rfl, ⟨hempty, ?_⟩, ?_⟩, nofun, fun ps hps => ?_⟩
      · exact fun hne => absurd (by rw [hempty]; rfl) hne
      · exact fun hne => absurd (by rw [hempty]; exact ⟨rfl, rfl⟩) hne
      · obtain rfl := Option.some.inj hps
        have hmtu := hfollows.mtu haddr
        rw [hfollows.same.config] at haddr
        rw [hfollows.same.config, hmtu] at hplain htext
        exact ⟨p, hp, haddr, hplain, htext⟩
    · cases hs

theorem inv_of_reachable (h : StepSystem.Reachable (system env) (Condition env) t) : Inv env t := by
  refine h.inv (fun t ht => ?_) fun t e u ht hc hs => inv_step ht hc hs
  obtain rfl := ht
  exact ⟨⟨State.initial, rfl, ⟨rfl, fun _ => rfl⟩, fun _ => rfl⟩, fun _ => rfl, nofun⟩

theorem getTunReopenStatus_eq_iff (s : State) :
    s.getTunReopenStatus env = "NOACTION".toList ↔ some (Configuration.of s.config s.mMtu).text = s.mLastTunCfg := by
  rw [State.getTunReopenStatus, State.getTunConfigString, configString_eq]
  constructor
  · intro h
    by_contra hne
    rw [if_neg hne] at h
    split at h <;> exact absurd h (by decide)
  · intro h
    rw [if_pos h]

/-- Two configurations with one address between them have it both. -/
theorem hasAddress_of_eq {c d : TunConfig} {m n : Int} (h : Configuration.of c m = Configuration.of d n)
    (hd : HasAddress d) : HasAddress c := by
  have h4 : c.mLocalIP = d.mLocalIP := congrArg Configuration.localIP h
  have h6 : c.mLocalIPv6 = d.mLocalIPv6 := congrArg Configuration.localIPv6 h
  rw [HasAddress, h4, h6]
  exact hd

/-- In every run that opens tuns only for configurations that their texts tell, with no local network to add, a
    question about such a configuration is answered rightly. -/
theorem getTunReopenStatus_exact (h : StepSystem.Reachable (system env) (Condition env) t)
    (hplain : Plain (.of t.state.config t.state.mMtu)) : Exact env t := by
  have hinv := inv_of_reachable h
  obtain ⟨p, hp, hfollows⟩ := hinv.since
  have hconfig := hfollows.same.config
  have hof : ∀ {o : State}, HasAddress o.config →
      (Configuration.of t.state.config t.state.mMtu = .of o.config o.mMtu ↔
        Configuration.of p.config p.mMtu = .of o.config o.mMtu) := by
    intro o ho
    constructor
    · intro heq
      rw [← hconfig, ← hfollows.mtu (hasAddress_of_eq heq ho), heq]
    · intro heq
      have haddr := hasAddress_of_eq heq ho
      rw [← hconfig] at haddr
      rw [hfollows.mtu haddr, hconfig, heq]
  rw [Exact, getTunReopenStatus_eq_iff]
  cases hopened : t.opened with
  | none =>
    rw [hinv.none hopened]
    simp
  | some ps =>
    obtain ⟨o, ho, haddr, hplain', hlast⟩ := hinv.some ps hopened
    have htyped := (pushed_typed ho).typed o.mMtu
    have htyped' := hconfig ▸ (pushed_typed hp).typed t.state.mMtu
    rw [hlast]
    constructor
    · intro htext
      have heq := Configuration.text_inj hplain htyped' hplain' htyped (Option.some.inj htext)
      refine ⟨ps, rfl, ?_⟩
      rw [configuration, configuration, ho, hp, Option.map_some, Option.map_some, (hof haddr).mp heq]
    · rintro ⟨ps', hps', hconf⟩
      obtain rfl := Option.some.inj hps'
      rw [configuration, configuration, ho, hp] at hconf
      rw [(hof haddr).mpr (Option.some.inj hconf).symm]

end

/-! ### Three runs -/

def ifconfig : Push := { needed := .ifconfig, extra := "10.8.0.2 255.255.255.0 1500 subnet".toList }

def dnsdomain (domain : String) : Push := { needed := .dnsdomain, extra := domain.toList }

/-- What a server pushes in one cycle. -/
def cycle : List Push := [ifconfig, ifconfig6, dnsserver "10.8.0.1", dnsdomain "example.org"]

/-- The configuration of a cycle. -/
def cycleConfig : TunConfig where
  mDnslist := ["10.8.0.1".toList]
  mDomain := some "example.org".toList
  mLocalIP := some { mIp := "10.8.0.2".toList, len := 24 }
  mLocalIPv6 := some "fd00::2/64".toList
  mRoutes := [{ netAddress := 168296448, networkMask := 24, included := true, isV4 := true }]
  mRoutesv6 := []

theorem plain_cycle : Plain (.of cycleConfig 1500) where
  localIP := by decide
  localIPv6 x hx := by
    obtain rfl := Option.some.inj hx
    exact ⟨by decide, "fd00".toList, ":2/64".toList, rfl, by decide⟩
  apart ip hip x _ y _ := by
    rintro ⟨-, d, -, -, hmax⟩
    obtain rfl := Option.some.inj hip
    exact absurd (Nat.le_trans (Nat.le_add_right _ d) hmax) (by decide)
  networks := by decide
  networks6 := List.forall_mem_nil _
  included _ _ _ hnone := by cases hnone
  excluded _ _ _ hnone := by cases hnone
  dns := by decide
  domain := by decide

/-- Tuns are opened for this configuration only. -/
def OpensCycle (t : Session) : Event → Prop
  | .push _ => True
  | .openTun _ => t.state.config = cycleConfig ∧ t.state.mMtu = 1500

instance (t : Session) : (e : Event) → Decidable (OpensCycle t e)
  | .push _ => isTrue trivial
  | .openTun _ => inferInstanceAs (Decidable (_ ∧ _))

theorem OpensCycle.condition {t : Session} {e : Event} (h : OpensCycle t e) : Condition phone t e := by
  cases e with
  | push p => trivial
  | openTun b =>
    obtain ⟨hconfig, hmtu⟩ := h
    rw [Condition, hconfig, hmtu]
    exact ⟨plain_cycle, by decide⟩

/-- The cycle was pushed, and the last tun was opened for the same pushes. -/
def again (t : Session) : Bool :=
  decide (t.state.config = cycleConfig ∧ t.state.mMtu = 1500 ∧ t.since = cycle ∧ t.opened = some cycle)

theorem getTunReopenStatus_exact_again :
    ∃ t, StepSystem.Reachable (system phone) (Condition phone) t ∧ Plain (.of t.state.config t.state.mMtu) ∧
      t.since = cycle ∧ t.opened = some cycle ∧ t.state.getTunReopenStatus phone = "NOACTION".toList := by
  have hrun : ((system phone).run OpensCycle .initial
      (cycle.map .push ++ [.openTun willing] ++ cycle.map .push)).any again = true := by decide
  obtain ⟨t, hreach, hagain⟩ := StepSystem.exists_reachable rfl _ hrun
  obtain ⟨hconfig, hmtu, hsince, hopened⟩ := of_decide_eq_true hagain
  have hreach := hreach.mono fun t e h => h.condition
  have hplain : Plain (.of t.state.config t.state.mMtu) := by
    rw [hconfig, hmtu]
    exact plain_cycle
  refine ⟨t, hreach, hplain, hsince, hopened, ?_⟩
  exact (getTunReopenStatus_exact hreach hplain).mpr ⟨cycle, hopened, by rw [hsince]⟩

/-- A device in a local network that the profile keeps out of the tun. -/
def lan : Env := { phone with mAllowLocalLAN := true, localNetworks := ["192.168.1.5/24".toList], fuel := 3 }

/-- The same was pushed, and the tun is opened anew all the same. -/
def reopened (env : Env) (t : Session) : Bool :=
  decide (t.opened = some t.since ∧ t.state.getTunReopenStatus env ≠ "NOACTION".toList)

/-- Something else was pushed, and the tun stays. -/
def kept (env : Env) (t : Session) : Bool :=
  decide (t.state.getTunReopenStatus env = "NOACTION".toList) &&
    t.opened.any fun ps => decide (configuration env ps ≠ configuration env t.since)

theorem not_exact_of_reopened {env : Env} {t : Session} (h : reopened env t = true) : ¬Exact env t := by
  obtain ⟨hopened, hstatus⟩ := of_decide_eq_true h
  exact fun hexact => hstatus (hexact.mpr ⟨t.since, hopened, rfl⟩)

theorem not_exact_of_kept {env : Env} {t : Session} (h : kept env t = true) : ¬Exact env t := by
  intro hexact
  obtain ⟨hstatus, hany⟩ := Bool.and_eq_true_iff.mp h
  obtain ⟨ps, hps, hne⟩ := (Option.any_eq_true _ _).mp hany
  obtain ⟨ps', hps', heq⟩ := hexact.mp (of_decide_eq_true hstatus)
  obtain rfl : ps = ps' := Option.some.inj (hps.symm.trans hps')
  exact of_decide_eq_true hne heq

/-- The local network that `openTun` adds is missing when the same pushes come again, and no domain has the text of
    the domain `null`. -/
theorem reuse_not_exact :
    (∃ t, StepSystem.Reachable (system lan) StepSystem.Any t ∧ t.since = cycle ∧ t.opened = some cycle ∧ ¬Exact lan t) ∧
      ∃ t, StepSystem.Reachable (system phone) StepSystem.Any t ∧ t.since = [ifconfig, dnsdomain "null"] ∧
        t.opened = some [ifconfig] ∧ ¬Exact phone t := by
  constructor
  · have hrun : ((system lan).run StepSystem.Any .initial
        (cycle.map .push ++ [.openTun willing] ++ cycle.map .push)).any
        (fun t => decide (t.since = cycle ∧ t.opened = some cycle) && reopened lan t) = true := by decide
    obtain ⟨t, hreach, hend⟩ := StepSystem.exists_reachable rfl _ hrun
    obtain ⟨hpushes, hreopened⟩ := Bool.and_eq_true_iff.mp hend
    obtain ⟨hsince, hopened⟩ := of_decide_eq_true hpushes
    exact ⟨t, hreach, hsince, hopened, not_exact_of_reopened hreopened⟩
  · have hrun : ((system phone).run StepSystem.Any .initial
        [.push ifconfig, .openTun willing, .push ifconfig, .push (dnsdomain "null")]).any
        (fun t => decide (t.since = [ifconfig, dnsdomain "null"] ∧ t.opened = some [ifconfig]) && kept phone t) = true := by
      decide
    obtain ⟨t, hreach, hend⟩ := StepSystem.exists_reachable rfl _ hrun
    obtain ⟨hpushes, hkept⟩ := Bool.and_eq_true_iff.mp hend
    obtain ⟨hsince, hopened⟩ := of_decide_eq_true hpushes
    exact ⟨t, hreach, hsince, hopened, not_exact_of_kept hkept⟩

end Reuse

end OpenVPNService
end NicVpn
