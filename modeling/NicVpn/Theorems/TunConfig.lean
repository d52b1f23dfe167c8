import NicVpn.OpenVPNService
import NicVpn.Lib.Run

/-! What one tun device gets. An `openTun` hands over what was pushed since the request before it, with the
    local networks, as long as the earlier requests came as far as the reset. -/

namespace NicVpn
namespace OpenVPNService
open OpenVpnManagementThread (Needed)

/-! ### Runs -/

/-- A message with its argument. -/
structure Push where
  needed : Needed
  extra : List Char
  deriving Repr, DecidableEq

inductive Event
  | push (p : Push)
  | opentun (extra : List Char) (b : Builder)

/-- The service, and what was pushed since the last `OPENTUN` request. -/
structure Session where
  state : State
  since : List Push

def step (env : Env) (t : Session) : Event → Option Session
  | .push p => (push env p.needed p.extra t.state).map fun s => { state := s, since := t.since ++ [p] }
  | .opentun extra b => (request env b extra t.state).map fun s => { state := s, since := [] }

def system (env : Env) : StepSystem.System Session Event where
  init t := t = { state := State.initial, since := [] }
  step := step env

/-- A new service after some pushes. -/
def pushed (env : Env) (ps : List Push) : Option State :=
  ps.foldlM (fun s p => push env p.needed p.extra s) State.initial

/-- The request comes as far as the reset: it is for a tun, an address was pushed, and the `Builder` accepts what
    was pushed as addresses. -/
def Resets (t : Session) : Event → Prop
  | .push _ => True
  | .opentun extra b =>
    extra = "tun".toList ∧ (t.state.config.mLocalIP ≠ none ∨ t.state.config.mLocalIPv6 ≠ none) ∧
      (State.addAddresses b t.state.config).map Prod.snd = some true

/-- The route sets with the local networks that `openTun` adds itself. -/
def withLocalNetworks (env : Env) (c : TunConfig) : Option (NetworkSpace × NetworkSpace) :=
  (State.prepareRoutes env { State.initial with config := c }).map fun s => (s.config.mRoutes, s.config.mRoutesv6)

/-- What the `Builder` gets for a configuration: nothing without an address, the addresses as far as they are
    accepted, and then everything of the configuration, the routes from its networks and the local ones. -/
inductive Hands (env : Env) (b : Builder) (c : TunConfig) : State.Handed → Prop
  | noAddress (h4 : c.mLocalIP = none) (h6 : c.mLocalIPv6 = none) : Hands env b c (.addressesOnly [])
  | rejected {addresses : List (List Char × Int)} (h : State.addAddresses b c = some (addresses, false)) :
      Hands env b c (.addressesOnly addresses)
  | all {addresses : List (List Char × Int)} {nets nets6 : NetworkSpace} {routes routes6 : List IpAddress}
      (h : State.addAddresses b c = some (addresses, true)) (hnets : withLocalNetworks env c = some (nets, nets6))
      (hroutes : NetworkSpace.getPositiveIPList env.fuel env.ties env.sdkInt nets = some routes)
      (hroutes6 : NetworkSpace.getPositiveIPList env.fuel env.ties env.sdkInt nets6 = some routes6) :
      Hands env b c
        { addresses := addresses
          dns := c.mDnslist
          routes := (State.withDnsRoute env c.mDnslist routes).filter fun r => !State.multicastRange.containsNet r
          routes6 := routes6
          searchDomain := c.mDomain }

/-! ### Adding the local networks changes the route sets only -/

/-- A state with another set of IPv6 networks. -/
def State.mapRoutesv6 (s : State) (f : NetworkSpace → NetworkSpace) : State :=
  { s with config := { s.config with mRoutesv6 := f s.config.mRoutesv6 } }

/-- An IPv6 network changes the set of IPv6 networks and nothing else, in any state the same way. -/
theorem addRoutev6Included_eq {env : Env} {s s' : State} {network : List Char} {included : Bool}
    (h : s.addRoutev6Included env network included = some s') :
    ∃ f, ∀ t : State, t.addRoutev6Included env network included = some (t.mapRoutesv6 f) := by
  simp only [State.addRoutev6Included] at h ⊢
  split at h
  · cases h
  · split at h
    · cases h
    · exact ⟨id, fun t => rfl⟩
    · rename_i ip _
      obtain ⟨maskText, hmask, h⟩ := Option.bind_eq_some_iff.mp h
      obtain ⟨mask, hint, -⟩ := Option.bind_eq_some_iff.mp h
      exact ⟨fun r => r.addIPv6 ip mask.toNat included, fun t => by simp [hmask, hint, State.mapRoutesv6]⟩

theorem foldlM_addRoutev6Included_eq {env : Env} {included : Bool} {nets : List (List Char)} {s s' : State}
    (h : nets.foldlM (fun s net => s.addRoutev6Included env net included) s = some s') :
    ∃ f, ∀ t : State, nets.foldlM (fun s net => s.addRoutev6Included env net included) t = some (t.mapRoutesv6 f) := by
  induction nets generalizing s with
  | nil => exact ⟨id, fun t => rfl⟩
  | cons net nets ih =>
    rw [List.foldlM_cons] at h
    obtain ⟨s₁, h₁, h⟩ := Option.bind_eq_some_iff.mp h
    obtain ⟨f, hf⟩ := addRoutev6Included_eq h₁
    obtain ⟨g, hg⟩ := ih h
    refine ⟨g ∘ f, fun t => ?_⟩
    rw [List.foldlM_cons, hf t]
    exact hg (t.mapRoutesv6 f)

/-- The local networks are added to the route sets of the configuration, whatever the rest of the state is. -/
theorem addLocalNetworksToRoutes_eq {env : Env} {localIp : CIDRIP} {s s' : State}
    (h : s.addLocalNetworksToRoutes env localIp = some s') :
    ∃ nets nets6, s' = { s with config := { s.config with mRoutes := nets, mRoutesv6 := nets6 } } ∧
      ∀ t : State, t.config = s.config → t.addLocalNetworksToRoutes env localIp =
        some { t with config := { t.config with mRoutes := nets, mRoutesv6 := nets6 } } := by
  simp only [State.addLocalNetworksToRoutes] at h ⊢
  obtain ⟨nets, hnets, h⟩ := Option.bind_eq_some_iff.mp h
  split at h
  · rename_i hallow
    obtain ⟨f, hf⟩ := foldlM_addRoutev6Included_eq h
    rw [hf] at h
    refine ⟨nets, f s.config.mRoutesv6, (Option.some.inj h).symm, fun t ht => ?_⟩
    rw [ht, hnets]
    simp only [Option.bind_eq_bind, Option.bind_some, hallow, ↓reduceIte, hf, State.mapRoutesv6]
  · rename_i hallow
    refine ⟨nets, s.config.mRoutesv6, (Option.some.inj h).symm, fun t ht => ?_⟩
    rw [ht, hnets]
    simp only [Option.bind_eq_bind, Option.bind_some, hallow, Bool.false_eq_true, ↓reduceIte]

/-! ### What one `openTun` hands over -/

theorem prepareRoutes_eq {env : Env} {s s' : State} (h : s.prepareRoutes env = some s') :
    ∃ nets nets6, withLocalNetworks env s.config = some (nets, nets6) ∧
      s' = { s with config := { s.config with mRoutes := nets, mRoutesv6 := nets6 } } := by
  simp only [State.prepareRoutes, withLocalNetworks] at h ⊢
  split at h
  · obtain ⟨nets, nets6, hs', hany⟩ := addLocalNetworksToRoutes_eq h
    refine ⟨nets, nets6, ?_, hs'⟩
    rw [hany { State.initial with config := s.config } rfl]
    rfl
  · exact ⟨s.config.mRoutes, s.config.mRoutesv6, rfl, (Option.some.inj h).symm⟩

theorem openTun_hands {env : Env} {b : Builder} {s s' : State} {handed : State.Handed} {fd : Option Nat}
    (h : s.openTun env b = some (handed, fd, s')) : Hands env b s.config handed := by
  simp only [State.openTun] at h
  split at h
  · rename_i hnone
    obtain ⟨rfl, -⟩ := Prod.mk.inj (Option.some.inj h)
    exact .noAddress hnone.1 hnone.2
  · obtain ⟨s₁, h₁, h⟩ := Option.bind_eq_some_iff.mp h
    obtain ⟨nets, nets6, hnets, rfl⟩ := prepareRoutes_eq h₁
    obtain ⟨⟨addresses, accepted⟩, haddr, h⟩ := Option.bind_eq_some_iff.mp h
    have haddr : State.addAddresses b s.config = some (addresses, accepted) := haddr
    cases accepted with
    | false =>
      obtain ⟨rfl, -⟩ := Prod.mk.inj (Option.some.inj h)
      exact .rejected haddr
    | true =>
      obtain ⟨all, hall, h⟩ := Option.bind_eq_some_iff.mp h
      obtain ⟨rfl, -⟩ := Prod.mk.inj (Option.some.inj h)
      simp only [State.handOver] at hall
      generalize (if env.oldKitkat = true ∧ s.mMtu < 1280 then 1280 else s.mMtu) = mtu at hall
      split at hall
      · cases hall
      · obtain ⟨routes, hroutes, hall⟩ := Option.bind_eq_some_iff.mp hall
        obtain ⟨routes6, hroutes6, hall⟩ := Option.bind_eq_some_iff.mp hall
        split at hall
        · cases hall
        · obtain rfl := Option.some.inj hall
          exact .all haddr hnets hroutes hroutes6

/-- A request that comes as far as the reset, and does not throw, leaves nothing of what was pushed. -/
theorem openTun_resets {env : Env} {b : Builder} {s s' : State} {handed : State.Handed} {fd : Option Nat}
    (h : s.openTun env b = some (handed, fd, s'))
    (haddr : s.config.mLocalIP ≠ none ∨ s.config.mLocalIPv6 ≠ none)
    (haccept : (State.addAddresses b s.config).map Prod.snd = some true) : s'.config = .empty := by
  have hsome : ¬(s.config.mLocalIP = none ∧ s.config.mLocalIPv6 = none) := by tauto
  simp only [State.openTun, hsome, ↓reduceIte] at h
  obtain ⟨s₁, h₁, h⟩ := Option.bind_eq_some_iff.mp h
  obtain ⟨nets, nets6, -, rfl⟩ := prepareRoutes_eq h₁
  obtain ⟨⟨addresses, accepted⟩, haddr, h⟩ := Option.bind_eq_some_iff.mp h
  have haddr : State.addAddresses b s.config = some (addresses, accepted) := haddr
  rw [haddr] at haccept
  obtain rfl : accepted = true := Option.some.inj haccept
  obtain ⟨all, -, h⟩ := Option.bind_eq_some_iff.mp h
  obtain ⟨-, h⟩ := Prod.mk.inj (Option.some.inj h)
  obtain ⟨-, rfl⟩ := Prod.mk.inj h
  rfl

theorem request_tun {env : Env} {b : Builder} {s s' : State} (h : request env b "tun".toList s = some s') :
    ∃ handed fd, s.openTun env b = some (handed, fd, s') := by
  simp only [request, OpenVpnManagementThread.Thread.sendTunFD, service, ne_eq, not_true_eq_false, ↓reduceIte] at h
  cases hopen : s.openTun env b with
  | none => simp [hopen] at h
  | some r =>
    obtain ⟨handed, fd, t⟩ := r
    cases fd with
    | none =>
      simp only [hopen, Option.map_some, Option.some.injEq] at h
      exact ⟨handed, none, by rw [h]⟩
    | some fd =>
      simp only [hopen, Option.map_some, Option.some.injEq] at h
      exact ⟨handed, some fd, by rw [h]⟩

/-! ### What is pushed does not depend on what was there -/

/-- The same configuration; the gateway counts only where there is an IPv4 address, which it came with. -/
structure Same (s t : State) : Prop where
  config : s.config = t.config
  gateway : s.config.mLocalIP ≠ none → s.mRemoteGW = t.mRemoteGW

section
variable {env : Env} {s t s' : State}

theorem Same.addRoute (h : Same s t) {dest mask gateway : List Char} {device : Option (List Char)}
    (hs : s.addRoute dest mask gateway device = some s') :
    ∃ t', t.addRoute dest mask gateway device = some t' ∧ Same s' t' := by
  obtain ⟨hconfig, hgw⟩ := h
  simp only [State.addRoute, ← hconfig] at hs ⊢
  obtain ⟨route, hroute, hs⟩ := Option.bind_eq_some_iff.mp hs
  obtain ⟨gatewayIP, hgateway, hs⟩ := Option.bind_eq_some_iff.mp hs
  simp only [hroute, hgateway, Option.bind_eq_bind, Option.bind_some]
  cases hlocal : s.config.mLocalIP with
  | none =>
    rw [hlocal] at hs
    obtain rfl := Option.some.inj hs
    exact ⟨t, rfl, hconfig, hgw⟩
  | some localIp =>
    rw [hlocal] at hs
    have hgw' : s.mRemoteGW = t.mRemoteGW := hgw (by rw [hlocal]; simp)
    obtain ⟨localNet, hnet, hs⟩ := Option.bind_eq_some_iff.mp hs
    obtain ⟨normal, hnormal, hs⟩ := Option.bind_eq_some_iff.mp hs
    obtain ⟨routes, hroutes, hs⟩ := Option.bind_eq_some_iff.mp hs
    obtain rfl := Option.some.inj hs
    rw [hgw'] at hroutes
    simp only [hnet, hnormal, hroutes, Option.bind_some]
    exact ⟨_, rfl, rfl, fun _ => hgw'⟩

theorem Same.addRoutev6 (h : Same s t) {network device : List Char} (hs : s.addRoutev6 env network device = some s') :
    ∃ t', t.addRoutev6 env network device = some t' ∧ Same s' t' := by
  obtain ⟨f, hf⟩ := addRoutev6Included_eq hs
  rw [State.addRoutev6, hf] at hs
  obtain rfl := Option.some.inj hs
  refine ⟨t.mapRoutesv6 f, hf t, ?_, h.gateway⟩
  simp only [State.mapRoutesv6, h.config]

theorem Same.setLocalIP (h : Same s t) {local_ netmask mode : List Char} {mtu : Int}
    (hs : s.setLocalIP env local_ netmask mtu mode = some s') :
    ∃ t', t.setLocalIP env local_ netmask mtu mode = some t' ∧ Same s' t' := by
  simp only [State.setLocalIP, ← h.config] at hs ⊢
  obtain ⟨len, hlen, hs⟩ := Option.bind_eq_some_iff.mp hs
  obtain ⟨routes, hroutes, hs⟩ := Option.bind_eq_some_iff.mp hs
  obtain rfl := Option.some.inj hs
  simp only [hlen, hroutes, Option.bind_eq_bind, Option.bind_some]
  exact ⟨_, rfl, rfl, fun _ => rfl⟩

theorem Same.addDNS (h : Same s t) (dns : List Char) : Same (s.addDNS dns) (t.addDNS dns) :=
  ⟨by simp only [State.addDNS, h.config], h.gateway⟩

theorem Same.setDomain (h : Same s t) (domain : List Char) : Same (s.setDomain domain) (t.setDomain domain) :=
  ⟨by simp only [State.setDomain, h.config], h.gateway⟩

theorem Same.setLocalIPv6 (h : Same s t) (ip : List Char) : Same (s.setLocalIPv6 ip) (t.setLocalIPv6 ip) :=
  ⟨by simp only [State.setLocalIPv6, h.config], h.gateway⟩

/-- A message has the same effect in both states. -/
theorem Same.push (h : Same s t) {needed : Needed} {extra : List Char} (hs : push env needed extra s = some s') :
    ∃ t', push env needed extra t = some t' ∧ Same s' t' := by
  simp only [OpenVPNService.push] at hs ⊢
  cases needed with
  | protectfd | persistTunAction | opentun =>
    obtain rfl := Option.some.inj hs
    exact ⟨t, rfl, h⟩
  | dnsserver | dns6server =>
    obtain rfl := Option.some.inj hs
    exact ⟨_, rfl, h.addDNS extra⟩
  | dnsdomain =>
    obtain rfl := Option.some.inj hs
    exact ⟨_, rfl, h.setDomain extra⟩
  | route =>
    simp only [OpenVpnManagementThread.push, service] at hs ⊢
    split at hs
    · rename_i h5
      simp only [h5, ↓reduceIte]
      exact h.addRoute hs
    · rename_i h5
      simp only [h5, Bool.false_eq_true, ↓reduceIte]
      split at hs
      · rename_i h3
        simp only [h3, ↓reduceIte]
        exact h.addRoute hs
      · rename_i h3
        obtain rfl := Option.some.inj hs
        simp only [h3, ↓reduceIte]
        exact ⟨t, rfl, h⟩
  | route6 =>
    obtain ⟨network, hnetwork, hs⟩ := Option.bind_eq_some_iff.mp hs
    obtain ⟨device, hdevice, hs⟩ := Option.bind_eq_some_iff.mp hs
    obtain ⟨t', ht', hsame⟩ := h.addRoutev6 hs
    refine ⟨t', ?_, hsame⟩
    simp only [OpenVpnManagementThread.push, hnetwork, hdevice, Option.bind_eq_bind, Option.bind_some]
    exact ht'
  | ifconfig =>
    obtain ⟨text, htext, hs⟩ := Option.bind_eq_some_iff.mp hs
    obtain ⟨mtu, hmtu, hs⟩ := Option.bind_eq_some_iff.mp hs
    obtain ⟨mode, hmode, hs⟩ := Option.bind_eq_some_iff.mp hs
    obtain ⟨t', ht', hsame⟩ := h.setLocalIP hs
    refine ⟨t', ?_, hsame⟩
    simp only [OpenVpnManagementThread.push, htext, hmtu, hmode, Option.bind_eq_bind, Option.bind_some]
    exact ht'
  | ifconfig6 =>
    obtain ⟨text, htext, hs⟩ := Option.bind_eq_some_iff.mp hs
    obtain ⟨mtu, hmtu, hs⟩ := Option.bind_eq_some_iff.mp hs
    obtain rfl := Option.some.inj hs
    have hmtu' : Same (s.setMtu mtu) (t.setMtu mtu) := ⟨h.config, h.gateway⟩
    refine ⟨_, ?_, hmtu'.setLocalIPv6 _⟩
    simp only [OpenVpnManagementThread.push, htext, hmtu, Option.bind_eq_bind, Option.bind_some]
    rfl

end

/-! ### Every run -/

/-- The configuration is what was pushed since the last request. -/
def Fresh (env : Env) (t : Session) : Prop := ∃ p, pushed env t.since = some p ∧ Same t.state p

theorem pushed_append {env : Env} {ps : List Push} {q : Push} {p p' : State} (hp : pushed env ps = some p)
    (hp' : push env q.needed q.extra p = some p') : pushed env (ps ++ [q]) = some p' := by
  rw [pushed, List.foldlM_append, ← pushed, hp]
  simp only [Option.bind_eq_bind, Option.bind_some, List.foldlM_cons, List.foldlM_nil, hp']
  rfl

theorem fresh_step {env : Env} {t u : Session} {e : Event} (h : Fresh env t) (hr : Resets t e)
    (hs : step env t e = some u) : Fresh env u := by
  cases e with
  | push q =>
    obtain ⟨s, hpush, rfl⟩ := Option.map_eq_some_iff.mp hs
    obtain ⟨p, hp, hsame⟩ := h
    obtain ⟨p', hp', hsame'⟩ := hsame.push hpush
    exact ⟨p', pushed_append hp hp', hsame'⟩
  | opentun extra b =>
    obtain ⟨s, hreq, rfl⟩ := Option.map_eq_some_iff.mp hs
    obtain ⟨rfl, haddr, haccept⟩ := hr
    obtain ⟨handed, fd, hopen⟩ := request_tun hreq
    have hempty := openTun_resets hopen haddr haccept
    exact ⟨State.initial, rfl, hempty, fun hne => absurd (by rw [hempty]; rfl) hne⟩

theorem fresh_of_reachable {env : Env} {t : Session} (h : StepSystem.Reachable (system env) Resets t) : Fresh env t := by
  refine h.inv (fun t ht => ?_) fun t e u ht hr hs => fresh_step ht hr hs
  obtain rfl := ht
  exact ⟨State.initial, rfl, rfl, fun _ => rfl⟩

/-- In every run whose requests all come as far as the reset, the next `openTun`, whatever becomes of it, hands over
    what was pushed since the request before it, with the local networks it adds itself. -/
theorem handed_is_pushed {env : Env} {t : Session} (h : StepSystem.Reachable (system env) Resets t) (b : Builder)
    {handed : State.Handed} {fd : Option Nat} {s : State} (hopen : t.state.openTun env b = some (handed, fd, s)) :
    ∃ p, pushed env t.since = some p ∧ Hands env b p.config handed := by
  obtain ⟨p, hp, hsame⟩ := fresh_of_reachable h
  exact ⟨p, hp, hsame.config ▸ openTun_hands hopen⟩

/-! ### Two runs -/

/-- Android 8 without local networks. -/
def phone : Env where
  sdkInt := 26
  oldKitkat := false
  samsung := false
  mAllowLocalLAN := false
  localNetworks := []
  localNetworks6 := []
  getByName _ := .unknown
  fuel := 1
  ties _ := 0

/-- A `Builder` that accepts everything. -/
def willing : Builder where
  acceptsAddress _ _ := true
  acceptsMtu _ := true
  allowedPackagesReturn := true
  establish := some 42

def ifconfig6 : Push := { needed := .ifconfig6, extra := "fd00::2/64 1500".toList }

def dnsserver (dns : String) : Push := { needed := .dnsserver, extra := dns.toList }

/-- What a run ends with: what was pushed since the last request, and what `openTun` hands over. -/
def endsWith (since : List Push) (handed : State.Handed) (t : Session) : Bool :=
  t.since == since && (t.state.openTun phone willing).map Prod.fst == some handed

theorem endsWith_openTun {since : List Push} {handed : State.Handed} {t : Session}
    (h : endsWith since handed t = true) :
    t.since = since ∧ ∃ fd s, t.state.openTun phone willing = some (handed, fd, s) := by
  simp only [endsWith, Bool.and_eq_true, beq_iff_eq, Option.map_eq_some_iff] at h
  obtain ⟨hsince, ⟨handed', fd, s⟩, hopen, rfl⟩ := h
  exact ⟨hsince, fd, s, hopen⟩

instance (t : Session) : (e : Event) → Decidable (Resets t e)
  | .push _ => isTrue trivial
  | .opentun _ _ => inferInstanceAs (Decidable (_ ∧ _))

/-- The tun of a second cycle of messages. -/
def secondTun : State.Handed where
  addresses := [("fd00::2".toList, 64)]
  dns := ["10.0.0.2".toList]
  routes := []
  routes6 := []
  searchDomain := none

theorem handed_is_pushed_second :
    ∃ t p, StepSystem.Reachable (system phone) Resets t ∧ t.since = [ifconfig6, dnsserver "10.0.0.2"] ∧
      pushed phone t.since = some p ∧ Hands phone willing p.config secondTun := by
  have hrun : ((system phone).run Resets { state := State.initial, since := [] }
      [.push ifconfig6, .push (dnsserver "10.0.0.1"), .opentun "tun".toList willing, .push ifconfig6,
        .push (dnsserver "10.0.0.2")]).any
      (endsWith [ifconfig6, dnsserver "10.0.0.2"] secondTun) = true := by decide
  obtain ⟨t, hreach, hend⟩ := StepSystem.exists_reachable rfl _ hrun
  obtain ⟨hsince, fd, s, hopen⟩ := endsWith_openTun hend
  obtain ⟨p, hp, hhands⟩ := handed_is_pushed hreach willing hopen
  exact ⟨t, p, hreach, hsince, hp, hhands⟩

/-- The tun after a request for another device: it has the DNS server of before that request. -/
def leakyTun : State.Handed := { secondTun with dns := ["10.0.0.1".toList, "10.0.0.2".toList] }

theorem Hands.dns_eq {env : Env} {b : Builder} {c : TunConfig} {handed : State.Handed} (h : Hands env b c handed) :
    handed.dns = [] ∨ handed.dns = c.mDnslist := by
  cases h with
  | noAddress | rejected => exact .inl rfl
  | all => exact .inr rfl

theorem dns_leaks_after_wrong_device :
    ∃ t fd s, StepSystem.Reachable (system phone) StepSystem.Any t ∧ t.since = [ifconfig6, dnsserver "10.0.0.2"] ∧
      t.state.openTun phone willing = some (leakyTun, fd, s) ∧
      ¬∃ p, pushed phone t.since = some p ∧ Hands phone willing p.config leakyTun := by
  have hrun : ((system phone).run StepSystem.Any { state := State.initial, since := [] }
      [.push ifconfig6, .push (dnsserver "10.0.0.1"), .opentun "tap".toList willing, .push ifconfig6,
        .push (dnsserver "10.0.0.2")]).any
      (endsWith [ifconfig6, dnsserver "10.0.0.2"] leakyTun) = true := by decide
  obtain ⟨t, hreach, hend⟩ := StepSystem.exists_reachable rfl _ hrun
  obtain ⟨hsince, fd, s, hopen⟩ := endsWith_openTun hend
  refine ⟨t, fd, s, hreach, hsince, hopen, ?_⟩
  rintro ⟨p, hp, hhands⟩
  have hdns : (pushed phone [ifconfig6, dnsserver "10.0.0.2"]).map (fun p => p.config.mDnslist) =
      some ["10.0.0.2".toList] := by decide
  rw [hsince] at hp
  rw [hp] at hdns
  have hp : p.config.mDnslist = ["10.0.0.2".toList] := Option.some.inj hdns
  rcases hhands.dns_eq with h | h
  · exact absurd h (by decide)
  · rw [hp] at h
    exact absurd h (by decide)

end OpenVPNService
end NicVpn
