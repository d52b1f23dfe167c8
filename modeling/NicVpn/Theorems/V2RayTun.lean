import NicVpn.Lib.Dyadic
import NicVpn.Lib.Inet6
import NicVpn.Lib.Intervals
import NicVpn.NetworkSpace
import NicVpn.Theorems.V2rayConfigUtil
import NicVpn.V2RayTun

/-! Which addresses the interface of the V2Ray service captures, and that tun2socks and the core are told of the same
    ports. -/

namespace NicVpn.V2ray
namespace V2RayTun
open SettingsStorage V2ray.Utils V2rayConfigUtil V2rayConfig Intervals

/-! ### Networks -/

/-- The address is in the network of the route: it has the same number above the lowest `width - prefixLength` bits. -/
def Route.Has (r : Route) (width network a : Nat) : Prop :=
  a / 2 ^ (width - r.prefixLength.toNat) = network / 2 ^ (width - r.prefixLength.toNat)

def Route.HasV4 (r : Route) (a : Nat) : Prop := ∃ n : Nat, CIDRIP.getInt r.address = some (n : Int) ∧ r.Has 32 n a

def Route.HasV6 (r : Route) (a : Nat) : Prop := ∃ n, Inet6.parse r.address = some n ∧ r.Has 128 n a

/-- What `Builder.addRoute` demands: a length that the address has, and no bit of the address behind it. -/
def Route.Accepted (r : Route) : Prop :=
  (∃ n : Nat, CIDRIP.getInt r.address = some (n : Int) ∧ 0 ≤ r.prefixLength ∧ r.prefixLength ≤ 32 ∧
      2 ^ (32 - r.prefixLength.toNat) ∣ n) ∨
    ∃ n, Inet6.parse r.address = some n ∧ 0 ≤ r.prefixLength ∧ r.prefixLength ≤ 128 ∧
      2 ^ (128 - r.prefixLength.toNat) ∣ n

/-- The addresses of a network as an interval. -/
def interval (n k : Nat) : Interval where
  lo := Dyadic.low k n
  hi := Dyadic.high k n + 1
  le := Nat.le_succ_of_le (Dyadic.low_le_high k n)

/-- The number of an IPv4 address. -/
def Route.number? (r : Route) : Option Nat := (CIDRIP.getInt r.address).bind Int.toNat?

theorem number?_eq_some {r : Route} {n : Nat} : r.number? = some n ↔ CIDRIP.getInt r.address = some (n : Int) := by
  unfold Route.number?
  constructor
  · intro h
    obtain ⟨m, hm, hn⟩ := Option.bind_eq_some_iff.mp h
    rw [hm, Int.mem_toNat?.mp hn]
  · intro h
    rw [h]
    rfl

def Route.interval? (r : Route) : Option Interval := r.number?.map fun n => interval n (32 - r.prefixLength.toNat)

theorem hasV4_iff {r : Route} {a : Nat} : r.HasV4 a ↔ ∃ i ∈ r.interval?, i.lo ≤ a ∧ a < i.hi := by
  unfold Route.HasV4 Route.interval? Route.Has
  constructor
  · rintro ⟨n, hn, ha⟩
    obtain ⟨hlo, hhi⟩ := (Dyadic.between_iff _ n a).mpr ha
    exact ⟨_, by rw [number?_eq_some.mpr hn]; rfl, hlo, Nat.lt_succ_of_le hhi⟩
  · rintro ⟨i, hi, hlo, hhi⟩
    obtain ⟨n, hn, rfl⟩ := Option.map_eq_some_iff.mp hi
    exact ⟨n, number?_eq_some.mp hn, (Dyadic.between_iff _ n a).mp ⟨hlo, Nat.le_of_lt_succ hhi⟩⟩

theorem covers_routes {l : List Route} {a : Nat} : (∃ r ∈ l, r.HasV4 a) ↔ Covers (l.filterMap (·.interval?)) a := by
  simp only [hasV4_iff, Covers, List.mem_filterMap]
  constructor
  · rintro ⟨r, hr, i, hi, ha⟩
    exact ⟨i, ⟨r, hr, hi⟩, ha⟩
  · rintro ⟨i, ⟨r, hr, hi⟩, ha⟩
    exact ⟨r, hr, i, hi, ha⟩

/-! ### The routes that leave private addresses out -/

/-- The networks of private addresses, and that of the multicast addresses. -/
def privateNetworks : List Route :=
  [⟨"10.0.0.0".toList, 8⟩, ⟨"172.16.0.0".toList, 12⟩, ⟨"192.168.0.0".toList, 16⟩, ⟨"224.0.0.0".toList, 4⟩]

def bypassRoutes : List Route := bypassPrivateIpAddress.filterMap splitRoute

theorem mapM_splitRoute : bypassPrivateIpAddress.mapM splitRoute = some bypassRoutes := by
  unfold bypassRoutes bypassPrivateIpAddress
  simp only [List.map_cons, List.map_nil]
  repeat rw [String.toList_ofList]
  decide

theorem merge_bypassRoutes : merge (bypassRoutes.filterMap (·.interval?)) =
    [⟨0, 167772160, by decide⟩, ⟨184549376, 2886729728, by decide⟩, ⟨2887778304, 3232235520, by decide⟩,
      ⟨3232301056, 3758096384, by decide⟩, ⟨4026531840, 4294967296, by decide⟩] := by
  unfold bypassRoutes bypassPrivateIpAddress
  simp only [List.map_cons, List.map_nil]
  repeat rw [String.toList_ofList]
  decide

theorem intervals_privateNetworks : privateNetworks.filterMap (·.interval?) =
    [⟨167772160, 184549376, by decide⟩, ⟨2886729728, 2887778304, by decide⟩, ⟨3232235520, 3232301056, by decide⟩,
      ⟨3758096384, 4026531840, by decide⟩] := by decide

/-- The routes are what the private networks leave. -/
theorem hasV4_bypassRoutes {a : Nat} (ha : a < 2 ^ 32) :
    (∃ r ∈ bypassRoutes, r.HasV4 a) ↔ ¬∃ r ∈ privateNetworks, r.HasV4 a := by
  rw [covers_routes, covers_routes, ← covers_merge, merge_bypassRoutes, intervals_privateNetworks]
  simp only [covers_cons, covers_nil, or_false]
  omega

theorem apart_bypassRoutes : (bypassRoutes ++ privateNetworks).Pairwise fun r r' =>
    ∀ i ∈ r.interval?, ∀ j ∈ r'.interval?, Apart i j := by
  unfold bypassRoutes bypassPrivateIpAddress privateNetworks
  simp only [List.map_cons, List.map_nil]
  repeat rw [String.toList_ofList]
  decide

/-- Every IPv4 address is in one of the routes or of the private networks, and in no other. -/
theorem tile_bypassRoutes {a : Nat} (ha : a < 2 ^ 32) : ∃! r, r ∈ bypassRoutes ++ privateNetworks ∧ r.HasV4 a := by
  have hone : ∃ r ∈ bypassRoutes ++ privateNetworks, r.HasV4 a := by
    by_cases hprivate : ∃ r ∈ privateNetworks, r.HasV4 a
    · obtain ⟨r, hr, har⟩ := hprivate
      exact ⟨r, List.mem_append_right _ hr, har⟩
    · obtain ⟨r, hr, har⟩ := (hasV4_bypassRoutes ha).mpr hprivate
      exact ⟨r, List.mem_append_left _ hr, har⟩
  obtain ⟨r, hr, har⟩ := hone
  exact ⟨r, ⟨hr, har⟩, fun r' h => eq_of_apart apart_bypassRoutes h.1 hr (hasV4_iff.mp h.2) (hasV4_iff.mp har)⟩

/-- `Accepted` for an IPv4 route, as a check. -/
def acceptsV4 (r : Route) : Bool :=
  r.number?.any fun n =>
    0 ≤ r.prefixLength && r.prefixLength ≤ 32 && n % 2 ^ (32 - r.prefixLength.toNat) == 0

theorem accepted_of_acceptsV4 {r : Route} (h : acceptsV4 r = true) : r.Accepted := by
  obtain ⟨n, hn, h⟩ := (Option.any_eq_true _ _).mp h
  simp only [Bool.and_eq_true, decide_eq_true_eq, beq_iff_eq] at h
  exact .inl ⟨n, number?_eq_some.mp hn, h.1.1, h.1.2, Nat.dvd_of_mod_eq_zero h.2⟩

theorem acceptsV4_bypassRoutes : bypassRoutes.all acceptsV4 = true := by
  unfold bypassRoutes bypassPrivateIpAddress
  simp only [List.map_cons, List.map_nil]
  repeat rw [String.toList_ofList]
  decide

/-! ### The interface -/

def routeV4 : Route := ⟨"0.0.0.0".toList, 0⟩

/-- The addresses of IPv6 that are given out. -/
def routeGlobalV6 : Route := ⟨"2000::".toList, 3⟩

def routeV6 : Route := ⟨"::".toList, 0⟩

def v4Routes (s : VpnSettings) : List Route := if bypassesLan s then bypassRoutes else [routeV4]

def v6Routes (s : VpnSettings) : List Route :=
  if decodeBool s.preferIpv6 then [if bypassesLan s then routeGlobalV6 else routeV6] else []

variable (addsDnsServer : List Char → Bool) (s : VpnSettings) (remarks : Option (List Char))

/-- What `setup` gives the builder. -/
def builder : Builder where
  mtu := vpnMtu
  addresses := ⟨privateVlan4Client, 30⟩ :: if decodeBool s.preferIpv6 then [⟨privateVlan6Client, 126⟩] else []
  routes := v4Routes s ++ v6Routes s
  dnsServers := nameServers s
  session := remarks.getD []
  disallowedApplications := ["com.nicadevelop.nicavpn".toList]

/-- Only the name servers can make `setup` fail. -/
theorem setup_eq : setup addsDnsServer s remarks =
    if (nameServers s).all addsDnsServer then some (builder s remarks) else none := by
  have hroutes : (if bypassesLan s then bypassPrivateIpAddress.mapM splitRoute else some [routeV4]) =
      some (v4Routes s) := by
    unfold v4Routes
    split
    · exact mapM_splitRoute
    · rfl
  unfold setup
  show (if bypassesLan s then bypassPrivateIpAddress.mapM splitRoute else some [routeV4]).bind _ = _
  rw [hroutes]
  cases (nameServers s).all addsDnsServer <;> rfl

theorem getInt_routeV4 : CIDRIP.getInt routeV4.address = some 0 := by decide

theorem parse_routeGlobalV6 : Inet6.parse routeGlobalV6.address = some (2 ^ 125) := by decide

theorem parse_routeV6 : Inet6.parse routeV6.address = some 0 := by decide

theorem parse_bypassRoutes : ∀ r ∈ bypassRoutes, Inet6.parse r.address = none := by
  unfold bypassRoutes bypassPrivateIpAddress
  simp only [List.map_cons, List.map_nil]
  repeat rw [String.toList_ofList]
  decide

theorem not_hasV6_v4Routes {a : Nat} : ¬∃ r ∈ v4Routes s, r.HasV6 a := by
  have hparse : ∀ r ∈ v4Routes s, Inet6.parse r.address = none := by
    unfold v4Routes
    split
    · exact parse_bypassRoutes
    · decide
  rintro ⟨r, hr, n, hn, -⟩
  rw [hparse r hr] at hn
  cases hn

theorem not_hasV4_v6Routes {a : Nat} : ¬∃ r ∈ v6Routes s, r.HasV4 a := by
  have hget : ∀ r ∈ v6Routes s, CIDRIP.getInt r.address = none := by
    unfold v6Routes
    split
    · split <;> decide
    · exact List.forall_mem_nil _
  rintro ⟨r, hr, n, hn, -⟩
  rw [hget r hr] at hn
  cases hn

theorem hasV4_v4Routes {a : Nat} (ha : a < 2 ^ 32) :
    (∃ r ∈ v4Routes s, r.HasV4 a) ↔ ¬(bypassesLan s = true ∧ ∃ r ∈ privateNetworks, r.HasV4 a) := by
  unfold v4Routes
  split
  · next hbypass =>
    rw [hasV4_bypassRoutes ha, not_iff_not]
    exact ⟨fun h => ⟨hbypass, h⟩, fun h => h.2⟩
  · next hbypass =>
    have hall : routeV4.Has 32 0 a := by
      show a / 2 ^ 32 = 0 / 2 ^ 32
      omega
    exact ⟨fun _ h => hbypass h.1, fun _ => ⟨routeV4, List.mem_singleton_self _, 0, getInt_routeV4, hall⟩⟩

theorem hasV6_v6Routes {a : Nat} (ha : a < 2 ^ 128) :
    (∃ r ∈ v6Routes s, r.HasV6 a) ↔ decodeBool s.preferIpv6 = true ∧ (bypassesLan s = true → a / 2 ^ 125 = 1) := by
  unfold v6Routes
  split
  · next hprefer =>
    simp only [List.mem_singleton, exists_eq_left, hprefer, true_and]
    split
    · next hbypass =>
      simp only [hbypass, true_implies]
      unfold Route.HasV6
      simp only [parse_routeGlobalV6, Option.some.injEq, exists_eq_left']
      exact Iff.rfl
    · next hbypass =>
      have hall : routeV6.Has 128 0 a := by
        show a / 2 ^ 128 = 0 / 2 ^ 128
        rw [Nat.div_eq_of_lt ha]
        rfl
      exact ⟨fun _ h => absurd h hbypass, fun _ => ⟨0, parse_routeV6, hall⟩⟩
  · next hprefer => exact ⟨fun ⟨_, hr, _⟩ => absurd hr List.not_mem_nil, fun h => absurd h.1 hprefer⟩

theorem accepted_routes : ∀ r ∈ v4Routes s ++ v6Routes s, r.Accepted := by
  intro r hr
  obtain hr | hr := List.mem_append.mp hr
  · refine accepted_of_acceptsV4 ?_
    unfold v4Routes at hr
    split at hr
    · exact List.all_eq_true.mp acceptsV4_bypassRoutes r hr
    · obtain rfl := List.mem_singleton.mp hr
      decide
  · unfold v6Routes at hr
    split at hr
    · obtain rfl := List.mem_singleton.mp hr
      split
      · exact .inr ⟨_, parse_routeGlobalV6, by decide, by decide, Nat.dvd_refl _⟩
      · exact .inr ⟨_, parse_routeV6, by decide, by decide, Nat.dvd_zero _⟩
    · exact absurd hr List.not_mem_nil

variable {addsDnsServer s remarks}

theorem exists_route {P : Route → Prop} : (∃ r ∈ (builder s remarks).routes, P r) ↔
    (∃ r ∈ v4Routes s, P r) ∨ ∃ r ∈ v6Routes s, P r := by
  simp only [builder, List.mem_append, or_and_right, exists_or]

/-- In the modes that bypass the LAN. -/
theorem tile_routes {a : Nat} (ha : a < 2 ^ 32) (hbypass : bypassesLan s = true) :
    ∃! r, r ∈ (builder s remarks).routes ++ privateNetworks ∧ r.HasV4 a := by
  have hroutes : ∀ r : Route, r.HasV4 a →
      (r ∈ (builder s remarks).routes ++ privateNetworks ↔ r ∈ bypassRoutes ++ privateNetworks) := by
    intro r hr
    have hv6 : r ∉ v6Routes s := fun h => not_hasV4_v6Routes s ⟨r, h, hr⟩
    simp only [builder, v4Routes, if_pos hbypass, List.mem_append, or_iff_left hv6]
  obtain ⟨r, ⟨hr, har⟩, honly⟩ := tile_bypassRoutes ha
  exact ⟨r, ⟨(hroutes r har).mpr hr, har⟩, fun r' h => honly r' ⟨(hroutes r' h.2).mp h.1, h.2⟩⟩

/-- The LAN and IPv6 directly, and one name server of the settings. -/
def lanVpn : VpnSettings :=
  { routingMode := some ERoutingMode.bypassLan.value, vpnDns := some "9.9.9.9".toList, preferIpv6 := some true }

/-- What stands behind an option. -/
def argument (option : List Char) : List (List Char) → Option (List Char)
  | a :: b :: l => if a = option then some b else argument option (b :: l)
  | [_] | [] => none

/-- The inbound `socks` with its settings. -/
def coreSocks (s : SettingsStorage) : InboundBean :=
  { listen s socksInbound with
    port := parseIntOr s.socksPort portSocks
    sniffing := (listen s socksInbound).sniffing.map (sniffing s) }

def coreHttp (s : SettingsStorage) : InboundBean :=
  { listen s httpInbound with port := parseIntOr s.httpPort portHttp }

/-- The inbound that `customLocalDns` adds. -/
def coreDnsIn (s : SettingsStorage) : InboundBean where
  tag := dnsIn
  port := parseIntOr s.localDnsPort portLocalDns
  listen := some "127.0.0.1".toList
  protocol := "dokodemo-door".toList
  settings := some
    { address := some (if isPureIpAddress (getRemoteDnsServers s).first then (getRemoteDnsServers s).first
        else "1.1.1.1".toList)
      port := some 53, network := some "tcp,udp".toList }
  sniffing := none

theorem tag_listen (s : SettingsStorage) (b : InboundBean) :
    (listen s b).tag = b.tag ∧ (listen s b).protocol = b.protocol := by
  unfold V2rayConfigUtil.listen
  split <;> exact ⟨rfl, rfl⟩

theorem inbounds_fakedns (s : SettingsStorage) (c : V2rayConfig) : (fakedns s c).inbounds = c.inbounds := by
  unfold V2rayConfigUtil.fakedns
  split <;> rfl

theorem inbounds_withoutLocalDns (s : SettingsStorage) (outbound : V2rayConfig.OutboundBean) :
    (withoutLocalDns s outbound).inbounds = [coreSocks s, coreHttp s] := by
  rw [withoutLocalDns, inbounds_dns, inbounds_fakedns, inbounds_routing]
  rfl

theorem inbounds_customLocalDns (s : SettingsStorage) {c : V2rayConfig} (h : c.inbounds = [coreSocks s, coreHttp s]) :
    (customLocalDns s c).inbounds = [coreSocks s, coreHttp s, coreDnsIn s] := by
  have hsocks : (coreSocks s).tag = "socks".toList := (tag_listen s socksInbound).1
  have hhttp : (coreHttp s).tag = "http".toList := (tag_listen s httpInbound).1
  have hany : (c.inbounds.any fun e => e.protocol = "dokodemo-door".toList && e.tag = dnsIn) = false := by
    have hnot : "socks".toList ≠ dnsIn ∧ "http".toList ≠ dnsIn := by decide
    simp only [h, List.any_cons, List.any_nil, hsocks, hhttp, decide_eq_false hnot.1, decide_eq_false hnot.2,
      Bool.and_false, Bool.or_false]
  unfold customLocalDns
  simp only [addFirst, apply_ite V2rayConfig.inbounds, ite_self, hany]
  rw [if_neg Bool.false_ne_true, h]
  rfl

/-- The inbounds of the generated configuration. -/
theorem inbounds_getV2rayNonCustomConfig (s : SettingsStorage) (outbound : V2rayConfig.OutboundBean) :
    (getV2rayNonCustomConfig s outbound).inbounds =
      [coreSocks s, coreHttp s] ++ if decodeBool s.localDnsEnabled then [coreDnsIn s] else [] := by
  have hcounts : ∀ c : V2rayConfig, (if decodeBool s.speedEnabled then c else { c with counts := false }).inbounds =
      c.inbounds := by
    intro c
    split <;> rfl
  have hwithout := inbounds_withoutLocalDns s outbound
  refine (hcounts (if decodeBool s.localDnsEnabled then customLocalDns s (withoutLocalDns s outbound)
    else withoutLocalDns s outbound)).trans ?_
  split
  · exact inbounds_customLocalDns s hwithout
  · exact hwithout

/-! ### tun2socks -/

variable (addsDnsServer s remarks) (program : List Char)

theorem socksServerAddr : argument "--socks-server-addr".toList (runTun2socks s program).tail =
    some (loopback (parseIntOr s.socksPort portSocks)) := rfl

theorem dnsgw : argument "--dnsgw".toList (runTun2socks s program).tail =
    if decodeBool s.localDnsEnabled then some (loopback (parseIntOr s.localDnsPort portLocalDns)) else none := by
  unfold runTun2socks
  cases decodeBool s.preferIpv6 <;> cases decodeBool s.localDnsEnabled <;> rfl

/-- The address of tun2socks is captured in every mode. -/
theorem hasV4_router : ∃ n : Nat, CIDRIP.getInt privateVlan4Router = some (n : Int) ∧
    ∃ r ∈ v4Routes s, r.HasV4 n := by
  refine ⟨437918210, by decide, (hasV4_v4Routes s (by decide)).mpr fun ⟨_, hprivate⟩ => ?_⟩
  rw [covers_routes, intervals_privateNetworks] at hprivate
  simp only [covers_cons, covers_nil, or_false] at hprivate
  omega

/-- The interface, the arguments of tun2socks and the generated configuration fit together for all settings: the server
    that tun2socks is started with is the inbound `socks`; with the local DNS the only name server of the interface is
    the address that tun2socks is given, which the interface captures, and its name server is the inbound `dns-in`;
    without it tun2socks is given no name server and there is no such inbound. -/
theorem tun2socks_agrees {config : ServerConfig} {c : V2rayConfig}
    (h : getV2rayConfig s.toSettingsStorage config = some c) (hrouter : addsDnsServer privateVlan4Router = true) :
    (∃ i ∈ c.inbounds, i.tag = "socks".toList ∧ i.protocol = "socks".toList ∧
      argument "--socks-server-addr".toList (runTun2socks s program).tail = some (loopback i.port)) ∧
    (decodeBool s.localDnsEnabled = true →
      argument "--netif-ipaddr".toList (runTun2socks s program).tail = some privateVlan4Router ∧
      (∃ b, setup addsDnsServer s remarks = some b ∧ b.dnsServers = [privateVlan4Router] ∧
        ∃ n : Nat, CIDRIP.getInt privateVlan4Router = some (n : Int) ∧ ∃ r ∈ b.routes, r.HasV4 n) ∧
      ∃ i ∈ c.inbounds, i.tag = dnsIn ∧ i.protocol = "dokodemo-door".toList ∧
        argument "--dnsgw".toList (runTun2socks s program).tail = some (loopback i.port)) ∧
    (decodeBool s.localDnsEnabled = false →
      argument "--dnsgw".toList (runTun2socks s program).tail = none ∧ ∀ i ∈ c.inbounds, i.tag ≠ dnsIn) := by
  obtain ⟨outbound, -, rfl⟩ := Option.map_eq_some_iff.mp h
  have hsocks : (coreSocks s.toSettingsStorage).tag = "socks".toList := (tag_listen _ socksInbound).1
  have hhttp : (coreHttp s.toSettingsStorage).tag = "http".toList := (tag_listen _ httpInbound).1
  rw [inbounds_getV2rayNonCustomConfig]
  refine ⟨⟨coreSocks s.toSettingsStorage, List.mem_append_left _ List.mem_cons_self, hsocks,
    (tag_listen _ socksInbound).2, socksServerAddr s program⟩, fun hlocal => ⟨rfl, ?_, ?_⟩, fun hlocal => ⟨?_, ?_⟩⟩
  · have hservers : nameServers s = [privateVlan4Router] := if_pos hlocal
    have hsetup : setup addsDnsServer s remarks = some (builder s remarks) := by
      rw [setup_eq, hservers, if_pos (List.all_eq_true.mpr (by simpa using hrouter))]
    obtain ⟨n, hn, r, hr, hhas⟩ := hasV4_router s
    exact ⟨_, hsetup, hservers, n, hn, r, List.mem_append_left _ hr, hhas⟩
  · rw [if_pos hlocal]
    refine ⟨coreDnsIn s.toSettingsStorage, List.mem_append_right _ List.mem_cons_self, rfl, rfl, ?_⟩
    rw [dnsgw, if_pos hlocal]
    rfl
  · rw [dnsgw, hlocal, if_neg Bool.false_ne_true]
  · have hnot : "socks".toList ≠ dnsIn ∧ "http".toList ≠ dnsIn := by decide
    rw [hlocal, if_neg Bool.false_ne_true, List.append_nil]
    intro i hi
    obtain rfl | hi := List.mem_cons.mp hi
    · rw [hsocks]
      exact hnot.1
    · rw [List.mem_singleton.mp hi, hhttp]
      exact hnot.2

/-- The mainland and the LAN directly, names over the local DNS, and IPv6. -/
def mainlandVpn : VpnSettings := { mainlandSettings with preferIpv6 := some true }

theorem tun2socks_agrees_mainland : ∃ c, getV2rayConfig mainlandSettings (ServerConfig.create .vmess) = some c ∧
    ∃ i ∈ c.inbounds, i.tag = dnsIn ∧ i.protocol = "dokodemo-door".toList ∧
      argument "--dnsgw".toList (runTun2socks mainlandVpn "libtun2socks.so".toList).tail = some (loopback i.port) := by
  obtain ⟨-, hlocal, -⟩ := tun2socks_agrees (fun a => a = privateVlan4Router) mainlandVpn none
    "libtun2socks.so".toList (show getV2rayConfig mainlandSettings (ServerConfig.create .vmess) = some _ from rfl)
    (by decide)
  exact ⟨_, rfl, (hlocal rfl).2.2⟩

end V2RayTun
end NicVpn.V2ray
