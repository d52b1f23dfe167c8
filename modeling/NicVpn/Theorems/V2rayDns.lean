import NicVpn.Theorems.V2rayConfigUtil

/-! The DNS servers and the hosts that the generator writes: every entry is listed by the servers that the settings
    ask for, and no other. -/

namespace NicVpn.V2ray.V2rayConfigUtil
open V2rayConfig SettingsStorage V2ray.Utils

variable {s : SettingsStorage} {c : V2rayConfig} {entry : List Char}

/-! ### Hosts -/

theorem lookup_append_singleton (hosts : List (List Char × List Char)) (key value k : List Char)
    (h : ∀ p ∈ hosts, p.1 ≠ key) :
    (hosts ++ [(key, value)]).lookup k = if k = key then some value else hosts.lookup k := by
  induction hosts with
  | nil =>
    rw [List.nil_append, List.lookup_cons]
    by_cases hk : k = key
    · rw [hk, beq_self_eq_true, if_pos rfl]
    · rw [beq_false_of_ne hk, if_neg hk]
  | cons p hosts ih =>
    obtain ⟨hp, hhosts⟩ := List.forall_mem_cons.mp h
    rw [List.cons_append, List.lookup_cons, List.lookup_cons, ih hhosts]
    by_cases hk : k = p.1
    · rw [hk, beq_self_eq_true]
      simp [hp]
    · rw [beq_false_of_ne hk]

theorem lookup_map_host (hosts : List (List Char × List Char)) (key value k : List Char) :
    (hosts.map fun p => if p.1 = key then (key, value) else p).lookup k =
      if k = key then (if hosts.any (·.1 = key) then some value else none) else hosts.lookup k := by
  induction hosts with
  | nil => simp
  | cons p hosts ih =>
    rw [List.map_cons, List.lookup_cons, ih, List.lookup_cons, List.any_cons]
    by_cases hp : p.1 = key
    · rw [if_pos hp, hp, decide_eq_true rfl, Bool.true_or]
      by_cases hk : k = key
      · rw [hk, beq_self_eq_true, if_pos rfl, if_pos rfl]
        rfl
      · rw [if_neg hk, beq_false_of_ne hk, if_neg hk]
    · rw [if_neg hp, decide_eq_false hp, Bool.false_or]
      by_cases hk : k = key
      · rw [hk, if_pos rfl, if_pos rfl, beq_false_of_ne (Ne.symm hp)]
      · rw [if_neg hk, if_neg hk]

theorem lookup_putHost (hosts : List (List Char × List Char)) (key value k : List Char) :
    (putHost hosts key value).lookup k = if k = key then some value else hosts.lookup k := by
  unfold putHost
  split
  case isTrue hany => rw [lookup_map_host, if_pos hany]
  case isFalse hany =>
    refine lookup_append_singleton hosts key value k fun p hp hkey => hany ?_
    exact List.any_eq_true.mpr ⟨p, hp, decide_eq_true hkey⟩

theorem lookup_foldl_putHost (l : List (List Char)) (value k : List Char) (hosts : List (List Char × List Char)) :
    (l.foldl (fun hosts d => putHost hosts d value) hosts).lookup k =
      if k ∈ l then some value else hosts.lookup k := by
  induction l generalizing hosts with
  | nil => simp
  | cons d l ih =>
    rw [List.foldl_cons, ih, lookup_putHost]
    by_cases hl : k ∈ l <;> by_cases hd : k = d <;> simp [hl, hd]

/-! ### Servers -/

/-- A server for some domains, when there are any. -/
def serverFor (address : List Char) (expectIPs : Option (List (List Char))) (l : List (List Char)) : List DnsServer :=
  if l = [] then [] else [.bean { address := address, port := some 53, domains := some l, expectIPs := expectIPs }]

/-- The servers that `dns` lists. -/
def dnsServers (s : SettingsStorage) : List DnsServer :=
  let remote := (getRemoteDnsServers s).first
  let domestic := (getDomesticDnsServers s).first
  (getRemoteDnsServers s).toList.map DnsServer.address ++ (serverFor remote none (userRule2Domian (text s.routingAgent)) ++
    serverFor domestic (some geoipCn) (userRule2Domian (text s.routingDirect)) ++
    serverFor domestic (some geoipCn) (if s.bypassesMainland then geositeCn else []))

theorem servers_dns (s : SettingsStorage) (c : V2rayConfig) : (dns s c).dns.servers = dnsServers s := by
  have hfor : ∀ (l : List (List Char)) (a : List Char) (e : Option (List (List Char))),
      (if 0 < l.length then [DnsServer.bean { address := a, port := some 53, domains := some l, expectIPs := e }] else []) =
        serverFor a e l := fun l a e => by
    unfold serverFor
    by_cases hl : l = [] <;> simp [hl, List.length_pos_iff]
  have hgeo : (if s.bypassesMainland then [DnsServer.bean
        { address := (getDomesticDnsServers s).first, port := some 53, domains := some geositeCn
          expectIPs := some geoipCn }] else []) =
      serverFor (getDomesticDnsServers s).first (some geoipCn) (if s.bypassesMainland then geositeCn else []) := by
    cases s.bypassesMainland <;> rfl
  unfold dns
  simp only [apply_ite V2rayConfig.dns, addFirst, ite_self, hfor, hgeo, dnsServers, List.append_assoc]

/-- The server of the addresses that stand for names. -/
def fakednsServer (s : SettingsStorage) : DnsServer :=
  .bean { address := "fakedns".toList, domains := some (geositeCn ++ userRule2Domian (text s.routingAgent) ++
    userRule2Domian (text s.routingDirect)) }

theorem servers_customLocalDns (s : SettingsStorage) (c : V2rayConfig) : (customLocalDns s c).dns.servers =
    (if decodeBool s.fakeDnsEnabled then [fakednsServer s] else []) ++ c.dns.servers := by
  unfold customLocalDns
  simp only [addFirst, apply_ite V2rayConfig.dns, ite_self]
  cases decodeBool s.fakeDnsEnabled <;> rfl

theorem hosts_customLocalDns (s : SettingsStorage) (c : V2rayConfig) : (customLocalDns s c).dns.hosts = c.dns.hosts := by
  unfold customLocalDns
  simp only [addFirst, apply_ite V2rayConfig.dns, ite_self]
  cases decodeBool s.fakeDnsEnabled <;> rfl

/-- The servers of a generated configuration. -/
theorem servers_getV2rayConfig {config : ServerConfig} (h : getV2rayConfig s config = some c) : c.dns.servers =
    (if decodeBool s.localDnsEnabled && decodeBool s.fakeDnsEnabled then [fakednsServer s] else []) ++ dnsServers s := by
  obtain ⟨outbound, -, rfl⟩ := Option.map_eq_some_iff.mp h
  unfold getV2rayNonCustomConfig
  simp only [apply_ite V2rayConfig.dns, ite_self]
  cases decodeBool s.localDnsEnabled with
  | false => exact servers_dns s _
  | true => exact (servers_customLocalDns s _).trans (congrArg _ (servers_dns s _))

theorem hosts_getV2rayConfig {config : ServerConfig} (h : getV2rayConfig s config = some c) (k : List Char) :
    c.dns.hosts.lookup k = s.host k := by
  have hdns : ∀ c, (dns s c).dns.hosts.lookup k = s.host k := by
    intro c
    unfold dns
    simp only [apply_ite V2rayConfig.dns, addFirst, ite_self, lookup_putHost, lookup_foldl_putHost, List.lookup_nil]
    rfl
  obtain ⟨outbound, -, rfl⟩ := Option.map_eq_some_iff.mp h
  unfold getV2rayNonCustomConfig
  simp only [apply_ite V2rayConfig.dns, ite_self]
  cases decodeBool s.localDnsEnabled with
  | false => exact hdns _
  | true => exact (congrArg (List.lookup k) (hosts_customLocalDns s _)).trans (hdns _)

/-! ### What the servers list -/

theorem listing_addresses (l : List (List Char)) :
    (l.map DnsServer.address).filterMap (DnsServer.listing? entry) = [] := by
  rw [List.filterMap_map]
  exact List.filterMap_none l

theorem listing_serverFor (a : List Char) (e : Option (List (List Char))) (l : List (List Char)) :
    (serverFor a e l).filterMap (DnsServer.listing? entry) =
      if entry ∈ l then [{ address := a, port := some 53, expectIPs := e }] else [] := by
  unfold serverFor
  by_cases hl : l = []
  · rw [if_pos hl, hl, if_neg List.not_mem_nil]
    rfl
  · rw [if_neg hl, List.filterMap_cons]
    by_cases hentry : entry ∈ l <;> simp [DnsServer.listing?, hentry]

theorem listing_fakednsServer : DnsServer.listing? entry (fakednsServer s) =
    if decide (entry = "geosite:cn".toList) || decide (entry ∈ userRule2Domian (text s.routingAgent)) ||
        decide (entry ∈ userRule2Domian (text s.routingDirect)) then some { address := "fakedns".toList } else none := by
  have hentry : decide (entry ∈ geositeCn ++ userRule2Domian (text s.routingAgent) ++
        userRule2Domian (text s.routingDirect)) =
      (decide (entry = "geosite:cn".toList) || decide (entry ∈ userRule2Domian (text s.routingAgent)) ||
        decide (entry ∈ userRule2Domian (text s.routingDirect))) := by
    simp only [geositeCn, List.mem_append, List.mem_singleton, Bool.decide_or]
  rw [← hentry]
  rfl

/-- Every entry is listed by the servers that the settings ask for. -/
theorem listing_getV2rayConfig {config : ServerConfig} (h : getV2rayConfig s config = some c) :
    c.dns.servers.filterMap (DnsServer.listing? entry) = s.serversFor entry := by
  have hmainland : (entry ∈ if s.bypassesMainland then geositeCn else []) ↔
      (s.bypassesMainland && decide (entry = "geosite:cn".toList)) = true := by
    cases s.bypassesMainland with
    | false => exact iff_of_false List.not_mem_nil Bool.false_ne_true
    | true => exact List.mem_singleton.trans decide_eq_true_iff.symm
  rw [servers_getV2rayConfig h]
  simp only [dnsServers, List.filterMap_append, listing_addresses, listing_serverFor, hmainland,
    ← List.append_assoc, SettingsStorage.serversFor, decide_eq_true_eq]
  cases decodeBool s.localDnsEnabled && decodeBool s.fakeDnsEnabled with
  | false => rfl
  | true =>
    rw [if_pos rfl, List.filterMap_cons, listing_fakednsServer, Bool.true_and]
    cases decide (entry = "geosite:cn".toList) || decide (entry ∈ userRule2Domian (text s.routingAgent)) ||
      decide (entry ∈ userRule2Domian (text s.routingDirect)) <;> rfl

theorem plain_serverFor (a : List Char) (e : Option (List (List Char))) (l : List (List Char)) :
    (serverFor a e l).filterMap DnsServer.plain? = [] := by
  unfold serverFor
  split <;> rfl

theorem plain_addresses (l : List (List Char)) : (l.map DnsServer.address).filterMap DnsServer.plain? = l := by
  rw [List.filterMap_map]
  exact List.filterMap_some

/-- The servers that list nothing are the remote ones. -/
theorem plain_getV2rayConfig {config : ServerConfig} (h : getV2rayConfig s config = some c) :
    c.dns.servers.filterMap DnsServer.plain? = (getRemoteDnsServers s).toList := by
  have hfake : (if decodeBool s.localDnsEnabled && decodeBool s.fakeDnsEnabled then [fakednsServer s] else []).filterMap
      DnsServer.plain? = [] := by
    split <;> rfl
  rw [servers_getV2rayConfig h]
  simp only [dnsServers, List.filterMap_append, hfake, plain_addresses, plain_serverFor, List.append_nil, List.nil_append]

theorem domains_serverFor {b : V2rayConfig.ServersBean} {a : List Char} {e : Option (List (List Char))}
    {l : List (List Char)} (hb : DnsServer.bean b ∈ serverFor a e l) : ∃ l ∈ b.domains, l ≠ [] := by
  unfold serverFor at hb
  split at hb
  · exact absurd hb List.not_mem_nil
  · next hl =>
    obtain rfl := DnsServer.bean.inj (List.mem_singleton.mp hb)
    exact ⟨l, rfl, hl⟩

/-- No server is there for an empty list. -/
theorem domains_getV2rayConfig {config : ServerConfig} (h : getV2rayConfig s config = some c)
    {b : V2rayConfig.ServersBean} (hb : DnsServer.bean b ∈ c.dns.servers) : ∃ l ∈ b.domains, l ≠ [] := by
  rw [servers_getV2rayConfig h] at hb
  simp only [dnsServers, List.mem_append, List.mem_map, reduceCtorEq, and_false, exists_false, false_or] at hb
  rcases hb with hfake | (hb | hb) | hb
  · split at hfake
    · obtain rfl := DnsServer.bean.inj (List.mem_singleton.mp hfake)
      exact ⟨_, rfl, by simp [geositeCn]⟩
    · exact absurd hfake List.not_mem_nil
  all_goals exact domains_serverFor hb

/-- Every entry is listed by the servers that the settings ask for, in their order; the servers that list nothing are
    the remote ones; with local and fake DNS the first server is `fakedns`; and a host stands for what the settings
    say. -/
theorem dns_getV2rayConfig (s : SettingsStorage) (config : ServerConfig) (h : getV2rayConfig s config = some c) :
    (∀ entry, c.dns.servers.filterMap (DnsServer.listing? entry) = s.serversFor entry) ∧
    c.dns.servers.filterMap DnsServer.plain? = (getRemoteDnsServers s).toList ∧
    (∀ b, DnsServer.bean b ∈ c.dns.servers → ∃ l ∈ b.domains, l ≠ []) ∧
    (decodeBool s.localDnsEnabled && decodeBool s.fakeDnsEnabled →
      ∃ b, c.dns.servers.head? = some (.bean b) ∧ b.address = "fakedns".toList) ∧
    ∀ k, c.dns.hosts.lookup k = s.host k := by
  refine ⟨fun _ => listing_getV2rayConfig h, plain_getV2rayConfig h, fun _ => domains_getV2rayConfig h,
    fun hfake => ?_, hosts_getV2rayConfig h⟩
  rw [servers_getV2rayConfig h, if_pos hfake]
  exact ⟨_, rfl, rfl⟩

theorem dns_getV2rayConfig_mainland :
    ∃ c, getV2rayConfig mainlandSettings (ServerConfig.create .vless) = some c ∧
      (c.dns.servers.filterMap (DnsServer.listing? "domain:a.com".toList)).map (·.address) =
        ["fakedns".toList, (getDomesticDnsServers mainlandSettings).first] ∧
      c.dns.hosts.lookup "domain:ads.com".toList = some "127.0.0.1".toList := by
  obtain ⟨hlisting, -, -, -, hhosts⟩ := dns_getV2rayConfig mainlandSettings (ServerConfig.create .vless) rfl
  refine ⟨_, rfl, ?_, (hhosts _).trans (by decide)⟩
  rw [hlisting]
  decide

end NicVpn.V2ray.V2rayConfigUtil
