import NicVpn.CoreRouting

/-! The rules that the generator writes, brought to one list, and what the core does with a connection under them:
    it takes the outbound that the settings ask for. Every tag that the configuration names is one that it has. -/

namespace NicVpn.V2ray.V2rayConfigUtil
open V2rayConfig SettingsStorage V2ray.Utils

variable {δ : Type} {M : Matcher δ} {t : Target δ} {s : SettingsStorage} {c : V2rayConfig} {tag u : List Char}

/-! ### What the steps leave alone -/

/-- Two configurations that route alike: the rules, and the tags of inbounds and outbounds. -/
structure Alike (c d : V2rayConfig) : Prop where
  rules : d.routing.rules = c.routing.rules
  inbounds : d.inbounds.map (·.tag) = c.inbounds.map (·.tag)
  outbounds : d.outbounds.map (·.tag) = c.outbounds.map (·.tag)

theorem alike_inbounds (s : SettingsStorage) (c : V2rayConfig) : Alike c (inbounds s c) where
  rules := rfl
  inbounds := by
    have htag : ∀ b : InboundBean, (listen s b).tag = b.tag := fun b => by
      unfold listen
      split <;> rfl
    have hmap : (c.inbounds.map (listen s)).map (·.tag) = c.inbounds.map (·.tag) := by
      rw [List.map_map]
      exact List.map_congr_left fun b _ => htag b
    rw [← hmap]
    unfold V2rayConfigUtil.inbounds
    cases c.inbounds.map (listen s) with
    | nil => rfl
    | cons b l => cases l <;> rfl
  outbounds := rfl

theorem alike_fakedns (s : SettingsStorage) (c : V2rayConfig) : Alike c (fakedns s c) := by
  unfold fakedns
  split
  case isFalse => exact ⟨rfl, rfl, rfl⟩
  case isTrue =>
    refine ⟨rfl, rfl, ?_⟩
    rw [List.map_map]
    refine List.map_congr_left fun b _ => ?_
    rw [Function.comp_apply]
    split <;> rfl

@[simp] theorem httpRequestObject_tag (b : V2rayConfig.OutboundBean) : (httpRequestObject b).tag = b.tag := rfl

/-! ### The rules as lists -/

/-- A configuration with other rules. -/
def withRules (c : V2rayConfig) (l : List RulesBean) : V2rayConfig := { c with routing := { c.routing with rules := l } }

theorem addRule_eq (c : V2rayConfig) (r : RulesBean) : addRule c r = withRules c (c.routing.rules ++ [r]) := rfl

theorem addFirst_eq (c : V2rayConfig) (r : RulesBean) : addFirst c r = withRules c (r :: c.routing.rules) := rfl

@[simp] theorem rules_withRules (c : V2rayConfig) (l : List RulesBean) : (withRules c l).routing.rules = l := rfl

@[simp] theorem withRules_withRules (c : V2rayConfig) (l l' : List RulesBean) :
    withRules (withRules c l) l' = withRules c l' := rfl

theorem withRules_self (c : V2rayConfig) : withRules c c.routing.rules = c := rfl

def domainRule (tag : List Char) (l : List (List Char)) : RulesBean :=
  { type := field, outboundTag := tag, domain := some l }

def ipRule (tag : List Char) (l : List (List Char)) : RulesBean := { type := field, outboundTag := tag, ip := some l }

/-- The entries of a list of the user that are domains. -/
def domains (u : List Char) : List (List Char) := (entries u).filter fun it => !isIpEntry it && it ≠ []

/-- The entries of a list of the user that are addresses. -/
def ips (u : List Char) : List (List Char) := (entries u).filter isIpEntry

/-- The rules of a list of the user. -/
def userRules (u tag : List Char) : List RulesBean :=
  (if domains u = [] then [] else [domainRule tag (domains u)]) ++ (if ips u = [] then [] else [ipRule tag (ips u)])

theorem foldl_sortEntry (l d i : List (List Char)) :
    l.foldl sortEntry (d, i) = (d ++ l.filter (fun it => !isIpEntry it && it ≠ []), i ++ l.filter isIpEntry) := by
  induction l generalizing d i with
  | nil => simp
  | cons it l ih =>
    rw [List.foldl_cons, sortEntry]
    by_cases hip : isIpEntry it = true
    · simp [ih, hip]
    · by_cases hnil : it = []
      · subst hnil
        simp [ih, hip]
      · simp [ih, hip, hnil]

theorem isIpEntry_nil : isIpEntry [] = false := by decide

/-- The empty list of the user adds no rule, whether it is tested or not. -/
theorem userRules_nil (tag : List Char) : userRules [] tag = [] := by
  have hentries : entries [] = [[]] := by decide
  simp [userRules, domains, ips, hentries, isIpEntry_nil]

theorem routingUserRule_eq (u tag : List Char) (c : V2rayConfig) :
    routingUserRule u tag c = withRules c (c.routing.rules ++ userRules u tag) := by
  unfold routingUserRule
  by_cases hu : u = []
  · rw [if_pos hu, hu, userRules_nil, List.append_nil, withRules_self]
  · simp only [if_neg hu, foldl_sortEntry, List.nil_append]
    have hpos : ∀ l : List (List Char), 0 < l.length ↔ ¬l = [] := fun l => List.length_pos_iff
    change (if 0 < (ips u).length then addRule (if 0 < (domains u).length then addRule c (domainRule tag (domains u)) else c)
      (ipRule tag (ips u)) else if 0 < (domains u).length then addRule c (domainRule tag (domains u)) else c) = _
    by_cases hd : domains u = [] <;> by_cases hi : ips u = [] <;>
      simp [userRules, hpos, hd, hi, addRule_eq, withRules_self]

/-- The rules of the mode that stand behind those of the user. -/
def modeRules (mode : List Char) : List RulesBean :=
  if mode = ERoutingMode.bypassLan.value then [ipRule tagDirect ["geoip:private".toList]]
  else if mode = ERoutingMode.bypassMainland.value then
    [ipRule tagDirect ["geoip:cn".toList], domainRule tagDirect ["geosite:cn".toList]]
  else if mode = ERoutingMode.bypassLanMainland.value then
    [ipRule tagDirect ["geoip:private".toList], ipRule tagDirect ["geoip:cn".toList],
      domainRule tagDirect ["geosite:cn".toList]]
  else if mode = ERoutingMode.globalDirect.value then [globalDirect]
  else []

theorem routingGeo_ip (c : V2rayConfig) :
    routingGeo "ip".toList "private".toList tagDirect c =
      withRules c (c.routing.rules ++ [ipRule tagDirect ["geoip:private".toList]]) := rfl

theorem routingGeo_both (c : V2rayConfig) :
    routingGeo [] "cn".toList tagDirect c = withRules c (c.routing.rules ++
      [ipRule tagDirect ["geoip:cn".toList], domainRule tagDirect ["geosite:cn".toList]]) := by
  show withRules c (c.routing.rules ++ _ ++ _) = _
  rw [List.append_assoc]
  rfl

theorem routingByMode_eq (s : SettingsStorage) (c : V2rayConfig) :
    routingByMode s.mode c = withRules c
      ((if s.bypassesMainland then [googleapisRoute] else []) ++ c.routing.rules ++ modeRules s.mode) := by
  unfold routingByMode modeRules bypassesMainland
  by_cases h1 : s.mode = ERoutingMode.bypassLan.value
  · rw [if_pos h1, if_pos h1, h1]
    exact routingGeo_ip c
  rw [if_neg h1, if_neg h1]
  by_cases h2 : s.mode = ERoutingMode.bypassMainland.value
  · rw [if_pos h2, if_pos h2, routingGeo_both, addFirst_eq]
    simp [h2]
  rw [if_neg h2, if_neg h2]
  by_cases h3 : s.mode = ERoutingMode.bypassLanMainland.value
  · rw [if_pos h3, if_pos h3, routingGeo_ip, routingGeo_both, addFirst_eq]
    simp [h3]
  rw [if_neg h3, if_neg h3]
  by_cases h4 : s.mode = ERoutingMode.globalDirect.value
  · rw [if_pos h4, if_pos h4]
    simp [h2, h3, addRule_eq]
  · rw [if_neg h4, if_neg h4]
    simp [h2, h3, withRules_self]

theorem rules_routing (s : SettingsStorage) (c : V2rayConfig) :
    (routing s c).routing.rules = (if s.bypassesMainland then [googleapisRoute] else []) ++
      (c.routing.rules ++ userRules (text s.routingAgent) tagAgent ++ userRules (text s.routingDirect) tagDirect ++
        userRules (text s.routingBlocked) tagBlocked) ++ modeRules s.mode := by
  unfold V2rayConfigUtil.routing
  simp only [routingByMode_eq, routingUserRule_eq, rules_withRules]

/-- The rules for the queries to the two DNS servers. -/
def dnsRules (s : SettingsStorage) : List RulesBean :=
  (if isPureIpAddress (getRemoteDnsServers s).first then [dnsRule (getRemoteDnsServers s).first tagAgent] else []) ++
    (if s.usesDomesticDns && isPureIpAddress (getDomesticDnsServers s).first then
      [dnsRule (getDomesticDnsServers s).first tagDirect] else [])

theorem usesDomesticDns_eq (s : SettingsStorage) :
    (0 < (userRule2Domian (text s.routingDirect)).length || s.bypassesMainland) = s.usesDomesticDns := by
  unfold usesDomesticDns
  rw [decide_eq_decide.mpr List.length_pos_iff]

theorem rules_dns (s : SettingsStorage) (c : V2rayConfig) :
    (dns s c).routing.rules = dnsRules s ++ c.routing.rules := by
  unfold dns dnsRules
  simp only [usesDomesticDns_eq]
  cases isPureIpAddress (getRemoteDnsServers s).first <;>
    cases s.usesDomesticDns && isPureIpAddress (getDomesticDnsServers s).first <;> rfl

theorem inbounds_dns (s : SettingsStorage) (c : V2rayConfig) : (dns s c).inbounds = c.inbounds := by
  unfold dns
  simp only [apply_ite V2rayConfig.inbounds, addFirst, ite_self]

theorem outbounds_dns (s : SettingsStorage) (c : V2rayConfig) : (dns s c).outbounds = c.outbounds := by
  unfold dns
  simp only [apply_ite V2rayConfig.outbounds, addFirst, ite_self]

/-- The rule for what enters by the local DNS. -/
def dnsInRule : RulesBean := { type := field, inboundTag := some [dnsIn], outboundTag := dnsOut }

section LocalDns
variable (hin : dnsIn ∉ c.inbounds.map (·.tag)) (hout : dnsOut ∉ c.outbounds.map (·.tag))

theorem rules_customLocalDns (s : SettingsStorage) (c : V2rayConfig) :
    (customLocalDns s c).routing.rules = dnsInRule :: c.routing.rules := by
  refine congrArg (dnsInRule :: ·) ?_
  repeat' split
  all_goals rfl

include hin in
theorem inboundTags_customLocalDns : (customLocalDns s c).inbounds.map (·.tag) = c.inbounds.map (·.tag) ++ [dnsIn] := by
  have hany : (c.inbounds.any fun e => e.protocol = "dokodemo-door".toList && e.tag = dnsIn) = false := by
    rw [List.any_eq_false]
    intro e he htag
    exact hin (List.mem_map.mpr ⟨e, he, of_decide_eq_true (Bool.and_eq_true_iff.mp htag).2⟩)
  unfold customLocalDns
  simp only [addFirst, apply_ite V2rayConfig.inbounds, ite_self, hany]
  rw [if_neg Bool.false_ne_true, List.map_append]
  rfl

include hout in
theorem outboundTags_customLocalDns :
    (customLocalDns s c).outbounds.map (·.tag) = c.outbounds.map (·.tag) ++ [dnsOut] := by
  have hany : (c.outbounds.any fun e => e.protocol = "dns".toList && e.tag = dnsOut) = false := by
    rw [List.any_eq_false]
    intro e he htag
    exact hout (List.mem_map.mpr ⟨e, he, of_decide_eq_true (Bool.and_eq_true_iff.mp htag).2⟩)
  unfold customLocalDns
  simp only [addFirst, apply_ite V2rayConfig.outbounds, ite_self, hany]
  rw [if_neg Bool.false_ne_true, List.map_append]
  rfl

end LocalDns

/-! ### The whole configuration -/

/-- The rules that a generated configuration has. -/
def rules (s : SettingsStorage) : List RulesBean :=
  (if decodeBool s.localDnsEnabled then [dnsInRule] else []) ++ (dnsRules s ++
    ((if s.bypassesMainland then [googleapisRoute] else []) ++ (userRules (text s.routingAgent) tagAgent ++
      userRules (text s.routingDirect) tagDirect ++ userRules (text s.routingBlocked) tagBlocked) ++ modeRules s.mode))

def inboundTags (s : SettingsStorage) : List (List Char) :=
  ["socks".toList, "http".toList] ++ (if decodeBool s.localDnsEnabled then [dnsIn] else [])

def outboundTags (s : SettingsStorage) : List (List Char) :=
  ServerConfig.getAllOutboundTags ++ (if decodeBool s.localDnsEnabled then [dnsOut] else [])

/-- The configuration before the local DNS. -/
def withoutLocalDns (s : SettingsStorage) (outbound : V2rayConfig.OutboundBean) : V2rayConfig :=
  dns s (fakedns s (routing s (setOutbound (httpRequestObject outbound)
    (inbounds s { assets with loglevel := some (s.loglevel.getD "warning".toList) }))))

theorem inbounds_routing (s : SettingsStorage) (c : V2rayConfig) : (routing s c).inbounds = c.inbounds := by
  unfold V2rayConfigUtil.routing
  simp only [routingByMode_eq, routingUserRule_eq]
  rfl

theorem outbounds_routing (s : SettingsStorage) (c : V2rayConfig) : (routing s c).outbounds = c.outbounds := by
  unfold V2rayConfigUtil.routing
  simp only [routingByMode_eq, routingUserRule_eq]
  rfl

section
variable (outbound : V2rayConfig.OutboundBean) (htag : outbound.tag = tagAgent)

theorem rules_withoutLocalDns : (withoutLocalDns s outbound).routing.rules = dnsRules s ++
    ((if s.bypassesMainland then [googleapisRoute] else []) ++ (userRules (text s.routingAgent) tagAgent ++
      userRules (text s.routingDirect) tagDirect ++ userRules (text s.routingBlocked) tagBlocked) ++ modeRules s.mode) := by
  rw [withoutLocalDns, rules_dns, (alike_fakedns _ _).rules, rules_routing]
  rfl

theorem inboundTags_withoutLocalDns :
    (withoutLocalDns s outbound).inbounds.map (·.tag) = ["socks".toList, "http".toList] := by
  rw [withoutLocalDns, inbounds_dns, (alike_fakedns _ _).inbounds, inbounds_routing]
  exact (alike_inbounds s { assets with loglevel := some (s.loglevel.getD "warning".toList) }).inbounds

include htag in
theorem outboundTags_withoutLocalDns :
    (withoutLocalDns s outbound).outbounds.map (·.tag) = ServerConfig.getAllOutboundTags := by
  rw [withoutLocalDns, outbounds_dns, (alike_fakedns _ _).outbounds, outbounds_routing]
  show [(httpRequestObject outbound).tag, tagDirect, tagBlocked] = _
  rw [httpRequestObject_tag, htag]
  rfl

/-- What routes in the generated configuration. -/
structure Routes (s : SettingsStorage) (c : V2rayConfig) : Prop where
  rules : c.routing.rules = rules s
  inbounds : c.inbounds.map (·.tag) = inboundTags s
  outbounds : c.outbounds.map (·.tag) = outboundTags s

include htag in
theorem routes_getV2rayNonCustomConfig : Routes s (getV2rayNonCustomConfig s outbound) := by
  have hcounts : ∀ c : V2rayConfig, Routes s c → Routes s (if decodeBool s.speedEnabled then c else { c with counts := false }) := by
    intro c hc
    split
    case isTrue => exact hc
    case isFalse => exact ⟨hc.rules, hc.inbounds, hc.outbounds⟩
  have hin := inboundTags_withoutLocalDns (s := s) outbound
  have hout := outboundTags_withoutLocalDns (s := s) outbound htag
  refine hcounts (if decodeBool s.localDnsEnabled then customLocalDns s (withoutLocalDns s outbound) else _) ?_
  cases hlocal : decodeBool s.localDnsEnabled with
  | false =>
    refine ⟨?_, ?_, ?_⟩
    · rw [rules, hlocal]
      exact rules_withoutLocalDns outbound
    · rw [inboundTags, hlocal]
      exact hin
    · rw [outboundTags, hlocal]
      exact hout
  | true =>
    refine ⟨?_, ?_, ?_⟩
    · rw [rules, hlocal]
      exact (rules_customLocalDns s _).trans (congrArg _ (rules_withoutLocalDns outbound))
    · rw [inboundTags, hlocal]
      exact (inboundTags_customLocalDns (by rw [hin]; decide)).trans (congrArg (· ++ _) hin)
    · rw [outboundTags, hlocal]
      exact (outboundTags_customLocalDns (by rw [hout]; decide)).trans (congrArg (· ++ _) hout)

end

theorem routes_getV2rayConfig {config : ServerConfig} (h : getV2rayConfig s config = some c) : Routes s c := by
  obtain ⟨outbound, hout, rfl⟩ := Option.map_eq_some_iff.mp h
  refine routes_getV2rayNonCustomConfig outbound ?_
  unfold ServerConfig.getProxyOutbound at hout
  split at hout
  case isTrue => cases hout
  case isFalse =>
    rw [← Option.some.inj hout]

/-! ### What the core does under the rules -/

/-- The two settings in which a rule is there or not. -/
theorem decide_ite_singleton {ρ β : Type} (R : Rules ρ β) (p : Bool) (r : ρ) :
    R.decide (if p then [r] else []) = if p && R.matches? r then some (R.verdict r) else none := by
  cases p with
  | false => rfl
  | true => exact R.decide_cons

theorem matches_domainRule (l : List (List Char)) :
    (coreRules M t).matches? (domainRule tag l) = l.any (M.domain · t.dest) := by
  simp [coreRules, domainRule]

theorem matches_ipRule (l : List (List Char)) :
    (coreRules M t).matches? (ipRule tag l) = l.any (M.ip · t.dest) := by
  simp [coreRules, ipRule]

theorem inPorts_53 (port : UInt16) : inPorts "53".toList port = decide (port = 53) := by
  have hparts : (Text.split ['-'] "53".toList).map Text.toInt = [some 53] := by decide
  rw [inPorts, hparts]
  refine decide_eq_decide.mpr ?_
  rw [← UInt16.toNat_inj]
  show (53 : Int) = port.toNat ↔ port.toNat = 53
  omega

theorem inPorts_all (port : UInt16) : inPorts "0-65535".toList port = true := by
  have hparts : (Text.split ['-'] "0-65535".toList).map Text.toInt = [some 0, some 65535] := by decide
  have hlt := port.toNat_lt
  rw [inPorts, hparts]
  refine decide_eq_true ?_
  omega

theorem matches_dnsRule (server : List Char) :
    (isPureIpAddress server && (coreRules M t).matches? (dnsRule server tag)) = queries M t server := by
  simp only [coreRules, dnsRule, queries, Option.all, List.any_cons, List.any_nil, Bool.or_false, Bool.true_and, inPorts_53]
  cases isPureIpAddress server <;> cases M.ip server t.dest <;> simp

theorem matches_dnsInRule : (coreRules M t).matches? dnsInRule = decide (t.inboundTag = dnsIn) := by
  simp [coreRules, dnsInRule]

theorem matches_globalDirect : (coreRules M t).matches? globalDirect = true := by
  simp only [coreRules, globalDirect, Option.all, inPorts_all, Bool.and_true]

theorem any_or {α : Type} (p q : α → Bool) (l : List α) : (l.any p || l.any q) = l.any fun x => p x || q x := by
  rw [Bool.eq_iff_iff]
  simp only [Bool.or_eq_true, List.any_eq_true]
  constructor
  · rintro (⟨x, hx, h⟩ | ⟨x, hx, h⟩)
    exacts [⟨x, hx, .inl h⟩, ⟨x, hx, .inr h⟩]
  · rintro ⟨x, hx, h | h⟩
    exacts [.inl ⟨x, hx, h⟩, .inr ⟨x, hx, h⟩]

/-- The rules of a list of the user match exactly what the list names, with one verdict. -/
theorem decide_userRules : (coreRules M t).decide (userRules u tag) = if listed M t u then some tag else none := by
  have htags : ∀ r ∈ userRules u tag, (coreRules M t).verdict r = tag := by
    intro r hr
    rcases List.mem_append.mp hr with hr | hr <;> split at hr <;>
      first
        | exact absurd hr List.not_mem_nil
        | rw [List.mem_singleton.mp hr]; rfl
  have hany : (userRules u tag).any (coreRules M t).matches? = listed M t u := by
    have hblock : ∀ (l : List (List Char)) (f : List (List Char) → RulesBean) (m : List Char → Bool),
        (∀ l, (coreRules M t).matches? (f l) = l.any m) →
          (if l = [] then [] else [f l]).any (coreRules M t).matches? = l.any m := by
      intro l f m hf
      by_cases hl : l = []
      · rw [if_pos hl, hl]
        rfl
      · rw [if_neg hl, List.any_cons, List.any_nil, Bool.or_false, hf]
    rw [userRules, List.any_append, hblock _ (domainRule tag) _ matches_domainRule,
      hblock _ (ipRule tag) _ matches_ipRule, domains, ips, List.any_filter, List.any_filter, any_or, listed]
    refine congrArg (List.any (entries u)) (funext fun it => ?_)
    cases isIpEntry it <;> simp
  rw [Rules.decide_of_uniform htags, hany]

theorem decide_modeRules :
    (coreRules M t).decide (modeRules s.mode) = if s.modeDirect M t then some tagDirect else none := by
  have htags : ∀ r ∈ modeRules s.mode, (coreRules M t).verdict r = tagDirect := by
    intro r hr
    unfold modeRules at hr
    repeat' split at hr
    all_goals simp only [List.mem_cons, List.not_mem_nil, or_false] at hr
    all_goals first | rw [hr]; rfl | (rcases hr with rfl | rfl <;> rfl) | (rcases hr with rfl | rfl | rfl <;> rfl)
  have hany : (modeRules s.mode).any (coreRules M t).matches? = s.modeDirect M t := by
    unfold modeRules modeDirect bypassesMainland
    by_cases h1 : s.mode = ERoutingMode.bypassLan.value
    · rw [if_pos h1, h1]
      simp [matches_ipRule, ERoutingMode.value]
    rw [if_neg h1]
    by_cases h2 : s.mode = ERoutingMode.bypassMainland.value
    · rw [if_pos h2, h2]
      simp [matches_ipRule, matches_domainRule, ERoutingMode.value]
    rw [if_neg h2]
    by_cases h3 : s.mode = ERoutingMode.bypassLanMainland.value
    · rw [if_pos h3, h3]
      simp [matches_ipRule, matches_domainRule, ERoutingMode.value]
    rw [if_neg h3]
    by_cases h4 : s.mode = ERoutingMode.globalDirect.value
    · rw [if_pos h4]
      simp [matches_globalDirect, h4]
    · rw [if_neg h4]
      simp [h1, h2, h3, h4]
  rw [Rules.decide_of_uniform htags, hany]

theorem matches_googleapisRoute :
    (coreRules M t).matches? googleapisRoute = M.domain "domain:googleapis.cn".toList t.dest := by
  rw [show googleapisRoute = domainRule tagAgent ["domain:googleapis.cn".toList] from rfl, matches_domainRule]
  simp

theorem ite_or {β : Type} (p : Prop) [Decidable p] (b : β) (o o' : Option β) :
    (if p then some b else o).or o' = if p then some b else o.or o' := by
  split <;> rfl

/-- Under a generated configuration the core sends every connection where the settings ask for: what comes in by
    the local DNS to the DNS outbound, then the queries to the DNS servers, then the lists of the user in the order
    proxy, direct, blocked, then what the mode reaches without the server, and the rest to the server. -/
theorem route_getV2rayConfig (M : Matcher δ) (t : Target δ) (s : SettingsStorage) (config : ServerConfig)
    (h : getV2rayConfig s config = some c) : c.route M t = some (s.route M t) := by
  have hroutes := routes_getV2rayConfig h
  have hfirst : c.outbounds.head?.map (·.tag) = some tagAgent := by
    rw [← List.head?_map, hroutes.outbounds]
    rfl
  unfold V2rayConfig.route SettingsStorage.route
  rw [hroutes.rules, hfirst, rules, dnsRules]
  simp only [Rules.decide_append, decide_ite_singleton, decide_userRules, decide_modeRules, matches_dnsInRule,
    Bool.and_assoc, matches_dnsRule, matches_googleapisRoute, ite_or, Option.none_or, apply_ite some]
  rfl

/-- The mainland and one domain directly, advertisements nowhere, names over the local DNS. -/
def mainlandSettings : SettingsStorage where
  routingMode := some ERoutingMode.bypassLanMainland.value
  routingDirect := some "10.0.0.0/8, domain:a.com".toList
  routingBlocked := some "domain:ads.com,".toList
  localDnsEnabled := some true
  fakeDnsEnabled := some true

theorem route_getV2rayConfig_mainland :
    ∃ c, getV2rayConfig mainlandSettings (ServerConfig.create .vmess) = some c ∧
      c.route { domain := (· == ·), ip := fun _ _ => false }
        { inboundTag := "socks".toList, port := 443, dest := "domain:a.com".toList } = some tagDirect :=
  ⟨_, rfl, (route_getV2rayConfig _ _ mainlandSettings (ServerConfig.create .vmess) rfl).trans (by decide)⟩

/-! ### Nothing is named that is not there -/

/-- What the core checks of a configuration before it starts: tags are told apart, every rule has a condition that
    is not empty and leads to an outbound, and what it says of inbounds is about inbounds that there are. -/
structure WellFormed (c : V2rayConfig) : Prop where
  inbounds : (c.inbounds.map (·.tag)).Nodup
  outbounds : (c.outbounds.map (·.tag)).Nodup
  outboundTag : ∀ r ∈ c.routing.rules, r.outboundTag ∈ c.outbounds.map (·.tag)
  inboundTag : ∀ r ∈ c.routing.rules, ∀ tags ∈ r.inboundTag, ∀ tag ∈ tags, tag ∈ c.inbounds.map (·.tag)
  effective : ∀ r ∈ c.routing.rules,
    (∃ l ∈ r.domain, l ≠ []) ∨ (∃ l ∈ r.ip, l ≠ []) ∨ (∃ p ∈ r.port, p ≠ []) ∨ ∃ l ∈ r.inboundTag, l ≠ []

theorem mem_ite {α : Type} {p : Prop} [Decidable p] {a b : α} (h : a ∈ if p then [b] else []) : p ∧ a = b := by
  split at h
  case isTrue hp => exact ⟨hp, List.mem_singleton.mp h⟩
  case isFalse => cases h

/-- The outbounds that a rule of the configuration may lead to, and how it says what it matches. -/
inductive Sound (s : SettingsStorage) : RulesBean → Prop
  | dnsIn (hlocal : decodeBool s.localDnsEnabled = true) : Sound s dnsInRule
  | domains (tag : List Char) (htag : tag ∈ ServerConfig.getAllOutboundTags) (l : List (List Char)) (hl : l ≠ []) :
    Sound s (domainRule tag l)
  | ips (tag : List Char) (htag : tag ∈ ServerConfig.getAllOutboundTags) (l : List (List Char)) (hl : l ≠ []) :
    Sound s (ipRule tag l)
  | ports (tag : List Char) (htag : tag ∈ ServerConfig.getAllOutboundTags) (r : RulesBean) (hr : r.outboundTag = tag)
    (port : List Char) (hport : r.port = some port) (hne : port ≠ []) (hin : r.inboundTag = none) : Sound s r

theorem agent_mem : tagAgent ∈ ServerConfig.getAllOutboundTags := by decide

theorem direct_mem : tagDirect ∈ ServerConfig.getAllOutboundTags := by decide

theorem blocked_mem : tagBlocked ∈ ServerConfig.getAllOutboundTags := by decide

theorem sound_dnsRule (server : List Char) (htag : tag ∈ ServerConfig.getAllOutboundTags) : Sound s (dnsRule server tag) :=
  .ports tag htag _ rfl "53".toList rfl (by decide) rfl

theorem sound_userRules (htag : tag ∈ ServerConfig.getAllOutboundTags) : ∀ r ∈ userRules u tag, Sound s r := by
  intro r hr
  rcases List.mem_append.mp hr with hr | hr <;> split at hr
  case inl.isFalse hne => exact List.mem_singleton.mp hr ▸ .domains tag htag _ hne
  case inr.isFalse hne => exact List.mem_singleton.mp hr ▸ .ips tag htag _ hne
  all_goals cases hr

theorem sound_modeRules (mode : List Char) : ∀ r ∈ modeRules mode, Sound s r := by
  have hip : ∀ a, Sound s (ipRule tagDirect [a]) := fun a => .ips _ direct_mem _ (List.cons_ne_nil _ _)
  have hdomain : ∀ a, Sound s (domainRule tagDirect [a]) := fun a => .domains _ direct_mem _ (List.cons_ne_nil _ _)
  have hglobal : Sound s globalDirect := .ports _ direct_mem _ rfl "0-65535".toList rfl (by decide) rfl
  unfold modeRules
  repeat' split
  all_goals simp only [List.forall_mem_cons, List.not_mem_nil, false_implies, implies_true, and_true, hip, hdomain, hglobal]

theorem sound_rules : ∀ r ∈ rules s, Sound s r := by
  intro r hr
  simp only [rules, dnsRules, List.mem_append] at hr
  rcases hr with hr | (hr | hr) | (hr | (hr | hr) | hr) | hr
  · obtain ⟨hlocal, rfl⟩ := mem_ite hr
    exact .dnsIn hlocal
  · obtain ⟨-, rfl⟩ := mem_ite hr
    exact sound_dnsRule _ agent_mem
  · obtain ⟨-, rfl⟩ := mem_ite hr
    exact sound_dnsRule _ direct_mem
  · obtain ⟨-, rfl⟩ := mem_ite hr
    exact .domains _ agent_mem _ (List.cons_ne_nil _ _)
  · exact sound_userRules agent_mem r hr
  · exact sound_userRules direct_mem r hr
  · exact sound_userRules blocked_mem r hr
  · exact sound_modeRules s.mode r hr

theorem Sound.outboundTag {r : RulesBean} (h : Sound s r) : r.outboundTag ∈ outboundTags s := by
  cases h with
  | dnsIn hlocal => exact List.mem_append_right _ (by rw [if_pos hlocal]; exact List.mem_singleton_self _)
  | domains tag htag => exact List.mem_append_left _ htag
  | ips tag htag => exact List.mem_append_left _ htag
  | ports tag htag _ hr => exact List.mem_append_left _ (hr ▸ htag)

theorem Sound.inboundTag {r : RulesBean} (h : Sound s r) :
    ∀ tags ∈ r.inboundTag, ∀ tag ∈ tags, tag ∈ inboundTags s := by
  intro tags htags tag htag
  cases h with
  | dnsIn hlocal =>
    cases htags
    rw [List.mem_singleton.mp htag, inboundTags, if_pos hlocal]
    exact List.mem_append_right _ (List.mem_singleton_self _)
  | domains => cases htags
  | ips => cases htags
  | ports _ _ _ _ _ _ _ hin =>
    rw [hin] at htags
    cases htags

theorem Sound.effective {r : RulesBean} (h : Sound s r) :
    (∃ l ∈ r.domain, l ≠ []) ∨ (∃ l ∈ r.ip, l ≠ []) ∨ (∃ p ∈ r.port, p ≠ []) ∨ ∃ l ∈ r.inboundTag, l ≠ [] := by
  cases h with
  | dnsIn => exact .inr (.inr (.inr ⟨_, rfl, List.cons_ne_nil _ _⟩))
  | domains _ _ l hl => exact .inl ⟨l, rfl, hl⟩
  | ips _ _ l hl => exact .inr (.inl ⟨l, rfl, hl⟩)
  | ports _ _ _ _ port hport hne => exact .inr (.inr (.inl ⟨port, hport, hne⟩))

/-- Every configuration that is generated is well formed, whatever the settings hold. -/
theorem wellFormed_getV2rayConfig (s : SettingsStorage) (config : ServerConfig) (h : getV2rayConfig s config = some c) :
    WellFormed c := by
  have hroutes := routes_getV2rayConfig h
  refine ⟨?_, ?_, ?_, ?_, ?_⟩
  · rw [hroutes.inbounds, inboundTags]
    cases decodeBool s.localDnsEnabled <;> decide
  · rw [hroutes.outbounds, outboundTags]
    cases decodeBool s.localDnsEnabled <;> decide
  · rw [hroutes.rules, hroutes.outbounds]
    exact fun r hr => (sound_rules r hr).outboundTag
  · rw [hroutes.rules, hroutes.inbounds]
    exact fun r hr => (sound_rules r hr).inboundTag
  · rw [hroutes.rules]
    exact fun r hr => (sound_rules r hr).effective

theorem wellFormed_getV2rayConfig_mainland :
    ∃ c, getV2rayConfig mainlandSettings (ServerConfig.create .trojan) = some c ∧ WellFormed c :=
  ⟨_, rfl, wellFormed_getV2rayConfig mainlandSettings (ServerConfig.create .trojan) rfl⟩

end NicVpn.V2ray.V2rayConfigUtil
