import NicVpn.Theorems.LinkQuery

/-! The parameters of a shared configuration, and the stream settings that they are read as. What is lost on the way is
    what has no parameter, what an empty value stands for, and what is no longer the same after it was coded and read. -/

namespace NicVpn.V2ray
open NicVpn.Utils

/-! ### The same stream -/

/-- No TCP settings count as the default ones. -/
def StreamSettingsBean.tcp (s : StreamSettingsBean) : TcpSettingsBean := (s.tcpSettings.getD {}).withRequest

def StreamSettingsBean.tlsOrXtls (s : StreamSettingsBean) : Option TlsSettingsBean := s.tlsSettings.or s.xtlsSettings

/-- The transports with their parameters. -/
structure SameParameters (s t : StreamSettingsBean) : Prop where
  network : t.network = s.network
  tcp : t.tcp = s.tcp
  kcp : t.kcpSettings = s.kcpSettings
  ws : t.wsSettings = s.wsSettings
  http : t.httpSettings = s.httpSettings
  quic : t.quicSettings = s.quicSettings
  grpc : t.grpcSettings = s.grpcSettings

theorem SameParameters.trans {s t u : StreamSettingsBean} (h : SameParameters s t) (h' : SameParameters t u) :
    SameParameters s u :=
  ⟨h'.network.trans h.network, h'.tcp.trans h.tcp, h'.kcp.trans h.kcp, h'.ws.trans h.ws, h'.http.trans h.http,
    h'.quic.trans h.quic, h'.grpc.trans h.grpc⟩

theorem SameParameters.symm {s t : StreamSettingsBean} (h : SameParameters s t) : SameParameters t s :=
  ⟨h.network.symm, h.tcp.symm, h.kcp.symm, h.ws.symm, h.http.symm, h.quic.symm, h.grpc.symm⟩

/-- Transport and security; an empty security counts as none, and an empty ALPN list as no list. -/
structure SameStream (s t : StreamSettingsBean) : Prop where
  parameters : SameParameters s t
  security : AngConfigManager.ifEmpty t.security "none".toList = AngConfigManager.ifEmpty s.security "none".toList
  serverName : t.tlsOrXtls.map (·.serverName) = s.tlsOrXtls.map (·.serverName)
  alpn : (t.tlsOrXtls.bind (·.alpn)).getD [] = (s.tlsOrXtls.bind (·.alpn)).getD []

namespace AngConfigManager
open StreamSettingsBean

/-! ### Keys -/

def flowKeys : List (List Char) := ["flow", "encryption"].map String.toList

def tlsKeys : List (List Char) := ["sni", "alpn"].map String.toList

def transportKeys : List (List Char) :=
  ["headerType", "host", "path", "seed", "quicSecurity", "key", "mode", "serviceName"].map String.toList

def queryKeys : List (List Char) := flowKeys ++ "security".toList :: tlsKeys ++ "type".toList :: transportKeys

theorem keys_unlessEmpty (k : String) (v : List Char) : (Assoc.keys (unlessEmpty k v)).Sublist [k.toList] := by
  unfold unlessEmpty
  split
  · exact List.nil_sublist _
  · exact List.Sublist.refl _

theorem keys_codedUnlessEmpty (k : String) (v : List Char) : (Assoc.keys (codedUnlessEmpty k v)).Sublist [k.toList] := by
  unfold codedUnlessEmpty
  split
  · exact List.nil_sublist _
  · exact List.Sublist.refl _

theorem keys_append (l m : Params) : Assoc.keys (l ++ m) = Assoc.keys l ++ Assoc.keys m := List.map_append

theorem keys_flowParams (c : ServerConfig) : (Assoc.keys (flowParams c)).Sublist flowKeys := by
  unfold flowParams
  split
  · rw [keys_append]
    exact (keys_unlessEmpty _ _).append (List.Sublist.refl _)
  · exact (keys_unlessEmpty _ _).trans (List.sublist_append_left ["flow".toList] ["encryption".toList])
  · exact List.nil_sublist _

theorem keys_tlsParams (s : StreamSettingsBean) : (Assoc.keys (tlsParams s)).Sublist tlsKeys := by
  unfold tlsParams
  split
  · rw [keys_append]
    refine (keys_unlessEmpty _ _).append ?_
    split
    · exact List.nil_sublist _
    · exact List.nil_sublist _
    · exact List.Sublist.refl _
  · exact List.nil_sublist _

theorem keys_transportParams (network : List Char) (d : List Char × List Char × List Char) :
    (Assoc.keys (transportParams network d)).Sublist transportKeys := by
  have hsub : ∀ {l : List (List Char)} (m : List (List Char)), l.Sublist m →
      m.isSublist transportKeys = true → l.Sublist transportKeys :=
    fun m hl hm => hl.trans (List.isSublist_iff_sublist.mp hm)
  unfold transportParams
  split
  · exact hsub ["headerType".toList, "host".toList] ((keys_codedUnlessEmpty _ _).cons_cons _) (by decide)
  · split
    · exact hsub ["headerType".toList, "seed".toList] ((keys_codedUnlessEmpty _ _).cons_cons _) (by decide)
    · split
      · rw [keys_append]
        exact hsub ["host".toList, "path".toList] ((keys_codedUnlessEmpty _ _).append (keys_codedUnlessEmpty _ _)) (by decide)
      · split
        · rw [keys_append]
          exact hsub ["host".toList, "path".toList] ((keys_codedUnlessEmpty _ _).append (keys_codedUnlessEmpty _ _))
            (by decide)
        · split
          · exact hsub ["headerType".toList, "quicSecurity".toList, "key".toList] (List.Sublist.refl _) (by decide)
          · split
            · exact hsub ["mode".toList, "serviceName".toList] (List.Sublist.refl _) (by decide)
            · exact List.nil_sublist _

theorem keys_dicQuery (c : ServerConfig) : (Assoc.keys (dicQuery c)).Sublist queryKeys := by
  have htransport : ∀ d : Option (List Char × List Char × List Char),
      (Assoc.keys ((d.map (transportParams c.outboundBean.streamSettings.network)).getD [])).Sublist transportKeys := by
    intro d
    cases d with
    | none => exact List.nil_sublist _
    | some d => exact keys_transportParams _ d
  unfold dicQuery
  simp only [keys_append]
  exact ((keys_flowParams c).append ((keys_tlsParams _).cons_cons _)).append ((htransport _).cons_cons _)

theorem nodup_dicQuery (c : ServerConfig) : (Assoc.keys (dicQuery c)).Nodup :=
  (keys_dicQuery c).nodup (by decide)

theorem isKey_dicQuery (c : ServerConfig) : ∀ p ∈ dicQuery c, IsKey p.1 := by
  have hall : (queryKeys.all fun k => k.all Uri.isAlpha) = true := by decide
  intro p hp
  exact List.all_eq_true.mp (List.all_eq_true.mp hall p.1 ((keys_dicQuery c).subset (List.mem_map_of_mem hp)))

/-! ### Values -/

theorem lookup_eq_none {l : Params} {ks : List (List Char)} {k : List Char} (hl : (Assoc.keys l).Sublist ks) (hk : k ∉ ks) :
    l.lookup k = none := by
  cases h : l.lookup k with
  | none => rfl
  | some v => exact absurd (hl.subset (Assoc.mem_keys_of_lookup h)) hk

/-- A parameter that is left out when its value is empty. -/
def optional (v : List Char) : Option (List Char) := if v = [] then none else some v

theorem lookup_unlessEmpty (k : String) (v : List Char) : (unlessEmpty k v).lookup k.toList = optional v := by
  unfold unlessEmpty optional
  split
  · rfl
  · rw [List.lookup_cons, beq_self_eq_true]

theorem lookup_codedUnlessEmpty (k : String) (v : List Char) :
    (codedUnlessEmpty k v).lookup k.toList = (optional v).map urlEncode := by
  unfold codedUnlessEmpty optional
  split
  · rfl
  · rw [List.lookup_cons, beq_self_eq_true]
    rfl

section Lookup
variable {c : ServerConfig} {k : List Char}

/-- The parameters of the transport, none without settings. -/
def transportPart (s : StreamSettingsBean) (d : Option (List Char × List Char × List Char)) : Params :=
  (d.map (transportParams s.network)).getD []

theorem keys_transportPart (s : StreamSettingsBean) (d : Option (List Char × List Char × List Char)) :
    (Assoc.keys (transportPart s d)).Sublist transportKeys := by
  cases d with
  | none => exact List.nil_sublist _
  | some d => exact keys_transportParams _ d

theorem lookup_dicQuery (c : ServerConfig) (k : List Char) :
    (dicQuery c).lookup k =
      ((((flowParams c).lookup k).or
        ((("security".toList, ifEmpty c.outboundBean.streamSettings.security "none".toList) ::
          tlsParams c.outboundBean.streamSettings).lookup k)).or
        ((("type".toList, typeParam c.outboundBean.streamSettings c.getTransportSettingDetails) ::
          transportPart c.outboundBean.streamSettings c.getTransportSettingDetails).lookup k)) := by
  rw [dicQuery, List.lookup_append, List.lookup_append]
  rfl

theorem lookup_flow (hk : k ∈ flowKeys) : (dicQuery c).lookup k = (flowParams c).lookup k := by
  have hno : k ≠ "security".toList ∧ k ∉ tlsKeys ∧ k ≠ "type".toList ∧ k ∉ transportKeys := by
    revert k
    decide
  rw [lookup_dicQuery, List.lookup_cons, List.lookup_cons, beq_false_of_ne hno.1, beq_false_of_ne hno.2.2.1,
    lookup_eq_none (keys_tlsParams _) hno.2.1, lookup_eq_none (keys_transportPart _ _) hno.2.2.2]
  simp

theorem lookup_tls (hk : k ∈ tlsKeys) : (dicQuery c).lookup k = (tlsParams c.outboundBean.streamSettings).lookup k := by
  have hno : k ≠ "security".toList ∧ k ∉ flowKeys ∧ k ≠ "type".toList ∧ k ∉ transportKeys := by
    revert k
    decide
  rw [lookup_dicQuery, List.lookup_cons, List.lookup_cons, beq_false_of_ne hno.1, beq_false_of_ne hno.2.2.1,
    lookup_eq_none (keys_flowParams _) hno.2.1, lookup_eq_none (keys_transportPart _ _) hno.2.2.2]
  simp

theorem lookup_transport (hk : k ∈ transportKeys) :
    (dicQuery c).lookup k = (transportPart c.outboundBean.streamSettings c.getTransportSettingDetails).lookup k := by
  have hno : k ≠ "security".toList ∧ k ∉ flowKeys ∧ k ≠ "type".toList ∧ k ∉ tlsKeys := by
    revert k
    decide
  rw [lookup_dicQuery, List.lookup_cons, List.lookup_cons, beq_false_of_ne hno.1, beq_false_of_ne hno.2.2.1,
    lookup_eq_none (keys_flowParams _) hno.2.1, lookup_eq_none (keys_tlsParams _) hno.2.2.2]
  simp

theorem lookup_security :
    (dicQuery c).lookup "security".toList = some (ifEmpty c.outboundBean.streamSettings.security "none".toList) := by
  rw [lookup_dicQuery, lookup_eq_none (keys_flowParams _) (by decide), List.lookup_cons, beq_self_eq_true]
  rfl

theorem lookup_type :
    (dicQuery c).lookup "type".toList =
      some (typeParam c.outboundBean.streamSettings c.getTransportSettingDetails) := by
  have hne : ("type".toList == "security".toList) = false := by decide
  rw [lookup_dicQuery, lookup_eq_none (keys_flowParams _) (by decide), List.lookup_cons, hne,
    lookup_eq_none (keys_tlsParams _) (by decide), List.lookup_cons, beq_self_eq_true]
  rfl

end Lookup

/-! ### The transport -/

/-- The fields that the parameters of a transport are read as. -/
def readFields (network : List Char) (d : Option (List Char × List Char × List Char)) : TransportFields :=
  let value := fun k : String => (((d.map (transportParams network)).getD []).lookup k.toList).map readValue
  { headerType := value "headerType", host := value "host", path := value "path", seed := value "seed"
    quicSecurity := value "quicSecurity", key := value "key", mode := value "mode", serviceName := value "serviceName" }

/-- What the transport has to be for its parameters to come back: a value that is not coded keeps its place in the query,
    a coded one is the same after it was decoded twice, and what a missing parameter stands for is not empty. The path
    of a TCP request has no parameter. -/
structure KeptTransport (s : StreamSettingsBean) : Prop where
  network : s.network ≠ [] ∧ Kept s.network
  tcp : ∀ t ∈ s.tcpSettings, (t.request.getD {}).path = [] ∧ Plain (joinToString (t.request.getD {}).Host)
  kcp : ∀ t ∈ s.kcpSettings, t.headerType ≠ [] ∧ Kept t.headerType ∧ Plain (t.seed.getD [])
  ws : ∀ t ∈ s.wsSettings, t.path ≠ [] ∧ Plain t.path ∧ Plain t.Host
  http : ∀ t ∈ s.httpSettings, t.path ≠ [] ∧ Plain t.path ∧ Plain (joinToString t.host)
  quic : ∀ t ∈ s.quicSettings, t.headerType ≠ [] ∧ Kept t.headerType ∧ Plain t.security ∧ Plain t.key
  grpc : ∀ t ∈ s.grpcSettings, Kept t.serviceName

/-- The transport gives the server no name. -/
structure Nameless (s : StreamSettingsBean) : Prop where
  tcp : ∀ t ∈ s.tcpSettings, (t.request.getD {}).Host.headD [] = []
  ws : ∀ t ∈ s.wsSettings, t.Host = []
  http : ∀ t ∈ s.httpSettings, t.host.headD [] = []

section Transport
variable {f : TransportFields} {net v : List Char} {p : StreamSettingsBean × List Char}
  {d : Option (List Char × List Char × List Char)}

theorem Plain.optional (h : Plain v) : ((optional v).map urlEncode).map AngConfigManager.readValue = optional v := by
  unfold AngConfigManager.optional
  split
  · rfl
  · exact congrArg some h.readValue

theorem getD_optional (v : List Char) : (optional v).getD [] = v := by
  unfold optional
  split
  · rename_i h
    exact h.symm
  · rfl

theorem ifEmpty_of_ne (h : v ≠ []) (t : List Char) : ifEmpty v t = v := if_neg h

/-- Letters come back. -/
theorem kept_of_alpha (h : ∀ c ∈ v, Uri.isAlpha c = true) : Kept v := by
  have hno : ∀ {c : Char}, Uri.isAlpha c = false → c ∉ v := fun hc hmem => Bool.false_ne_true (hc.symm.trans (h _ hmem))
  have hfix : fixIllegalUrl v = v := fixIllegalUrl_of_not_mem (hno (by decide)) (hno (by decide))
  have hlegal : Uri.legal Uri.isUric v = true := Uri.legal_of_forall fun c hc =>
    ⟨fun heq => hno (by decide) (heq ▸ hc), by simp [Uri.isUric, Uri.isUnreserved, Uri.isAlphanum, h c hc]⟩
  exact ⟨⟨hfix.symm ▸ hlegal, hno (by decide), hno (by decide)⟩, .inl ⟨hno (by decide), hno (by decide)⟩⟩

theorem readFields_tcp (d : List Char × List Char × List Char) :
    (readFields "tcp".toList (some d)).headerType = some (readValue (ifEmpty d.1 "none".toList)) ∧
      (readFields "tcp".toList (some d)).host = ((optional d.2.1).map urlEncode).map readValue ∧
      (readFields "tcp".toList (some d)).path = none := by
  have hkeys : (Assoc.keys (codedUnlessEmpty "host" d.2.1)).Sublist ["host".toList] := keys_codedUnlessEmpty _ _
  refine ⟨rfl, ?_, ?_⟩
  · rw [← lookup_codedUnlessEmpty]
    rfl
  · exact congrArg (Option.map readValue) (lookup_eq_none hkeys (show "path".toList ∉ _ by decide))

theorem tcp_again {t : TcpSettingsBean} (ht : t = tcpOf f)
    (hk : (t.request.getD {}).path = [] ∧ Plain (joinToString (t.request.getD {}).Host)) :
    (tcpOf (readFields "tcp".toList (some t.details))).withRequest = t.withRequest ∧
      ((t.request.getD {}).Host.headD [] = [] → tcpSni (readFields "tcp".toList (some t.details)) = []) := by
  obtain ⟨htype, hhost, hpath⟩ := readFields_tcp t.details
  generalize readFields "tcp".toList (some t.details) = f' at htype hhost hpath ⊢
  by_cases hhttp : f.headerType = some http
  · obtain ⟨l, m, hl, -, hrequest, hdetails⟩ := details_tcpOf f hhttp
    rw [← ht] at hrequest hdetails
    rw [hrequest] at hk
    obtain ⟨rfl, hcoded⟩ := hk
    rw [hdetails] at htype hhost
    rw [hcoded.optional] at hhost
    have hkept : Kept http := kept_of_alpha (Text.forall_of_all (by decide))
    have htype' : f'.headerType = some http := htype.trans (congrArg some hkept.readValue)
    have hback : ((tcpOf f').request.getD {}) = { Host := l, path := [] } := by
      have hsplit := splitList_joinToString hl
      have hlist : splitList (f'.host.getD []) = l := by rw [hhost, getD_optional, hsplit]
      rw [tcpOf_http htype', hpath]
      dsimp only
      split
      · rename_i hempty
        have hnil : f'.host.getD [] = [] := of_decide_eq_true ((Bool.and_eq_true _ _).mp hempty).1
        rw [hnil] at hlist
        rw [← hlist]
        rfl
      · rw [hlist]
        rfl
    constructor
    · unfold TcpSettingsBean.withRequest
      rw [hback, hrequest, tcpOf_http htype', ht, tcpOf_http hhttp]
    · intro hname
      rw [tcpSni_http htype', hback]
      rw [hrequest] at hname
      exact hname
  · rw [tcpOf_none hhttp] at ht
    subst ht
    have hkept : Kept "none".toList := kept_of_alpha (Text.forall_of_all (by decide))
    have htype' : f'.headerType = some "none".toList := htype.trans (congrArg some hkept.readValue)
    have hno : f'.headerType ≠ some http := by
      rw [htype']
      decide
    have hnone : f'.host = none := hhost
    constructor
    · rw [tcpOf_none hno]
    · intro _
      rw [tcpSni, if_neg hno, hnone]
      rfl

theorem readFields_kcp (d : List Char × List Char × List Char) :
    (readFields "kcp".toList (some d)).headerType = some (readValue (ifEmpty d.1 "none".toList)) ∧
      (readFields "kcp".toList (some d)).seed = ((optional d.2.2).map urlEncode).map readValue := by
  refine ⟨rfl, ?_⟩
  rw [← lookup_codedUnlessEmpty]
  rfl

theorem kcp_again {t : KcpSettingsBean} (hseed : t.seed = optional (t.seed.getD []))
    (hk : t.headerType ≠ [] ∧ Kept t.headerType ∧ Plain (t.seed.getD [])) :
    kcpOf (readFields "kcp".toList (some t.details)) = t := by
  obtain ⟨hne, hkept, hcoded⟩ := hk
  obtain ⟨htype, hseed'⟩ := readFields_kcp t.details
  generalize readFields "kcp".toList (some t.details) = f' at htype hseed' ⊢
  have htype' : f'.headerType = some t.headerType := by
    rw [htype, KcpSettingsBean.details, ifEmpty_of_ne hne, hkept.readValue]
  have hback : f'.seed = t.seed := by rw [hseed', KcpSettingsBean.details, hcoded.optional, ← hseed]
  have hempty : (if isEmpty t.seed then none else t.seed) = t.seed := by
    split
    · rename_i h
      have hnil : t.seed.getD [] = [] := of_decide_eq_true h
      rw [hseed, hnil]
      rfl
    · rfl
  rw [kcpOf, htype', hback, hempty]
  rfl

/-- A host and a path, of which either is left out when it is empty. -/
theorem readFields_hostPath {network : List Char} (h : network ∈ ["ws".toList, "h2".toList])
    (d : List Char × List Char × List Char) :
    (readFields network (some d)).host = ((optional d.2.1).map urlEncode).map readValue ∧
      (readFields network (some d)).path = ((optional d.2.2).map urlEncode).map readValue := by
  have hparams : transportParams network d = codedUnlessEmpty "host" d.2.1 ++ codedUnlessEmpty "path" d.2.2 := by
    rcases List.mem_cons.mp h with rfl | h
    · rfl
    · rw [List.mem_singleton.mp h]
      rfl
  have hhost : (codedUnlessEmpty "path" d.2.2).lookup "host".toList = none :=
    lookup_eq_none (keys_codedUnlessEmpty _ _) (by decide)
  have hpath : (codedUnlessEmpty "host" d.2.1).lookup "path".toList = none :=
    lookup_eq_none (keys_codedUnlessEmpty _ _) (by decide)
  constructor
  · show ((transportParams network d).lookup "host".toList).map readValue = _
    rw [hparams, List.lookup_append, hhost, lookup_codedUnlessEmpty, Option.or_none]
  · show ((transportParams network d).lookup "path".toList).map readValue = _
    rw [hparams, List.lookup_append, hpath, lookup_codedUnlessEmpty, Option.none_or]

theorem optional_of_ne (h : v ≠ []) : optional v = some v := if_neg h

theorem ws_again {t : WsSettingsBean} (hk : t.path ≠ [] ∧ Plain t.path ∧ Plain t.Host) :
    wsOf (readFields "ws".toList (some t.details)) = t := by
  obtain ⟨hne, hpath, hhost⟩ := hk
  obtain ⟨hhost', hpath'⟩ := readFields_hostPath List.mem_cons_self t.details
  rw [wsOf, hhost', hpath', WsSettingsBean.details, hhost.optional, hpath.optional, getD_optional, optional_of_ne hne]
  rfl

theorem h2_again {t : HttpSettingsBean} (ht : Entries t.host)
    (hk : t.path ≠ [] ∧ Plain t.path ∧ Plain (joinToString t.host)) :
    h2Of (readFields "h2".toList (some t.details)) = t := by
  obtain ⟨hne, hpath, hhost⟩ := hk
  obtain ⟨hhost', hpath'⟩ := readFields_hostPath (List.mem_cons_of_mem _ List.mem_cons_self) t.details
  rw [h2Of, hhost', hpath', HttpSettingsBean.details, hhost.optional, hpath.optional, getD_optional, optional_of_ne hne,
    splitList_joinToString ht]
  rfl

theorem quic_again {t : QuicSettingBean} (hk : t.headerType ≠ [] ∧ Kept t.headerType ∧ Plain t.security ∧ Plain t.key) :
    quicOf (readFields "quic".toList (some t.details)) = t := by
  obtain ⟨hne, hkept, hsecurity, hkey⟩ := hk
  have hfields : quicOf (readFields "quic".toList (some t.details)) =
      { security := readValue (urlEncode t.security), key := readValue (urlEncode t.key)
        headerType := readValue (ifEmpty t.headerType "none".toList) } := rfl
  rw [hfields, hsecurity.readValue, hkey.readValue, ifEmpty_of_ne hne, hkept.readValue]

theorem grpc_again {t : GrpcSettingsBean} (ht : t.multiMode.isSome = true) (hk : Kept t.serviceName) :
    grpcOf (readFields "grpc".toList (some t.details)) = t := by
  have hfields : grpcOf (readFields "grpc".toList (some t.details)) =
      { multiMode := some (some (readValue t.details.1) = some "multi".toList)
        serviceName := readValue t.serviceName } := rfl
  have hmode : readValue t.details.1 = t.details.1 := by
    unfold GrpcSettingsBean.details
    dsimp only
    split
    · exact (kept_of_alpha (Text.forall_of_all (by decide))).readValue
    · exact (kept_of_alpha (Text.forall_of_all (by decide))).readValue
  rw [hfields, hmode, hk.readValue]
  obtain ⟨serviceName, _ | _ | _⟩ := t
  · cases ht
  · rfl
  · rfl

theorem typeParam_of_ne {s : StreamSettingsBean} (hne : s.network ≠ []) (hhttp : s.network ≠ "http".toList)
    (hh2 : s.network ≠ "h2".toList) (d : Option (List Char × List Char × List Char)) : typeParam s d = s.network := by
  rw [typeParam, if_neg (fun h => h.2.elim hhttp hh2), ifEmpty_of_ne hne]

/-- The transport that is read from the parameters of a transport. -/
theorem transport_again (h : Populated f net p d) (hk : KeptTransport p.1) :
    SameParameters p.1 (populateTransportSettings {} (readValue (typeParam p.1 d)) (readFields p.1.network d)).1 ∧
      (Nameless p.1 → (populateTransportSettings {} (readValue (typeParam p.1 d)) (readFields p.1.network d)).2 = []) := by
  cases h with
  | tcp =>
    have hhttp : "tcp".toList ≠ "http".toList := by decide
    have hh2 : "tcp".toList ≠ "h2".toList := by decide
    obtain ⟨hsame, hname⟩ := tcp_again rfl (hk.tcp _ rfl)
    rw [typeParam_of_ne hk.network.1 hhttp hh2, hk.network.2.readValue]
    exact ⟨⟨rfl, hsame, rfl, rfl, rfl, rfl, rfl⟩, fun h => hname (h.tcp _ rfl)⟩
  | kcp =>
    have hhttp : "kcp".toList ≠ "http".toList := by decide
    have hh2 : "kcp".toList ≠ "h2".toList := by decide
    have hseed : (kcpOf f).seed = optional ((kcpOf f).seed.getD []) := by
      unfold kcpOf isEmpty
      cases f.seed with
      | none => rfl
      | some s => by_cases hs : s = [] <;> simp [hs, optional]
    have hback := kcp_again hseed (hk.kcp _ rfl)
    rw [typeParam_of_ne hk.network.1 hhttp hh2, hk.network.2.readValue]
    exact ⟨⟨rfl, rfl, congrArg some hback, rfl, rfl, rfl, rfl⟩, fun _ => rfl⟩
  | ws =>
    have hhttp : "ws".toList ≠ "http".toList := by decide
    have hh2 : "ws".toList ≠ "h2".toList := by decide
    have hback := ws_again (hk.ws _ rfl)
    rw [typeParam_of_ne hk.network.1 hhttp hh2, hk.network.2.readValue]
    exact ⟨⟨rfl, rfl, rfl, congrArg some hback, rfl, rfl, rfl⟩,
      fun h => (congrArg WsSettingsBean.Host hback).trans (h.ws _ rfl)⟩
  | h2 _ =>
    have hback := h2_again (entries_splitList _) (hk.http _ rfl)
    have htype : readValue "http".toList = "http".toList := (kept_of_alpha (Text.forall_of_all (by decide))).readValue
    have hparam : ∀ q : StreamSettingsBean, q.network = "h2".toList → ∀ d, typeParam q (some d) = "http".toList :=
      fun q hq d => if_pos ⟨rfl, .inr hq⟩
    rw [hparam _ rfl, htype]
    exact ⟨⟨rfl, rfl, rfl, rfl, congrArg some hback, rfl, rfl⟩,
      fun h => (congrArg (fun t : HttpSettingsBean => t.host.headD []) hback).trans (h.http _ rfl)⟩
  | quic =>
    have hhttp : "quic".toList ≠ "http".toList := by decide
    have hh2 : "quic".toList ≠ "h2".toList := by decide
    have hback := quic_again (hk.quic _ rfl)
    rw [typeParam_of_ne hk.network.1 hhttp hh2, hk.network.2.readValue]
    exact ⟨⟨rfl, rfl, rfl, rfl, rfl, congrArg some hback, rfl⟩, fun _ => rfl⟩
  | grpc =>
    have hhttp : "grpc".toList ≠ "http".toList := by decide
    have hh2 : "grpc".toList ≠ "h2".toList := by decide
    have hback := grpc_again rfl (hk.grpc _ rfl)
    rw [typeParam_of_ne hk.network.1 hhttp hh2, hk.network.2.readValue]
    exact ⟨⟨rfl, rfl, rfl, rfl, rfl, rfl, congrArg some hback⟩, fun _ => rfl⟩
  | other hnet =>
    obtain ⟨-, -, -, hh2, hhttp, -, -⟩ := ne_of_not_mem_transports hnet
    rw [typeParam_of_ne hk.network.1 hhttp hh2, hk.network.2.readValue, populate_of_not_mem hnet]
    exact ⟨⟨rfl, rfl, rfl, rfl, rfl, rfl, rfl⟩, fun _ => rfl⟩

/-- The transports that an import stores: without a query there are no settings. -/
inductive StoredTransport : StreamSettingsBean → Prop
  | ofFields (net : List Char) (f : TransportFields) : StoredTransport (populateTransportSettings {} net f).1
  | plain : StoredTransport {}

theorem StoredTransport.no_tls {t : StreamSettingsBean} (h : StoredTransport t) :
    t.tlsSettings = none ∧ t.xtlsSettings = none := by
  cases h with
  | ofFields net f => exact (populated net f).no_tls
  | plain => exact ⟨rfl, rfl⟩

theorem StoredTransport.again {t : StreamSettingsBean} (h : StoredTransport t) (hk : KeptTransport t) :
    let p := populateTransportSettings {} (readValue (typeParam t t.getTransportSettingDetails))
      (readFields t.network t.getTransportSettingDetails)
    SameParameters t p.1 ∧ (Nameless t → p.2 = []) := by
  cases h with
  | ofFields net f => exact transport_again (populated net f) hk
  | plain =>
    have htype : readValue (typeParam {} none) = "tcp".toList := hk.network.2.readValue
    show SameParameters {} (populateTransportSettings {} (readValue (typeParam {} none)) (readFields _ none)).1 ∧ _
    rw [htype]
    exact ⟨⟨rfl, rfl, rfl, rfl, rfl, rfl, rfl⟩, fun _ => rfl⟩

end Transport

/-! ### Security -/

/-- What security and TLS settings have to be for their parameters to come back. Without a name of its own the server
    is given the one of its transport. -/
structure KeptTls (s : StreamSettingsBean) : Prop where
  security : Kept (ifEmpty s.security "none".toList)
  serverName : ∀ t ∈ s.tlsOrXtls, Kept t.serverName
  nameless : ∀ t ∈ s.tlsOrXtls, t.serverName = [] → Nameless s
  alpn : ∀ t ∈ s.tlsOrXtls, ∀ l ∈ t.alpn, (∀ e ∈ l, ' ' ∉ e) ∧ Kept (removeWhiteSpace (joinToString l))

section Tls
variable {s t : StreamSettingsBean} {security sni : List Char} {allowInsecure : Bool} {fingerprint alpns : Option (List Char)}

/-- TLS settings do not touch the transport. -/
theorem populateTlsSettings_parameters :
    SameParameters s (s.populateTlsSettings security allowInsecure sni fingerprint alpns) := by
  unfold populateTlsSettings
  dsimp only
  split
  · exact ⟨rfl, rfl, rfl, rfl, rfl, rfl, rfl⟩
  · split <;> exact ⟨rfl, rfl, rfl, rfl, rfl, rfl, rfl⟩

theorem keptTransport_of_populateTlsSettings
    (h : KeptTransport (s.populateTlsSettings security allowInsecure sni fingerprint alpns)) : KeptTransport s := by
  unfold populateTlsSettings at h
  dsimp only at h
  split at h
  · exact ⟨h.network, h.tcp, h.kcp, h.ws, h.http, h.quic, h.grpc⟩
  · split at h <;> exact ⟨h.network, h.tcp, h.kcp, h.ws, h.http, h.quic, h.grpc⟩

theorem nameless_of_populateTlsSettings
    (h : Nameless (s.populateTlsSettings security allowInsecure sni fingerprint alpns)) : Nameless s := by
  unfold populateTlsSettings at h
  dsimp only at h
  split at h
  · exact ⟨h.tcp, h.ws, h.http⟩
  · split at h <;> exact ⟨h.tcp, h.ws, h.http⟩

/-- What TLS is given, or XTLS. -/
theorem populateTlsSettings_tlsOrXtls (htls : s.tlsSettings = none) (hxtls : s.xtlsSettings = none) :
    (s.populateTlsSettings security allowInsecure sni fingerprint alpns).tlsOrXtls =
      if security = tls ∨ security = xtls then
        some { allowInsecure := allowInsecure, serverName := sni, fingerprint := fingerprint
               alpn := if isEmpty alpns then none else some (splitList (alpns.getD [])) }
      else none := by
  unfold populateTlsSettings StreamSettingsBean.tlsOrXtls
  dsimp only
  by_cases hsec : security = tls
  · have hor : security = tls ∨ security = xtls := .inl hsec
    rw [if_pos hsec, if_pos hor]
    rfl
  · by_cases hsec' : security = xtls
    · have hor : security = tls ∨ security = xtls := .inr hsec'
      rw [if_neg hsec, if_pos hsec', if_pos hor]
      rfl
    · rw [if_neg hsec, if_neg hsec', if_neg (not_or.mpr ⟨hsec, hsec'⟩), htls, hxtls]
      rfl

/-- The text of an ALPN list, none for an empty list. -/
def alpnParam (alpn : Option (List (List Char))) : Option (List Char) :=
  match alpn with
  | none => none
  | some [] => none
  | some l => some (removeWhiteSpace (joinToString l))

theorem lookup_sni (s : StreamSettingsBean) :
    (tlsParams s).lookup "sni".toList = s.tlsOrXtls.bind fun t => optional t.serverName := by
  unfold tlsParams StreamSettingsBean.tlsOrXtls
  cases s.tlsSettings.or s.xtlsSettings with
  | none => rfl
  | some t =>
    dsimp only
    rw [List.lookup_append, lookup_unlessEmpty, Option.bind_some]
    split <;> exact Option.or_none

theorem lookup_alpn (s : StreamSettingsBean) :
    (tlsParams s).lookup "alpn".toList = s.tlsOrXtls.bind fun t => alpnParam t.alpn := by
  unfold tlsParams StreamSettingsBean.tlsOrXtls
  cases s.tlsSettings.or s.xtlsSettings with
  | none => rfl
  | some t =>
    have hno : (unlessEmpty "sni" t.serverName).lookup "alpn".toList = none :=
      lookup_eq_none (keys_unlessEmpty _ _) (by decide)
    dsimp only
    rw [List.lookup_append, hno, Option.none_or, Option.bind_some]
    cases t.alpn with
    | none => rfl
    | some l => cases l <;> rfl

/-- A name comes back, an empty one if the transport gives none. -/
theorem name_again {name : List Char} (hkept : Kept sni) (hname : sni = [] → name = []) :
    ((optional sni).map readValue).getD name = sni := by
  by_cases h : sni = []
  · rw [hname h, h]
    rfl
  · rw [optional_of_ne h, Option.map_some, hkept.readValue, Option.getD_some]

/-- The entries of an ALPN list come back. -/
theorem alpn_again {alpn : Option (List (List Char))} (hentries : ∀ l ∈ alpn, Entries l)
    (hk : ∀ l ∈ alpn, (∀ e ∈ l, ' ' ∉ e) ∧ Kept (removeWhiteSpace (joinToString l))) :
    let alpns := (alpnParam alpn).map readValue
    (if isEmpty alpns then none else some (splitList (alpns.getD []))).getD [] = alpn.getD [] := by
  unfold alpnParam
  split
  · rfl
  · rfl
  · rename_i l _
    obtain ⟨hblank, hkept⟩ := hk l rfl
    have hback := splitList_removeWhiteSpace (hentries l rfl) hblank
    rw [Option.map_some, hkept.readValue]
    dsimp only
    split
    · rename_i hempty
      rw [isEmpty_some] at hempty
      rw [hempty] at hback
      rw [← hback]
      rfl
    · exact hback

end Tls

/-! ### The stream -/

/-- The streams that an import stores. -/
inductive StoredStream : StreamSettingsBean → Prop
  | mk {t : StreamSettingsBean} (h : StoredTransport t) (security : List Char) (allowInsecure : Bool) (sni : List Char)
      (alpns : Option (List Char)) : StoredStream (t.populateTlsSettings security allowInsecure sni none alpns)

theorem storedStream_ofQuery (allowInsecure : Bool) (security : List Char) (l : Params) :
    StoredStream (ofQuery allowInsecure security {} l) := .mk (.ofFields _ _) _ _ _ _

/-- What a list of parameters is for a stream. -/
structure Reads (l : Params) (s : StreamSettingsBean) (d : Option (List Char × List Char × List Char)) : Prop where
  security : queryParam l "security" = some (readValue (ifEmpty s.security "none".toList))
  type : queryParam l "type" = some (readValue (typeParam s d))
  sni : queryParam l "sni" = (s.tlsOrXtls.bind fun t => optional t.serverName).map readValue
  alpn : queryParam l "alpn" = (s.tlsOrXtls.bind fun t => alpnParam t.alpn).map readValue
  fields : queryFields l = readFields s.network d

theorem ifEmpty_ifEmpty (v : List Char) : ifEmpty (ifEmpty v "none".toList) "none".toList = ifEmpty v "none".toList := by
  unfold ifEmpty
  split <;> rfl

theorem ifEmpty_none_tls (v : List Char) :
    (ifEmpty v "none".toList = tls ∨ ifEmpty v "none".toList = xtls) ↔ (v = tls ∨ v = xtls) := by
  unfold ifEmpty
  split
  · rename_i h
    rw [h]
    decide
  · exact Iff.rfl

/-- The stream that is read from the parameters of a stored stream is the same. -/
theorem stream_again {s : StreamSettingsBean} {l : Params} (hs : StoredStream s) (hk : KeptTransport s) (hk' : KeptTls s)
    (hl : Reads l s s.getTransportSettingDetails) (allowInsecure : Bool) (security : List Char) :
    SameStream s (ofQuery allowInsecure security {} l) := by
  cases hs with
  | @mk t ht security₀ allowInsecure₀ sni alpns =>
    generalize hs : t.populateTlsSettings security₀ allowInsecure₀ sni none alpns = s at hk hk' hl ⊢
    have hkt : KeptTransport t := keptTransport_of_populateTlsSettings (hs.symm ▸ hk)
    have hparams : SameParameters t s := by
      rw [← hs]
      exact populateTlsSettings_parameters
    have hdetails : s.getTransportSettingDetails = t.getTransportSettingDetails := by
      rw [← hs]
      exact populateTlsSettings_details
    have hsecurity : s.security = security₀ := by
      rw [← hs]
      exact populateTlsSettings_security
    have htls : s.tlsOrXtls = if s.security = tls ∨ s.security = xtls then
        some { allowInsecure := allowInsecure₀, serverName := sni, fingerprint := none
               alpn := if isEmpty alpns then none else some (splitList (alpns.getD [])) }
        else none := by
      rw [hsecurity, ← hs]
      exact populateTlsSettings_tlsOrXtls ht.no_tls.1 ht.no_tls.2
    have htype : typeParam s s.getTransportSettingDetails = typeParam t t.getTransportSettingDetails := by
      rw [typeParam, typeParam, hdetails, hparams.network]
    obtain ⟨hsame, hname⟩ := ht.again hkt
    rw [← htype, ← hdetails, ← hparams.network, ← hl.fields] at hsame hname
    have hno := (populated (readValue (typeParam s s.getTransportSettingDetails)) (queryFields l)).no_tls
    generalize hp : populateTransportSettings {} (readValue (typeParam s s.getTransportSettingDetails)) (queryFields l) = p
      at hsame hname hno
    have hquery : ofQuery allowInsecure security {} l =
        p.1.populateTlsSettings (ifEmpty s.security "none".toList) allowInsecure ((queryParam l "sni").getD p.2) none
          (queryParam l "alpn") := by
      unfold ofQuery
      rw [hl.type, hl.security, hk'.security.readValue, Option.getD_some, Option.getD_some, hp]
      rfl
    rw [hquery]
    refine ⟨hparams.symm.trans (hsame.trans populateTlsSettings_parameters), ?_, ?_, ?_⟩
    · rw [populateTlsSettings_security, ifEmpty_ifEmpty]
    · rw [populateTlsSettings_tlsOrXtls hno.1 hno.2, hl.sni]
      simp only [ifEmpty_none_tls]
      by_cases hor : s.security = tls ∨ s.security = xtls
      · rw [if_pos hor] at htls ⊢
        have hkept := hk'.serverName _ htls
        have hnameless : sni = [] → p.2 = [] := fun h =>
          hname (nameless_of_populateTlsSettings (hs.symm ▸ hk'.nameless _ htls h))
        rw [htls]
        exact congrArg some (name_again hkept hnameless)
      · rw [if_neg hor] at htls ⊢
        rw [htls]
    · rw [populateTlsSettings_tlsOrXtls hno.1 hno.2, hl.alpn]
      simp only [ifEmpty_none_tls]
      by_cases hor : s.security = tls ∨ s.security = xtls
      · rw [if_pos hor] at htls ⊢
        have hentries : ∀ l ∈ if isEmpty alpns then none else some (splitList (alpns.getD [])), Entries l := by
          intro l hl
          split at hl
          · cases hl
          · cases hl
            exact entries_splitList _
        have hback := alpn_again hentries (hk'.alpn _ htls)
        rw [htls]
        exact hback
      · rw [if_neg hor] at htls ⊢
        rw [htls]

end AngConfigManager
end NicVpn.V2ray
