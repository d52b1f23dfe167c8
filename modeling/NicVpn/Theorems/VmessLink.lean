import NicVpn.Lib.Json
import NicVpn.Theorems.Transport

/-! # VMESS links: a shared configuration comes back

A link of the first kind is the Base64 text of a JSON object, whose fields `type`, `host` and `path` mean something
else for every transport. What `shareConfig` writes there is what the transport was given, up to the white space of
lists, so that the import of the link gives the transport the same settings. -/

namespace NicVpn.V2ray
open NicVpn.Utils

/-! ### One transport -/

/-- An absent request counts as one with empty lists. -/
def TcpSettingsBean.withRequest (t : TcpSettingsBean) : TcpSettingsBean :=
  { t with request := some (t.request.getD {}) }

/-- The settings of the transports, up to an absent request. -/
structure SameTransport (s t : StreamSettingsBean) : Prop where
  network : t.network = s.network
  tcp : t.tcpSettings.map TcpSettingsBean.withRequest = s.tcpSettings.map TcpSettingsBean.withRequest
  kcp : t.kcpSettings = s.kcpSettings
  ws : t.wsSettings = s.wsSettings
  http : t.httpSettings = s.httpSettings
  quic : t.quicSettings = s.quicSettings
  grpc : t.grpcSettings = s.grpcSettings

theorem SameTransport.symm {s t : StreamSettingsBean} (h : SameTransport s t) : SameTransport t s :=
  ⟨h.network.symm, h.tcp.symm, h.kcp.symm, h.ws.symm, h.http.symm, h.quic.symm, h.grpc.symm⟩

theorem SameTransport.trans {s t u : StreamSettingsBean} (h : SameTransport s t) (h' : SameTransport t u) :
    SameTransport s u :=
  ⟨h'.network.trans h.network, h'.tcp.trans h.tcp, h'.kcp.trans h.kcp, h'.ws.trans h.ws, h'.http.trans h.http,
    h'.quic.trans h.quic, h'.grpc.trans h.grpc⟩

/-- The fields of a link for details of a transport. -/
def detailFields (d : List Char × List Char × List Char) : TransportFields :=
  AngConfigManager.vmessFields { type := d.1, host := d.2.1, path := d.2.2 }

section Transport
open StreamSettingsBean

theorem isEmpty_some (s : List Char) : isEmpty (some s) = true ↔ s = [] := by
  simp [isEmpty]

theorem tcpOf_http {f : TransportFields} (h : f.headerType = some http) :
    tcpOf f =
      { headerType := http
        request :=
          if isEmpty f.host && isEmpty f.path then none
          else some { Host := splitList (f.host.getD []), path := splitList (f.path.getD []) } } := if_pos h

theorem tcpOf_none {f : TransportFields} (h : f.headerType ≠ some http) : tcpOf f = { headerType := "none".toList } :=
  if_neg h

/-- A request comes back from the details, and none comes back as one with empty lists at most. -/
theorem request_details {l m : List (List Char)} (hl : Entries l) (hm : Entries m) :
    ((tcpOf (detailFields (http, joinToString l, joinToString m))).request.getD {}) = { Host := l, path := m } := by
  have hsplit := splitList_joinToString hl
  have hsplit' := splitList_joinToString hm
  rw [tcpOf_http rfl]
  show (if isEmpty (some (joinToString l)) && isEmpty (some (joinToString m)) then (none : Option RequestBean)
    else some { Host := splitList (joinToString l), path := splitList (joinToString m) }).getD {} = _
  rw [hsplit, hsplit']
  split
  · rename_i hempty
    rw [Bool.and_eq_true, isEmpty_some, isEmpty_some] at hempty
    rw [hempty.1] at hsplit
    rw [hempty.2] at hsplit'
    rw [← hsplit, ← hsplit']
    rfl
  · rfl

/-- The lists of a request, both empty if there is none. -/
theorem details_tcpOf (f : TransportFields) (h : f.headerType = some http) :
    ∃ l m, Entries l ∧ Entries m ∧ (tcpOf f).request.getD {} = { Host := l, path := m } ∧
      (tcpOf f).details = (http, joinToString l, joinToString m) := by
  rw [tcpOf_http h]
  by_cases hempty : (isEmpty f.host && isEmpty f.path) = true
  · rw [if_pos hempty]
    exact ⟨[], [], fun e he => absurd he List.not_mem_nil, fun e he => absurd he List.not_mem_nil, rfl, rfl⟩
  · rw [if_neg hempty]
    exact ⟨_, _, entries_splitList _, entries_splitList _, rfl, rfl⟩

/-- The host that the TCP settings name is the first of the request. -/
theorem tcpSni_http {f : TransportFields} (h : f.headerType = some http) :
    tcpSni f = (((tcpOf f).request.getD {}).Host).headD [] := by
  rw [tcpSni, if_pos h]
  cases (tcpOf f).request <;> rfl

theorem tcpOf_details (f : TransportFields) :
    (tcpOf (detailFields (tcpOf f).details)).withRequest = (tcpOf f).withRequest ∧
      (tcpSni (detailFields (tcpOf f).details) = tcpSni f ∨ tcpSni (detailFields (tcpOf f).details) = []) := by
  by_cases h : f.headerType = some http
  · obtain ⟨l, m, hl, hm, hrequest, hdetails⟩ := details_tcpOf f h
    have hback := request_details hl hm
    rw [hdetails]
    constructor
    · unfold TcpSettingsBean.withRequest
      rw [hback, hrequest, tcpOf_http h, tcpOf_http rfl]
    · left
      rw [tcpSni_http h, tcpSni_http rfl, hback, hrequest]
  · have hdetails : (tcpOf f).details = ("none".toList, [], []) := by
      rw [tcpOf_none h]
      rfl
    rw [hdetails, tcpOf_none h]
    exact ⟨rfl, .inr rfl⟩

theorem kcpOf_details (f : TransportFields) : kcpOf (detailFields (kcpOf f).details) = kcpOf f := by
  unfold kcpOf
  by_cases hseed : isEmpty f.seed = true
  · rw [if_pos hseed]
    rfl
  · obtain ⟨s, hs⟩ : ∃ s, f.seed = some s := by
      cases hs : f.seed with
      | none =>
        rw [hs] at hseed
        exact absurd rfl hseed
      | some s => exact ⟨s, rfl⟩
    rw [hs] at hseed ⊢
    rw [if_neg hseed]
    exact congrArg (KcpSettingsBean.mk _) (if_neg hseed)

theorem h2Of_details (f : TransportFields) : h2Of (detailFields (h2Of f).details) = h2Of f := by
  have hsplit := splitList_joinToString (entries_splitList (f.host.getD []))
  exact congrArg (HttpSettingsBean.mk · _) hsplit

theorem grpcOf_details (f : TransportFields) : grpcOf (detailFields (grpcOf f).details) = grpcOf f := by
  unfold grpcOf GrpcSettingsBean.details
  by_cases hmode : f.mode = some "multi".toList
  · simp only [hmode]
    rfl
  · simp only [hmode]
    rfl

/-- What a transport is given from the details of its settings. -/
theorem Populated.again {f : TransportFields} {net : List Char} {p : StreamSettingsBean × List Char}
    {d : Option (List Char × List Char × List Char)} (h : Populated f net p d) :
    let p' := populateTransportSettings {} p.1.network (detailFields (d.getD ([], [], [])))
    SameTransport p.1 p'.1 ∧ (p'.2 = p.2 ∨ p'.2 = []) := by
  cases h with
  | tcp =>
    obtain ⟨hsame, hsni⟩ := tcpOf_details f
    exact ⟨⟨rfl, congrArg some hsame, rfl, rfl, rfl, rfl, rfl⟩, hsni⟩
  | kcp => exact ⟨⟨rfl, rfl, congrArg some (kcpOf_details f), rfl, rfl, rfl, rfl⟩, .inl rfl⟩
  | ws => exact ⟨⟨rfl, rfl, rfl, rfl, rfl, rfl, rfl⟩, .inl rfl⟩
  | h2 _ =>
    have hback := h2Of_details f
    exact ⟨⟨rfl, rfl, rfl, rfl, congrArg some hback, rfl, rfl⟩, .inl (congrArg (·.host.headD []) hback)⟩
  | quic => exact ⟨⟨rfl, rfl, rfl, rfl, rfl, rfl, rfl⟩, .inl rfl⟩
  | grpc => exact ⟨⟨rfl, rfl, rfl, rfl, rfl, rfl, congrArg some (grpcOf_details f)⟩, .inr rfl⟩
  | other h =>
    intro p'
    have hp' : p' = ({ network := net }, []) := populate_of_not_mem h _
    rw [hp']
    exact ⟨⟨rfl, rfl, rfl, rfl, rfl, rfl, rfl⟩, .inl rfl⟩

end Transport

/-! ### The stream settings -/

section Tls
open StreamSettingsBean
variable {s : StreamSettingsBean} {security sni : List Char} {allowInsecure : Bool} {fingerprint alpns : Option (List Char)}

theorem populateTlsSettings_transport :
    SameTransport s (s.populateTlsSettings security allowInsecure sni fingerprint alpns) := by
  unfold populateTlsSettings
  dsimp only
  split
  · exact ⟨rfl, rfl, rfl, rfl, rfl, rfl, rfl⟩
  · split <;> exact ⟨rfl, rfl, rfl, rfl, rfl, rfl, rfl⟩

theorem populateTlsSettings_security :
    (s.populateTlsSettings security allowInsecure sni fingerprint alpns).security = security := by
  unfold populateTlsSettings
  dsimp only
  split
  · rfl
  · split <;> rfl

theorem populateTlsSettings_details :
    (s.populateTlsSettings security allowInsecure sni fingerprint alpns).getTransportSettingDetails =
      s.getTransportSettingDetails := by
  unfold populateTlsSettings
  dsimp only
  split
  · rfl
  · split <;> rfl

/-- What TLS is given; none for a security of another kind. -/
theorem populateTlsSettings_tls (hxtls : security ≠ xtls) (hs : s.tlsSettings = none) :
    (s.populateTlsSettings security allowInsecure sni fingerprint alpns).tlsSettings =
      if security = tls then
        some { allowInsecure := allowInsecure, serverName := sni, fingerprint := fingerprint
               alpn := if isEmpty alpns then none else some (splitList (alpns.getD [])) }
      else none := by
  unfold populateTlsSettings
  dsimp only
  split
  · rfl
  · exact hs

end Tls

/-! ### Links -/

/-- What the libraries are relied on for: they read what they have written. -/
structure Libraries.Inverse (lib : Libraries) : Prop where
  fromJson_toJson : ∀ q, lib.fromJson (lib.toJson q) = some q
  toJson_ne_nil : ∀ q, lib.toJson q ≠ []
  base64Decode_encode : ∀ b, lib.base64Decode (Base64.encodeNoWrap b) = some b

namespace AngConfigManager
open StreamSettingsBean

theorem decode_encode {lib : Libraries} (hlib : ∀ b, lib.base64Decode (Base64.encodeNoWrap b) = some b) (s : List Char) :
    Utils.decode lib (encode s) = s := by
  rw [Utils.decode, Utils.tryDecodeBase64, encode, hlib, Option.some_or, Option.map_some, Utf8.decode_encode]

theorem indexPositive_of_not_mem {c : Char} {s : List Char} (h : c ∉ s) : indexPositive [c] s = false := by
  rw [indexPositive, Text.indexOf_of_not_mem h]

theorem indexPositive_append_cons {c : Char} {x : List Char} (h : c ∉ x) (hx : x ≠ []) (y : List Char) :
    indexPositive [c] (x ++ c :: y) = true := by
  obtain ⟨d, t, rfl⟩ := List.exists_cons_of_ne_nil hx
  rw [indexPositive, Text.indexOf_append_cons h]
  rfl

/-- A link of the new style is never understood: it has four groups. -/
theorem tryParseNewVmess_eq_false (str : List Char) : tryParseNewVmess str = false := by
  have hgroups : ∀ userInfo l, newVmessGroups userInfo = some l → l[4]? = none := by
    intro userInfo l h
    unfold newVmessGroups at h
    dsimp only at h
    obtain ⟨protocol, -, h⟩ := Option.bind_eq_some_iff.mp h
    simp only [Option.pure_def, Option.ite_none_right_eq_some, Option.some.injEq] at h
    rw [← h.2]
    rfl
  unfold tryParseNewVmess
  split
  · rfl
  · split
    · rfl
    · rename_i l hl
      obtain ⟨userInfo, -, h⟩ := Option.bind_eq_some_iff.mp hl
      rw [hgroups userInfo l h]
      rfl

/-- A link with Base64 of a JSON object. -/
def JsonLink (str : List Char) : Prop := (scheme .vmess).isPrefixOf str = true ∧ indexPositive ['?'] str = false

/-- The fields without which no server is stored. -/
def Complete (q : VmessQRCode) : Prop := q.add ≠ [] ∧ q.port ≠ [] ∧ q.id ≠ [] ∧ q.net ≠ []

/-- The stream settings of an object. -/
def vmessStream (allowInsecure : Bool) (q : VmessQRCode) : StreamSettingsBean :=
  let p := populateTransportSettings {} q.net (vmessFields q)
  p.1.populateTlsSettings q.tls allowInsecure (if q.sni = [] then p.2 else q.sni) none (some q.alpn)

/-- The configuration of an object. -/
def vmessConfig (allowInsecure : Bool) (subid : List Char) (q : VmessQRCode) : ServerConfig where
  configType := .vmess
  subscriptionId := subid
  remarks := q.ps
  outboundBean :=
    { vnext := some
        { address := q.add, port := parseInt q.port
          user :=
            { id := q.id, security := if q.scy = [] then defaultSecurity else q.scy
              alterId := some (parseInt q.aid) } }
      streamSettings := vmessStream allowInsecure q }

theorem ofVmessQRCode_eq {allowInsecure : Bool} {q : VmessQRCode} {c : ServerConfig} :
    ofVmessQRCode allowInsecure (ServerConfig.create .vmess) q = .ok c ↔
      Complete q ∧ c = vmessConfig allowInsecure [] q := by
  unfold ofVmessQRCode Complete
  split
  · rename_i h
    refine iff_of_false (fun hok => by cases hok) fun hok => ?_
    obtain ⟨⟨h1, h2, h3, h4⟩, -⟩ := hok
    exact h.elim h1 (Or.elim · h2 (Or.elim · h3 h4))
  · rename_i h
    rw [not_or, not_or, not_or] at h
    constructor
    · intro hok
      cases hok
      exact ⟨h, rfl⟩
    · rintro ⟨-, rfl⟩
      rfl

theorem find?_scheme_vmess {str : List Char} (h : (scheme .vmess).isPrefixOf str = true) :
    NicVpn.AngConfigManager.schemes.find? (fun t => (scheme t).isPrefixOf str) = some .vmess :=
  List.find?_cons_of_pos h

theorem importedConfig_vmess {lib : Libraries} {allowInsecure : Bool} {str subid : List Char}
    (h : (scheme .vmess).isPrefixOf str = true) :
    importedConfig lib allowInsecure str subid =
      (importVmess lib allowInsecure str).map fun config => { config with subscriptionId := subid } := by
  rw [importedConfig, find?_scheme_vmess h]
  rfl

/-- Any configuration from a link with JSON is that of a complete object. -/
theorem importedConfig_jsonLink {lib : Libraries} {allowInsecure : Bool} {str subid : List Char} {c : ServerConfig}
    (hstr : JsonLink str) (h : importedConfig lib allowInsecure str subid = .ok c) :
    ∃ q, Complete q ∧ c = vmessConfig allowInsecure subid q := by
  rw [importedConfig_vmess hstr.1, importVmess, if_neg (by rw [tryParseNewVmess_eq_false]; exact Bool.false_ne_true),
    if_neg (by rw [hstr.2]; exact Bool.false_ne_true)] at h
  dsimp only at h
  split at h
  · cases h
  · split at h
    · cases h
    · rename_i q hq
      cases hof : ofVmessQRCode allowInsecure (ServerConfig.create .vmess) q with
      | error e =>
        rw [hof] at h
        cases h
      | ok d =>
        rw [hof] at h
        cases h
        obtain ⟨hq, rfl⟩ := ofVmessQRCode_eq.mp hof
        exact ⟨q, hq, rfl⟩

/-- The link of an object. -/
def vmessLink (lib : Libraries) (q : VmessQRCode) : List Char := scheme .vmess ++ encode (lib.toJson q)

theorem jsonLink_vmessLink (lib : Libraries) (q : VmessQRCode) : JsonLink (vmessLink lib q) := by
  refine ⟨List.isPrefixOf_iff_prefix.mpr (List.prefix_append _ _), indexPositive_of_not_mem ?_⟩
  rw [vmessLink, List.mem_append, not_or]
  exact ⟨by decide, Base64.not_mem_encodeNoWrap (by decide) (by decide)⟩

/-- The link of a complete object gives its configuration. -/
theorem importedConfig_vmessLink {lib : Libraries} (hlib : lib.Inverse) (allowInsecure : Bool) (subid : List Char)
    {q : VmessQRCode} (hq : Complete q) :
    importedConfig lib allowInsecure (vmessLink lib q) subid = .ok (vmessConfig allowInsecure subid q) := by
  have hlink := jsonLink_vmessLink lib q
  have hcolon : ¬scheme .vmess <:+: encode (lib.toJson q) := by
    intro h
    have hmem : ':' ∈ encode (lib.toJson q) := h.subset (by decide)
    exact Base64.not_mem_encodeNoWrap (by decide) (by decide) hmem
  have hresult : Utils.decode lib (Text.replace (scheme .vmess) [] (vmessLink lib q)) = lib.toJson q := by
    rw [vmessLink, Text.replace_append (by decide), Text.replace_of_absent hcolon, List.nil_append, decode_encode hlib.base64Decode_encode]
  rw [importedConfig_vmess hlink.1, importVmess, if_neg (by rw [tryParseNewVmess_eq_false]; exact Bool.false_ne_true),
    if_neg (by rw [hlink.2]; exact Bool.false_ne_true)]
  simp only [hresult, hlib.toJson_ne_nil, ↓reduceIte, hlib.fromJson_toJson, ofVmessQRCode_eq.mpr ⟨hq, rfl⟩]
  rfl

/-! ### The round trip -/

/-- Two configurations that are the same server to VMESS. -/
structure SameVmess (c c' : ServerConfig) : Prop where
  configType : c'.configType = c.configType
  remarks : c'.remarks = c.remarks
  address : c'.getServerAddress = c.getServerAddress
  port : c'.getServerPort = c.getServerPort
  id : c'.getPassword = c.getPassword
  alterId : c'.outboundBean.vnext.map (·.user.alterId) = c.outboundBean.vnext.map (·.user.alterId)
  security : c'.getSecurityEncryption = c.getSecurityEncryption
  transport : SameTransport c.outboundBean.streamSettings c'.outboundBean.streamSettings
  streamSecurity : c'.outboundBean.streamSettings.security = c.outboundBean.streamSettings.security
  serverName : c'.outboundBean.streamSettings.tlsSettings.map (·.serverName) =
    c.outboundBean.streamSettings.tlsSettings.map (·.serverName)
  alpn : (c'.outboundBean.streamSettings.tlsSettings.bind (·.alpn)).getD [] =
    (c.outboundBean.streamSettings.tlsSettings.bind (·.alpn)).getD []

/-- No blank in an entry of the ALPN list, from which blanks are removed. -/
def PlainAlpn (s : StreamSettingsBean) : Prop := ∀ t ∈ s.tlsSettings, ∀ l ∈ t.alpn, ∀ e ∈ l, ' ' ∉ e

section RoundTrip
variable {allowInsecure : Bool} {subid : List Char} {q : VmessQRCode}

/-- The transport of an object: its settings, and the name that they give the server. -/
def transportOf (q : VmessQRCode) : StreamSettingsBean × List Char := populateTransportSettings {} q.net (vmessFields q)

theorem transportOf_populated (q : VmessQRCode) :
    Populated (vmessFields q) q.net (transportOf q) (transportOf q).1.getTransportSettingDetails :=
  populated q.net (vmessFields q)

theorem vmessStream_transport (q : VmessQRCode) : SameTransport (transportOf q).1 (vmessStream allowInsecure q) :=
  populateTlsSettings_transport

theorem vmessStream_security (q : VmessQRCode) : (vmessStream allowInsecure q).security = q.tls :=
  populateTlsSettings_security

theorem vmessStream_details (q : VmessQRCode) :
    (vmessStream allowInsecure q).getTransportSettingDetails = (transportOf q).1.getTransportSettingDetails :=
  populateTlsSettings_details

/-- The name of the server, which the transport gives when the object does not. -/
def serverNameOf (q : VmessQRCode) : List Char := if q.sni = [] then (transportOf q).2 else q.sni

/-- The ALPN list of a field. -/
def alpnOf (s : List Char) : Option (List (List Char)) := if s = [] then none else some (splitList s)

/-- The field of an ALPN list. -/
def alpnText (alpn : Option (List (List Char))) : List Char :=
  (alpn.map fun l => removeWhiteSpace (joinToString l)).getD []

/-- The entries of an ALPN list come back, an empty list as none. -/
theorem alpnOf_alpnText {s : List Char} (h : ∀ l ∈ alpnOf s, ∀ e ∈ l, ' ' ∉ e) :
    (alpnOf (alpnText (alpnOf s))).getD [] = (alpnOf s).getD [] := by
  unfold alpnOf at h ⊢
  by_cases hs : s = []
  · rw [if_pos hs]
    rfl
  · rw [if_neg hs] at h ⊢
    have hback := splitList_removeWhiteSpace (entries_splitList s) (h _ rfl)
    show (if removeWhiteSpace (joinToString (splitList s)) = [] then none
      else some (splitList (removeWhiteSpace (joinToString (splitList s))))).getD [] = splitList s
    split
    · rename_i hempty
      rw [hempty] at hback
      exact hback
    · exact hback

theorem vmessStream_tls (hxtls : q.tls ≠ xtls) :
    (vmessStream allowInsecure q).tlsSettings =
      if q.tls = tls then
        some { allowInsecure := allowInsecure, serverName := serverNameOf q, fingerprint := none
               alpn := alpnOf q.alpn }
      else none := by
  have h : (vmessStream allowInsecure q).tlsSettings = _ :=
    populateTlsSettings_tls hxtls (transportOf_populated q).no_tls.1
  simp only [isEmpty_some] at h
  exact h

/-- What was read as a number is written so that it is read again. -/
theorem parseInt_toString (s : List Char) : parseInt (toString (parseInt s)).toList = parseInt s := by
  have hrange : -2147483648 ≤ parseInt s ∧ parseInt s ≤ 2147483647 := by
    unfold parseInt
    cases h : Text.toInt s with
    | none => decide
    | some n => exact Text.range_of_parseSigned h
  have hback := Text.parseSigned_toString hrange.1 hrange.2
  rw [parseInt, show Text.toInt _ = some (parseInt s) from hback, Option.getD_some]

/-- The object of a shared configuration. -/
theorem complete_toVmessQRCode (hq : Complete q) : Complete (toVmessQRCode (vmessConfig allowInsecure subid q)) := by
  obtain ⟨hadd, -, hid, hnet⟩ := hq
  refine ⟨hadd, Text.toString_ne_nil _, hid, ?_⟩
  show (vmessStream allowInsecure q).network ≠ []
  rw [(vmessStream_transport q).network]
  exact (transportOf_populated q).network_ne_nil hnet

/-- The transport of a shared configuration. -/
theorem transportOf_toVmessQRCode (q : VmessQRCode) :
    transportOf (toVmessQRCode (vmessConfig allowInsecure subid q)) =
      populateTransportSettings {} (transportOf q).1.network
        (detailFields ((transportOf q).1.getTransportSettingDetails.getD ([], [], []))) := by
  have hnet : (vmessStream allowInsecure q).network = (transportOf q).1.network := (vmessStream_transport q).network
  rw [← hnet, ← vmessStream_details q]
  rfl

/-- The settings of the transport of a configuration from a link, and of the one from its own link. -/
theorem vmessStream_again (q : VmessQRCode) :
    SameTransport (vmessStream allowInsecure q)
      (vmessStream allowInsecure (toVmessQRCode (vmessConfig allowInsecure subid q))) := by
  refine ((vmessStream_transport q).symm.trans ?_).trans (vmessStream_transport _)
  rw [transportOf_toVmessQRCode]
  exact (transportOf_populated q).again.1

/-- The server keeps its name: what its transport gives is no other name. -/
theorem serverNameOf_toVmessQRCode (htls : q.tls = tls) :
    serverNameOf (toVmessQRCode (vmessConfig allowInsecure subid q)) = serverNameOf q := by
  have hsni : (toVmessQRCode (vmessConfig allowInsecure subid q)).sni = serverNameOf q := by
    show ((vmessStream allowInsecure q).tlsSettings.map (·.serverName)).getD [] = _
    rw [vmessStream_tls (by rw [htls]; decide), if_pos htls]
    rfl
  have hagain : (transportOf (toVmessQRCode (vmessConfig allowInsecure subid q))).2 = (transportOf q).2 ∨
      (transportOf (toVmessQRCode (vmessConfig allowInsecure subid q))).2 = [] := by
    rw [transportOf_toVmessQRCode]
    exact (transportOf_populated q).again.2
  have hname : serverNameOf q = [] → (transportOf q).2 = [] := by
    unfold serverNameOf
    split
    · exact id
    · rename_i hne
      exact fun h => absurd h hne
  rw [serverNameOf, hsni]
  split
  · rename_i hempty
    rw [hempty]
    rcases hagain with hagain | hagain
    · rw [hagain, hname hempty]
    · exact hagain
  · rfl

theorem alpn_toVmessQRCode (htls : q.tls = tls) :
    (toVmessQRCode (vmessConfig allowInsecure subid q)).alpn = alpnText (alpnOf q.alpn) := by
  show alpnText ((vmessStream allowInsecure q).tlsSettings.bind (·.alpn)) = _
  rw [vmessStream_tls (by rw [htls]; decide), if_pos htls]
  rfl

theorem plainAlpn_iff (htls : q.tls = tls) :
    PlainAlpn (vmessStream allowInsecure q) ↔ ∀ l ∈ alpnOf q.alpn, ∀ e ∈ l, ' ' ∉ e := by
  unfold PlainAlpn
  rw [vmessStream_tls (by rw [htls]; decide), if_pos htls]
  simp

/-- The configuration of a complete object, and that of the object of its link. -/
theorem sameVmess_again {subid' : List Char} (hxtls : q.tls ≠ xtls) (halpn : PlainAlpn (vmessStream allowInsecure q)) :
    SameVmess (vmessConfig allowInsecure subid q)
      (vmessConfig allowInsecure subid' (toVmessQRCode (vmessConfig allowInsecure subid q))) := by
  have hsecurity : (toVmessQRCode (vmessConfig allowInsecure subid q)).tls = q.tls := vmessStream_security q
  have hxtls' : (toVmessQRCode (vmessConfig allowInsecure subid q)).tls ≠ xtls := hsecurity ▸ hxtls
  have hscy : (if q.scy = [] then defaultSecurity else q.scy) ≠ [] := by
    split
    · exact List.cons_ne_nil _ _
    · assumption
  refine
    { configType := rfl
      remarks := rfl
      address := rfl
      port := congrArg some (parseInt_toString q.port)
      id := rfl
      alterId := congrArg (some ∘ some) (parseInt_toString q.aid)
      security := congrArg some (if_neg hscy)
      transport := vmessStream_again q
      streamSecurity := ?_
      serverName := ?_
      alpn := ?_ }
  · show (vmessStream allowInsecure (toVmessQRCode _)).security = (vmessStream allowInsecure q).security
    rw [vmessStream_security, vmessStream_security, hsecurity]
  · show (vmessStream allowInsecure (toVmessQRCode _)).tlsSettings.map _ = (vmessStream allowInsecure q).tlsSettings.map _
    rw [vmessStream_tls hxtls', vmessStream_tls hxtls, hsecurity]
    split
    · rename_i htls
      exact congrArg some (serverNameOf_toVmessQRCode htls)
    · rfl
  · show ((vmessStream allowInsecure (toVmessQRCode _)).tlsSettings.bind _).getD [] =
      ((vmessStream allowInsecure q).tlsSettings.bind _).getD []
    rw [vmessStream_tls hxtls', vmessStream_tls hxtls, hsecurity]
    split
    · rename_i htls
      have hback := alpnOf_alpnText ((plainAlpn_iff htls).mp halpn)
      rw [← alpn_toVmessQRCode htls] at hback
      exact hback
    · rfl

end RoundTrip

/-- A VMESS configuration from a link with JSON is shared as a link that gives the same server again. -/
theorem vmess_link_comes_back {lib : Libraries} (hlib : lib.Inverse) {allowInsecure : Bool} {str subid : List Char}
    {c : ServerConfig} (hstr : JsonLink str) (himport : importedConfig lib allowInsecure str subid = .ok c)
    (hxtls : c.outboundBean.streamSettings.security ≠ xtls) (halpn : PlainAlpn c.outboundBean.streamSettings)
    (subid' : List Char) :
    ∃ c', importedConfig lib allowInsecure (shareConfig lib c) subid' = .ok c' ∧ SameVmess c c' := by
  obtain ⟨q, hq, rfl⟩ := importedConfig_jsonLink hstr himport
  have hshare : shareConfig lib (vmessConfig allowInsecure subid q) =
      vmessLink lib (toVmessQRCode (vmessConfig allowInsecure subid q)) := rfl
  have hsecurity : q.tls ≠ xtls := by
    have heq : (vmessStream allowInsecure q).security = q.tls := vmessStream_security q
    rw [← heq]
    exact hxtls
  rw [hshare]
  exact ⟨_, importedConfig_vmessLink hlib allowInsecure subid' (complete_toVmessQRCode hq), sameVmess_again hsecurity halpn⟩

/-- The members of an object in the order of its fields. -/
def vmessMembers (q : VmessQRCode) : List (List Char × List Char) :=
  [("v".toList, q.v), ("ps".toList, q.ps), ("add".toList, q.add), ("port".toList, q.port), ("id".toList, q.id),
    ("aid".toList, q.aid), ("scy".toList, q.scy), ("net".toList, q.net), ("type".toList, q.type),
    ("host".toList, q.host), ("path".toList, q.path), ("tls".toList, q.tls), ("sni".toList, q.sni),
    ("alpn".toList, q.alpn)]

def ofVmessMembers : List (List Char) → Option VmessQRCode
  | [v, ps, add, port, id, aid, scy, net, type, host, path, tls, sni, alpn] =>
    some { v := v, ps := ps, add := add, port := port, id := id, aid := aid, scy := scy, net := net, type := type
           host := host, path := path, tls := tls, sni := sni, alpn := alpn }
  | _ => none

/-- Libraries for texts of ASCII: plain JSON, Base64, and a `HashMap` that keeps its order. -/
def plainLibraries : Libraries where
  toJson q := Json.object (vmessMembers q)
  fromJson s := (Json.readObject ((vmessMembers {}).map (·.1)) s).bind ofVmessMembers
  base64Decode := Base64.decode
  base64DecodeUrlSafe s := Base64.decode (s.map fun c => if c = '-' then '+' else if c = '_' then '/' else c)
  lowercase s := s.map Char.toLower
  hashOrder l := l

theorem plainLibraries_inverse : plainLibraries.Inverse where
  fromJson_toJson q := by
    have hread : Json.readObject ((vmessMembers {}).map (·.1)) (Json.object (vmessMembers q)) = _ :=
      Json.readObject_object (vmessMembers q)
    show (Json.readObject ((vmessMembers {}).map (·.1)) (Json.object (vmessMembers q))).bind ofVmessMembers = some q
    rw [hread]
    rfl
  toJson_ne_nil q := List.cons_ne_nil _ _
  base64Decode_encode := Base64.decode_encodeNoWrap

/-- A server behind a web socket, with a name of its own for TLS. -/
def webSocketObject : VmessQRCode where
  v := "2".toList
  ps := "Nica".toList
  add := "203.0.113.7".toList
  port := "443".toList
  id := "b831381d-6324-4d53-ad4f-8cda48b30811".toList
  net := "ws".toList
  host := "cdn.example".toList
  path := "/chat".toList
  tls := "tls".toList
  alpn := "h2, http/1.1".toList

theorem vmess_link_comes_back_webSocket :
    ∃ c', importedConfig plainLibraries false
      (shareConfig plainLibraries (vmessConfig false [] webSocketObject)) [] = .ok c' ∧
      SameVmess (vmessConfig false [] webSocketObject) c' := by
  have hq : Complete webSocketObject := by
    unfold Complete
    decide
  exact vmess_link_comes_back plainLibraries_inverse (jsonLink_vmessLink plainLibraries webSocketObject)
    (importedConfig_vmessLink plainLibraries_inverse false [] hq) (by decide)
    ((plainAlpn_iff (by decide)).mpr (by decide)) []

end AngConfigManager

end NicVpn.V2ray
