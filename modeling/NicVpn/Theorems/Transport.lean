import NicVpn.AngConfigManager

/-! # Links: lists in one field, and the settings of a transport

A link has one field for a list, and the same few fields for every transport. Here is what a list becomes on its way
through a field, and which settings each transport makes of its fields. -/

namespace NicVpn.V2ray
open NicVpn.Utils

/-! ### Lists in one field -/

/-- The entries that a list has after it was read from a field. -/
def Entries (l : List (List Char)) : Prop := ∀ e ∈ l, e ≠ [] ∧ ',' ∉ e ∧ Text.strip e = e

section Entries
variable {l : List (List Char)} {s e : List Char}

theorem entries_splitList (s : List Char) : Entries (splitList s) := by
  intro e he
  obtain ⟨hmem, hne⟩ := List.mem_filter.mp he
  obtain ⟨t, ht, rfl⟩ := List.mem_map.mp hmem
  have hcomma := Text.not_mem_of_mem_split ht
  exact ⟨by simpa using hne, fun h => hcomma ((Text.strip_sublist t).mem h), Text.strip_strip t⟩

theorem joinToString_cons (e : List Char) (l : List (List Char)) :
    joinToString (e :: l) = Joined.join ',' (e :: l.map (' ' :: ·)) := by
  induction l generalizing e with
  | nil => rfl
  | cons d l ih =>
    have hcons : joinToString (e :: d :: l) = e ++ ", ".toList ++ joinToString (d :: l) := by
      simp [joinToString]
    rw [hcons, ih, List.map_cons, Joined.join_cons (List.cons_ne_nil _ _), ← Joined.cons_join, List.append_assoc]
    rfl

theorem strip_blank (s : List Char) : Text.strip (' ' :: s) = Text.strip s := by
  unfold Text.strip
  rw [List.dropWhile_cons_of_pos (by decide)]

theorem splitList_join (hne : l ≠ []) (hcomma : ∀ x ∈ l, ',' ∉ x) :
    splitList (Joined.join ',' l) = (l.map Text.strip).filter (· ≠ []) := by
  rw [splitList, Joined.split_join_of_not_mem hne hcomma]

theorem filter_entries (h : Entries l) : l.filter (· ≠ []) = l :=
  List.filter_eq_self.mpr fun e he => by simpa using (h e he).1

theorem map_strip (h : Entries l) : l.map Text.strip = l :=
  (List.map_congr_left fun e he => (h e he).2.2).trans (List.map_id l)

/-- A list that is written into a field is read back. -/
theorem splitList_joinToString (h : Entries l) : splitList (joinToString l) = l := by
  cases l with
  | nil => rfl
  | cons e l =>
    have hl : Entries l := fun d hd => h d (List.mem_cons_of_mem e hd)
    have hcomma : ∀ x ∈ e :: l.map (' ' :: ·), ',' ∉ x := by
      refine List.forall_mem_cons.mpr ⟨(h e List.mem_cons_self).2.1, fun x hx => ?_⟩
      obtain ⟨d, hd, rfl⟩ := List.mem_map.mp hx
      exact List.not_mem_cons_of_ne_of_not_mem (by decide) (hl d hd).2.1
    have hstrip : (l.map (' ' :: ·)).map Text.strip = l := by
      rw [List.map_map]
      exact (List.map_congr_left fun d _ => strip_blank d).trans (map_strip hl)
    rw [joinToString_cons, splitList_join (List.cons_ne_nil _ _) hcomma, List.map_cons, hstrip,
      (h e List.mem_cons_self).2.2]
    exact filter_entries h

theorem removeWhiteSpace_eq_filter (s : List Char) : removeWhiteSpace s = s.filter (· ≠ ' ') := by
  unfold removeWhiteSpace
  rw [Text.replace_singleton]
  induction s with
  | nil => rfl
  | cons c s ih =>
    rw [List.flatMap_cons, ih]
    by_cases hc : c = ' ' <;> simp [hc]

theorem removeWhiteSpace_join (l : List (List Char)) :
    removeWhiteSpace (Joined.join ',' l) = Joined.join ',' (l.map removeWhiteSpace) := by
  induction l with
  | nil => rfl
  | cons e l ih =>
    by_cases hnil : l = []
    · subst hnil
      simp
    · have hmap : l.map removeWhiteSpace ≠ [] := fun h => hnil (List.map_eq_nil_iff.mp h)
      rw [List.map_cons, Joined.join_cons hnil, Joined.join_cons hmap, ← ih]
      simp [removeWhiteSpace_eq_filter]

/-- The text of an ALPN list: its entries, and commas between them. -/
theorem removeWhiteSpace_joinToString (h : ∀ e ∈ l, ' ' ∉ e) : removeWhiteSpace (joinToString l) = Joined.join ',' l := by
  have hself : ∀ e ∈ l, removeWhiteSpace e = e := fun e he => by
    rw [removeWhiteSpace_eq_filter, List.filter_eq_self]
    intro c hc
    simpa using fun h' : c = ' ' => h e he (h' ▸ hc)
  cases l with
  | nil => rfl
  | cons e l =>
    obtain ⟨he, hl⟩ := List.forall_mem_cons.mp hself
    have hblank : (l.map (' ' :: ·)).map removeWhiteSpace = l := by
      rw [List.map_map]
      refine (List.map_congr_left fun d hd => ?_).trans (List.map_id l)
      have := hl d hd
      rw [removeWhiteSpace_eq_filter] at this
      simp only [Function.comp, removeWhiteSpace_eq_filter]
      rw [List.filter_cons_of_neg (by decide), this]
      rfl
    rw [joinToString_cons, removeWhiteSpace_join, List.map_cons, hblank, he]

theorem splitList_removeWhiteSpace (h : Entries l) (hblank : ∀ e ∈ l, ' ' ∉ e) :
    splitList (removeWhiteSpace (joinToString l)) = l := by
  rw [removeWhiteSpace_joinToString hblank]
  cases l with
  | nil => rfl
  | cons e l =>
    rw [splitList_join (List.cons_ne_nil _ _) fun x hx => (h x hx).2.1, map_strip h, filter_entries h]

end Entries

/-! ### Transports -/

section Transport
open StreamSettingsBean

/-- The details of the settings of a transport; none count as empty. -/
def StreamSettingsBean.details (s : StreamSettingsBean) : List Char × List Char × List Char :=
  s.getTransportSettingDetails.getD ([], [], [])

def TcpSettingsBean.details (t : TcpSettingsBean) : List Char × List Char × List Char :=
  (t.headerType, ((t.request.map (·.Host)).map joinToString).getD [], ((t.request.map (·.path)).map joinToString).getD [])

def KcpSettingsBean.details (t : KcpSettingsBean) : List Char × List Char × List Char :=
  (t.headerType, [], t.seed.getD [])

def WsSettingsBean.details (t : WsSettingsBean) : List Char × List Char × List Char := ([], t.Host, t.path)

def HttpSettingsBean.details (t : HttpSettingsBean) : List Char × List Char × List Char :=
  ([], joinToString t.host, t.path)

def QuicSettingBean.details (t : QuicSettingBean) : List Char × List Char × List Char :=
  (t.headerType, t.security, t.key)

def GrpcSettingsBean.details (t : GrpcSettingsBean) : List Char × List Char × List Char :=
  (if t.multiMode = some true then "multi".toList else "gun".toList, [], t.serviceName)

/-- The names of the transports that have settings. -/
def transports : List (List Char) := ["tcp", "kcp", "ws", "h2", "http", "quic", "grpc"].map String.toList

/-- A transport with its settings, the name that they give the server, and their details. -/
inductive Populated (f : TransportFields) : List Char → StreamSettingsBean × List Char →
    Option (List Char × List Char × List Char) → Prop
  | tcp : Populated f "tcp".toList ({ network := "tcp".toList, tcpSettings := some (tcpOf f) }, tcpSni f)
      (some (tcpOf f).details)
  | kcp : Populated f "kcp".toList ({ network := "kcp".toList, kcpSettings := some (kcpOf f) }, []) (some (kcpOf f).details)
  | ws : Populated f "ws".toList ({ network := "ws".toList, wsSettings := some (wsOf f) }, (wsOf f).Host)
      (some (wsOf f).details)
  | h2 {net} : net = "h2".toList ∨ net = "http".toList →
      Populated f net ({ network := "h2".toList, httpSettings := some (h2Of f) }, (h2Of f).host.headD [])
        (some (h2Of f).details)
  | quic : Populated f "quic".toList ({ network := "quic".toList, quicSettings := some (quicOf f) }, [])
      (some (quicOf f).details)
  | grpc : Populated f "grpc".toList ({ network := "grpc".toList, grpcSettings := some (grpcOf f) }, f.host.getD [])
      (some (grpcOf f).details)
  | other {net} : net ∉ transports → Populated f net ({ network := net }, []) none

theorem ne_of_not_mem_transports {net : List Char} (h : net ∉ transports) :
    net ≠ "tcp".toList ∧ net ≠ "kcp".toList ∧ net ≠ "ws".toList ∧ net ≠ "h2".toList ∧ net ≠ "http".toList ∧
      net ≠ "quic".toList ∧ net ≠ "grpc".toList := by
  simpa [transports] using h

theorem populate_of_not_mem {net : List Char} (h : net ∉ transports) (f : TransportFields) :
    populateTransportSettings {} net f = ({ network := net }, []) := by
  obtain ⟨htcp, hkcp, hws, hh2, hhttp, hquic, hgrpc⟩ := ne_of_not_mem_transports h
  rw [populateTransportSettings, if_neg htcp, if_neg hkcp, if_neg hws, if_neg (not_or.mpr ⟨hh2, hhttp⟩), if_neg hquic,
    if_neg hgrpc]

theorem details_of_not_mem {net : List Char} (h : net ∉ transports) :
    getTransportSettingDetails { network := net } = none := by
  obtain ⟨htcp, hkcp, hws, hh2, -, hquic, hgrpc⟩ := ne_of_not_mem_transports h
  rw [getTransportSettingDetails, if_neg htcp, if_neg hkcp, if_neg hws, if_neg hh2, if_neg hquic, if_neg hgrpc]

/-- Every transport is given settings in one of these ways. -/
theorem populated (net : List Char) (f : TransportFields) :
    Populated f net (populateTransportSettings {} net f)
      (populateTransportSettings {} net f).1.getTransportSettingDetails := by
  by_cases htcp : net = "tcp".toList
  · subst htcp
    exact .tcp
  by_cases hkcp : net = "kcp".toList
  · subst hkcp
    exact .kcp
  by_cases hws : net = "ws".toList
  · subst hws
    exact .ws
  by_cases hh2 : net = "h2".toList ∨ net = "http".toList
  · have hp : populateTransportSettings {} net f =
        ({ network := "h2".toList, httpSettings := some (h2Of f) }, (h2Of f).host.headD []) := by
      rw [populateTransportSettings, if_neg htcp, if_neg hkcp, if_neg hws, if_pos hh2]
    rw [hp]
    exact .h2 hh2
  by_cases hquic : net = "quic".toList
  · subst hquic
    exact .quic
  by_cases hgrpc : net = "grpc".toList
  · subst hgrpc
    exact .grpc
  have hnet : net ∉ transports := by
    simp only [transports, List.map_cons, List.map_nil, List.mem_cons, List.not_mem_nil, or_false]
    rintro (h | h | h | h | h | h | h)
    · exact htcp h
    · exact hkcp h
    · exact hws h
    · exact hh2 (.inl h)
    · exact hh2 (.inr h)
    · exact hquic h
    · exact hgrpc h
  rw [populate_of_not_mem hnet, details_of_not_mem hnet]
  exact .other hnet

section
variable {f : TransportFields} {net : List Char} {p : StreamSettingsBean × List Char}
  {d : Option (List Char × List Char × List Char)}

theorem Populated.no_tls (h : Populated f net p d) : p.1.tlsSettings = none ∧ p.1.xtlsSettings = none := by
  cases h <;> exact ⟨rfl, rfl⟩

theorem Populated.network_ne_nil (h : Populated f net p d) (hnet : net ≠ []) : p.1.network ≠ [] := by
  cases h with
  | other _ => exact hnet
  | _ => exact List.cons_ne_nil _ _

end

end Transport

end NicVpn.V2ray
