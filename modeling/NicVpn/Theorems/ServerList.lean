import NicVpn.Theorems.ServerStore

/-! The storages stay in step with each other: whatever the operations and their order, the list of servers names
    exactly the servers that are stored, each once, and the selected server is one of them. -/

namespace NicVpn
open MmkvManager AngConfigManager

/-- The list, the stored configurations and the selection are of the same servers. -/
structure Store.WellFormed (s : Store) : Prop where
  nodup : s.serverList.Nodup
  mem_serverList : ∀ guid, guid ∈ s.serverList ↔ (s.servers.lookup guid).isSome = true
  selected : ∀ guid, s.selected = some guid → guid ∈ s.serverList
  notBlank : ∀ guid ∈ s.serverList, isBlank guid = false

namespace ServerStore

section Steps
variable {env : Env} {s : Store}

/-! ### One server -/

/-- The store that `encodeServerConfig` leaves for the key it uses. -/
def withServer (s : Store) (key : String) (config : ServerConfig) : Store :=
  { s with
    servers := Assoc.put s.servers key config
    serverList := if key ∈ s.serverList then s.serverList else s.serverList ++ [key]
    selected := if key ∉ s.serverList ∧ isNullOrBlank s.selected = true then some key else s.selected }

theorem encodeServerConfig_eq (env : Env) (s : Store) (guid : String) (config : ServerConfig) :
    encodeServerConfig env s guid config =
      if isBlank guid = true then
        (env.uuid s.drawn, withServer { s with drawn := s.drawn + 1 } (env.uuid s.drawn) config)
      else (guid, withServer s guid config) := by
  cases hguid : isBlank guid with
  | true =>
    by_cases hmem : env.uuid s.drawn ∈ s.serverList
    · simp [encodeServerConfig, withServer, hguid, hmem]
    · by_cases hsel : isNullOrBlank s.selected = true <;> simp [encodeServerConfig, withServer, hguid, hmem, hsel]
  | false =>
    by_cases hmem : guid ∈ s.serverList
    · simp [encodeServerConfig, withServer, hguid, hmem]
    · by_cases hsel : isNullOrBlank s.selected = true <;> simp [encodeServerConfig, withServer, hguid, hmem, hsel]

theorem isSome_lookup_put {key guid : String} {config : ServerConfig} :
    ((Assoc.put s.servers key config).lookup guid).isSome = true ↔
      guid = key ∨ (s.servers.lookup guid).isSome = true := by
  by_cases hkey : guid = key
  · rw [hkey, Assoc.lookup_put_self]
    simp
  · rw [Assoc.lookup_put_ne hkey]
    simp [hkey]

theorem wellFormed_withServer (h : s.WellFormed) {key : String} (hkey : isBlank key = false) (config : ServerConfig) :
    (withServer s key config).WellFormed := by
  by_cases hmem : key ∈ s.serverList
  · have heq : withServer s key config = { s with servers := Assoc.put s.servers key config } := by
      simp [withServer, hmem]
    rw [heq]
    refine ⟨h.nodup, fun guid => ?_, h.selected, h.notBlank⟩
    rw [isSome_lookup_put, ← h.mem_serverList]
    exact ⟨.inr, fun hor => hor.elim (fun heq => heq ▸ hmem) id⟩
  · have hlist : (withServer s key config).serverList = s.serverList ++ [key] := if_neg hmem
    refine ⟨?_, fun guid => ?_, fun guid hsel => ?_, fun guid hguid => ?_⟩
    · rw [hlist]
      refine List.nodup_append.mpr ⟨h.nodup, List.nodup_singleton key, ?_⟩
      rintro a ha b hb rfl
      exact hmem (List.mem_singleton.mp hb ▸ ha)
    · rw [hlist, List.mem_append, List.mem_singleton, h.mem_serverList]
      exact Or.comm.trans isSome_lookup_put.symm
    · rw [hlist]
      simp only [withServer] at hsel
      split at hsel
      · exact List.mem_append_right _ (List.mem_singleton.mpr (Option.some.inj hsel).symm)
      · exact List.mem_append_left _ (h.selected guid hsel)
    · rw [hlist] at hguid
      rcases List.mem_append.mp hguid with hold | hnew
      · exact h.notBlank guid hold
      · rw [List.mem_singleton.mp hnew]
        exact hkey

theorem wellFormed_drawn (h : s.WellFormed) (subs : List (String × String)) (n : Nat) :
    ({ s with subs := subs, drawn := n } : Store).WellFormed :=
  ⟨h.nodup, h.mem_serverList, h.selected, h.notBlank⟩

theorem wellFormed_encodeServerConfig (huuid : ∀ n, isBlank (env.uuid n) = false) (h : s.WellFormed) (guid : String)
    (config : ServerConfig) : (encodeServerConfig env s guid config).2.WellFormed := by
  rw [encodeServerConfig_eq]
  split
  · exact wellFormed_withServer (wellFormed_drawn h s.subs _) (huuid _) config
  · rename_i hblank
    exact wellFormed_withServer h (Bool.eq_false_iff.mpr hblank) config

/-- What `encodeServerConfig` returns is in its list. -/
theorem encodeServerConfig_mem (env : Env) (s : Store) (guid : String) (config : ServerConfig) :
    (encodeServerConfig env s guid config).1 ∈ (encodeServerConfig env s guid config).2.serverList := by
  have hmem : ∀ s : Store, ∀ key, key ∈ (withServer s key config).serverList := by
    intro s key
    simp only [withServer]
    split
    · assumption
    · exact List.mem_append_right _ (List.mem_singleton.mpr rfl)
  rw [encodeServerConfig_eq]
  split
  · exact hmem _ _
  · exact hmem _ _

theorem wellFormed_removeServer (h : s.WellFormed) (guid : String) : (removeServer s guid).WellFormed := by
  unfold removeServer
  split
  · exact h
  · have hmem : ∀ key, key ∈ s.serverList.erase guid ↔ key ≠ guid ∧ key ∈ s.serverList := fun key =>
      h.nodup.mem_erase_iff
    refine ⟨h.nodup.erase guid, fun key => ?_, fun key hsel => ?_, fun key hkey => ?_⟩
    · rw [hmem]
      by_cases hkey : key = guid
      · simp [hkey, Assoc.lookup_remove_self]
      · simp [hkey, Assoc.lookup_remove_ne hkey, h.mem_serverList]
    · dsimp only at hsel
      split at hsel
      · cases hsel
      · rename_i hne
        refine (hmem key).mpr ⟨fun hkey => hne (hkey ▸ hsel), h.selected key hsel⟩
    · exact h.notBlank key ((hmem key).mp hkey).2

theorem wellFormed_removeServerViaSubid (h : s.WellFormed) (subid : String) :
    (removeServerViaSubid s subid).WellFormed :=
  removeServerViaSubid_inv h fun _ key _ hs _ _ => wellFormed_removeServer hs key

/-! ### Imports -/

/-- What a link can do: nothing, a new subscription, or a new server, which may then be selected. The server stays
    when the comparison with the removed server throws. -/
theorem importConfig_shape (env : Env) (s : Store) (str : List Char) (subid : String) (removed : Option ServerConfig) :
    (∃ e, importConfig env s str subid removed = (.error e, s)) ∨
      (∃ url, importConfig env s str subid removed = (.ok (), importUrlAsSubscription env s url)) ∨
      ∃ config key t, resolve env str = .ok config ∧
        encodeServerConfig env s "" { config with subscriptionId := subid } = (key, t) ∧
        (importConfig env s str subid removed = (.ok (), t) ∨
          importConfig env s str subid removed = (.ok (), { t with selected := some key }) ∨
          ∃ old e, removed = some old ∧ ServerConfig.sameServer { config with subscriptionId := subid } old = .error e ∧
            importConfig env s str subid removed = (.error .exception, t)) := by
  unfold importConfig
  split
  · exact .inl ⟨_, rfl⟩
  split
  · exact .inr (.inl ⟨_, rfl⟩)
  cases hr : resolve env str with
  | error e => exact .inl ⟨e, rfl⟩
  | ok config =>
    refine .inr (.inr ⟨config, _, _, rfl, rfl, ?_⟩)
    cases removed with
    | none => exact .inl rfl
    | some old =>
      dsimp only
      split
      · rename_i e he
        exact .inr (.inr ⟨old, e, rfl, he, rfl⟩)
      · exact .inr (.inl rfl)
      · exact .inl rfl

theorem wellFormed_importConfig (huuid : ∀ n, isBlank (env.uuid n) = false) (h : s.WellFormed) (str : List Char)
    (subid : String) (removed : Option ServerConfig) : (importConfig env s str subid removed).2.WellFormed := by
  rcases importConfig_shape env s str subid removed with ⟨e, heq⟩ | ⟨url, heq⟩ | ⟨config, key, t, -, henc, hcases⟩
  · rw [heq]
    exact h
  · rw [heq]
    unfold importUrlAsSubscription
    split
    · exact h
    · exact wellFormed_drawn h _ _
  · have ht := wellFormed_encodeServerConfig huuid h "" { config with subscriptionId := subid }
    have hkey := encodeServerConfig_mem env s "" { config with subscriptionId := subid }
    rw [henc] at ht hkey
    rcases hcases with heq | heq | ⟨old, e, -, -, heq⟩
    · rw [heq]
      exact ht
    · rw [heq]
      refine ⟨ht.nodup, ht.mem_serverList, fun guid hsel => ?_, ht.notBlank⟩
      rw [← Option.some.inj hsel]
      exact hkey
    · rw [heq]
      exact ht

theorem importLine_snd (env : Env) (subid : String) (removed : Option ServerConfig) (p : Nat × Store)
    (str : List Char) : (importLine env subid removed p str).2 = (importConfig env p.2 str subid removed).2 := by
  unfold importLine
  split <;> rename_i heq <;> rw [heq]

theorem wellFormed_importLines (huuid : ∀ n, isBlank (env.uuid n) = false) (subid : String)
    (removed : Option ServerConfig) (strs : List (List Char)) {p : Nat × Store} (h : p.2.WellFormed) :
    (strs.foldl (importLine env subid removed) p).2.WellFormed := by
  induction strs generalizing p with
  | nil => exact h
  | cons str strs ih =>
    refine ih ?_
    rw [importLine_snd]
    exact wellFormed_importConfig huuid h str subid removed

theorem wellFormed_importBatchConfig (huuid : ∀ n, isBlank (env.uuid n) = false) (h : s.WellFormed)
    (servers : Option (List Char)) (subid : String) (append : Bool) :
    (importBatchConfig env s servers subid append).2.WellFormed := by
  unfold importBatchConfig
  split
  · exact h
  · refine wellFormed_importLines huuid subid _ _ ?_
    dsimp only
    split
    · exact h
    · exact wellFormed_removeServerViaSubid h subid

end Steps

/-! ### All storages -/

section Storages
variable {env : Env} {s : Storage}

theorem toStore_removeServerViaSubid (s : Storage) (subid : String) :
    (s.removeServerViaSubid subid).toStore = removeServerViaSubid s.toStore subid := by
  have hstep : ∀ (t : Storage) key, (Storage.removeIfOf subid t key).toStore = removeIfOf subid t.toStore key := by
    intro t key
    unfold Storage.removeIfOf removeIfOf
    split
    · split <;> rfl
    · rfl
  unfold Storage.removeServerViaSubid removeServerViaSubid
  split
  · rfl
  · exact (List.foldl_hom Storage.toStore (fun t key => (hstep t key).symm)).symm

theorem wellFormed_removeInvalidServer (h : s.WellFormed) : s.removeInvalidServer.WellFormed := by
  unfold Storage.removeInvalidServer
  generalize Assoc.keys s.affs = keys
  induction keys generalizing s with
  | nil => exact h
  | cons key keys ih =>
    refine ih ?_
    unfold Storage.removeIfInvalid
    split
    · split
      · exact wellFormed_removeServer h key
      · exact h
    · exact h

/-! ### The sort -/

/-- Moving each of `guids` to the end, one after the other, puts them at the end in their order. -/
theorem foldl_moveToEnd (delays : List Storage.ServerDelay) {l : List String} (hl : l.Nodup)
    (hd : (delays.map (·.guid)).Nodup) :
    delays.foldl Storage.moveToEnd l = (l.filter fun g => g ∉ delays.map (·.guid)) ++ delays.map (·.guid) := by
  induction delays generalizing l with
  | nil => simp
  | cons d delays ih =>
    obtain ⟨hnot, hd⟩ := List.nodup_cons.mp hd
    have hnodup : (Storage.moveToEnd l d).Nodup := by
      refine List.nodup_append.mpr ⟨hl.erase _, List.nodup_singleton _, ?_⟩
      rintro a ha b hb rfl
      exact (hl.mem_erase_iff.mp ha).1 (List.mem_singleton.mp hb)
    rw [List.foldl_cons, ih hnodup hd, Storage.moveToEnd, List.filter_append, List.filter_singleton, hl.erase_eq_filter,
      List.filter_filter]
    simp only [hnot, not_false_eq_true, decide_true, cond_true, List.map_cons, List.mem_cons, not_or,
      List.append_assoc, List.cons_append, List.nil_append]
    congr 2
    funext g
    by_cases hg : g = d.guid <;> simp [hg]

/-- `t` is `s` with the servers in another order, by their delays. -/
structure Sorted (s t : Storage) : Prop where
  perm : t.serverList.Perm s.serverList
  ordered : t.serverList.Pairwise fun a b => s.delay a ≤ s.delay b
  rest : t = { s with serverList := t.serverList }

theorem sorted_sortByTestResults (h : s.serverList.Nodup) : Sorted s s.sortByTestResults := by
  -- `le` has to be an order on the delays for the sort to sort.
  let le : Storage.ServerDelay → Storage.ServerDelay → Prop := fun a b => a.testDelayMillis ≤ b.testDelayMillis
  have htotal : Std.Total le := ⟨fun a b => Int.le_total a.testDelayMillis b.testDelayMillis⟩
  have htrans : IsTrans Storage.ServerDelay le := ⟨fun _ _ _ => Int.le_trans⟩
  let delays := s.serverList.map fun key => ({ guid := key, testDelayMillis := s.delay key } : Storage.ServerDelay)
  have hdelay : ∀ d ∈ delays, s.delay d.guid = d.testDelayMillis := by
    intro d hd
    obtain ⟨key, -, rfl⟩ := List.mem_map.mp hd
    rfl
  have hguids : delays.map (·.guid) = s.serverList := by simp [delays, Function.comp_def]
  have hperm := List.perm_insertionSort le delays
  have hpermList : ((delays.insertionSort le).map (·.guid)).Perm s.serverList := hguids ▸ hperm.map _
  have hlist : s.sortByTestResults.serverList = (delays.insertionSort le).map (·.guid) := by
    have hfold := foldl_moveToEnd (delays.insertionSort le) h (hpermList.nodup_iff.mpr h)
    have hnone : (s.serverList.filter fun g => g ∉ (delays.insertionSort le).map (·.guid)) = [] := by
      refine List.filter_eq_nil_iff.mpr fun g hg => ?_
      simpa using hpermList.mem_iff.mpr hg
    rw [hnone, List.nil_append] at hfold
    exact hfold
  refine ⟨hlist ▸ hpermList, ?_, rfl⟩
  rw [hlist, List.pairwise_map]
  refine (List.pairwise_insertionSort le delays).imp_of_mem fun ha hb hab => ?_
  rw [hdelay _ (hperm.mem_iff.mp ha), hdelay _ (hperm.mem_iff.mp hb)]
  exact hab

/-! ### Runs -/

theorem wellFormed_empty : Storage.empty.WellFormed where
  nodup := List.nodup_nil
  mem_serverList guid := by simp [Storage.empty]
  selected := nofun
  notBlank := nofun

theorem wellFormed_apply (huuid : ∀ n, isBlank (env.uuid n) = false) (h : s.WellFormed) (op : Storage.Op) :
    (s.apply env op).WellFormed := by
  cases op with
  | encodeServerConfig guid config => exact wellFormed_encodeServerConfig huuid h guid config
  | removeServer guid => exact wellFormed_removeServer h guid
  | removeServerViaSubid subid =>
    rw [Storage.apply, toStore_removeServerViaSubid]
    exact wellFormed_removeServerViaSubid h subid
  | removeAllServer => exact ⟨List.nodup_nil, fun guid => by simp [Storage.apply, Storage.removeAllServer], nofun, nofun⟩
  | removeInvalidServer => exact wellFormed_removeInvalidServer h
  | sortByTestResults =>
    have hperm := (sorted_sortByTestResults h.nodup).perm
    exact ⟨hperm.nodup_iff.mpr h.nodup, fun guid => hperm.mem_iff.trans (h.mem_serverList guid),
      fun guid hsel => hperm.mem_iff.mpr (h.selected guid hsel), fun guid hg => h.notBlank guid (hperm.mem_iff.mp hg)⟩
  | encodeServerTestDelayMillis guid testResult =>
    unfold Storage.apply Storage.encodeServerTestDelayMillis
    dsimp only
    split
    · exact h
    · exact h
  | importBatchConfig servers subid append => exact wellFormed_importBatchConfig huuid h servers subid append

/-- What holds of the storages between two operations. -/
structure Consistent (s : Storage) : Prop where
  nodup : s.serverList.Nodup
  /-- The list has exactly the guids with a stored configuration. -/
  keys : ∀ guid, guid ∈ s.serverList ↔ guid ∈ Assoc.keys s.servers
  decoded : ∀ guid, guid ∈ s.serverList ↔ (decodeServerConfig s.toStore guid).isSome = true
  selected : ∀ guid, s.selected = some guid → guid ∈ s.serverList
  sorted : Sorted s s.sortByTestResults

theorem consistent_of_wellFormed (h : s.WellFormed) : Consistent s := by
  refine ⟨h.nodup, fun guid => ?_, fun guid => ?_, h.selected, sorted_sortByTestResults h.nodup⟩
  · rw [h.mem_serverList]
    constructor
    · intro hsome
      obtain ⟨config, hconfig⟩ := Option.isSome_iff_exists.mp hsome
      exact Assoc.mem_keys_of_lookup hconfig
    · intro hkey
      exact Assoc.isSome_lookup_of_mem_keys hkey
  · cases hblank : isBlank guid with
    | true =>
      have hnot : guid ∉ s.serverList := fun hmem => by
        have hfalse := h.notBlank guid hmem
        rw [hblank] at hfalse
        cases hfalse
      simp [hnot, decodeServerConfig, hblank]
    | false =>
      rw [decodeServerConfig_eq hblank]
      exact h.mem_serverList guid

end Storages

/-- Whatever the operations on empty storages, the list of servers has no duplicates and names exactly the stored
    ones, the selected server is one of them, and a sort only orders the list by delay. -/
theorem storages_consistent (env : Env) (huuid : ∀ n, isBlank (env.uuid n) = false) {s : Storage}
    (h : StepSystem.Reachable (Storage.system env) StepSystem.Any s) : Consistent s := by
  have hwell : s.WellFormed := h.inv (fun s hs => hs ▸ wellFormed_empty) fun s op t hwell _ hs => by
    obtain rfl := Option.some.inj hs
    exact wellFormed_apply huuid hwell op
  exact consistent_of_wellFormed hwell

/-- Two servers and their import, a test result and a sort, with the tested server first. -/
theorem storages_consistent_sorted :
    ∃ s, StepSystem.Reachable (Storage.system linkEnv) StepSystem.Any s ∧ s.serverList = ["tested", "own"] ∧
      s.selected = some "own" ∧ Consistent s := by
  have hrun : ((Storage.system linkEnv).run StepSystem.Any .empty [.encodeServerConfig "own" linkConfig,
      .encodeServerConfig "tested" linkConfig, .importBatchConfig (some link) "sub" false,
      .encodeServerTestDelayMillis "tested" 120, .removeServerViaSubid "sub", .sortByTestResults]).any
      (fun s => decide (s.serverList = ["tested", "own"] ∧ s.selected = some "own")) = true := by decide
  obtain ⟨s, hreach, hend⟩ := StepSystem.exists_reachable rfl _ hrun
  obtain ⟨hlist, hsel⟩ := of_decide_eq_true hend
  exact ⟨s, hreach, hlist, hsel, storages_consistent linkEnv (fresh_selecting "").notBlank hreach⟩

end ServerStore
end NicVpn
