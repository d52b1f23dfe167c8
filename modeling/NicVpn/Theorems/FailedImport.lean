import NicVpn.Theorems.ServerList

/-! What an import that counts no server leaves. The servers of the subscription are removed before the first line is
    read, so they are lost whenever there are any; and a server that was stored before its comparison with the
    selected one threw is not counted. -/

namespace NicVpn
namespace ServerStore
open MmkvManager AngConfigManager

/-- The same list, stored configurations and selection. -/
structure SameServers (s t : Store) : Prop where
  serverList : t.serverList = s.serverList
  servers : ∀ guid, t.servers.lookup guid = s.servers.lookup guid
  selected : t.selected = s.selected

/-- No stored server belongs to the subscription. -/
def NoneOf (s : Store) (subid : String) : Prop :=
  ∀ guid config, decodeServerConfig s guid = some config → config.subscriptionId ≠ subid

/-- The line is a link, and its comparison with the server that is to be selected again throws. -/
def Throws (env : Env) (s : Store) (subid : String) (str : List Char) : Prop :=
  ∃ config old e, resolve env str = .ok config ∧ selectedOf s subid = some old ∧
    ServerConfig.sameServer { config with subscriptionId := subid } old = .error e

/-- Nothing is removed, and no line throws once its server is stored: always so where there is no text, or where
    servers are added. -/
def Keeps (env : Env) (s : Store) (servers : Option (List Char)) (subid : String) (append : Bool) : Prop :=
  ∀ text, servers = some text → append = false → (isBlank subid = true ∨ NoneOf s subid) ∧
    (subid ≠ "" → ∀ str ∈ Text.lines text, ¬Throws env s subid str)

section Attempt
variable {env : Env} {s t : Store} {subid : String}

/-! ### Removal -/

theorem removeServerViaSubid_eq_self (h : isBlank subid = true ∨ NoneOf s subid) : removeServerViaSubid s subid = s := by
  unfold removeServerViaSubid
  split
  · rfl
  · rename_i hblank
    have hnone := h.resolve_left hblank
    generalize Assoc.keys s.servers = keys
    induction keys with
    | nil => rfl
    | cons key keys ih =>
      have hkey : removeIfOf subid s key = s := by
        unfold removeIfOf
        split
        · rename_i config hconfig
          exact if_neg (hnone key config hconfig)
        · rfl
      rw [List.foldl_cons, hkey]
      exact ih

/-- A server of the subscription is gone once its key was visited. -/
theorem lookup_foldl_removeIfOf {guid : String} {config : ServerConfig} (keys : List String)
    (hblank : isBlank guid = false) (hsub : config.subscriptionId = subid)
    (h : s.servers.lookup guid = none ∨ guid ∈ keys ∧ s.servers.lookup guid = some config) :
    (keys.foldl (removeIfOf subid) s).servers.lookup guid = none := by
  induction keys generalizing s with
  | nil => exact h.resolve_right fun h => absurd h.1 List.not_mem_nil
  | cons key keys ih =>
    refine ih ?_
    by_cases hkey : guid = key
    · subst hkey
      left
      rcases h with hnone | ⟨-, hsome⟩
      · simp [removeIfOf, decodeServerConfig, hnone, hblank]
      · simp [removeIfOf, decodeServerConfig, hsome, hblank, hsub, removeServer, Assoc.lookup_remove_self]
    · have hlookup : (removeIfOf subid s key).servers.lookup guid = s.servers.lookup guid := by
        unfold removeIfOf
        split
        · split
          · exact (removeServer_other hkey).2
          · rfl
        · rfl
      rw [hlookup]
      refine h.imp_right ?_
      rintro ⟨hmem, hsome⟩
      exact ⟨(List.mem_cons.mp hmem).resolve_left hkey, hsome⟩

theorem lookup_removeServerViaSubid {guid : String} {config : ServerConfig} (hsubid : isBlank subid = false)
    (hdec : decodeServerConfig s guid = some config) (hsub : config.subscriptionId = subid) :
    (removeServerViaSubid s subid).servers.lookup guid = none := by
  have hblank := isBlank_of_decode hdec
  rw [decodeServerConfig_eq hblank] at hdec
  rw [removeServerViaSubid, if_neg (by rw [hsubid]; decide)]
  exact lookup_foldl_removeIfOf _ hblank hsub (.inr ⟨Assoc.mem_keys_of_lookup hdec, hdec⟩)

/-! ### The lines -/

/-- A line that is not counted leaves the store alone, unless it throws. -/
theorem importLine_eq_self {removed : Option ServerConfig} {str : List Char} {n : Nat}
    (hcount : (importLine env subid removed (n, s) str).1 = n)
    (hthrows : ∀ config old e, resolve env str = .ok config → removed = some old →
      ServerConfig.sameServer { config with subscriptionId := subid } old ≠ .error e) :
    importLine env subid removed (n, s) str = (n, s) := by
  unfold importLine at hcount ⊢
  rcases importConfig_shape env s str subid removed with ⟨e, heq⟩ | ⟨url, heq⟩ | ⟨config, key, t, hr, -, hcases⟩
  · rw [heq]
  · rw [heq] at hcount
    exact absurd hcount (Nat.succ_ne_self n)
  · rcases hcases with heq | heq | ⟨old, e, hold, hsame, -⟩
    · rw [heq] at hcount
      exact absurd hcount (Nat.succ_ne_self n)
    · rw [heq] at hcount
      exact absurd hcount (Nat.succ_ne_self n)
    · exact absurd hsame (hthrows config old e hr hold)

theorem importLine_count (env : Env) (subid : String) (removed : Option ServerConfig) (p : Nat × Store)
    (str : List Char) : p.1 ≤ (importLine env subid removed p str).1 := by
  unfold importLine
  split
  · exact Nat.le_succ _
  · exact Nat.le_refl _

theorem importLines_count (env : Env) (subid : String) (removed : Option ServerConfig) (strs : List (List Char))
    (p : Nat × Store) : p.1 ≤ (strs.foldl (importLine env subid removed) p).1 := by
  induction strs generalizing p with
  | nil => exact Nat.le_refl _
  | cons str strs ih => exact Nat.le_trans (importLine_count env subid removed p str) (ih _)

theorem importLines_eq_self {removed : Option ServerConfig} (strs : List (List Char))
    (hcount : (strs.foldl (importLine env subid removed) (0, s)).1 = 0)
    (hthrows : ∀ str ∈ strs, ∀ config old e, resolve env str = .ok config → removed = some old →
      ServerConfig.sameServer { config with subscriptionId := subid } old ≠ .error e) :
    strs.foldl (importLine env subid removed) (0, s) = (0, s) := by
  induction strs with
  | nil => rfl
  | cons str strs ih =>
    obtain ⟨hstr, hstrs⟩ := List.forall_mem_cons.mp hthrows
    have hfirst : (importLine env subid removed (0, s) str).1 = 0 :=
      Nat.le_zero.mp (Nat.le_trans (importLines_count env subid removed strs _) (Nat.le_of_eq hcount))
    rw [List.foldl_cons, importLine_eq_self hfirst hstr] at hcount ⊢
    exact ih hcount hstrs

/-! ### What stays away, and what stays -/

/-- A link draws UUIDs from where the store is, and touches no other server. -/
theorem importConfig_frame (env : Env) (s : Store) (str : List Char) (subid : String) (removed : Option ServerConfig) :
    s.drawn ≤ (importConfig env s str subid removed).2.drawn ∧
      ∀ guid, guid ≠ env.uuid s.drawn →
        (importConfig env s str subid removed).2.servers.lookup guid = s.servers.lookup guid := by
  rcases importConfig_shape env s str subid removed with ⟨e, heq⟩ | ⟨url, heq⟩ | ⟨config, key, t, -, henc, hcases⟩
  · rw [heq]
    exact ⟨Nat.le_refl _, fun _ _ => rfl⟩
  · rw [heq]
    unfold importUrlAsSubscription
    split
    · exact ⟨Nat.le_refl _, fun _ _ => rfl⟩
    · exact ⟨Nat.le_succ _, fun _ _ => rfl⟩
  · rw [encodeServerConfig_eq, if_pos (show isBlank "" = true from rfl)] at henc
    obtain ⟨rfl, rfl⟩ := Prod.mk.inj henc
    rcases hcases with heq | heq | ⟨old, e, -, -, heq⟩ <;> rw [heq] <;>
      exact ⟨Nat.le_succ _, fun _ hne => Assoc.lookup_put_ne hne⟩

/-- The same along the lines. -/
theorem importLines_frame (env : Env) (subid : String) (removed : Option ServerConfig) (strs : List (List Char))
    (p : Nat × Store) : p.2.drawn ≤ (strs.foldl (importLine env subid removed) p).2.drawn ∧
      ∀ guid, (∀ n, p.2.drawn ≤ n → guid ≠ env.uuid n) →
        (strs.foldl (importLine env subid removed) p).2.servers.lookup guid = p.2.servers.lookup guid := by
  induction strs generalizing p with
  | nil => exact ⟨Nat.le_refl _, fun _ _ => rfl⟩
  | cons str strs ih =>
    obtain ⟨hdrawn, hlookup⟩ := importConfig_frame env p.2 str subid removed
    rw [← importLine_snd] at hdrawn hlookup
    obtain ⟨hdrawn', hlookup'⟩ := ih (importLine env subid removed p str)
    refine ⟨Nat.le_trans hdrawn hdrawn', fun guid hne => ?_⟩
    rw [List.foldl_cons, hlookup' guid fun n hn => hne n (Nat.le_trans hdrawn hn)]
    exact hlookup guid (hne _ (Nat.le_refl _))

theorem removeServerViaSubid_lookup_none {guid : String} (h : s.servers.lookup guid = none) (subid : String) :
    (removeServerViaSubid s subid).servers.lookup guid = none := by
  refine removeServerViaSubid_inv (P := fun s => s.servers.lookup guid = none) h fun s key _ hs _ _ => ?_
  unfold removeServer
  split
  · exact hs
  · exact Assoc.lookup_remove_none hs

/-- A server that is not stored, and whose guid will not be drawn, is not stored after an attempt. -/
theorem importBatchConfig_lookup_none {guid : String} (h : s.servers.lookup guid = none)
    (hne : ∀ n, s.drawn ≤ n → guid ≠ env.uuid n) (servers : Option (List Char)) (subid : String) (append : Bool) :
    s.drawn ≤ (importBatchConfig env s servers subid append).2.drawn ∧
      (importBatchConfig env s servers subid append).2.servers.lookup guid = none := by
  unfold importBatchConfig
  split
  · exact ⟨Nat.le_refl _, h⟩
  · have hdrawn : (if append then s else removeServerViaSubid s subid).drawn = s.drawn := by
      split
      · rfl
      · exact removeServerViaSubid_drawn s subid
    have hnone : (if append then s else removeServerViaSubid s subid).servers.lookup guid = none := by
      split
      · exact h
      · exact removeServerViaSubid_lookup_none h subid
    rename_i text
    obtain ⟨hle, hlookup⟩ := importLines_frame env subid
      (if subid ≠ "" ∧ (!append) = true then selectedOf s subid else none) (Text.lines text)
      (0, if append then s else removeServerViaSubid s subid)
    rw [hdrawn] at hle hlookup
    exact ⟨hle, (hlookup guid hne).trans hnone⟩

/-- An attempt at the servers of a subscription takes out each of them. -/
theorem importBatchConfig_removes (hfresh : Fresh env s) (hsubid : isBlank subid = false) {guid : String}
    {config : ServerConfig} (hdec : decodeServerConfig s guid = some config) (hsub : config.subscriptionId = subid)
    (text : List Char) :
    (∀ n, s.drawn ≤ n → guid ≠ env.uuid n) ∧ s.drawn ≤ (importBatchConfig env s (some text) subid false).2.drawn ∧
      (importBatchConfig env s (some text) subid false).2.servers.lookup guid = none := by
  have hne : ∀ n, s.drawn ≤ n → guid ≠ env.uuid n := by
    rintro n hn rfl
    rw [decodeServerConfig_eq (hfresh.notBlank n), hfresh.servers n hn] at hdec
    cases hdec
  have hgone := lookup_removeServerViaSubid hsubid hdec hsub
  simp only [importBatchConfig, Bool.false_eq_true, ↓reduceIte]
  obtain ⟨hle, hlookup⟩ := importLines_frame env subid
    (if subid ≠ "" ∧ (!false) = true then selectedOf s subid else none) (Text.lines text)
    (0, removeServerViaSubid s subid)
  rw [removeServerViaSubid_drawn] at hle hlookup
  exact ⟨hne, hle, (hlookup guid hne).trans hgone⟩

/-- A line that throws leaves its server, which is new. -/
theorem importLines_throws {removed : ServerConfig} (hinj : ∀ m n, env.uuid m = env.uuid n → m = n)
    (hsubid : subid ≠ "") {config : ServerConfig} {e : Exc} {str : List Char} (hr : resolve env str = .ok config)
    (he : ServerConfig.sameServer { config with subscriptionId := subid } removed = .error e)
    (strs : List (List Char)) (hstr : str ∈ strs) (p : Nat × Store) :
    ∃ n, p.2.drawn ≤ n ∧
      (strs.foldl (importLine env subid (some removed)) p).2.servers.lookup (env.uuid n) ≠ none := by
  induction strs generalizing p with
  | nil => cases hstr
  | cons first strs ih =>
    rcases List.mem_cons.mp hstr with rfl | hstr
    · refine ⟨p.2.drawn, Nat.le_refl _, ?_⟩
      have hne : str ≠ [] := by
        rintro rfl
        cases hr
      have himport : (importLine env subid (some removed) p str).2 =
          (encodeServerConfig env p.2 "" { config with subscriptionId := subid }).2 := by
        rw [importLine_snd, importConfig, if_neg hne, if_neg fun h => hsubid h.1, hr]
        simp only [he]
      rw [encodeServerConfig_eq, if_pos (show isBlank "" = true from rfl)] at himport
      obtain ⟨-, hlookup⟩ := importLines_frame env subid (some removed) strs (importLine env subid (some removed) p str)
      rw [List.foldl_cons, hlookup]
      · rw [himport]
        simp [withServer]
      · rw [himport]
        intro n hn heq
        exact absurd (hinj _ _ heq) (Nat.ne_of_lt hn)
    · obtain ⟨n, hn, hsome⟩ := ih hstr (importLine env subid (some removed) p first)
      refine ⟨n, Nat.le_trans ?_ hn, hsome⟩
      rw [importLine_snd]
      exact (importConfig_frame env p.2 first subid (some removed)).1

/-! ### One attempt -/

theorem importBatchConfig_eq_self {servers : Option (List Char)} {append : Bool}
    (himport : (importBatchConfig env s servers subid append).1 = 0) (h : Keeps env s servers subid append) :
    importBatchConfig env s servers subid append = (0, s) := by
  unfold importBatchConfig at himport ⊢
  cases servers with
  | none => rfl
  | some text =>
    cases append with
    | true =>
      simp only [Bool.not_true, Bool.false_eq_true, and_false, ↓reduceIte] at himport ⊢
      exact importLines_eq_self _ himport fun _ _ _ _ _ _ hold => nomatch hold
    | false =>
      obtain ⟨hremoved, hthrows⟩ := h text rfl rfl
      simp only [Bool.false_eq_true, ↓reduceIte, removeServerViaSubid_eq_self hremoved] at himport ⊢
      refine importLines_eq_self _ himport fun str hstr config old e hr hold hsame => ?_
      split at hold
      · rename_i hsubid
        exact hthrows hsubid.1 str hstr ⟨config, old, e, hr, hold, hsame⟩
      · cases hold

theorem sameServers_iff_keeps (hfresh : Fresh env s) {servers : Option (List Char)} {append : Bool}
    (himport : importBatchConfig env s servers subid append = (0, t)) :
    SameServers s t ↔ Keeps env s servers subid append := by
  constructor
  · rintro hsame text rfl rfl
    constructor
    · by_contra hnot
      simp only [not_or, NoneOf, not_forall, not_not] at hnot
      obtain ⟨hblank, guid, config, hdec, hsub⟩ := hnot
      obtain ⟨-, -, hgone⟩ := importBatchConfig_removes hfresh (Bool.eq_false_iff.mpr hblank) hdec hsub text
      have hlookup := hsame.servers guid
      rw [himport] at hgone
      rw [hgone, ← decodeServerConfig_eq (isBlank_of_decode hdec), hdec] at hlookup
      cases hlookup
    · rintro hsubid str hstr ⟨config, old, e, hr, hold, hthrows⟩
      obtain ⟨n, hn, hnew⟩ := importLines_throws hfresh.injective hsubid hr hthrows (Text.lines text) hstr
        (0, removeServerViaSubid s subid)
      have hcond : subid ≠ "" ∧ (!false) = true := ⟨hsubid, rfl⟩
      simp only [importBatchConfig, if_pos hcond, hold, Bool.false_eq_true, ↓reduceIte] at himport
      rw [removeServerViaSubid_drawn] at hn
      rw [himport] at hnew
      exact hnew ((hsame.servers _).trans (hfresh.servers n hn))
  · intro hkeeps
    have heq := importBatchConfig_eq_self (by rw [himport]) hkeeps
    rw [himport] at heq
    obtain rfl := (Prod.mk.inj heq).2
    exact ⟨rfl, fun _ => rfl, rfl⟩

/-- Without a server of the subscription there is none to be selected again, and so nothing throws. -/
theorem keeps_of_noneOf (h : NoneOf s subid) (servers : Option (List Char)) (append : Bool) :
    Keeps env s servers subid append := by
  intro text _ _
  refine ⟨.inr h, ?_⟩
  rintro - str - ⟨config, old, e, -, hold, -⟩
  obtain ⟨hdec, hsub⟩ := Option.filter_eq_some_iff.mp hold
  exact h _ old hdec (of_decide_eq_true hsub)

end Attempt
/-! ### Failed imports -/

/-- An attempt that counts nothing leaves the servers as they were exactly when it removes nothing and no line throws;
    the two attempts of `StartFragment` exactly when no server of its subscription is stored. -/
theorem failed_import_keeps_iff (env : Env) (s : Store) (hfresh : Fresh env s) :
    (∀ servers subid append t, AngConfigManager.importBatchConfig env s servers subid append = (0, t) →
      (SameServers s t ↔ Keeps env s servers subid append)) ∧
      ∀ server t, StartFragment.importBatchConfig env s (some server) = .ok (0, t) →
        (SameServers s t ↔ NoneOf s StartFragment.subid) := by
  refine ⟨fun servers subid append t himport => sameServers_iff_keeps hfresh himport, fun server t himport => ?_⟩
  obtain ⟨hzero, hsecond⟩ : _ ∧ _ := by
    rcases importBatchConfig_cases himport with ⟨hne, heq⟩ | h
    · exact absurd (congrArg Prod.fst heq) hne
    · exact h
  constructor
  · intro hsame guid config hdec hsub
    obtain ⟨hne, hdrawn, hgone⟩ := importBatchConfig_removes hfresh (show isBlank StartFragment.subid = false by decide)
      hdec hsub server
    obtain ⟨-, hgone'⟩ := importBatchConfig_lookup_none hgone (fun n hn => hne n (Nat.le_trans hdrawn hn))
      (some (env.decode server)) StartFragment.subid false
    have hlookup := hsame.servers guid
    rw [hsecond] at hgone'
    rw [hgone', ← decodeServerConfig_eq (isBlank_of_decode hdec), hdec] at hlookup
    cases hlookup
  · intro hnone
    rw [importBatchConfig_eq_self hzero (keeps_of_noneOf hnone _ _)] at hsecond
    exact (sameServers_iff_keeps hfresh hsecond).mpr (keeps_of_noneOf hnone _ _)

/-- Nothing of the subscription is stored, and a text without a link changes nothing. -/
theorem failed_import_keeps_own :
    ∃ t, AngConfigManager.importBatchConfig linkEnv (selecting "") (some []) StartFragment.subid false = (0, t) ∧
      SameServers (selecting "") t := by
  have hnone : NoneOf (selecting "") StartFragment.subid := by
    intro guid config hdec
    unfold decodeServerConfig selecting at hdec
    split at hdec
    · cases hdec
    · rw [List.lookup_cons] at hdec
      split at hdec
      · rw [← Option.some.inj hdec]
        decide
      · cases hdec
  have himport : AngConfigManager.importBatchConfig linkEnv (selecting "") (some []) StartFragment.subid false =
      (0, selecting "") := by decide
  exact ⟨_, himport, ((failed_import_keeps_iff linkEnv _ (fresh_selecting "")).1 _ _ _ _ himport).mpr
    (keeps_of_noneOf hnone _ _)⟩

/-- An empty text loses the only server, which was selected, at the first of two failing attempts. -/
theorem failed_import_loses_servers :
    (∃ t, AngConfigManager.importBatchConfig linkEnv (selecting StartFragment.subid) (some []) StartFragment.subid
        false = (0, t) ∧ ¬SameServers (selecting StartFragment.subid) t) ∧
      ∃ t, StartFragment.importBatchConfig linkEnv (selecting StartFragment.subid) (some []) = .ok (0, t) ∧
        t.serverList = [] ∧ t.selected = none ∧ ¬SameServers (selecting StartFragment.subid) t := by
  have hlist : (selecting StartFragment.subid).serverList ≠ [] := by decide
  constructor
  · have himport : (AngConfigManager.importBatchConfig linkEnv (selecting StartFragment.subid) (some [])
        StartFragment.subid false).1 = 0 := by decide
    have hempty : (AngConfigManager.importBatchConfig linkEnv (selecting StartFragment.subid) (some [])
        StartFragment.subid false).2.serverList = [] := by decide
    exact ⟨_, Prod.ext himport rfl, fun hsame => hlist (hsame.serverList.symm.trans hempty)⟩
  · refine ⟨⟨none, [], [], [], 0⟩, by decide, rfl, rfl, fun hsame => hlist hsame.serverList.symm⟩

end ServerStore
end NicVpn
