import NicVpn.ServerStore
import Mathlib.Tactic.ByContra

/-! Which server is selected after an import. The import removes the servers of its subscription and the
    selection with them, and the first new server becomes the selected one only when none is selected. So a
    selection from elsewhere stays, and the following start reads that server and not the imported one. -/

namespace NicVpn
namespace ServerStore
open MmkvManager AngConfigManager V2RayServiceManager

/-- The UUIDs that will be drawn are not blank, not in the store and all different. -/
structure Fresh (env : Env) (s : Store) : Prop where
  injective : ∀ m n, env.uuid m = env.uuid n → m = n
  notBlank : ∀ n, isBlank (env.uuid n) = false
  serverList : ∀ n, s.drawn ≤ n → env.uuid n ∉ s.serverList
  servers : ∀ n, s.drawn ≤ n → s.servers.lookup (env.uuid n) = none
  selected : ∀ n, s.drawn ≤ n → s.selected ≠ some (env.uuid n)

/-- The selected server is new and holds the configuration of a link of the text, which the following start
    reads. -/
def Connected (env : Env) (s s' : Store) (server : List Char) : Prop :=
  ∃ guid str config, s'.selected = some guid ∧ decodeServerConfig s guid = none ∧
    (str ∈ Text.lines server ∨ str ∈ Text.lines (env.decode server)) ∧ resolve env str = .ok config ∧
    startV2rayPoint s' = some { config with subscriptionId := StartFragment.subid }

/-- No server is selected, or one of the subscription of the application. -/
def Replaceable (s : Store) : Prop :=
  isNullOrBlank s.selected = true ∨
    ∃ guid config, s.selected = some guid ∧ decodeServerConfig s guid = some config ∧
      config.subscriptionId = StartFragment.subid

/-! ### Removal of the old servers -/

section Removal
variable {env : Env} {s : Store}

theorem fresh_removeServer (h : Fresh env s) (guid : String) : Fresh env (removeServer s guid) := by
  unfold removeServer
  split
  · exact h
  · exact { h with
      serverList := fun n hn hmem => h.serverList n hn (List.mem_of_mem_erase hmem)
      servers := fun n hn => Assoc.lookup_remove_none (h.servers n hn)
      selected := fun n hn heq => by
        dsimp only at heq
        split at heq
        · cases heq
        · exact h.selected n hn heq }

theorem removeServer_drawn (s : Store) (guid : String) : (removeServer s guid).drawn = s.drawn := by
  unfold removeServer
  split <;> rfl

/-- What every removal of one server keeps, the removal of a subscription keeps. -/
theorem removeServerViaSubid_inv {P : Store → Prop} {subid : String} (h : P s)
    (hstep : ∀ s key config, P s → decodeServerConfig s key = some config → config.subscriptionId = subid →
      P (removeServer s key)) : P (removeServerViaSubid s subid) := by
  unfold removeServerViaSubid
  split
  · exact h
  · generalize Assoc.keys s.servers = keys
    induction keys generalizing s with
    | nil => exact h
    | cons key keys ih =>
      refine ih ?_
      unfold removeIfOf
      split
      · rename_i config hc
        split
        · rename_i hsub
          exact hstep s key config h hc hsub
        · exact h
      · exact h

theorem removeServer_selected (s : Store) (guid : String) :
    (removeServer s guid).selected = s.selected ∨ (removeServer s guid).selected = none := by
  unfold removeServer
  split
  · exact .inl rfl
  · dsimp only
    split
    · exact .inr rfl
    · exact .inl rfl

/-- Another server keeps its place. -/
theorem removeServer_other {guid key : String} (hne : guid ≠ key) :
    (s.selected = some guid → (removeServer s key).selected = some guid) ∧
      (removeServer s key).servers.lookup guid = s.servers.lookup guid := by
  unfold removeServer
  split
  · exact ⟨id, rfl⟩
  · refine ⟨fun hsel => ?_, Assoc.lookup_remove_ne hne⟩
    have hkey : s.selected ≠ some key := by
      rw [hsel]
      exact fun heq => hne (Option.some.inj heq)
    dsimp only
    rw [if_neg hkey, hsel]

theorem decodeServerConfig_eq {guid : String} (h : isBlank guid = false) :
    decodeServerConfig s guid = s.servers.lookup guid := by
  simp only [decodeServerConfig, h, Bool.false_eq_true, ↓reduceIte]

theorem isBlank_of_decode {guid : String} {config : ServerConfig} (h : decodeServerConfig s guid = some config) :
    isBlank guid = false := by
  by_contra hb
  simp [decodeServerConfig, hb] at h

/-- A selected server of the subscription is gone once its key was visited. -/
theorem selected_foldl_removeIfOf {subid guid : String} {config : ServerConfig} (keys : List String)
    (hsub : config.subscriptionId = subid)
    (hsel : s.selected = none ∨ (guid ∈ keys ∧ s.selected = some guid ∧ decodeServerConfig s guid = some config)) :
    (keys.foldl (removeIfOf subid) s).selected = none := by
  induction keys generalizing s with
  | nil => exact hsel.resolve_right fun h => absurd h.1 List.not_mem_nil
  | cons key keys ih =>
    refine ih ?_
    rcases hsel with hnone | ⟨hmem, hsel, hdec⟩
    · refine .inl ?_
      unfold removeIfOf
      split
      · split
        · rcases removeServer_selected s key with h | h <;> rw [h]
          exact hnone
        · exact hnone
      · exact hnone
    · have hblank := isBlank_of_decode hdec
      by_cases hkey : guid = key
      · -- this is the visit that removes it
        subst hkey
        refine .inl ?_
        simp only [removeIfOf, hdec, hsub, ↓reduceIte, removeServer, hblank, Bool.false_eq_true, hsel]
      · refine .inr ⟨(List.mem_cons.mp hmem).resolve_left hkey, ?_⟩
        obtain ⟨hsel', hlookup⟩ := removeServer_other (s := s) hkey
        unfold removeIfOf
        split
        · split
          · rw [decodeServerConfig_eq hblank, hlookup, ← decodeServerConfig_eq hblank]
            exact ⟨hsel' hsel, hdec⟩
          · exact ⟨hsel, hdec⟩
        · exact ⟨hsel, hdec⟩

/-- A replaceable selection is gone after the removal. -/
theorem isNullOrBlank_removeServerViaSubid (h : Replaceable s) :
    isNullOrBlank (removeServerViaSubid s StartFragment.subid).selected = true := by
  rcases h with hblank | ⟨guid, config, hsel, hdec, hsub⟩
  · refine removeServerViaSubid_inv (P := fun s => isNullOrBlank s.selected = true) hblank ?_
    intro s key _ hs _ _
    rcases removeServer_selected s key with h | h <;> rw [h]
    · exact hs
    · rfl
  · have hmem : guid ∈ Assoc.keys s.servers := by
      rw [decodeServerConfig_eq (isBlank_of_decode hdec)] at hdec
      exact Assoc.mem_keys_of_lookup hdec
    have hnot : ¬isBlank StartFragment.subid = true := by decide
    rw [removeServerViaSubid, if_neg hnot, selected_foldl_removeIfOf _ hsub (.inr ⟨hmem, hsel, hdec⟩)]
    rfl

theorem fresh_removeServerViaSubid (h : Fresh env s) (subid : String) :
    Fresh env (removeServerViaSubid s subid) :=
  removeServerViaSubid_inv h fun _ key _ hs _ _ => fresh_removeServer hs key

theorem removeServerViaSubid_drawn (s : Store) (subid : String) : (removeServerViaSubid s subid).drawn = s.drawn :=
  removeServerViaSubid_inv (P := fun t => t.drawn = s.drawn) rfl fun t key _ ht _ _ => by
    rw [removeServer_drawn, ht]

end Removal

/-! ### Import of one link -/

section Import
variable {env : Env} {s : Store}

/-- The store with a new server under the next UUID. -/
def stored (env : Env) (s : Store) (config : ServerConfig) : Store :=
  { s with
    drawn := s.drawn + 1
    servers := Assoc.put s.servers (env.uuid s.drawn) { config with subscriptionId := StartFragment.subid }
    serverList := s.serverList ++ [env.uuid s.drawn]
    selected := if isNullOrBlank s.selected = true then some (env.uuid s.drawn) else s.selected }

theorem encodeServerConfig_new (h : Fresh env s) (config : ServerConfig) :
    encodeServerConfig env s "" { config with subscriptionId := StartFragment.subid } =
      (env.uuid s.drawn, stored env s config) := by
  have hblank : isBlank "" = true := rfl
  have hnot := h.serverList s.drawn (Nat.le_refl _)
  simp only [encodeServerConfig, hblank, ↓reduceIte, hnot, stored]
  split <;> rfl

/-- A link leaves the store alone, or is stored; then it may also become the selected server, when one of
    the subscription was selected before. -/
theorem importConfig_cases (h : Fresh env s) (str : List Char) (removed : Option ServerConfig) :
    (∃ e, importConfig env s str StartFragment.subid removed = (.error e, s)) ∨
      ∃ config r, resolve env str = .ok config ∧
        (importConfig env s str StartFragment.subid removed = (r, stored env s config) ∨
          (removed ≠ none ∧ importConfig env s str StartFragment.subid removed =
            (r, { stored env s config with selected := some (env.uuid s.drawn) }))) := by
  have hsub : StartFragment.subid ≠ "" := by decide
  unfold importConfig
  split
  · exact .inl ⟨_, rfl⟩
  · rw [if_neg fun h => hsub h.1]
    cases hr : resolve env str with
    | error e => exact .inl ⟨e, rfl⟩
    | ok config =>
      refine .inr ?_
      dsimp only
      rw [encodeServerConfig_new h]
      cases removed with
      | none => exact ⟨config, .ok (), rfl, .inl rfl⟩
      | some removed =>
        dsimp only
        split
        · exact ⟨config, _, rfl, .inl rfl⟩
        · exact ⟨config, _, rfl, .inr ⟨nofun, rfl⟩⟩
        · exact ⟨config, _, rfl, .inl rfl⟩

theorem uuid_ne (h : Fresh env s) {m n : Nat} (hmn : m ≠ n) : env.uuid m ≠ env.uuid n :=
  fun heq => hmn (h.injective m n heq)

theorem fresh_stored (h : Fresh env s) (config : ServerConfig) : Fresh env (stored env s config) where
  injective := h.injective
  notBlank := h.notBlank
  serverList := fun n hn hmem => by
    rcases List.mem_append.mp hmem with hmem | hmem
    · exact h.serverList n (Nat.le_of_succ_le hn) hmem
    · exact uuid_ne h (Nat.ne_of_gt hn) (List.mem_singleton.mp hmem)
  servers := fun n hn => by
    rw [stored, Assoc.lookup_put_ne (uuid_ne h (Nat.ne_of_gt hn))]
    exact h.servers n (Nat.le_of_succ_le hn)
  selected := fun n hn heq => by
    simp only [stored] at heq
    split at heq
    · exact uuid_ne h (Nat.ne_of_lt hn) (Option.some.inj heq)
    · exact h.selected n (Nat.le_of_succ_le hn) heq

theorem fresh_select (h : Fresh env s) (config : ServerConfig) :
    Fresh env { stored env s config with selected := some (env.uuid s.drawn) } :=
  { fresh_stored h config with
    selected := fun _ hn heq => uuid_ne h (Nat.ne_of_lt hn) (Option.some.inj heq) }

/-! ### A selection that can be replaced -/

/-- The selected server was stored from a link of the text after `start` UUIDs. -/
def Chosen (env : Env) (start : Nat) (text : List Char) (s : Store) : Prop :=
  ∃ n str config, start ≤ n ∧ n < s.drawn ∧ s.selected = some (env.uuid n) ∧ str ∈ Text.lines text ∧
    resolve env str = .ok config ∧
    s.servers.lookup (env.uuid n) = some { config with subscriptionId := StartFragment.subid }

/-- During an import: nothing was imported and nothing is selected, or the selected server was imported. -/
structure Importing (env : Env) (start : Nat) (text : List Char) (p : Nat × Store) : Prop where
  fresh : Fresh env p.2
  drawn : start ≤ p.2.drawn
  chosen : (p.1 = 0 ∧ isNullOrBlank p.2.selected = true) ∨ Chosen env start text p.2

theorem chosen_select {start : Nat} {text str : List Char} {config : ServerConfig} (hstart : start ≤ s.drawn)
    (hstr : str ∈ Text.lines text) (hr : resolve env str = .ok config) :
    Chosen env start text { stored env s config with selected := some (env.uuid s.drawn) } :=
  ⟨s.drawn, str, config, hstart, Nat.lt_succ_self _, rfl, hstr, hr, Assoc.lookup_put_self⟩

theorem chosen_stored {start : Nat} {text str : List Char} {config : ServerConfig} (h : Fresh env s)
    (hstart : start ≤ s.drawn) (hstr : str ∈ Text.lines text) (hr : resolve env str = .ok config)
    (hs : isNullOrBlank s.selected = true ∨ Chosen env start text s) :
    Chosen env start text (stored env s config) := by
  by_cases hblank : isNullOrBlank s.selected = true
  · have hsel : stored env s config = { stored env s config with selected := some (env.uuid s.drawn) } := by
      simp only [stored, hblank, ↓reduceIte]
    rw [hsel]
    exact chosen_select hstart hstr hr
  · obtain ⟨n, str', config', hn, hlt, hsel, hstr', hr', hlookup⟩ := hs.resolve_left hblank
    refine ⟨n, str', config', hn, Nat.lt_succ_of_lt hlt, ?_, hstr', hr', ?_⟩
    · simp only [stored]
      rw [if_neg hblank, hsel]
    · rw [stored, Assoc.lookup_put_ne (uuid_ne h (Nat.ne_of_lt hlt)), hlookup]

theorem importing_step {start : Nat} {text str : List Char} {p : Nat × Store} (h : Importing env start text p)
    (hstr : str ∈ Text.lines text) (removed : Option ServerConfig) :
    Importing env start text (importLine env StartFragment.subid removed p str) := by
  unfold importLine
  rcases importConfig_cases h.fresh str removed with ⟨e, heq⟩ | ⟨config, r, hr, heq | ⟨-, heq⟩⟩
  · rw [heq]
    exact h
  · have hchosen := chosen_stored h.fresh h.drawn hstr hr (h.chosen.imp_left And.right)
    have hfresh := fresh_stored h.fresh config
    rw [heq]
    cases r <;> exact ⟨hfresh, Nat.le_succ_of_le h.drawn, .inr hchosen⟩
  · have hchosen : Chosen env start text { stored env p.2 config with selected := some (env.uuid p.2.drawn) } :=
      chosen_select h.drawn hstr hr
    have hfresh := fresh_select h.fresh config
    rw [heq]
    cases r <;> exact ⟨hfresh, Nat.le_succ_of_le h.drawn, .inr hchosen⟩

theorem importing_run {start : Nat} {text : List Char} {p : Nat × Store} (h : Importing env start text p)
    (removed : Option ServerConfig) (strs : List (List Char)) (hstrs : ∀ str ∈ strs, str ∈ Text.lines text) :
    Importing env start text (strs.foldl (importLine env StartFragment.subid removed) p) := by
  induction strs generalizing p with
  | nil => exact h
  | cons str strs ih =>
    obtain ⟨hstr, hstrs⟩ := List.forall_mem_cons.mp hstrs
    exact ih (importing_step h hstr removed) hstrs

theorem replaceable_of_chosen {start : Nat} {text : List Char} (h : Fresh env s)
    (hs : isNullOrBlank s.selected = true ∨ Chosen env start text s) : Replaceable s := by
  rcases hs with hblank | ⟨n, _, config, -, -, hsel, -, -, hlookup⟩
  · exact .inl hblank
  · refine .inr ⟨env.uuid n, { config with subscriptionId := StartFragment.subid }, hsel, ?_, rfl⟩
    rw [decodeServerConfig_eq (h.notBlank n), hlookup]

/-- One attempt to import a text, from a selection that can be replaced. -/
theorem importing_batch (h : Fresh env s) (hs : Replaceable s) (text : List Char) :
    Importing env s.drawn text (AngConfigManager.importBatchConfig env s (some text) StartFragment.subid false) := by
  simp only [AngConfigManager.importBatchConfig, Bool.false_eq_true, ↓reduceIte]
  refine importing_run ⟨fresh_removeServerViaSubid h StartFragment.subid, ?_, .inl ⟨rfl, ?_⟩⟩ _ _ fun _ hstr => hstr
  · exact Nat.le_of_eq (removeServerViaSubid_drawn s _).symm
  · exact isNullOrBlank_removeServerViaSubid hs

/-- What was chosen in an attempt is new to the store and is what the next start reads. -/
theorem connected_of_chosen {s' : Store} {start : Nat} {server text : List Char} (h : Fresh env s)
    (hstart : s.drawn ≤ start) (htext : text = server ∨ text = env.decode server)
    (hc : Chosen env start text s') : Connected env s s' server := by
  obtain ⟨n, str, config, hn, -, hsel, hstr, hr, hlookup⟩ := hc
  refine ⟨env.uuid n, str, config, hsel, ?_, ?_, hr, ?_⟩
  · rw [decodeServerConfig_eq (h.notBlank n)]
    exact h.servers n (Nat.le_trans hstart hn)
  · rcases htext with rfl | rfl
    · exact .inl hstr
    · exact .inr hstr
  · rw [startV2rayPoint, hsel, Option.bind_some, decodeServerConfig_eq (h.notBlank n), hlookup]

/-! ### A selection from elsewhere -/

/-- The selected server is one of another subscription, or none that is stored. -/
structure Foreign (env : Env) (guid : String) (config : Option ServerConfig) (s : Store) : Prop where
  fresh : Fresh env s
  selected : s.selected = some guid
  decoded : decodeServerConfig s guid = config
  notBlank : isBlank guid = false
  subscription : ∀ c, config = some c → c.subscriptionId ≠ StartFragment.subid

theorem foreign_removeServerViaSubid {guid : String} {config : Option ServerConfig} (h : Foreign env guid config s) :
    Foreign env guid config (removeServerViaSubid s StartFragment.subid) := by
  refine removeServerViaSubid_inv h fun s key c hs hdec hsub => ?_
  have hne : guid ≠ key := by
    rintro rfl
    exact hs.subscription c (hs.decoded.symm.trans hdec) hsub
  obtain ⟨hsel, hlookup⟩ := removeServer_other (s := s) hne
  refine ⟨fresh_removeServer hs.fresh key, hsel hs.selected, ?_, hs.notBlank, hs.subscription⟩
  rw [decodeServerConfig_eq hs.notBlank, hlookup, ← decodeServerConfig_eq hs.notBlank, hs.decoded]

theorem foreign_stored {guid : String} {config : Option ServerConfig} (h : Foreign env guid config s)
    (c : ServerConfig) : Foreign env guid config (stored env s c) := by
  have hne : guid ≠ env.uuid s.drawn := by
    rintro rfl
    exact h.fresh.selected s.drawn (Nat.le_refl _) h.selected
  have hblank : ¬isNullOrBlank s.selected = true := by
    rw [h.selected, isNullOrBlank, h.notBlank]
    decide
  refine ⟨fresh_stored h.fresh c, ?_, ?_, h.notBlank, h.subscription⟩
  · simp only [stored]
    rw [if_neg hblank, h.selected]
  · rw [decodeServerConfig_eq h.notBlank, stored, Assoc.lookup_put_ne hne, ← decodeServerConfig_eq h.notBlank,
      h.decoded]

theorem foreign_run {guid : String} {config : Option ServerConfig} (strs : List (List Char)) {p : Nat × Store}
    (h : Foreign env guid config p.2) :
    Foreign env guid config (strs.foldl (importLine env StartFragment.subid none) p).2 := by
  induction strs generalizing p with
  | nil => exact h
  | cons str strs ih =>
    refine ih ?_
    unfold importLine
    rcases importConfig_cases h.fresh str none with ⟨e, heq⟩ | ⟨c, r, -, heq | ⟨hne, -⟩⟩
    · rw [heq]
      exact h
    · have hstored := foreign_stored h c
      rw [heq]
      cases r <;> exact hstored
    · exact absurd rfl hne

/-- One attempt to import a text leaves a selection from elsewhere alone. -/
theorem foreign_batch {guid : String} {config : Option ServerConfig} (h : Foreign env guid config s)
    (text : List Char) :
    Foreign env guid config
      (AngConfigManager.importBatchConfig env s (some text) StartFragment.subid false).2 := by
  have hnone : selectedOf s StartFragment.subid = none := by
    rw [selectedOf, h.selected, Option.getD_some, h.decoded]
    cases hc : config with
    | none => rfl
    | some c => simpa using h.subscription c hc
  have hremoved : (if StartFragment.subid ≠ "" ∧ (!false) = true then selectedOf s StartFragment.subid else none) =
      none := by
    rw [hnone]
    split <;> rfl
  simp only [AngConfigManager.importBatchConfig, hremoved, Bool.false_eq_true, ↓reduceIte]
  exact foreign_run _ (foreign_removeServerViaSubid h)

end Import

/-! ### The import of the chosen server -/

/-- The two attempts of `StartFragment.importBatchConfig`. -/
theorem importBatchConfig_cases {env : Env} {s s' : Store} {server : List Char} {count : Nat}
    (h : StartFragment.importBatchConfig env s (some server) = .ok (count, s')) :
    let first := AngConfigManager.importBatchConfig env s (some server) StartFragment.subid false
    (first.1 ≠ 0 ∧ first = (count, s')) ∨
      (first.1 = 0 ∧ AngConfigManager.importBatchConfig env first.2 (some (env.decode server)) StartFragment.subid
        false = (count, s')) := by
  have happend : decide (StartFragment.subid = "") = false := by decide
  simp only [StartFragment.importBatchConfig, happend] at h
  split at h
  · rename_i hzero
    exact .inr ⟨hzero, Except.ok.inj h⟩
  · rename_i hzero
    exact .inl ⟨hzero, Except.ok.inj h⟩

/-- After an import that counts at least one server, the chosen server is the one that the next start reads,
    exactly when the selection before it could be replaced. -/
theorem connected_iff (env : Env) (s s' : Store) (server : List Char) (count : Nat) (hfresh : Fresh env s)
    (himport : StartFragment.importBatchConfig env s (some server) = .ok (count, s')) (hcount : 0 < count) :
    Connected env s s' server ↔ Replaceable s := by
  constructor
  · intro hconn
    by_contra hnot
    simp only [Replaceable, not_or, not_exists, not_and, Bool.not_eq_true] at hnot
    obtain ⟨hblank, hsub⟩ := hnot
    cases hsel : s.selected with
    | none =>
      rw [hsel] at hblank
      cases hblank
    | some guid =>
      have hforeign : Foreign env guid (decodeServerConfig s guid) s :=
        ⟨hfresh, hsel, rfl, by rwa [hsel] at hblank, fun c hc => hsub guid c hsel hc⟩
      have hforeign' : Foreign env guid (decodeServerConfig s guid) s' := by
        rcases importBatchConfig_cases himport with ⟨-, heq⟩ | ⟨-, heq⟩
        · have hfirst := foreign_batch hforeign server
          rw [heq] at hfirst
          exact hfirst
        · have hsecond := foreign_batch (foreign_batch hforeign server) (env.decode server)
          rw [heq] at hsecond
          exact hsecond
      obtain ⟨guid', str, config, hsel', hnone, -, -, hstart⟩ := hconn
      -- the old selection is still there, and names no server that is new
      have heq : guid' = guid := Option.some.inj (hsel'.symm.trans hforeign'.selected)
      rw [startV2rayPoint, hforeign'.selected, Option.bind_some, hforeign'.decoded, ← heq, hnone] at hstart
      cases hstart
  · intro hrep
    have hfirst := importing_batch hfresh hrep server
    rcases importBatchConfig_cases himport with ⟨hpos, heq⟩ | ⟨-, heq⟩
    · rw [heq] at hfirst hpos
      exact connected_of_chosen hfresh (Nat.le_refl _) (.inl rfl) (hfirst.chosen.resolve_left fun h => hpos h.1)
    · have hrep' := replaceable_of_chosen hfirst.fresh (hfirst.chosen.imp_left And.right)
      have hsecond := importing_batch hfirst.fresh hrep' (env.decode server)
      rw [heq] at hsecond
      exact connected_of_chosen hfresh hfirst.drawn (.inr rfl)
        (hsecond.chosen.resolve_left fun h => Nat.ne_of_gt hcount h.1)

/-- A link, and the configuration that it names. -/
def link : List Char := "vless://3a3c3a0e@example.org:443?encryption=none#a".toList

def linkConfig : ServerConfig where
  configType := .vless
  outboundBean := some { protocol := "vless", settings := some { vnext := some [⟨"example.org", 443⟩] } }

/-- The first UUID; the later ones are longer. -/
def uuidChars : List Char :=
  ['0', 'f', '6', 'd', '3', 'c', '1', 'a', '9', 'b', '2', 'e', '4', 'd', '5', 'f',
   '8', 'a', '7', 'c', '6', 'b', '5', 'd', '4', 'e', '3', 'f', '2', 'a', '1', 'b']

/-- The code around the store, with a parser that knows the one link. -/
def linkEnv : Env where
  uuid n := String.ofList (uuidChars ++ List.replicate n '0')
  decode _ := []
  parse t str := if t = .vless ∧ str = link then .ok linkConfig else .error .exception

/-- A store with one server, which is selected. -/
def selecting (subscriptionId : String) : Store where
  selected := some "own"
  serverList := ["own"]
  servers := [("own", { linkConfig with subscriptionId })]
  subs := []
  drawn := 0

theorem length_uuid (n : Nat) : (linkEnv.uuid n).toList.length = 32 + n := by
  have hchars : uuidChars.length = 32 := rfl
  rw [linkEnv, String.toList_ofList, List.length_append, List.length_replicate, hchars]

theorem fresh_selecting (subscriptionId : String) : Fresh linkEnv (selecting subscriptionId) := by
  have hne : ∀ n, linkEnv.uuid n ≠ "own" := by
    intro n heq
    have hlen := length_uuid n
    rw [heq] at hlen
    have hown : "own".toList.length = 3 := rfl
    omega
  constructor
  · intro m n heq
    have hm := length_uuid m
    rw [heq, length_uuid n] at hm
    omega
  · intro n
    have hchars : Text.isBlank uuidChars = false := by decide
    rw [isBlank, linkEnv, String.toList_ofList, Text.isBlank, List.all_append, ← Text.isBlank, hchars, Bool.false_and]
  · intro n _ hmem
    exact hne n (List.mem_singleton.mp hmem)
  · intro n _
    rw [selecting, List.lookup_cons, beq_false_of_ne (hne n)]
    rfl
  · intro n _ heq
    exact hne n (Option.some.inj heq).symm

/-- The first attempt to import the link. -/
def afterImport (s : Store) : Nat × Store :=
  AngConfigManager.importBatchConfig linkEnv s (some link) StartFragment.subid false

theorem import_link {s : Store} (h : (afterImport s).1 = 1) :
    StartFragment.importBatchConfig linkEnv s (some link) = .ok (1, (afterImport s).2) := by
  have happend : decide (StartFragment.subid = "") = false := by decide
  simp only [StartFragment.importBatchConfig, happend]
  change (if (afterImport s).1 = 0 then _ else Except.ok (afterImport s)) = _
  rw [if_neg (by rw [h]; decide)]
  exact congrArg Except.ok (Prod.ext h rfl)

/-- The link is imported in place of a server of the same subscription, and is the one read next. -/
theorem connected_iff_own_subscription :
    Connected linkEnv (selecting StartFragment.subid) (afterImport (selecting StartFragment.subid)).2 link := by
  refine (connected_iff linkEnv _ _ link 1 (fresh_selecting _) (import_link ?_) Nat.one_pos).mpr (.inr ?_)
  · decide
  · exact ⟨"own", _, rfl, rfl, rfl⟩

/-- With a server of another subscription selected, the next start does not read the imported one. -/
theorem old_server_connected : ¬∀ env s s' server count, Fresh env s →
    StartFragment.importBatchConfig env s (some server) = .ok (count, s') → 0 < count → Connected env s s' server := by
  intro hall
  obtain ⟨guid, _, _, hsel, hnone, -⟩ :=
    hall linkEnv (selecting "") _ link 1 (fresh_selecting _) (import_link (by decide)) Nat.one_pos
  have hown : (afterImport (selecting "")).2.selected = some "own" := by decide
  rw [hown] at hsel
  cases hsel
  cases hnone

end ServerStore
end NicVpn
