import NicVpn.ProfileManager
import Mathlib.Data.List.Nodup

/-! The service starts OpenVPN with the profile that it was asked for, in every run where no profile is saved while the
    service reads the file, and a start is handled once the threads of the starts before it are done and their processes
    have read their configuration. -/

namespace NicVpn
namespace ProfileManager
open WrittenFile StepSystem

variable {β : Type}

/-- The main thread has the file open. -/
def MainPc.Reading : MainPc β → Prop
  | .readObject .. => True
  | .idle | .check .. | .loadVPNList .. | .setConnectedVpnProfile => False

instance : (pc : MainPc β) → Decidable pc.Reading
  | .readObject .. => isTrue trivial
  | .idle | .check .. | .loadVPNList .. | .setConnectedVpnProfile => isFalse id

/-- The main thread is in `get`. -/
def MainPc.InGet : MainPc β → Prop
  | .check .. | .loadVPNList .. | .readObject .. => True
  | .idle | .setConnectedVpnProfile => False

instance : (pc : MainPc β) → Decidable pc.InGet
  | .check .. | .loadVPNList .. | .readObject .. => isTrue trivial
  | .idle | .setConnectedVpnProfile => isFalse id

/-- The bytes that `readObject` has. -/
def MainPc.got : MainPc β → List β
  | .readObject _ _ got => got
  | .idle | .check .. | .loadVPNList .. | .setConnectedVpnProfile => []

/-- No profile is saved during `readObject`, and no start is handled while a thread is in `startOpenVPN` or a process has
    not read its configuration. -/
def Orderly (s : State β) : Event → Prop
  | .setTemporaryProfile _ => ¬s.service.main.Reading
  | .onStartCommand => s.service.threads = [] ∧ s.processes = []
  | _ => True

instance (s : State β) : (e : Event) → Decidable (Orderly s e)
  | .setTemporaryProfile _ => inferInstanceAs (Decidable ¬s.service.main.Reading)
  | .onStartCommand => decidable_of_iff (s.service.threads.isEmpty = true ∧ s.processes.isEmpty = true)
      (and_congr List.isEmpty_iff List.isEmpty_iff)
  | .write _ | .close | .appDies | .startVpnFromIntent _ | .startOpenVpn _ | .systemStart | .runMain _ | .runThread _
  | .threadFails .. | .endVpnService | .serviceDies | .readConfig _ | .processDies _ => isTrue trivial

/-! ### The invariant -/

section Steps
variable {C : Codec Profile β} {context : DeviceContext} {s t : State β} {p : Profile}

/-- `android.conf` is the configuration of the profile. -/
def IsConfig (context : DeviceContext) (config : Option (List Char)) (p : Profile) : Prop :=
  ∃ text, p.settings.getConfigFile context false = some text ∧ config = some text

/-- What a thread has done for the profile. -/
def StartPc.For (context : DeviceContext) (config : Option (List Char)) (p : Profile) : StartPc → Prop
  | .writeConfigFile => True
  | .getConfigFile q => q = p
  | .openManagementInterface => IsConfig context config p
  | .startProcess mProfile => IsConfig context config p ∧ mProfile = some p

/-- Configuration and management thread are those of the profile that was asked for. -/
def Started.Agrees (context : DeviceContext) (st : Started) (p : Profile) : Prop :=
  some p.mUuid = st.asked ∧ st.management = some p ∧ IsConfig context st.config p

/-- No start is under way. -/
def State.AtRest (s : State β) : Prop := s.service.threads = [] ∧ s.processes = []

/-- One thread is in `startOpenVPN`, and while it is the main thread leaves `mProfile` as it is. -/
def State.Starting (context : DeviceContext) (s : State β) : Prop :=
  ∃ pc p, s.service.threads = [⟨some p.mUuid, pc⟩] ∧ s.processes = [] ∧ p ∈ s.saved ∧ ¬s.service.main.InGet ∧
    s.service.mProfile = some p ∧ pc.For context s.config p

/-- One process is about to read `android.conf`. -/
def State.Launching (context : DeviceContext) (s : State β) : Prop :=
  ∃ p ∈ s.saved, s.service.threads = [] ∧ s.processes = [⟨some p.mUuid, some p⟩] ∧ ¬s.service.main.InGet ∧
    IsConfig context s.config p

/-- The process of the app has no profile but those it saved. -/
structure AppInv (C : Codec Profile β) (s : State β) : Prop where
  uuids : (s.saved.map (·.mUuid)).Nodup
  tmpprofile : ∀ p, s.tmpprofile = some p → p ∈ s.saved
  selected : ∀ p ∈ s.selected, p ∈ s.saved
  file : s.file = {} ∨ ∃ p ∈ s.saved, s.file.Holds C p

/-- The process of the service has none but those that the app saved, and starts what it was asked for. -/
structure ServiceInv (context : DeviceContext) (s : State β) : Prop where
  loaded : ∀ p, s.service.tmpprofile = some p → p ∈ s.saved
  reads : Reads s.file s.service.main.got
  start : s.AtRest ∨ s.Starting context ∨ s.Launching context
  started : ∀ st ∈ s.started, ∃ p ∈ s.saved, st.Agrees context p

structure Inv (C : Codec Profile β) (context : DeviceContext) (s : State β) : Prop where
  app : AppInv C s
  service : ServiceInv context s

theorem inv_initial : Inv C context ({} : State β) where
  app.uuids := List.nodup_nil
  app.tmpprofile p h := by cases h
  app.selected := List.forall_mem_nil _
  app.file := .inl rfl
  service.loaded p h := by cases h
  service.reads := reads_nil
  service.start := .inl ⟨rfl, rfl⟩
  service.started := List.forall_mem_nil _

/-- What is read of the file is a profile that was saved. -/
theorem AppInv.decode (h : AppInv C s) {got : List β} (hgot : Reads s.file got) {q : Profile}
    (hdecode : C.decode got = some q) : q ∈ s.saved := by
  obtain hfile | ⟨p, hp, hholds⟩ := h.file
  · rw [Reads, hfile] at hgot
    rw [List.prefix_nil.mp hgot, C.decode_nil] at hdecode
    cases hdecode
  · exact hholds.decode hgot hdecode ▸ hp

/-! ### Steps of the app -/

/-- A step of the app keeps what holds of the service, when it saves no less and lets a reader read on. -/
theorem ServiceInv.of_app (h : ServiceInv context s) (hservice : t.service = s.service) (hconfig : t.config = s.config)
    (hprocesses : t.processes = s.processes) (hstarted : t.started = s.started) (hsaved : ∀ q ∈ s.saved, q ∈ t.saved) (hreads : Reads t.file s.service.main.got) :
    ServiceInv context t where
  loaded q hq := hsaved q (h.loaded q (hservice ▸ hq))
  reads := hservice ▸ hreads
  start := by
    obtain hrest | ⟨pc, q, hthreads, hnone, hq, hmain, hprofile, hfor⟩ | ⟨q, hq, hthreads, hone, hmain, hconf⟩ := h.start
    · exact .inl ⟨hservice ▸ hrest.1, hprocesses.trans hrest.2⟩
    · exact .inr (.inl ⟨pc, q, hservice ▸ hthreads, hprocesses.trans hnone, hsaved q hq, hservice ▸ hmain,
        hservice ▸ hprofile, hconfig ▸ hfor⟩)
    · exact .inr (.inr ⟨q, hsaved q hq, hservice ▸ hthreads, hprocesses.trans hone, hservice ▸ hmain, hconfig ▸ hconf⟩)
  started st hst := by
    obtain ⟨q, hq, hagrees⟩ := h.started st (hstarted ▸ hst)
    exact ⟨q, hsaved q hq, hagrees⟩

theorem MainPc.got_of_not_reading {pc : MainPc β} (h : ¬pc.Reading) : pc.got = [] := by
  cases pc with
  | readObject => exact absurd trivial h
  | idle | check | loadVPNList | setConnectedVpnProfile => rfl

theorem Inv.setTemporaryProfile (h : Inv C context s) (hreading : ¬s.service.main.Reading)
    (hs : s.setTemporaryProfile C p = some t) : Inv C context t := by
  simp only [State.setTemporaryProfile] at hs
  split at hs
  · next hnew =>
    cases hs
    have hsaved : ∀ q ∈ s.saved, q ∈ s.saved ++ [{ p with mVersion := p.mVersion + 1 }] := fun q =>
      List.mem_append_left _
    refine ⟨⟨?_, ?_, fun q hq => hsaved q (h.app.selected q hq), .inr ⟨_, List.mem_append_right _ List.mem_cons_self,
      holds_create C _⟩⟩, h.service.of_app rfl rfl rfl rfl hsaved (MainPc.got_of_not_reading hreading ▸ reads_nil)⟩
    · rw [List.map_append, List.map_singleton]
      exact List.nodup_append.mpr ⟨h.app.uuids, List.nodup_singleton _, fun u hu v hv huv =>
        hnew.2 (List.mem_singleton.mp hv ▸ huv ▸ hu)⟩
    · intro q hq
      cases hq
      exact List.mem_append_right _ List.mem_cons_self
  · cases hs

theorem Inv.write {n : Nat} {file : File β} (h : Inv C context s) (hw : s.file.write n = some file) :
    Inv C context { s with file } where
  app := ⟨h.app.uuids, h.app.tmpprofile, h.app.selected, by
    obtain hfile | ⟨q, hq, hholds⟩ := h.app.file
    · rw [hfile] at hw
      cases hw
    · exact .inr ⟨q, hq, hholds.write hw⟩⟩
  service := h.service.of_app rfl rfl rfl rfl (fun _ => id) (h.service.reads.write hw)

theorem Inv.close {file : File β} (h : Inv C context s) (hc : s.file.close = some file) :
    Inv C context { s with file } where
  app := ⟨h.app.uuids, h.app.tmpprofile, h.app.selected, by
    obtain hfile | ⟨q, hq, hholds⟩ := h.app.file
    · rw [hfile] at hc
      cases hc
    · exact .inr ⟨q, hq, (hholds.close hc).holds⟩⟩
  service := h.service.of_app rfl rfl rfl rfl (fun _ => id) (h.service.reads.close hc)

theorem Inv.appDies (h : Inv C context s) : Inv C context s.appDies where
  app := ⟨h.app.uuids, fun q hq => (by cases hq), List.forall_mem_nil _, by
    obtain hfile | ⟨q, hq, hholds⟩ := h.app.file
    · exact .inl (congrArg File.abandon hfile)
    · exact .inr ⟨q, hq, hholds.abandon⟩⟩
  service := h.service.of_app rfl rfl rfl rfl (fun _ => id) h.service.reads

theorem Inv.startVpnFromIntent {uuid : Nat} (h : Inv C context s) (hs : s.startVpnFromIntent C uuid = some t) :
    Inv C context t := by
  unfold State.startVpnFromIntent at hs
  split at hs
  · cases hs
    have htmp : ∀ q, (if (lookup s.tmpprofile (some uuid)).isSome then s.tmpprofile
        else (s.file.content.bind C.decode).or s.tmpprofile) = some q → q ∈ s.saved := by
      intro q hq
      split at hq
      · exact h.app.tmpprofile q hq
      · obtain hload | ⟨-, hold⟩ := Option.or_eq_some_iff.mp hq
        · obtain ⟨content, hcontent, hdecode⟩ := Option.bind_eq_some_iff.mp hload
          exact h.app.decode (reads_of_content hcontent) hdecode
        · exact h.app.tmpprofile q hold
    refine ⟨⟨h.app.uuids, htmp, fun q hq => ?_, h.app.file⟩, h.service.of_app rfl rfl rfl rfl (fun _ => id) h.service.reads⟩
    obtain hq | hq := List.mem_append.mp hq
    · exact h.app.selected q hq
    · exact htmp q (Option.filter_eq_some_iff.mp (Option.mem_toList.mp hq)).1
  · cases hs

theorem Inv.startOpenVpn {k : Nat} (h : Inv C context s) (hs : s.startOpenVpn k = some t) : Inv C context t := by
  obtain ⟨q, -, rfl⟩ := Option.map_eq_some_iff.mp hs
  exact ⟨⟨h.app.uuids, h.app.tmpprofile, fun q hq => h.app.selected q (List.mem_of_mem_eraseIdx hq), h.app.file⟩,
    h.service.of_app rfl rfl rfl rfl (fun _ => id) h.service.reads⟩

/-! ### Steps of the service -/

theorem lookup_eq_some {tmp : Option Profile} {key : Option Nat} :
    lookup tmp key = some p ↔ tmp = some p ∧ some p.mUuid = key := by
  rw [lookup, Option.filter_eq_some_iff, decide_eq_true_iff]

/-- While the main thread is in `get`, no start is under way. -/
theorem ServiceInv.at_rest (h : ServiceInv context s) (hmain : s.service.main.InGet) : s.AtRest := by
  obtain hrest | ⟨_, _, -, -, -, hnot, -, -⟩ | ⟨_, -, -, -, hnot, -⟩ := h.start
  · exact hrest
  · exact absurd hmain hnot
  · exact absurd hmain hnot

theorem ServiceInv.get (h : ServiceInv context s) (hrest : s.AtRest) (asked : Extras) (tries : Nat) :
    ServiceInv context (s.get asked tries) where
  loaded := h.loaded
  reads := by
    have hgot : (if s.service.loaded then MainPc.check asked tries else .loadVPNList asked tries : MainPc β).got = [] := by
      split <;> rfl
    show Reads s.file (if s.service.loaded then MainPc.check asked tries else .loadVPNList asked tries : MainPc β).got
    rw [hgot]
    exact reads_nil
  start := .inl hrest
  started := h.started

theorem ServiceInv.loadedList (h : ServiceInv context s) (hrest : s.AtRest) {vp : Option Profile}
    (hvp : ∀ q, vp = some q → q ∈ s.saved) (asked : Extras) (tries : Nat) :
    ServiceInv context (s.loadedList asked tries vp) where
  loaded q hq := by
    obtain hnew | ⟨-, hold⟩ := Option.or_eq_some_iff.mp hq
    · exact hvp q hnew
    · exact h.loaded q hold
  reads := reads_nil
  start := .inl hrest
  started := h.started

theorem ServiceInv.gotProfile (h : ServiceInv context s) (hrest : s.AtRest) {asked : Option Nat}
    {profile : Option Profile} (hprofile : ∀ q, profile = some q → q ∈ s.saved ∧ some q.mUuid = asked) :
    ServiceInv context (s.gotProfile asked profile) := by
  cases profile with
  | none => exact ⟨h.loaded, reads_nil, .inl hrest, h.started⟩
  | some q =>
    obtain ⟨hq, rfl⟩ := hprofile q rfl
    have hone : s.service.threads ++ [⟨some q.mUuid, .writeConfigFile⟩] = [⟨some q.mUuid, .writeConfigFile⟩] := by
      rw [hrest.1, List.nil_append]
    exact ⟨h.loaded, reads_nil, .inr (.inl ⟨.writeConfigFile, q, hone, hrest.2, hq, id, rfl, trivial⟩), h.started⟩

theorem Inv.onStartCommand (h : Inv C context s) (hrest : s.AtRest) (hs : s.onStartCommand = some t) :
    Inv C context t := by
  unfold State.onStartCommand at hs
  split at hs
  · next intent intents _ _ =>
    have htaken : ServiceInv context { s with intents := intents } :=
      h.service.of_app rfl rfl rfl rfl (fun _ => id) h.service.reads
    have hget : ∀ asked tries, Inv C context (State.get { s with intents := intents } asked tries) := fun asked tries =>
      ⟨⟨h.app.uuids, h.app.tmpprofile, h.app.selected, h.app.file⟩, htaken.get hrest asked tries⟩
    simp only at hs
    split at hs
    · cases hs
      exact hget _ _
    · split at hs
      · cases hs
        exact hget _ _
      · cases hs
        exact hget _ _
  · cases hs

theorem AppInv.gotProfile (h : AppInv C s) (asked : Option Nat) (profile : Option Profile) :
    AppInv C (s.gotProfile asked profile) := ⟨h.uuids, h.tmpprofile, h.selected, h.file⟩

/-- What a step of the main thread can be: the loop ends, the list is to be loaded, there is no file, the file is
    opened, a profile is read, the file is at its end, bytes are read, or the profile is noted as the last one. -/
theorem runMain_cases {n : Nat} (hs : s.runMain C n = some t) :
    (∃ asked tries, s.service.main = .check asked tries ∧
      ((∃ q, lookup s.service.tmpprofile asked.profileUUID = some q ∧ asked.profileVersion ≤ q.mVersion) ∨ tries = 0) ∧
      t = s.gotProfile asked.profileUUID (lookup s.service.tmpprofile asked.profileUUID)) ∨
    (∃ asked tries, s.service.main = .check asked (tries + 1) ∧
      (∀ q, lookup s.service.tmpprofile asked.profileUUID = some q → q.mVersion < asked.profileVersion) ∧
      t = { s with service := { s.service with main := .loadVPNList asked tries } }) ∨
    (∃ asked tries, s.service.main = .loadVPNList asked tries ∧ s.file.content = none ∧
      t = s.loadedList asked tries none) ∨
    (∃ asked tries, s.service.main = .loadVPNList asked tries ∧ s.file.content ≠ none ∧
      t = { s with service := { s.service with main := .readObject asked tries [] } }) ∨
    (∃ asked tries got vp, s.service.main = .readObject asked tries got ∧ C.decode got = some vp ∧
      t = s.loadedList asked tries (some vp)) ∨
    (∃ asked tries got, s.service.main = .readObject asked tries got ∧ C.decode got = none ∧ s.file.atEnd got = true ∧
      t = s.loadedList asked tries none) ∨
    (∃ asked tries got, s.service.main = .readObject asked tries got ∧ C.decode got = none ∧ s.file.atEnd got = false ∧
      t = { s with service := { s.service with main := .readObject asked tries (s.file.read got n) } }) ∨
    (s.service.main = .setConnectedVpnProfile ∧ t = { s with
      lastConnectedProfile := s.service.mProfile.map (·.mUuid), service := { s.service with main := .idle } }) := by
  unfold State.runMain at hs
  split at hs
  · cases hs
  · next asked tries hmain =>
    simp only [Option.all_eq_true, decide_eq_true_eq] at hs
    split at hs
    · next hloop =>
      obtain ⟨tries, rfl⟩ := Nat.exists_eq_succ_of_ne_zero hloop.2.ne'
      cases hs
      exact .inr (.inl ⟨asked, tries, hmain, hloop.1, rfl⟩)
    · next hdone =>
      cases hs
      refine .inl ⟨asked, tries, hmain, ?_, rfl⟩
      cases hlookup : lookup s.service.tmpprofile asked.profileUUID with
      | none => exact .inr (by simp_all)
      | some q =>
        by_cases hversion : asked.profileVersion ≤ q.mVersion
        · exact .inl ⟨q, rfl, hversion⟩
        · exact .inr (by simp_all)
  · next asked tries hmain =>
    split at hs
    · next hcontent =>
      cases hs
      exact .inr (.inr (.inl ⟨asked, tries, hmain, hcontent, rfl⟩))
    · next hcontent =>
      cases hs
      exact .inr (.inr (.inr (.inl ⟨asked, tries, hmain, by rw [hcontent]; exact Option.some_ne_none _, rfl⟩)))
  · next asked tries got hmain =>
    split at hs
    · next vp hdecode =>
      cases hs
      exact .inr (.inr (.inr (.inr (.inl ⟨asked, tries, got, vp, hmain, hdecode, rfl⟩))))
    · next hdecode =>
      split at hs
      · next hend =>
        cases hs
        exact .inr (.inr (.inr (.inr (.inr (.inl ⟨asked, tries, got, hmain, hdecode, hend, rfl⟩)))))
      · next hend =>
        cases hs
        exact .inr (.inr (.inr (.inr (.inr (.inr (.inl
          ⟨asked, tries, got, hmain, hdecode, Bool.eq_false_iff.mpr hend, rfl⟩))))))
  · next hmain =>
    cases hs
    exact .inr (.inr (.inr (.inr (.inr (.inr (.inr ⟨hmain, rfl⟩))))))

theorem Inv.runMain {n : Nat} (h : Inv C context s) (hs : s.runMain C n = some t) : Inv C context t := by
  have happ : AppInv C s := h.app
  have hrest : ∀ {pc : MainPc β}, s.service.main = pc → pc.InGet → s.AtRest := fun hmain hget =>
    h.service.at_rest (hmain ▸ hget)
  have hnone : ∀ q, (none : Option Profile) = some q → q ∈ s.saved := fun q hq => by cases hq
  have hreads : ∀ {pc : MainPc β}, s.service.main = pc → Reads s.file pc.got := fun hmain => hmain ▸ h.service.reads
  obtain ⟨asked, tries, hmain, -, rfl⟩ | ⟨asked, tries, hmain, -, rfl⟩ | ⟨asked, tries, hmain, -, rfl⟩ |
    ⟨asked, tries, hmain, -, rfl⟩ | ⟨asked, tries, got, vp, hmain, hdecode, rfl⟩ |
    ⟨asked, tries, got, hmain, -, -, rfl⟩ | ⟨asked, tries, got, hmain, -, -, rfl⟩ | ⟨hmain, rfl⟩ := runMain_cases hs
  · refine ⟨happ.gotProfile _ _, h.service.gotProfile (hrest hmain trivial) fun q hq => ?_⟩
    obtain ⟨hq, huuid⟩ := lookup_eq_some.mp hq
    exact ⟨h.service.loaded q hq, huuid⟩
  · exact ⟨⟨happ.uuids, happ.tmpprofile, happ.selected, happ.file⟩,
      ⟨h.service.loaded, reads_nil, .inl (hrest hmain trivial), h.service.started⟩⟩
  · exact ⟨⟨happ.uuids, happ.tmpprofile, happ.selected, happ.file⟩,
      h.service.loadedList (hrest hmain trivial) hnone asked tries⟩
  · exact ⟨⟨happ.uuids, happ.tmpprofile, happ.selected, happ.file⟩,
      ⟨h.service.loaded, reads_nil, .inl (hrest hmain trivial), h.service.started⟩⟩
  · refine ⟨⟨happ.uuids, happ.tmpprofile, happ.selected, happ.file⟩,
      h.service.loadedList (hrest hmain trivial) (fun q hq => ?_) asked tries⟩
    exact Option.some.inj hq ▸ happ.decode (hreads hmain) hdecode
  · exact ⟨⟨happ.uuids, happ.tmpprofile, happ.selected, happ.file⟩,
      h.service.loadedList (hrest hmain trivial) hnone asked tries⟩
  · exact ⟨⟨happ.uuids, happ.tmpprofile, happ.selected, happ.file⟩,
      ⟨h.service.loaded, (hreads hmain).read n, .inl (hrest hmain trivial), h.service.started⟩⟩
  · refine ⟨⟨happ.uuids, happ.tmpprofile, happ.selected, happ.file⟩,
      ⟨h.service.loaded, reads_nil, ?_, h.service.started⟩⟩
    obtain hnostart | ⟨pc, p, hthreads, hnone, hp, -, hprofile, hfor⟩ | ⟨p, hp, hthreads, hone, -, hconf⟩ :=
      h.service.start
    · exact .inl hnostart
    · exact .inr (.inl ⟨pc, p, hthreads, hnone, hp, id, hprofile, hfor⟩)
    · exact .inr (.inr ⟨p, hp, hthreads, hone, id, hconf⟩)

/-- A thread is gone with the process, and a process lives on. -/
theorem Inv.serviceDies (h : Inv C context s) : Inv C context s.serviceDies where
  app := ⟨h.app.uuids, h.app.tmpprofile, h.app.selected, h.app.file⟩
  service := by
    refine ⟨fun q hq => (by cases hq), reads_nil, ?_, h.service.started⟩
    obtain hrest | ⟨_, _, -, hnone, -⟩ | ⟨p, hp, -, hone, -, hconf⟩ := h.service.start
    · exact .inl ⟨rfl, hrest.2⟩
    · exact .inl ⟨rfl, hnone⟩
    · exact .inr (.inr ⟨p, hp, rfl, hone, id, hconf⟩)

theorem Inv.endVpnService (h : Inv C context s) : Inv C context s.endVpnService where
  app := ⟨h.app.uuids, h.app.tmpprofile, h.app.selected, h.app.file⟩
  service := h.service.of_app rfl rfl rfl rfl (fun _ => id) h.service.reads

/-- A thread that there is works for the profile that is in the field as long as it runs. -/
theorem ServiceInv.thread (h : ServiceInv context s) {i : Nat} {thread : StartThread}
    (hi : s.service.threads[i]? = some thread) :
    i = 0 ∧ ∃ pc p, thread = ⟨some p.mUuid, pc⟩ ∧ s.service.threads = [⟨some p.mUuid, pc⟩] ∧ s.processes = [] ∧
      p ∈ s.saved ∧ ¬s.service.main.InGet ∧ s.service.mProfile = some p ∧ pc.For context s.config p := by
  obtain hrest | ⟨pc, p, hthreads, hstart⟩ | ⟨_, -, hnone, -⟩ := h.start
  · simp [hrest.1] at hi
  · cases i with
    | succ i => simp [hthreads] at hi
    | zero =>
      rw [hthreads, List.getElem?_cons_zero] at hi
      exact ⟨rfl, pc, p, (Option.some.inj hi).symm, hthreads, hstart⟩
  · simp [hnone] at hi

/-- A step of a thread keeps what it does not touch. -/
theorem Inv.of_thread (h : Inv C context s) (hsaved : t.saved = s.saved) (hfile : t.file = s.file)
    (htmp : t.tmpprofile = s.tmpprofile) (hselected : t.selected = s.selected)
    (hloaded : t.service.tmpprofile = s.service.tmpprofile) (hmain : t.service.main = s.service.main)
    (hstarted : t.started = s.started) (hstart : t.AtRest ∨ t.Starting context ∨ t.Launching context) :
    Inv C context t where
  app := ⟨hsaved ▸ h.app.uuids, hsaved ▸ htmp ▸ h.app.tmpprofile, hsaved ▸ hselected ▸ h.app.selected,
    hsaved ▸ hfile ▸ h.app.file⟩
  service := ⟨hsaved ▸ hloaded ▸ h.service.loaded, hfile ▸ hmain ▸ h.service.reads, hstart,
    hsaved ▸ hstarted ▸ h.service.started⟩

theorem Inv.runThread {i : Nat} (h : Inv C context s) (hs : s.runThread context i = some t) : Inv C context t := by
  unfold State.runThread at hs
  split at hs
  · cases hs
  · next asked hi =>
    obtain ⟨rfl, _, p, hthread, hthreads, hnone, hp, hmain, hprofile, -⟩ := h.service.thread hi
    cases hthread
    rw [hprofile] at hs
    cases hs
    exact h.of_thread rfl rfl rfl rfl rfl rfl rfl (.inr (.inl ⟨.getConfigFile p, p, by simp [hthreads], hnone, hp, hmain,
      hprofile, rfl⟩))
  · next asked q hi =>
    obtain ⟨rfl, _, p, hthread, hthreads, hnone, hp, hmain, hprofile, hfor⟩ := h.service.thread hi
    cases hthread
    obtain rfl : q = p := hfor
    split at hs
    · next text htext =>
      cases hs
      exact h.of_thread rfl rfl rfl rfl rfl rfl rfl (.inr (.inl ⟨.openManagementInterface, q, by simp [hthreads], hnone, hp,
        hmain, hprofile, text, htext, rfl⟩))
    · cases hs
      exact h.serviceDies
  · next asked hi =>
    obtain ⟨rfl, _, p, hthread, hthreads, hnone, hp, hmain, hprofile, hfor⟩ := h.service.thread hi
    cases hthread
    cases hs
    exact h.of_thread rfl rfl rfl rfl rfl rfl rfl (.inr (.inl ⟨.startProcess (some p), p, by simp [hthreads, hprofile],
      hnone, hp, hmain, hprofile, hfor, rfl⟩))
  · next asked mProfile hi =>
    obtain ⟨rfl, _, p, hthread, hthreads, hnone, hp, hmain, hprofile, hfor⟩ := h.service.thread hi
    cases hthread
    obtain ⟨hconf, rfl⟩ := hfor
    cases hs
    exact h.of_thread rfl rfl rfl rfl rfl rfl rfl (.inr (.inr ⟨p, hp, by simp [hthreads], by simp [hnone], hmain, hconf⟩))

theorem Inv.threadFails {i n : Nat} (h : Inv C context s) (hs : s.threadFails context i n = some t) :
    Inv C context t := by
  have hended : ∀ {thread config}, s.service.threads[i]? = some thread →
      t = { s.endVpnService with
        service := { s.service with threads := s.service.threads.eraseIdx i }, config := config } → Inv C context t := by
    rintro thread config hi rfl
    obtain ⟨rfl, _, _, -, hthreads, hnone, -⟩ := h.service.thread hi
    exact h.of_thread rfl rfl rfl rfl rfl rfl rfl (.inl ⟨by simp [hthreads], hnone⟩)
  simp only [State.threadFails] at hs
  split at hs
  · cases hs
  · next hi =>
    obtain ⟨_, -, ht⟩ := Option.map_eq_some_iff.mp hs
    exact hended hi ht.symm
  · next hi =>
    obtain ⟨_, -, ht⟩ := Option.map_eq_some_iff.mp hs
    exact hended hi ht.symm
  · next hi => exact hended hi (Option.some.inj hs).symm
  · cases hs

/-! ### Steps of OpenVPN -/

/-- A process that there is has its configuration to read. -/
theorem ServiceInv.process (h : ServiceInv context s) {i : Nat} {process : Process} (hi : s.processes[i]? = some process) :
    i = 0 ∧ s.service.threads = [] ∧ s.processes = [process] ∧ ∃ p ∈ s.saved, process = ⟨some p.mUuid, some p⟩ ∧
      IsConfig context s.config p := by
  obtain hrest | ⟨_, _, -, hnone, -⟩ | ⟨p, hp, hthreads, hone, -, hconf⟩ := h.start
  · simp [hrest.2] at hi
  · simp [hnone] at hi
  · cases i with
    | succ i => simp [hone] at hi
    | zero =>
      rw [hone, List.getElem?_cons_zero] at hi
      obtain rfl := Option.some.inj hi
      exact ⟨rfl, hthreads, hone, p, hp, rfl, hconf⟩

theorem Inv.processDies {i : Nat} (h : Inv C context s) (hs : s.processDies i = some t) : Inv C context t := by
  obtain ⟨process, hi, rfl⟩ := Option.map_eq_some_iff.mp hs
  obtain ⟨rfl, hthreads, hone, -⟩ := h.service.process hi
  exact h.of_thread rfl rfl rfl rfl rfl rfl rfl (.inl ⟨hthreads, by simp [hone]⟩)

theorem Inv.readConfig {i : Nat} (h : Inv C context s) (hs : s.readConfig i = some t) : Inv C context t := by
  obtain ⟨process, hi, rfl⟩ := Option.map_eq_some_iff.mp hs
  obtain ⟨rfl, hthreads, hone, p, hp, rfl, hconf⟩ := h.service.process hi
  refine ⟨⟨h.app.uuids, h.app.tmpprofile, h.app.selected, h.app.file⟩, ⟨h.service.loaded, h.service.reads,
    .inl ⟨hthreads, by simp [hone]⟩, fun st hst => ?_⟩⟩
  obtain hst | hst := List.mem_append.mp hst
  · exact h.service.started st hst
  · obtain rfl := List.mem_singleton.mp hst
    exact ⟨p, hp, rfl, rfl, hconf⟩

theorem Inv.step {e : Event} (h : Inv C context s) (horderly : Orderly s e) (hs : step C context s e = some t) :
    Inv C context t := by
  cases e with
  | setTemporaryProfile p => exact h.setTemporaryProfile horderly hs
  | write n =>
    obtain ⟨file, hfile, rfl⟩ := Option.map_eq_some_iff.mp hs
    exact h.write hfile
  | close =>
    obtain ⟨file, hfile, rfl⟩ := Option.map_eq_some_iff.mp hs
    exact h.close hfile
  | appDies =>
    cases hs
    exact h.appDies
  | startVpnFromIntent uuid => exact h.startVpnFromIntent hs
  | startOpenVpn k => exact h.startOpenVpn hs
  | systemStart =>
    cases hs
    exact ⟨⟨h.app.uuids, h.app.tmpprofile, h.app.selected, h.app.file⟩,
      h.service.of_app rfl rfl rfl rfl (fun _ => id) h.service.reads⟩
  | onStartCommand => exact h.onStartCommand horderly hs
  | runMain n => exact h.runMain hs
  | runThread i => exact h.runThread hs
  | threadFails i n => exact h.threadFails hs
  | endVpnService =>
    cases hs
    exact h.endVpnService
  | serviceDies =>
    cases hs
    exact h.serviceDies
  | readConfig i => exact h.readConfig hs
  | processDies i => exact h.processDies hs

theorem inv_of_reachable (h : Reachable (system C context) Orderly s) : Inv C context s :=
  h.inv (fun s hs => by cases hs; exact inv_initial) fun _ _ _ hi horderly hs => hi.step horderly hs

end Steps

/-! ### A start that is not disturbed -/

/-- While `get` runs nothing is saved, the process of the service lives on, and each read gets something. -/
def Undisturbed (s : State β) : Event → Prop
  | .setTemporaryProfile _ | .onStartCommand | .runThread _ | .threadFails .. | .serviceDies => False
  | .runMain n => s.service.main.InGet ∧ 0 < n
  | .write _ | .close | .appDies | .startVpnFromIntent _ | .startOpenVpn _ | .systemStart | .endVpnService | .readConfig _
  | .processDies _ => True

instance (s : State β) : (e : Event) → Decidable (Undisturbed s e)
  | .setTemporaryProfile _ | .onStartCommand | .runThread _ | .threadFails .. | .serviceDies => isFalse id
  | .runMain n => inferInstanceAs (Decidable (s.service.main.InGet ∧ 0 < n))
  | .write _ | .close | .appDies | .startVpnFromIntent _ | .startOpenVpn _ | .systemStart | .endVpnService | .readConfig _
  | .processDies _ => isTrue trivial

def Event.isRunMain : Event → Bool
  | .runMain _ => true
  | _ => false

section Delivery
variable {C : Codec Profile β} {context : DeviceContext} {s t : State β} {p : Profile}

/-- The profile is one that `get` returns. -/
def Extras.Match (asked : Extras) (p : Profile) : Prop :=
  asked.profileUUID = some p.mUuid ∧ asked.profileVersion ≤ p.mVersion

/-- `get` was asked for the profile, and has it or can load it. -/
def MainPc.Awaits (p : Profile) (service : Service β) : MainPc β → Prop
  | .idle | .setConnectedVpnProfile => service.mProfile = some p
  | .check asked tries => asked.Match p ∧ (service.tmpprofile = some p ∨ 0 < tries)
  | .loadVPNList asked _ => asked.Match p
  | .readObject asked _ _ => asked.Match p

structure Awaits (C : Codec Profile β) (p : Profile) (s : State β) : Prop where
  file : s.file.Complete C p
  reads : Reads s.file s.service.main.got
  only : ∀ q, s.service.tmpprofile = some q → q.mUuid = p.mUuid → q = p
  main : s.service.main.Awaits p s.service

/-- The steps that the main thread takes at most until `get` returns. -/
def stepsLeft (C : Codec Profile β) (p : Profile) (service : Service β) : Nat :=
  match service.main with
  | .idle | .setConnectedVpnProfile => 0
  | .check .. => if service.tmpprofile = some p then 1 else (C.encode p).length + 4
  | .loadVPNList .. => (C.encode p).length + 3
  | .readObject _ _ got => (C.encode p).length - got.length + 2

theorem lookup_of_match {asked : Extras} (h : asked.Match p) : lookup (some p) asked.profileUUID = some p :=
  lookup_eq_some.mpr ⟨rfl, h.1.symm⟩

theorem Awaits.at (h : Awaits C p s) {pc : MainPc β} (hmain : s.service.main = pc) : pc.Awaits p s.service :=
  hmain ▸ h.main

theorem Awaits.reads_at (h : Awaits C p s) {pc : MainPc β} (hmain : s.service.main = pc) : Reads s.file pc.got :=
  hmain ▸ h.reads

/-- A step of the main thread keeps the profile in reach and comes closer to the end of `get`. -/
theorem Awaits.runMain {n : Nat} (h : Awaits C p s) (hget : s.service.main.InGet) (hn : 0 < n) (hs : s.runMain C n = some t) :
    Awaits C p t ∧ stepsLeft C p t.service < stepsLeft C p s.service := by
  have hcontent : s.file.content = some (C.encode p) := congrArg File.content h.file
  obtain ⟨asked, tries, hmain, hdone, rfl⟩ | ⟨asked, tries, hmain, hloop, rfl⟩ | ⟨asked, tries, hmain, hfile, rfl⟩ |
    ⟨asked, tries, hmain, -, rfl⟩ | ⟨asked, tries, got, vp, hmain, hdecode, rfl⟩ |
    ⟨asked, tries, got, hmain, hdecode, hend, rfl⟩ | ⟨asked, tries, got, hmain, hdecode, hend, rfl⟩ | ⟨hmain, rfl⟩ :=
      runMain_cases hs
  · -- The loop ends: with the profile, as it is not over before a try.
    obtain ⟨hasked, htmp⟩ := h.at hmain
    have hlookup : lookup s.service.tmpprofile asked.profileUUID = some p := by
      obtain ⟨q, hq, -⟩ | rfl := hdone
      · obtain ⟨htmp, huuid⟩ := lookup_eq_some.mp hq
        rw [hq, h.only q htmp (Option.some.inj (huuid.trans hasked.1))]
      · obtain htmp | hpos := htmp
        · rw [htmp, lookup_of_match hasked]
        · exact absurd hpos (Nat.lt_irrefl 0)
    rw [hlookup]
    refine ⟨⟨h.file, reads_nil, h.only, rfl⟩, ?_⟩
    show 0 < stepsLeft C p s.service
    simp only [stepsLeft, hmain]
    split <;> omega
  · obtain ⟨hasked, -⟩ := h.at hmain
    refine ⟨⟨h.file, reads_nil, h.only, hasked⟩, ?_⟩
    have hother : s.service.tmpprofile ≠ some p := fun htmp =>
      absurd (hloop p (htmp ▸ lookup_of_match hasked)) (Nat.not_lt.mpr hasked.2)
    simp only [stepsLeft, hmain, if_neg hother]
    omega
  · rw [hcontent] at hfile
    cases hfile
  · refine ⟨⟨h.file, reads_nil, h.only, h.at hmain⟩, ?_⟩
    simp only [stepsLeft, hmain, List.length_nil]
    omega
  · obtain rfl : vp = p := h.file.holds.decode (h.reads_at hmain) hdecode
    refine ⟨⟨h.file, reads_nil, fun q hq _ => (Option.some.inj hq).symm, h.at hmain, .inl rfl⟩, ?_⟩
    have hloaded : stepsLeft C vp (s.loadedList asked tries (some vp)).service = 1 := if_pos rfl
    rw [hloaded]
    simp only [stepsLeft, hmain]
    omega
  · have hwhole : C.decode got = some p := h.file.decode (h.reads_at hmain) hend
    rw [hdecode] at hwhole
    cases hwhole
  · refine ⟨⟨h.file, (h.reads_at hmain).read n, h.only, h.at hmain⟩, ?_⟩
    have hmore : got.length < (C.encode p).length := by
      have := of_decide_eq_false hend
      rw [hcontent, Option.getD_some] at this
      omega
    have hread : (s.file.read got n).length = got.length + min n ((C.encode p).length - got.length) := by
      rw [File.read, hcontent, Option.getD_some, List.length_append, List.length_take, List.length_drop]
    simp only [stepsLeft, hmain, hread]
    omega
  · rw [hmain] at hget
    exact hget.elim

/-- A step of the app changes neither the service nor the file. -/
theorem Awaits.of_app (h : Awaits C p s) (hfile : t.file.Complete C p) (hservice : t.service = s.service) :
    Awaits C p t := by
  have heq : t.file = s.file := hfile.trans h.file.symm
  exact ⟨hfile, hservice ▸ heq ▸ h.reads, hservice ▸ h.only, hservice ▸ h.main⟩

theorem Awaits.step {e : Event} (h : Awaits C p s) (hundisturbed : Undisturbed s e)
    (hs : step C context s e = some t) :
    Awaits C p t ∧ stepsLeft C p t.service + (if e.isRunMain then 1 else 0) ≤ stepsLeft C p s.service := by
  have hsame : ∀ {u : State β}, u.file.Complete C p → u.service = s.service →
      Awaits C p u ∧ stepsLeft C p u.service + 0 ≤ stepsLeft C p s.service := fun hfile hservice =>
    ⟨h.of_app hfile hservice, by rw [hservice]; exact Nat.le_refl _⟩
  have hrest : s.file.rest = none := congrArg File.rest h.file
  cases e with
  | setTemporaryProfile | onStartCommand | runThread | threadFails | serviceDies => exact hundisturbed.elim
  | runMain n => exact h.runMain hundisturbed.1 hundisturbed.2 hs
  | write n =>
    obtain ⟨file, hfile, rfl⟩ := Option.map_eq_some_iff.mp hs
    simp [File.write, hrest] at hfile
  | close =>
    obtain ⟨file, hfile, rfl⟩ := Option.map_eq_some_iff.mp hs
    simp [File.close, hrest] at hfile
  | appDies =>
    cases hs
    exact hsame h.file.abandon rfl
  | startVpnFromIntent uuid =>
    have hs : s.startVpnFromIntent C uuid = some t := hs
    unfold State.startVpnFromIntent at hs
    split at hs
    · cases hs
      exact hsame h.file rfl
    · cases hs
  | startOpenVpn k =>
    obtain ⟨q, -, rfl⟩ := Option.map_eq_some_iff.mp hs
    exact hsame h.file rfl
  | systemStart | endVpnService =>
    cases hs
    exact hsame h.file rfl
  | readConfig i =>
    obtain ⟨_, -, rfl⟩ := Option.map_eq_some_iff.mp hs
    exact hsame h.file rfl
  | processDies i =>
    obtain ⟨_, -, rfl⟩ := Option.map_eq_some_iff.mp hs
    exact hsame h.file rfl

theorem Awaits.run {es : List Event} (h : Awaits C p s) (hrun : (system C context).run Undisturbed s es = some t) :
    Awaits C p t ∧ stepsLeft C p t.service + es.countP (·.isRunMain) ≤ stepsLeft C p s.service := by
  induction es generalizing s with
  | nil =>
    cases hrun
    exact ⟨h, Nat.le_refl _⟩
  | cons e es ih =>
    simp only [System.run] at hrun
    split at hrun
    · next hundisturbed =>
      obtain ⟨u, hu, hrun⟩ := Option.bind_eq_some_iff.mp hrun
      obtain ⟨hawaits, hstep⟩ := h.step hundisturbed hu
      obtain ⟨hend, hcount⟩ := ih hawaits hrun
      refine ⟨hend, ?_⟩
      rw [List.countP_cons]
      omega
    · cases hrun

/-- In `get` the main thread can always take a step. -/
theorem runMain_isSome (h : s.service.main.InGet) (n : Nat) : (s.runMain C n).isSome := by
  cases hmain : s.service.main with
  | idle | setConnectedVpnProfile =>
    rw [hmain] at h
    exact h.elim
  | check asked tries =>
    simp only [State.runMain, hmain]
    split <;> rfl
  | loadVPNList asked tries =>
    simp only [State.runMain, hmain]
    split <;> rfl
  | readObject asked tries got =>
    simp only [State.runMain, hmain]
    split
    · rfl
    · split <;> rfl

theorem Awaits.mProfile (h : Awaits C p s) (hmain : ¬s.service.main.InGet) : s.service.mProfile = some p := by
  cases hpc : s.service.main with
  | idle => exact h.at hpc
  | setConnectedVpnProfile => exact h.at hpc
  | check | loadVPNList | readObject =>
    rw [hpc] at hmain
    exact absurd trivial hmain

/-- The start of a profile that is saved as a whole gets that profile, in fewer steps than its file has bytes and four
    more, whatever the app does besides saving another one. -/
theorem get_delivers (h : Reachable (system C context) Orderly s) (hfile : s.file.Complete C p) {asked : Extras}
    {tries : Nat} (hmain : s.service.main = .check asked (tries + 1) ∨ s.service.main = .loadVPNList asked tries)
    (hasked : asked.Match p) {es : List Event} (hrun : (system C context).run Undisturbed s es = some t) :
    es.countP (·.isRunMain) ≤ (C.encode p).length + 4 ∧
      (¬t.service.main.InGet → t.service.mProfile = some p) ∧
      (t.service.main.InGet → ∀ n, (t.runMain C n).isSome) := by
  have hinv := inv_of_reachable h
  have hread : Reads s.file (C.encode p) := reads_of_content (congrArg File.content hfile)
  have hsaved : p ∈ s.saved := hinv.app.decode hread (C.decode_encode p)
  have hawaits : Awaits C p s := by
    refine ⟨hfile, hinv.service.reads, fun q hq huuid => ?_, ?_⟩
    · exact List.inj_on_of_nodup_map hinv.app.uuids (hinv.service.loaded q hq) hsaved huuid
    · obtain hmain | hmain := hmain
      · exact hmain ▸ ⟨hasked, .inr (Nat.succ_pos tries)⟩
      · exact hmain ▸ hasked
  have hleft : stepsLeft C p s.service ≤ (C.encode p).length + 4 := by
    obtain hmain | hmain := hmain
    · simp only [stepsLeft, hmain]
      split <;> omega
    · simp only [stepsLeft, hmain]
      omega
  obtain ⟨hend, hcount⟩ := hawaits.run hrun
  exact ⟨by omega, hend.mProfile, fun hget n => runMain_isSome hget n⟩

end Delivery

/-! ### One connection -/

/-- A profile as one unit and a mark behind it. -/
def marked : Codec Profile (Option Profile) where
  encode p := [some p, none]
  decode
    | some p :: none :: _ => some p
    | _ => none
  decode_nil := rfl
  decode_encode _ := rfl
  decode_cut p l hl hne := by
    obtain ⟨t, ht⟩ := hl
    match l with
    | [] => rfl
    | [_] =>
      obtain rfl := (List.cons.inj ht).1
      rfl
    | [_, _] =>
      obtain ⟨hhead, hrest⟩ := List.cons.inj ht
      obtain ⟨hmark, -⟩ := List.cons.inj hrest
      exact absurd (by rw [hhead, hmark]) hne
    | _ :: _ :: _ :: _ => simp at ht

def device : DeviceContext where
  cacheDir := "/data/cache".toList
  versionEnvString := "2.1".toList
  platformVersionEnvString := "30 11".toList

def frankfurt : Profile := { mUuid := 7, mVersion := 1, settings := { mName := "Frankfurt".toList } }

/-- A profile is saved, and the service is started for it. -/
def launch : List Event :=
  [.setTemporaryProfile { frankfurt with mVersion := 0 }, .write 2, .close, .startVpnFromIntent 7, .startOpenVpn 0,
    .onStartCommand]

/-- The service reads the file in two reads, and starts OpenVPN, which reads its configuration. -/
def connect : List Event :=
  launch ++ (List.replicate 6 (.runMain 1) ++ (List.replicate 4 (.runThread 0) ++ [.readConfig 0]))

def launched : State (Option Profile) where
  tmpprofile := some frankfurt
  file := { content := some (marked.encode frankfurt) }
  service := { main := .loadVPNList frankfurt.getStartServiceIntent 100 }
  saved := [frankfurt]

theorem get_delivers_launched : ∃ t : State (Option Profile),
    (system marked device).run Undisturbed launched (List.replicate 5 (.runMain 1)) = some t ∧
      ¬t.service.main.InGet ∧ t.service.mProfile = some frankfurt := by
  have hrun : (system marked device).run Orderly {} launch = some launched := rfl
  have hlaunched : Reachable (system marked device) Orderly launched := (Reachable.init rfl).run hrun
  obtain ⟨t, ht⟩ : ∃ t, (system marked device).run Undisturbed launched (List.replicate 5 (.runMain 1)) = some t :=
    ⟨_, rfl⟩
  have hreturned : ¬t.service.main.InGet := by
    cases ht
    exact id
  exact ⟨t, ht, hreturned, (get_delivers hlaunched rfl (.inr rfl) ⟨rfl, Nat.le_refl 1⟩ ht).2.1 hreturned⟩

end ProfileManager
end NicVpn
