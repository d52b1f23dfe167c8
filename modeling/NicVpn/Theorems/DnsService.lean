import NicVpn.DnsService
import Mathlib.Tactic.ByContra

/-! The helpers that `DnsService` leaves behind. `onDestroy` ends the thread and the helper that the
    fields of the last wrapper name, so it ends all of them in every run where a start finds no
    supervising thread still running. -/

namespace NicVpn
namespace DnsService
open State

/-- Without a service no helper runs: either there was none, or its `onDestroy` has returned. -/
def State.NoHelperLeft (s : State) : Prop := s.service = none → ∀ p, s.alive p = false

/-- A start finds every supervising thread of an earlier one ended. -/
def StartsAlone (s : State) : Event → Prop
  | .startCommand _ => s.AllEnded
  | _ => True

instance (s : State) : (e : Event) → Decidable (StartsAlone s e)
  | .startCommand _ => inferInstanceAs (Decidable s.AllEnded)
  | .started => isTrue trivial
  | .destroy => isTrue trivial
  | .destroyStep => isTrue trivial
  | .threadStep _ _ => isTrue trivial
  | .waitReturns _ _ => isTrue trivial
  | .waitInterrupted _ => isTrue trivial
  | .exit _ => isTrue trivial

/-! ### The invariant -/

/-- A thread that runs is the one in the fields of the service's wrapper, and so is its helper. -/
structure Inv (s : State) : Prop where
  beyond : ∀ t, s.nextThread ≤ t → (s.threads t).pc = .ended
  running : ∀ t, (s.threads t).pc ≠ .ended →
    (s.wrappers (s.threads t).kind).thread = t ∧ s.service.bind kindOf = some (s.threads t).kind
  waiting : ∀ t p, (s.threads t).pc = .waiting p → (s.wrappers (s.threads t).kind).process = some p
  owned : ∀ p, s.alive p = true → ∃ t, (s.threads t).pc = .waiting p
  destroying : ∀ k stage, s.main = .destroying k stage → s.service.bind kindOf = some k

theorem inv_initial : Inv State.initial where
  beyond := fun _ _ => rfl
  running := fun _ h => absurd rfl h
  waiting := nofun
  owned := nofun
  destroying := nofun

section Facts
variable {s : State}

theorem ne_ended_of_waiting {t p : Nat} (h : (s.threads t).pc = .waiting p) : (s.threads t).pc ≠ .ended := by
  rw [h]
  nofun

/-- At most one supervising thread runs. -/
theorem Inv.unique (h : Inv s) {t u : Nat} (ht : (s.threads t).pc ≠ .ended) (hu : (s.threads u).pc ≠ .ended) :
    t = u := by
  obtain ⟨htw, htk⟩ := h.running t ht
  obtain ⟨huw, huk⟩ := h.running u hu
  have hk : (s.threads t).kind = (s.threads u).kind := Option.some.inj (htk.symm.trans huk)
  rw [← htw, ← huw, hk]

theorem Inv.ended_of_allEnded (h : Inv s) (ha : s.AllEnded) (t : Nat) : (s.threads t).pc = .ended := by
  by_cases ht : t < s.nextThread
  · exact ha t ht
  · exact h.beyond t (by omega)

theorem Inv.dead_of_ended (h : Inv s) (he : ∀ t, (s.threads t).pc = .ended) (p : Nat) : s.alive p = false := by
  by_contra hp
  obtain ⟨t, ht⟩ := h.owned p (by simpa using hp)
  exact ne_ended_of_waiting ht (he t)

theorem Inv.noHelperLeft (h : Inv s) : s.NoHelperLeft := by
  intro hs
  refine h.dead_of_ended fun t => ?_
  by_contra ht
  have := (h.running t ht).2
  rw [hs] at this
  cases this

end Facts

/-! ### The main thread -/

section Main
variable {s s' : State}

theorem inv_onStartCommand (h : Inv s) (typeConn : Option String) (hm : s.main = .idle) (ha : s.AllEnded) :
    Inv (s.onStartCommand typeConn) := by
  have he := h.ended_of_allEnded ha
  have hd := h.dead_of_ended he
  unfold onStartCommand
  dsimp only
  cases hk : kindOf (typeConn.getD (s.service.getD "")) with
  | none =>
    refine ⟨h.beyond, fun t ht => absurd (he t) ht, fun t p ht => absurd (he t) (ne_ended_of_waiting ht),
      h.owned, fun k st hmain => ?_⟩
    cases hm.symm.trans hmain
  | some k =>
    refine ⟨?_, ?_, ?_, ?_, nofun⟩
    · intro t ht
      have hne : t ≠ s.nextThread := by
        simp only [State.start] at ht
        omega
      simp only [State.start, Function.update_of_ne hne]
      exact he t
    · intro t ht
      by_cases hne : t = s.nextThread
      · subst hne
        simp only [State.start, Function.update_self, Option.bind_some, hk, and_self]
      · simp only [State.start, Function.update_of_ne hne] at ht
        exact absurd (he t) ht
    · intro t p ht
      by_cases hne : t = s.nextThread
      · subst hne
        simp only [State.start, Function.update_self] at ht
        cases ht
      · simp only [State.start, Function.update_of_ne hne] at ht
        exact absurd (he t) (ne_ended_of_waiting ht)
    · intro p hp
      exact Bool.noConfusion (hp.symm.trans (hd p))

theorem inv_onDestroy (h : Inv s) {type : String} (hs : s.service = some type) (hm : s.main = .idle) :
    Inv (s.onDestroy type) := by
  unfold onDestroy
  cases hk : kindOf type with
  | some k =>
    refine ⟨h.beyond, h.running, h.waiting, h.owned, fun k' st hmain => ?_⟩
    cases hmain
    simp only [hs, Option.bind_some, hk]
  | none =>
    refine ⟨h.beyond, fun t ht => ?_, h.waiting, h.owned, fun k' st hmain => ?_⟩
    · have := (h.running t ht).2
      rw [hs, Option.bind_some, hk] at this
      cases this
    · cases hm.symm.trans hmain

/-- What `destroy` writes before it joins is in no part of the invariant, or only ends helpers. -/
theorem Inv.of_eq (h : Inv s) (hnext : s'.nextThread = s.nextThread)
    (hpc : ∀ t, (s'.threads t).pc = (s.threads t).pc ∧ (s'.threads t).kind = (s.threads t).kind)
    (hw : ∀ k, (s'.wrappers k).thread = (s.wrappers k).thread ∧ (s'.wrappers k).process = (s.wrappers k).process)
    (hal : ∀ p, s'.alive p = true → s.alive p = true) (hserv : s'.service = s.service)
    (hmain : ∀ k stage, s'.main = .destroying k stage → ∃ stage', s.main = .destroying k stage') : Inv s' := by
  refine ⟨?_, ?_, ?_, ?_, ?_⟩
  · intro t ht
    rw [(hpc t).1]
    exact h.beyond t (hnext ▸ ht)
  · intro t ht
    rw [(hpc t).1] at ht
    rw [(hpc t).2, (hw _).1, hserv]
    exact h.running t ht
  · intro t p ht
    rw [(hpc t).1] at ht
    rw [(hpc t).2, (hw _).2]
    exact h.waiting t p ht
  · intro p hp
    obtain ⟨t, ht⟩ := h.owned p (hal p hp)
    exact ⟨t, (hpc t).1.trans ht⟩
  · intro k stage hm
    obtain ⟨stage', hm'⟩ := hmain k stage hm
    rw [hserv]
    exact h.destroying k stage' hm'

theorem alive_of_kill {o : Option Nat} {p : Nat} (hp : (s.kill o).alive p = true) : s.alive p = true ∧ o ≠ some p := by
  cases o with
  | none => exact ⟨hp, nofun⟩
  | some q =>
    simp only [State.kill, Function.update_apply] at hp
    split at hp
    · cases hp
    · rename_i hne
      exact ⟨hp, fun heq => hne (Option.some.inj heq).symm⟩

theorem inv_destroyStep (h : Inv s) {k : Kind} {stage : Stage} (hm : s.main = .destroying k stage)
    (hs : s.destroyStep k stage = some s') : Inv s' := by
  cases stage with
  | setDestroyed =>
    cases hs
    refine h.of_eq rfl (fun _ => ⟨rfl, rfl⟩) (fun k' => ?_) (fun _ hp => hp) rfl fun _ _ hm' => ?_
    · simp only [setWrapper, Function.update_apply]
      split <;> simp_all
    · cases hm'
      exact ⟨_, hm⟩
  | interrupt =>
    cases hs
    refine h.of_eq rfl (fun t => ?_) (fun _ => ⟨rfl, rfl⟩) (fun _ hp => hp) rfl fun _ _ hm' => ?_
    · simp only [setThread, Function.update_apply]
      split <;> simp_all
    · cases hm'
      exact ⟨_, hm⟩
  | destroyProcess =>
    cases hs
    have hsame : (s.kill (s.wrappers k).process).threads = s.threads ∧
        (s.kill (s.wrappers k).process).wrappers = s.wrappers ∧
        (s.kill (s.wrappers k).process).nextThread = s.nextThread ∧
        (s.kill (s.wrappers k).process).service = s.service := by
      cases (s.wrappers k).process <;> exact ⟨rfl, rfl, rfl, rfl⟩
    obtain ⟨hth, hwr, hn, hsv⟩ := hsame
    refine h.of_eq hn (fun t => ?_) (fun k' => ?_) (fun p hp => (alive_of_kill hp).1) hsv fun _ _ hm' => ?_
    · simp only [hth, and_self]
    · simp only [hwr, and_self]
    · cases hm'
      exact ⟨_, hm⟩
  | join =>
    simp only [State.destroyStep, Option.ite_none_right_eq_some, Option.some.injEq] at hs
    obtain ⟨hend, rfl⟩ := hs
    -- the joined thread was the only one that could run
    refine ⟨h.beyond, fun t ht => ?_, h.waiting, h.owned, nofun⟩
    obtain ⟨hw, hk⟩ := h.running t ht
    rw [h.destroying k .join hm] at hk
    rw [← Option.some.inj hk] at hw
    rw [hw] at hend
    exact absurd hend ht

end Main

/-! ### The supervising threads -/

section Threads
variable {s s' : State}

/-- A thread moves on without a helper of its own. -/
theorem Inv.move (h : Inv s) {t : Nat} (pc : Pc) {rel : Bool} {f : Wrapper → Wrapper}
    (hf : ∀ w, (f w).thread = w.thread ∧ (f w).process = w.process)
    (hrun : (s.threads t).pc ≠ .ended) (hpc : ∀ p, pc ≠ .waiting p)
    (hown : ∀ p, s.alive p = true → (s.threads t).pc ≠ .waiting p) (k : Kind)
    (hs' : s' = (s.setWrapper k f).setThread t fun th => { th with pc, released := rel }) : Inv s' := by
  subst hs'
  have hw : ∀ k', ((s.setWrapper k f).wrappers k').thread = (s.wrappers k').thread ∧
      ((s.setWrapper k f).wrappers k').process = (s.wrappers k').process := by
    intro k'
    simp only [setWrapper, Function.update_apply]
    split
    · rename_i heq
      subst heq
      exact hf _
    · exact ⟨rfl, rfl⟩
  refine ⟨?_, ?_, ?_, ?_, h.destroying⟩
  · intro u hu
    have hne : u ≠ t := by
      rintro rfl
      exact hrun (h.beyond u hu)
    simp only [setThread, setWrapper, Function.update_of_ne hne]
    exact h.beyond u hu
  · intro u hu
    by_cases hut : u = t
    · subst hut
      simp only [setThread, Function.update_self]
      rw [(hw _).1]
      exact h.running u hrun
    · simp only [setThread, Function.update_of_ne hut] at hu ⊢
      rw [(hw _).1]
      exact h.running u hu
  · intro u p hu
    by_cases hut : u = t
    · subst hut
      simp only [setThread, Function.update_self] at hu
      exact absurd hu (hpc p)
    · simp only [setThread, Function.update_of_ne hut] at hu ⊢
      rw [(hw _).2]
      exact h.waiting u p hu
  · intro p hp
    obtain ⟨u, hu⟩ := h.owned p hp
    have hut : u ≠ t := by
      rintro rfl
      exact hown p hp hu
    refine ⟨u, ?_⟩
    simp only [setThread, setWrapper, Function.update_of_ne hut]
    exact hu

theorem setWrapper_id (s : State) (k : Kind) : s.setWrapper k id = s := by
  simp only [setWrapper, id, Function.update_eq_self]

/-- The thread starts a helper; no other thread runs, so no other helper does. -/
theorem inv_spawn (h : Inv s) {t : Nat} (hpc : (s.threads t).pc = .spawning) :
    Inv { (s.setWrapper (s.threads t).kind fun w => { w with process := some s.nextProcess }).setThread t fun th =>
        { th with pc := .waiting s.nextProcess, released := true } with
      alive := Function.update s.alive s.nextProcess true
      nextProcess := s.nextProcess + 1 } := by
  have hrun : (s.threads t).pc ≠ .ended := by
    rw [hpc]
    nofun
  have halone : ∀ u, u ≠ t → (s.threads u).pc = .ended := by
    intro u hu
    by_contra hne
    exact hu (h.unique hne hrun)
  have hdead : ∀ p, s.alive p = false := by
    intro p
    by_contra hp
    obtain ⟨u, hu⟩ := h.owned p (by simpa using hp)
    have hut : u = t := h.unique (ne_ended_of_waiting hu) hrun
    rw [hut, hpc] at hu
    cases hu
  refine ⟨?_, ?_, ?_, ?_, h.destroying⟩
  · intro u hu
    have hne : u ≠ t := by
      rintro rfl
      exact hrun (h.beyond u hu)
    simp only [setThread, setWrapper, Function.update_of_ne hne]
    exact h.beyond u hu
  · intro u hu
    by_cases hut : u = t
    · subst hut
      simp only [setThread, setWrapper, Function.update_self]
      exact h.running u hrun
    · simp only [setThread, setWrapper, Function.update_of_ne hut] at hu
      exact absurd (halone u hut) hu
  · intro u p hu
    by_cases hut : u = t
    · subst hut
      simp only [setThread, setWrapper, Function.update_self, Pc.waiting.injEq] at hu ⊢
      rw [hu]
    · simp only [setThread, setWrapper, Function.update_of_ne hut] at hu
      exact absurd (halone u hut) (ne_ended_of_waiting hu)
  · intro p hp
    simp only [Function.update_apply] at hp
    split at hp
    · rename_i heq
      subst heq
      exact ⟨t, by simp only [setThread, setWrapper, Function.update_self]⟩
    · exact Bool.noConfusion (hp.symm.trans (hdead p))

theorem inv_threadStep (h : Inv s) {t : Nat} {ok : Bool} (hs : s.threadStep t ok = some s') : Inv s' := by
  have hnot : ∀ {pc : Pc}, (s.threads t).pc = pc → (∀ p, pc ≠ .waiting p) →
      ∀ p, s.alive p = true → (s.threads t).pc ≠ .waiting p := by
    intro pc hpc hw p _
    rw [hpc]
    exact hw p
  unfold State.threadStep at hs
  dsimp only at hs
  split at hs
  · rename_i hpc
    cases hs
    exact h.move .loop (f := fun w => { w with isDestroyed := false }) (fun _ => ⟨rfl, rfl⟩) (by rw [hpc]; nofun) nofun
      (hnot hpc nofun) _ rfl
  · rename_i hpc
    split at hs
    · cases hs
      exact h.move .ended (f := id) (fun _ => ⟨rfl, rfl⟩) (by rw [hpc]; nofun) nofun (hnot hpc nofun) .dnstt
        (by rw [setWrapper_id]; rfl)
    · cases hs
      exact h.move .spawning (f := id) (fun _ => ⟨rfl, rfl⟩) (by rw [hpc]; nofun) nofun (hnot hpc nofun) .dnstt
        (by rw [setWrapper_id]; rfl)
  · rename_i hpc
    split at hs
    · cases hs
      exact inv_spawn h hpc
    · cases hs
      exact h.move .ended (f := id) (fun _ => ⟨rfl, rfl⟩) (by rw [hpc]; nofun) nofun (hnot hpc nofun) .dnstt
        (by rw [setWrapper_id]; rfl)
  · cases hs
  · cases hs

theorem inv_waitReturns (h : Inv s) {t : Nat} {quick : Bool} (hs : s.waitReturns t quick = some s') : Inv s' := by
  unfold State.waitReturns at hs
  split at hs
  · rename_i p hpc
    split at hs
    · cases hs
    · rename_i hdead
      have hown : ∀ q, s.alive q = true → (s.threads t).pc ≠ .waiting q := by
        intro q hq heq
        rw [hpc] at heq
        cases heq
        exact hdead hq
      cases quick with
      | true =>
        cases hs
        exact h.move .loop (f := fun w => { w with isDestroyed := true }) (fun _ => ⟨rfl, rfl⟩)
          (ne_ended_of_waiting hpc) nofun hown (s.threads t).kind
          (by simp only [setThread, setWrapper, Function.update_self, ↓reduceIte]; rfl)
      | false =>
        cases hs
        exact h.move .loop (f := id) (fun _ => ⟨rfl, rfl⟩) (ne_ended_of_waiting hpc) nofun hown .dnstt
          (by rw [setWrapper_id]; rfl)
  · cases hs

/-- An interrupted thread ends the helper in its field, which is its own. -/
theorem inv_waitInterrupted (h : Inv s) {t : Nat} (hs : s.waitInterrupted t = some s') : Inv s' := by
  unfold State.waitInterrupted at hs
  split at hs
  · rename_i p hpc
    simp only [Option.ite_none_right_eq_some, Option.some.injEq] at hs
    obtain ⟨-, rfl⟩ := hs
    rw [h.waiting t p hpc]
    have hkill : Inv { s with alive := Function.update s.alive p false } := by
      refine h.of_eq rfl (fun _ => ⟨rfl, rfl⟩) (fun _ => ⟨rfl, rfl⟩) (fun q hq => ?_) rfl fun k st hm => ⟨st, hm⟩
      exact (alive_of_kill (s := s) (o := some p) hq).1
    refine hkill.move .ended (f := id) (fun _ => ⟨rfl, rfl⟩) (ne_ended_of_waiting hpc) nofun ?_ .dnstt
      (by rw [setWrapper_id]; rfl)
    intro q hq heq
    have hne := (alive_of_kill (s := s) (o := some p) hq).2
    exact hne (congrArg some (Pc.waiting.inj (hpc.symm.trans heq)))
  · cases hs

end Threads

/-! ### Runs -/

theorem inv_step {s s' : State} {e : Event} (h : Inv s) (hc : StartsAlone s e) (hs : step s e = some s') : Inv s' := by
  cases e with
  | startCommand typeConn =>
    simp only [step, Option.ite_none_right_eq_some, Option.some.injEq] at hs
    obtain ⟨hm, rfl⟩ := hs
    exact inv_onStartCommand h typeConn hm hc
  | started =>
    simp only [step] at hs
    split at hs
    · simp only [Option.ite_none_right_eq_some, Option.some.injEq] at hs
      obtain ⟨-, rfl⟩ := hs
      exact h.of_eq rfl (fun _ => ⟨rfl, rfl⟩) (fun _ => ⟨rfl, rfl⟩) (fun _ hp => hp) rfl nofun
    · cases hs
  | destroy =>
    simp only [step] at hs
    split at hs
    · rename_i type hserv
      simp only [Option.ite_none_right_eq_some, Option.some.injEq] at hs
      obtain ⟨hm, rfl⟩ := hs
      exact inv_onDestroy h hserv hm
    · cases hs
  | destroyStep =>
    simp only [step] at hs
    split at hs
    · rename_i hm
      exact inv_destroyStep h hm hs
    · cases hs
  | threadStep t ok => exact inv_threadStep h hs
  | waitReturns t quick => exact inv_waitReturns h hs
  | waitInterrupted t => exact inv_waitInterrupted h hs
  | exit p =>
    cases hs
    exact h.of_eq rfl (fun _ => ⟨rfl, rfl⟩) (fun _ => ⟨rfl, rfl⟩)
      (fun q hq => (alive_of_kill (s := s) (o := some p) hq).1) rfl fun k st hm => ⟨st, hm⟩

/-- In every run whose starts find no supervising thread running, no helper outlives the service. -/
theorem no_helper_left (s : State) (h : StepSystem.Reachable system StartsAlone s) : s.NoHelperLeft :=
  (h.inv (fun _ h0 => h0 ▸ inv_initial) fun _ _ _ hi hc hs => inv_step hi hc hs).noHelperLeft

/-- FastDNS, whose helper exits and is started again, until the service is destroyed. -/
def aloneEvents : List Event :=
  [.startCommand (some "FastDNS"), .threadStep 0 true, .threadStep 0 true, .threadStep 0 true, .started, .exit 0,
   .waitReturns 0 false, .threadStep 0 true, .threadStep 0 true, .destroy, .destroyStep, .destroyStep, .destroyStep,
   .waitInterrupted 0, .destroyStep]

theorem no_helper_left_fastDns : ∃ s : State, (s.service.isNone && s.nextProcess == 2) = true ∧ s.NoHelperLeft := by
  obtain ⟨s, hs, hp⟩ := StepSystem.exists_reachable (S := system) (C := StartsAlone)
    (p := fun s => s.service.isNone && s.nextProcess == 2) (s := State.initial) rfl aloneEvents (by decide)
  exact ⟨s, hp, no_helper_left s hs⟩

/-- FastDNS and then DNSTT: `onDestroy` ends the second helper only. -/
theorem first_helper_left : ¬∀ s, StepSystem.Reachable system StepSystem.Any s → s.NoHelperLeft := by
  intro h
  obtain ⟨s, hs, hp⟩ := StepSystem.exists_reachable (S := system) (C := StepSystem.Any)
    (p := fun s => s.service.isNone && s.alive 0) (s := State.initial) rfl
    [.startCommand (some "FastDNS"), .threadStep 0 true, .threadStep 0 true, .threadStep 0 true, .started,
     .startCommand (some "DNSTT"), .threadStep 1 true, .threadStep 1 true, .threadStep 1 true, .started,
     .destroy, .destroyStep, .destroyStep, .destroyStep, .waitInterrupted 1, .destroyStep] (by decide)
  rw [Bool.and_eq_true, Option.isNone_iff_eq_none] at hp
  exact Bool.noConfusion (hp.2.symm.trans (h s hs hp.1 0))

end DnsService
end NicVpn
