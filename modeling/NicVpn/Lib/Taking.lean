/-! Computations that take entries out of a keyed store and may fail. For each of them: when it returns, when all its
    failures are caught ones, and which keys it leaves alone. Two computations in a row then need that the second one
    does not look at what the first one takes. -/

namespace Taking

variable {σ ε κ β α γ : Type}

/-- All failures of a result are caught ones. -/
def Caught (caught : ε → Prop) (r : Except ε α) : Prop := ∀ e, r = .error e → caught e

/-- What a result returns has a property. -/
def Yields (P : α → Prop) (r : Except ε α) : Prop := ∀ a, r = .ok a → P a

/-- A property of the store that depends on the entries of `names` only. -/
def Local (entry : σ → κ → β) (names : List κ) (P : σ → Prop) : Prop :=
  ∀ s t, (∀ n ∈ names, entry s n = entry t n) → (P s ↔ P t)

/-- `m` returns exactly if `V` holds, its failures are caught exactly if `D` holds, it changes entries that it `takes`
    only, and `V` and `D` look at entries of `looks` only. -/
structure Spec (entry : σ → κ → β) (caught : ε → Prop) (takes : κ → Prop) (looks : List κ)
    (m : StateT σ (Except ε) α) (V D : σ → Prop) : Prop where
  ok_iff : ∀ s, (∃ r, m s = .ok r) ↔ V s
  caught_iff : ∀ s, Caught caught (m s) ↔ D s
  frame : ∀ s a t, m s = .ok (a, t) → ∀ n, ¬takes n → entry t n = entry s n
  localV : Local entry looks V
  localD : Local entry looks D

section Rules
variable {entry : σ → κ → β} {caught : ε → Prop} {takes takes' : κ → Prop} {looks looks' : List κ}
  {V V' D D' : σ → Prop}

theorem caught_ok (a : α) : Caught caught (.ok a : Except ε α) := nofun

theorem Caught.bind {r : Except ε α} {f : α → Except ε γ} (hr : Caught caught r)
    (hf : ∀ a, r = .ok a → Caught caught (f a)) : Caught caught (r >>= f) := by
  cases r with
  | error e => exact fun e' he => hr e' (by cases he; rfl)
  | ok a => exact hf a rfl

theorem ok_bind_iff {r : Except ε α} {f : α → Except ε γ} :
    (∃ c, (r >>= f) = .ok c) ↔ ∃ a, r = .ok a ∧ ∃ c, f a = .ok c := by
  cases r with
  | error e =>
    constructor
    · rintro ⟨c, hc⟩
      cases hc
    · rintro ⟨a, ha, -⟩
      cases ha
  | ok a =>
    constructor
    · rintro ⟨c, hc⟩
      exact ⟨a, rfl, c, hc⟩
    · rintro ⟨a', ha, c, hc⟩
      cases ha
      exact ⟨c, hc⟩

theorem caught_bind_iff {r : Except ε α} {f : α → Except ε γ} :
    Caught caught (r >>= f) ↔ Caught caught r ∧ ∀ a, r = .ok a → Caught caught (f a) := by
  cases r with
  | error e =>
    constructor
    · intro h
      refine ⟨fun e' he => h e' ?_, nofun⟩
      cases he
      rfl
    · rintro ⟨h, -⟩ e' he
      refine h e' ?_
      cases he
      rfl
  | ok a =>
    constructor
    · intro h
      refine ⟨nofun, fun a' ha => ?_⟩
      cases ha
      exact h
    · rintro ⟨-, h⟩
      exact h a rfl

theorem Yields.ok {P : α → Prop} {a : α} (h : P a) : Yields P (.ok a : Except ε α) := by
  intro b hb
  cases hb
  exact h

theorem Yields.error {P : α → Prop} (e : ε) : Yields P (.error e : Except ε α) := nofun

theorem Yields.any (r : Except ε α) : Yields (fun _ => True) r := fun _ _ => trivial

theorem Yields.bind {P : γ → Prop} {Q : α → Prop} {r : Except ε α} {f : α → Except ε γ} (hr : Yields Q r)
    (hf : ∀ a, Q a → Yields P (f a)) : Yields P (r >>= f) := by
  cases r with
  | error e => exact Yields.error e
  | ok a => exact hf a (hr a rfl)

theorem Yields.foldlM {P : γ → Prop} {f : γ → α → Except ε γ} (h : ∀ c a, P c → Yields P (f c a)) (l : List α) {c : γ}
    (hc : P c) : Yields P (l.foldlM f c) := by
  induction l generalizing c with
  | nil => exact Yields.ok hc
  | cons a l ih =>
    rw [List.foldlM_cons]
    exact Yields.bind (h c a hc) fun c' hc' => ih hc'

theorem run_bind_eq_ok {m : StateT σ (Except ε) α} {f : α → StateT σ (Except ε) γ} {s : σ} {r : γ × σ} :
    (m >>= f) s = .ok r ↔ ∃ a t, m s = .ok (a, t) ∧ f a t = .ok r := by
  have hrun : (m >>= f) s = m s >>= fun p => f p.1 p.2 := rfl
  rw [hrun]
  cases hm : m s with
  | error e =>
    constructor
    · intro h
      cases h
    · rintro ⟨a, t, h, -⟩
      cases h
  | ok p =>
    constructor
    · intro h
      exact ⟨p.1, p.2, rfl, h⟩
    · rintro ⟨a, t, h, hf⟩
      cases h
      exact hf

theorem eq_ok_of_lift {r : Except ε α} {s t : σ} {a : α} (h : (liftM r : StateT σ (Except ε) α) s = .ok (a, t)) :
    r = .ok a := by
  cases r with
  | error e => cases h
  | ok b =>
    cases h
    rfl

theorem Local.mono (h : Local entry looks V) (hsub : ∀ n ∈ looks, n ∈ looks') : Local entry looks' V :=
  fun s t hst => h s t fun n hn => hst n (hsub n hn)

theorem Local.and (hV : Local entry looks V) (hV' : Local entry looks V') : Local entry looks fun s => V s ∧ V' s :=
  fun s t hst => and_congr (hV s t hst) (hV' s t hst)

theorem Local.imp (hV : Local entry looks V) (hD : Local entry looks D) : Local entry looks fun s => V s → D s :=
  fun s t hst => imp_congr (hV s t hst) (hD s t hst)

theorem Local.true : Local entry looks fun _ => True := fun _ _ _ => Iff.rfl

/-- The same with other names for the two conditions, and with more entries. -/
theorem Spec.weaken {m : StateT σ (Except ε) α} (h : Spec entry caught takes looks m V D)
    (htakes : ∀ n, takes n → takes' n) (hlooks : ∀ n ∈ looks, n ∈ looks') (hV : ∀ s, V s ↔ V' s)
    (hD : ∀ s, D s ↔ D' s) : Spec entry caught takes' looks' m V' D' where
  ok_iff s := (h.ok_iff s).trans (hV s)
  caught_iff s := (h.caught_iff s).trans (hD s)
  frame s a t hs n hn := h.frame s a t hs n fun htake => hn (htakes n htake)
  localV s t hst := (hV s).symm.trans ((h.localV.mono hlooks s t hst).trans (hV t))
  localD s t hst := (hD s).symm.trans ((h.localD.mono hlooks s t hst).trans (hD t))

/-- A result that does not depend on the store. -/
theorem Spec.lift (r : Except ε α) :
    Spec entry caught (fun _ => False) [] (liftM r : StateT σ (Except ε) α) (fun _ => ∃ a, r = .ok a)
      fun _ => Caught caught r := by
  cases r with
  | error e =>
    refine ⟨fun s => ⟨nofun, nofun⟩, fun s => ?_, nofun, fun _ _ _ => Iff.rfl, fun _ _ _ => Iff.rfl⟩
    exact ⟨fun h e' he => h e' (by cases he; rfl), fun h e' he => h e' (by cases he; rfl)⟩
  | ok a =>
    refine ⟨fun s => ?_, fun s => ?_, fun s b t hs n _ => ?_, fun _ _ _ => Iff.rfl, fun _ _ _ => Iff.rfl⟩
    · exact ⟨fun _ => ⟨a, rfl⟩, fun _ => ⟨(a, s), rfl⟩⟩
    · exact ⟨fun _ => caught_ok a, fun _ => caught_ok (a, s)⟩
    · cases hs
      rfl

theorem Spec.pure (a : α) :
    Spec entry caught (fun _ => False) [] (Pure.pure a : StateT σ (Except ε) α) (fun _ => True) fun _ => True := by
  refine (Spec.lift (.ok a)).weaken (fun _ => id) (fun _ => id) (fun _ => ?_) fun _ => ?_
  · exact ⟨fun _ => trivial, fun _ => ⟨a, rfl⟩⟩
  · exact ⟨fun _ => trivial, fun _ => caught_ok a⟩

section Bind
variable {m : StateT σ (Except ε) α} {f : α → StateT σ (Except ε) γ} {Vf Df : α → σ → Prop}

/-- Two computations in a row, where the second one does not look at what the first one takes. What the value of the
    first one means for the second is told by `V'` and `D'`, in terms of the store at the beginning. -/
theorem Spec.bind_value (hm : Spec entry caught takes looks m V D)
    (hf : ∀ a, Spec entry caught takes' looks' (f a) (Vf a) (Df a)) (hdisj : ∀ n ∈ looks', ¬takes n)
    (hV : ∀ s a t, m s = .ok (a, t) → (Vf a s ↔ V' s)) (hD : ∀ s a t, m s = .ok (a, t) → (Df a s ↔ D' s))
    (hlocalV : Local entry (looks ++ looks') V') (hlocalD : Local entry (looks ++ looks') D') :
    Spec entry caught (fun n => takes n ∨ takes' n) (looks ++ looks') (m >>= f) (fun s => V s ∧ V' s)
      fun s => D s ∧ (V s → D' s) := by
  have hentry : ∀ s a t, m s = .ok (a, t) → ∀ n ∈ looks', entry t n = entry s n := fun s a t hs n hn =>
    hm.frame s a t hs n (hdisj n hn)
  constructor
  · intro s
    constructor
    · intro hok
      obtain ⟨⟨a, t⟩, hs, hft⟩ := ok_bind_iff.mp hok
      have hVf : Vf a s := ((hf a).localV t s (hentry s a t hs)).mp (((hf a).ok_iff t).mp hft)
      exact ⟨(hm.ok_iff s).mp ⟨_, hs⟩, (hV s a t hs).mp hVf⟩
    · rintro ⟨hVs, hV's⟩
      obtain ⟨⟨a, t⟩, hs⟩ := (hm.ok_iff s).mpr hVs
      have hVf : Vf a t := ((hf a).localV t s (hentry s a t hs)).mpr ((hV s a t hs).mpr hV's)
      exact ok_bind_iff.mpr ⟨(a, t), hs, ((hf a).ok_iff t).mpr hVf⟩
  · intro s
    refine caught_bind_iff.trans (and_congr (hm.caught_iff s) ?_)
    constructor
    · intro h hVs
      obtain ⟨⟨a, t⟩, hs⟩ := (hm.ok_iff s).mpr hVs
      have hDf : Df a s := ((hf a).localD t s (hentry s a t hs)).mp (((hf a).caught_iff t).mp (h (a, t) hs))
      exact (hD s a t hs).mp hDf
    · intro h ⟨a, t⟩ hs
      have hDf : Df a s := (hD s a t hs).mpr (h ((hm.ok_iff s).mp ⟨_, hs⟩))
      exact ((hf a).caught_iff t).mpr (((hf a).localD t s (hentry s a t hs)).mpr hDf)
  · intro s c u hs n hn
    obtain ⟨hn, hn'⟩ := not_or.mp hn
    obtain ⟨a, t, hst, hu⟩ := run_bind_eq_ok.mp hs
    exact ((hf a).frame t c u hu n hn').trans (hm.frame s a t hst n hn)
  · exact (hm.localV.mono fun n hn => List.mem_append_left _ hn).and hlocalV
  · exact (hm.localD.mono fun n hn => List.mem_append_left _ hn).and
      ((hm.localV.mono fun n hn => List.mem_append_left _ hn).imp hlocalD)

/-- The same where the value does not matter. -/
theorem Spec.bind [Nonempty α] (hm : Spec entry caught takes looks m V D)
    (hf : ∀ a, Spec entry caught takes' looks' (f a) V' D') (hdisj : ∀ n ∈ looks', ¬takes n) :
    Spec entry caught (fun n => takes n ∨ takes' n) (looks ++ looks') (m >>= f) (fun s => V s ∧ V' s)
      fun s => D s ∧ (V s → D' s) := by
  obtain ⟨hlocalV, hlocalD⟩ : Local entry looks' V' ∧ Local entry looks' D' :=
    Nonempty.elim ‹Nonempty α› fun a => ⟨(hf a).localV, (hf a).localD⟩
  exact Spec.bind_value hm hf hdisj (fun _ _ _ _ => Iff.rfl) (fun _ _ _ _ => Iff.rfl)
    (hlocalV.mono fun n hn => List.mem_append_right _ hn) (hlocalD.mono fun n hn => List.mem_append_right _ hn)

end Bind

/-! ### Lists -/

/-- No element is harmful up to the first one that is not accepted. -/
def Guarded (accepted harmful : α → Prop) : List α → Prop
  | [] => True
  | a :: l => ¬harmful a ∧ (accepted a → Guarded accepted harmful l)

section Lists
variable {accepted harmful : α → Prop}

theorem caught_foldlM_iff {f : γ → α → Except ε γ} {l : List α}
    (hok : ∀ c, ∀ a ∈ l, (∃ c', f c a = .ok c') ↔ accepted a ∧ ¬harmful a)
    (hcaught : ∀ c, ∀ a ∈ l, Caught caught (f c a) ↔ ¬harmful a) (c : γ) :
    Caught caught (l.foldlM f c) ↔ Guarded accepted harmful l := by
  induction l generalizing c with
  | nil => exact ⟨fun _ => trivial, fun _ => caught_ok c⟩
  | cons a l ih =>
    have ih := ih (fun c a ha => hok c a (List.mem_cons_of_mem _ ha)) fun c a ha => hcaught c a (List.mem_cons_of_mem _ ha)
    rw [List.foldlM_cons, caught_bind_iff, hcaught c a List.mem_cons_self]
    refine and_congr_right fun hharm => ?_
    constructor
    · intro h hacc
      obtain ⟨c', hc'⟩ := (hok c a List.mem_cons_self).mpr ⟨hacc, hharm⟩
      exact (ih c').mp (h c' hc')
    · intro h c' hc'
      exact (ih c').mpr (h ((hok c a List.mem_cons_self).mp ⟨c', hc'⟩).1)

theorem caught_mapM_iff {f : α → Except ε γ} {l : List α} (hok : ∀ a ∈ l, (∃ c, f a = .ok c) ↔ accepted a ∧ ¬harmful a)
    (hcaught : ∀ a ∈ l, Caught caught (f a) ↔ ¬harmful a) :
    Caught caught (l.mapM f) ↔ Guarded accepted harmful l := by
  induction l with
  | nil => exact ⟨fun _ => trivial, fun _ => caught_ok []⟩
  | cons a l ih =>
    have ih := ih (fun a ha => hok a (List.mem_cons_of_mem _ ha)) fun a ha => hcaught a (List.mem_cons_of_mem _ ha)
    have hrest : ∀ c : γ, Caught caught (l.mapM f >>= fun cs => .ok (c :: cs)) ↔ Caught caught (l.mapM f) := fun c =>
      caught_bind_iff.trans ⟨And.left, fun h => ⟨h, fun _ _ => caught_ok _⟩⟩
    rw [List.mapM_cons, caught_bind_iff, hcaught a List.mem_cons_self]
    refine and_congr_right fun hharm => ?_
    constructor
    · intro h hacc
      obtain ⟨c, hc⟩ := (hok a List.mem_cons_self).mpr ⟨hacc, hharm⟩
      exact ih.mp ((hrest c).mp (h c hc))
    · intro h c hc
      exact (hrest c).mpr (ih.mpr (h ((hok a List.mem_cons_self).mp ⟨c, hc⟩).1))

theorem caught_mapM {f : α → Except ε γ} {l : List α} (h : ∀ a ∈ l, Caught caught (f a)) :
    Caught caught (l.mapM f) := by
  induction l with
  | nil => exact caught_ok _
  | cons a l ih =>
    obtain ⟨ha, hl⟩ := List.forall_mem_cons.mp h
    rw [List.mapM_cons]
    exact Caught.bind ha fun _ _ => Caught.bind (ih hl) fun _ _ => caught_ok _

theorem mapM_ok_iff {f : α → Except ε γ} (l : List α) : (∃ cs, l.mapM f = .ok cs) ↔ ∀ a ∈ l, ∃ c, f a = .ok c := by
  induction l with
  | nil => exact ⟨fun _ => nofun, fun _ => ⟨[], rfl⟩⟩
  | cons a l ih =>
    rw [List.mapM_cons, List.forall_mem_cons, ← ih, ok_bind_iff]
    constructor
    · rintro ⟨c, hc, h⟩
      obtain ⟨cs, hcs, -⟩ := ok_bind_iff.mp h
      exact ⟨⟨c, hc⟩, cs, hcs⟩
    · rintro ⟨⟨c, hc⟩, cs, hcs⟩
      exact ⟨c, hc, ok_bind_iff.mpr ⟨cs, hcs, _, rfl⟩⟩

theorem length_of_mapM {f : α → Except ε γ} {l : List α} {cs : List γ} (h : l.mapM f = .ok cs) :
    cs.length = l.length := by
  induction l generalizing cs with
  | nil =>
    cases h
    rfl
  | cons a l ih =>
    rw [List.mapM_cons] at h
    cases ha : f a with
    | error e =>
      rw [ha] at h
      cases h
    | ok c =>
      cases hl : l.mapM f with
      | error e =>
        rw [ha, hl] at h
        cases h
      | ok cs' =>
        rw [ha, hl] at h
        cases h
        exact congrArg (· + 1) (ih hl)

end Lists

end Rules

end Taking
