/-! Lists that keep the last periods of a history. New elements come in the order of their times; the first one of a
    period of the clock removes what is too many periods older than it, so what is kept is an end of the history that
    is longer than the periods to keep by less than one. -/

namespace Rolling

variable {α : Type} (time : α → Nat)

def Chronological (l : List α) : Prop := l.Pairwise fun x y => time x ≤ time y

/-- The elements that are the first of a period, when the last such element before was at `used`. -/
def starts (period : Nat) : Nat → List α → List α
  | _, [] => []
  | used, x :: l =>
    if used / period < time x / period then x :: starts period (time x) l else starts period used l

/-- The elements that are fewer than so many periods older than `now`. -/
def keep (periods period now : Nat) (l : List α) : List α :=
  l.filter fun x => (now - time x) / period < periods

/-- What is kept is the end of all there was: it has everything less than `inner` older than its newest element, and
    nothing that is `outer` older. -/
structure Window (inner outer : Nat) (all kept : List α) : Prop where
  gone : ∃ old, all = old ++ kept ∧ ∀ x ∈ old, ∀ newest ∈ kept.getLast?, time x + inner ≤ time newest
  fresh : ∀ x ∈ kept, ∀ newest ∈ kept.getLast?, time newest < time x + outer
  nonempty : all ≠ [] → kept ≠ []
  chronological : Chronological time kept

/-- The time of the last element that was the first of a period. -/
def lastStart (period : Nat) : Nat → List α → Nat
  | used, [] => used
  | used, x :: l => lastStart period (if used / period < time x / period then time x else used) l

/-- What holds between two elements. -/
structure Inv (periods period : Nat) (all kept : List α) : Prop where
  chronological : Chronological time all
  gone : ∃ old, all = old ++ kept ∧ ∀ x ∈ old, time x + periods * period ≤ lastStart time period 0 all
  fresh : ∀ x ∈ kept, lastStart time period 0 all < time x + periods * period

variable {time} {periods period used : Nat} {all kept l : List α} {x : α}

/-! ### Lists in order -/

theorem Chronological.le_getLast (h : Chronological time l) {newest : α} (hnewest : newest ∈ l.getLast?) :
    ∀ x ∈ l, time x ≤ time newest := by
  obtain ⟨l', rfl⟩ := List.getLast?_eq_some_iff.mp hnewest
  intro x hx
  rcases List.mem_append.mp hx with hx | hx
  · exact (List.pairwise_append.mp h).2.2 x hx newest (List.mem_singleton_self _)
  · exact Nat.le_of_eq (congrArg time (List.mem_singleton.mp hx))

theorem Chronological.append_singleton (h : Chronological time l) (hx : ∀ y ∈ l, time y ≤ time x) :
    Chronological time (l ++ [x]) := by
  refine List.pairwise_append.mpr ⟨h, List.pairwise_singleton _ _, fun y hy z hz => ?_⟩
  rw [List.mem_singleton.mp hz]
  exact hx y hy

/-- A property that later elements have too cuts the list in two. -/
theorem Chronological.eq_filter_append (h : Chronological time l) {q : α → Bool}
    (hq : ∀ x y, time x ≤ time y → q x = true → q y = true) : l = (l.filter fun x => !q x) ++ l.filter q := by
  induction l with
  | nil => rfl
  | cons x l ih =>
    obtain ⟨hx, hl⟩ := List.pairwise_cons.mp h
    cases hqx : q x with
    | true =>
      have hall : ∀ y ∈ l, q y = true := fun y hy => hq x y (hx y hy) hqx
      have hnone : (l.filter fun y => !q y) = [] :=
        List.filter_eq_nil_iff.mpr fun y hy => by simp [hall y hy]
      have hsome : l.filter q = l := List.filter_eq_self.mpr hall
      simp [hqx, hnone, hsome]
    | false =>
      simp only [List.filter_cons, hqx, Bool.not_false, ↓reduceIte, Bool.false_eq_true, List.cons_append]
      rw [← ih hl]

/-! ### First elements of a period -/

theorem starts_sublist (l : List α) (used : Nat) : (starts time period used l).Sublist l := by
  induction l generalizing used with
  | nil => exact List.Sublist.refl _
  | cons x l ih =>
    unfold starts
    split
    · exact (ih _).cons_cons x
    · exact (ih _).cons x

theorem lt_of_mem_starts (h : x ∈ starts time period used l) : used / period < time x / period := by
  induction l generalizing used with
  | nil => cases h
  | cons y l ih =>
    unfold starts at h
    split at h
    · rename_i hlt
      rcases List.mem_cons.mp h with rfl | h
      · exact hlt
      · exact Nat.lt_trans hlt (ih h)
    · exact ih h

/-- There is one at most for each period. -/
theorem starts_pairwise (l : List α) (used : Nat) :
    (starts time period used l).Pairwise fun x y => time x / period < time y / period := by
  induction l generalizing used with
  | nil => exact List.Pairwise.nil
  | cons x l ih =>
    unfold starts
    split
    · exact List.pairwise_cons.mpr ⟨fun y hy => lt_of_mem_starts hy, ih _⟩
    · exact ih _

variable (time period) in
theorem starts_append (l : List α) (x : α) (used : Nat) : starts time period used (l ++ [x]) =
    starts time period used l ++
      if lastStart time period used l / period < time x / period then [x] else [] := by
  induction l generalizing used with
  | nil => rfl
  | cons y l ih =>
    rw [List.cons_append, starts, starts, lastStart]
    split
    · rw [ih, List.cons_append]
    · exact ih _

variable (time period) in
theorem lastStart_append (l : List α) (x : α) (used : Nat) : lastStart time period used (l ++ [x]) =
    if lastStart time period used l / period < time x / period then time x else lastStart time period used l := by
  induction l generalizing used with
  | nil => rfl
  | cons y l ih => exact ih _

theorem lastStart_le {t : Nat} (hused : used ≤ t) (h : ∀ x ∈ l, time x ≤ t) : lastStart time period used l ≤ t := by
  induction l generalizing used with
  | nil => exact hused
  | cons x l ih =>
    obtain ⟨hx, hl⟩ := List.forall_mem_cons.mp h
    refine ih ?_ hl
    split
    · exact hx
    · exact hused

variable (time period) in
/-- No element is in a later period than the last first one. -/
theorem div_le_lastStart (l : List α) (used : Nat) : used / period ≤ lastStart time period used l / period ∧
    ∀ x ∈ l, time x / period ≤ lastStart time period used l / period := by
  induction l generalizing used with
  | nil => exact ⟨Nat.le_refl _, fun x hx => by cases hx⟩
  | cons x l ih =>
    obtain ⟨hused, hl⟩ := ih (if used / period < time x / period then time x else used)
    rw [lastStart]
    split at hused
    · rename_i hlt
      rw [if_pos hlt] at hl ⊢
      exact ⟨Nat.le_trans (Nat.le_of_lt hlt) hused, List.forall_mem_cons.mpr ⟨hused, hl⟩⟩
    · rename_i hlt
      rw [if_neg hlt] at hl ⊢
      exact ⟨hused, List.forall_mem_cons.mpr ⟨Nat.le_trans (Nat.not_lt.mp hlt) hused, hl⟩⟩

/-! ### The kept list -/

theorem inv_nil : Inv time periods period [] [] where
  chronological := List.Pairwise.nil
  gone := ⟨[], rfl, fun x hx => by cases hx⟩
  fresh := fun x hx => by cases hx

theorem Inv.chronological_kept (h : Inv time periods period all kept) : Chronological time kept := by
  obtain ⟨old, hall, -⟩ := h.gone
  exact (List.pairwise_append.mp (hall ▸ h.chronological)).2.1

/-- A further element, which removes old ones if it is the first of its period. -/
theorem Inv.append (h : Inv time periods period all kept) (hperiods : 0 < periods * period)
    (hx : ∀ y ∈ all, time y ≤ time x) :
    Inv time periods period (all ++ [x])
      (if lastStart time period 0 all / period < time x / period then keep time periods period (time x) (kept ++ [x])
      else kept ++ [x]) := by
  have hperiod : 0 < period := Nat.pos_of_mul_pos_left hperiods
  have hlast : lastStart time period 0 all ≤ time x := lastStart_le (Nat.zero_le _) hx
  obtain ⟨old, hall, hold⟩ := h.gone
  refine ⟨h.chronological.append_singleton hx, ?_, ?_⟩
  · rw [lastStart_append]
    split
    · have hkept : Chronological time (kept ++ [x]) :=
        h.chronological_kept.append_singleton fun y hy => hx y (hall ▸ List.mem_append_right _ hy)
      have hcut := hkept.eq_filter_append (q := fun y => (time x - time y) / period < periods) (by
        intro y z hyz hy
        have hle : (time x - time z) / period ≤ (time x - time y) / period := Nat.div_le_div_right (by omega)
        exact decide_eq_true (Nat.lt_of_le_of_lt hle (of_decide_eq_true hy)))
      refine ⟨old ++ (kept ++ [x]).filter fun y => !decide ((time x - time y) / period < periods), ?_, ?_⟩
      · rw [hall, List.append_assoc, List.append_assoc, List.append_cancel_left_eq]
        exact hcut
      · intro y hy
        rcases List.mem_append.mp hy with hy | hy
        · exact Nat.le_trans (hold y hy) hlast
        · obtain ⟨-, hy⟩ := List.mem_filter.mp hy
          rw [Bool.not_eq_true', decide_eq_false_iff_not, Nat.div_lt_iff_lt_mul hperiod] at hy
          omega
    · refine ⟨old, by rw [hall, List.append_assoc], hold⟩
  · rw [lastStart_append]
    split
    · intro y hy
      obtain ⟨-, hy⟩ := List.mem_filter.mp hy
      have hlt := (Nat.div_lt_iff_lt_mul hperiod).mp (of_decide_eq_true hy)
      omega
    · intro y hy
      rcases List.mem_append.mp hy with hy | hy
      · exact h.fresh y hy
      · rw [List.mem_singleton.mp hy]
        omega

/-- The newest element is never removed. -/
theorem Inv.getLast?_kept (h : Inv time periods period all kept) (hperiods : 0 < periods * period) :
    kept.getLast? = all.getLast? := by
  obtain ⟨old, hall, hold⟩ := h.gone
  cases hkept : kept.getLast? with
  | some newest => rw [hall, List.getLast?_append, hkept]; rfl
  | none =>
    rw [List.getLast?_eq_none_iff.mp hkept, List.append_nil] at hall
    cases hlast : all.getLast? with
    | none => rfl
    | some newest =>
      have hle : lastStart time period 0 all ≤ time newest :=
        lastStart_le (Nat.zero_le _) (h.chronological.le_getLast hlast)
      have hgone := hold newest (hall ▸ List.mem_of_getLast? hlast)
      omega

/-- Between two elements the kept list has less than a period too much. -/
theorem Inv.window (h : Inv time periods period all kept) (hperiods : 0 < periods * period) :
    Window time (periods * period) (periods * period + period) all kept := by
  have hperiod : 0 < period := Nat.pos_of_mul_pos_left hperiods
  obtain ⟨old, hall, hold⟩ := h.gone
  have hlast := h.getLast?_kept hperiods
  have hnewest : ∀ newest ∈ kept.getLast?, ∀ x ∈ all, time x ≤ time newest :=
    fun newest hnew => h.chronological.le_getLast (hlast ▸ hnew)
  refine ⟨⟨old, hall, ?_⟩, ?_, ?_, h.chronological_kept⟩
  · intro x hx newest hnew
    exact Nat.le_trans (hold x hx) (lastStart_le (Nat.zero_le _) (hnewest newest hnew))
  · intro x hx newest hnew
    have hmem : newest ∈ all := hall ▸ List.mem_append_right _ (List.mem_of_getLast? hnew)
    have hdiv := (div_le_lastStart time period all 0).2 newest hmem
    have hsame : time newest < lastStart time period 0 all + period := by
      calc time newest < period * (time newest / period + 1) := Nat.lt_mul_div_succ _ hperiod
        _ ≤ period * (lastStart time period 0 all / period + 1) := Nat.mul_le_mul_left _ (Nat.succ_le_succ hdiv)
        _ ≤ lastStart time period 0 all + period := by
          rw [Nat.mul_succ]
          exact Nat.add_le_add_right (Nat.mul_div_le _ _) _
    have hfresh := h.fresh x hx
    omega
  · rintro hne rfl
    exact hne (List.getLast?_eq_none_iff.mp hlast.symm)

end Rolling
