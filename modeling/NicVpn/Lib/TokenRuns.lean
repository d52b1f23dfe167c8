import NicVpn.Lib.Replace
import Mathlib.Tactic.ByContra

/-! Texts whose parts end in a token. Parts without the token are told again, an empty part is a second token
    behind a first, and replacing pairs of tokens before single ones takes every second of the empty parts away. -/

namespace Text

/-- A token: its first character occurs nowhere else in it. -/
structure Token where
  first : Char
  rest : List Char
  first_not_mem : first ∉ rest

namespace Token

def text (t : Token) : List Char := t.first :: t.rest

/-- The parts, each with the token behind it. -/
def ended (t : Token) (bs : List (List Char)) : List Char := bs.flatMap fun b => b ++ t.text

variable {t : Token} {b x y s : List Char} {bs : List (List Char)}

theorem ended_cons : t.ended (b :: bs) = b ++ (t.text ++ t.ended bs) := by simp [ended]

theorem text_ne_nil : t.text ≠ [] := List.cons_ne_nil _ _

/-- Inside a token no token begins. -/
theorem not_prefix_rest (hx : x <:+ t.rest) (hne : x ≠ []) (y : List Char) : ¬t.text <+: x ++ y := by
  obtain ⟨c, x, rfl⟩ := List.exists_cons_of_ne_nil hne
  intro hpre
  refine t.first_not_mem ?_
  rw [(List.cons_prefix_cons.mp hpre).1]
  exact hx.subset List.mem_cons_self

/-- In a part without tokens no token begins, not even one that reaches into the token behind it. -/
theorem not_prefix_part (hb : ¬t.text <:+: b) (hx : x <:+ b) (hne : x ≠ []) (y : List Char) :
    ¬t.text <+: x ++ (t.text ++ y) := by
  intro hpre
  rcases Nat.le_total t.text.length x.length with hle | hle
  · exact hb ((List.prefix_of_prefix_length_le hpre (List.prefix_append x _) hle).isInfix.trans hx.isInfix)
  · obtain ⟨u, hu⟩ := List.prefix_of_prefix_length_le (List.prefix_append x _) hpre hle
    have hu' : u <+: t.text ++ y := (List.prefix_append_right_inj x).mp (by rw [hu]; exact hpre)
    cases u with
    | nil =>
      rw [List.append_nil] at hu
      exact hb (hu ▸ hx.isInfix)
    | cons c u =>
      obtain ⟨d, x, rfl⟩ := List.exists_cons_of_ne_nil hne
      refine t.first_not_mem ?_
      rw [← (List.cons_prefix_cons.mp hu').1, ← (List.cons.inj hu).2]
      exact List.mem_append_right _ List.mem_cons_self

theorem prefix_ended_cons (hb : ¬t.text <:+: b) (s : List Char) :
    t.text ++ s <+: t.ended (b :: bs) ↔ b = [] ∧ s <+: t.ended bs := by
  rw [ended_cons]
  constructor
  · intro hpre
    have hnil : b = [] := by
      by_contra hne
      exact not_prefix_part hb List.suffix_rfl hne _ ((List.prefix_append _ _).trans hpre)
    subst hnil
    exact ⟨rfl, (List.prefix_append_right_inj t.text).mp hpre⟩
  · rintro ⟨rfl, hpre⟩
    exact (List.prefix_append_right_inj t.text).mpr hpre

/-- A text that begins with a token begins behind a part, or where its first token does. -/
theorem infix_part_iff (hb : ¬t.text <:+: b) (s : List Char) :
    t.text ++ s <:+: b ++ (t.text ++ y) ↔ s <+: y ∨ t.text ++ s <:+: y := by
  constructor
  · intro hinf
    have hpart : ∀ x, x <:+ b → t.text ++ s <:+: x ++ (t.text ++ y) → t.text ++ s <:+: t.text ++ y := by
      intro x hx hinf
      induction x with
      | nil => exact hinf
      | cons c x ih =>
        rcases List.infix_cons_iff.mp hinf with hpre | hinf
        · exact absurd ((List.prefix_append _ _).trans hpre) (not_prefix_part hb hx (List.cons_ne_nil c x) y)
        · exact ih ((List.suffix_cons c x).trans hx) hinf
    rcases List.infix_cons_iff.mp (hpart b List.suffix_rfl hinf) with hpre | hinf
    · exact .inl ((List.prefix_append_right_inj t.text).mp hpre)
    · exact .inr (infix_of_not_mem t.first_not_mem hinf)
  · rintro (hpre | hinf)
    · exact ((List.prefix_append_right_inj t.text).mpr hpre).isInfix.trans (List.suffix_append b _).isInfix
    · exact hinf.trans ((List.suffix_append t.text y).trans (List.suffix_append b _)).isInfix

/-- Three tokens in a row are two empty parts in a row, behind the first part. -/
theorem three_infix_iff (hbs : ∀ b ∈ bs, ¬t.text <:+: b) :
    t.text ++ (t.text ++ t.text) <:+: t.ended bs ↔ [[], []] <:+: bs.tail := by
  induction bs with
  | nil => exact iff_of_false (fun h => absurd (List.infix_nil.mp h) (List.cons_ne_nil _ _)) (by simp)
  | cons b bs ih =>
    obtain ⟨hb, hbs⟩ := List.forall_mem_cons.mp hbs
    have htwo : t.text ++ t.text <+: t.ended bs ↔ [[], []] <+: bs := by
      rcases bs with _ | ⟨c, _ | ⟨d, bs⟩⟩
      · exact iff_of_false (fun h => absurd (List.prefix_nil.mp h) (List.cons_ne_nil _ _)) (by simp)
      · rw [prefix_ended_cons (hbs c List.mem_cons_self)]
        exact iff_of_false (fun h => absurd (List.prefix_nil.mp h.2) text_ne_nil) (by simp)
      · obtain ⟨hc, hd, -⟩ := List.forall_mem_cons.mp hbs |>.imp_right List.forall_mem_cons.mp
        have hone : t.text <+: t.ended (d :: bs) ↔ d = [] := by
          rw [← List.append_nil t.text, prefix_ended_cons hd]
          simp
        rw [prefix_ended_cons hc, hone]
        simp [eq_comm]
    rw [ended_cons, infix_part_iff hb, htwo, ih hbs, List.tail_cons]
    cases bs with
    | nil => simp
    | cons c bs => exact List.infix_cons_iff.symm

/-- A text that ends in a token has parts. -/
theorem exists_ended (h : t.text <:+ s) : ∃ bs, bs ≠ [] ∧ s = t.ended bs ∧ ∀ b ∈ bs, ¬t.text <:+: b := by
  induction hn : s.length using Nat.strong_induction_on generalizing s with
  | _ n ih =>
    subst hn
    obtain ⟨x, y, rfl, hx⟩ := exists_first text_ne_nil h.isInfix
    by_cases hy : y = []
    · subst hy
      refine ⟨[x], List.cons_ne_nil _ _, by simp [ended], fun b hb => ?_⟩
      rw [List.mem_singleton.mp hb]
      exact hx
    have hsuf : t.text <:+ y := by
      rcases Nat.le_total t.text.length y.length with hle | hle
      · exact List.suffix_of_suffix_length_le h ((List.suffix_append _ y).trans (List.suffix_append x _)) hle
      · -- A shorter rest would be the end of a token that begins inside a token.
        obtain ⟨u, hu⟩ := List.suffix_of_suffix_length_le ((List.suffix_append _ y).trans (List.suffix_append x _)) h hle
        obtain ⟨z, hz⟩ := h
        have hcut : z ++ u = x ++ t.text := by
          rw [← hu, ← List.append_assoc, ← List.append_assoc, hu] at hz
          exact List.append_cancel_right hz
        cases u with
        | nil => exact ⟨[], hu.symm⟩
        | cons c u =>
          have hlen : (c :: u).length ≤ t.rest.length := by
            have hlength := congrArg List.length hu
            have hpos := List.length_pos_of_ne_nil hy
            simp only [text, List.length_append, List.length_cons] at hlength ⊢
            omega
          have hrest : c :: u <:+ t.rest := by
            have hall : t.rest <:+ x ++ t.text := (List.suffix_cons _ _).trans (List.suffix_append x _)
            exact List.suffix_of_suffix_length_le ⟨z, hcut⟩ hall hlen
          refine absurd ?_ t.first_not_mem
          rw [← (List.cons.inj hu).1]
          exact hrest.subset List.mem_cons_self
    have hlt : y.length < (x ++ (t.text ++ y)).length := by
      simp only [List.length_append, text, List.length_cons]
      omega
    obtain ⟨bs, -, hbs, hpart⟩ := ih _ hlt hsuf rfl
    exact ⟨x :: bs, List.cons_ne_nil _ _, by rw [ended_cons, hbs], List.forall_mem_cons.mpr ⟨hx, hpart⟩⟩

/-! ### Pairs before single tokens -/

/-- Every part, less the empty ones that stand second. -/
def collapse : List (List Char) → List (List Char)
  | u :: [] :: bs => u :: collapse bs
  | u :: bs => u :: collapse bs
  | [] => []

/-- The parts with `new` behind those that a pair of tokens has stood behind, and a token behind the others. -/
def paired (t : Token) (new : List Char) : List (List Char) → List Char
  | u :: [] :: bs => u ++ (new ++ paired t new bs)
  | u :: bs => u ++ (t.text ++ paired t new bs)
  | [] => []

variable {new : List Char}

theorem replace_pairs (hbs : ∀ b ∈ bs, ¬t.text <:+: b) :
    replace (t.text ++ t.text) new (t.ended bs) = paired t new bs := by
  have hpart : ∀ b, ¬t.text <:+: b → ∀ x, x <:+ b → x ≠ [] → ∀ y, ¬t.text ++ t.text <+: x ++ (t.text ++ y) :=
    fun b hb x hx hne y hpre => not_prefix_part hb hx hne y ((List.prefix_append _ _).trans hpre)
  fun_induction paired t new bs with
  | case1 u bs ih =>
    obtain ⟨hu, -, hbs⟩ := List.forall_mem_cons.mp hbs |>.imp_right List.forall_mem_cons.mp
    have hended : t.ended (u :: [] :: bs) = u ++ ((t.text ++ t.text) ++ t.ended bs) := by
      rw [ended_cons, ended_cons, List.nil_append, List.append_assoc]
    have hstay : ∀ x, x <:+ u → x ≠ [] → ¬t.text ++ t.text <+: x ++ ((t.text ++ t.text) ++ t.ended bs) := by
      intro x hx hne
      rw [List.append_assoc]
      exact hpart u hu x hx hne _
    rw [hended, replace_append_of_absent hstay, replace_append (List.append_ne_nil_of_left_ne_nil text_ne_nil _),
      ih hbs]
  | case2 u bs hnot ih =>
    obtain ⟨hu, hbs⟩ := List.forall_mem_cons.mp hbs
    have hnext : ¬t.text <+: t.ended bs := by
      cases bs with
      | nil => exact fun h => absurd (List.prefix_nil.mp h) text_ne_nil
      | cons c bs =>
        rw [← List.append_nil t.text, prefix_ended_cons (hbs c List.mem_cons_self)]
        rintro ⟨rfl, -⟩
        exact hnot bs rfl
    have hstay : ∀ x, x <:+ t.text → x ≠ [] → ¬t.text ++ t.text <+: x ++ t.ended bs := by
      intro x hx hne hpre
      rcases List.suffix_cons_iff.mp hx with rfl | hx
      · exact hnext ((List.prefix_append_right_inj _).mp hpre)
      · exact not_prefix_rest hx hne _ ((List.prefix_append _ _).trans hpre)
    rw [ended_cons, replace_append_of_absent (fun x hx hne => hpart u hu x hx hne _),
      replace_append_of_absent hstay, ih hbs]
  | case3 => rfl

theorem not_prefix_paired (hnew : Apart t.text new) (hb : ¬t.text <:+: b) (hbs : b = [] → False) :
    ¬t.text <+: paired t new (b :: bs) := by
  intro hpre
  rcases bs with _ | ⟨c, bs⟩
  · exact not_prefix_part hb List.suffix_rfl hbs _ hpre
  · by_cases hc : c = []
    · subst hc
      exact hb (hnew.prefix_append hpre).isInfix
    · have hpaired : paired t new (b :: c :: bs) = b ++ (t.text ++ paired t new (c :: bs)) := by
        rw [paired]
        exact fun bs' h => hc (List.cons.inj h).1
      rw [hpaired] at hpre
      exact not_prefix_part hb List.suffix_rfl hbs _ hpre

/-- No pair is left. -/
theorem not_infix_paired (hnew : Apart t.text new) (hnew' : Apart (t.text ++ t.text) new)
    (hbs : ∀ b ∈ bs, ¬t.text <:+: b) : ¬t.text ++ t.text <:+: paired t new bs := by
  fun_induction paired t new bs with
  | case1 u bs ih =>
    obtain ⟨hu, -, hbs⟩ := List.forall_mem_cons.mp hbs |>.imp_right List.forall_mem_cons.mp
    rw [hnew'.infix_append_iff]
    rintro (hinf | hinf)
    · exact hu ((List.prefix_append _ _).isInfix.trans hinf)
    · exact ih hbs hinf
  | case2 u bs hnot ih =>
    obtain ⟨hu, hbs⟩ := List.forall_mem_cons.mp hbs
    rw [infix_part_iff hu]
    rintro (hpre | hinf)
    · cases bs with
      | nil => exact absurd (List.prefix_nil.mp hpre) text_ne_nil
      | cons c bs => exact not_prefix_paired hnew (hbs c List.mem_cons_self) (fun hc => hnot bs (by rw [hc])) hpre
    · exact ih hbs hinf
  | case3 => exact fun h => absurd (List.infix_nil.mp h) (List.append_ne_nil_of_left_ne_nil text_ne_nil _)

/-- The tokens that are left, one by one. -/
theorem replace_paired (hnew : Apart t.text new) (hbs : ∀ b ∈ bs, ¬t.text <:+: b) :
    replace t.text new (paired t new bs) = (collapse bs).flatMap fun b => b ++ new := by
  fun_induction paired t new bs with
  | case1 u bs ih =>
    obtain ⟨hu, -, hbs⟩ := List.forall_mem_cons.mp hbs |>.imp_right List.forall_mem_cons.mp
    rw [replace_around text_ne_nil hnew, replace_of_absent hu, ih hbs, collapse, List.flatMap_cons, List.append_assoc]
  | case2 u bs hnot ih =>
    obtain ⟨hu, hbs⟩ := List.forall_mem_cons.mp hbs
    have hcollapse : collapse (u :: bs) = u :: collapse bs := by
      rw [collapse]
      exact hnot
    rw [replace_append_of_absent (fun x hx hne => not_prefix_part hu hx hne _), replace_append text_ne_nil, ih hbs,
      hcollapse, List.flatMap_cons, List.append_assoc]
  | case3 => rfl

theorem mem_of_mem_collapse (h : b ∈ collapse bs) : b ∈ bs := by
  fun_induction collapse bs with
  | case1 u bs ih =>
    rcases List.mem_cons.mp h with rfl | h
    · exact List.mem_cons_self
    · exact List.mem_cons_of_mem _ (List.mem_cons_of_mem _ (ih h))
  | case2 u bs _ ih =>
    rcases List.mem_cons.mp h with rfl | h
    · exact List.mem_cons_self
    · exact List.mem_cons_of_mem _ (ih h)
  | case3 => exact h

/-- Behind the first part an empty part is left just when there were two in a row. -/
theorem collapse_tail_iff : (∀ b ∈ (collapse bs).tail, b ≠ []) ↔ ¬[[], []] <:+: bs.tail := by
  have hcons : ∀ {l : List (List Char)}, (∀ b ∈ l, b ≠ []) ↔ (∀ b ∈ l.tail, b ≠ []) ∧ l.head? ≠ some [] := by
    intro l
    cases l with
    | nil => simp
    | cons c l => simp [and_comm]
  fun_induction collapse bs with
  | case1 u bs ih =>
    rw [List.tail_cons, List.tail_cons]
    refine hcons.trans ((and_congr_left fun _ => ih).trans ?_)
    rcases bs with _ | ⟨c, bs⟩
    · simp [collapse, List.infix_cons_iff]
    · have hhead : (collapse (c :: bs)).head? = some c := by
        rcases bs with _ | ⟨_ | ⟨d, v⟩, bs⟩ <;> rfl
      rw [hhead, List.tail_cons, List.infix_cons_iff, List.infix_cons_iff]
      by_cases hc : c = []
      · subst hc
        simp
      · have hc' : ¬([] : List Char) = c := fun h => hc h.symm
        simp [hc, hc']
  | case2 u bs hnot ih =>
    rw [List.tail_cons, List.tail_cons]
    refine hcons.trans ((and_congr_left fun _ => ih).trans ?_)
    rcases bs with _ | ⟨c, bs⟩
    · simp [collapse]
    · have hc : c ≠ [] := fun hc => hnot bs (by rw [hc])
      have hhead : (collapse (c :: bs)).head? = some c := by
        rcases bs with _ | ⟨_ | ⟨d, v⟩, bs⟩ <;> rfl
      have hc' : ¬([] : List Char) = c := fun h => hc h.symm
      rw [hhead, List.tail_cons, List.infix_cons_iff]
      simp [hc, hc']
  | case3 => simp

end Token
end Text
