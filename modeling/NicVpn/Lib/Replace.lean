import NicVpn.Lib.Text
import NicVpn.Lib.Utf8
import Mathlib.Data.List.Infix
import Mathlib.Algebra.Group.Nat.Defs

/-! Literal replacement and splitting of texts in several parts. An occurrence of a literal lies in one part or
    reaches over a border; where no occurrence can reach over, each part is searched and replaced for itself. -/

namespace Text

section Apart
variable {α : Type} {pat b x y s : List α}

/-- One of the two texts begins with the other. -/
def Meets (x y : List α) : Prop := x <+: y ∨ y <+: x

instance [DecidableEq α] (x y : List α) : Decidable (Meets x y) := inferInstanceAs (Decidable (_ ∨ _))

/-- No occurrence of `pat` shares a character with an occurrence of `b`. -/
def Apart (pat b : List α) : Prop :=
  (∀ t ∈ pat.tails, t ≠ [] → ¬Meets t b) ∧ ∀ t ∈ b.tails, t ≠ [] → ¬Meets pat t

instance [DecidableEq α] (pat b : List α) : Decidable (Apart pat b) := inferInstanceAs (Decidable (_ ∧ _))

theorem meets_of_prefix_append (h : x <+: y ++ s) : Meets x y := by
  rcases Nat.le_total x.length y.length with hle | hle
  · exact .inl (List.prefix_of_prefix_length_le h (List.prefix_append y s) hle)
  · exact .inr (List.prefix_of_prefix_length_le (List.prefix_append y s) h hle)

/-- An occurrence that begins before `b` ends before it. -/
theorem Apart.prefix_append (h : Apart pat b) (hpre : pat <+: x ++ (b ++ y)) : pat <+: x := by
  rcases Nat.le_total pat.length x.length with hle | hle
  · exact List.prefix_of_prefix_length_le hpre (List.prefix_append x _) hle
  · obtain ⟨t, rfl⟩ := List.prefix_of_prefix_length_le (List.prefix_append x _) hpre hle
    by_cases ht : t = []
    · rw [ht, List.append_nil]
    · refine absurd (meets_of_prefix_append ((List.prefix_append_right_inj x).mp hpre)) (h.1 t ?_ ht)
      exact (List.mem_tails t _).mpr (List.suffix_append x t)

theorem Apart.not_prefix (h : Apart pat b) {t : List α} (ht : t <:+ b) (hne : t ≠ []) (y : List α) :
    ¬pat <+: t ++ y :=
  fun hpre => h.2 t ((List.mem_tails t b).mpr ht) hne (meets_of_prefix_append hpre)

/-- Around `b` an occurrence lies in the text before it or in the text behind it. -/
theorem Apart.infix_append_iff (h : Apart pat b) : pat <:+: x ++ (b ++ y) ↔ pat <:+: x ∨ pat <:+: y := by
  constructor
  · intro hinf
    induction x with
    | nil =>
      have hsuf : ∀ t, t <:+ b → pat <:+: t ++ y → pat <:+: y := by
        intro t ht hinf
        induction t with
        | nil => exact hinf
        | cons c t ih =>
          rcases List.infix_cons_iff.mp hinf with hpre | hinf
          · exact absurd hpre (h.not_prefix ht (List.cons_ne_nil c t) y)
          · exact ih ((List.suffix_cons c t).trans ht) hinf
      exact .inr (hsuf b List.suffix_rfl hinf)
    | cons c x ih =>
      rcases List.infix_cons_iff.mp hinf with hpre | hinf
      · exact .inl (h.prefix_append (x := c :: x) hpre).isInfix
      · exact (ih hinf).imp_left List.infix_cons
  · rintro (hx | hy)
    · exact hx.trans (List.prefix_append x _).isInfix
    · exact hy.trans ((List.suffix_append b y).trans (List.suffix_append x _)).isInfix

/-- A literal that begins with another character than any in `x` does not begin in `x`. -/
theorem infix_of_not_mem {c : α} (h : c ∉ x) (hinf : c :: pat <:+: x ++ y) : c :: pat <:+: y := by
  induction x with
  | nil => exact hinf
  | cons d x ih =>
    obtain ⟨hd, hx⟩ := List.ne_and_not_mem_of_not_mem_cons h
    rcases List.infix_cons_iff.mp hinf with hpre | hinf
    · exact absurd (List.cons_prefix_cons.mp hpre).1 hd
    · exact ih hx hinf

/-- A literal without a character does not reach over it. -/
theorem apart_singleton {c : α} (h : c ∉ pat) (hpat : pat ≠ []) : Apart pat [c] := by
  have hmeets : ∀ t, t <:+ pat → t ≠ [] → ¬Meets t [c] := by
    intro t ht hne hmeets
    obtain ⟨d, t, rfl⟩ := List.exists_cons_of_ne_nil hne
    have hd : d ∈ pat := ht.subset List.mem_cons_self
    rcases hmeets with hpre | hpre
    · exact h ((List.cons_prefix_cons.mp hpre).1 ▸ hd)
    · exact h ((List.cons_prefix_cons.mp hpre).1 ▸ hd)
  refine ⟨fun t ht => hmeets t ((List.mem_tails t pat).mp ht), fun t ht hne hpre => ?_⟩
  have htc : t = [c] := by
    rcases List.suffix_cons_iff.mp ((List.mem_tails t [c]).mp ht) with rfl | ht
    · rfl
    · exact absurd (List.suffix_nil.mp ht) hne
  rw [htc] at hpre
  exact hmeets pat List.suffix_rfl hpat hpre

end Apart

/-! ### Replacing -/

section Replace
variable {old new b x y s : List Char}

theorem replace_cons_of_absent {c : Char} (h : ¬old <+: c :: s) : replace old new (c :: s) = c :: replace old new s := by
  unfold replace
  rw [replaceFrom, if_neg]
  exact fun hpre => h (List.isPrefixOf_iff_prefix.mp hpre)

/-- Characters at which the literal does not begin stay. -/
theorem replace_append_of_absent (h : ∀ t, t <:+ x → t ≠ [] → ¬old <+: t ++ s) :
    replace old new (x ++ s) = x ++ replace old new s := by
  induction x with
  | nil => rfl
  | cons c x ih =>
    have hfirst : ¬old <+: c :: (x ++ s) := h (c :: x) List.suffix_rfl (List.cons_ne_nil c x)
    rw [List.cons_append, replace_cons_of_absent hfirst, ih fun t ht => h t (ht.trans (List.suffix_cons c x)),
      List.cons_append]

/-- The text up to the first occurrence stays, and the search goes on behind it. -/
theorem exists_replace (hold : old ≠ []) (new : List Char) (h : old <:+: s) :
    ∃ x y, s = x ++ (old ++ y) ∧ replace old new s = x ++ (new ++ replace old new y) := by
  induction s with
  | nil => exact absurd (List.infix_nil.mp h) hold
  | cons c s ih =>
    by_cases hpre : old <+: c :: s
    · obtain ⟨y, hy⟩ := hpre
      exact ⟨[], y, hy.symm, by rw [← hy, replace_append hold]; rfl⟩
    · rcases List.infix_cons_iff.mp h with h | h
      · exact absurd h hpre
      · obtain ⟨x, y, hs, hreplace⟩ := ih h
        exact ⟨c :: x, y, by rw [hs]; rfl, by rw [replace_cons_of_absent hpre, hreplace]; rfl⟩

/-- The first occurrence of a literal. -/
theorem exists_first (hold : old ≠ []) (h : old <:+: s) : ∃ x y, s = x ++ (old ++ y) ∧ ¬old <:+: x := by
  induction s with
  | nil => exact absurd (List.infix_nil.mp h) hold
  | cons c s ih =>
    by_cases hpre : old <+: c :: s
    · obtain ⟨y, hy⟩ := hpre
      exact ⟨[], y, hy.symm, fun hinf => hold (List.infix_nil.mp hinf)⟩
    · obtain ⟨x, y, rfl, hx⟩ := ih ((List.infix_cons_iff.mp h).resolve_left hpre)
      refine ⟨c :: x, y, rfl, fun hinf => ?_⟩
      rcases List.infix_cons_iff.mp hinf with hpre' | hinf
      · exact hpre (hpre'.trans (List.prefix_append (c :: x) _))
      · exact hx hinf

/-- A text is replaced part by part around one that no occurrence touches. -/
theorem replace_around (hold : old ≠ []) (h : Apart old b) (new x y : List Char) :
    replace old new (x ++ (b ++ y)) = replace old new x ++ (b ++ replace old new y) := by
  induction hn : x.length using Nat.strong_induction_on generalizing x with
  | _ n ih =>
    subst hn
    cases x with
    | nil => exact replace_append_of_absent fun t ht hne => h.not_prefix ht hne y
    | cons c x =>
      by_cases hpre : old <+: c :: x
      · obtain ⟨z, hz⟩ := hpre
        have hlt : z.length < (c :: x).length := by
          rw [← hz, List.length_append]
          exact Nat.lt_add_of_pos_left (List.length_pos_of_ne_nil hold)
        rw [← hz, List.append_assoc, replace_append hold, replace_append hold, ih _ hlt z rfl, List.append_assoc]
      · have hpre' : ¬old <+: c :: (x ++ (b ++ y)) := fun hp => hpre (h.prefix_append (x := c :: x) hp)
        rw [List.cons_append, replace_cons_of_absent hpre', replace_cons_of_absent hpre,
          ih _ (Nat.lt_succ_self _) x rfl, List.cons_append]

/-- Replacing does not bring in what its new text does not touch. -/
theorem infix_of_infix_replace {pat : List Char} (hold : old ≠ []) (h : Apart pat new)
    (hinf : pat <:+: replace old new s) : pat <:+: s := by
  induction hn : s.length using Nat.strong_induction_on generalizing s with
  | _ n ih =>
    subst hn
    by_cases hold' : old <:+: s
    · obtain ⟨x, y, hs, hreplace⟩ := exists_replace hold new hold'
      rw [hreplace] at hinf
      have hlt : y.length < s.length := by
        have hpos := List.length_pos_of_ne_nil hold
        rw [hs]
        simp only [List.length_append]
        omega
      rw [hs]
      rcases h.infix_append_iff.mp hinf with hx | hy
      · exact hx.trans (List.prefix_append x _).isInfix
      · exact (ih _ hlt hy rfl).trans ((List.suffix_append old y).trans (List.suffix_append x _)).isInfix
    · rw [replace_of_absent hold'] at hinf
      exact hinf

theorem mem_of_mem_replace {c : Char} (h : c ∈ replace old new s) : c ∈ s ∨ c ∈ new := by
  have hfrom : ∀ k, c ∈ replaceFrom old new k s → c ∈ s ∨ c ∈ new := by
    clear h
    induction s with
    | nil => exact fun _ h => absurd h List.not_mem_nil
    | cons d s ih =>
      intro k h
      rcases k with _ | k
      · rw [replaceFrom] at h
        by_cases hpre : old.isPrefixOf (d :: s) = true
        · rw [if_pos hpre] at h
          rcases List.mem_append.mp h with h | h
          · exact .inr h
          · exact (ih _ h).imp_left (List.mem_cons_of_mem d)
        · rw [if_neg hpre] at h
          rcases List.mem_cons.mp h with rfl | h
          · exact .inl List.mem_cons_self
          · exact (ih _ h).imp_left (List.mem_cons_of_mem d)
      · exact (ih k h).imp_left (List.mem_cons_of_mem d)
  exact hfrom 0 h

theorem replace_eq_nil_iff (hold : old ≠ []) (hnew : new ≠ []) : replace old new s = [] ↔ s = [] := by
  constructor
  · intro h
    by_cases hinf : old <:+: s
    · obtain ⟨x, y, -, hreplace⟩ := exists_replace hold new hinf
      rw [hreplace] at h
      exact absurd (List.append_eq_nil_iff.mp (List.append_eq_nil_iff.mp h).2).1 hnew
    · rw [replace_of_absent hinf] at h
      exact h
  · rintro rfl
    rfl

end Replace

/-! ### Splitting at a literal -/

section Split
variable {sep s : List Char}

theorem splitFrom_skip (sep part x s : List Char) : splitFrom sep x.length part (x ++ s) = splitFrom sep 0 part s := by
  induction x with
  | nil => rfl
  | cons c x ih => exact ih

theorem splitFrom_ne_nil (sep part s : List Char) (k : Nat) : splitFrom sep k part s ≠ [] := by
  induction s generalizing k part with
  | nil => cases k <;> simp [splitFrom]
  | cons c s ih =>
    cases k with
    | zero =>
      rw [splitFrom]
      by_cases hpre : sep.isPrefixOf (c :: s) = true
      · rw [if_pos hpre]
        exact List.cons_ne_nil _ _
      · rw [if_neg hpre]
        exact ih _ _
    | succ k => exact ih part k

/-- The parts and the separators between them are the whole text. -/
theorem intercalate_split (hsep : sep ≠ []) (s : List Char) : sep.intercalate (split sep s) = s := by
  have hfrom : ∀ part, sep.intercalate (splitFrom sep 0 part s) = part.reverse ++ s := by
    induction hn : s.length using Nat.strong_induction_on generalizing s with
    | _ n ih =>
      subst hn
      intro part
      cases s with
      | nil => simp [splitFrom]
      | cons c s =>
        rw [splitFrom]
        by_cases hpre : sep.isPrefixOf (c :: s) = true
        · obtain ⟨d, t, rfl⟩ := List.exists_cons_of_ne_nil hsep
          obtain ⟨z, hz⟩ := List.isPrefixOf_iff_prefix.mp hpre
          obtain ⟨rfl, rfl⟩ := List.cons.inj hz
          rw [if_pos hpre, List.intercalate_cons_of_ne_nil (splitFrom_ne_nil _ _ _ _), List.length_cons,
            Nat.add_sub_cancel]
          have hlt : z.length < (d :: (t ++ z)).length := by
            simp only [List.length_cons, List.length_append]
            omega
          have hskip : splitFrom (d :: t) t.length [] (t ++ z) = splitFrom (d :: t) 0 [] z := splitFrom_skip _ _ _ _
          have hrest : (d :: t).intercalate (splitFrom (d :: t) t.length [] (t ++ z)) = z := by
            rw [hskip, ih _ hlt z rfl]
            rfl
          exact (congrArg (part.reverse ++ (d :: t) ++ ·) hrest).trans (List.append_assoc _ _ _)
        · rw [if_neg hpre, ih _ (Nat.lt_succ_self _) s rfl]
          simp
  exact hfrom []

theorem mem_intercalate {sep : List Char} {l : List (List Char)} {c : Char} (h : c ∈ sep.intercalate l) :
    c ∈ sep ∨ ∃ x ∈ l, c ∈ x := by
  induction l with
  | nil => cases h
  | cons x l ih =>
    cases l with
    | nil => exact .inr ⟨x, List.mem_cons_self, by simpa using h⟩
    | cons y l =>
      rw [List.intercalate_cons_cons] at h
      rcases List.mem_append.mp h with h | h
      · rcases List.mem_append.mp h with h | h
        · exact .inr ⟨x, List.mem_cons_self, h⟩
        · exact .inl h
      · exact (ih h).imp_right fun ⟨z, hz, hc⟩ => ⟨z, List.mem_cons_of_mem x hz, hc⟩

/-- Every character of a text stands in a separator or in a part. -/
theorem mem_split {sep s : List Char} {c : Char} (hsep : sep ≠ []) (h : c ∈ s) :
    c ∈ sep ∨ ∃ x ∈ split sep s, c ∈ x := by
  rw [← intercalate_split hsep s] at h
  exact mem_intercalate h

theorem split_of_not_infix (h : ¬sep <:+: s) : split sep s = [s] := by
  have hfrom : ∀ part, splitFrom sep 0 part s = [part.reverse ++ s] := by
    induction s with
    | nil => simp [splitFrom]
    | cons c s ih =>
      intro part
      have hpre : ¬sep.isPrefixOf (c :: s) = true := fun hp => h (List.isPrefixOf_iff_prefix.mp hp).isInfix
      rw [splitFrom, if_neg hpre, ih fun hs => h (List.infix_cons hs)]
      simp
  exact hfrom []

theorem length_intercalate (sep x : List Char) (l : List (List Char)) :
    (sep.intercalate (x :: l)).length = (x :: l).flatten.length + l.length * sep.length := by
  induction l generalizing x with
  | nil => simp
  | cons y l ih =>
    have hflat : (x :: y :: l).flatten.length = x.length + (y :: l).flatten.length := by
      rw [List.flatten_cons, List.length_append]
    rw [List.intercalate_cons_cons, List.length_append, List.length_append, ih, hflat, List.length_cons, Nat.succ_mul]
    omega

/-- Without carriage returns the lines are what stands between the line feeds. -/
theorem lines_eq_split {s : List Char} (h : '\r' ∉ s) : lines s = split ['\n'] s := by
  have hfrom : ∀ part, linesFrom false part s = splitFrom ['\n'] 0 part s := by
    induction s with
    | nil => exact fun _ => rfl
    | cons c s ih =>
      obtain ⟨hc, hs⟩ := List.ne_and_not_mem_of_not_mem_cons h
      intro part
      by_cases hline : c = '\n'
      · subst hline
        simp [linesFrom, splitFrom, List.isPrefixOf, ih hs]
      · simp [linesFrom, splitFrom, List.isPrefixOf, hline, Ne.symm hline, Ne.symm hc, ih hs]
  exact hfrom []

/-- The length of a text by the lengths of its parts. -/
theorem length_eq_split (hsep : sep ≠ []) (s : List Char) :
    s.length = ((split sep s).map List.length).foldr (· + ·) 0 + ((split sep s).length - 1) * sep.length := by
  have hne : split sep s ≠ [] := splitFrom_ne_nil sep [] s 0
  obtain ⟨x, l, hsplit⟩ := List.exists_cons_of_ne_nil hne
  have hlength := congrArg List.length (intercalate_split hsep s)
  rw [hsplit, length_intercalate, List.length_flatten, List.sum_eq_foldr] at hlength
  rw [hsplit, ← hlength, List.length_cons, Nat.add_sub_cancel]

/-! Empty parts at the end, which `parts` leaves out. -/

theorem split_append_replicate {c : Char} {x : List Char} (h : c ∉ x) (k : Nat) :
    split [c] (x ++ List.replicate k c) = x :: List.replicate k [] := by
  induction k generalizing x with
  | zero => rw [List.replicate_zero, List.append_nil, split_of_not_mem h, List.replicate_zero]
  | succ k ih =>
    have hrest := ih (x := []) List.not_mem_nil
    rw [List.nil_append] at hrest
    rw [List.replicate_succ, split_append_cons h, hrest, List.replicate_succ]

theorem intercalate_replicate_nil (c : Char) (x : List Char) (k : Nat) :
    [c].intercalate (x :: List.replicate k []) = x ++ List.replicate k c := by
  induction k generalizing x with
  | zero => simp
  | succ k ih =>
    rw [List.replicate_succ, List.intercalate_cons_cons, ih, List.replicate_succ, List.append_assoc]
    rfl

/-- The parts are what the text is split into, up to the empty ones at the end. -/
theorem split_eq_parts {c : Char} (h : c ∈ s) : ∃ k, split [c] s = parts c s ++ List.replicate k [] := by
  have hempty : ∀ part ∈ (split [c] s).reverse.takeWhile List.isEmpty, part = [] := fun part hpart =>
    List.isEmpty_iff.mp (List.all_eq_true.mp List.all_takeWhile part hpart)
  have hsplit : split [c] s = ((split [c] s).reverse.dropWhile List.isEmpty).reverse ++
      ((split [c] s).reverse.takeWhile List.isEmpty).reverse := by
    rw [← List.reverse_append, List.takeWhile_append_dropWhile, List.reverse_reverse]
  rw [List.eq_replicate_of_mem hempty, List.reverse_replicate] at hsplit
  unfold parts
  rw [if_pos h]
  exact ⟨_, hsplit⟩

/-- Two parts: the separators are the one between them and those at the end. -/
theorem eq_of_parts_pair {c : Char} {x y : List Char} (h : c ∈ s) (hparts : parts c s = [x, y]) :
    c ∉ x ∧ c ∉ y ∧ ∃ k, s = x ++ c :: (y ++ List.replicate k c) := by
  obtain ⟨k, hsplit⟩ := split_eq_parts h
  rw [hparts] at hsplit
  have hmem : ∀ part ∈ [x, y], c ∉ part := fun part hpart =>
    not_mem_of_mem_split (hsplit ▸ List.mem_append_left _ hpart)
  refine ⟨hmem x List.mem_cons_self, hmem y (List.mem_cons_of_mem x List.mem_cons_self), k, ?_⟩
  have htext := intercalate_split (List.cons_ne_nil c []) s
  rw [hsplit, List.cons_append, List.cons_append, List.nil_append, List.intercalate_cons_cons,
    intercalate_replicate_nil, List.append_assoc] at htext
  exact htext.symm

theorem parts_pair {c : Char} {x y : List Char} (hx : c ∉ x) (hy : c ∉ y) (hne : y ≠ []) (k : Nat) :
    parts c (x ++ c :: (y ++ List.replicate k c)) = [x, y] := by
  have hfalse : ¬y.isEmpty = true := fun h => hne (List.isEmpty_iff.mp h)
  have hdrop : (List.replicate k ([] : List Char)).dropWhile List.isEmpty = [] := by simp
  unfold parts
  rw [if_pos (List.mem_append_right _ List.mem_cons_self), split_append_cons hx, split_append_replicate hy,
    List.reverse_cons, List.reverse_cons, List.reverse_replicate, List.append_assoc, List.dropWhile_append, hdrop,
    List.isEmpty_nil, if_pos rfl, List.singleton_append, List.dropWhile_cons_of_neg hfalse]
  rfl

/-- A text with the separator is split at least once. -/
theorem two_le_length_split {c : Char} (h : c ∈ s) : 2 ≤ (split [c] s).length := by
  obtain ⟨x, y, rfl⟩ := List.append_of_mem h
  have hx : 0 < (split [c] x).length := List.length_pos_iff.mpr (splitFrom_ne_nil _ _ _ _)
  have hy : 0 < (split [c] y).length := List.length_pos_iff.mpr (splitFrom_ne_nil _ _ _ _)
  rw [split_append, List.length_append]
  omega

end Split

/-! ### Encoded texts -/

section Encoded
variable {pat s : List Char}

theorem prefix_encode (hpat : ∀ c ∈ pat, c.toNat < 0x80) (h : Utf8.encode pat <+: Utf8.encode s) : pat <+: s := by
  induction pat generalizing s with
  | nil => exact List.nil_prefix
  | cons c pat ih =>
    obtain ⟨hc, htail⟩ := List.forall_mem_cons.mp hpat
    rw [Utf8.encode_cons, Utf8.encodeChar_of_lt hc, List.singleton_append] at h
    have hbyte : (UInt8.ofNat c.toNat).toNat = c.toNat := by
      simp only [UInt8.toNat_ofNat', Nat.reducePow]
      omega
    cases s with
    | nil => exact absurd (List.prefix_nil.mp h) (List.cons_ne_nil _ _)
    | cons d s =>
      have hmem : UInt8.ofNat c.toNat ∈ String.utf8EncodeChar d := by
        obtain ⟨b, l, hbl⟩ := List.exists_cons_of_ne_nil (String.utf8EncodeChar_ne_nil (c := d))
        rw [Utf8.encode_cons, hbl, List.cons_append] at h
        rw [hbl, (List.cons_prefix_cons.mp h).1]
        exact List.mem_cons_self
      have hd : d = c := by
        have heq := Utf8.toNat_of_mem_encodeChar hmem (by omega)
        exact Char.toNat_inj.mp (by omega)
      subst hd
      rw [Utf8.encode_cons, Utf8.encodeChar_of_lt hc, List.singleton_append] at h
      exact List.cons_prefix_cons.mpr ⟨rfl, ih htail (List.cons_prefix_cons.mp h).2⟩

/-- An ASCII literal occurs in an encoded text where it occurs in the text. -/
theorem infix_encode_iff (hpat : ∀ c ∈ pat, c.toNat < 0x80) : Utf8.encode pat <:+: Utf8.encode s ↔ pat <:+: s := by
  constructor
  · intro h
    cases pat with
    | nil => exact List.nil_infix
    | cons c pat =>
      have hc := (List.forall_mem_cons.mp hpat).1
      have hcons : Utf8.encode (c :: pat) = UInt8.ofNat c.toNat :: Utf8.encode pat := by
        rw [Utf8.encode_cons, Utf8.encodeChar_of_lt hc, List.singleton_append]
      have hbyte : (UInt8.ofNat c.toNat).toNat = c.toNat := by
        simp only [UInt8.toNat_ofNat', Nat.reducePow]
        omega
      induction s with
      | nil =>
        rw [hcons] at h
        exact absurd (List.infix_nil.mp h) (List.cons_ne_nil _ _)
      | cons d s ih =>
        by_cases hpre : Utf8.encode (c :: pat) <+: Utf8.encode (d :: s)
        · exact (prefix_encode hpat hpre).isInfix
        · refine List.infix_cons (ih ?_)
          rw [Utf8.encode_cons d] at h hpre
          by_cases hd : d.toNat < 0x80
          · rw [Utf8.encodeChar_of_lt hd, List.singleton_append] at h hpre
            exact (List.infix_cons_iff.mp h).resolve_left hpre
          · rw [hcons] at h ⊢
            refine infix_of_not_mem (fun hmem => hd ?_) h
            rw [Utf8.toNat_of_mem_encodeChar hmem (by omega)]
            omega
  · rintro ⟨x, y, rfl⟩
    rw [Utf8.encode_append, Utf8.encode_append]
    exact List.infix_append _ _ _

end Encoded
end Text
