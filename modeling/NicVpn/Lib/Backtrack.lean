import Mathlib.Data.List.Basic

/-! Patterns with groups as an engine reads them that backtracks: a repetition takes the most or the fewest characters
    first, and gives way while the rest of the pattern does not match. The rest is a continuation. -/

namespace Backtrack

variable {β : Type}

/-- `p*`, with what follows it. -/
def longest (p : Char → Bool) (s : List Char) (k : List Char → List Char → Option β) : Option β :=
  match s with
  | [] => k [] []
  | c :: t =>
    if p c then
      match longest p t fun g rest => k (c :: g) rest with
      | some b => some b
      | none => k [] (c :: t)
    else k [] (c :: t)

/-- `p*?`, with what follows it. -/
def shortest (p : Char → Bool) (s : List Char) (k : List Char → List Char → Option β) : Option β :=
  match s with
  | [] => k [] []
  | c :: t =>
    match k [] (c :: t) with
    | some b => some b
    | none => if p c then shortest p t fun g rest => k (c :: g) rest else none

/-- `p+?`, with what follows it. -/
def shortestPlus (p : Char → Bool) (s : List Char) (k : List Char → List Char → Option β) : Option β :=
  shortest p s fun g rest => if g = [] then none else k g rest

/-- One character, with what follows it. -/
def char (c : Char) (s : List Char) (k : List Char → Option β) : Option β :=
  match s with
  | [] => none
  | d :: s => if d = c then k s else none

/-- `.`: any character but a line terminator. -/
def dot (c : Char) : Bool :=
  let n := c.toNat
  n != 0xA && n != 0xD && n != 0x85 && n != 0x2028 && n != 0x2029

/-- `\d` -/
def digit (c : Char) : Bool := '0' ≤ c && c ≤ '9'

section Repetition
variable {p : Char → Bool} {s g g' rest : List Char} {k : List Char → List Char → Option β} {b : β}

/-- A way to take characters off a text. -/
def Takes (p : Char → Bool) (s g rest : List Char) : Prop := s = g ++ rest ∧ ∀ c ∈ g, p c = true

theorem takes_nil (p : Char → Bool) (s : List Char) : Takes p s [] s := ⟨rfl, fun _ h => absurd h List.not_mem_nil⟩

theorem takes_cons_iff {c : Char} : Takes p (c :: s) (c :: g) rest ↔ p c = true ∧ Takes p s g rest := by
  unfold Takes
  rw [List.cons_append, List.cons.injEq, List.forall_mem_cons]
  exact ⟨fun h => ⟨h.2.1, h.1.2, h.2.2⟩, fun h => ⟨⟨rfl, h.2.1⟩, h.1, h.2.2⟩⟩

theorem Takes.cases {c : Char} (h : Takes p (c :: s) g rest) :
    (g = [] ∧ rest = c :: s) ∨ (∃ g', g = c :: g' ∧ p c = true ∧ Takes p s g' rest) := by
  cases g with
  | nil => exact .inl ⟨rfl, h.1.symm⟩
  | cons d g =>
    obtain ⟨rfl, -⟩ := List.cons.inj (h.1 : c :: s = d :: (g ++ rest))
    exact .inr ⟨g, rfl, takes_cons_iff.mp h⟩

theorem forall_takes_cons {c : Char} (hc : p c = true) :
    (∀ g rest, Takes p (c :: s) g rest → k g rest = none) ↔
      k [] (c :: s) = none ∧ ∀ g rest, Takes p s g rest → k (c :: g) rest = none := by
  constructor
  · intro h
    exact ⟨h _ _ (takes_nil p _), fun g rest hg => h _ _ (takes_cons_iff.mpr ⟨hc, hg⟩)⟩
  · rintro ⟨hnil, hcons⟩ g rest hg
    obtain ⟨rfl, rfl⟩ | ⟨g', rfl, -, hg'⟩ := hg.cases
    · exact hnil
    · exact hcons g' rest hg'

theorem forall_takes_of_not {c : Char} (hc : ¬p c = true) :
    (∀ g rest, Takes p (c :: s) g rest → k g rest = none) ↔ k [] (c :: s) = none := by
  constructor
  · intro h
    exact h _ _ (takes_nil p _)
  · intro hnil g rest hg
    obtain ⟨rfl, rfl⟩ | ⟨g', rfl, hc', -⟩ := hg.cases
    · exact hnil
    · exact absurd hc' hc

theorem forall_takes_nil : (∀ g rest, Takes p [] g rest → k g rest = none) ↔ k [] [] = none := by
  constructor
  · intro h
    exact h _ _ (takes_nil p _)
  · rintro hnil g rest ⟨hg, -⟩
    obtain ⟨rfl, rfl⟩ := List.append_eq_nil_iff.mp hg.symm
    exact hnil

theorem longest_eq_none_iff : longest p s k = none ↔ ∀ g rest, Takes p s g rest → k g rest = none := by
  induction s generalizing k with
  | nil => exact forall_takes_nil.symm
  | cons c s ih =>
    unfold longest
    split
    · rename_i hc
      rw [forall_takes_cons hc, ← ih]
      split
      · rename_i hb
        simp [hb]
      · rename_i hnone
        simp [hnone]
    · rename_i hc
      exact (forall_takes_of_not hc).symm

theorem shortest_eq_none_iff : shortest p s k = none ↔ ∀ g rest, Takes p s g rest → k g rest = none := by
  induction s generalizing k with
  | nil => exact forall_takes_nil.symm
  | cons c s ih =>
    unfold shortest
    split
    · rename_i hb
      refine iff_of_false (by simp) fun h => ?_
      rw [h _ _ (takes_nil p _)] at hb
      cases hb
    · rename_i hnone
      split
      · rename_i hc
        rw [forall_takes_cons hc, ← ih]
        simp [hnone]
      · rename_i hc
        rw [forall_takes_of_not hc]
        simp [hnone]

/-- Two ways to take equally many characters are the same. -/
theorem Takes.eq_of_length {g' rest' : List Char} (h : Takes p s g rest) (h' : Takes p s g' rest')
    (hlen : g.length = g'.length) : g = g' ∧ rest = rest' :=
  List.append_inj (h.1.symm.trans h'.1) hlen

theorem exists_longest (h : longest p s k = some b) :
    ∃ g rest, Takes p s g rest ∧ k g rest = some b ∧
      ∀ g' rest', Takes p s g' rest' → g.length < g'.length → k g' rest' = none := by
  induction s generalizing k with
  | nil =>
    refine ⟨[], [], takes_nil p [], h, fun g' rest' h' hlen => ?_⟩
    obtain ⟨rfl, -⟩ := List.append_eq_nil_iff.mp h'.1.symm
    exact absurd hlen (Nat.lt_irrefl _)
  | cons c s ih =>
    unfold longest at h
    split at h
    · rename_i hc
      split at h
      · rename_i b' hb
        cases h
        obtain ⟨g, rest, htakes, hk, hmax⟩ := ih hb
        refine ⟨c :: g, rest, takes_cons_iff.mpr ⟨hc, htakes⟩, hk, fun g' rest' h' hlen => ?_⟩
        obtain ⟨rfl, -⟩ | ⟨g', rfl, -, h'⟩ := h'.cases
        · exact absurd hlen (Nat.not_lt_zero _)
        · exact hmax g' rest' h' (Nat.lt_of_succ_lt_succ hlen)
      · rename_i hnone
        refine ⟨[], c :: s, takes_nil p _, h, fun g' rest' h' hlen => ?_⟩
        obtain ⟨rfl, -⟩ | ⟨g', rfl, -, h'⟩ := h'.cases
        · exact absurd hlen (Nat.lt_irrefl _)
        · exact longest_eq_none_iff.mp hnone g' rest' h'
    · rename_i hc
      refine ⟨[], c :: s, takes_nil p _, h, fun g' rest' h' hlen => ?_⟩
      obtain ⟨rfl, -⟩ | ⟨g', rfl, hc', -⟩ := h'.cases
      · exact absurd hlen (Nat.lt_irrefl _)
      · exact absurd hc' hc

theorem exists_shortest (h : shortest p s k = some b) :
    ∃ g rest, Takes p s g rest ∧ k g rest = some b ∧
      ∀ g' rest', Takes p s g' rest' → g'.length < g.length → k g' rest' = none := by
  induction s generalizing k with
  | nil => exact ⟨[], [], takes_nil p _, h, fun _ _ _ hlen => absurd hlen (Nat.not_lt_zero _)⟩
  | cons c s ih =>
    unfold shortest at h
    split at h
    · rename_i hb
      cases h
      exact ⟨[], c :: s, takes_nil p _, hb, fun _ _ _ hlen => absurd hlen (Nat.not_lt_zero _)⟩
    · rename_i hnone
      split at h
      · rename_i hc
        obtain ⟨g, rest, htakes, hk, hmin⟩ := ih h
        refine ⟨c :: g, rest, takes_cons_iff.mpr ⟨hc, htakes⟩, hk, fun g' rest' h' hlen => ?_⟩
        obtain ⟨rfl, rfl⟩ | ⟨g', rfl, -, h'⟩ := h'.cases
        · exact hnone
        · exact hmin g' rest' h' (Nat.lt_of_succ_lt_succ hlen)
      · cases h

/-- The most characters with which the rest matches. -/
theorem longest_eq_some_iff :
    longest p s k = some b ↔ ∃ g rest, Takes p s g rest ∧ k g rest = some b ∧
      ∀ g' rest', Takes p s g' rest' → g.length < g'.length → k g' rest' = none := by
  refine ⟨exists_longest, ?_⟩
  rintro ⟨g, rest, hg, hk, hmax⟩
  cases hlongest : longest p s k with
  | none =>
    rw [longest_eq_none_iff.mp hlongest g rest hg] at hk
    cases hk
  | some b' =>
    obtain ⟨g', rest', hg', hk', hmax'⟩ := exists_longest hlongest
    rcases Nat.lt_trichotomy g.length g'.length with hlt | heq | hlt
    · rw [hmax g' rest' hg' hlt] at hk'
      cases hk'
    · obtain ⟨rfl, rfl⟩ := hg.eq_of_length hg' heq
      exact hk'.symm.trans hk
    · rw [hmax' g rest hg hlt] at hk
      cases hk

/-- The fewest characters with which the rest matches. -/
theorem shortest_eq_some_iff :
    shortest p s k = some b ↔ ∃ g rest, Takes p s g rest ∧ k g rest = some b ∧
      ∀ g' rest', Takes p s g' rest' → g'.length < g.length → k g' rest' = none := by
  refine ⟨exists_shortest, ?_⟩
  rintro ⟨g, rest, hg, hk, hmin⟩
  cases hshortest : shortest p s k with
  | none =>
    rw [shortest_eq_none_iff.mp hshortest g rest hg] at hk
    cases hk
  | some b' =>
    obtain ⟨g', rest', hg', hk', hmin'⟩ := exists_shortest hshortest
    rcases Nat.lt_trichotomy g.length g'.length with hlt | heq | hlt
    · rw [hmin' g rest hg hlt] at hk
      cases hk
    · obtain ⟨rfl, rfl⟩ := hg.eq_of_length hg' heq
      exact hk'.symm.trans hk
    · rw [hmin g' rest' hg' hlt] at hk'
      cases hk'

theorem char_cons (c : Char) (s : List Char) (k : List Char → Option β) : char c (c :: s) k = k s := if_pos rfl

theorem char_of_ne {c d : Char} (h : d ≠ c) (s : List Char) (k : List Char → Option β) : char c (d :: s) k = none := if_neg h

/-- A way to take fewer characters leaves the rest of them. -/
theorem Takes.exists_rest {t : List Char} (h : Takes p (g ++ t) g' rest) (hlen : g'.length < g.length) :
    ∃ d u, g = g' ++ d :: u ∧ rest = d :: (u ++ t) := by
  obtain ⟨v, hv⟩ := List.prefix_of_prefix_length_le (h.1 ▸ List.prefix_append g' rest) (List.prefix_append g t)
    (Nat.le_of_lt hlen)
  cases v with
  | nil =>
    rw [List.append_nil] at hv
    exact absurd hlen (hv ▸ Nat.lt_irrefl _)
  | cons d u =>
    refine ⟨d, u, hv.symm, ?_⟩
    have hrest := h.1
    rw [← hv, List.append_assoc] at hrest
    exact (List.append_cancel_left hrest).symm

/-- `p+?` takes a text if the rest matches behind it and behind no part of it. -/
theorem shortestPlus_eq_some (hg : Takes p s g rest) (hne : g ≠ []) (hk : k g rest = some b)
    (hmin : ∀ d u g', g = g' ++ d :: u → k g' (d :: (u ++ rest)) = none) : shortestPlus p s k = some b := by
  refine shortest_eq_some_iff.mpr ⟨g, rest, hg, by rw [if_neg hne, hk], fun g' rest' h' hlen => ?_⟩
  rw [hg.1] at h'
  obtain ⟨d, u, hgu, rfl⟩ := h'.exists_rest hlen
  split
  · rfl
  · exact hmin d u g' hgu

/-- `p+?` up to the first `c`. -/
theorem shortestPlus_char {c : Char} {k : List Char → List Char → Option β} (hp : ∀ d ∈ g, p d = true) (hne : g ≠ [])
    (hc : c ∉ g) (hk : k g rest = some b) : shortestPlus p (g ++ c :: rest) (fun g s => char c s (k g)) = some b := by
  refine shortestPlus_eq_some ⟨rfl, hp⟩ hne ((char_cons c rest (k g)).trans hk) fun d u g' hg => ?_
  exact char_of_ne (fun heq => hc (by rw [hg, ← heq]; simp)) _ _

/-- `p*` up to the last `c`. -/
theorem longest_char {c : Char} {k : List Char → List Char → Option β} (hp : ∀ d ∈ g, p d = true) (hc : c ∉ rest)
    (hk : k g rest = some b) : longest p (g ++ c :: rest) (fun g s => char c s (k g)) = some b := by
  refine longest_eq_some_iff.mpr ⟨g, c :: rest, ⟨rfl, hp⟩, (char_cons c rest (k g)).trans hk, fun g' rest' h' hlen => ?_⟩
  obtain ⟨v, hv⟩ := List.prefix_of_prefix_length_le (List.prefix_append g (c :: rest)) (h'.1 ▸ List.prefix_append g' rest')
    (Nat.le_of_lt hlen)
  have hrest : c :: rest = v ++ rest' := by
    have htext := h'.1
    rw [← hv, List.append_assoc] at htext
    exact List.append_cancel_left htext
  cases v with
  | nil => exact absurd hlen (by simp [← hv])
  | cons d v =>
    obtain ⟨-, hrest⟩ := List.cons.inj hrest
    cases rest' with
    | nil => rfl
    | cons d' rest' => exact char_of_ne (fun heq => hc (by simp [hrest, heq])) _ _

theorem char_eq_some_iff {c : Char} {k : List Char → Option β} : char c s k = some b ↔ ∃ t, s = c :: t ∧ k t = some b := by
  cases s with
  | nil =>
    refine iff_of_false (fun h => nomatch h) ?_
    rintro ⟨t, ht, -⟩
    cases ht
  | cons d s =>
    by_cases hd : d = c
    · rw [hd, char_cons]
      constructor
      · exact fun h => ⟨s, rfl, h⟩
      · rintro ⟨t, ht, h⟩
        cases ht
        exact h
    · rw [char_of_ne hd]
      refine iff_of_false (fun h => nomatch h) ?_
      rintro ⟨t, ht, -⟩
      exact hd (List.cons.inj ht).1

theorem exists_shortestPlus (h : shortestPlus p s k = some b) : ∃ g rest, g ≠ [] ∧ Takes p s g rest ∧ k g rest = some b := by
  obtain ⟨g, rest, hg, hk, -⟩ := exists_shortest h
  split at hk
  · cases hk
  · rename_i hne
    exact ⟨g, rest, hne, hg, hk⟩

end Repetition

end Backtrack
