import NicVpn.Lib.Text

/-! Texts that are put together from parts: which parts can be told again. Parts without the separator can, and
    so can numbers between characters that are no digits. -/

namespace Joined

/-! ### Separators -/

section
variable {α : Type} {c : α} {x y u v : List α}

/-- The first separator ends the first part. -/
theorem append_cons_inj (hx : c ∉ x) (hy : c ∉ y) (h : x ++ c :: u = y ++ c :: v) : x = y ∧ u = v := by
  induction x generalizing y with
  | nil =>
    cases y with
    | nil => exact ⟨rfl, (List.cons.inj h).2⟩
    | cons b y => exact absurd ((List.cons.inj h).1 ▸ List.mem_cons_self) hy
  | cons a x ih =>
    cases y with
    | nil => exact absurd ((List.cons.inj h).1 ▸ List.mem_cons_self) hx
    | cons b y =>
      obtain ⟨hab, htail⟩ := List.cons.inj h
      obtain ⟨hxy, huv⟩ :=
        ih (fun hm => hx (List.mem_cons_of_mem _ hm)) (fun hm => hy (List.mem_cons_of_mem _ hm)) htail
      exact ⟨by rw [hab, hxy], huv⟩

/-- Of two separators the same one comes first. -/
theorem append_cons_ne_append_cons {d : α} (hcd : c ≠ d) (hx : d ∉ x) (hy : c ∉ y) : x ++ c :: u ≠ y ++ d :: v := by
  intro h
  induction x generalizing y with
  | nil =>
    cases y with
    | nil => exact hcd (List.cons.inj h).1
    | cons b y => exact hy ((List.cons.inj h).1 ▸ List.mem_cons_self)
  | cons a x ih =>
    cases y with
    | nil => exact hx ((List.cons.inj h).1 ▸ List.mem_cons_self)
    | cons b y =>
      exact ih (fun hm => hx (List.mem_cons_of_mem _ hm)) (fun hm => hy (List.mem_cons_of_mem _ hm)) (List.cons.inj h).2

/-- A text without the separator is no text with it. -/
theorem append_cons_ne (hy : c ∉ y) : x ++ c :: u ≠ y := by
  rintro rfl
  exact hy (List.mem_append_right _ List.mem_cons_self)

end

section
variable {c : Char} {x : List Char} {l l' : List (List Char)}

def join (c : Char) (l : List (List Char)) : List Char := (l.intersperse [c]).flatten

@[simp] theorem join_nil : join c [] = [] := rfl

@[simp] theorem join_singleton : join c [x] = x := by simp [join]

theorem join_cons (hl : l ≠ []) : join c (x :: l) = x ++ c :: join c l := by
  obtain ⟨y, l, rfl⟩ := List.exists_cons_of_ne_nil hl
  simp [join]

theorem cons_join (d : Char) : d :: join c (x :: l) = join c ((d :: x) :: l) := by
  by_cases hnil : l = []
  · subst hnil
    simp
  · rw [join_cons hnil, join_cons hnil, List.cons_append]

theorem join_ne_nil (hl : l ≠ []) (h : ∀ x ∈ l, x ≠ []) : join c l ≠ [] := by
  obtain ⟨x, l, rfl⟩ := List.exists_cons_of_ne_nil hl
  by_cases hnil : l = []
  · subst hnil
    rw [join_singleton]
    exact h x List.mem_cons_self
  · rw [join_cons hnil]
    exact List.append_ne_nil_of_right_ne_nil _ (List.cons_ne_nil _ _)

theorem split_join (hl : l ≠ []) : Text.split [c] (join c l) = l.flatMap (Text.split [c]) := by
  induction l with
  | nil => exact absurd rfl hl
  | cons x l ih =>
    by_cases hnil : l = []
    · subst hnil
      rw [join_singleton, List.flatMap_singleton]
    · rw [join_cons hnil, Text.split_append, ih hnil, List.flatMap_cons]

/-- Parts without the separator are told again. -/
theorem split_join_of_not_mem (hl : l ≠ []) (h : ∀ x ∈ l, c ∉ x) : Text.split [c] (join c l) = l := by
  have hsplit : ∀ x ∈ l, Text.split [c] x = [x] := fun x hx => Text.split_of_not_mem (h x hx)
  rw [split_join hl, List.flatMap_congr hsplit, List.flatMap_singleton']

theorem mem_join {d : Char} (hd : d ≠ c) : d ∈ join c l ↔ ∃ x ∈ l, d ∈ x := by
  induction l with
  | nil => simp
  | cons x l ih =>
    by_cases hnil : l = []
    · subst hnil
      simp
    · rw [join_cons hnil, List.mem_append, List.mem_cons, ih]
      simp [hd]

theorem flatMap_append_singleton (hl : l ≠ []) : (l.flatMap fun x => x ++ [c]) = join c l ++ [c] := by
  induction l with
  | nil => exact absurd rfl hl
  | cons x l ih =>
    by_cases hnil : l = []
    · subst hnil
      simp
    · rw [List.flatMap_cons, ih hnil, join_cons hnil, List.append_assoc, List.append_assoc]
      rfl

/-- Parts that are not empty and do not contain the separator. -/
def Parts (c : Char) (l : List (List Char)) : Prop := ∀ x ∈ l, x ≠ [] ∧ c ∉ x

theorem join_inj (hl : Parts c l) (hl' : Parts c l') (h : join c l = join c l') : l = l' := by
  induction l generalizing l' with
  | nil =>
    by_contra hne
    exact join_ne_nil (Ne.symm hne) (fun x hx => (hl' x hx).1) h.symm
  | cons x l ih =>
    obtain ⟨hx, hl⟩ := List.forall_mem_cons.mp hl
    cases l' with
    | nil => exact absurd h (join_ne_nil (List.cons_ne_nil _ _) (List.forall_mem_cons.mpr ⟨hx.1, fun y hy => (hl y hy).1⟩))
    | cons x' l' =>
      obtain ⟨hx', hl'⟩ := List.forall_mem_cons.mp hl'
      by_cases hnil : l = [] <;> by_cases hnil' : l' = []
      · subst hnil hnil'
        rw [join_singleton, join_singleton] at h
        rw [h]
      · subst hnil
        rw [join_singleton, join_cons hnil'] at h
        exact absurd h.symm (append_cons_ne hx.2)
      · subst hnil'
        rw [join_singleton, join_cons hnil] at h
        exact absurd h (append_cons_ne hx'.2)
      · rw [join_cons hnil, join_cons hnil'] at h
        obtain ⟨hxx, hll⟩ := append_cons_inj hx.2 hx'.2 h
        rw [hxx, ih hl hl' hll]

/-- Things that are told by their texts are told by the joined texts. -/
theorem join_map_inj {α : Type} {f : α → List Char} {l l' : List α} (hf : ∀ a ∈ l, ∀ b ∈ l', f a = f b → a = b)
    (hl : Parts c (l.map f)) (hl' : Parts c (l'.map f)) (h : join c (l.map f) = join c (l'.map f)) : l = l' := by
  have hmap := join_inj hl hl' h
  clear h hl hl'
  induction l generalizing l' with
  | nil => exact (List.map_eq_nil_iff.mp hmap.symm).symm
  | cons a l ih =>
    cases l' with
    | nil => cases hmap
    | cons b l' =>
      obtain ⟨hab, hll⟩ := List.cons.inj hmap
      rw [hf a List.mem_cons_self b List.mem_cons_self hab,
        ih (fun x hx y hy => hf x (List.mem_cons_of_mem _ hx) y (List.mem_cons_of_mem _ hy)) hll]

end

/-! ### Numbers -/

theorem digitChar_inj : ∀ a < 16, ∀ b < 16, Nat.digitChar a = Nat.digitChar b → a = b := by decide

theorem length_toDigits_pos (b n : Nat) : 0 < (Nat.toDigits b n).length := List.length_pos_of_ne_nil Nat.toDigits_ne_nil

theorem toDigits_inj {b : Nat} (hb : 1 < b) (hb' : b ≤ 16) {m n : Nat} (h : Nat.toDigits b m = Nat.toDigits b n) :
    m = n := by
  induction m using Nat.strongRecOn generalizing n with
  | _ m ih =>
    have hlen : ∀ k, b ≤ k → 1 < (Nat.toDigits b k).length := by
      intro k hk
      have := length_toDigits_pos b (k / b)
      rw [Nat.toDigits_of_base_le hb hk, List.length_append, List.length_singleton]
      omega
    by_cases hm : m < b <;> by_cases hn : n < b
    · rw [Nat.toDigits_of_lt_base hm, Nat.toDigits_of_lt_base hn] at h
      exact digitChar_inj m (by omega) n (by omega) (List.cons.inj h).1
    · have := hlen n (Nat.not_lt.mp hn)
      rw [← h, Nat.toDigits_of_lt_base hm, List.length_singleton] at this
      exact absurd this (Nat.lt_irrefl 1)
    · have := hlen m (Nat.not_lt.mp hm)
      rw [h, Nat.toDigits_of_lt_base hn, List.length_singleton] at this
      exact absurd this (Nat.lt_irrefl 1)
    · have hm := Nat.not_lt.mp hm
      have hn := Nat.not_lt.mp hn
      rw [Nat.toDigits_of_base_le hb hm, Nat.toDigits_of_base_le hb hn] at h
      obtain ⟨hdiv, hmod⟩ := List.append_inj' h rfl
      have hdiv := ih (m / b) (Nat.div_lt_self (by omega) hb) hdiv
      have hmod := digitChar_inj (m % b) (Nat.lt_of_lt_of_le (Nat.mod_lt _ (by omega)) hb') (n % b)
        (Nat.lt_of_lt_of_le (Nat.mod_lt _ (by omega)) hb') (List.cons.inj hmod).1
      rw [← Nat.div_add_mod m b, ← Nat.div_add_mod n b, hdiv, hmod]

theorem exists_of_mem_toDigits {b : Nat} (hb : 1 < b) {n : Nat} {c : Char} (h : c ∈ Nat.toDigits b n) :
    ∃ d < b, c = Nat.digitChar d := by
  induction n using Nat.strongRecOn with
  | _ n ih =>
    by_cases hn : n < b
    · rw [Nat.toDigits_of_lt_base hn, List.mem_singleton] at h
      exact ⟨n, hn, h⟩
    · rw [Nat.toDigits_of_base_le hb (Nat.not_lt.mp hn), List.mem_append, List.mem_singleton] at h
      rcases h with h | h
      · exact ih (n / b) (Nat.div_lt_self (by omega) hb) h
      · exact ⟨n % b, Nat.mod_lt _ (by omega), h⟩

/-- A character that is no hexadecimal digit is in no number. -/
theorem not_mem_toDigits {b : Nat} (hb : 1 < b) (hb' : b ≤ 16) {c : Char} (hc : ∀ d < 16, c ≠ Nat.digitChar d)
    (n : Nat) : c ∉ Nat.toDigits b n := by
  intro h
  obtain ⟨d, hd, hcd⟩ := exists_of_mem_toDigits hb h
  exact hc d (by omega) hcd

/-- A number of at most two digits that begins like another one is that one with a digit more. -/
theorem toDigits_eq_append {b m n : Nat} (hb : 1 < b) (hb' : b ≤ 16) (hn : n < b * b) {x : List Char} (hx : x ≠ [])
    (h : Nat.toDigits b n = Nat.toDigits b m ++ x) : 0 < m ∧ m = n / b ∧ x = [Nat.digitChar (n % b)] := by
  have hm := length_toDigits_pos b m
  have hxpos := List.length_pos_of_ne_nil hx
  have hlen := congrArg List.length h
  rw [List.length_append] at hlen
  have hbn : b ≤ n := by
    by_contra hlt
    rw [Nat.toDigits_of_lt_base (Nat.not_le.mp hlt), List.length_singleton] at hlen
    omega
  have hdiv : n / b < b := Nat.div_lt_of_lt_mul hn
  rw [Nat.toDigits_of_base_le hb hbn, Nat.toDigits_of_lt_base hdiv] at h hlen
  simp only [List.length_append, List.length_singleton] at hlen
  obtain ⟨hdigits, hrest⟩ := List.append_inj' h (by rw [List.length_singleton]; omega)
  rw [← Nat.toDigits_of_lt_base hdiv] at hdigits
  have heq := toDigits_inj hb hb' hdigits
  exact ⟨heq ▸ Nat.div_pos hbn (by omega), heq.symm, hrest.symm⟩

/-- A number goes on into the text after it: with the text's first character it is still a number in range. -/
def RunsInto (max n : Nat) (text rest : List Char) : Prop :=
  0 < n ∧ ∃ d < 10, text = Nat.digitChar d :: rest ∧ 10 * n + d ≤ max

/-- A number of at most two digits and a text after it can be told, unless the number goes on into the text. -/
theorem toDigits_append_inj {max m n : Nat} (hmax : max < 100) (hm : m ≤ max) (hn : n ≤ max) {x y : List Char}
    (h : Nat.toDigits 10 m ++ x = Nat.toDigits 10 n ++ y) :
    (m = n ∧ x = y) ∨ RunsInto max m x y ∨ RunsInto max n y x := by
  have hruns : ∀ {m n : Nat} {x y z : List Char}, n ≤ max → z ≠ [] → Nat.toDigits 10 n = Nat.toDigits 10 m ++ z →
      x = z ++ y → RunsInto max m x y := by
    intro m n x y z hn hz hdigits hx
    obtain ⟨hpos, hdiv, hlast⟩ := toDigits_eq_append (by decide) (by decide) (by omega) hz hdigits
    refine ⟨hpos, n % 10, Nat.mod_lt _ (by decide), ?_, by omega⟩
    rw [hx, hlast, List.singleton_append]
  rcases List.append_eq_append_iff.mp h with ⟨z, hz, hx⟩ | ⟨z, hz, hy⟩
  · by_cases hnil : z = []
    · rw [hnil, List.append_nil] at hz
      rw [hnil, List.nil_append] at hx
      exact .inl ⟨(toDigits_inj (by decide) (by decide) hz).symm, hx⟩
    · exact .inr (.inl (hruns hn hnil hz hx))
  · by_cases hnil : z = []
    · rw [hnil, List.append_nil] at hz
      rw [hnil, List.nil_append] at hy
      exact .inl ⟨toDigits_inj (by decide) (by decide) hz, hy.symm⟩
    · exact .inr (.inr (hruns hm hnil hz hy))

end Joined
