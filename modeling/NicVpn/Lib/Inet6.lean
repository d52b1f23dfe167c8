import NicVpn.Lib.Joined
import Mathlib.Data.Nat.Digits.Lemmas

/-! Texts of IPv6 addresses: eight groups of hexadecimal digits with colons between them, where two colons stand for
    one or more groups of zeros. The text that ends in an IPv4 address is not among them. -/

namespace Inet6

def digit (c : Char) : Option Nat :=
  if '0' ≤ c ∧ c ≤ '9' then some (c.toNat - 48)
  else if 'a' ≤ c ∧ c ≤ 'f' then some (c.toNat - 87)
  else if 'A' ≤ c ∧ c ≤ 'F' then some (c.toNat - 55)
  else none

def number (s : List Char) : Option Nat := s.foldlM (fun n c => (digit c).map (16 * n + ·)) 0

/-- One to four digits. -/
def group (s : List Char) : Option Nat := if s = [] ∨ 4 < s.length then none else number s

/-- The groups on one side of the two colons, where there may be none. -/
def groups (s : List Char) : Option (List Nat) := if s = [] then some [] else (Text.split [':'] s).mapM group

/-- The number of an address, from its highest group on. -/
def value (gs : List Nat) : Nat := gs.foldl (fun n g => n * 65536 + g) 0

def parse (s : List Char) : Option Nat :=
  match Text.indexOf [':', ':'] s with
  | none => do
    let gs ← groups s
    if gs.length = 8 then some (value gs) else none
  | some i => do
    let gs ← groups (s.take i)
    let hs ← groups (s.drop (i + 2))
    if gs.length + hs.length < 8 then some (value (gs ++ List.replicate (8 - (gs.length + hs.length)) 0 ++ hs)) else none

/-! ### Numbers -/

theorem digit_digitChar : ∀ d < 16, digit (Nat.digitChar d) = some d := by decide

theorem number_toDigits (n : Nat) : number (Nat.toDigits 16 n) = some n := by
  induction n using Nat.strong_induction_on with
  | _ n ih =>
    rcases Nat.lt_or_ge n 16 with hlt | hge
    · rw [Nat.toDigits_of_lt_base hlt]
      simp [number, digit_digitChar n hlt]
    · have hlow := digit_digitChar (n % 16) (Nat.mod_lt n (by decide))
      have hhigh := ih (n / 16) (by omega)
      rw [number] at hhigh
      rw [Nat.toDigits_of_base_le (by decide) hge, number, List.foldlM_append, hhigh]
      simp [hlow, Nat.div_add_mod]

theorem group_toDigits {n : Nat} (hn : n < 65536) : group (Nat.toDigits 16 n) = some n := by
  have hlen : (Nat.toDigits 16 n).length ≤ 4 := (Nat.length_toDigits_le_iff (by decide) (by decide)).mpr hn
  rw [group, if_neg (not_or.mpr ⟨Nat.toDigits_ne_nil, Nat.not_lt.mpr hlen⟩), number_toDigits]

theorem value_reverse (l : List Nat) : value l.reverse = Nat.ofDigits 65536 l := by
  induction l with
  | nil => rfl
  | cons d l ih =>
    rw [value, List.reverse_cons, List.foldl_append, Nat.ofDigits_cons, ← ih]
    simp only [value, List.foldl_cons, List.foldl_nil]
    omega

/-! ### Texts without and with two colons -/

section Colons
variable {l : List (List Char)}

/-- Behind a colon of joined parts a part begins. -/
theorem behind_colon (hl : Joined.Parts ':' l) {a t : List Char} (h : Joined.join ':' l = a ++ ':' :: t) :
    ¬(t = [] ∨ ∃ u, t = ':' :: u) := by
  have hne : l ≠ [] := by
    rintro rfl
    simp at h
  have hsplit := Joined.split_join_of_not_mem hne fun x hx => (hl x hx).2
  rw [h, Text.split_append] at hsplit
  have hmem : ∀ x ∈ Text.split [':'] t, x ≠ [] := fun x hx => (hl x (hsplit ▸ List.mem_append_right _ hx)).1
  rintro (rfl | ⟨u, rfl⟩)
  · exact hmem [] (by simp [Text.split, Text.splitFrom]) rfl
  · have hfirst : Text.split [':'] (':' :: u) = [] :: Text.split [':'] u := Text.split_append_cons List.not_mem_nil
    exact hmem [] (hfirst ▸ List.mem_cons_self) rfl

theorem indexOf_join (hl : Joined.Parts ':' l) : Text.indexOf [':', ':'] (Joined.join ':' l) = none := by
  by_contra hne
  obtain ⟨a, b, hab⟩ := Text.infix_of_contains (Option.isSome_iff_ne_none.mpr hne)
  have h : Joined.join ':' l = a ++ ':' :: (':' :: b) := by rw [← hab, List.append_assoc]; rfl
  exact behind_colon hl h (.inr ⟨b, rfl⟩)

theorem indexOf_join_colons (hl : Joined.Parts ':' l) :
    Text.indexOf [':', ':'] (Joined.join ':' l ++ [':', ':']) = some (Joined.join ':' l).length := by
  have hfrom : ∀ a x, Joined.join ':' l = a ++ x → Text.indexOf [':', ':'] (x ++ [':', ':']) = some x.length := by
    intro a x
    induction x generalizing a with
    | nil => exact fun _ => rfl
    | cons c x ih =>
      intro h
      have hpre : ¬[':', ':'].isPrefixOf (c :: x ++ [':', ':']) = true := by
        intro hp
        obtain ⟨y, hy⟩ := List.isPrefixOf_iff_prefix.mp hp
        obtain ⟨rfl, htail⟩ := List.cons.inj hy
        refine behind_colon hl h ?_
        cases x with
        | nil => exact .inl rfl
        | cons d x =>
          obtain ⟨rfl, -⟩ := List.cons.inj htail
          exact .inr ⟨x, rfl⟩
      have hrec := ih (a ++ [c]) (by rw [h, List.append_assoc]; rfl)
      rw [List.cons_append] at hpre ⊢
      rw [Text.indexOf, if_neg hpre, hrec]
      rfl
  exact hfrom [] _ rfl

end Colons

/-! ### Groups -/

section Groups
variable {l : List Nat}

theorem parts_toDigits (l : List Nat) : Joined.Parts ':' (l.map (Nat.toDigits 16)) := by
  intro x hx
  obtain ⟨g, -, rfl⟩ := List.mem_map.mp hx
  exact ⟨Nat.toDigits_ne_nil, Joined.not_mem_toDigits (by decide) (by decide) (by decide) g⟩

theorem groups_join (h : ∀ g ∈ l, g < 65536) : groups (Joined.join ':' (l.map (Nat.toDigits 16))) = some l := by
  have hmap : (l.map (Nat.toDigits 16)).mapM group = some l := by
    induction l with
    | nil => rfl
    | cons g l ih =>
      obtain ⟨hg, hl⟩ := List.forall_mem_cons.mp h
      rw [List.map_cons, List.mapM_cons, group_toDigits hg, ih hl]
      rfl
  by_cases hnil : l = []
  · subst hnil
    rfl
  · have hne : l.map (Nat.toDigits 16) ≠ [] := by simpa using hnil
    rw [groups, if_neg (Joined.join_ne_nil hne fun x hx => (parts_toDigits l x hx).1),
      Joined.split_join_of_not_mem hne fun x hx => (parts_toDigits l x hx).2, hmap]

theorem parse_join (h : ∀ g ∈ l, g < 65536) :
    parse (Joined.join ':' (l.map (Nat.toDigits 16))) = if l.length = 8 then some (value l) else none := by
  rw [parse, indexOf_join (parts_toDigits l)]
  simp only [groups_join h, bind, Option.bind]

/-- Two colons at the end stand for the groups that are missing. -/
theorem parse_join_colons (h : ∀ g ∈ l, g < 65536) :
    parse (Joined.join ':' (l.map (Nat.toDigits 16)) ++ [':', ':']) =
      if l.length < 8 then some (value (l ++ List.replicate (8 - l.length) 0)) else none := by
  have hdrop : ∀ x : List Char, (x ++ [':', ':']).drop (x.length + 2) = [] := fun x =>
    List.drop_eq_nil_of_le (by simp)
  have hnil : groups [] = some [] := rfl
  rw [parse, indexOf_join_colons (parts_toDigits l)]
  simp only [List.take_left, groups_join h, hdrop, hnil, bind, Option.bind, List.length_nil, Nat.add_zero,
    List.append_nil]

end Groups

/-! ### The grammar of texts -/

/-- One to four hexadecimal digits. -/
structure IsGroup (g : List Char) : Prop where
  ne_nil : g ≠ []
  length : g.length ≤ 4
  digit : ∀ c ∈ g, (digit c).isSome

instance (g : List Char) : Decidable (IsGroup g) :=
  decidable_of_iff (g ≠ [] ∧ g.length ≤ 4 ∧ (g.all fun c => (digit c).isSome) = true)
    ⟨fun h => ⟨h.1, h.2.1, List.all_eq_true.mp h.2.2⟩, fun h => ⟨h.ne_nil, h.length, List.all_eq_true.mpr h.digit⟩⟩

def Groups (gs : List (List Char)) : Prop := ∀ g ∈ gs, IsGroup g

instance (gs : List (List Char)) : Decidable (Groups gs) := inferInstanceAs (Decidable (∀ g ∈ gs, IsGroup g))

/-- Eight groups with colons between them, or fewer around two colons. -/
inductive IsText : List Char → Prop
  | full {gs : List (List Char)} : Groups gs → gs.length = 8 → IsText (Joined.join ':' gs)
  | elided {gs hs : List (List Char)} : Groups gs → Groups hs → gs.length + hs.length < 8 →
      IsText (Joined.join ':' gs ++ ':' :: ':' :: Joined.join ':' hs)

/-- The parts of a joined text; no groups make one empty part. -/
def shown (gs : List (List Char)) : List (List Char) := if gs = [] then [[]] else gs

section Grammar
variable {gs hs as bs : List (List Char)} {s : List Char}

theorem Groups.parts (h : Groups gs) : Joined.Parts ':' gs := fun g hg =>
  ⟨(h g hg).ne_nil, fun hc => by cases (h g hg).digit ':' hc⟩

theorem Groups.nil_not_mem (h : Groups gs) : [] ∉ gs := fun hmem => (h [] hmem).ne_nil rfl

theorem groups_nil : Groups [] := List.forall_mem_nil _

theorem shown_ne_nil (gs : List (List Char)) : shown gs ≠ [] := by
  unfold shown
  split
  · exact List.cons_ne_nil _ _
  · assumption

theorem filter_shown (h : [] ∉ gs) : (shown gs).filter (· ≠ []) = gs := by
  unfold shown
  split
  · rename_i hnil
    rw [hnil]
    rfl
  · exact List.filter_eq_self.mpr fun g hg => decide_eq_true fun heq => h (heq ▸ hg)

theorem split_join_shown (h : ∀ g ∈ gs, ':' ∉ g) : Text.split [':'] (Joined.join ':' gs) = shown gs := by
  unfold shown
  split
  · rename_i hnil
    rw [hnil]
    rfl
  · rename_i hne
    exact Joined.split_join_of_not_mem hne h

/-- Two colons leave an empty part between them. -/
theorem split_colons (ha : ∀ g ∈ as, ':' ∉ g) (hb : ∀ g ∈ bs, ':' ∉ g) :
    Text.split [':'] (Joined.join ':' as ++ ':' :: ':' :: Joined.join ':' bs) = shown as ++ [] :: shown bs := by
  have hempty : Text.split [':'] (':' :: Joined.join ':' bs) = [] :: shown bs := by
    rw [← split_join_shown hb]
    exact Text.split_append_cons List.not_mem_nil
  rw [Text.split_append, split_join_shown ha, hempty]

theorem IsText.split (h : IsText s) :
    (∃ gs, Groups gs ∧ gs.length = 8 ∧ Text.split [':'] s = gs) ∨
      ∃ gs hs, Groups gs ∧ Groups hs ∧ gs.length + hs.length < 8 ∧ Text.split [':'] s = shown gs ++ [] :: shown hs := by
  cases h with
  | @full gs hgs hlen =>
    have hne : gs ≠ [] := fun hnil => by simp [hnil] at hlen
    exact .inl ⟨gs, hgs, hlen, Joined.split_join_of_not_mem hne fun g hg => (hgs.parts g hg).2⟩
  | @elided gs hs hgs hhs hlen =>
    exact .inr ⟨gs, hs, hgs, hhs, hlen, split_colons (fun g hg => (hgs.parts g hg).2) fun g hg => (hhs.parts g hg).2⟩

/-- Every character is a digit or a colon. -/
theorem IsText.chars (h : IsText s) : ∀ c ∈ s, (digit c).isSome ∨ c = ':' := by
  have hjoin : ∀ gs, Groups gs → ∀ c ∈ Joined.join ':' gs, (digit c).isSome ∨ c = ':' := by
    intro gs hgs c hc
    by_cases hcolon : c = ':'
    · exact .inr hcolon
    · obtain ⟨g, hg, hcg⟩ := (Joined.mem_join hcolon).mp hc
      exact .inl ((hgs g hg).digit c hcg)
  intro c hc
  cases h with
  | full hgs _ => exact hjoin _ hgs c hc
  | elided hgs hhs _ =>
    rcases List.mem_append.mp hc with hc | hc
    · exact hjoin _ hgs c hc
    · simp only [List.mem_cons] at hc
      rcases hc with rfl | rfl | hc
      · exact .inr rfl
      · exact .inr rfl
      · exact hjoin _ hhs c hc

/-- Around two colons there are fewer than eight groups. -/
theorem not_isText_of_many (hgs : Groups gs) (hhs : Groups hs) (hlen : 8 ≤ gs.length + hs.length) :
    ¬IsText (Joined.join ':' gs ++ ':' :: ':' :: Joined.join ':' hs) := by
  intro h
  have hsplit := split_colons (fun g hg => (hgs.parts g hg).2) fun g hg => (hhs.parts g hg).2
  rcases h.split with ⟨gs', hgs', -, heq⟩ | ⟨gs', hs', hgs', hhs', hlen', heq⟩
  · refine hgs'.nil_not_mem ?_
    rw [← heq, hsplit]
    simp
  · have hfilter := congrArg (fun l => (l.filter (· ≠ [])).length) (hsplit.symm.trans heq)
    simp only [List.filter_append, List.length_append, List.filter_cons, ne_eq, not_true_eq_false, decide_false,
      Bool.false_eq_true, ↓reduceIte] at hfilter
    have hcount := fun l (hl : Groups l) => congrArg List.length (filter_shown hl.nil_not_mem)
    simp only [ne_eq] at hcount
    rw [hcount gs hgs, hcount hs hhs, hcount gs' hgs', hcount hs' hhs'] at hfilter
    omega

/-- No single colon stands at the beginning. -/
theorem not_isText_of_first (hgs : Groups gs) (hne : gs ≠ []) (hb : ∀ g ∈ bs, ':' ∉ g) :
    ¬IsText (Joined.join ':' ([] :: gs) ++ ':' :: ':' :: Joined.join ':' bs) := by
  intro h
  have ha : ∀ g ∈ [] :: gs, ':' ∉ g := List.forall_mem_cons.mpr ⟨List.not_mem_nil, fun g hg => (hgs.parts g hg).2⟩
  have hsplit := split_colons ha hb
  obtain ⟨g, gs, rfl⟩ := List.exists_cons_of_ne_nil hne
  have hg : g ≠ [] := (hgs g List.mem_cons_self).ne_nil
  rcases h.split with ⟨gs', hgs', -, heq⟩ | ⟨gs', hs', hgs', -, -, heq⟩
  · refine hgs'.nil_not_mem ?_
    rw [← heq, hsplit]
    simp
  · rw [hsplit] at heq
    cases gs' with
    | nil => exact hg (List.cons.inj (List.cons.inj heq).2).1
    | cons g' gs' => exact (hgs' g' List.mem_cons_self).ne_nil (List.cons.inj heq).1.symm

/-- No third colon stands behind two colons. -/
theorem not_isText_of_third (ha : ∀ g ∈ as, ':' ∉ g) (hhs : Groups hs) (hne : hs ≠ []) :
    ¬IsText (Joined.join ':' as ++ ':' :: ':' :: Joined.join ':' ([] :: hs)) := by
  intro h
  have hb : ∀ g ∈ [] :: hs, ':' ∉ g := List.forall_mem_cons.mpr ⟨List.not_mem_nil, fun g hg => (hhs.parts g hg).2⟩
  have hsplit := split_colons ha hb
  rcases h.split with ⟨gs', hgs', -, heq⟩ | ⟨gs', hs', hgs', hhs', -, heq⟩
  · refine hgs'.nil_not_mem ?_
    rw [← heq, hsplit]
    simp
  · -- the groups at the end are the same, and before them there are two empty parts on one side only
    have hrev := congrArg List.reverse (hsplit.symm.trans heq)
    have hshown : shown ([] :: hs) = [] :: hs := rfl
    simp only [hshown, List.reverse_append, List.reverse_cons, List.append_assoc, List.singleton_append] at hrev
    have hno : ∀ l, Groups l → [] ∉ l.reverse := fun l hl hmem => hl.nil_not_mem (List.mem_reverse.mp hmem)
    by_cases hnil : hs' = []
    · subst hnil
      obtain ⟨x, l, hl⟩ := List.exists_cons_of_ne_nil (List.reverse_ne_nil_iff.mpr hne)
      rw [hl] at hrev
      have hx : x = [] := (List.cons.inj hrev).1
      exact hno hs hhs (hl ▸ hx ▸ List.mem_cons_self)
    · have hshown' : shown hs' = hs' := if_neg hnil
      rw [hshown'] at hrev
      obtain ⟨-, hrest⟩ := Joined.append_cons_inj (hno hs hhs) (hno hs' hhs') hrev
      by_cases hnil' : gs' = []
      · subst hnil'
        have hempty : (shown as).reverse = [] := (List.cons.inj hrest).2
        exact shown_ne_nil as (List.reverse_eq_nil_iff.mp hempty)
      · have hmem : [] ∈ (shown gs').reverse := hrest ▸ List.mem_cons_self
        rw [shown, if_neg hnil'] at hmem
        exact hno gs' hgs' hmem

end Grammar

end Inet6
