import NicVpn.AngConfigManager
import NicVpn.Lib.Inet6

/-! The recogniser of IPv6 addresses and the grammar of their texts. The expression does not count the groups around two
    colons and lets a colon stand in front of the groups on either side, and of a text in brackets only what stands before
    the last closing one is looked at. -/

namespace NicVpn.Utils
open RegularExpression Inet6

section Recogniser
variable {s : List Char}

theorem mem_oneOf {l : List Char} : s ∈ (oneOf l).matches' ↔ ∃ c ∈ l, s = [c] := by
  unfold oneOf
  induction l with
  | nil => simp
  | cons c l ih =>
    have hchar : s ∈ (char c).matches' ↔ s = [c] := Iff.rfl
    rw [List.map_cons, List.foldr_cons, matches'_add, Language.mem_add, ih, hchar]
    simp

theorem mem_hexDigits (c : Char) : c ∈ "0123456789ABCDEFabcdef".toList ↔ (digit c).isSome := by
  constructor
  · exact Text.forall_of_all (p := fun c => (digit c).isSome) (by decide) c
  · intro h
    have hrange : ∀ n < 103, (48 ≤ n ∧ n ≤ 57) ∨ (97 ≤ n ∧ n ≤ 102) ∨ (65 ≤ n ∧ n ≤ 70) →
        Char.ofNat n ∈ "0123456789ABCDEFabcdef".toList := by decide
    have hc : (48 ≤ c.toNat ∧ c.toNat ≤ 57) ∨ (97 ≤ c.toNat ∧ c.toNat ≤ 102) ∨ (65 ≤ c.toNat ∧ c.toNat ≤ 70) := by
      unfold digit at h
      split at h
      · rename_i hc
        exact .inl hc
      · split at h
        · rename_i hc
          exact .inr (.inl hc)
        · split at h
          · rename_i hc
            exact .inr (.inr hc)
          · cases h
    rw [← Char.ofNat_toNat c]
    exact hrange c.toNat (by omega) hc

/-- A text of one to `n` digits. -/
def Digits (n : Nat) (s : List Char) : Prop := s ≠ [] ∧ s.length ≤ n ∧ ∀ c ∈ s, (digit c).isSome

theorem mem_hex : s ∈ (oneOf "0123456789ABCDEFabcdef".toList).matches' ↔ Digits 1 s := by
  rw [mem_oneOf]
  constructor
  · rintro ⟨c, hc, rfl⟩
    exact ⟨List.cons_ne_nil _ _, Nat.le_refl _, List.forall_mem_singleton.mpr ((mem_hexDigits c).mp hc)⟩
  · rintro ⟨hne, hlen, hdigit⟩
    obtain ⟨c, t, rfl⟩ := List.exists_cons_of_ne_nil hne
    obtain rfl : t = [] := List.length_eq_zero_iff.mp (by simpa using hlen)
    exact ⟨c, (mem_hexDigits c).mpr (hdigit c List.mem_cons_self), rfl⟩

/-- A further digit before up to `n` ones. -/
theorem mem_hex_optional {n : Nat} {p : RegularExpression Char} (hp : ∀ s, s ∈ p.matches' ↔ Digits n s) :
    s ∈ (oneOf "0123456789ABCDEFabcdef".toList * (1 + p)).matches' ↔ Digits (n + 1) s := by
  rw [matches'_mul, Language.mem_mul, matches'_add]
  constructor
  · rintro ⟨a, ha, b, hb, rfl⟩
    obtain ⟨c, hc, rfl⟩ := mem_oneOf.mp ha
    have hc := (mem_hexDigits c).mp hc
    rcases hb with hb | hb
    · obtain rfl := (Language.mem_one b).mp hb
      exact ⟨List.cons_ne_nil _ _, by simp, List.forall_mem_singleton.mpr hc⟩
    · obtain ⟨-, hlen, hdigit⟩ := (hp b).mp hb
      exact ⟨List.cons_ne_nil _ _, Nat.succ_le_succ hlen, List.forall_mem_cons.mpr ⟨hc, hdigit⟩⟩
  · rintro ⟨hne, hlen, hdigit⟩
    obtain ⟨c, t, rfl⟩ := List.exists_cons_of_ne_nil hne
    obtain ⟨hc, ht⟩ := List.forall_mem_cons.mp hdigit
    refine ⟨[c], mem_oneOf.mpr ⟨c, (mem_hexDigits c).mpr hc, rfl⟩, t, ?_, rfl⟩
    by_cases hnil : t = []
    · exact .inl ((Language.mem_one t).mpr hnil)
    · exact .inr ((hp t).mpr ⟨hnil, Nat.le_of_succ_le_succ hlen, ht⟩)

theorem mem_hexGroup : s ∈ hexGroup.matches' ↔ IsGroup s := by
  have hgroup : s ∈ hexGroup.matches' ↔ Digits 4 s :=
    mem_hex_optional fun _ => mem_hex_optional fun _ => mem_hex_optional fun _ => mem_hex
  exact hgroup.trans ⟨fun h => ⟨h.1, h.2.1, h.2.2⟩, fun h => ⟨h.ne_nil, h.length, h.digit⟩⟩

theorem mem_colonGroup : s ∈ colonGroup.matches' ↔ ∃ g, IsGroup g ∧ s = ':' :: g := by
  unfold colonGroup
  rw [matches'_mul, Language.mem_mul]
  constructor
  · rintro ⟨a, rfl, g, hg, rfl⟩
    exact ⟨g, mem_hexGroup.mp hg, rfl⟩
  · rintro ⟨g, hg, rfl⟩
    exact ⟨[':'], rfl, g, mem_hexGroup.mpr hg, rfl⟩

/-- Groups with a colon before each. -/
theorem exists_groups {l : List (List Char)} :
    (∀ x ∈ l, x ∈ colonGroup.matches') ↔ ∃ gs, Groups gs ∧ l = gs.map (':' :: ·) := by
  constructor
  · intro h
    induction l with
    | nil => exact ⟨[], groups_nil, rfl⟩
    | cons x l ih =>
      obtain ⟨hx, hl⟩ := List.forall_mem_cons.mp h
      obtain ⟨g, hg, rfl⟩ := mem_colonGroup.mp hx
      obtain ⟨gs, hgs, rfl⟩ := ih hl
      exact ⟨g :: gs, List.forall_mem_cons.mpr ⟨hg, hgs⟩, rfl⟩
  · rintro ⟨gs, hgs, rfl⟩ x hx
    obtain ⟨g, hg, rfl⟩ := List.mem_map.mp hx
    exact mem_colonGroup.mpr ⟨g, hgs g hg, rfl⟩

theorem mem_star_colonGroup :
    s ∈ (star colonGroup).matches' ↔ ∃ gs, Groups gs ∧ s = (gs.map (':' :: ·)).flatten := by
  rw [matches'_star, Language.mem_kstar]
  constructor
  · rintro ⟨l, rfl, hl⟩
    obtain ⟨gs, hgs, rfl⟩ := exists_groups.mp hl
    exact ⟨gs, hgs, rfl⟩
  · rintro ⟨gs, hgs, rfl⟩
    exact ⟨_, rfl, exists_groups.mpr ⟨gs, hgs, rfl⟩⟩

theorem mem_pow_colonGroup {n : Nat} :
    s ∈ (colonGroup ^ n).matches' ↔ ∃ gs, Groups gs ∧ gs.length = n ∧ s = (gs.map (':' :: ·)).flatten := by
  rw [matches'_pow, Language.mem_pow]
  constructor
  · rintro ⟨l, rfl, hlen, hl⟩
    obtain ⟨gs, hgs, rfl⟩ := exists_groups.mp hl
    exact ⟨gs, hgs, by simpa using hlen, rfl⟩
  · rintro ⟨gs, hgs, hlen, rfl⟩
    exact ⟨_, rfl, by simpa using hlen, exists_groups.mpr ⟨gs, hgs, rfl⟩⟩

theorem join_cons_flatten (g : List Char) (gs : List (List Char)) :
    Joined.join ':' (g :: gs) = g ++ (gs.map (':' :: ·)).flatten := by
  induction gs generalizing g with
  | nil => simp
  | cons h gs ih =>
    rw [Joined.join_cons (List.cons_ne_nil _ _), ih, List.map_cons, List.flatten_cons]
    rfl

/-- What stands on one side of two colons: groups with colons between them, and perhaps one more in front. -/
inductive Side : List Char → Prop
  | plain {gs : List (List Char)} : Groups gs → Side (Joined.join ':' gs)
  | colon {gs : List (List Char)} : Groups gs → gs ≠ [] → Side (Joined.join ':' ([] :: gs))

theorem mem_side : s ∈ ((1 + hexGroup) * star colonGroup).matches' ↔ Side s := by
  rw [matches'_mul, Language.mem_mul, matches'_add]
  constructor
  · rintro ⟨a, ha, b, hb, rfl⟩
    obtain ⟨gs, hgs, rfl⟩ := mem_star_colonGroup.mp hb
    rcases ha with ha | ha
    · obtain rfl := (Language.mem_one a).mp ha
      by_cases hnil : gs = []
      · subst hnil
        exact .plain groups_nil
      · rw [← join_cons_flatten]
        exact .colon hgs hnil
    · rw [← join_cons_flatten]
      exact .plain (List.forall_mem_cons.mpr ⟨mem_hexGroup.mp ha, hgs⟩)
  · rintro (@⟨gs, hgs⟩ | @⟨gs, hgs, -⟩)
    · cases gs with
      | nil => exact ⟨[], .inl rfl, [], mem_star_colonGroup.mpr ⟨[], groups_nil, rfl⟩, rfl⟩
      | cons g gs =>
        obtain ⟨hg, hgs⟩ := List.forall_mem_cons.mp hgs
        exact ⟨g, .inr (mem_hexGroup.mpr hg), _, mem_star_colonGroup.mpr ⟨gs, hgs, rfl⟩, (join_cons_flatten g gs).symm⟩
    · exact ⟨[], .inl rfl, _, mem_star_colonGroup.mpr ⟨gs, hgs, rfl⟩, (join_cons_flatten [] gs).symm⟩

/-- What the expression reads. -/
theorem regV6_iff : regV6.rmatch s = true ↔
    (∃ a b, Side a ∧ Side b ∧ s = a ++ ':' :: ':' :: b) ∨ ∃ gs, Groups gs ∧ gs.length = 8 ∧ s = Joined.join ':' gs := by
  rw [rmatch_iff_matches', regV6, matches'_add, Language.mem_add]
  refine or_congr ?_ ?_
  · have hassoc : ((1 + hexGroup) * star colonGroup * (char ':' * char ':') * (1 + hexGroup) * star colonGroup).matches' =
        ((1 + hexGroup) * star colonGroup).matches' *
          ((char ':' * char ':').matches' * ((1 + hexGroup) * star colonGroup).matches') := by
      simp only [matches'_mul, mul_assoc]
    rw [hassoc, Language.mem_mul]
    constructor
    · rintro ⟨a, ha, t, ht, rfl⟩
      obtain ⟨u, hu, b, hb, rfl⟩ := Language.mem_mul.mp ht
      obtain ⟨c, rfl, d, rfl, rfl⟩ := Language.mem_mul.mp hu
      exact ⟨a, b, mem_side.mp ha, mem_side.mp hb, rfl⟩
    · rintro ⟨a, b, ha, hb, rfl⟩
      have hcolons : [':', ':'] ∈ (char ':' * char ':').matches' := Language.mem_mul.mpr ⟨[':'], rfl, [':'], rfl, rfl⟩
      exact ⟨a, mem_side.mpr ha, _, Language.mem_mul.mpr ⟨_, hcolons, b, mem_side.mpr hb, rfl⟩, rfl⟩
  · rw [matches'_mul, Language.mem_mul]
    constructor
    · rintro ⟨g, hg, b, hb, rfl⟩
      obtain ⟨gs, hgs, hlen, rfl⟩ := mem_pow_colonGroup.mp hb
      exact ⟨g :: gs, List.forall_mem_cons.mpr ⟨mem_hexGroup.mp hg, hgs⟩, congrArg (· + 1) hlen,
        (join_cons_flatten g gs).symm⟩
    · rintro ⟨gs, hgs, hlen, rfl⟩
      obtain ⟨g, gs, rfl⟩ := List.exists_cons_of_length_eq_add_one hlen
      obtain ⟨hg, hgs⟩ := List.forall_mem_cons.mp hgs
      exact ⟨g, mem_hexGroup.mpr hg, _, mem_pow_colonGroup.mpr ⟨gs, hgs, Nat.succ.inj hlen, rfl⟩,
        (join_cons_flatten g gs).symm⟩

/-! ### Brackets -/

theorem unbracketed_append {x y : List Char} (hy : ']' ∉ y) : unbracketed ('[' :: (x ++ ']' :: y)) = x := by
  have hmem : ']' ∈ x ++ ']' :: y := by simp
  rw [unbracketed, if_pos ⟨rfl, List.mem_cons_of_mem _ hmem⟩]
  exact Text.substringBeforeLast_append hy

/-- A text without an opening bracket at its beginning is left as it is, and of another the brackets are taken with what
    follows the last closing one. -/
theorem unbracketed_cases (s : List Char) :
    unbracketed s = s ∨ ∃ y, ']' ∉ y ∧ s = '[' :: (unbracketed s ++ ']' :: y) := by
  by_cases h : s.head? = some '[' ∧ ']' ∈ s
  · obtain ⟨hhead, hmem⟩ := h
    cases s with
    | nil => cases hmem
    | cons c t =>
      obtain rfl := Option.some.inj hhead
      obtain ⟨x, y, rfl, hy⟩ := Text.exists_last ((List.mem_cons.mp hmem).resolve_left (by decide))
      exact .inr ⟨y, hy, by rw [unbracketed_append hy]⟩
  · exact .inl (if_neg h)

/-- IPv6 text, or such text in brackets. -/
def IsIpv6 (s : List Char) : Prop := IsText s ∨ ∃ x, IsText x ∧ s = '[' :: x ++ [']']

/-- The texts that are taken for an address although they are none: a single colon in front of the first group, a third
    colon behind two, eight groups or more around two colons, and a text behind the closing bracket. -/
inductive Misread (s : List Char) : Prop
  | first {gs : List (List Char)} {b : List Char} (hgs : Groups gs) (hne : gs ≠ []) (hb : Side b)
      (h : unbracketed s = ':' :: Joined.join ':' gs ++ ':' :: ':' :: b)
  | third {a : List Char} {hs : List (List Char)} (ha : Side a) (hhs : Groups hs) (hne : hs ≠ [])
      (h : unbracketed s = a ++ ':' :: ':' :: ':' :: Joined.join ':' hs)
  | many {gs hs : List (List Char)} (hgs : Groups gs) (hhs : Groups hs) (hlen : 8 ≤ gs.length + hs.length)
      (h : unbracketed s = Joined.join ':' gs ++ ':' :: ':' :: Joined.join ':' hs)
  | behind {x y : List Char} (hx : IsText x) (hne : y ≠ []) (hy : ']' ∉ y) (h : s = '[' :: (x ++ ']' :: y))

theorem unbracketed_of_isText (h : IsText s) : unbracketed s = s := by
  refine if_neg fun hs => ?_
  rcases h.chars '[' (List.mem_of_mem_head? hs.1) with hdigit | heq
  · cases hdigit
  · cases heq

theorem IsIpv6.unbracketed (h : IsIpv6 s) :
    IsText (unbracketed s) ∧ (s = Utils.unbracketed s ∨ s = '[' :: Utils.unbracketed s ++ [']']) := by
  rcases h with h | ⟨x, hx, rfl⟩
  · have heq := unbracketed_of_isText h
    rw [heq]
    exact ⟨h, .inl rfl⟩
  · have heq : Utils.unbracketed ('[' :: x ++ [']']) = x := unbracketed_append List.not_mem_nil
    rw [heq]
    exact ⟨hx, .inr rfl⟩

theorem side_of_groups_cons {gs : List (List Char)} (hgs : Groups gs) (hne : gs ≠ []) :
    Side (':' :: Joined.join ':' gs) := by
  have hcolon : Joined.join ':' ([] :: gs) = ':' :: Joined.join ':' gs := Joined.join_cons hne
  exact hcolon ▸ .colon hgs hne

theorem Side.exists_join {b : List Char} (h : Side b) : ∃ bs, (∀ g ∈ bs, ':' ∉ g) ∧ b = Joined.join ':' bs := by
  cases h with
  | plain hgs => exact ⟨_, fun g hg => (hgs.parts g hg).2, rfl⟩
  | colon hgs _ => exact ⟨_, List.forall_mem_cons.mpr ⟨List.not_mem_nil, fun g hg => (hgs.parts g hg).2⟩, rfl⟩

/-- Every address is taken for one. -/
theorem isIpv6Address_of_isIpv6 (h : IsIpv6 s) : isIpv6Address s = true := by
  rw [isIpv6Address, regV6_iff]
  generalize Utils.unbracketed s = u, h.unbracketed.1 = htext
  cases htext with
  | full hgs hlen => exact .inr ⟨_, hgs, hlen, rfl⟩
  | elided hgs hhs _ => exact .inl ⟨_, _, .plain hgs, .plain hhs, rfl⟩

theorem isIpv6Address_of_misread (h : Misread s) : isIpv6Address s = true := by
  rw [isIpv6Address, regV6_iff]
  cases h with
  | first hgs hne hb h => exact .inl ⟨_, _, side_of_groups_cons hgs hne, hb, h⟩
  | third ha hhs hne h => exact .inl ⟨_, _, ha, side_of_groups_cons hhs hne, h⟩
  | many hgs hhs _ h => exact .inl ⟨_, _, .plain hgs, .plain hhs, h⟩
  | @behind x y hx _ hy h =>
    have hu : Utils.unbracketed s = x := by rw [h, unbracketed_append hy]
    rw [hu, ← regV6_iff, ← unbracketed_of_isText hx]
    exact isIpv6Address_of_isIpv6 (.inl hx)

theorem not_isIpv6_of_misread (h : Misread s) : ¬IsIpv6 s := by
  intro hv6
  obtain ⟨htext, hs⟩ := hv6.unbracketed
  cases h with
  | first hgs hne hb h =>
    obtain ⟨bs, hbs, rfl⟩ := hb.exists_join
    have hcolon : Joined.join ':' ([] :: _) = ':' :: Joined.join ':' _ := Joined.join_cons hne
    rw [h, ← hcolon] at htext
    exact not_isText_of_first hgs hne hbs htext
  | third ha hhs hne h =>
    obtain ⟨as, has, rfl⟩ := ha.exists_join
    have hcolon : Joined.join ':' ([] :: _) = ':' :: Joined.join ':' _ := Joined.join_cons hne
    rw [h, ← hcolon] at htext
    exact not_isText_of_third has hhs hne htext
  | many hgs hhs hlen h => exact not_isText_of_many hgs hhs hlen (h ▸ htext)
  | @behind x y hx hne hy h =>
    have hu : Utils.unbracketed s = x := by rw [h, unbracketed_append hy]
    have hlen := List.length_pos_of_ne_nil hne
    rw [hu] at hs
    rcases hs with hs | hs
    all_goals
      have hlength := congrArg List.length (h.symm.trans hs)
      simp only [List.length_cons, List.length_append, List.length_nil] at hlength
      omega

/-- What is taken for an address is one, or else one of the misread texts. -/
theorem isIpv6_or_misread (h : isIpv6Address s = true) : IsIpv6 s ∨ Misread s := by
  have htext : IsText (Utils.unbracketed s) → IsIpv6 s ∨ Misread s := by
    intro htext
    rcases unbracketed_cases s with hs | ⟨y, hy, hs⟩
    · exact .inl (.inl (hs ▸ htext))
    · by_cases hnil : y = []
      · subst hnil
        exact .inl (.inr ⟨_, htext, hs⟩)
      · exact .inr (.behind htext hnil hy hs)
  rw [isIpv6Address, regV6_iff] at h
  rcases h with ⟨a, b, ha, hb, hs⟩ | ⟨gs, hgs, hlen, hs⟩
  · cases ha with
    | @colon gs hgs hne =>
      have hcolon : Joined.join ':' ([] :: gs) = ':' :: Joined.join ':' gs := Joined.join_cons hne
      exact .inr (.first hgs hne hb (hcolon ▸ hs))
    | @plain gs hgs =>
      cases hb with
      | @colon hs' hhs hne =>
        have hcolon : Joined.join ':' ([] :: hs') = ':' :: Joined.join ':' hs' := Joined.join_cons hne
        exact .inr (.third (.plain hgs) hhs hne (hcolon ▸ hs))
      | @plain hs' hhs =>
        rcases Nat.lt_or_ge (gs.length + hs'.length) 8 with hlt | hge
        · exact htext (hs ▸ .elided hgs hhs hlt)
        · exact .inr (.many hgs hhs hge hs)
  · exact htext (hs ▸ .full hgs hlen)

/-- The recogniser takes exactly the addresses for addresses, the misread texts apart. -/
theorem isIpv6Address_iff_isIpv6 (s : List Char) : (isIpv6Address s = true ↔ IsIpv6 s) ↔ ¬Misread s := by
  constructor
  · exact fun h hmis => not_isIpv6_of_misread hmis (h.mp (isIpv6Address_of_misread hmis))
  · intro hmis
    exact ⟨fun h => (isIpv6_or_misread h).resolve_right hmis, isIpv6Address_of_isIpv6⟩

/-- A third colon, and a word behind the brackets. -/
theorem ipv6_misread :
    (isIpv6Address ":::1".toList = true ∧ ¬IsIpv6 ":::1".toList) ∧
      isIpv6Address "[::1]x".toList = true ∧ ¬IsIpv6 "[::1]x".toList := by
  have hone : Groups [['1']] := by decide
  have hcolon : Misread ":::1".toList := .third (.plain groups_nil) hone (List.cons_ne_nil _ _) (by decide)
  have htext : IsText "::1".toList := .elided groups_nil hone (by decide)
  have hword : Misread "[::1]x".toList := .behind htext (List.cons_ne_nil 'x' []) (by decide) rfl
  exact ⟨⟨isIpv6Address_of_misread hcolon, not_isIpv6_of_misread hcolon⟩, isIpv6Address_of_misread hword,
    not_isIpv6_of_misread hword⟩

end Recogniser
end NicVpn.Utils
