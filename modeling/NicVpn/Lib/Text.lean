import Mathlib.Data.List.Basic

/-! Texts as the Java and Kotlin standard libraries read them: digits of any script, decimal numbers
    with a range, hexadecimal text and booleans. A text is a list of Unicode characters; a character
    outside the basic plane counts as two units, none of which is a digit. -/

namespace Text

/-- A property of the characters of a text, checked on these characters only. -/
theorem forall_of_all {p : Char → Prop} [DecidablePred p] {s : List Char} (h : s.all (fun c => decide (p c)) = true) :
    ∀ c ∈ s, p c := fun c hc => of_decide_eq_true (List.all_eq_true.mp h c hc)

/-! ### Digits -/

/-- The zeros of the decimal digits of the basic plane. -/
def zeros : List Nat :=
  [0x0030, 0x0660, 0x06F0, 0x07C0, 0x0966, 0x09E6, 0x0A66, 0x0AE6, 0x0B66, 0x0BE6, 0x0C66, 0x0CE6, 0x0D66,
   0x0DE6, 0x0E50, 0x0ED0, 0x0F20, 0x1040, 0x1090, 0x17E0, 0x1810, 0x1946, 0x19D0, 0x1A80, 0x1A90, 0x1B50,
   0x1BB0, 0x1C40, 0x1C50, 0xA620, 0xA8D0, 0xA900, 0xA9D0, 0xA9F0, 0xAA50, 0xABF0, 0xFF10]

/-- The first letters of the Latin alphabets that serve as digits: small, capital and the two full-width ones. -/
def letters : List Nat := [0x61, 0x41, 0xFF41, 0xFF21]

/-- The value of a unit as a digit, whatever the radix. -/
def value (n : Nat) : Option Nat :=
  match zeros.find? fun z => z ≤ n && n < z + 10 with
  | some z => some (n - z)
  | none => (letters.find? fun a => a ≤ n && n < a + 26).map fun a => n - a + 10

/-- `Character.digit`: the value of a digit of the radix, and −1 for any other unit. -/
def digit (radix n : Nat) : Int :=
  match value n with
  | some d => if d < radix then d else -1
  | none => -1

/-- The digits of a text, unit by unit. Both units of a surrogate pair give −1. -/
def digits (radix : Nat) (s : List Char) : List Int :=
  s.flatMap fun c => if c.toNat < 0x10000 then [digit radix c.toNat] else [-1, -1]

/-! ### Numbers and booleans -/

/-- The value of a nonempty row of digits. -/
def magnitude (radix : Nat) : List Int → Option Int
  | [] => none
  | ds => if ds.all (0 ≤ ·) then some (ds.foldl (fun n d => n * radix + d) 0) else none

/-- A signed number of the given range; no value for any other text. -/
def parseSigned (lo hi : Int) (s : List Char) : Option Int := do
  let n ← match s with
    | '-' :: s => (magnitude 10 (digits 10 s)).map (-·)
    | '+' :: s => magnitude 10 (digits 10 s)
    | s => magnitude 10 (digits 10 s)
  if lo ≤ n ∧ n ≤ hi then some n else none

def toLong : List Char → Option Int := parseSigned (-9223372036854775808) 9223372036854775807

def toInt : List Char → Option Int := parseSigned (-2147483648) 2147483647

/-- `String.toBoolean`: the word `true` in any case. -/
def toBoolean (s : List Char) : Bool := s.map Char.toLower == ['t', 'r', 'u', 'e']

/-- `String.trim`: no units up to the blank at either end. -/
def trim (s : List Char) : List Char :=
  ((s.dropWhile (· ≤ ' ')).reverse.dropWhile (· ≤ ' ')).reverse

theorem mem_trim {c : Char} (hc : ¬c ≤ ' ') {s : List Char} : c ∈ trim s ↔ c ∈ s := by
  have hdrop : ∀ l : List Char, c ∈ l.dropWhile (· ≤ ' ') ↔ c ∈ l := by
    intro l
    induction l with
    | nil => rfl
    | cons d l ih =>
      by_cases hd : d ≤ ' '
      · have hne : c ≠ d := fun h => hc (h ▸ hd)
        rw [List.dropWhile_cons_of_pos (by simpa using hd), ih]
        simp [hne]
      · rw [List.dropWhile_cons_of_neg (by simpa using hd)]
  rw [trim, List.mem_reverse, hdrop, List.mem_reverse, hdrop]

/-- White space and space separators. -/
def isWhitespace (c : Char) : Bool :=
  let n := c.toNat
  (0x09 ≤ n && n ≤ 0x0D) || (0x1C ≤ n && n ≤ 0x20) || n == 0xA0 || n == 0x1680 || (0x2000 ≤ n && n ≤ 0x200A) ||
    n == 0x2028 || n == 0x2029 || n == 0x202F || n == 0x205F || n == 0x3000

def isBlank (s : List Char) : Bool := s.all isWhitespace

/-- `CharSequence.trim`: no white space at either end. -/
def strip (s : List Char) : List Char :=
  ((s.dropWhile isWhitespace).reverse.dropWhile isWhitespace).reverse

theorem dropWhile_eq_self {p : Char → Bool} {s t : List Char} (h : t <+: s.dropWhile p) : t.dropWhile p = t := by
  cases t with
  | nil => rfl
  | cons c t =>
    obtain ⟨u, hu⟩ := h
    have hc := List.head?_dropWhile_not p s
    rw [← hu] at hc
    exact List.dropWhile_cons_of_neg (by simpa using hc)

theorem strip_strip (s : List Char) : strip (strip s) = strip s := by
  have hstart : ((s.dropWhile isWhitespace).reverse.dropWhile isWhitespace).reverse <+: s.dropWhile isWhitespace := by
    rw [← List.reverse_suffix, List.reverse_reverse]
    exact List.dropWhile_suffix _
  have hend := dropWhile_eq_self (List.prefix_refl ((s.dropWhile isWhitespace).reverse.dropWhile isWhitespace))
  unfold strip
  rw [dropWhile_eq_self hstart, List.reverse_reverse, hend]

theorem strip_sublist (s : List Char) : (strip s).Sublist s := by
  unfold strip
  rw [← List.reverse_sublist, List.reverse_reverse]
  exact (List.dropWhile_sublist _).trans (List.reverse_sublist.mpr (List.dropWhile_sublist _))

/-- The ASCII letter, in lower case, that a character equals when case is ignored: four characters outside
    ASCII equal one. -/
def foldCase (c : Char) : Char :=
  if c.toNat = 0x130 ∨ c.toNat = 0x131 then 'i'
  else if c.toNat = 0x17F then 's'
  else if c.toNat = 0x212A then 'k'
  else c.toLower

/-- `String.equals` of an ASCII word, ignoring case. -/
def equalsIgnoreCase (s word : List Char) : Bool := s.map foldCase == word.map foldCase

/-- `String.substringBeforeLast` of one character: the whole text when it does not occur. -/
def substringBeforeLast (c : Char) (s : List Char) : List Char :=
  if c ∈ s then (s.reverse.dropWhile (· ≠ c)).tail.reverse else s

def substringAfterLast (c : Char) (s : List Char) : List Char := (s.reverse.takeWhile (· ≠ c)).reverse

/-- The lines after a carriage return or another character; `part` is the present line, reversed. -/
def linesFrom : Bool → List Char → List Char → List (List Char)
  | _, part, [] => [part.reverse]
  | cr, part, c :: s =>
    if cr ∧ c = '\n' then linesFrom false part s
    else if c = '\n' ∨ c = '\r' then part.reverse :: linesFrom (c = '\r') [] s
    else linesFrom false (c :: part) s

/-- `String.lines`: CR LF, LF and CR end a line. -/
def lines (s : List Char) : List (List Char) := linesFrom false [] s

def indentWidth (l : List Char) : Nat := (l.takeWhile isWhitespace).length

/-- The lines without the indentation that all of them but the blank ones have; a blank line at either end is left out. -/
def unindented (ls : List (List Char)) : List (List Char) :=
  let minCommonIndent := ((ls.filter fun l => !isBlank l).map indentWidth).min?.getD 0
  ls.zipIdx.filterMap fun (l, i) =>
    if (i = 0 ∨ i = ls.length - 1) ∧ isBlank l then none else some (l.drop minCommonIndent)

/-- `String.trimIndent` -/
def trimIndent (s : List Char) : List Char := ['\n'].intercalate (unindented (lines s))

/-! ### Lines -/

/-- Each line feed ends a line, but one behind a carriage return ends none of its own. -/
theorem count_lt_length_linesFrom (cr : Bool) (part s : List Char) :
    s.count '\n' < (linesFrom cr part s).length + (if cr then 1 else 0) := by
  induction s generalizing cr part with
  | nil =>
    simp only [linesFrom, List.count_nil, List.length_singleton]
    omega
  | cons c s ih =>
    rw [linesFrom]
    split
    · rename_i h
      have hrest := ih false part
      rw [h.2, List.count_cons_self, if_pos h.1]
      simp only [Bool.false_eq_true, if_false] at hrest
      omega
    · split
      · have hrest := ih (c = '\r') []
        rename_i h
        rcases h with rfl | rfl
        · simp only [List.count_cons_self, List.length_cons, decide_eq_true_eq, Char.reduceEq, if_false] at hrest ⊢
          omega
        · rw [List.count_cons_of_ne (by decide)]
          simp only [List.length_cons, decide_true, if_true] at hrest ⊢
          omega
      · rename_i h
        have hrest := ih false (c :: part)
        rw [List.count_cons_of_ne (fun heq => h (.inl heq))]
        simp only [Bool.false_eq_true, if_false] at hrest
        omega

theorem count_lt_length_lines (s : List Char) : s.count '\n' < (lines s).length := count_lt_length_linesFrom false [] s

/-- The inner lines stay. -/
theorem two_le_length_unindented {ls : List (List Char)} (h : 4 ≤ ls.length) : 2 ≤ (unindented ls).length := by
  match ls, h with
  | w :: x :: y :: z :: ls, _ =>
    have hinner : [(x, 1), (y, 2)].Sublist (w :: x :: y :: z :: ls).zipIdx :=
      .cons _ (.cons_cons _ (.cons_cons _ (List.nil_sublist _)))
    unfold unindented
    refine Nat.le_trans ?_ (hinner.filterMap _).length_le
    simp

/-- Three line feeds leave one. -/
theorem trimIndent_ne_nil {s : List Char} (h : 3 ≤ s.count '\n') : trimIndent s ≠ [] := by
  have hlength := two_le_length_unindented (Nat.lt_of_le_of_lt h (count_lt_length_lines s))
  unfold trimIndent
  match unindented (lines s), hlength with
  | x :: y :: l, _ =>
    rw [List.intercalate_cons_cons]
    simp

/-! ### Reading back decimal numbers -/

theorem digit_ten {n : Nat} (h : 48 ≤ n) (h' : n ≤ 57) : digit 10 n = ((n - 48 : Nat) : Int) := by
  have hz : zeros.find? (fun z => decide (z ≤ n) && decide (n < z + 10)) = some 48 := by
    rw [zeros, List.find?_cons_of_pos]
    simp only [Bool.and_eq_true, decide_eq_true_eq]
    omega
  have hd : n - 48 < 10 := by omega
  simp only [digit, value, hz, hd, ↓reduceIte]

theorem digits_cons_digit {c : Char} (hc : c.isDigit = true) (s : List Char) :
    digits 10 (c :: s) = ((c.toNat - 48 : Nat) : Int) :: digits 10 s := by
  obtain ⟨h, h'⟩ : 48 ≤ c.toNat ∧ c.toNat ≤ 57 := by simpa [Char.isDigit, UInt32.le_iff_toNat_le] using hc
  have hbasic : c.toNat < 0x10000 := by omega
  simp only [digits, List.flatMap_cons, hbasic, ↓reduceIte, digit_ten h h', List.cons_append, List.nil_append]

theorem foldl_digits {s : List Char} (hs : ∀ c ∈ s, c.isDigit = true) (n : Nat) :
    (digits 10 s).foldl (fun (n : Int) d => n * (10 : Nat) + d) (n : Int) = ((Nat.ofDigitChars 10 s n : Nat) : Int) := by
  induction s generalizing n with
  | nil => simp [digits]
  | cons c s ih =>
    obtain ⟨hc, hs⟩ := List.forall_mem_cons.mp hs
    have hstep : (n : Int) * (10 : Nat) + ((c.toNat - 48 : Nat) : Int) = ((10 * n + (c.toNat - 48) : Nat) : Int) := by
      omega
    rw [digits_cons_digit hc, List.foldl_cons, hstep, ih hs, Nat.ofDigitChars_cons]
    rfl

theorem nonneg_of_mem_digits {s : List Char} (hs : ∀ c ∈ s, c.isDigit = true) : ∀ d ∈ digits 10 s, 0 ≤ d := by
  induction s with
  | nil => simp [digits]
  | cons c s ih =>
    obtain ⟨hc, hs⟩ := List.forall_mem_cons.mp hs
    rw [digits_cons_digit hc]
    exact List.forall_mem_cons.mpr ⟨Int.natCast_nonneg _, ih hs⟩

theorem magnitude_digits {s : List Char} (hne : s ≠ []) (hs : ∀ c ∈ s, c.isDigit = true) :
    magnitude 10 (digits 10 s) = some ((Nat.ofDigitChars 10 s 0 : Nat) : Int) := by
  have hall : (digits 10 s).all (0 ≤ ·) = true := by
    rw [List.all_eq_true]
    intro d hd
    exact decide_eq_true (nonneg_of_mem_digits hs d hd)
  have hdigits : digits 10 s ≠ [] := by
    obtain ⟨c, s, rfl⟩ := List.exists_cons_of_ne_nil hne
    rw [digits_cons_digit (hs c List.mem_cons_self)]
    exact List.cons_ne_nil _ _
  unfold magnitude
  split
  · rename_i hnil
    exact absurd hnil hdigits
  · rw [if_pos hall]
    exact congrArg some (foldl_digits hs 0)

theorem magnitude_toDigits (n : Nat) : magnitude 10 (digits 10 (Nat.toDigits 10 n)) = some (n : Int) := by
  rw [magnitude_digits Nat.toDigits_ne_nil fun c hc => Nat.isDigit_of_mem_toDigits (by decide) (by decide) hc,
    Nat.ofDigitChars_ten_toDigits]

/-- A text of digits is read as its number. -/
theorem parseSigned_digits {lo hi : Int} {s : List Char} (hne : s ≠ []) (hs : ∀ c ∈ s, c.isDigit = true)
    (hlo : lo ≤ (Nat.ofDigitChars 10 s 0 : Nat)) (hhi : ((Nat.ofDigitChars 10 s 0 : Nat) : Int) ≤ hi) :
    parseSigned lo hi s = some ((Nat.ofDigitChars 10 s 0 : Nat) : Int) := by
  have hmag := magnitude_digits hne hs
  unfold parseSigned
  split
  · exact absurd (hs _ List.mem_cons_self) (by decide)
  · exact absurd (hs _ List.mem_cons_self) (by decide)
  · rw [hmag]
    exact if_pos ⟨hlo, hhi⟩

/-- A number in range is read back from its decimal text. -/
theorem parseSigned_toString {lo hi n : Int} (hlo : lo ≤ n) (hhi : n ≤ hi) :
    parseSigned lo hi (toString n).toList = some n := by
  have hdigit : ∀ {c : Char} {m : Nat} {s : List Char}, Nat.toDigits 10 m = c :: s → c.isDigit = true := fun h =>
    Nat.isDigit_of_mem_toDigits (by decide) (by decide) (h ▸ List.mem_cons_self)
  have hrange : (if lo ≤ n ∧ n ≤ hi then some n else none) = some n := if_pos ⟨hlo, hhi⟩
  cases n with
  | ofNat m =>
    have hlist : (toString (Int.ofNat m)).toList = Nat.toDigits 10 m := Nat.toList_repr
    have hm := magnitude_toDigits m
    rw [hlist]
    unfold parseSigned
    split
    · rename_i s heq
      exact absurd (hdigit heq) (by decide)
    · rename_i s heq
      exact absurd (hdigit heq) (by decide)
    · rw [hm]
      exact hrange
  | negSucc m =>
    have hlist : (toString (Int.negSucc m)).toList = '-' :: Nat.toDigits 10 (m + 1) := by
      rw [← Nat.toList_repr]
      exact String.toList_append
    have hm := magnitude_toDigits (m + 1)
    rw [hlist]
    simp only [parseSigned, hm, Option.map_some, bind, Option.bind]
    exact hrange

/-- The text of a number that is not negative has digits only. -/
theorem isDigit_of_mem_toString {n : Int} (hn : 0 ≤ n) {c : Char} (h : c ∈ (toString n).toList) : c.isDigit = true := by
  obtain ⟨m, rfl⟩ := Int.eq_ofNat_of_zero_le hn
  have hlist : (toString (m : Int)).toList = Nat.toDigits 10 m := Nat.toList_repr
  exact Nat.isDigit_of_mem_toDigits (by decide) (by decide) (hlist ▸ h)

theorem toString_ne_nil (n : Int) : (toString n).toList ≠ [] := by
  intro h
  have hparse := parseSigned_toString (Int.le_refl n) (Int.le_refl n)
  rw [h] at hparse
  cases hparse

theorem range_of_parseSigned {lo hi n : Int} {s : List Char} (h : parseSigned lo hi s = some n) : lo ≤ n ∧ n ≤ hi := by
  have hrange : ∀ x : Option Int, (x.bind fun m => if lo ≤ m ∧ m ≤ hi then some m else none) = some n →
      lo ≤ n ∧ n ≤ hi := by
    intro x hx
    obtain ⟨m, -, hm⟩ := Option.bind_eq_some_iff.mp hx
    split at hm
    · rename_i hm'
      cases hm
      exact hm'
    · cases hm
  unfold parseSigned at h
  split at h <;> exact hrange _ h

/-- Digits alone make no negative number. -/
theorem nonneg_of_parseSigned {lo hi n : Int} {s : List Char} (hs : ∀ c ∈ s, c.isDigit = true)
    (h : parseSigned lo hi s = some n) : 0 ≤ n := by
  unfold parseSigned at h
  split at h
  · exact absurd (hs _ List.mem_cons_self) (by decide)
  · exact absurd (hs _ List.mem_cons_self) (by decide)
  · by_cases hne : s = []
    · subst hne
      cases h
    · rw [magnitude_digits hne hs] at h
      obtain ⟨-, h⟩ := Option.ite_none_right_eq_some.mp h
      cases h
      exact Int.natCast_nonneg _

/-! ### Last occurrences -/

theorem exists_last {c : Char} {s : List Char} (h : c ∈ s) : ∃ x y, s = x ++ c :: y ∧ c ∉ y := by
  obtain ⟨x, y, hs, hx⟩ := List.eq_append_cons_of_mem (List.mem_reverse.mpr h)
  refine ⟨y.reverse, x.reverse, ?_, fun hmem => hx (List.mem_reverse.mp hmem)⟩
  have hrev := congrArg List.reverse hs
  rw [List.reverse_reverse] at hrev
  rw [hrev]
  simp

theorem substringBeforeLast_append {c : Char} {x y : List Char} (hy : c ∉ y) : substringBeforeLast c (x ++ c :: y) = x := by
  rw [substringBeforeLast, if_pos (by simp), List.reverse_append, List.reverse_cons, List.append_assoc]
  have htrue : ∀ d ∈ y.reverse, decide (d ≠ c) = true := fun d hd =>
    decide_eq_true fun heq => hy (heq ▸ List.mem_reverse.mp hd)
  rw [List.dropWhile_append_of_pos htrue, List.singleton_append, List.dropWhile_cons_of_neg (by simp), List.tail_cons,
    List.reverse_reverse]

/-! ### Literal search -/

/-- Replacing after `k` characters that belong to a match already replaced. -/
def replaceFrom (old new : List Char) : Nat → List Char → List Char
  | _, [] => []
  | k + 1, _ :: s => replaceFrom old new k s
  | 0, c :: s =>
    if old.isPrefixOf (c :: s) then new ++ replaceFrom old new (old.length - 1) s else c :: replaceFrom old new 0 s

/-- `String.replace` of a literal, from left to right and without overlaps. -/
def replace (old new s : List Char) : List Char := replaceFrom old new 0 s

/-- One character is replaced wherever it is. -/
theorem replace_singleton (c : Char) (new s : List Char) :
    replace [c] new s = s.flatMap fun d => if d = c then new else [d] := by
  unfold replace
  induction s with
  | nil => rfl
  | cons d s ih =>
    unfold replaceFrom
    by_cases hd : d = c
    · subst hd
      simp [List.isPrefixOf, ih]
    · have hne : ¬c = d := fun h => hd h.symm
      simp [List.isPrefixOf, hd, hne, ih]

theorem replaceFrom_skip (old new x s : List Char) :
    replaceFrom old new x.length (x ++ s) = replaceFrom old new 0 s := by
  induction x with
  | nil => rfl
  | cons c x ih => exact ih

/-- A literal at the beginning is replaced first. -/
theorem replace_append {old : List Char} (hold : old ≠ []) (new s : List Char) :
    replace old new (old ++ s) = new ++ replace old new s := by
  obtain ⟨c, t, rfl⟩ := List.exists_cons_of_ne_nil hold
  have hpre : ((c :: t).isPrefixOf (c :: (t ++ s))) = true :=
    List.isPrefixOf_iff_prefix.mpr (List.prefix_append (c :: t) s)
  unfold replace
  rw [List.cons_append, replaceFrom, if_pos hpre, List.length_cons, Nat.add_sub_cancel, replaceFrom_skip]

/-- A text in which the literal does not occur. -/
theorem replace_of_absent {old new s : List Char} (h : ¬old <:+: s) : replace old new s = s := by
  unfold replace
  induction s with
  | nil => rfl
  | cons c s ih =>
    have hpre : ¬old.isPrefixOf (c :: s) = true := fun hp => h (List.isPrefixOf_iff_prefix.mp hp).isInfix
    rw [replaceFrom, if_neg hpre, ih fun hs => h (List.infix_cons hs)]

/-- Splitting after `k` characters of a separator; `part` is the present part, reversed. -/
def splitFrom (sep : List Char) : Nat → List Char → List Char → List (List Char)
  | _, part, [] => [part.reverse]
  | k + 1, part, _ :: s => splitFrom sep k part s
  | 0, part, c :: s =>
    if sep.isPrefixOf (c :: s) then part.reverse :: splitFrom sep (sep.length - 1) [] s
    else splitFrom sep 0 (c :: part) s

def split (sep s : List Char) : List (List Char) := splitFrom sep 0 [] s

/-- `String.split` by one character without a limit: trailing empty parts are left out. -/
def parts (c : Char) (s : List Char) : List (List Char) :=
  if c ∈ s then ((split [c] s).reverse.dropWhile List.isEmpty).reverse else [s]

section Parts
variable {c d : Char} {s x y : List Char}

theorem splitFrom_nil (sep part : List Char) (k : Nat) : splitFrom sep k part [] = [part.reverse] := by
  cases k <;> rfl

theorem splitFrom_self (c : Char) (part s : List Char) :
    splitFrom [c] 0 part (c :: s) = part.reverse :: splitFrom [c] 0 [] s :=
  if_pos (by simp [List.isPrefixOf])

theorem splitFrom_of_ne (h : c ≠ d) (part s : List Char) :
    splitFrom [c] 0 part (d :: s) = splitFrom [c] 0 (d :: part) s :=
  if_neg (by simp [List.isPrefixOf, h])

theorem split_of_not_mem (h : c ∉ s) : split [c] s = [s] := by
  have hfrom : ∀ part, splitFrom [c] 0 part s = [part.reverse ++ s] := by
    induction s with
    | nil =>
      intro part
      rw [splitFrom_nil, List.append_nil]
    | cons d s ih =>
      obtain ⟨hd, hs⟩ := List.ne_and_not_mem_of_not_mem_cons h
      intro part
      rw [splitFrom_of_ne hd, ih hs, List.reverse_cons, List.append_assoc, List.singleton_append]
  exact hfrom []

theorem split_append_cons (h : c ∉ x) : split [c] (x ++ c :: y) = x :: split [c] y := by
  have hfrom : ∀ part, splitFrom [c] 0 part (x ++ c :: y) = (part.reverse ++ x) :: split [c] y := by
    induction x with
    | nil =>
      intro part
      rw [List.nil_append, List.append_nil]
      exact splitFrom_self c part y
    | cons d x ih =>
      obtain ⟨hd, hx⟩ := List.ne_and_not_mem_of_not_mem_cons h
      intro part
      rw [List.cons_append, splitFrom_of_ne hd, ih hx, List.reverse_cons, List.append_assoc, List.singleton_append]
  exact hfrom []

/-- Splitting goes on behind a separator as if the text began there. -/
theorem split_append (c : Char) (x y : List Char) : split [c] (x ++ c :: y) = split [c] x ++ split [c] y := by
  have hfrom : ∀ part, splitFrom [c] 0 part (x ++ c :: y) = splitFrom [c] 0 part x ++ split [c] y := by
    induction x with
    | nil =>
      intro part
      rw [List.nil_append, splitFrom_self, splitFrom_nil]
      rfl
    | cons d x ih =>
      intro part
      rw [List.cons_append]
      by_cases hd : c = d
      · subst hd
        rw [splitFrom_self, splitFrom_self, ih, List.cons_append]
      · rw [splitFrom_of_ne hd, splitFrom_of_ne hd, ih]
  exact hfrom []

theorem not_mem_of_mem_split (h : x ∈ split [c] s) : c ∉ x := by
  have hfrom : ∀ part, c ∉ part → ∀ x ∈ splitFrom [c] 0 part s, c ∉ x := by
    clear h
    induction s with
    | nil =>
      intro part hpart x hx
      rw [List.mem_singleton.mp hx]
      simpa using hpart
    | cons d s ih =>
      intro part hpart
      by_cases hd : c = d
      · subst hd
        rw [splitFrom_self]
        exact List.forall_mem_cons.mpr ⟨by simpa using hpart, ih [] List.not_mem_nil⟩
      · rw [splitFrom_of_ne hd]
        exact ih _ (by simp [hd, hpart])
  exact hfrom [] List.not_mem_nil x h

theorem parts_of_not_mem (h : c ∉ s) : parts c s = [s] := by
  unfold parts
  rw [if_neg h]

/-- Nothing is left out if the last part is not empty. -/
theorem parts_eq_split {l : List (List Char)} (hmem : c ∈ s) (hsplit : split [c] s = l ++ [x]) (hx : x ≠ []) :
    parts c s = l ++ [x] := by
  have hfalse : x.isEmpty = false := by
    cases x with
    | nil => exact absurd rfl hx
    | cons d x => rfl
  unfold parts
  rw [if_pos hmem, hsplit, List.reverse_append, List.reverse_singleton, List.singleton_append,
    List.dropWhile_cons_of_neg (by simp [hfalse]), List.reverse_cons, List.reverse_reverse]

end Parts

def indexOf (pat : List Char) : List Char → Option Nat
  | [] => if pat.isPrefixOf [] then some 0 else none
  | c :: s => if pat.isPrefixOf (c :: s) then some 0 else (indexOf pat s).map (· + 1)

theorem indexOf_cons (pat : List Char) (c : Char) (s : List Char) :
    indexOf pat (c :: s) = if pat.isPrefixOf (c :: s) then some 0 else (indexOf pat s).map (· + 1) := rfl

def contains (pat s : List Char) : Bool := (indexOf pat s).isSome

theorem indexOf_of_not_mem {c : Char} {s : List Char} (h : c ∉ s) : indexOf [c] s = none := by
  induction s with
  | nil => rfl
  | cons d s ih =>
    obtain ⟨hd, hs⟩ := List.ne_and_not_mem_of_not_mem_cons h
    simp [indexOf_cons, List.isPrefixOf, hd, ih hs]

theorem indexOf_append_cons {c : Char} {x : List Char} (h : c ∉ x) (y : List Char) :
    indexOf [c] (x ++ c :: y) = some x.length := by
  induction x with
  | nil => simp [indexOf_cons, List.isPrefixOf]
  | cons d x ih =>
    obtain ⟨hd, hx⟩ := List.ne_and_not_mem_of_not_mem_cons h
    simp [indexOf_cons, List.isPrefixOf, hd, ih hx]

/-- A literal without a character ends before it. -/
theorem prefix_of_prefix_append {c : Char} {pat x y : List Char} (hpat : c ∉ pat) (h : pat <+: x ++ c :: y) :
    pat <+: x := by
  induction x generalizing pat with
  | nil =>
    cases pat with
    | nil => exact List.nil_prefix
    | cons d pat => exact absurd (List.cons_prefix_cons.mp h).1.symm (List.ne_and_not_mem_of_not_mem_cons hpat).1
  | cons d x ih =>
    cases pat with
    | nil => exact List.nil_prefix
    | cons e pat =>
      obtain ⟨he, hpre⟩ := List.cons_prefix_cons.mp h
      exact List.cons_prefix_cons.mpr ⟨he, ih (List.ne_and_not_mem_of_not_mem_cons hpat).2 hpre⟩

theorem infix_of_contains {pat s : List Char} (h : contains pat s = true) : pat <:+: s := by
  unfold contains at h
  induction s with
  | nil =>
    rw [indexOf] at h
    split at h
    · rename_i hpre
      exact (List.isPrefixOf_iff_prefix.mp hpre).isInfix
    · cases h
  | cons c s ih =>
    rw [indexOf_cons] at h
    split at h
    · rename_i hpre
      exact (List.isPrefixOf_iff_prefix.mp hpre).isInfix
    · rw [Option.isSome_map] at h
      exact List.infix_cons (ih h)

/-- Before its first occurrence a literal does not occur. -/
theorem not_infix_take_indexOf {pat s : List Char} {i : Nat} (hpat : pat ≠ []) (h : indexOf pat s = some i) :
    ¬pat <:+: s.take i := by
  induction s generalizing i with
  | nil =>
    rw [List.take_nil, List.infix_nil]
    exact hpat
  | cons c s ih =>
    rw [indexOf_cons] at h
    split at h
    · cases h
      rw [List.take_zero, List.infix_nil]
      exact hpat
    · rename_i hpre
      obtain ⟨j, hj, rfl⟩ := Option.map_eq_some_iff.mp h
      rw [List.take_succ_cons, List.infix_cons_iff, not_or]
      refine ⟨fun hp => hpre (List.isPrefixOf_iff_prefix.mpr ?_), ih hj⟩
      exact hp.trans (List.take_prefix (j + 1) (c :: s))

/-! ### Hexadecimal text -/

/-- The sixteen digits in the order of their values. -/
def hexDigits : List Char := ['0', '1', '2', '3', '4', '5', '6', '7', '8', '9', 'a', 'b', 'c', 'd', 'e', 'f']

def hexByte (b : UInt8) : List Char := [hexDigits.getD (b.toNat / 16) '0', hexDigits.getD (b.toNat % 16) '0']

/-- Bytes from digits, two by two. A digit −1 takes part in the arithmetic, and a single digit at the
    end has no partner: no bytes. -/
def pairBytes : List Int → Option (List UInt8)
  | [] => some []
  | [_] => none
  | d₀ :: d₁ :: ds => (pairBytes ds).map (UInt8.ofInt (d₀ * 16 + d₁) :: ·)

theorem digit_hexDigits : ∀ n < 16, digit 16 (hexDigits.getD n '0').toNat = n := by decide

theorem hexDigits_basic : ∀ n < 16, (hexDigits.getD n '0').toNat < 0x10000 := by decide

theorem toNat_div_lt (b : UInt8) : b.toNat / 16 < 16 := by
  have := b.toNat_lt
  omega

theorem digits_hexByte (b : UInt8) (s : List Char) :
    digits 16 (hexByte b ++ s) = ((b.toNat / 16 : Nat) : Int) :: ((b.toNat % 16 : Nat) : Int) :: digits 16 s := by
  have hlo : b.toNat % 16 < 16 := Nat.mod_lt _ (by decide)
  simp only [digits, hexByte, List.cons_append, List.nil_append, List.flatMap_cons,
    hexDigits_basic _ (toNat_div_lt b), hexDigits_basic _ hlo, digit_hexDigits _ (toNat_div_lt b),
    digit_hexDigits _ hlo, ↓reduceIte]

theorem ofInt_halves (b : UInt8) : UInt8.ofInt (((b.toNat / 16 : Nat) : Int) * 16 + (b.toNat % 16 : Nat)) = b := by
  have h : ((b.toNat / 16 : Nat) : Int) * 16 + (b.toNat % 16 : Nat) = (b.toNat : Nat) := by omega
  have hlt := b.toNat_lt
  have hmod : ((b.toNat : Int) % 2 ^ 8).toNat = b.toNat := by omega
  rw [h, UInt8.ofInt, hmod, UInt8.ofNat_toNat]

/-- Bytes written as hexadecimal text read back. -/
theorem pairBytes_hexByte (l : List UInt8) : pairBytes (digits 16 (l.flatMap hexByte)) = some l := by
  induction l with
  | nil => rfl
  | cons b l ih =>
    rw [List.flatMap_cons, digits_hexByte, pairBytes, ih, ofInt_halves]
    rfl

theorem mem_hexDigits_of_mem_hexByte {b : UInt8} {c : Char} (h : c ∈ hexByte b) : c ∈ hexDigits := by
  have hmem : ∀ n < 16, hexDigits.getD n '0' ∈ hexDigits := by decide
  simp only [hexByte, List.mem_cons, List.not_mem_nil, or_false] at h
  rcases h with rfl | rfl
  · exact hmem _ (toNat_div_lt b)
  · exact hmem _ (Nat.mod_lt _ (by decide))

theorem not_mem_flatMap_hexByte {c : Char} (h : c ∉ hexDigits) (l : List UInt8) : c ∉ l.flatMap hexByte := by
  intro hc
  obtain ⟨b, -, hb⟩ := List.mem_flatMap.mp hc
  exact h (mem_hexDigits_of_mem_hexByte hb)

end Text
