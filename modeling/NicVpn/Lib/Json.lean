import Mathlib.Data.List.Basic

/-! JSON objects whose members are texts, as a library writes them without white space, and how they are read when
    the keys stand in a known order. -/

namespace Json

def escapeChar (c : Char) : List Char := if c = '"' ∨ c = '\\' then ['\\', c] else [c]

def string (s : List Char) : List Char := '"' :: (s.flatMap escapeChar ++ ['"'])

/-- The members of an object with its closing brace. -/
def members : List (List Char × List Char) → List Char
  | [] => ['\x7d']
  | p :: l => string p.1 ++ ':' :: string p.2 ++ if l = [] then members l else ',' :: members l

def object (l : List (List Char × List Char)) : List Char := '\x7b' :: members l

/-- The text up to the closing quotation mark, and what follows it. -/
def readString : List Char → Option (List Char × List Char)
  | [] => none
  | c :: s =>
    if c = '"' then some ([], s)
    else if c = '\\' then
      match s with
      | [] => none
      | d :: s => (readString s).map fun p => (d :: p.1, p.2)
    else (readString s).map fun p => (c :: p.1, p.2)

def expect (x s : List Char) : Option (List Char) := if x.isPrefixOf s then some (s.drop x.length) else none

/-- The texts of the given keys. -/
def readValues : List (List Char) → List Char → Option (List (List Char))
  | [], s => if s = ['\x7d'] then some [] else none
  | k :: ks, s =>
    (expect (string k ++ [':', '"']) s).bind fun s =>
      (readString s).bind fun p =>
        (if ks = [] then some p.2 else expect [','] p.2).bind fun s => (readValues ks s).map (p.1 :: ·)

def readObject (ks : List (List Char)) (s : List Char) : Option (List (List Char)) :=
  (expect ['\x7b'] s).bind (readValues ks)

theorem expect_append (x s : List Char) : expect x (x ++ s) = some s := by
  rw [expect, if_pos (List.isPrefixOf_iff_prefix.mpr (List.prefix_append x s)), List.drop_left]

theorem readString_escaped (s x : List Char) : readString (s.flatMap escapeChar ++ '"' :: x) = some (s, x) := by
  induction s with
  | nil =>
    rw [List.flatMap_nil, List.nil_append, readString.eq_def]
    rfl
  | cons c s ih =>
    rw [List.flatMap_cons, List.append_assoc]
    by_cases hc : c = '"' ∨ c = '\\'
    · rw [escapeChar, if_pos hc, List.cons_append, List.cons_append, List.nil_append, readString.eq_def]
      show (readString (s.flatMap escapeChar ++ '"' :: x)).map _ = _
      rw [ih]
      rfl
    · obtain ⟨hquote, hslash⟩ := not_or.mp hc
      rw [escapeChar, if_neg hc, List.singleton_append, readString.eq_def]
      simp only [hquote, hslash, ↓reduceIte, ih, Option.map_some]

/-- What was written for the keys is read for them. -/
theorem readValues_members (l : List (List Char × List Char)) :
    readValues (l.map (·.1)) (members l) = some (l.map (·.2)) := by
  induction l with
  | nil => rfl
  | cons p l ih =>
    have hmembers : members (p :: l) = (string p.1 ++ [':', '"']) ++
        (p.2.flatMap escapeChar ++ '"' :: if l = [] then members l else ',' :: members l) := by
      rw [members]
      simp [string]
    rw [hmembers, List.map_cons, List.map_cons, readValues, expect_append, Option.bind_some, readString_escaped,
      Option.bind_some]
    by_cases hl : l = []
    · subst hl
      rfl
    · have hmap : l.map (·.1) ≠ [] := fun h => hl (List.map_eq_nil_iff.mp h)
      have hcomma : expect [','] (',' :: members l) = some (members l) := expect_append [','] (members l)
      rw [if_neg hl, if_neg hmap, hcomma, Option.bind_some, ih]
      rfl

theorem readObject_object (l : List (List Char × List Char)) : readObject (l.map (·.1)) (object l) = some (l.map (·.2)) := by
  have hopen : expect ['\x7b'] (object l) = some (members l) := expect_append ['\x7b'] (members l)
  rw [readObject, hopen, Option.bind_some, readValues_members]

end Json
