import NicVpn.Lib.Utf8
import Mathlib.Data.List.Basic

/-! Message heads as HTTP writes them: lines that end in CR LF, the first of them the start line, the others
    headers up to the first empty line. -/

namespace Http

/-- A byte before the first line. -/
def consFirst (b : UInt8) : List (List UInt8) → List (List UInt8)
  | [] => [[b]]
  | x :: xs => (b :: x) :: xs

/-- The lines of a message: what stands between its CR LF pairs. -/
def lines : List UInt8 → List (List UInt8)
  | [] => [[]]
  | [b] => [[b]]
  | b :: c :: l => if b = 13 ∧ c = 10 then [] :: lines l else consFirst b (lines (c :: l))

/-- The headers of a message: the lines after the first, up to an empty one. -/
def headers (l : List UInt8) : List (List UInt8) := (lines l).tail.takeWhile (· ≠ [])

theorem consFirst_append (b : UInt8) {xs : List (List UInt8)} (h : xs ≠ []) (ys : List (List UInt8)) :
    consFirst b (xs ++ ys) = consFirst b xs ++ ys := by
  cases xs with
  | nil => exact absurd rfl h
  | cons x xs => rfl

theorem lines_ne_nil (l : List UInt8) : lines l ≠ [] := by
  fun_induction lines l with
  | case1 => nofun
  | case2 => nofun
  | case3 => nofun
  | case4 b c l _ ih =>
    cases h : lines (c :: l) with
    | nil => exact absurd h ih
    | cons x xs => nofun

/-- A line end cuts a message in two, whatever stands before it. -/
theorem lines_append (a b : List UInt8) : lines (a ++ 13 :: 10 :: b) = lines a ++ lines b := by
  fun_induction lines a with
  | case1 => rfl
  | case2 x => simp [lines, consFirst]
  | case3 x y l h ih =>
    simp only [List.cons_append, lines, h, and_self, ↓reduceIte]
    rw [ih]
  | case4 x y l h ih =>
    simp only [List.cons_append, lines, h, ↓reduceIte] at ih ⊢
    rw [ih, consFirst_append x (lines_ne_nil _)]

/-- A byte that begins no line end stays on the line. -/
theorem lines_cons {b : UInt8} {l : List UInt8} (hl : lines l = [l]) (h : ¬(b = 13 ∧ l.head? = some 10)) :
    lines (b :: l) = [b :: l] := by
  cases l with
  | nil => rfl
  | cons c l =>
    simp only [List.head?_cons, Option.some.injEq] at h
    simp only [lines, h, ↓reduceIte, hl, consFirst]

theorem lines_append_left {p l : List UInt8} (hp : 13 ∉ p) (hl : lines l = [l]) : lines (p ++ l) = [p ++ l] := by
  induction p with
  | nil => exact hl
  | cons b p ih =>
    simp only [List.mem_cons, not_or] at hp
    exact lines_cons (ih hp.2) fun h => hp.1 h.1.symm

/-- A text without a line end is written on one line. -/
theorem lines_encode {s : List Char} (h : ¬['\r', '\n'] <:+: s) : lines (Utf8.encode s) = [Utf8.encode s] := by
  induction s with
  | nil => rfl
  | cons c s ih =>
    rw [List.infix_cons_iff, not_or] at h
    have hs := ih h.2
    rw [Utf8.encode_cons]
    by_cases hc : c = '\r'
    · subst hc
      refine lines_cons hs fun ⟨_, hhead⟩ => h.1 ?_
      -- the next byte is a line feed, so the next character is
      cases s with
      | nil => cases hhead
      | cons d s =>
        have hmem : (10 : UInt8) ∈ String.utf8EncodeChar d := by
          change (Utf8.encode (d :: s)).head? = some 10 at hhead
          rw [Utf8.encode_cons, List.head?_append_of_ne_nil _ String.utf8EncodeChar_ne_nil] at hhead
          exact List.mem_of_mem_head? hhead
        have hd : d = '\n' := Char.toNat_inj.mp (Utf8.toNat_of_mem_encodeChar hmem (by decide))
        exact ⟨s, by rw [hd]; rfl⟩
    · refine lines_append_left (fun hmem => hc ?_) hs
      exact Char.toNat_inj.mp (Utf8.toNat_of_mem_encodeChar hmem (by decide))

theorem mem_takeWhile_append {α : Type} {p : α → Bool} {xs ys : List α} {x : α} :
    x ∈ (xs ++ ys).takeWhile p ↔ x ∈ xs.takeWhile p ∨ ((∀ y ∈ xs, p y = true) ∧ x ∈ ys.takeWhile p) := by
  induction xs with
  | nil => simp
  | cons a xs ih =>
    cases h : p a with
    | true => simp [h, ih, or_assoc]
    | false => simp [h]

/-- The headers of a message with a line end in it: those of the first part and, when no empty line ends
    them there, those of the second part. -/
theorem mem_headers_append {a b x : List UInt8} :
    x ∈ headers (a ++ 13 :: 10 :: b) ↔
      x ∈ headers a ∨ ([] ∉ (lines a).tail ∧ x ∈ (lines b).takeWhile (· ≠ [])) := by
  have htail : (lines a ++ lines b).tail = (lines a).tail ++ lines b := by
    cases h : lines a with
    | nil => exact absurd h (lines_ne_nil a)
    | cons y ys => rfl
  have hblank : (∀ y ∈ (lines a).tail, decide (y ≠ []) = true) ↔ [] ∉ (lines a).tail := by
    simp only [decide_eq_true_eq]
    exact ⟨fun h hmem => h [] hmem rfl, fun h y hy hnil => h (hnil ▸ hy)⟩
  rw [headers, lines_append, htail, mem_takeWhile_append, hblank]
  rfl

/-! ### The first line -/

/-- The first line of a message and what follows its CR LF, if it has one. -/
def cut : List UInt8 → Option (List UInt8 × List UInt8)
  | [] => none
  | [_] => none
  | b :: c :: l => if b = 13 ∧ c = 10 then some ([], l) else (cut (c :: l)).map fun p => (b :: p.1, p.2)

theorem cut_eq_some {l w rest : List UInt8} (h : cut l = some (w, rest)) : l = w ++ 13 :: 10 :: rest := by
  fun_induction cut l generalizing w with
  | case1 => cases h
  | case2 => cases h
  | case3 b c l hbc =>
    obtain ⟨rfl, rfl⟩ := hbc
    cases h
    rfl
  | case4 b c l _ ih =>
    obtain ⟨⟨w', rest'⟩, hcut, heq⟩ := Option.map_eq_some_iff.mp h
    cases heq
    rw [ih hcut]
    rfl

theorem lines_of_cut {l w rest : List UInt8} (h : cut l = some (w, rest)) : lines l = w :: lines rest := by
  fun_induction cut l generalizing w with
  | case1 => cases h
  | case2 => cases h
  | case3 b c l hbc =>
    cases h
    exact if_pos hbc
  | case4 b c l hbc ih =>
    obtain ⟨⟨w', rest'⟩, hcut, heq⟩ := Option.map_eq_some_iff.mp h
    cases heq
    simp only [lines, hbc, ↓reduceIte, ih hcut, consFirst]

/-- A message without a CR LF is one line. -/
theorem lines_of_cut_eq_none {l : List UInt8} (h : cut l = none) : lines l = [l] := by
  fun_induction cut l with
  | case1 => rfl
  | case2 => rfl
  | case3 => cases h
  | case4 b c l hbc ih =>
    simp only [lines, hbc, ↓reduceIte, ih (Option.map_eq_none_iff.mp h), consFirst]

theorem cut_cons {b : UInt8} (h : b ≠ 13) (l : List UInt8) : cut (b :: l) = (cut l).map fun p => (b :: p.1, p.2) := by
  cases l with
  | nil => rfl
  | cons c l =>
    rw [cut, if_neg]
    rintro ⟨hb, -⟩
    exact h hb

/-- A CR that no LF follows stays on the line, and so does the next byte unless it begins the line end. -/
theorem cut_pair {c : UInt8} {l : List UInt8} (hc : c ≠ 10) (hl : ¬(c = 13 ∧ l.head? = some 10)) :
    cut (13 :: c :: l) = (cut l).map fun p => (13 :: c :: p.1, p.2) := by
  have hfirst : cut (13 :: c :: l) = (cut (c :: l)).map fun p => (13 :: p.1, p.2) := by
    rw [cut, if_neg]
    rintro ⟨-, h⟩
    exact hc h
  have hsecond : cut (c :: l) = (cut l).map fun p => (c :: p.1, p.2) := by
    cases l with
    | nil => rfl
    | cons d l =>
      rw [cut, if_neg]
      rintro ⟨h13, h10⟩
      exact hl ⟨h13, by rw [h10]; rfl⟩
  rw [hfirst, hsecond, Option.map_map]
  rfl

theorem cut_append {w : List UInt8} (h : 13 ∉ w) (rest : List UInt8) : cut (w ++ 13 :: 10 :: rest) = some (w, rest) := by
  induction w with
  | nil => rfl
  | cons b w ih =>
    obtain ⟨hb, hw⟩ := List.ne_and_not_mem_of_not_mem_cons h
    rw [List.cons_append, cut_cons hb.symm, ih hw]
    rfl

/-- What follows a line end does not change where it is. -/
theorem cut_other_rest {w rest : List UInt8} (h : cut (w ++ 13 :: 10 :: rest) = some (w, rest))
    (rest' : List UInt8) : cut (w ++ 13 :: 10 :: rest') = some (w, rest') := by
  induction w with
  | nil => rfl
  | cons b w ih =>
    have hstep : ∀ rest, cut (b :: (w ++ 13 :: 10 :: rest)) =
        if b = 13 ∧ (w ++ [13]).head? = some 10 then some ([], (w ++ 13 :: 10 :: rest).tail)
        else (cut (w ++ 13 :: 10 :: rest)).map fun p => (b :: p.1, p.2) := by
      intro rest
      cases w with
      | nil => simp [cut]
      | cons c w => simp [cut]
    rw [List.cons_append, hstep] at h ⊢
    by_cases hend : b = 13 ∧ (w ++ [13]).head? = some 10
    · rw [if_pos hend] at h
      cases h
    · rw [if_neg hend] at h ⊢
      obtain ⟨⟨w', rest''⟩, hcut, heq⟩ := Option.map_eq_some_iff.mp h
      cases heq
      rw [ih hcut]
      rfl

/-- How many CRs a line ends in. -/
def crsAtEnd (w : List UInt8) : Nat := (w.reverse.takeWhile (· = 13)).length

theorem crsAtEnd_cons {b : UInt8} (h : b ≠ 13) (w : List UInt8) : crsAtEnd (b :: w) = crsAtEnd w := by
  unfold crsAtEnd
  rw [List.reverse_cons, List.takeWhile_append]
  split
  · rename_i hall
    simp [h, hall]
  · rfl

theorem crsAtEnd_of_not_mem {w : List UInt8} (h : 13 ∉ w) : crsAtEnd w = 0 := by
  induction w with
  | nil => rfl
  | cons b w ih =>
    obtain ⟨hb, hw⟩ := List.ne_and_not_mem_of_not_mem_cons h
    rw [crsAtEnd_cons hb.symm, ih hw]

/-- A line whose end has no CR behind another byte ends in none. -/
theorem crsAtEnd_append_cons {b : UInt8} {w : List UInt8} (hb : b ≠ 13) (hw : 13 ∉ w) (x : List UInt8) :
    crsAtEnd (x ++ b :: w) = 0 := by
  have hlast : ((b :: w).reverse.takeWhile (· = 13)).length = 0 :=
    crsAtEnd_of_not_mem (List.not_mem_cons_of_ne_of_not_mem hb.symm hw)
  unfold crsAtEnd
  rw [List.reverse_append, List.takeWhile_append, if_neg, hlast]
  rw [hlast, List.length_reverse]
  exact nofun

/-- A CR and the byte after it change nothing in whether the CRs at the end pair up. -/
theorem crsAtEnd_pair (c : UInt8) (w : List UInt8) : crsAtEnd (13 :: c :: w) % 2 = crsAtEnd w % 2 := by
  unfold crsAtEnd
  rw [List.reverse_cons, List.reverse_cons, List.append_assoc, List.takeWhile_append]
  split
  · rename_i hall
    rw [hall]
    by_cases hc : c = 13
    · subst hc
      simp
    · simp [hc]
  · rfl

end Http
