import Mathlib.Data.List.Basic

/-! The lines of a text that end with a line feed, or with a carriage return and a line feed. What has been
    read of a line carries over a cut of the text, so the lines of two parts are the lines of the whole. -/

namespace Lines

/-- A line less the carriage return of its end. -/
def body (line : List Char) : List Char := if line.getLast? = some '\r' then line.dropLast else line

/-- The lines of a text that ends the line begun with `acc`; an unfinished last line is left out. -/
def terminatedFrom : List Char → List Char → List (List Char)
  | _, [] => []
  | acc, c :: s => if c = '\n' then body acc :: terminatedFrom [] s else terminatedFrom (acc ++ [c]) s

def terminated (s : List Char) : List (List Char) := terminatedFrom [] s

/-- The unfinished last line. -/
def pendingFrom : List Char → List Char → List Char
  | acc, [] => acc
  | acc, c :: s => if c = '\n' then pendingFrom [] s else pendingFrom (acc ++ [c]) s

theorem terminatedFrom_cons (acc : List Char) (c : Char) (s : List Char) :
    terminatedFrom acc (c :: s) =
      if c = '\n' then body acc :: terminatedFrom [] s else terminatedFrom (acc ++ [c]) s := rfl

theorem pendingFrom_cons (acc : List Char) (c : Char) (s : List Char) :
    pendingFrom acc (c :: s) = if c = '\n' then pendingFrom [] s else pendingFrom (acc ++ [c]) s := rfl

theorem terminatedFrom_append (acc s t : List Char) :
    terminatedFrom acc (s ++ t) = terminatedFrom acc s ++ terminatedFrom (pendingFrom acc s) t := by
  induction s generalizing acc with
  | nil => rfl
  | cons c s ih =>
    simp only [List.cons_append, terminatedFrom_cons, pendingFrom_cons]
    split
    · rw [ih, List.cons_append]
    · exact ih _

theorem pendingFrom_append (acc s t : List Char) :
    pendingFrom acc (s ++ t) = pendingFrom (pendingFrom acc s) t := by
  induction s generalizing acc with
  | nil => rfl
  | cons c s ih =>
    simp only [List.cons_append, pendingFrom_cons]
    split
    · exact ih _
    · exact ih _

theorem pendingFrom_of_not_mem {s : List Char} (h : '\n' ∉ s) (acc : List Char) : pendingFrom acc s = acc ++ s := by
  induction s generalizing acc with
  | nil => exact (List.append_nil acc).symm
  | cons c s ih =>
    obtain ⟨hc, hs⟩ := not_or.mp (List.mem_cons.not.mp h)
    simp only [pendingFrom_cons, Ne.symm hc, ↓reduceIte, ih hs, List.append_assoc, List.singleton_append]

theorem terminatedFrom_of_not_mem {s : List Char} (h : '\n' ∉ s) (acc : List Char) : terminatedFrom acc s = [] := by
  induction s generalizing acc with
  | nil => rfl
  | cons c s ih =>
    obtain ⟨hc, hs⟩ := not_or.mp (List.mem_cons.not.mp h)
    simp only [terminatedFrom_cons, Ne.symm hc, ↓reduceIte, ih hs]

theorem not_mem_pendingFrom {acc : List Char} (h : '\n' ∉ acc) (s : List Char) : '\n' ∉ pendingFrom acc s := by
  induction s generalizing acc with
  | nil => exact h
  | cons c s ih =>
    simp only [pendingFrom_cons]
    split
    · exact ih List.not_mem_nil
    · rename_i hc
      exact ih (by simp [h, Ne.symm hc])

/-- The first line, and the lines of the rest. -/
theorem terminated_line {line : List Char} (h : '\n' ∉ line) (s : List Char) :
    terminated (line ++ '\n' :: s) = body line :: terminated s := by
  rw [terminated, terminatedFrom_append, terminatedFrom_of_not_mem h, pendingFrom_of_not_mem h]
  rfl

/-- An unfinished line put before what follows gives the lines of both. -/
theorem terminated_pending_append {acc : List Char} (h : '\n' ∉ acc) (s : List Char) :
    terminated (acc ++ s) = terminatedFrom acc s := by
  rw [terminated, terminatedFrom_append, terminatedFrom_of_not_mem h, pendingFrom_of_not_mem h]
  rfl

/-! ### How many characters the lines hold -/

def count (s : List Char) : Nat := s.countP fun c => c ≠ '\r' ∧ c ≠ '\n'

theorem count_append (s t : List Char) : count (s ++ t) = count s + count t := List.countP_append

theorem count_body (line : List Char) : count (body line) = count line := by
  unfold body
  split
  · rename_i h
    obtain ⟨s, rfl⟩ := List.getLast?_eq_some_iff.mp h
    rw [List.dropLast_concat, count_append]
    rfl
  · rfl

/-- Carriage returns and line feeds apart, the lines and the unfinished one hold all characters. -/
theorem count_terminatedFrom (acc s : List Char) :
    count (terminatedFrom acc s).flatten + count (pendingFrom acc s) = count acc + count s := by
  induction s generalizing acc with
  | nil => exact Nat.add_comm ..
  | cons c s ih =>
    have hc : count (c :: s) = count [c] + count s := count_append [c] s
    simp only [terminatedFrom_cons, pendingFrom_cons]
    split
    · rename_i hlf
      subst hlf
      have := ih []
      have h0 : count ['\n'] = 0 := rfl
      have hnil : count [] = 0 := rfl
      rw [List.flatten_cons, count_append, count_body]
      omega
    · have := ih (acc ++ [c])
      rw [count_append] at this
      omega

/-- The end of a line leaves nothing of the lines before. -/
theorem pendingFrom_of_mem {s : List Char} (h : '\n' ∈ s) (acc acc' : List Char) :
    pendingFrom acc s = pendingFrom acc' s := by
  induction s generalizing acc acc' with
  | nil => exact (List.not_mem_nil h).elim
  | cons c s ih =>
    simp only [pendingFrom_cons]
    split
    · rfl
    · rename_i hc
      exact ih ((List.mem_cons.mp h).resolve_left (Ne.symm hc)) _ _

/-- Where a line ends in the second part, all of the first part belongs to lines. -/
theorem count_terminated_append {t : List Char} (h : '\n' ∈ t) (s : List Char) :
    count (terminated (s ++ t)).flatten = count s + count (terminated t).flatten := by
  have hboth := count_terminatedFrom [] (s ++ t)
  have ht := count_terminatedFrom [] t
  have hnil : count [] = 0 := rfl
  rw [pendingFrom_append, pendingFrom_of_mem h _ [], count_append] at hboth
  simp only [terminated]
  omega

/-- Without an end of line the second part adds no line. -/
theorem terminated_append_of_not_mem {t : List Char} (h : '\n' ∉ t) (s : List Char) :
    terminated (s ++ t) = terminated s := by
  rw [terminated, terminatedFrom_append, terminatedFrom_of_not_mem h, List.append_nil, terminated]

end Lines
