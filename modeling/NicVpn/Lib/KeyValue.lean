import NicVpn.Lib.Replace

/-! Texts of lines `key = value`. The entries of a text are those of its lines in order, so an entry is
    looked up line by line. -/

namespace KeyValue
open Text

/-- The key and the value of a line: what stands before and behind its first `=`, less the blanks around. -/
def entry (line : List Char) : Option (List Char × List Char) :=
  match indexOf ['='] line with
  | some i => some (trim (line.take i), trim (line.drop (i + 1)))
  | none => none

def entries (s : List Char) : List (List Char × List Char) := (split ['\n'] s).filterMap entry

/-- The value of the first line with the key. -/
def value (key s : List Char) : Option (List Char) := (entries s).lookup key

theorem entry_append_cons {key : List Char} (h : '=' ∉ key) (v : List Char) :
    entry (key ++ '=' :: v) = some (trim key, trim v) := by
  simp [entry, indexOf_append_cons h]

theorem entries_append (x y : List Char) : entries (x ++ '\n' :: y) = entries x ++ entries y := by
  simp only [entries, split_append, List.filterMap_append]

theorem entries_of_not_mem {line : List Char} (h : '\n' ∉ line) : entries line = (entry line).toList := by
  rw [entries, split_of_not_mem h]
  cases hentry : entry line <;> simp [hentry]

theorem value_append (key x y : List Char) : value key (x ++ '\n' :: y) = (value key x).or (value key y) := by
  rw [value, entries_append, List.lookup_append]
  rfl

theorem value_of_not_mem {line key v : List Char} (h : '\n' ∉ line) (hentry : entry line = some (key, v)) :
    value key line = some v := by
  rw [value, entries_of_not_mem h, hentry]
  simp

/-- A line with another key does not count. -/
theorem value_of_ne {line key key' v : List Char} (h : '\n' ∉ line) (hentry : entry line = some (key', v))
    (hne : key ≠ key') : value key line = none := by
  rw [value, entries_of_not_mem h, hentry]
  simp [hne]

theorem value_of_entry_eq_none {line : List Char} (h : '\n' ∉ line) (hentry : entry line = none) (key : List Char) :
    value key line = none := by
  rw [value, entries_of_not_mem h, hentry]
  rfl

end KeyValue
