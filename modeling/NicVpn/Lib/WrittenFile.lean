import Mathlib.Data.List.Infix

/-! A file that a writer replaces by the code of a value, in as many writes as it likes, and readers that read it from
    its start while it is written. Where the end of a value shows in its code, a reader of the unfinished file gets
    the value that is being written or none. -/

namespace WrittenFile

/-- A code in which the end of a value shows: nothing can be read from a code that is cut off. -/
structure Codec (α β : Type) where
  encode : α → List β
  decode : List β → Option α
  decode_nil : decode [] = none
  decode_encode : ∀ a, decode (encode a) = some a
  decode_cut : ∀ a l, l <+: encode a → l ≠ encode a → decode l = none

/-- A file that may not exist, and what the writer that has it open has still to write. -/
structure File (β : Type) where
  content : Option (List β) := none
  rest : Option (List β) := none
  deriving DecidableEq, Repr

variable {α β : Type}

namespace File

/-- The file is opened for writing, which empties it. -/
def create (bytes : List β) : File β := { content := some [], rest := some bytes }

/-- The writer writes `n` more bytes. -/
def write (f : File β) (n : Nat) : Option (File β) :=
  match f.content, f.rest with
  | some c, some r => some { content := some (c ++ r.take n), rest := some (r.drop n) }
  | _, _ => none

def close (f : File β) : Option (File β) :=
  match f.rest with
  | some [] => some { f with rest := none }
  | _ => none

/-- The writer is gone, wherever it was. -/
def abandon (f : File β) : File β := { f with rest := none }

/-- What a reader has after a read of at most `n` bytes behind those it got. -/
def read (f : File β) (got : List β) (n : Nat) : List β := got ++ ((f.content.getD []).drop got.length).take n

/-- The reader stands at the end of the file. -/
def atEnd (f : File β) (got : List β) : Bool := (f.content.getD []).length ≤ got.length

/-- The file holds a value, or the part of it that is written. -/
def Holds (C : Codec α β) (f : File β) (a : α) : Prop :=
  ∃ c, f.content = some c ∧ c <+: C.encode a ∧ ∀ r, f.rest = some r → c ++ r = C.encode a

/-- The file holds a value as a whole, and nobody writes to it. -/
def Complete (C : Codec α β) (f : File β) (a : α) : Prop := f = { content := some (C.encode a), rest := none }

end File

/-- What a reader got stands at the start of the file. -/
def Reads (f : File β) (got : List β) : Prop := got <+: f.content.getD []

section Rules
variable {C : Codec α β} {f g : File β} {a b : α} {got : List β} {n : Nat}

theorem reads_nil : Reads f [] := List.nil_prefix

theorem reads_of_content (h : f.content = some got) : Reads f got := by
  rw [Reads, h]
  exact List.prefix_rfl

theorem Reads.read (h : Reads f got) (n : Nat) : Reads f (f.read got n) := by
  obtain ⟨t, ht⟩ := h
  have hdrop : (f.content.getD []).drop got.length = t := by rw [← ht, List.drop_left]
  rw [File.read, hdrop]
  exact ⟨t.drop n, by rw [List.append_assoc, List.take_append_drop, ht]⟩

/-- A writer only adds to the file that a reader has open. -/
theorem Reads.write (h : Reads f got) (hw : f.write n = some g) : Reads g got := by
  unfold File.write at hw
  split at hw
  · next c r hc _ =>
    cases hw
    rw [Reads, hc] at h
    exact h.trans (List.prefix_append c (r.take n))
  · cases hw

theorem Reads.close (h : Reads f got) (hc : f.close = some g) : Reads g got := by
  unfold File.close at hc
  split at hc
  · cases hc
    exact h
  · cases hc

theorem holds_create (C : Codec α β) (a : α) : (File.create (C.encode a)).Holds C a :=
  ⟨[], rfl, List.nil_prefix, fun r h => by cases h; rfl⟩

theorem File.Holds.write (h : f.Holds C a) (hw : f.write n = some g) : g.Holds C a := by
  obtain ⟨c, hc, -, hrest⟩ := h
  unfold File.write at hw
  split at hw
  · next c' r hc' hr =>
    cases hw
    cases hc.symm.trans hc'
    have hall : c ++ r.take n ++ r.drop n = C.encode a := by
      rw [List.append_assoc, List.take_append_drop, hrest r hr]
    refine ⟨_, rfl, ⟨_, hall⟩, fun r' h' => ?_⟩
    cases h'
    exact hall
  · cases hw

theorem File.Holds.close (h : f.Holds C a) (hc : f.close = some g) : g.Complete C a := by
  obtain ⟨c, hcontent, -, hrest⟩ := h
  unfold File.close at hc
  split at hc
  · next hr =>
    cases hc
    have hall := hrest [] hr
    rw [List.append_nil] at hall
    rw [File.Complete, hcontent, hall]
  · cases hc

theorem File.Complete.holds (h : f.Complete C a) : f.Holds C a := by
  cases h
  exact ⟨_, rfl, List.prefix_rfl, nofun⟩

theorem File.Holds.abandon (h : f.Holds C a) : f.abandon.Holds C a := by
  obtain ⟨c, hc, hprefix, -⟩ := h
  exact ⟨c, hc, hprefix, nofun⟩

theorem File.Complete.abandon (h : f.Complete C a) : f.abandon.Complete C a := by
  cases h
  rfl

/-- What can be read is the value that was written. -/
theorem File.Holds.decode (h : f.Holds C a) (hread : Reads f got) (hdecode : C.decode got = some b) : b = a := by
  obtain ⟨c, hc, hprefix, -⟩ := h
  rw [Reads, hc] at hread
  have hgot : got = C.encode a := by
    by_contra hne
    rw [C.decode_cut a got (hread.trans hprefix) hne] at hdecode
    cases hdecode
  rw [hgot, C.decode_encode] at hdecode
  exact (Option.some.inj hdecode).symm

/-- At the end of a whole file its value is read. -/
theorem File.Complete.decode (h : f.Complete C a) (hread : Reads f got) (hend : f.atEnd got = true) :
    C.decode got = some a := by
  cases h
  have hlength := of_decide_eq_true hend
  have hgot : got = C.encode a := hread.eq_of_length_le hlength
  rw [hgot, C.decode_encode]

end Rules

end WrittenFile
