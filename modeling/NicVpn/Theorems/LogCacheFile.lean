import NicVpn.LogCacheFile
import NicVpn.Theorems.LogItem

/-! The records of the cache file are passed on in their order, whatever bytes they hold and whatever follows them, as
    long as `restoreLogItem` does not throw: its exception ends the reading. -/

namespace NicVpn
namespace LogCacheFile
open LogFileHandler (maxLogEntries)
open BigEndian

/-! ### What is left of the file -/

theorem length_skip_le {buf buf' input input' : List UInt8} {skipped skipped' : Nat}
    (h : skip buf skipped input = some (buf', skipped', input')) : input'.length ≤ input.length := by
  induction input generalizing buf skipped with
  | nil =>
    unfold skip at h
    split at h
    · cases h
      exact Nat.le_refl _
    · cases h
  | cons b input ih =>
    unfold skip at h
    split at h
    · cases h
      exact Nat.le_refl _
    · simp only at h
      split at h
      · cases h
      · exact Nat.le_succ_of_le (ih h)

theorem length_readByte_le (input : List UInt8) : (readByte input).2.length ≤ input.length := by
  cases input with
  | nil => exact Nat.le_refl _
  | cons b input => exact Nat.le_succ _

theorem length_readEscaped_le (input : List UInt8) : (readEscaped input).2.length ≤ input.length := by
  have h := length_readByte_le input
  have h' := length_readByte_le (readByte input).2
  unfold readEscaped
  simp only
  split
  · exact h
  · split
    · split
      · exact Nat.le_trans h' h
      · split
        · exact Nat.le_trans h' h
        · exact Nat.le_trans h' h
    · exact h

def Payload.rest : Payload → List UInt8
  | .complete _ input => input
  | .aborted input => input
  | .outOfBounds => []

theorem length_readPayload_le (n : Nat) (buf2 input : List UInt8) :
    (readPayload n buf2 input).rest.length ≤ input.length := by
  induction n generalizing buf2 input with
  | zero => exact Nat.le_refl _
  | succ n ih =>
    have h := length_readEscaped_le input
    unfold readPayload
    split
    · rename_i input' heq
      rw [heq] at h
      exact h
    · rename_i b input' heq
      rw [heq] at h
      split
      · exact Nat.le_trans (ih _ _) h
      · exact Nat.zero_le _

theorem readInto_read (buf : List UInt8) (offset : Nat) {n : Nat} (input : List UInt8) (hn : 0 < n) :
    (readInto buf offset n input).1 < n ∨ (readInto buf offset n input).2.2.length + n ≤ input.length := by
  simp only [readInto, List.length_take, List.length_drop]
  split
  · left
    omega
  · omega

section
variable {ε α : Type} {restore : List UInt8 → Int → Except ε α}

/-- A round that goes on has read four bytes of the file, or its last ones. -/
theorem readItem_inr {s t : Loop} (h : readItem restore s = .inr t) :
    t.read < 5 ∨ t.input.length + 4 ≤ s.input.length := by
  unfold readItem at h
  split at h
  · cases h
  · rename_i buf skipped input hskip
    have hskip := length_skip_le hskip
    simp only at h
    split at h
    · rename_i input' hpayload
      have hrest : (Payload.aborted input').rest.length ≤ input.length := hpayload ▸ length_readPayload_le _ _ _
      cases h
      rcases readInto_read buf 1 input' (n := 4) (by decide) with hread | hread
      · left
        simp only
        omega
      · exact .inr (Nat.le_trans hread (Nat.le_trans hrest hskip))
    · cases h
    · rename_i buf2 input' hpayload
      have hrest : (Payload.complete buf2 input').rest.length ≤ input.length := hpayload ▸ length_readPayload_le _ _ _
      split at h
      · cases h
      · cases h
        split
        · left
          simp only
          decide
        · rcases readInto_read buf 0 input' (n := 5) (by decide) with hread | hread
          · exact .inl hread
          · exact .inr (Nat.le_trans (Nat.le_succ _) (Nat.le_trans hread (Nat.le_trans hrest hskip)))

/-- The rounds are enough. -/
theorem readloop_isSome {n : Nat} {s : Loop} (h : s.input.length + 1 < n) : (readloop restore n s).isSome = true := by
  induction n generalizing s with
  | zero => exact absurd h (Nat.not_lt_zero _)
  | succ n ih =>
    unfold readloop
    split
    · rfl
    · split
      · rfl
      · rename_i t ht
        rcases readItem_inr ht with hread | hinput
        · obtain ⟨n, rfl⟩ := Nat.exists_eq_succ_of_ne_zero (show n ≠ 0 by omega)
          unfold readloop
          rw [if_pos hread]
          rfl
        · exact ih (by omega)

variable (restore) in
theorem readCacheContents_isSome (file : List UInt8) : (readCacheContents restore file).isSome = true := by
  refine readloop_isSome ?_
  simp only [next, readInto, List.length_drop]
  omega

/-! ### One record -/

theorem readEscaped_escape (b : UInt8) (input : List UInt8) : readEscaped (escape b ++ input) = (some b, input) := by
  unfold escape
  split
  · rename_i h
    rcases h with rfl | rfl
    · rfl
    · rfl
  · rename_i h
    obtain ⟨hmagic, hescape⟩ := not_or.mp h
    simp only [List.cons_append, List.nil_append, readEscaped, readByte, hmagic, hescape, ↓reduceIte]

theorem readPayload_escape {l buf2 : List UInt8} (input : List UInt8) (h : buf2.length + l.length ≤ bufLength) :
    readPayload l.length buf2 (l.flatMap escape ++ input) = .complete (buf2 ++ l) input := by
  induction l generalizing buf2 with
  | nil => rw [List.append_nil]; rfl
  | cons b l ih =>
    rw [List.length_cons] at h ⊢
    rw [List.flatMap_cons, List.append_assoc, readPayload, readEscaped_escape]
    simp only
    rw [if_pos (by omega), ih (by rw [List.length_append, List.length_singleton]; omega), List.append_assoc]
    rfl

theorem readInto_append {l : List UInt8} (buf : List UInt8) (offset : Nat) {n : Nat} (input : List UInt8)
    (h : l.length = n) (hn : l ≠ []) :
    readInto buf offset n (l ++ input) = (↑n, buf.take offset ++ l ++ buf.drop (offset + n), input) := by
  subst h
  have hne : l ++ input ≠ [] := fun hnil => hn (List.append_eq_nil_iff.mp hnil).1
  simp only [readInto, hne, ↓reduceIte, List.take_left, List.drop_left]

/-- What `restoreLogItem` is called with for a record: the buffer and the length. -/
def call (bytes : List UInt8) : List UInt8 × Int :=
  (bytes ++ List.replicate (bufLength - bytes.length) 0, bytes.length)

theorem next_record (bytes buf input : List UInt8) (itemsRead : Nat) (restored : List (List UInt8 × Int)) :
    next buf (writeEscapedBytes bytes ++ input) itemsRead restored =
      { buf := (magicByte :: ofWord (BitVec.ofNat 32 bytes.length)) ++ buf.drop 5, read := 5
        input := bytes.flatMap escape ++ input, itemsRead, restored } := by
  have hsplit : writeEscapedBytes bytes ++ input =
      (magicByte :: ofWord (BitVec.ofNat 32 bytes.length)) ++ (bytes.flatMap escape ++ input) := by
    rw [writeEscapedBytes, List.cons_append, List.cons_append, List.append_assoc]
  rw [next, hsplit, readInto_append buf 0 _ (n := 5) (by rw [List.length_cons, length_ofWord]) (List.cons_ne_nil _ _)]
  rfl

variable (restore) in
/-- After the record the reader has called `restoreLogItem` with it and stands behind it. -/
theorem readItem_record {bytes : List UInt8} (h : bytes.length ≤ bufLength) (buf input : List UInt8) (itemsRead : Nat)
    (restored : List (List UInt8 × Int)) :
    ∃ buf', readItem restore (next buf (writeEscapedBytes bytes ++ input) itemsRead restored) =
      match restore (call bytes).1 (call bytes).2 with
      | .error exception => .inl ⟨restored ++ [call bytes], .failed exception⟩
      | .ok _ =>
        let t := next buf' input (itemsRead + 1) (restored ++ [call bytes])
        .inr (if 2 * maxLogEntries < itemsRead + 1 then { t with read := 0 } else t) := by
  have hlen : bytes.length ≤ LogItem.capacity := h
  have hword := length_ofWord (BitVec.ofNat 32 bytes.length)
  have htake : (((magicByte :: ofWord (BitVec.ofNat 32 bytes.length)) ++ buf.drop 5).drop (0 + 1)).take 4 =
      ofWord (BitVec.ofNat 32 bytes.length) := by
    rw [List.cons_append, List.drop_succ_cons, List.drop_zero]
    exact List.take_left' hword
  have hskip : ∀ buf input, skip (magicByte :: buf) 0 input = some (magicByte :: buf, 0, input) := by
    intro buf input
    unfold skip
    rfl
  refine ⟨(magicByte :: ofWord (BitVec.ofNat 32 bytes.length)) ++ buf.drop 5, ?_⟩
  rw [next_record, readItem]
  simp only
  rw [List.cons_append, hskip]
  simp only
  rw [← List.cons_append, htake, toWord_ofWord (by decide), LogItem.toInt_ofNat hlen, Int.toNat_natCast,
    readPayload_escape input (by simpa using h), List.nil_append]
  rfl

/-! ### All the records -/

variable (restore) in
/-- `restoreLogItem` does not throw on the record. -/
def Returns (bytes : List UInt8) : Prop := (restore (call bytes).1 (call bytes).2).isOk = true

instance (bytes : List UInt8) : Decidable (Returns restore bytes) := inferInstanceAs (Decidable (_ = true))

variable (restore) in
/-- The records up to the first on which `restoreLogItem` throws, with that one. -/
def passed : List (List UInt8) → List (List UInt8)
  | [] => []
  | bytes :: records => bytes :: if Returns restore bytes then passed records else []

theorem isPrefix_passed (records : List (List UInt8)) : passed restore records <+: records := by
  induction records with
  | nil => exact List.prefix_refl _
  | cons bytes records ih =>
    unfold passed
    split
    · exact List.cons_prefix_cons.mpr ⟨rfl, ih⟩
    · exact List.cons_prefix_cons.mpr ⟨rfl, List.nil_prefix⟩

theorem passed_eq_iff (records : List (List UInt8)) :
    passed restore records = records ↔ ∀ bytes ∈ records.dropLast, Returns restore bytes := by
  induction records with
  | nil => simp [passed]
  | cons bytes records ih =>
    cases records with
    | nil => simp [passed]
    | cons bytes' records =>
      rw [List.dropLast_cons_cons, List.forall_mem_cons, ← ih, passed]
      split
      · rename_i h
        simp only [h, true_and, List.cons.injEq]
      · rename_i h
        simp [h]

variable (restore) in
theorem restored_readItem (s : Loop) :
    s.restored <+: (readItem restore s).elim Contents.restored Loop.restored := by
  unfold readItem
  split
  · exact List.prefix_refl _
  · simp only
    split
    · exact List.prefix_refl _
    · exact List.prefix_refl _
    · split
      · exact List.prefix_append _ _
      · split
        · exact List.prefix_append _ _
        · exact List.prefix_append _ _

theorem restored_readloop {n : Nat} {s : Loop} {contents : Contents ε} (h : readloop restore n s = some contents) :
    s.restored <+: contents.restored := by
  induction n generalizing s with
  | zero => cases h
  | succ n ih =>
    have hitem := restored_readItem restore s
    unfold readloop at h
    split at h
    · cases h
      exact List.prefix_refl _
    · split at h
      · rename_i heq
        rw [heq] at hitem
        cases h
        exact hitem
      · rename_i t heq
        rw [heq] at hitem
        exact hitem.trans (ih h)

/-- A round at a record, in `readloop`. -/
theorem readloop_record {bytes : List UInt8} (hlength : bytes.length ≤ bufLength) {buf input : List UInt8}
    {itemsRead : Nat} {restored : List (List UInt8 × Int)} {n : Nat} {contents : Contents ε}
    (h : readloop restore n (next buf (writeEscapedBytes bytes ++ input) itemsRead restored) = some contents) :
    (¬Returns restore bytes ∧ contents.restored = restored ++ [call bytes]) ∨
      (Returns restore bytes ∧ ∃ m buf',
        let t := next buf' input (itemsRead + 1) (restored ++ [call bytes])
        readloop restore m (if 2 * maxLogEntries < itemsRead + 1 then { t with read := 0 } else t) = some contents) := by
  obtain ⟨buf', hitem⟩ := readItem_record restore hlength buf input itemsRead restored
  cases n with
  | zero => cases h
  | succ n =>
    unfold readloop at h
    rw [if_neg (by rw [next_record]; exact Int.lt_irrefl 5), hitem] at h
    unfold Returns
    cases hrestore : restore (call bytes).1 (call bytes).2 with
    | error exception =>
      left
      rw [hrestore] at h
      cases h
      exact ⟨Bool.false_ne_true, rfl⟩
    | ok a =>
      right
      rw [hrestore] at h
      exact ⟨rfl, n, buf', h⟩

/-- By induction on the records; the round after the last one may be the first that is one too many. -/
theorem readloop_records (rest : List UInt8) {records : List (List UInt8)}
    (hlength : ∀ bytes ∈ records, bytes.length ≤ bufLength) {n : Nat} {buf : List UInt8} {itemsRead : Nat}
    {restored : List (List UInt8 × Int)} {contents : Contents ε}
    (hcount : itemsRead + records.length ≤ 2 * maxLogEntries + 1)
    (h : readloop restore n (next buf (records.flatMap writeEscapedBytes ++ rest) itemsRead restored) = some contents) :
    restored ++ (passed restore records).map call <+: contents.restored ∧
      (passed restore records ≠ records → contents.restored = restored ++ (passed restore records).map call) := by
  induction records generalizing n buf itemsRead restored with
  | nil =>
    have hrestored := restored_readloop h
    exact ⟨by simpa [passed, next] using hrestored, fun hne => absurd rfl hne⟩
  | cons bytes records ih =>
    obtain ⟨hbytes, hrecords⟩ := List.forall_mem_cons.mp hlength
    rw [List.length_cons] at hcount
    rw [List.flatMap_cons, List.append_assoc] at h
    rcases readloop_record hbytes h with ⟨hthrows, hcontents⟩ | ⟨hreturns, m, buf', hnext⟩
    · simp only [passed, hthrows, ↓reduceIte, List.map_cons, List.map_nil, hcontents]
      exact ⟨List.prefix_refl _, fun _ => trivial⟩
    · simp only [passed, hreturns, ↓reduceIte, List.map_cons]
      rw [List.append_cons]
      by_cases hmany : 2 * maxLogEntries < itemsRead + 1
      · obtain rfl : records = [] := List.eq_nil_of_length_eq_zero (by omega)
        have hrestored := restored_readloop hnext
        simp only [hmany, ↓reduceIte] at hrestored
        exact ⟨by simpa [passed, next] using hrestored, fun hne => absurd rfl hne⟩
      · simp only [hmany, ↓reduceIte] at hnext
        obtain ⟨hpassed, hstops⟩ := ih hrecords (by omega) hnext
        exact ⟨hpassed, fun hne => hstops fun heq => hne (by rw [heq])⟩

variable (restore) in
/-- From a file that begins with the records, these are passed on before anything else. -/
def Passes (records : List (List UInt8)) (rest : List UInt8) : Prop :=
  ∃ contents, readCacheContents restore (records.flatMap writeEscapedBytes ++ rest) = some contents ∧
    records.map call <+: contents.restored

theorem passes_iff (restore : List UInt8 → Int → Except ε α) {records : List (List UInt8)}
    (hcount : records.length ≤ 2001) (hlength : ∀ bytes ∈ records, bytes.length ≤ 16384) (rest : List UInt8) :
    Passes restore records rest ↔ ∀ bytes ∈ records.dropLast, Returns restore bytes := by
  obtain ⟨contents, hcontents⟩ := Option.isSome_iff_exists.mp
    (readCacheContents_isSome restore (records.flatMap writeEscapedBytes ++ rest))
  obtain ⟨hpassed, hstops⟩ := readloop_records rest hlength (by rwa [Nat.zero_add]) hcontents
  rw [List.nil_append] at hpassed hstops
  rw [← passed_eq_iff]
  constructor
  · rintro ⟨contents', hcontents', hpasses⟩
    obtain rfl : contents = contents' := Option.some.inj (hcontents.symm.trans hcontents')
    by_contra hne
    rw [hstops hne] at hpasses
    have hlen := hpasses.length_le
    rw [List.length_map, List.length_map] at hlen
    exact hne ((isPrefix_passed records).eq_of_length_le hlen)
  · intro heq
    rw [heq] at hpassed
    exact ⟨contents, hcontents, hpassed⟩

/-- Two records of magic and escape bytes, with a third one cut off. -/
theorem passes_magic :
    Passes (fun _ _ => (.ok () : Except Unit Unit)) [[0x55, 0x56, 0], [0x56, 0x55]] [0x55, 0, 0, 0, 9, 1] :=
  (passes_iff _ (by decide) (by decide) _).mpr (by decide)

end

theorem restoreLogItem_zero (buf : List UInt8) : restoreLogItem buf 0 = .error .bufferUnderflow := by
  have hlength : ¬((0 : Int) < 0 ∨ (buf.length : Int) < 0) := by omega
  rw [restoreLogItem, LogItem.ofBytes, if_neg hlength]
  rfl

/-- An empty record has no version, so it ends the reading and the record behind it is not passed on. -/
theorem record_lost :
    ¬∀ records : List (List UInt8), records.length ≤ 2001 → (∀ bytes ∈ records, bytes.length ≤ 16384) →
      ∀ rest, Passes restoreLogItem records rest := by
  intro hall
  obtain ⟨contents, hcontents, hpasses⟩ := hall [[], [7]] (by decide) (by decide) []
  have hthrows : ¬Returns restoreLogItem [] := by
    unfold Returns
    rw [show (call []).2 = 0 from rfl, restoreLogItem_zero]
    exact Bool.false_ne_true
  have hfile : [[], [7]].flatMap writeEscapedBytes ++ [] = writeEscapedBytes [] ++ writeEscapedBytes [7] := rfl
  rw [hfile] at hcontents
  rcases readloop_record (by decide) hcontents with ⟨-, hrestored⟩ | ⟨hreturns, -⟩
  · have hlen := hpasses.length_le
    rw [hrestored] at hlen
    exact absurd hlen (by decide)
  · exact hthrows hreturns

end LogCacheFile
end NicVpn
