import NicVpn.OpenVpnManagementThread
import NicVpn.Lib.Lines

/-! The commands of the management thread are the lines of what it reads, decoded read by read. They are the
    lines of the stream just when no read before the last line feed ends inside a character. -/

namespace NicVpn
namespace OpenVpnManagementThread

/-! ### The commands are the lines of the decoded reads -/

theorem split_line {line : List Char} (h : '\n' ∉ line) (s : List Char) :
    split (line ++ '\n' :: s) = (Lines.body line, some s) := by
  induction line with
  | nil => rfl
  | cons c line ih =>
    obtain ⟨hc, hline⟩ := not_or.mp (List.mem_cons.not.mp h)
    have ih := ih hline
    cases line with
    | nil =>
      by_cases hcr : c = '\r'
      · subst hcr
        rfl
      · have hbody : Lines.body [c] = [c] := by simp [Lines.body, hcr]
        rw [List.cons_append, split.eq_4 _ _ (Ne.symm hc) (fun _ e => absurd e hcr), ih, hbody]
        rfl
    | cons d line =>
      have hd : '\n' ≠ d := (not_or.mp (List.mem_cons.not.mp hline)).1
      have hbody : Lines.body (c :: d :: line) = c :: Lines.body (d :: line) := by
        simp only [Lines.body, List.getLast?_cons_cons, List.dropLast_cons_cons]
        split <;> rfl
      have hsplit : split (c :: (d :: line ++ '\n' :: s)) =
          (c :: (split (d :: line ++ '\n' :: s)).1, (split (d :: line ++ '\n' :: s)).2) :=
        split.eq_4 _ _ (Ne.symm hc) fun _ _ e => hd (List.cons.inj e).1.symm
      rw [List.cons_append, hsplit, ih, hbody]

/-- The first line feed of a text. -/
theorem exists_line {s : List Char} (h : '\n' ∈ s) : ∃ line rest, '\n' ∉ line ∧ s = line ++ '\n' :: rest := by
  obtain ⟨line, rest, rfl, hline⟩ := List.eq_append_cons_of_mem h
  exact ⟨line, rest, hline, rfl⟩

theorem processLoop_eq (fuel : Nat) (i : Input) (h : i.pendingInput.length ≤ fuel) :
    processLoop fuel i =
      { pendingInput := Lines.pendingFrom [] i.pendingInput,
        commands := i.commands ++ Lines.terminated i.pendingInput } := by
  induction fuel generalizing i with
  | zero =>
    obtain ⟨pending, commands⟩ := i
    obtain rfl : pending = [] := List.length_eq_zero_iff.mp (Nat.le_zero.mp h)
    exact congrArg (Input.mk []) (List.append_nil commands).symm
  | succ fuel ih =>
    obtain ⟨pending, commands⟩ := i
    simp only [processLoop]
    split
    · rename_i hlf
      obtain ⟨line, rest, hline, rfl⟩ := exists_line hlf
      have hlen : rest.length ≤ fuel := by
        simp only [List.length_append, List.length_cons] at h
        omega
      have hpending : Lines.pendingFrom [] (line ++ '\n' :: rest) = Lines.pendingFrom [] rest := by
        rw [Lines.pendingFrom_append]
        rfl
      rw [split_line hline, Option.getD_some, ih _ hlen, hpending, Lines.terminated_line hline, List.append_assoc,
        List.singleton_append]
    · rename_i hlf
      rw [Lines.pendingFrom_of_not_mem hlf, Lines.terminated, Lines.terminatedFrom_of_not_mem hlf, List.nil_append,
        List.append_nil]

theorem foldl_read (reads : List Read) (i : Input) (h : '\n' ∉ i.pendingInput) :
    (reads.foldl read i).commands =
      i.commands ++ Lines.terminatedFrom i.pendingInput (reads.flatMap fun r => Utf8.decode r.bytes) := by
  induction reads generalizing i with
  | nil => exact (List.append_nil _).symm
  | cons r reads ih =>
    have hread : read i r =
        { pendingInput := Lines.pendingFrom i.pendingInput (Utf8.decode r.bytes),
          commands := i.commands ++ Lines.terminatedFrom i.pendingInput (Utf8.decode r.bytes) } := by
      rw [read, processInput, processLoop_eq _ _ (Nat.le_refl _), Lines.pendingFrom_append,
        Lines.terminated_pending_append h, Lines.pendingFrom_of_not_mem h, List.nil_append]
    rw [List.foldl_cons, hread, ih _ (Lines.not_mem_pendingFrom h _), List.flatMap_cons, Lines.terminatedFrom_append,
      List.append_assoc]

/-- The text that the reads are decoded to, each on its own. -/
def decoded (reads : List Read) : List Char := reads.flatMap fun r => Utf8.decode r.bytes

theorem run_eq_terminated (reads : List Read) : run reads = Lines.terminated (decoded reads) :=
  foldl_read reads _ List.not_mem_nil

/-! ### Cuts inside a character -/

/-- The bytes of some reads, one after the other. -/
def stream (reads : List Read) : List UInt8 := reads.flatMap Read.bytes

theorem stream_cons (r : Read) (reads : List Read) : stream (r :: reads) = r.bytes ++ stream reads := List.flatMap_cons

theorem decoded_cons (r : Read) (reads : List Read) : decoded (r :: reads) = Utf8.decode r.bytes ++ decoded reads :=
  List.flatMap_cons

/-- No read that a line feed comes after ends inside a character: the next byte is no continuation byte. -/
def WholeCharacters (reads : List Read) : Prop :=
  ∀ rest, rest <:+ reads → UInt8.ofNat '\n'.toNat ∈ stream rest → ∀ b ∈ (stream rest).head?, Utf8.tail b = false

theorem WholeCharacters.of_cons {r : Read} {reads : List Read} (h : WholeCharacters (r :: reads)) :
    WholeCharacters reads := fun rest hrest => h rest (hrest.trans (List.suffix_cons r reads))

/-- The beginning of a character holds no line feed. -/
theorem not_mem_decode_cut {c : Char} {p p' : List UInt8} (h : String.utf8EncodeChar c = p ++ p')
    (hc : 0x80 ≤ c.toNat) : '\n' ∉ Utf8.decode p := by
  intro hmem
  have hbyte := Utf8.mem_of_mem_decode (by decide) hmem
  have heq := Utf8.toNat_of_mem_encodeChar (h ▸ List.mem_append_left p' hbyte) (by decide)
  rw [heq] at hc
  exact absurd hc (by decide)

/-- Where some bytes of an encoded text end, with what is decoded from them and what is left: between two
    characters, or inside one. -/
theorem decode_cut {r rest : List UInt8} {s : List Char} (h : r ++ rest = Utf8.encode s) :
    (∃ t u, s = t ++ u ∧ Utf8.decode r = t ∧ rest = Utf8.encode u) ∨
      ∃ t c v p' w, s = t ++ c :: v ∧ '\n' ≠ c ∧ Utf8.decode r = t ++ Utf8.replacement :: w ∧ '\n' ∉ w ∧ p' ≠ [] ∧
        (∀ b ∈ p', Utf8.tail b = true) ∧ rest = p' ++ Utf8.encode v := by
  obtain ⟨t, u, rfl, ⟨rfl, hrest⟩ | ⟨c, v, p, p', rfl, hc, hp, hp', rfl, hrest⟩⟩ := Utf8.append_eq_encode h
  · exact .inl ⟨t, u, rfl, Utf8.decode_encode t, hrest⟩
  · obtain ⟨hlow, htails, w, hw⟩ := Utf8.cut_encodeChar hc hp hp'
    have hne : '\n' ≠ c := by
      rintro rfl
      exact absurd hlow (by decide)
    have hlf := not_mem_decode_cut hc hlow
    rw [hw] at hlf
    have hlf := (not_or.mp (List.mem_cons.not.mp hlf)).2
    exact .inr ⟨t, c, v, p', w, rfl, hne, by rw [Utf8.decode_encode_append, hw], hlf, hp', htails, hrest⟩

/-- The characters in the lines of a text, carriage returns apart. -/
def size (s : List Char) : Nat := Lines.count (Lines.terminated s).flatten

theorem count_replacements (n : Nat) : Lines.count (List.replicate n Utf8.replacement) = n := by
  induction n with
  | zero => rfl
  | succ n ih =>
    have hrep : Lines.count [Utf8.replacement] = 1 := by decide
    rw [List.replicate_succ', Lines.count_append, ih, hrep]

/-- What `d` is to the bytes that it was decoded from: it ends a line where they do, and its lines are no
    shorter. Continuation bytes `q` that a cut has left are a character each. -/
def Longer (rest : List UInt8) (d : List Char) : Prop :=
  ∀ q s, rest = q ++ Utf8.encode s → (∀ b ∈ q, Utf8.tail b = true) →
    ('\n' ∈ d ↔ '\n' ∈ s) ∧ ('\n' ∈ s → q.length + size s ≤ size d)

/-- Decoding the first bytes on their own makes the lines no shorter, and longer where it cuts a character of a
    line. -/
theorem Longer.of_append {r rest : List UInt8} {s d : List Char} (hd : Longer rest d) (h : r ++ rest = Utf8.encode s) :
    ('\n' ∈ Utf8.decode r ++ d ↔ '\n' ∈ s) ∧ size s ≤ size (Utf8.decode r ++ d) ∧
      ((∃ b ∈ rest.head?, Utf8.tail b = true) → '\n' ∈ d → size s < size (Utf8.decode r ++ d)) := by
  rcases decode_cut h with ⟨t, u, rfl, rfl, hu⟩ | ⟨t, c, v, p', w, rfl, hc, hw, hlf, hp', htails, hv⟩
  · obtain ⟨hmem, hle⟩ := hd [] u hu (List.forall_mem_nil _)
    refine ⟨by rw [List.mem_append, List.mem_append, hmem], ?_, ?_⟩
    · by_cases hin : '\n' ∈ u
      · have hle := hle hin
        rw [List.length_nil] at hle
        rw [size, size, Lines.count_terminated_append hin, Lines.count_terminated_append (hmem.mpr hin)]
        simp only [size] at hle
        omega
      · refine Nat.le_of_eq ?_
        rw [size, size, Lines.terminated_append_of_not_mem hin, Lines.terminated_append_of_not_mem (hmem.not.mpr hin)]
    · rintro ⟨b, hb, htail⟩
      rw [hu] at hb
      exact absurd htail (by rw [Utf8.tail_of_head?_encode hb]; exact Bool.false_ne_true)
  · obtain ⟨hmem, hle⟩ := hd p' v hv htails
    have hleft : '\n' ∉ Utf8.replacement :: w := fun h => (List.mem_cons.mp h).elim (by decide) hlf
    have hlt : '\n' ∈ v → size (t ++ c :: v) < size (Utf8.decode r ++ d) := by
      intro hin
      have hle := hle hin
      have hpos := List.length_pos_iff.mpr hp'
      have hone : Lines.count [c] ≤ 1 := List.countP_le_length
      have hrep : Lines.count [Utf8.replacement] = 1 := by decide
      have hcut : t ++ c :: v = t ++ [c] ++ v := by simp
      have hcut' : Lines.count (Utf8.replacement :: w) = Lines.count [Utf8.replacement] + Lines.count w :=
        Lines.count_append [Utf8.replacement] w
      rw [size, size, hcut, Lines.count_terminated_append hin, Lines.count_terminated_append (hmem.mpr hin), hw,
        Lines.count_append, Lines.count_append, hcut']
      simp only [size] at hle
      omega
    refine ⟨?_, ?_, fun _ hin => hlt (hmem.mp hin)⟩
    · rw [hw]
      simp only [List.mem_append, List.mem_cons, hmem, hc, hlf, show '\n' ≠ Utf8.replacement by decide, or_false,
        false_or]
    · by_cases hin : '\n' ∈ v
      · exact Nat.le_of_lt (hlt hin)
      · have hright : '\n' ∉ c :: v := fun h => (List.mem_cons.mp h).elim hc hin
        refine Nat.le_of_eq ?_
        rw [size, size, hw, Lines.terminated_append_of_not_mem (hmem.not.mpr hin),
          Lines.terminated_append_of_not_mem hleft, Lines.terminated_append_of_not_mem hright]

theorem longer_decoded (reads : List Read) : Longer (stream reads) (decoded reads) := by
  induction reads with
  | nil =>
    intro q s h _
    have hnil := (List.append_eq_nil_iff.mp h.symm).2
    have hs : '\n' ∉ s := fun hs => List.not_mem_nil (hnil ▸ (Utf8.mem_encode_iff (by decide)).mpr hs)
    exact ⟨⟨fun h => (List.not_mem_nil h).elim, fun h => (hs h).elim⟩, fun h => (hs h).elim⟩
  | cons r reads ih =>
    intro q s h hq
    rw [stream_cons] at h
    rw [decoded_cons]
    rcases List.append_eq_append_iff.mp h with ⟨q', rfl, hrest⟩ | ⟨r', hr, hrest⟩
    · -- the read is all continuation bytes
      obtain ⟨hr, hq'⟩ := List.forall_mem_append.mp hq
      obtain ⟨hmem, hle⟩ := ih q' s hrest hq'
      have hdec : Utf8.decode r.bytes = List.replicate r.bytes.length Utf8.replacement := by
        simpa [Utf8.decode, Utf8.decodeFrom] using Utf8.decode_tails_append hr []
      have hrep : '\n' ∉ List.replicate r.bytes.length Utf8.replacement :=
        fun h => absurd (List.eq_of_mem_replicate h) (by decide)
      rw [hdec]
      refine ⟨by rw [List.mem_append, hmem, or_iff_right hrep], fun hs => ?_⟩
      have hle := hle hs
      rw [size, size, Lines.count_terminated_append (hmem.mpr hs), count_replacements, List.length_append]
      simp only [size] at hle
      omega
    · have hdec : Utf8.decode r.bytes = List.replicate q.length Utf8.replacement ++ Utf8.decode r' := by
        rw [hr, Utf8.decode_tails_append hq]
      have hrep : '\n' ∉ List.replicate q.length Utf8.replacement :=
        fun h => absurd (List.eq_of_mem_replicate h) (by decide)
      obtain ⟨hmem, hle, -⟩ := ih.of_append hrest.symm
      rw [hdec, List.append_assoc]
      refine ⟨by rw [List.mem_append, hmem, or_iff_right hrep], fun hs => ?_⟩
      rw [size, size, Lines.count_terminated_append (hmem.mpr hs), count_replacements]
      exact Nat.add_le_add_left hle _

/-- The decoded reads have the lines of the stream, if no line holds a cut character. -/
theorem terminatedFrom_decoded {reads : List Read} {s : List Char} (h : stream reads = Utf8.encode s)
    (hcuts : WholeCharacters reads) (acc : List Char) :
    Lines.terminatedFrom acc (decoded reads) = Lines.terminatedFrom acc s := by
  induction reads generalizing s acc with
  | nil => rw [show s = [] from (Utf8.decode_encode s).symm.trans (by rw [← h]; rfl)]; rfl
  | cons r reads ih =>
    rw [decoded_cons]
    rcases decode_cut ((stream_cons r reads).symm.trans h) with
      ⟨t, u, rfl, hr, hu⟩ | ⟨t, c, v, p', w, rfl, hc, hw, hlf, hp', htails, hv⟩
    · rw [hr, Lines.terminatedFrom_append, Lines.terminatedFrom_append, ih hu hcuts.of_cons]
    · -- no line ends after the cut
      obtain ⟨b, p', rfl⟩ := List.exists_cons_of_ne_nil hp'
      have hin : '\n' ∉ v := by
        intro hin
        have hbyte : UInt8.ofNat '\n'.toNat ∈ stream reads := by
          rw [hv]
          exact List.mem_append_right _ ((Utf8.mem_encode_iff (by decide)).mpr hin)
        have hhead := hcuts reads (List.suffix_cons r reads) hbyte b (by rw [hv]; rfl)
        exact absurd (hhead ▸ htails b List.mem_cons_self) Bool.false_ne_true
      have hleft : '\n' ∉ Utf8.replacement :: w ++ decoded reads := by
        intro h
        rcases List.mem_append.mp h with h | h
        · exact (List.mem_cons.mp h).elim (by decide) hlf
        · exact hin (((longer_decoded reads) _ v hv htails).1.mp h)
      have hright : '\n' ∉ c :: v := fun h => (List.mem_cons.mp h).elim hc hin
      rw [hw, List.append_assoc, Lines.terminatedFrom_append, Lines.terminatedFrom_of_not_mem hleft,
        Lines.terminatedFrom_append, Lines.terminatedFrom_of_not_mem hright]

/-- Lines of the same size hold no cut character. -/
theorem wholeCharacters_of_size {reads : List Read} {s : List Char} (h : stream reads = Utf8.encode s)
    (hsize : size (decoded reads) ≤ size s) : WholeCharacters reads := by
  induction reads generalizing s with
  | nil =>
    rintro rest hrest hmem
    rw [List.suffix_nil.mp hrest] at hmem
    exact (List.not_mem_nil hmem).elim
  | cons r reads ih =>
    intro rest hrest hbyte
    rcases List.suffix_cons_iff.mp hrest with rfl | hrest
    · intro b hb
      rw [h] at hb
      exact Utf8.tail_of_head?_encode hb
    · have hbyte' : UInt8.ofNat '\n'.toNat ∈ stream reads := by
        obtain ⟨pre, rfl⟩ := hrest
        rw [stream, List.flatMap_append]
        exact List.mem_append_right _ hbyte
      have hlt := ((longer_decoded reads).of_append ((stream_cons r reads).symm.trans h)).2.2
      rw [decoded_cons] at hsize
      rcases decode_cut ((stream_cons r reads).symm.trans h) with
        ⟨t, u, rfl, hr, hu⟩ | ⟨t, c, v, p', w, rfl, -, -, -, hp', htails, hv⟩
      · have hin : '\n' ∈ u := (Utf8.mem_encode_iff (by decide)).mp (hu ▸ hbyte')
        have hmem := ((longer_decoded reads) [] u hu (List.forall_mem_nil _)).1.mpr hin
        rw [size, size, hr, Lines.count_terminated_append hin, Lines.count_terminated_append hmem] at hsize
        exact ih hu (Nat.le_of_add_le_add_left hsize) rest hrest hbyte
      · -- the cut makes the lines longer
        obtain ⟨b, p', rfl⟩ := List.exists_cons_of_ne_nil hp'
        have hin : '\n' ∈ v := by
          rw [hv, List.mem_append] at hbyte'
          refine (Utf8.mem_encode_iff (by decide)).mp (hbyte'.resolve_left fun hb => ?_)
          exact absurd (htails _ hb) (by decide)
        have hmem := ((longer_decoded reads) _ v hv htails).1.mpr hin
        have hcut := hlt ⟨b, by rw [hv]; rfl, htails b List.mem_cons_self⟩ hmem
        exact absurd hsize (Nat.not_le.mpr hcut)

/-- The commands are the lines of the stream, however it is cut into reads, just when each read that a line feed
    comes after ends with a whole character. -/
theorem run_eq_lines_iff (reads : List Read) (s : List Char) (h : stream reads = Utf8.encode s) :
    run reads = Lines.terminated s ↔ WholeCharacters reads := by
  rw [run_eq_terminated]
  constructor
  · intro heq
    exact wholeCharacters_of_size h (Nat.le_of_eq (by rw [size, heq, size]))
  · intro hcuts
    exact terminatedFrom_decoded h hcuts []

/-- A letter of two bytes, and the line feed, in a read each. -/
def wholeReads : List Read := [⟨[0xC3, 0xA9], by decide, by decide⟩, ⟨[0x0A], by decide, by decide⟩]

theorem run_eq_lines_iff_whole :
    stream wholeReads = Utf8.encode ['é', '\n'] ∧ WholeCharacters wholeReads ∧
      run wholeReads = Lines.terminated ['é', '\n'] := by
  have hstream : stream wholeReads = Utf8.encode ['é', '\n'] := by decide
  have hrun : run wholeReads = Lines.terminated ['é', '\n'] := by decide
  exact ⟨hstream, (run_eq_lines_iff wholeReads _ hstream).mp hrun, hrun⟩

/-- The same bytes with the letter cut in two. -/
def cutReads : List Read := [⟨[0xC3], by decide, by decide⟩, ⟨[0xA9, 0x0A], by decide, by decide⟩]

/-- The command has two replacement characters where the line has the letter. -/
theorem cut_read_run :
    stream cutReads = Utf8.encode ['é', '\n'] ∧ Lines.terminated ['é', '\n'] = [['é']] ∧
      run cutReads = [[Utf8.replacement, Utf8.replacement]] ∧ run cutReads ≠ Lines.terminated ['é', '\n'] := by
  decide

end OpenVpnManagementThread
end NicVpn
