import NicVpn.LogItem

/-! The record of a log item is read back as the item: the bytes that the two sides agree on are a definition of their
    own, the writer puts them into its buffer and the reader takes them from the front of any bytes. -/

namespace NicVpn
namespace LogItem
open BigEndian Reader

/-! ### The bytes of a record -/

def stringBytes (str : List Char) : List UInt8 :=
  ofWord (BitVec.ofNat 32 (Utf8.encode str).length) ++ Utf8.encode str

def argBytes : Arg → List UInt8
  | .string s => ofWord (tag 's') ++ stringBytes s
  | .integer n => ofWord (tag 'i') ++ ofWord n
  | .float bits => ofWord (tag 'f') ++ ofWord bits
  | .double bits => ofWord (tag 'd') ++ ofWord bits
  | .long n => ofWord (tag 'l') ++ ofWord n
  | .null => ofWord (tag '0')
  | .other toString => ofWord (tag 's') ++ stringBytes toString

def messageBytes : Option (List Char) → List UInt8
  | none | some [] => ofWord (0 : BitVec 32)
  | some message => stringBytes message

def argsBytes : Option (List Arg) → List UInt8
  | none | some [] => ofWord (0 : BitVec 32)
  | some args => ofWord (BitVec.ofNat 32 args.length) ++ args.flatMap argBytes

def encoding (li : LogItem) (level : LogLevel) : List UInt8 :=
  [0] ++ (ofWord li.logtime ++ (ofWord li.mVerbosityLevel ++ (ofWord level.getInt ++ (ofWord li.mRessourceId ++
    (messageBytes li.mMessage ++ argsBytes li.mArgs)))))

/-! ### Writing -/

/-- The writer does what one `put` of `l` does, on a buffer with room and on one without. -/
def Writes (w : ByteBuffer → Except Failure ByteBuffer) (l : List UInt8) : Prop := ∀ bb, w bb = bb.put l

theorem put_nil (bb : ByteBuffer) : bb.put [] = .ok bb := by
  have h : (bb.bytes ++ []).length ≤ capacity := by simpa using bb.le
  rw [ByteBuffer.put, dif_pos h]
  congr 2
  exact List.append_nil _

theorem put_put (bb : ByteBuffer) (l l' : List UInt8) :
    (bb.put l >>= fun bb => bb.put l') = bb.put (l ++ l') := by
  by_cases h : (bb.bytes ++ l).length ≤ capacity
  · simp only [ByteBuffer.put, h, ↓reduceDIte, bind, Except.bind, List.append_assoc]
  · have h' : ¬(bb.bytes ++ (l ++ l')).length ≤ capacity := by
      rw [← List.append_assoc, List.length_append]
      omega
    simp only [ByteBuffer.put, h, h', ↓reduceDIte, bind, Except.bind]

theorem Writes.bind {w w' : ByteBuffer → Except Failure ByteBuffer} {l l' : List UInt8} (h : Writes w l)
    (h' : Writes w' l') : Writes (fun bb => w bb >>= w') (l ++ l') := by
  intro bb
  calc w bb >>= w' = bb.put l >>= fun bb => bb.put l' := by rw [h bb, funext h']
    _ = bb.put (l ++ l') := put_put bb l l'

theorem writes_put (l : List UInt8) : Writes (fun bb => bb.put l) l := fun _ => rfl

theorem writes_putWord {n : Nat} (w : BitVec n) : Writes (fun bb => bb.putWord w) (ofWord w) := fun _ => rfl

theorem writes_marschalString (str : List Char) : Writes (marschalString str) (stringBytes str) :=
  (writes_putWord _).bind (writes_put _)

theorem writes_marschalArg (a : Arg) : Writes (fun bb => marschalArg bb a) (argBytes a) := by
  cases a with
  | string s => exact (writes_putWord _).bind (writes_marschalString s)
  | integer n => exact (writes_putWord _).bind (writes_putWord n)
  | float bits => exact (writes_putWord _).bind (writes_putWord bits)
  | double bits => exact (writes_putWord _).bind (writes_putWord bits)
  | long n => exact (writes_putWord _).bind (writes_putWord n)
  | null => exact writes_putWord _
  | other toString => exact (writes_putWord _).bind (writes_marschalString toString)

theorem writes_foldlM (args : List Arg) :
    Writes (fun bb => args.foldlM marschalArg bb) (args.flatMap argBytes) := by
  induction args with
  | nil => exact fun bb => (put_nil bb).symm
  | cons a args ih => exact (writes_marschalArg a).bind ih

theorem writes_marschalMessage (message : Option (List Char)) :
    Writes (fun bb => marschalMessage bb message) (messageBytes message) := by
  rcases message with _ | _ | ⟨c, message⟩
  · exact writes_putWord _
  · exact writes_putWord _
  · exact writes_marschalString (c :: message)

theorem writes_marschalArgs (args : Option (List Arg)) :
    Writes (fun bb => marschalArgs bb args) (argsBytes args) := by
  rcases args with _ | _ | ⟨a, args⟩
  · exact writes_putWord _
  · exact writes_putWord _
  · exact (writes_putWord _).bind (writes_foldlM (a :: args))

/-- The record is written if it fits. -/
theorem getMarschaledBytes_eq {li : LogItem} {level : LogLevel} (hlevel : li.mLevel = some level) :
    li.getMarschaledBytes =
      if (encoding li level).length ≤ capacity then .ok (encoding li level) else .error .bufferOverflow := by
  have hwrites := (writes_put [0]).bind ((writes_putWord li.logtime).bind ((writes_putWord li.mVerbosityLevel).bind
    ((writes_putWord level.getInt).bind ((writes_putWord li.mRessourceId).bind
      ((writes_marschalMessage li.mMessage).bind (writes_marschalArgs li.mArgs))))))
  have hput : li.getMarschaledBytes =
      (do let bb ← ByteBuffer.allocate.put (encoding li level); return bb.bytes) := by
    rw [encoding, ← hwrites, getMarschaledBytes, hlevel]
    simp only [bind_assoc]
    rfl
  rw [hput]
  by_cases h : (encoding li level).length ≤ capacity
  · have h' : (ByteBuffer.allocate.bytes ++ encoding li level).length ≤ capacity := h
    rw [if_pos h, ByteBuffer.put, dif_pos h']
    rfl
  · have h' : ¬(ByteBuffer.allocate.bytes ++ encoding li level).length ≤ capacity := h
    rw [if_neg h, ByteBuffer.put, dif_neg h']
    rfl

/-! ### Reading -/

theorem reads_getWord {n : Nat} (h : 8 ∣ n) (w : BitVec n) : Reads (getWord n) (ofWord w) w := by
  have := (reads_take (e := Failure.bufferUnderflow) (length_ofWord w)).map (f := toWord n)
  rwa [toWord_ofWord h] at this

theorem reads_char (w : BitVec 16) : Reads (getWord 16) (ofWord w) w := reads_getWord (by decide) w

theorem reads_int (w : BitVec 32) : Reads (getWord 32) (ofWord w) w := reads_getWord (by decide) w

theorem reads_long (w : BitVec 64) : Reads (getWord 64) (ofWord w) w := reads_getWord (by decide) w

theorem toInt_ofNat {n : Nat} (h : n ≤ capacity) : (BitVec.ofNat 32 n).toInt = n := by
  have hn : n < 2 ^ 31 := Nat.lt_of_le_of_lt h (by decide)
  rw [BitVec.toInt_eq_toNat_of_lt (by rw [BitVec.toNat_ofNat]; omega), BitVec.toNat_ofNat]
  omega

theorem ofNat_eq_zero_iff {n : Nat} (h : n ≤ capacity) : BitVec.ofNat 32 n = 0 ↔ n = 0 := by
  have hn : n < 2 ^ 31 := Nat.lt_of_le_of_lt h (by decide)
  rw [← BitVec.toNat_inj, BitVec.toNat_ofNat]
  show n % 2 ^ 32 = 0 ↔ n = 0
  omega

theorem reads_getBytes {l : List UInt8} (h : l.length ≤ capacity) : Reads (getBytes (BitVec.ofNat 32 l.length)) l l := by
  have hpos : ¬(BitVec.ofNat 32 l.length).toInt < 0 := by
    rw [toInt_ofNat h]
    omega
  rw [getBytes, if_neg hpos]
  apply reads_take
  have hn : l.length < 2 ^ 31 := Nat.lt_of_le_of_lt h (by decide)
  rw [BitVec.toNat_ofNat]
  omega

theorem reads_unmarschalString {s : List Char} (h : (Utf8.encode s).length ≤ capacity) :
    Reads unmarschalString (stringBytes s) s := by
  have := (reads_int _).bind (f := fun len => do let l ← getBytes len; return Utf8.decode l)
    (reads_getBytes h).map
  rwa [Utf8.decode_encode] at this

theorem messageBytes_of_ne_nil {s : List Char} (h : s ≠ []) : messageBytes (some s) = stringBytes s := by
  cases s with
  | nil => exact absurd rfl h
  | cons c s => rfl

theorem argsBytes_cons (a : Arg) (args : List Arg) :
    argsBytes (some (a :: args)) = ofWord (BitVec.ofNat 32 (a :: args).length) ++ (a :: args).flatMap argBytes := rfl

theorem reads_unmarschalMessage {message : Option (List Char)} (hmessage : message ≠ some [])
    (h : ∀ s, message = some s → (Utf8.encode s).length ≤ capacity) :
    Reads unmarschalMessage (messageBytes message) message := by
  unfold unmarschalMessage
  rcases message with _ | s
  · rw [messageBytes, ← List.append_nil (ofWord _)]
    exact (reads_int _).bind (reads_pure none)
  · have hs : s ≠ [] := fun hnil => hmessage (by rw [hnil])
    have hlen := h s rfl
    have hpos : 0 < (Utf8.encode s).length :=
      Nat.lt_of_lt_of_le (List.length_pos_iff.mpr hs) (Utf8.length_le_length_encode s)
    have hzero : BitVec.ofNat 32 (Utf8.encode s).length ≠ 0 := by
      rw [Ne, ofNat_eq_zero_iff hlen]
      omega
    rw [messageBytes_of_ne_nil hs, stringBytes]
    refine (reads_int _).bind ?_
    rw [if_neg hzero]
    refine Reads.of_remaining fun remaining hremaining => ?_
    rw [toInt_ofNat hlen, if_neg (by omega)]
    have := (reads_getBytes hlen).map (f := fun l => some (Utf8.decode l))
    rwa [Utf8.decode_encode] at this

/-- The arguments of the classes that a record has a tag for. -/
def Storable (a : Arg) : Prop := ∀ toString, a ≠ .other toString

theorem reads_unmarschalArg {a : Arg} (ha : Storable a) (h : (argBytes a).length ≤ capacity) :
    Reads unmarschalArg (argBytes a) a := by
  unfold unmarschalArg
  cases a with
  | string s =>
    rw [argBytes, stringBytes, List.length_append, List.length_append] at h
    exact (reads_char _).bind (reads_unmarschalString (by omega)).map
  | integer n => exact (reads_char _).bind (reads_int n).map
  | float bits => exact (reads_char _).bind (reads_int bits).map
  | double bits => exact (reads_char _).bind (reads_long bits).map
  | long n => exact (reads_char _).bind (reads_long n).map
  | null =>
    rw [argBytes, ← List.append_nil (ofWord _)]
    exact (reads_char _).bind (reads_pure Arg.null)
  | other toString => exact absurd rfl (ha toString)

/-- The arguments that are read back: an empty array is none. -/
def arguments (li : LogItem) : Option (List Arg) := li.mArgs.filter fun args => !args.isEmpty

theorem length_argBytes_le {a : Arg} {args : List Arg} (h : a ∈ args) :
    (argBytes a).length ≤ (args.flatMap argBytes).length := by
  obtain ⟨before, after, rfl⟩ := List.append_of_mem h
  rw [List.flatMap_append, List.flatMap_cons, List.length_append, List.length_append]
  omega

theorem reads_unmarschalArgs {li : LogItem} (hcount : ∀ args, li.mArgs = some args → args.length ≤ 30)
    (hstorable : ∀ args, li.mArgs = some args → ∀ a ∈ args, Storable a)
    (h : (argsBytes li.mArgs).length ≤ capacity) :
    Reads unmarschalArgs (argsBytes li.mArgs) li.arguments := by
  unfold unmarschalArgs arguments
  rcases hargs : li.mArgs with _ | _ | ⟨a, args⟩
  · rw [argsBytes, ← List.append_nil (ofWord _)]
    exact (reads_int _).bind (reads_pure none)
  · rw [argsBytes, ← List.append_nil (ofWord _)]
    exact (reads_int _).bind (reads_pure none)
  · have hlen := hcount _ hargs
    have hcap : (a :: args).length ≤ capacity := Nat.le_trans hlen (by decide)
    rw [hargs, argsBytes_cons, List.length_append] at h
    rw [argsBytes_cons]
    refine (reads_int _).bind ?_
    have hnat : (BitVec.ofNat 32 (a :: args).length).toNat = (a :: args).length := by
      rw [BitVec.toNat_ofNat]
      omega
    rw [toInt_ofNat hcap, if_neg (by omega), if_neg (by rw [ofNat_eq_zero_iff hcap]; simp), if_neg (by omega), hnat]
    refine (reads_times fun x hx => reads_unmarschalArg (hstorable _ hargs x hx) ?_).map
    have hx := length_argBytes_le hx
    omega

/-! ### Round trip -/

/-- The record of the item fits into the buffer. -/
def Fits (li : LogItem) : Prop := ∃ level, li.mLevel = some level ∧ (encoding li level).length ≤ capacity

theorem reads_unmarschal {li : LogItem} {level : LogLevel} (hlevel : li.mLevel = some level)
    (hmessage : li.mMessage ≠ some []) (hcount : ∀ args, li.mArgs = some args → args.length ≤ 30)
    (hstorable : ∀ args, li.mArgs = some args → ∀ a ∈ args, Storable a)
    (hfits : (encoding li level).length ≤ capacity) :
    Reads unmarschal (encoding li level) { li with mArgs := li.arguments } := by
  simp only [encoding, List.length_append] at hfits
  have hmessageBytes : ∀ s, li.mMessage = some s → (Utf8.encode s).length ≤ capacity := by
    intro s hs
    rcases eq_or_ne s [] with rfl | hne
    · exact absurd hs hmessage
    · rw [hs, messageBytes_of_ne_nil hne, stringBytes, List.length_append] at hfits
      omega
  unfold unmarschal encoding
  refine (reads_take (k := 1) (l := [0]) rfl).bind ?_
  refine (reads_long li.logtime).bind ?_
  refine (reads_int li.mVerbosityLevel).bind ?_
  refine (reads_int level.getInt).bind ?_
  refine (reads_int li.mRessourceId).bind ?_
  refine (reads_unmarschalMessage hmessage hmessageBytes).bind ?_
  have := (reads_unmarschalArgs hcount hstorable (by omega)).map (f := fun mArgs => { li with mArgs := mArgs })
  rw [LogLevel.getEnumByValue_getInt, ← hlevel]
  exact this

/-- A log item is what its record is read back as. -/
theorem ofBytes_getMarschaledBytes (li : LogItem) (hmessage : li.mMessage ≠ some [])
    (hcount : ∀ args, li.mArgs = some args → args.length ≤ 30)
    (hstorable : ∀ args, li.mArgs = some args → ∀ a ∈ args, Storable a) (hfits : Fits li) :
    ∃ bytes, li.getMarschaledBytes = .ok bytes ∧
      ofBytes bytes bytes.length = .ok { li with mArgs := li.arguments } := by
  obtain ⟨level, hlevel, hlen⟩ := hfits
  refine ⟨encoding li level, by rw [getMarschaledBytes_eq hlevel, if_pos hlen], ?_⟩
  have hreads := (reads_unmarschal hlevel hmessage hcount hstorable hlen).run
  have hlength : ¬((↑(encoding li level).length : Int) < 0 ∨
      (↑(encoding li level).length : Int) < ↑(encoding li level).length) := by omega
  rw [ofBytes, if_neg hlength, Int.toNat_natCast, List.take_length, hreads]
  rfl

/-- A warning of a resource with two arguments and no message. -/
def warned : LogItem :=
  { mArgs := some [.string ['t', 'u', 'n'], .null], mRessourceId := 7, mLevel := some .warning, logtime := 1 }

theorem ofBytes_getMarschaledBytes_warned :
    ∃ bytes, warned.getMarschaledBytes = .ok bytes ∧ ofBytes bytes bytes.length = .ok warned :=
  ofBytes_getMarschaledBytes warned (by simp [warned]) (by simp [warned]) (by simp [warned, Storable])
    ⟨.warning, rfl, by decide⟩

end LogItem
end NicVpn
