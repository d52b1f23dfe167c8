import NicVpn.Handshake
import NicVpn.Lib.Http
import NicVpn.Theorems.Handshake

/-! What `ServerResponse.read` takes from a stream. On a well-formed head it takes the head and nothing more.
    On other streams it is too easily pleased: a CR before the line end hides it, an end of the stream or a
    head that is too long ends the head as well as an empty line does, and a line that is too long is read as
    one that has ended. -/

namespace NicVpn
namespace ServerResponse

/-! ### The result of a reading -/

theorem result_readHeadersReading (reset : Bool) (fuel : Nat) (linha : List Char) (count : Nat) (ignore : Bool)
    (r : ServerResponse) (bytes : List UInt8) :
    (readHeadersReading reset fuel linha count ignore r bytes).result =
      readHeaders reset fuel linha count ignore r bytes := by
  induction fuel generalizing linha count ignore r bytes with
  | zero => rfl
  | succ fuel ih =>
    unfold readHeadersReading readHeaders
    by_cases hgo : linha ≠ crlf ∧ count < Client.maxLenServerResponseHead
    · rw [if_pos hgo, if_pos hgo]
      rcases getLinha reset bytes Client.maxLenServerResponseHead with e | ⟨_ | linha, rest⟩
      · rfl
      · rfl
      · by_cases hid : (!ignore && Constants.idHeader.isPrefixOf linha) = true
        · simp only [hid, ↓reduceIte, Reading.before, bind, Except.bind]
          rcases getHeaderVal linha with e | id
          · rfl
          · exact ih linha _ true _ rest
        · simp only [hid, Bool.false_eq_true, ↓reduceIte, Reading.before, bind, Except.bind]
          exact ih linha _ ignore r rest
    · rw [if_neg hgo, if_neg hgo]

/-- The reading of a stream has the result of `read`. -/
theorem result_reading (p : Peer) : (reading p).result = read p := by
  unfold reading read
  rcases getLinha p.reset p.sent Client.maxLenServerResponseHead with e | ⟨_ | linha, rest⟩
  · rfl
  · rfl
  · simp only [Reading.before, bind, Except.bind]
    rcases setStatusLine { isValid := true } linha with _ | r
    · rfl
    · simp only [Reading.map, result_readHeadersReading]
      rcases readHeaders p.reset (rest.length + 1) linha 0 false r rest with e | r
      · rfl
      · rfl

/-! ### One line -/

/-- The bytes of a line as its characters. -/
def chars (w : List UInt8) : List Char := w.map Utf8.ofByte

/-- What a reader of lines yields: the first line with its line end, or the end of the stream. -/
def cutLine (reset : Bool) (builder : List Char) (bytes : List UInt8) : Except Exc (Option (List Char) × List UInt8) :=
  match Http.cut bytes with
  | some (w, rest) => .ok (some (builder ++ chars w ++ crlf), rest)
  | none => endOfStream reset

/-- What `getLinha` can cut after `count` bytes of a line: the CRs before the line end pair up and the line is
    short enough, or the stream ends before the limit is seen. -/
def LineFits (maxQtdBytes count : Nat) (bytes : List UInt8) : Prop :=
  match Http.cut bytes with
  | some (w, _) => Http.crsAtEnd w % 2 = 0 ∧ count + w.length < maxQtdBytes
  | none => bytes = [] ∨ count + bytes.length ≤ maxQtdBytes ∨
      (count + bytes.length = maxQtdBytes + 1 ∧ Http.crsAtEnd bytes.dropLast % 2 = 1)

theorem cutLine_of_map (pre : List UInt8) {reset : Bool} {builder : List Char} {bytes rest : List UInt8}
    (h : Http.cut bytes = (Http.cut rest).map fun p => (pre ++ p.1, p.2)) :
    cutLine reset builder bytes = cutLine reset (builder ++ chars pre) rest := by
  unfold cutLine
  rw [h]
  rcases Http.cut rest with _ | ⟨w, rest'⟩
  · rfl
  · simp [chars]

/-- A byte that is no CR. -/
theorem lineFits_cons {maxQtdBytes count : Nat} {b : UInt8} {rest : List UInt8} (hcount : count < maxQtdBytes)
    (hb : b ≠ 13) : LineFits maxQtdBytes count (b :: rest) ↔ LineFits maxQtdBytes (count + 1) rest := by
  unfold LineFits
  rw [Http.cut_cons hb]
  rcases Http.cut rest with _ | ⟨w, rest'⟩
  · simp only [Option.map_none]
    rcases rest with _ | ⟨c, rest⟩
    · simp; omega
    · rw [List.dropLast_cons_of_ne_nil (by simp), Http.crsAtEnd_cons hb]
      simp only [List.length_cons, reduceCtorEq, false_or]
      omega
  · simp only [Option.map_some, Http.crsAtEnd_cons hb, List.length_cons]
    omega

/-- A CR and the byte after it. -/
theorem lineFits_pair {maxQtdBytes count : Nat} {c : UInt8} {rest : List UInt8} (hcount : count < maxQtdBytes)
    (hc : c ≠ 10) (hrest : ¬(c = 13 ∧ rest.head? = some 10)) :
    LineFits maxQtdBytes count (13 :: c :: rest) ↔ LineFits maxQtdBytes (count + 2) rest := by
  unfold LineFits
  rw [Http.cut_pair hc hrest]
  rcases Http.cut rest with _ | ⟨w, rest'⟩
  · simp only [Option.map_none]
    rcases rest with _ | ⟨d, rest⟩
    · simp [Http.crsAtEnd]; omega
    · rw [List.dropLast_cons_of_ne_nil (by simp), List.dropLast_cons_of_ne_nil (by simp), Http.crsAtEnd_pair]
      simp only [List.length_cons, reduceCtorEq, false_or]
      omega
  · simp only [Option.map_some, Http.crsAtEnd_pair, List.length_cons]
    omega

/-- Past the limit nothing fits but the end of the stream. -/
theorem not_lineFits {maxQtdBytes count : Nat} {b : UInt8} {rest : List UInt8} (hcount : ¬count < maxQtdBytes) :
    ¬LineFits maxQtdBytes count (b :: rest) := by
  unfold LineFits
  rcases Http.cut (b :: rest) with _ | ⟨w, rest'⟩
  · simp only [List.length_cons, reduceCtorEq, false_or]
    rintro (h | ⟨h, hodd⟩)
    · omega
    · obtain rfl : rest = [] := List.length_eq_zero_iff.mp (by omega)
      simp [Http.crsAtEnd] at hodd
  · dsimp only
    omega

theorem cutLine_ne_builder {reset : Bool} {builder : List Char} {bytes rest : List UInt8} :
    cutLine reset builder bytes ≠ .ok (some builder, rest) := by
  unfold cutLine
  rcases Http.cut bytes with _ | ⟨w, rest'⟩
  · cases reset <;> simp [endOfStream]
  · simp [crlf]

/-- A line that goes on with an LF leaves less than what follows it, unless the limit is reached there. -/
theorem getLinhaFrom_lf {reset : Bool} {maxQtdBytes count : Nat} {builder linha : List Char} {rest : List UInt8}
    (h : getLinhaFrom reset maxQtdBytes count builder (10 :: rest) = .ok (some linha, rest)) :
    ¬count < maxQtdBytes ∧ linha = builder := by
  unfold getLinhaFrom at h
  by_cases hcount : count < maxQtdBytes
  · rw [if_pos hcount, if_neg (by decide)] at h
    exact absurd (getLinhaFrom_shorter h) (Nat.lt_irrefl _)
  · rw [if_neg hcount] at h
    cases h
    exact ⟨hcount, rfl⟩

/-- A line of `getLinha` is cut as it should be just when it fits. -/
theorem getLinhaFrom_eq_cutLine_iff (reset : Bool) (maxQtdBytes count : Nat) (builder : List Char)
    (bytes : List UInt8) :
    getLinhaFrom reset maxQtdBytes count builder bytes = cutLine reset builder bytes ↔
      LineFits maxQtdBytes count bytes := by
  fun_induction getLinhaFrom reset maxQtdBytes count builder bytes with
  | case1 => simp [cutLine, Http.cut, LineFits]
  | case2 count builder hcount =>
    simp only [cutLine, Http.cut, LineFits, List.length_singleton, true_iff]
    omega
  | case3 count builder hcount rest =>
    have hline : [Utf8.ofByte 13, Utf8.ofByte 10] = crlf := by decide
    simp [cutLine, Http.cut, LineFits, Http.crsAtEnd, chars, hline, hcount]
  | case4 count builder hcount c rest hc ih =>
    by_cases hrest : c = 13 ∧ rest.head? = some 10
    · obtain ⟨rfl, hhead⟩ := hrest
      obtain ⟨d, rest, rfl⟩ := List.exists_cons_of_ne_nil (l := rest) (by rintro rfl; cases hhead)
      cases hhead
      have hcut : cutLine reset builder (13 :: 13 :: 10 :: rest) =
          .ok (some (builder ++ [Utf8.ofByte 13] ++ crlf), rest) := rfl
      refine iff_of_false (fun h => ?_) (fun h => absurd (show Http.crsAtEnd [13] % 2 = 0 from h.1) (by decide))
      obtain ⟨-, hlinha⟩ := getLinhaFrom_lf (h.trans hcut)
      have hlength := congrArg List.length hlinha
      simp [crlf] at hlength
    · rw [lineFits_pair hcount hc hrest, ← ih]
      rw [cutLine_of_map [13, c] (Http.cut_pair hc hrest)]
      rfl
  | case5 count builder b rest hcount hb ih =>
    rw [lineFits_cons hcount hb, ← ih]
    rw [cutLine_of_map [b] (Http.cut_cons hb rest)]
    rfl
  | case6 count builder b rest hcount =>
    exact iff_of_false (fun h => cutLine_ne_builder h.symm) (not_lineFits hcount)

/-! ### Characters of lines -/

theorem chars_append (x y : List UInt8) : chars (x ++ y) = chars x ++ chars y := List.map_append

theorem chars_cons (b : UInt8) (w : List UInt8) : chars (b :: w) = Utf8.ofByte b :: chars w := rfl

theorem ofByte_space : Utf8.ofByte 32 = ' ' := by decide

theorem length_chars (w : List UInt8) : (chars w).length = w.length := List.length_map _

theorem ofByte_injective : Function.Injective Utf8.ofByte := by
  intro b c h
  have hvalid : ∀ b : UInt8, (Utf8.ofByte b).toNat = b.toNat := fun b =>
    Utf8.toNat_ofNat_of_valid (.inl (Nat.lt_trans b.toNat_lt (by decide)))
  exact UInt8.toNat_inj.mp (by rw [← hvalid b, ← hvalid c, h])

theorem mem_chars {b : UInt8} {w : List UInt8} : Utf8.ofByte b ∈ chars w ↔ b ∈ w :=
  List.mem_map_of_injective ofByte_injective

/-- The line end is found where the line is cut. -/
theorem indexOf_crlf (l : List UInt8) : Text.indexOf crlf (chars l) = (Http.cut l).map (·.1.length) := by
  fun_induction Http.cut l with
  | case1 => rfl
  | case2 b => simp [chars, Text.indexOf, crlf, List.isPrefixOf]
  | case3 b c l hbc =>
    obtain ⟨rfl, rfl⟩ := hbc
    rfl
  | case4 b c l hbc ih =>
    have hpre : ¬crlf.isPrefixOf (Utf8.ofByte b :: chars (c :: l)) = true := by
      intro hpre
      obtain ⟨hb, hc⟩ := List.cons_prefix_cons.mp (List.isPrefixOf_iff_prefix.mp hpre)
      refine hbc ⟨ofByte_injective (hb.symm.trans (by decide)), ofByte_injective ?_⟩
      exact (List.cons_prefix_cons.mp hc).1.symm.trans (by decide)
    have hstep : Text.indexOf crlf (chars (b :: c :: l)) = (Text.indexOf crlf (chars (c :: l))).map (· + 1) := by
      exact if_neg hpre
    rw [hstep, ih, Option.map_map, Option.map_map]
    rfl

/-! ### The status line -/

/-- A line of a version, a status code and a reason. -/
def StatusLine (w : List UInt8) (n : Int) : Prop :=
  ∃ version code reason, w = version ++ 32 :: (code ++ 32 :: reason) ∧ 32 ∉ version ∧ 32 ∉ code ∧
    Text.toInt (chars code) = some n

theorem drop_past (x y : List Char) (c : Char) : (x ++ c :: y).drop (x.length + 1) = y := by
  rw [List.append_cons]
  exact List.drop_left' (by simp)

theorem setStatusLine_eq {version code : List Char} (hversion : ' ' ∉ version) (hcode : ' ' ∉ code)
    (r : ServerResponse) (reason msg : List Char) (hmsg : '\r' ∉ reason) :
    setStatusLine r (version ++ ' ' :: (code ++ ' ' :: (reason ++ '\r' :: msg))) =
      (Text.toInt code).map fun n => { r with statusCode := n, statusMsg := some reason } := by
  unfold setStatusLine
  rw [Text.indexOf_append_cons hversion]
  simp only [Option.bind_eq_bind, Option.bind_some, drop_past]
  rw [Text.indexOf_append_cons hcode]
  simp only [Option.bind_some, drop_past, List.take_left]
  rw [Text.indexOf_append_cons hmsg]
  cases Text.toInt code with
  | none => rfl
  | some n => simp

theorem not_mem_chars {b : UInt8} {w : List UInt8} (h : b ∉ w) : Utf8.ofByte b ∉ chars w := fun hmem => h (mem_chars.mp hmem)

/-- The line behind two spaces. -/
theorem setStatusLine_parts {version code : List UInt8} (hversion : 32 ∉ version) (hcode : 32 ∉ code)
    (reason : List UInt8) (r : ServerResponse) : ∃ msg, setStatusLine r (chars (version ++ 32 :: (code ++ 32 :: reason)) ++ crlf) =
      (Text.toInt (chars code)).map fun n => { r with statusCode := n, statusMsg := some msg } := by
  obtain ⟨msg, rest, hmsg, hnot⟩ := List.eq_append_cons_of_mem (show '\r' ∈ chars reason ++ crlf by simp [crlf])
  refine ⟨msg, ?_⟩
  have hline : chars (version ++ 32 :: (code ++ 32 :: reason)) ++ crlf =
      chars version ++ ' ' :: (chars code ++ ' ' :: (msg ++ '\r' :: rest)) := by
    rw [← hmsg]
    simp only [chars_append, chars_cons, ofByte_space, List.append_assoc, List.cons_append]
  rw [hline]
  exact setStatusLine_eq (ofByte_space ▸ not_mem_chars hversion) (ofByte_space ▸ not_mem_chars hcode) r msg rest hnot

theorem setStatusLine_statusLine {w : List UInt8} {n : Int} (h : StatusLine w n) (r : ServerResponse) :
    ∃ msg, setStatusLine r (chars w ++ crlf) = some { r with statusCode := n, statusMsg := some msg } := by
  obtain ⟨version, code, reason, rfl, hversion, hcode, hn⟩ := h
  obtain ⟨msg, hset⟩ := setStatusLine_parts hversion hcode reason r
  exact ⟨msg, by rw [hset, hn]; rfl⟩

theorem setStatusLine_eq_none {w : List UInt8} (h : ∀ n, ¬StatusLine w n) (r : ServerResponse) :
    setStatusLine r (chars w ++ crlf) = none := by
  have hspace : ∀ x : List UInt8, 32 ∉ x → ' ' ∉ chars x ++ crlf := by
    intro x hx hmem
    rcases List.mem_append.mp hmem with hmem | hmem
    · exact not_mem_chars hx (ofByte_space ▸ hmem)
    · revert hmem
      decide
  by_cases hmem : 32 ∈ w
  · obtain ⟨version, rest, rfl, hversion⟩ := List.eq_append_cons_of_mem hmem
    by_cases hmem' : 32 ∈ rest
    · obtain ⟨code, reason, rfl, hcode⟩ := List.eq_append_cons_of_mem hmem'
      obtain ⟨msg, hset⟩ := setStatusLine_parts hversion hcode reason r
      rw [hset]
      cases hn : Text.toInt (chars code) with
      | none => rfl
      | some n => exact absurd ⟨version, code, reason, rfl, hversion, hcode, hn⟩ (h n)
    · have hline : chars (version ++ 32 :: rest) ++ crlf = chars version ++ ' ' :: (chars rest ++ crlf) := by
        rw [chars_append, chars_cons, ofByte_space, List.append_assoc, List.cons_append]
      unfold setStatusLine
      rw [hline, Text.indexOf_append_cons (ofByte_space ▸ not_mem_chars hversion)]
      simp only [Option.bind_eq_bind, Option.bind_some, drop_past]
      rw [Text.indexOf_of_not_mem (hspace rest hmem')]
      rfl
  · unfold setStatusLine
    rw [Text.indexOf_of_not_mem (hspace w hmem)]
    rfl

/-! ### Headers -/

/-- The value of an `X-Id` line is what follows the name. -/
theorem getHeaderVal_idHeader {w : List UInt8} (hcut : Http.cut (w ++ [13, 10]) = some (w, []))
    (hid : Constants.idHeader <+: chars w ++ crlf) :
    getHeaderVal (chars w ++ crlf) = .ok (some ((chars w).drop Constants.idHeader.length)) := by
  have hpre : Constants.idHeader <+: chars w := Text.prefix_of_prefix_append (by decide) hid
  have hend : Text.indexOf crlf (chars w ++ crlf) = some (chars w).length := by
    have hchars : chars (w ++ [13, 10]) = chars w ++ crlf := by
      rw [chars_append]
      rfl
    rw [← hchars, indexOf_crlf, hcut, Option.map_some, length_chars]
  obtain ⟨v, hv⟩ := hpre
  have hcolon : Text.indexOf [':'] (chars w ++ crlf) = some 4 := by
    rw [← hv]
    rfl
  unfold getHeaderVal
  rw [hcolon, hend]
  have hle : 4 + 2 ≤ (chars w).length := by
    rw [← hv, List.length_append]
    exact Nat.le_add_right _ _
  simp only [if_pos hle, List.take_left]
  rfl

/-! ### The head -/

/-- Header lines up to the empty line, and what follows it. -/
inductive HeadEnds : List UInt8 → List UInt8 → Prop
  | empty {bytes rest : List UInt8} (h : Http.cut bytes = some ([], rest)) : HeadEnds bytes rest
  | header {bytes w bytes' rest : List UInt8} (h : Http.cut bytes = some (w, bytes')) (hw : w ≠ [])
      (hrest : HeadEnds bytes' rest) : HeadEnds bytes rest

theorem HeadEnds.length_lt {bytes rest : List UInt8} (h : HeadEnds bytes rest) : rest.length < bytes.length := by
  have hcut : ∀ {l w rest : List UInt8}, Http.cut l = some (w, rest) → rest.length < l.length := by
    intro l w rest h
    rw [Http.cut_eq_some h, List.length_append, List.length_cons, List.length_cons]
    omega
  induction h with
  | empty h => exact hcut h
  | header h _ _ ih => exact Nat.lt_trans ih (hcut h)

/-- The header lines fit, with the empty line or a broken connection at their end. -/
inductive HeadFits (reset : Bool) : Nat → List UInt8 → Prop
  | broken {count : Nat} {bytes : List UInt8} (hfits : LineFits Client.maxLenServerResponseHead 0 bytes)
      (h : Http.cut bytes = none) (hreset : reset = true) : HeadFits reset count bytes
  | empty {count : Nat} {bytes rest : List UInt8} (hfits : LineFits Client.maxLenServerResponseHead 0 bytes)
      (h : Http.cut bytes = some ([], rest)) : HeadFits reset count bytes
  | header {count : Nat} {bytes w rest : List UInt8} (hfits : LineFits Client.maxLenServerResponseHead 0 bytes)
      (h : Http.cut bytes = some (w, rest)) (hw : w ≠ [])
      (hcount : count + (w.length + 2) < Client.maxLenServerResponseHead)
      (hrest : HeadFits reset (count + (w.length + 2)) rest) : HeadFits reset count bytes

/-- What is asked of the loop of `read`. -/
structure HeadRead (reset : Bool) (bytes : List UInt8) (g : Reading ServerResponse) : Prop where
  exception : ∀ e, g.result = .error e → e = .io
  ends : ∀ r, g.result = .ok r → r.isValid = true → HeadEnds bytes g.unread
  lines : ∀ l ∈ g.calls, getLinha reset l Client.maxLenServerResponseHead = cutLine reset [] l

theorem getLinha_eq_cutLine_iff (reset : Bool) (bytes : List UInt8) (maxQtdBytes : Nat) :
    getLinha reset bytes maxQtdBytes = cutLine reset [] bytes ↔ LineFits maxQtdBytes 0 bytes :=
  getLinhaFrom_eq_cutLine_iff reset maxQtdBytes 0 [] bytes

theorem readHeadersReading_stop {reset : Bool} {linha : List Char} {count : Nat}
    (h : ¬(linha ≠ crlf ∧ count < Client.maxLenServerResponseHead)) (fuel : Nat) (ignore : Bool)
    (r : ServerResponse) (bytes : List UInt8) :
    readHeadersReading reset fuel linha count ignore r bytes = ⟨.ok r, [], bytes⟩ := by
  cases fuel with
  | zero => rfl
  | succ fuel => exact if_neg h

/-- Behind the empty line the loop stops. -/
theorem readHeadersReading_empty (reset : Bool) (fuel count : Nat) (ignore : Bool) (r : ServerResponse)
    (bytes : List UInt8) :
    readHeadersReading reset fuel (chars [] ++ crlf) count ignore r bytes = ⟨.ok r, [], bytes⟩ :=
  readHeadersReading_stop (fun h => h.1 rfl) fuel ignore r bytes

theorem chars_append_crlf_ne {w : List UInt8} (hw : w ≠ []) : chars w ++ crlf ≠ crlf := by
  intro h
  have hlength := congrArg List.length h
  rw [List.length_append, length_chars, Nat.add_eq_right, List.length_eq_zero_iff] at hlength
  exact hw hlength

/-- After a header line the loop goes on behind it, whether the line has the id or not. -/
theorem readHeadersReading_header {reset : Bool} {bytes w rest : List UInt8} {linha : List Char} {count : Nat}
    (hgo : linha ≠ crlf ∧ count < Client.maxLenServerResponseHead)
    (hfits : LineFits Client.maxLenServerResponseHead 0 bytes) (hcut : Http.cut bytes = some (w, rest))
    (fuel : Nat) (ignore : Bool) (r : ServerResponse) :
    ∃ id, readHeadersReading reset (fuel + 1) linha count ignore r bytes =
      .before bytes (readHeadersReading reset fuel (chars w ++ crlf) (count + (w.length + 2))
        (ignore || Constants.idHeader.isPrefixOf (chars w ++ crlf)) { r with id } rest) ∧
      id = if !ignore && Constants.idHeader.isPrefixOf (chars w ++ crlf) then
        some ((chars w).drop Constants.idHeader.length) else r.id := by
  have hlinha : getLinha reset bytes Client.maxLenServerResponseHead = .ok (some (chars w ++ crlf), rest) := by
    rw [(getLinha_eq_cutLine_iff reset bytes _).mpr hfits, cutLine, hcut]
    rfl
  have hlength : (chars w ++ crlf).length = w.length + 2 := by
    rw [List.length_append, length_chars]
    rfl
  refine ⟨_, ?_, rfl⟩
  rw [readHeadersReading, if_pos hgo, hlinha]
  dsimp only
  rw [hlength]
  by_cases hid : (!ignore && Constants.idHeader.isPrefixOf (chars w ++ crlf)) = true
  · obtain ⟨hignore, hpre⟩ := Bool.and_eq_true_iff.mp hid
    have hcut' : Http.cut (w ++ [13, 10]) = some (w, []) :=
      Http.cut_other_rest (Http.cut_eq_some hcut ▸ hcut) []
    have hval := getHeaderVal_idHeader hcut' (List.isPrefixOf_iff_prefix.mp hpre)
    rw [if_pos hid, if_pos hid, hval, hpre]
    simp
  · rw [if_neg hid, if_neg hid]
    have hignore : (ignore || Constants.idHeader.isPrefixOf (chars w ++ crlf)) = ignore := by
      cases ignore with
      | true => rfl
      | false => exact Bool.eq_false_iff.mpr hid
    rw [hignore]

/-- Whether a head fits is seen at its first line. -/
theorem headFits_iff (reset : Bool) (count : Nat) (bytes : List UInt8) : HeadFits reset count bytes ↔
    LineFits Client.maxLenServerResponseHead 0 bytes ∧
      match Http.cut bytes with
      | none => reset = true
      | some (w, rest) => w = [] ∨ (count + (w.length + 2) < Client.maxLenServerResponseHead ∧
          HeadFits reset (count + (w.length + 2)) rest) := by
  constructor
  · rintro (⟨hfits, h, hreset⟩ | ⟨hfits, h⟩ | ⟨hfits, h, hw, hcount, hrest⟩) <;> rw [h] <;> refine ⟨hfits, ?_⟩
    · exact hreset
    · exact .inl rfl
    · exact .inr ⟨hcount, hrest⟩
  · rintro ⟨hfits, h⟩
    rcases hcut : Http.cut bytes with _ | ⟨w, rest⟩ <;> rw [hcut] at h
    · exact .broken hfits hcut h
    · by_cases hw : w = []
      · exact .empty hfits (hw ▸ hcut)
      · obtain ⟨hcount, hrest⟩ := h.resolve_left hw
        exact .header hfits hcut hw hcount hrest

/-- A header line is no end of the head. -/
theorem headEnds_header {bytes w rest : List UInt8} (hcut : Http.cut bytes = some (w, rest)) (hw : w ≠ [])
    (u : List UInt8) : HeadEnds bytes u ↔ HeadEnds rest u := by
  refine ⟨fun h => ?_, .header hcut hw⟩
  cases h with
  | empty h =>
    rw [hcut] at h
    cases h
    exact absurd rfl hw
  | header h _ hends =>
    rw [hcut] at h
    cases h
    exact hends

/-- A line that fits, and the rest of the loop. -/
theorem headRead_before {reset : Bool} {bytes : List UInt8} (hfits : LineFits Client.maxLenServerResponseHead 0 bytes)
    (g : Reading ServerResponse) : HeadRead reset bytes (.before bytes g) ↔
      (∀ e, g.result = .error e → e = .io) ∧
      (∀ r, g.result = .ok r → r.isValid = true → HeadEnds bytes g.unread) ∧
      ∀ l ∈ g.calls, getLinha reset l Client.maxLenServerResponseHead = cutLine reset [] l := by
  have hline := (getLinha_eq_cutLine_iff reset bytes _).mpr hfits
  constructor
  · rintro ⟨hexc, hends, hlines⟩
    exact ⟨hexc, hends, (List.forall_mem_cons.mp hlines).2⟩
  · rintro ⟨hexc, hends, hlines⟩
    exact ⟨hexc, hends, List.forall_mem_cons.mpr ⟨hline, hlines⟩⟩

theorem headRead_header {reset : Bool} {bytes w rest : List UInt8}
    (hfits : LineFits Client.maxLenServerResponseHead 0 bytes) (hcut : Http.cut bytes = some (w, rest)) (hw : w ≠ [])
    (g : Reading ServerResponse) : HeadRead reset bytes (.before bytes g) ↔ HeadRead reset rest g := by
  simp only [headRead_before hfits, headEnds_header hcut hw]
  exact ⟨fun ⟨hexc, hends, hlines⟩ => ⟨hexc, hends, hlines⟩, fun ⟨hexc, hends, hlines⟩ => ⟨hexc, hends, hlines⟩⟩

/-- A loop that stops before the empty line has not read the head. -/
theorem not_headRead_stop {reset : Bool} {bytes : List UInt8} {r : ServerResponse} (hr : r.isValid = true) :
    ¬HeadRead reset bytes ⟨.ok r, [], bytes⟩ :=
  fun h => absurd (h.ends r rfl hr).length_lt (Nat.lt_irrefl _)

section Loop
variable {reset : Bool} {linha : List Char} {count : Nat} {bytes : List UInt8}

/-- A line that does not fit is not cut as it should be. -/
theorem not_headRead_of_misfit (hgo : linha ≠ crlf ∧ count < Client.maxLenServerResponseHead)
    (hfits : ¬LineFits Client.maxLenServerResponseHead 0 bytes) (fuel : Nat) (ignore : Bool) (r : ServerResponse) :
    ¬HeadRead reset bytes (readHeadersReading reset (fuel + 1) linha count ignore r bytes) := by
  intro h
  have hmem : bytes ∈ (readHeadersReading reset (fuel + 1) linha count ignore r bytes).calls := by
    rw [readHeadersReading, if_pos hgo]
    exact List.mem_cons_self
  exact hfits ((getLinha_eq_cutLine_iff _ _ _).mp (h.lines bytes hmem))

/-- The stream ends: with an exception, or as if the head had ended. -/
theorem headRead_end_iff (hgo : linha ≠ crlf ∧ count < Client.maxLenServerResponseHead)
    (hfits : LineFits Client.maxLenServerResponseHead 0 bytes) (hcut : Http.cut bytes = none) (fuel : Nat)
    (ignore : Bool) {r : ServerResponse} (hr : r.isValid = true) :
    HeadRead reset bytes (readHeadersReading reset (fuel + 1) linha count ignore r bytes) ↔ reset = true := by
  have hline : getLinha reset bytes Client.maxLenServerResponseHead = endOfStream reset := by
    rw [(getLinha_eq_cutLine_iff reset bytes _).mpr hfits, cutLine, hcut]
  rw [readHeadersReading, if_pos hgo, hline, headRead_before hfits]
  cases reset with
  | true =>
    refine iff_of_true ⟨fun e he => (Except.error.inj he).symm, fun r he => ?_, List.forall_mem_nil _⟩ rfl
    cases he
  | false =>
    refine iff_of_false (fun h => ?_) nofun
    cases h.2.1 r rfl hr with
    | empty h =>
      rw [hcut] at h
      cases h
    | header h =>
      rw [hcut] at h
      cases h

end Loop

/-- The loop reads a head as it should just when the head fits. -/
theorem readHeadersReading_iff {reset : Bool} {fuel : Nat} {linha : List Char} {count : Nat} {ignore : Bool}
    {r : ServerResponse} {bytes : List UInt8} (hfuel : bytes.length < fuel) (hlinha : linha ≠ crlf)
    (hcount : count < Client.maxLenServerResponseHead) (hr : r.isValid = true) :
    HeadRead reset bytes (readHeadersReading reset fuel linha count ignore r bytes) ↔ HeadFits reset count bytes := by
  induction fuel generalizing linha count ignore r bytes with
  | zero => exact absurd hfuel (Nat.not_lt_zero _)
  | succ fuel ih =>
    have hgo : linha ≠ crlf ∧ count < Client.maxLenServerResponseHead := ⟨hlinha, hcount⟩
    rw [headFits_iff]
    by_cases hfits : LineFits Client.maxLenServerResponseHead 0 bytes
    swap
    · exact iff_of_false (not_headRead_of_misfit hgo hfits fuel ignore r) fun h => hfits h.1
    rcases hcut : Http.cut bytes with _ | ⟨w, rest⟩
    · rw [headRead_end_iff hgo hfits hcut fuel ignore hr]
      exact (and_iff_right hfits).symm
    obtain ⟨id, hstep, -⟩ := readHeadersReading_header hgo hfits hcut fuel ignore r
    rw [hstep]
    dsimp only
    by_cases hw : w = []
    · -- the empty line
      subst hw
      rw [readHeadersReading_empty, headRead_before hfits]
      refine iff_of_true ⟨fun e he => ?_, fun r _ _ => .empty hcut, List.forall_mem_nil _⟩ ⟨hfits, .inl rfl⟩
      cases he
    rw [headRead_header hfits hcut hw]
    by_cases hsmall : count + (w.length + 2) < Client.maxLenServerResponseHead
    · have hlt : rest.length < fuel := by
        have hlength := congrArg List.length (Http.cut_eq_some hcut)
        simp only [List.length_append, List.length_cons] at hlength
        omega
      rw [ih hlt (chars_append_crlf_ne hw) hsmall (r := { r with id }) hr]
      exact ⟨fun h => ⟨hfits, .inr ⟨hsmall, h⟩⟩, fun h => (h.2.resolve_left hw).2⟩
    · -- the head is too long: the loop leaves it where it is
      rw [readHeadersReading_stop fun h => hsmall h.2]
      exact iff_of_false (not_headRead_stop (r := { r with id }) hr) fun h => hsmall (h.2.resolve_left hw).1

/-! ### Well-formed heads -/

/-- A well-formed response head. -/
structure Head where
  version : List UInt8
  code : List UInt8
  statusCode : Int
  reason : List UInt8
  headers : List (List UInt8)
  version_ok : 32 ∉ version ∧ 13 ∉ version
  code_ok : 32 ∉ code ∧ 13 ∉ code
  statusCode_ok : Text.toInt (chars code) = some statusCode
  reason_ok : 13 ∉ reason
  headers_ok : ∀ l ∈ headers, l ≠ [] ∧ 13 ∉ l

namespace Head

def statusLine (h : Head) : List UInt8 := h.version ++ 32 :: (h.code ++ 32 :: h.reason)

/-- Header lines, each with its line end. -/
def lines (headers : List (List UInt8)) : List UInt8 := headers.flatMap fun l => l ++ [13, 10]

def bytes (h : Head) : List UInt8 := h.statusLine ++ 13 :: 10 :: (lines h.headers ++ [13, 10])

/-- The first header line with an id. -/
def idLine (headers : List (List UInt8)) : Option (List UInt8) :=
  headers.find? fun l => Constants.idHeader.isPrefixOf (chars l)

/-- What follows the name on the first header line with an id. -/
def id (headers : List (List UInt8)) : Option (List Char) :=
  (idLine headers).map fun l => (chars l).drop Constants.idHeader.length

theorem lines_cons (l : List UInt8) (headers : List (List UInt8)) :
    lines (l :: headers) = l ++ 13 :: 10 :: lines headers := by
  simp [lines]

theorem length_le_lines (headers : List (List UInt8)) : headers.length ≤ (lines headers).length := by
  induction headers with
  | nil => exact Nat.le_refl _
  | cons l headers ih =>
    simp only [lines_cons, List.length_append, List.length_cons]
    omega

end Head

theorem lineFits_of_not_mem {w : List UInt8} (h : 13 ∉ w) (hlen : w.length < Client.maxLenServerResponseHead)
    (rest : List UInt8) : LineFits Client.maxLenServerResponseHead 0 (w ++ 13 :: 10 :: rest) := by
  rw [LineFits, Http.cut_append h]
  refine ⟨by rw [Http.crsAtEnd_of_not_mem h], ?_⟩
  rw [Nat.zero_add]
  exact hlen

theorem idHeader_isPrefixOf_crlf (l : List UInt8) :
    Constants.idHeader.isPrefixOf (chars l ++ crlf) = Constants.idHeader.isPrefixOf (chars l) := by
  rw [Bool.eq_iff_iff, List.isPrefixOf_iff_prefix, List.isPrefixOf_iff_prefix]
  exact ⟨Text.prefix_of_prefix_append (by decide), fun h => h.trans (List.prefix_append _ _)⟩

/-- The loop over the lines of a head: it stops behind the empty line, with the first id. -/
theorem readHeadersReading_lines {reset : Bool} {headers : List (List UInt8)} (hok : ∀ l ∈ headers, l ≠ [] ∧ 13 ∉ l)
    {fuel : Nat} {linha : List Char} {count : Nat} (ignore : Bool) (r : ServerResponse) (body : List UInt8)
    (hfuel : headers.length < fuel) (hlinha : linha ≠ crlf)
    (hcount : count + (Head.lines headers).length < Client.maxLenServerResponseHead) :
    let g := readHeadersReading reset fuel linha count ignore r (Head.lines headers ++ 13 :: 10 :: body)
    g.result = .ok { r with id := if ignore then r.id else (Head.id headers).or r.id } ∧ g.unread = body := by
  intro g
  induction headers generalizing fuel linha count ignore r with
  | nil =>
    obtain ⟨fuel, rfl⟩ := Nat.exists_eq_succ_of_ne_zero (Nat.ne_zero_of_lt hfuel)
    have hgo : linha ≠ crlf ∧ count < Client.maxLenServerResponseHead := ⟨hlinha, hcount⟩
    obtain ⟨id, hstep, hid⟩ := readHeadersReading_header hgo
      (lineFits_of_not_mem List.not_mem_nil (by decide) body) (Http.cut_append List.not_mem_nil body) fuel ignore r
    have hnot : (!ignore && Constants.idHeader.isPrefixOf (chars [] ++ crlf)) = false := by
      rw [idHeader_isPrefixOf_crlf]
      exact Bool.and_false _
    rw [hnot, if_neg Bool.false_ne_true] at hid
    rw [readHeadersReading_empty, hid] at hstep
    have hg : g = .before (13 :: 10 :: body) ⟨.ok { r with id := r.id }, [], body⟩ := hstep
    rw [hg]
    cases ignore with
    | true => exact ⟨rfl, rfl⟩
    | false => exact ⟨rfl, rfl⟩
  | cons l headers ih =>
    obtain ⟨fuel, rfl⟩ := Nat.exists_eq_succ_of_ne_zero (Nat.ne_zero_of_lt hfuel)
    obtain ⟨⟨hne, hcr⟩, hok⟩ := List.forall_mem_cons.mp hok
    rw [Head.lines_cons] at hcount
    simp only [List.length_append, List.length_cons] at hcount hfuel
    have hgo : linha ≠ crlf ∧ count < Client.maxLenServerResponseHead := ⟨hlinha, by omega⟩
    have hlen : l.length < Client.maxLenServerResponseHead := by omega
    obtain ⟨id, hstep, hid⟩ := readHeadersReading_header hgo (lineFits_of_not_mem hcr hlen _)
      (Http.cut_append hcr _) fuel ignore r
    have hcount' : count + (l.length + 2) + (Head.lines headers).length < Client.maxLenServerResponseHead := by omega
    obtain ⟨hresult, hunread⟩ := ih hok (ignore || Constants.idHeader.isPrefixOf (chars l ++ crlf)) { r with id }
      (Nat.lt_of_succ_lt_succ hfuel) (chars_append_crlf_ne hne) hcount'
    have hg : g = .before (l ++ 13 :: 10 :: (Head.lines headers ++ 13 :: 10 :: body))
        (readHeadersReading reset fuel (chars l ++ crlf) (count + (l.length + 2))
          (ignore || Constants.idHeader.isPrefixOf (chars l ++ crlf)) { r with id }
          (Head.lines headers ++ 13 :: 10 :: body)) := by
      rw [← hstep, ← List.cons_append, ← List.cons_append, ← List.append_assoc, ← Head.lines_cons]
    rw [hg]
    refine ⟨hresult.trans ?_, hunread⟩
    rw [hid, idHeader_isPrefixOf_crlf]
    cases ignore with
    | true => rfl
    | false =>
      cases hpre : Constants.idHeader.isPrefixOf (chars l) with
      | true => simp [Head.id, Head.idLine, hpre]
      | false => simp [Head.id, Head.idLine, hpre]

/-- A well-formed head is read, with its code, reason and id, and the body is left unread. -/
theorem read_head (h : Head) (hlen : h.bytes.length < Client.maxLenServerResponseHead) (body : List UInt8)
    (p : Peer) (hp : p.sent = h.bytes ++ body) :
    read p = .ok (true,
      { statusCode := h.statusCode, statusMsg := some (chars h.reason), id := Head.id h.headers, isValid := true }) ∧ (reading p).unread = body := by
  have hcr : 13 ∉ h.statusLine := by
    unfold Head.statusLine
    simp [h.version_ok.2, h.code_ok.2, h.reason_ok]
  have hsent : p.sent = h.statusLine ++ 13 :: 10 :: (Head.lines h.headers ++ 13 :: 10 :: body) := by
    rw [hp, Head.bytes]
    simp
  simp only [Head.bytes, List.length_append, List.length_cons] at hlen
  have hline : getLinha p.reset p.sent Client.maxLenServerResponseHead =
      .ok (some (chars h.statusLine ++ crlf), Head.lines h.headers ++ 13 :: 10 :: body) := by
    rw [hsent, (getLinha_eq_cutLine_iff _ _ _).mpr (lineFits_of_not_mem hcr (by omega) _), cutLine,
      Http.cut_append hcr]
    rfl
  have hstatus : setStatusLine { isValid := true } (chars h.statusLine ++ crlf) =
      some { statusCode := h.statusCode, statusMsg := some (chars h.reason), isValid := true } := by
    have hchars : chars h.statusLine ++ crlf =
        chars h.version ++ ' ' :: (chars h.code ++ ' ' :: (chars h.reason ++ '\r' :: ['\n'])) := by
      simp only [Head.statusLine, chars_append, chars_cons, ofByte_space, List.append_assoc, List.cons_append]
      rfl
    have hreason : '\r' ∉ chars h.reason := (by decide : Utf8.ofByte 13 = '\r') ▸ not_mem_chars h.reason_ok
    rw [hchars, setStatusLine_eq (ofByte_space ▸ not_mem_chars h.version_ok.1)
      (ofByte_space ▸ not_mem_chars h.code_ok.1) _ _ _ hreason, h.statusCode_ok]
    rfl
  have hlinha : chars h.statusLine ++ crlf ≠ crlf := chars_append_crlf_ne (by simp [Head.statusLine])
  have hfuel : h.headers.length < (Head.lines h.headers ++ 13 :: 10 :: body).length + 1 := by
    have hlines := Head.length_le_lines h.headers
    simp only [List.length_append]
    omega
  have hcount : 0 + (Head.lines h.headers).length < Client.maxLenServerResponseHead := by omega
  obtain ⟨hresult, hunread⟩ := readHeadersReading_lines h.headers_ok false
    { statusCode := h.statusCode, statusMsg := some (chars h.reason), isValid := true } body hfuel hlinha hcount
  rw [← result_reading]
  unfold reading
  rw [hline]
  simp only [hstatus]
  refine ⟨?_, hunread⟩
  simp only [Reading.before, Reading.map]
  rw [hresult]
  simp [Except.map]

def pingHead : Head where
  version := Utf8.bytes "HTTP/1.1".toList
  code := Utf8.bytes "200".toList
  statusCode := 200
  reason := Utf8.bytes "Created".toList
  headers := [Utf8.bytes "Server: x".toList, Utf8.bytes "X-Id: 17".toList, Utf8.bytes "X-Id: 18".toList]
  version_ok := by decide
  code_ok := by decide
  statusCode_ok := by decide
  reason_ok := by decide
  headers_ok := by decide

theorem read_pingHead :
    let p : Peer := ⟨true, true, pingHead.bytes ++ [13, 10, 7], false⟩
    read p = .ok (true,
      { statusCode := 200, statusMsg := some (chars pingHead.reason), id := Head.id pingHead.headers, isValid := true }) ∧
      (reading p).unread = [13, 10, 7] :=
  read_head pingHead (by decide) [13, 10, 7] _ rfl

/-! ### Malformed heads -/

/-- Nothing but a Boolean or an `IOException` comes out of `read`, true comes out only for a status line and a
    head that an empty line ends, and each line is cut at its CR LF. -/
structure RefusesMalformed (p : Peer) : Prop where
  exception : ∀ e, read p = .error e → e = .io
  head : ∀ r, read p = .ok (true, r) →
    ∃ w n bytes, Http.cut p.sent = some (w, bytes) ∧ StatusLine w n ∧ HeadEnds bytes (reading p).unread
  lines : ∀ l ∈ (reading p).calls, getLinha p.reset l Client.maxLenServerResponseHead = cutLine p.reset [] l

/-- The first line fits and, if it is a status line, the header lines do. -/
structure Fits (p : Peer) : Prop where
  line : LineFits Client.maxLenServerResponseHead 0 p.sent
  head : ∀ w n bytes, Http.cut p.sent = some (w, bytes) → StatusLine w n → HeadFits p.reset 0 bytes

/-- A stream that stops behind the status line. -/
def truncated : Peer := ⟨true, true, Utf8.bytes "HTTP/1.1 200 OK\r\n".toList, false⟩

theorem truncated_accepted : ¬RefusesMalformed truncated := by
  intro h
  have hread : read truncated = .ok (true, { statusCode := 200, statusMsg := some "OK".toList, isValid := true }) := by
    decide +kernel
  obtain ⟨w, n, bytes, hcut, -, hends⟩ := h.head _ hread
  have hbytes : bytes = [] := by
    have hnone : Http.cut truncated.sent = some (Utf8.bytes "HTTP/1.1 200 OK".toList, []) := by decide
    rw [hnone] at hcut
    cases hcut
    rfl
  subst hbytes
  exact absurd hends.length_lt (Nat.not_lt_zero _)

section First
variable {p : Peer} {g : Reading (Bool × ServerResponse)}

/-- Behind a first line that is cut as it should be. -/
theorem refusesMalformed_before
    (hline : getLinha p.reset p.sent Client.maxLenServerResponseHead = cutLine p.reset [] p.sent)
    (hg : reading p = .before p.sent g) :
    RefusesMalformed p ↔ (∀ e, g.result = .error e → e = .io) ∧
      (∀ r, g.result = .ok (true, r) →
        ∃ w n bytes, Http.cut p.sent = some (w, bytes) ∧ StatusLine w n ∧ HeadEnds bytes g.unread) ∧
      ∀ l ∈ g.calls, getLinha p.reset l Client.maxLenServerResponseHead = cutLine p.reset [] l := by
  have hread : read p = g.result := by
    rw [← result_reading, hg]
    rfl
  have hunread : (reading p).unread = g.unread := by
    rw [hg]
    rfl
  have hcalls : (reading p).calls = p.sent :: g.calls := by
    rw [hg]
    rfl
  constructor
  · rintro ⟨hexc, hhead, hlines⟩
    rw [hread] at hexc hhead
    rw [hunread] at hhead
    rw [hcalls] at hlines
    exact ⟨hexc, hhead, (List.forall_mem_cons.mp hlines).2⟩
  · rintro ⟨hexc, hhead, hlines⟩
    rw [← hread] at hexc hhead
    rw [← hunread] at hhead
    refine ⟨hexc, hhead, ?_⟩
    rw [hcalls]
    exact List.forall_mem_cons.mpr ⟨hline, hlines⟩

theorem refusesMalformed_of_refused
    (hline : getLinha p.reset p.sent Client.maxLenServerResponseHead = cutLine p.reset [] p.sent)
    (hg : reading p = .before p.sent g) (hcalls : g.calls = [])
    (h : g.result = .error .io ∨ ∃ r, g.result = .ok (false, r)) : RefusesMalformed p := by
  refine (refusesMalformed_before hline hg).mpr ⟨fun e he => ?_, fun r hr => ?_, fun l hl => ?_⟩
  · rcases h with h | ⟨r, h⟩
    · rw [h] at he
      exact (Except.error.inj he).symm
    · rw [h] at he
      cases he
  · rcases h with h | ⟨r, h⟩
    · rw [h] at hr
      cases hr
    · rw [h] at hr
      cases hr
  · rw [hcalls] at hl
    cases hl

end First

/-- Behind a status line all depends on the headers. -/
theorem refusesMalformed_statusLine {p : Peer} {w bytes : List UInt8} {n : Int} (hcut : Http.cut p.sent = some (w, bytes))
    (hline : getLinha p.reset p.sent Client.maxLenServerResponseHead = cutLine p.reset [] p.sent)
    (hn : StatusLine w n) : RefusesMalformed p ↔ HeadFits p.reset 0 bytes := by
  obtain ⟨msg, hset⟩ := setStatusLine_statusLine hn { isValid := true }
  have hw : w ≠ [] := by
    obtain ⟨version, code, reason, rfl, -⟩ := hn
    simp
  have hfirst : getLinha p.reset p.sent Client.maxLenServerResponseHead = .ok (some (chars w ++ crlf), bytes) := by
    rw [hline, cutLine, hcut]
    rfl
  obtain ⟨h, hh⟩ : ∃ h, h = readHeadersReading p.reset (bytes.length + 1) (chars w ++ crlf) 0 false
    { statusCode := n, statusMsg := some msg, isValid := true } bytes := ⟨_, rfl⟩
  have hheads : HeadRead p.reset bytes h ↔ HeadFits p.reset 0 bytes := by
    rw [hh]
    exact readHeadersReading_iff (Nat.lt_succ_self _) (chars_append_crlf_ne hw) (by decide) rfl
  have hg : reading p = .before p.sent (h.map fun r => (r.isValid, r)) := by
    unfold reading
    rw [hfirst]
    simp only [hset, hh]
  have hok : ∀ r, (h.map fun r => (r.isValid, r)).result = .ok (true, r) ↔ h.result = .ok r ∧ r.isValid = true := by
    intro r
    unfold Reading.map
    rcases h.result with e | r'
    · simp [Except.map]
    · simp only [Except.map, Except.ok.injEq, Prod.mk.injEq]
      constructor
      · rintro ⟨hvalid, rfl⟩
        exact ⟨rfl, hvalid⟩
      · rintro ⟨rfl, hvalid⟩
        exact ⟨hvalid, rfl⟩
  have hbad : ∀ e, (h.map fun r => (r.isValid, r)).result = .error e ↔ h.result = .error e := by
    intro e
    unfold Reading.map
    rcases h.result with e' | r'
    · simp [Except.map]
    · simp [Except.map]
  rw [← hheads, refusesMalformed_before hline hg]
  constructor
  · rintro ⟨hexc, hhead, hlines⟩
    refine ⟨fun e he => hexc e ((hbad e).mpr he), fun r hr hvalid => ?_, hlines⟩
    obtain ⟨w', n', bytes', hcut', -, hends⟩ := hhead r ((hok r).mpr ⟨hr, hvalid⟩)
    rw [hcut] at hcut'
    cases hcut'
    exact hends
  · rintro ⟨hexc, hends, hlines⟩
    refine ⟨fun e he => hexc e ((hbad e).mp he), fun r hr => ?_, hlines⟩
    obtain ⟨hr, hvalid⟩ := (hok r).mp hr
    exact ⟨w, n, bytes, hcut, hn, hends r hr hvalid⟩

/-- Malformed responses are refused just when the lines fit. -/
theorem refusesMalformed_iff (p : Peer) : RefusesMalformed p ↔ Fits p := by
  by_cases hfits : LineFits Client.maxLenServerResponseHead 0 p.sent
  · have hline : getLinha p.reset p.sent Client.maxLenServerResponseHead = cutLine p.reset [] p.sent :=
      (getLinha_eq_cutLine_iff _ _ _).mpr hfits
    rcases hcut : Http.cut p.sent with _ | ⟨w, bytes⟩
    · -- There is no line: the stream ends, or breaks.
      have hend : getLinha p.reset p.sent Client.maxLenServerResponseHead = endOfStream p.reset := by
        rw [hline, cutLine, hcut]
      refine iff_of_true ?_ ⟨hfits, fun w n bytes h => by rw [hcut] at h; cases h⟩
      unfold endOfStream at hend
      cases hreset : p.reset with
      | true =>
        refine refusesMalformed_of_refused (g := ⟨.error .io, [], []⟩) hline ?_ rfl (.inl rfl)
        unfold reading
        rw [hend, hreset]
        rfl
      | false =>
        refine refusesMalformed_of_refused (g := ⟨.ok (false, { isValid := true }), [], []⟩) hline ?_ rfl (.inr ⟨_, rfl⟩)
        unfold reading
        rw [hend, hreset]
        rfl
    · have hfirst : getLinha p.reset p.sent Client.maxLenServerResponseHead = .ok (some (chars w ++ crlf), bytes) := by
        rw [hline, cutLine, hcut]
        rfl
      by_cases hstatus : ∃ n, StatusLine w n
      · obtain ⟨n, hn⟩ := hstatus
        rw [refusesMalformed_statusLine hcut hline hn]
        refine ⟨fun h => ⟨hfits, fun w' n' bytes' hcut' _ => ?_⟩, fun h => h.head w n bytes hcut hn⟩
        rw [hcut] at hcut'
        cases hcut'
        exact h
      · have hnone := setStatusLine_eq_none (fun n hn => hstatus ⟨n, hn⟩) { isValid := true }
        refine iff_of_true ?_ ⟨hfits, fun w' n bytes' hcut' hn => ?_⟩
        · refine refusesMalformed_of_refused (g := ⟨.ok (false, { isValid := true }), [], bytes⟩) hline ?_ rfl
            (.inr ⟨_, rfl⟩)
          unfold reading
          rw [hfirst]
          simp only [hnone]
        · rw [hcut] at hcut'
          cases hcut'
          exact absurd ⟨n, hn⟩ hstatus
  · refine iff_of_false (fun h => hfits ?_) fun h => hfits h.line
    exact (getLinha_eq_cutLine_iff _ _ _).mp (h.lines p.sent List.mem_cons_self)

end ServerResponse
end NicVpn
