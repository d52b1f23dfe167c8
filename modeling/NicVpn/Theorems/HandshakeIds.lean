import NicVpn.Theorems.ServerResponse
import Mathlib.Data.List.TakeWhile

/-! Whether the handshake is sound, judged by the bytes of the two responses. `establishConnection` does not
    see whether there was an id: a null id is sent as the word `null`, and an id is read byte by byte but
    written as UTF-8. What it takes for the status message and the id is what `ServerResponse` cuts out of the
    stream, which is not always what stands on the lines of the response. -/

namespace NicVpn

/-! ### What a response says -/

namespace ServerResponse

/-- The first line of a response is a status line with this message. -/
def HasStatus (sent : List UInt8) (msg : List Char) : Prop :=
  ∃ version code, (Http.lines sent).head? = some (version ++ 32 :: (code ++ 32 :: Utf8.encode msg)) ∧
    32 ∉ version ∧ 32 ∉ code

/-- The value of the first `X-Id` header of a response. -/
def headerId (sent : List UInt8) : Option (List UInt8) :=
  (Head.idLine (Http.headers sent)).map (·.drop Constants.idHeader.length)

/-- The first line is not too long and has no CR behind its code. -/
def StatusFits (sent : List UInt8) : Prop :=
  ∃ version code reason, (Http.lines sent).head? = some (version ++ 32 :: (code ++ 32 :: reason)) ∧
    32 ∉ version ∧ 32 ∉ code ∧ 13 ∉ reason ∧
    (version ++ 32 :: (code ++ 32 :: reason)).length ≤ Client.maxLenServerResponseHead

/-! ### The first line -/

/-- What a line takes from the stream: up to the limit, or one byte more behind a CR. -/
theorem getLinhaFrom_taken {reset : Bool} {maxQtdBytes count : Nat} {builder linha : List Char}
    {bytes rest : List UInt8} (h : getLinhaFrom reset maxQtdBytes count builder bytes = .ok (some linha, rest)) :
    ∃ t, linha = builder ++ chars t ∧ t <+: bytes ∧
      (t = [] ∨ count + t.length ≤ maxQtdBytes ∨ count + t.length = maxQtdBytes + 1 ∧ ∃ u c, t = u ++ [13, c]) := by
  fun_induction getLinhaFrom reset maxQtdBytes count builder bytes with
  | case1 =>
    simp only [endOfStream] at h
    split at h <;> cases h
  | case2 =>
    simp only [endOfStream] at h
    split at h <;> cases h
  | case3 count builder hcount rest' =>
    cases h
    refine ⟨[13, 10], rfl, ⟨rest, rfl⟩, .inr ?_⟩
    by_cases hlast : count + 2 ≤ maxQtdBytes
    · exact .inl hlast
    · exact .inr ⟨by simp only [List.length_cons, List.length_nil]; omega, [], 10, rfl⟩
  | case4 count builder hcount c rest' hc ih =>
    obtain ⟨t, rfl, hpre, ht⟩ := ih h
    refine ⟨13 :: c :: t, by simp [chars], List.cons_prefix_cons.mpr ⟨rfl, List.cons_prefix_cons.mpr ⟨rfl, hpre⟩⟩, ?_⟩
    simp only [List.length_cons]
    rcases ht with rfl | ht | ⟨hlen, u, d, rfl⟩
    · by_cases hlast : count + 2 ≤ maxQtdBytes
      · exact .inr (.inl hlast)
      · exact .inr (.inr ⟨by simp only [List.length_nil]; omega, [], c, rfl⟩)
    · exact .inr (.inl (by omega))
    · exact .inr (.inr ⟨by omega, 13 :: c :: u, d, rfl⟩)
  | case5 count builder b rest' hcount hb ih =>
    obtain ⟨t, rfl, hpre, ht⟩ := ih h
    refine ⟨b :: t, by simp [chars], List.cons_prefix_cons.mpr ⟨rfl, hpre⟩, ?_⟩
    simp only [List.length_cons]
    rcases ht with rfl | ht | ⟨hlen, u, d, rfl⟩
    · exact .inr (.inl (by simp only [List.length_nil]; omega))
    · exact .inr (.inl (by omega))
    · exact .inr (.inr ⟨by omega, b :: u, d, rfl⟩)
  | case6 =>
    cases h
    exact ⟨[], (List.append_nil _).symm, List.nil_prefix, .inl rfl⟩

/-- A line of just the longest length is read without its line end. -/
theorem getLinhaFrom_longest {reset : Bool} {maxQtdBytes count : Nat} {builder : List Char}
    {bytes w rest : List UInt8} (hcut : Http.cut bytes = some (w, rest)) (hcrs : Http.crsAtEnd w % 2 = 0)
    (hlen : count + w.length = maxQtdBytes) :
    getLinhaFrom reset maxQtdBytes count builder bytes = .ok (some (builder ++ chars w), 10 :: rest) := by
  fun_induction getLinhaFrom reset maxQtdBytes count builder bytes generalizing w with
  | case1 => cases hcut
  | case2 => cases hcut
  | case3 count builder hcount rest' =>
    cases hcut
    exact absurd hlen (Nat.ne_of_lt hcount)
  | case4 count builder hcount c rest' hc ih =>
    by_cases hrest : c = 13 ∧ rest'.head? = some 10
    · obtain ⟨rfl, hhead⟩ := hrest
      obtain ⟨d, rest', rfl⟩ := List.exists_cons_of_ne_nil (l := rest') (by rintro rfl; cases hhead)
      cases hhead
      cases hcut
      exact absurd (show Http.crsAtEnd [13] % 2 = 0 from hcrs) (by decide)
    · rw [Http.cut_pair hc hrest] at hcut
      obtain ⟨⟨w', _⟩, hcut', heq⟩ := Option.map_eq_some_iff.mp hcut
      cases heq
      simp only [Http.crsAtEnd_pair, List.length_cons] at hcrs hlen
      rw [ih hcut' hcrs (by omega)]
      simp [chars]
  | case5 count builder b rest' hcount hb ih =>
    rw [Http.cut_cons hb] at hcut
    obtain ⟨⟨w', _⟩, hcut', heq⟩ := Option.map_eq_some_iff.mp hcut
    cases heq
    simp only [Http.crsAtEnd_cons hb, List.length_cons] at hcrs hlen
    rw [ih hcut' hcrs (by omega)]
    simp [chars]
  | case6 count builder b rest' hcount =>
    obtain rfl : w = [] := List.length_eq_zero_iff.mp (by omega)
    have hbytes := Http.cut_eq_some hcut
    cases hbytes
    rw [chars, List.map_nil, List.append_nil]

/-- What the parser of status lines asks of one, and the message it takes. -/
theorem setStatusLine_some {r r' : ServerResponse} {linha : List Char} (h : setStatusLine r linha = some r') :
    ∃ version code reason, linha = version ++ ' ' :: (code ++ ' ' :: reason) ∧ ' ' ∉ version ∧ ' ' ∉ code ∧
      r'.statusMsg = some (reason.takeWhile (· ≠ '\r')) := by
  by_cases hmem : ' ' ∈ linha
  swap
  · rw [setStatusLine, Text.indexOf_of_not_mem hmem] at h
    cases h
  obtain ⟨version, rest, rfl, hversion⟩ := List.eq_append_cons_of_mem hmem
  by_cases hmem' : ' ' ∈ rest
  swap
  · rw [setStatusLine, Text.indexOf_append_cons hversion] at h
    simp only [Option.bind_eq_bind, Option.bind_some, drop_past] at h
    rw [Text.indexOf_of_not_mem hmem'] at h
    cases h
  obtain ⟨code, reason, rfl, hcode⟩ := List.eq_append_cons_of_mem hmem'
  refine ⟨version, code, reason, rfl, hversion, hcode, ?_⟩
  rw [setStatusLine, Text.indexOf_append_cons hversion] at h
  simp only [Option.bind_eq_bind, Option.bind_some, drop_past] at h
  rw [Text.indexOf_append_cons hcode] at h
  simp only [Option.bind_some, drop_past, List.take_left] at h
  obtain ⟨n, -, h⟩ := Option.bind_eq_some_iff.mp h
  by_cases hcr : '\r' ∈ reason
  · obtain ⟨msg, tail, rfl, hmsg⟩ := List.eq_append_cons_of_mem hcr
    rw [Text.indexOf_append_cons hmsg] at h
    simp only [List.take_left, Option.some.injEq] at h
    have htake : (msg ++ '\r' :: tail).takeWhile (· ≠ '\r') = msg := by
      rw [List.takeWhile_append_of_pos, List.takeWhile_cons_of_neg (by decide), List.append_nil]
      exact fun c hc => decide_eq_true fun heq => hmsg (heq ▸ hc)
    rw [← h, htake]
  · rw [Text.indexOf_of_not_mem hcr] at h
    simp only [Option.some.injEq] at h
    have htake : reason.takeWhile (· ≠ '\r') = reason :=
      List.takeWhile_eq_self_iff.mpr fun c hc => decide_eq_true fun heq => hcr (heq ▸ hc)
    rw [← h, htake]

/-- The loop of `read` leaves the status message. -/
theorem readHeaders_statusMsg {reset : Bool} {fuel : Nat} {linha : List Char} {count : Nat} {ignore : Bool}
    {r r' : ServerResponse} {bytes : List UInt8} (h : readHeaders reset fuel linha count ignore r bytes = .ok r') :
    r'.statusMsg = r.statusMsg := by
  induction fuel generalizing linha count ignore r bytes with
  | zero =>
    cases h
    rfl
  | succ fuel ih =>
    simp only [readHeaders] at h
    split at h
    · rcases hl : getLinha reset bytes Client.maxLenServerResponseHead with e | ⟨_ | linha, rest⟩ <;>
        simp only [hl, bind, Except.bind] at h
      · cases h
      · cases h
        rfl
      · split at h
        · rcases hv : getHeaderVal linha with e | id <;> simp only [hv] at h
          · cases h
          · exact ih (r := { r with id, isValid := r.isValid && id.isSome }) h
        · exact ih h
    · cases h
      rfl

/-- A valid response has a first line with a status. -/
theorem statusLine_of_read {p : Peer} {r : ServerResponse} (h : read p = .ok (true, r)) :
    ∃ linha rest r₀, getLinha p.reset p.sent Client.maxLenServerResponseHead = .ok (some linha, rest) ∧
      setStatusLine { isValid := true } linha = some r₀ ∧ r.statusMsg = r₀.statusMsg ∧
      readHeaders p.reset (rest.length + 1) linha 0 false r₀ rest = .ok r := by
  unfold read at h
  rcases hl : getLinha p.reset p.sent Client.maxLenServerResponseHead with e | ⟨_ | linha, rest⟩ <;>
    simp only [hl, bind, Except.bind] at h
  · cases h
  · cases h
  · rcases hs : setStatusLine { isValid := true } linha with _ | r₀ <;> simp only [hs] at h
    · cases h
    · rcases hr : readHeaders p.reset (rest.length + 1) linha 0 false r₀ rest with e | r' <;> simp only [hr] at h
      · cases h
      · simp only [Except.ok.injEq, Prod.mk.injEq] at h
        obtain ⟨-, rfl⟩ := h
        exact ⟨linha, rest, r₀, rfl, hs, readHeaders_statusMsg hr, hr⟩

/-- A message that is written as it is read: ASCII, without a CR. -/
structure Plain (msg : List Char) : Prop where
  ascii : ∀ c ∈ msg, c.toNat < 0x80
  noCr : '\r' ∉ msg
  long : 2 ≤ msg.length

theorem chars_encode {msg : List Char} (h : ∀ c ∈ msg, c.toNat < 0x80) : chars (Utf8.encode msg) = msg := by
  rw [(Utf8.encode_eq_bytes_iff msg).mpr h]
  unfold chars Utf8.bytes
  rw [List.map_map]
  refine (List.map_congr_left fun c hc => ?_).trans (List.map_id msg)
  have hlt : c.toNat < 256 := Nat.lt_trans (h c hc) (by decide)
  have hbyte : (UInt8.ofNat c.toNat).toNat = c.toNat := UInt8.toNat_ofNat_of_lt' hlt
  simp [Utf8.ofByte, hbyte]

theorem chars_injective : Function.Injective chars := List.map_injective_iff.mpr ofByte_injective

theorem space_not_mem_chars {w : List UInt8} (h : 32 ∉ w) : ' ' ∉ chars w := ofByte_space ▸ not_mem_chars h

/-- The characters of a line of three parts. -/
theorem chars_parts (version code reason : List UInt8) : chars (version ++ 32 :: (code ++ 32 :: reason)) =
    chars version ++ ' ' :: (chars code ++ ' ' :: chars reason) := by
  simp only [chars_append, chars_cons, ofByte_space]

/-- What follows the first of a character. -/
theorem after_inj {c : Char} {x x' y y' : List Char} (hx : c ∉ x) (hx' : c ∉ x') (h : x ++ c :: y = x' ++ c :: y') :
    y = y' := by
  have hdrop : ∀ {x y : List Char}, c ∉ x → (x ++ c :: y).dropWhile (· ≠ c) = c :: y := by
    intro x y hx
    rw [List.dropWhile_append_of_pos, List.dropWhile_cons_of_neg (by simp)]
    exact fun d hd => decide_eq_true fun heq => hx (heq ▸ hd)
  have hrest := congrArg (List.dropWhile (· ≠ c)) h
  rw [hdrop hx, hdrop hx'] at hrest
  exact (List.cons.inj hrest).2

theorem prefix_of_head_lines {sent w : List UInt8} (h : (Http.lines sent).head? = some w) : w <+: sent := by
  rcases hcut : Http.cut sent with _ | ⟨w', rest⟩
  · rw [Http.lines_of_cut_eq_none hcut] at h
    cases h
    exact List.prefix_refl _
  · rw [Http.lines_of_cut hcut] at h
    cases h
    exact ⟨_, (Http.cut_eq_some hcut).symm⟩

section Status
variable {p : Peer} {r : ServerResponse} {msg : List Char}

/-- With the status on its first line, a response that was read has not too long a line. -/
theorem statusFits_of_hasStatus (hmsg : Plain msg) (h : read p = .ok (true, r)) (hr : r.statusMsg = some msg)
    (hs : HasStatus p.sent msg) : StatusFits p.sent := by
  obtain ⟨version, code, hhead, hversion, hcode⟩ := hs
  have hcr : 13 ∉ Utf8.encode msg := fun hmem => hmsg.noCr ((Utf8.mem_encode_iff (c := '\r') (by decide)).mp hmem)
  refine ⟨version, code, Utf8.encode msg, hhead, hversion, hcode, hcr, ?_⟩
  obtain ⟨linha, rest, r₀, hline, hset, hr₀, -⟩ := statusLine_of_read h
  obtain ⟨t, hlinha, hpre, ht⟩ := getLinhaFrom_taken hline
  rw [List.nil_append] at hlinha
  rw [Nat.zero_add] at ht
  obtain ⟨version', code', reason', hparts, hversion', hcode', hmsg'⟩ := setStatusLine_some hset
  rw [hr₀, hmsg', Option.some.injEq] at hr
  by_contra hlong
  -- what was read is no longer than the line, and has the whole message, so it is the line
  have hle : t.length ≤ (version ++ 32 :: (code ++ 32 :: Utf8.encode msg)).length := by
    rcases ht with rfl | ht | ⟨ht, -⟩
    · exact Nat.zero_le _
    · omega
    · omega
  obtain ⟨x, hx⟩ := List.prefix_of_prefix_length_le hpre (prefix_of_head_lines hhead) hle
  have hall : reason' ++ chars x = msg := by
    have hline' : version' ++ ' ' :: (code' ++ ' ' :: (reason' ++ chars x)) =
        chars version ++ ' ' :: (chars code ++ ' ' :: chars (Utf8.encode msg)) := by
      rw [← chars_parts, ← hx, chars_append, ← hlinha, hparts]
      simp only [List.append_assoc, List.cons_append]
    rw [chars_encode hmsg.ascii] at hline'
    exact after_inj hcode' (space_not_mem_chars hcode) (after_inj hversion' (space_not_mem_chars hversion) hline')
  have hnil : x = [] := by
    have hlen := congrArg List.length (hall.trans hr.symm)
    have htake := (List.takeWhile_prefix (l := reason') (fun c => decide (c ≠ '\r'))).length_le
    rw [List.length_append, length_chars] at hlen
    exact List.length_eq_zero_iff.mp (by omega)
  rw [hnil, List.append_nil] at hx
  rcases ht with rfl | ht | ⟨-, u, c, rfl⟩
  · exact absurd hx (by simp)
  · exact hlong (hx ▸ ht)
  · -- the byte before the last is no CR
    have hsuffix : Utf8.encode msg <:+ u ++ [13, c] :=
      ⟨version ++ 32 :: (code ++ [32]), by rw [hx]; simp⟩
    have hlen : 2 ≤ (Utf8.encode msg).length := Nat.le_trans hmsg.long (Utf8.length_le_length_encode msg)
    have hend := List.suffix_of_suffix_length_le (List.suffix_append u [13, c]) hsuffix hlen
    exact hcr (hend.mem List.mem_cons_self)

/-- A first line that fits has the status that was read. -/
theorem hasStatus_of_statusFits (h : read p = .ok (true, r)) (hr : r.statusMsg = some msg)
    (hmsg : ∀ c ∈ msg, c.toNat < 0x80) (hs : StatusFits p.sent) : HasStatus p.sent msg := by
  obtain ⟨version, code, reason, hhead, hversion, hcode, hcr, hlen⟩ := hs
  obtain ⟨w, hw⟩ : ∃ w, w = version ++ 32 :: (code ++ 32 :: reason) := ⟨_, rfl⟩
  rw [← hw] at hhead hlen
  obtain ⟨linha, rest, r₀, hline, hset, hr₀, -⟩ := statusLine_of_read h
  -- the line that was read, with its line end or without
  have hlinha : ∃ tail, linha = chars w ++ tail ∧ (tail = [] ∨ tail = crlf) := by
    rcases hcut : Http.cut p.sent with _ | ⟨w', rest'⟩
    · rw [Http.lines_of_cut_eq_none hcut, List.head?_cons, Option.some.injEq] at hhead
      have hfits : LineFits Client.maxLenServerResponseHead 0 p.sent := by
        rw [LineFits, hcut]
        exact .inr (.inl (by rw [hhead, Nat.zero_add]; exact hlen))
      rw [(getLinha_eq_cutLine_iff _ _ _).mpr hfits, cutLine, hcut] at hline
      dsimp only [endOfStream] at hline
      split at hline <;> cases hline
    · rw [Http.lines_of_cut hcut, List.head?_cons, Option.some.injEq] at hhead
      subst hhead
      have hcrs : Http.crsAtEnd w' = 0 := by
        rw [hw, List.append_cons, ← List.append_assoc]
        exact Http.crsAtEnd_append_cons (by decide) hcr _
      rcases Nat.lt_or_eq_of_le hlen with hlt | heq
      · have hfits : LineFits Client.maxLenServerResponseHead 0 p.sent := by
          rw [LineFits, hcut]
          exact ⟨by rw [hcrs], by rw [Nat.zero_add]; exact hlt⟩
        rw [(getLinha_eq_cutLine_iff _ _ _).mpr hfits, cutLine, hcut] at hline
        cases hline
        exact ⟨crlf, rfl, .inr rfl⟩
      · have hlong : getLinha p.reset p.sent Client.maxLenServerResponseHead = .ok (some (chars w'), 10 :: rest') :=
          getLinhaFrom_longest hcut (by rw [hcrs]) ((Nat.zero_add _).trans heq)
        rw [hlong] at hline
        cases hline
        exact ⟨[], (List.append_nil _).symm, .inl rfl⟩
  obtain ⟨tail, rfl, htail⟩ := hlinha
  obtain ⟨version', code', reason', hparts, hversion', hcode', hmsg'⟩ := setStatusLine_some hset
  rw [hr₀, hmsg', Option.some.injEq] at hr
  have hall : chars reason ++ tail = reason' := by
    rw [hw, chars_parts] at hparts
    simp only [List.append_assoc, List.cons_append] at hparts
    exact after_inj (space_not_mem_chars hcode) hcode' (after_inj (space_not_mem_chars hversion) hversion' hparts)
  have htake : (chars reason ++ tail).takeWhile (· ≠ '\r') = chars reason := by
    rw [List.takeWhile_append_of_pos]
    · rcases htail with rfl | rfl
      · exact List.append_nil _
      · exact List.append_nil _
    · intro c hc
      refine decide_eq_true fun heq => not_mem_chars hcr ?_
      rw [heq] at hc
      exact (by decide : Utf8.ofByte 13 = '\r') ▸ hc
  have hreason : reason = Utf8.encode msg := by
    rw [← hall, htake] at hr
    exact chars_injective (hr.trans (chars_encode hmsg).symm)
  exact ⟨version, code, by rw [hhead, hw, hreason], hversion, hcode⟩

end Status

/-! ### The id -/

/-- The loop keeps the first id of the header lines, when they fit. -/
theorem id_readHeadersReading {reset : Bool} {count : Nat} {bytes : List UInt8} (hfits : HeadFits reset count bytes)
    {fuel : Nat} {linha : List Char} {ignore : Bool} {r r' : ServerResponse} (hfuel : bytes.length < fuel)
    (hgo : linha ≠ crlf ∧ count < Client.maxLenServerResponseHead)
    (h : (readHeadersReading reset fuel linha count ignore r bytes).result = .ok r') :
    r'.id = if ignore then r.id else (Head.id ((Http.lines bytes).takeWhile (· ≠ []))).or r.id := by
  induction hfits generalizing fuel linha ignore r with
  | broken hfits hcut hreset =>
    obtain ⟨fuel, rfl⟩ := Nat.exists_eq_succ_of_ne_zero (Nat.ne_zero_of_lt hfuel)
    rename_i bytes
    have hline : getLinha reset bytes Client.maxLenServerResponseHead = .error .io := by
      rw [(getLinha_eq_cutLine_iff reset bytes _).mpr hfits, cutLine, hcut, hreset]
      rfl
    rw [readHeadersReading, if_pos hgo, hline] at h
    cases h
  | empty hfits hcut =>
    obtain ⟨fuel, rfl⟩ := Nat.exists_eq_succ_of_ne_zero (Nat.ne_zero_of_lt hfuel)
    obtain ⟨id, hstep, hid⟩ := readHeadersReading_header hgo hfits hcut fuel ignore r
    rw [hstep, Reading.before, readHeadersReading_empty] at h
    cases h
    rw [Http.lines_of_cut hcut, List.takeWhile_cons_of_neg (by simp)]
    have hnot : Constants.idHeader.isPrefixOf (chars [] ++ crlf) = false := by decide
    rw [hnot, Bool.and_false, if_neg Bool.false_ne_true] at hid
    rw [hid]
    cases ignore <;> rfl
  | header hfits hcut hw hcount hrest ih =>
    obtain ⟨fuel, rfl⟩ := Nat.exists_eq_succ_of_ne_zero (Nat.ne_zero_of_lt hfuel)
    rename_i w rest
    obtain ⟨id, hstep, hid⟩ := readHeadersReading_header hgo hfits hcut fuel ignore r
    rw [hstep] at h
    have hlt : rest.length < fuel := by
      have hlength := congrArg List.length (Http.cut_eq_some hcut)
      simp only [List.length_append, List.length_cons] at hlength
      omega
    have hnext := ih hlt ⟨chars_append_crlf_ne hw, hcount⟩ h
    rw [hnext, hid, idHeader_isPrefixOf_crlf, Http.lines_of_cut hcut, List.takeWhile_cons_of_pos (by simpa using hw)]
    cases ignore with
    | true => rfl
    | false => cases hpre : Constants.idHeader.isPrefixOf (chars w) <;> simp [Head.id, Head.idLine, hpre]

/-- Where the lines fit, the id of a response is the value of its first `X-Id` header. -/
theorem id_of_fits {p : Peer} {r : ServerResponse} (hfits : Fits p) (h : read p = .ok (true, r)) :
    r.id = (headerId p.sent).map chars := by
  obtain ⟨linha, rest, r₀, hline, hset, -, hheaders⟩ := statusLine_of_read h
  rw [(getLinha_eq_cutLine_iff _ _ _).mpr hfits.line] at hline
  unfold cutLine at hline
  rcases hcut : Http.cut p.sent with _ | ⟨w, bytes⟩
  · rw [hcut] at hline
    dsimp only [endOfStream] at hline
    split at hline <;> cases hline
  simp only [hcut, List.nil_append] at hline
  cases hline
  by_cases hstatus : ∃ n, StatusLine w n
  swap
  · rw [setStatusLine_eq_none fun n hn => hstatus ⟨n, hn⟩] at hset
    cases hset
  obtain ⟨n, hn⟩ := hstatus
  obtain ⟨msg, hmsg⟩ := setStatusLine_statusLine hn { isValid := true }
  rw [hmsg] at hset
  cases hset
  have hw : w ≠ [] := by
    obtain ⟨version, code, reason, rfl, -⟩ := hn
    simp
  rw [← result_readHeadersReading] at hheaders
  have hid := id_readHeadersReading (hfits.head w n rest hcut hn) (Nat.lt_succ_self _)
    ⟨chars_append_crlf_ne hw, by decide⟩ hheaders
  rw [hid, headerId, Http.headers, Http.lines_of_cut hcut]
  simp only [Bool.false_eq_true, ↓reduceIte, Head.id, Option.or_none, Option.map_map]
  exact Option.map_congr fun l _ => (List.map_drop ..).symm

end ServerResponse

namespace Connection
open ServerResponse

/-! ### Soundness -/

/-- `establishConnection` returns true only for a created connection with an id, which it has sent on the
    read socket, and a completed one; when the first response has no id it fails with an `IOException`. -/
def Sound (f : Fields) (connConfig : List Char) (write read : Peer) : Prop :=
  ((handshake f connConfig write read).1 = .ok true →
    HasStatus write.sent Constants.msgConnectionCreated ∧
    (∃ value, headerId write.sent = some value ∧
      idLine value ∈ Http.headers (handshake f connConfig write read).2.readOut) ∧
    HasStatus read.sent Constants.msgConnectionCompleted) ∧
  (headerId write.sent = none → (handshake f connConfig write read).1 = .error .io)

/-- What must hold of the two responses and of the payload piece. -/
structure IdChecked (connConfig : List Char) (write read : Peer) : Prop where
  /-- Without an `X-Id` header nothing in the first response is an over-long line with an id. -/
  thrown : headerId write.sent = none → ∀ e, exchange write Constants.msgConnectionCreated = .error e → e = .io
  /-- Without an `X-Id` header an accepted first response is followed by a refused second one. -/
  absent : headerId write.sent = none →
    ∀ first, Answers write Constants.msgConnectionCreated first → Refuses read Constants.msgConnectionCompleted
  /-- When both responses are accepted, their first lines are read as they stand and the id arrives. -/
  present : ∀ value, headerId write.sent = some value →
    ∀ first second, Answers write Constants.msgConnectionCreated first →
      Answers read Constants.msgConnectionCompleted second →
      StatusFits write.sent ∧ StatusFits read.sent ∧ IdSent connConfig (nullableToString first.id) value

/-- The id arrives, seen from the bytes of its header. -/
def ValueSent (connConfig : List Char) (value : List UInt8) : Prop :=
  ([] ∉ (Http.lines (opening connConfig)).tail ∧ ∀ b ∈ value, b.toNat < 0x80) ∨
    idLine value ∈ Http.headers (opening connConfig)

section Sound
variable {f : Fields} {connConfig : List Char} {write read : Peer}

theorem plain_created : ServerResponse.Plain Constants.msgConnectionCreated :=
  ⟨Text.forall_of_all (by decide), by decide, by decide⟩

theorem plain_completed : ServerResponse.Plain Constants.msgConnectionCompleted :=
  ⟨Text.forall_of_all (by decide), by decide, by decide⟩

/-- The status message that was read stands on the first line just when the line fits. -/
theorem Answers.hasStatus_iff {p : Peer} {msg : List Char} {r : ServerResponse} (h : Answers p msg r)
    (hmsg : ServerResponse.Plain msg) : HasStatus p.sent msg ↔ StatusFits p.sent :=
  ⟨statusFits_of_hasStatus hmsg h.read h.statusMsg, hasStatus_of_statusFits h.read h.statusMsg hmsg.ascii⟩

theorem nullableToString_one_line {id : Option (List Char)} (h : ∀ v, id = some v → ¬crlf <:+: v) :
    ¬crlf <:+: nullableToString id := by
  cases id with
  | none => decide
  | some v => exact h v rfl

/-- The request on the read socket has the header just when the id arrives. -/
theorem mem_headers_readOut {first second : ServerResponse} (hfirst : Answers write Constants.msgConnectionCreated first)
    (hsecond : Answers read Constants.msgConnectionCompleted second) (value : List UInt8) :
    idLine value ∈ Http.headers (handshake f connConfig write read).2.readOut ↔
      IdSent connConfig (nullableToString first.id) value := by
  rw [handshake_readOut (exchange_eq_ok.mpr hfirst) (exchange_eq_ok.mpr hsecond)]
  exact mem_headers_request f connConfig (nullableToString_one_line (read_one_line hfirst.read)) value

/-- A handshake fails with an `IOException` when its first exchange throws nothing else and its second one
    is refused behind an accepted first one. -/
theorem handshake_eq_io_iff : (handshake f connConfig write read).1 = .error .io ↔
    (∀ e, exchange write Constants.msgConnectionCreated = .error e → e = .io) ∧
      ∀ first, Answers write Constants.msgConnectionCreated first → Refuses read Constants.msgConnectionCompleted := by
  cases hw : exchange write Constants.msgConnectionCreated with
  | error e =>
    rw [handshake_of_error hw]
    refine ⟨fun h => ⟨fun e' he => ?_, fun first hfirst => ?_⟩, fun h => congrArg _ (h.1 e rfl)⟩
    · exact (Except.error.inj he).symm.trans (Except.error.inj h)
    · rw [exchange_eq_ok.mpr hfirst] at hw
      cases hw
  | ok first =>
    rw [handshake_of_ok hw]
    constructor
    · intro h
      refine ⟨nofun, fun _ _ => exchange_eq_io.mp ?_⟩
      cases hr : exchange read Constants.msgConnectionCompleted with
      | error e =>
        rw [hr] at h
        cases h
        rfl
      | ok second =>
        rw [hr] at h
        cases h
    · rintro ⟨-, h⟩
      rw [exchange_eq_io.mpr (h first (exchange_eq_ok.mp hw))]
      rfl

theorem idChecked_of_sound (h : Sound f connConfig write read) : IdChecked connConfig write read where
  thrown hnone := (handshake_eq_io_iff.mp (h.2 hnone)).1
  absent hnone := (handshake_eq_io_iff.mp (h.2 hnone)).2
  present value hvalue first second hfirst hsecond := by
    obtain ⟨hcreated, ⟨value', hvalue', hsent⟩, hcompleted⟩ := h.1 (handshake_eq_true.mpr ⟨first, second, hfirst, hsecond⟩)
    rw [hvalue] at hvalue'
    cases hvalue'
    exact ⟨(hfirst.hasStatus_iff plain_created).mp hcreated, (hsecond.hasStatus_iff plain_completed).mp hcompleted,
      (mem_headers_readOut hfirst hsecond value).mp hsent⟩

theorem sound_of_idChecked (h : IdChecked connConfig write read) : Sound f connConfig write read := by
  refine ⟨fun htrue => ?_, fun hnone => handshake_eq_io_iff.mpr ⟨h.thrown hnone, h.absent hnone⟩⟩
  obtain ⟨first, second, hfirst, hsecond⟩ := handshake_eq_true.mp htrue
  cases hvalue : headerId write.sent with
  | none =>
    -- a refused second exchange is no completed one
    have hrefused := exchange_eq_io.mpr (h.absent hvalue first hfirst)
    rw [exchange_eq_ok.mpr hsecond] at hrefused
    cases hrefused
  | some value =>
    obtain ⟨hcreated, hcompleted, hsent⟩ := h.present value hvalue first second hfirst hsecond
    exact ⟨(hfirst.hasStatus_iff plain_created).mpr hcreated,
      ⟨value, rfl, (mem_headers_readOut hfirst hsecond value).mpr hsent⟩,
      (hsecond.hasStatus_iff plain_completed).mpr hcompleted⟩

/-- Bytes read one by one are written as they were just when they are ASCII. -/
theorem encode_chars_iff (value : List UInt8) : Utf8.encode (chars value) = value ↔ ∀ b ∈ value, b.toNat < 0x80 := by
  have hbyte : ∀ b : UInt8, (Utf8.ofByte b).toNat = b.toNat := fun b =>
    Utf8.toNat_ofNat_of_valid (.inl (Nat.lt_trans b.toNat_lt (by decide)))
  have hbytes : Utf8.bytes (chars value) = value := by
    unfold Utf8.bytes chars
    rw [List.map_map]
    refine (List.map_congr_left fun b _ => ?_).trans (List.map_id value)
    simp [hbyte]
  conv_lhs => rhs; rw [← hbytes]
  rw [Utf8.encode_eq_bytes_iff]
  simp only [chars, List.mem_map, forall_exists_index, and_imp, forall_apply_eq_imp_iff₂, hbyte]

/-- Where the lines of the first response fit, what arrives is told by the bytes of the header. -/
theorem idSent_iff_of_fits {first : ServerResponse} (hfits : Fits write)
    (hfirst : Answers write Constants.msgConnectionCreated first) {value : List UInt8}
    (hvalue : headerId write.sent = some value) :
    IdSent connConfig (nullableToString first.id) value ↔ ValueSent connConfig value := by
  rw [id_of_fits hfits hfirst.read, hvalue]
  simp only [IdSent, ValueSent, Option.map_some, nullableToString, encode_chars_iff]

/-- A server that answers with a status and these header lines. -/
def plainServer (statusMsg headers : String) : Peer where
  connects := true
  accepts := true
  sent := Utf8.encode ("HTTP/1.1 200 " ++ statusMsg ++ "\r\n" ++ headers ++ "\r\n").toList
  reset := false

theorem statusFits_plainServer : StatusFits (plainServer "Created" "X-Id: 17\r\n").sent ∧
    StatusFits (plainServer "Completed" "").sent :=
  ⟨⟨Utf8.bytes "HTTP/1.1".toList, Utf8.bytes "200".toList, Utf8.bytes "Created".toList, by decide⟩,
    ⟨Utf8.bytes "HTTP/1.1".toList, Utf8.bytes "200".toList, Utf8.bytes "Completed".toList, by decide⟩⟩

end Sound

end Connection
end NicVpn
