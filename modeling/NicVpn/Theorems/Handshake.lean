import NicVpn.Handshake
import NicVpn.Lib.Http
import Mathlib.Tactic.ByContra

/-! What the handshake does: its two exchanges, each with its request and its response, and the headers of
    the second request. The id is written as UTF-8, behind whatever the payload piece says. -/

namespace NicVpn

/-! ### Reading a response -/

namespace ServerResponse

theorem getLinhaFrom_shorter {reset : Bool} {maxQtdBytes count : Nat} {builder linha : List Char}
    {bytes rest : List UInt8} (h : getLinhaFrom reset maxQtdBytes count builder bytes = .ok (some linha, rest)) :
    rest.length < bytes.length := by
  fun_induction getLinhaFrom reset maxQtdBytes count builder bytes with
  | case1 =>
    simp only [endOfStream] at h
    split at h <;> cases h
  | case2 =>
    simp only [endOfStream] at h
    split at h <;> cases h
  | case3 =>
    cases h
    simp only [List.length_cons]
    omega
  | case4 count builder hc c rest' hne ih =>
    have := ih h
    simp only [List.length_cons]
    omega
  | case5 count builder b rest' hc hb ih =>
    have := ih h
    simp only [List.length_cons]
    omega
  | case6 =>
    cases h
    simp

/-- With more fuel than bytes the loop of `read` ends by itself. -/
theorem readHeaders_fuel {reset : Bool} {fuel fuel' : Nat} {linha : List Char} {count : Nat} {ignore : Bool}
    {r : ServerResponse} {bytes : List UInt8} (h : bytes.length < fuel) (h' : bytes.length < fuel') :
    readHeaders reset fuel linha count ignore r bytes = readHeaders reset fuel' linha count ignore r bytes := by
  induction fuel generalizing fuel' linha count ignore r bytes with
  | zero => exact absurd h (Nat.not_lt_zero _)
  | succ fuel ih =>
    obtain _ | fuel' := fuel'
    · exact absurd h' (Nat.not_lt_zero _)
    simp only [readHeaders]
    split
    · cases hl : getLinha reset bytes Client.maxLenServerResponseHead with
      | error e => rfl
      | ok p =>
        obtain ⟨_ | linha, rest⟩ := p
        · rfl
        · have hlt := getLinhaFrom_shorter hl
          have hstep : ∀ linha count ignore r, readHeaders reset fuel linha count ignore r rest =
              readHeaders reset fuel' linha count ignore r rest :=
            fun _ _ _ _ => ih (by omega) (by omega)
          simp only [bind, Except.bind, hstep]
    · rfl

/-- A header value has no line end in it. -/
theorem getHeaderVal_one_line {header v : List Char} (h : getHeaderVal header = .ok (some v)) : ¬crlf <:+: v := by
  simp only [getHeaderVal] at h
  split at h
  · cases h
  · split at h
    · cases h
    · rename_i fim hfim
      split at h
      · cases h
        intro hinf
        exact Text.not_infix_take_indexOf (by decide) hfim (hinf.trans (List.drop_suffix _ _).isInfix)
      · cases h

theorem readHeaders_one_line {reset : Bool} {fuel : Nat} {linha : List Char} {count : Nat} {ignore : Bool}
    {r r' : ServerResponse} {bytes : List UInt8} (hr : ∀ v, r.id = some v → ¬crlf <:+: v)
    (h : readHeaders reset fuel linha count ignore r bytes = .ok r') : ∀ v, r'.id = some v → ¬crlf <:+: v := by
  induction fuel generalizing linha count ignore r bytes with
  | zero =>
    cases h
    exact hr
  | succ fuel ih =>
    simp only [readHeaders] at h
    split at h
    · cases hl : getLinha reset bytes Client.maxLenServerResponseHead with
      | error e =>
        rw [hl] at h
        cases h
      | ok p =>
        obtain ⟨_ | linha, rest⟩ := p <;> simp only [hl, bind, Except.bind] at h
        · cases h
          exact hr
        · split at h
          · cases hv : getHeaderVal linha with
            | error e =>
              rw [hv] at h
              cases h
            | ok id =>
              simp only [hv] at h
              refine ih (fun v hid => ?_) h
              exact getHeaderVal_one_line (hv.trans (congrArg _ hid))
          · exact ih hr h
    · cases h
      exact hr

/-- The id of a response has no line end in it. -/
theorem read_one_line {p : Peer} {valid : Bool} {r : ServerResponse} (h : read p = .ok (valid, r)) :
    ∀ v, r.id = some v → ¬crlf <:+: v := by
  unfold read at h
  cases hl : getLinha p.reset p.sent Client.maxLenServerResponseHead with
  | error e =>
    rw [hl] at h
    cases h
  | ok q =>
    obtain ⟨_ | linha, rest⟩ := q <;> simp only [hl, bind, Except.bind] at h
    · cases h
      nofun
    · split at h
      · cases h
        nofun
      · rename_i r₀ hst
        have hid : r₀.id = none := by
          simp only [setStatusLine, Option.bind_eq_bind, Option.bind_eq_some_iff] at hst
          obtain ⟨_, -, _, -, _, -, hst⟩ := hst
          split at hst <;> cases hst <;> rfl
        split at h
        · cases h
        · rename_i r₁ hread
          cases h
          refine readHeaders_one_line (fun v hv => ?_) hread
          rw [hid] at hv
          cases hv

end ServerResponse

namespace Connection

/-! ### The request -/

/-- An `X-Id` header with these bytes as its value. -/
def idLine (value : List UInt8) : List UInt8 := Utf8.encode Constants.idHeader ++ value

/-- The payload piece as the request begins with it, up to the end of the line after it. -/
def opening (connConfig : List Char) : List UInt8 :=
  Utf8.encode (expand connConfig ++ Constants.actionHeader ++ Constants.actionComplete)

/-- The second request, sent with this id, has an `X-Id` header with this value: its own, when the payload
    piece has no empty line and the id is written as these bytes, or one of the payload piece. -/
def IdSent (connConfig id : List Char) (value : List UInt8) : Prop :=
  ([] ∉ (Http.lines (opening connConfig)).tail ∧ Utf8.encode id = value) ∨
    idLine value ∈ Http.headers (opening connConfig)

theorem encode_request (f : Fields) (connConfig id : List Char) :
    Utf8.encode (buildPayload f connConfig 2 id) = opening connConfig ++ 13 :: 10 ::
      (Utf8.encode (Constants.idHeader ++ id) ++ 13 :: 10 ::
        (Utf8.encode "Connection: close".toList ++ [13, 10, 13, 10])) := by
  have hcrlf : Utf8.encode crlf = [13, 10] := by decide
  simp only [buildPayload, opening, Utf8.encode_append, hcrlf, List.append_assoc, List.cons_append, List.nil_append]

theorem not_infix_idHeader {id : List Char} (h : ¬crlf <:+: id) : ¬crlf <:+: Constants.idHeader ++ id := by
  have hpre : ∀ p : List Char, '\r' ∉ p → ¬crlf <:+: p ++ id := by
    intro p hp
    induction p with
    | nil => exact h
    | cons c p ih =>
      simp only [List.mem_cons, not_or] at hp
      rw [List.cons_append, List.infix_cons_iff, not_or]
      exact ⟨fun hpre => hp.1 (List.cons_prefix_cons.mp hpre).1, ih hp.2⟩
  exact hpre _ (by decide)

theorem lines_rest {id : List Char} (h : ¬crlf <:+: id) :
    Http.lines (Utf8.encode (Constants.idHeader ++ id) ++ 13 :: 10 ::
      (Utf8.encode "Connection: close".toList ++ [13, 10, 13, 10])) =
      [Utf8.encode (Constants.idHeader ++ id), Utf8.encode "Connection: close".toList, [], []] := by
  have hclose : Http.lines (Utf8.encode "Connection: close".toList ++ [13, 10, 13, 10]) =
      [Utf8.encode "Connection: close".toList, [], []] := by decide
  rw [Http.lines_append, Http.lines_encode (not_infix_idHeader h), hclose]
  rfl

theorem head?_idLine (value : List UInt8) : (idLine value).head? = some 88 := rfl

/-- The request has the `X-Id` header just when one of the two reasons holds. -/
theorem mem_headers_request (f : Fields) (connConfig : List Char) {id : List Char} (h : ¬crlf <:+: id)
    (value : List UInt8) :
    idLine value ∈ Http.headers (Utf8.encode (buildPayload f connConfig 2 id)) ↔ IdSent connConfig id value := by
  have hid : Utf8.encode (Constants.idHeader ++ id) = idLine (Utf8.encode id) := Utf8.encode_append _ _
  have hne : idLine (Utf8.encode id) ≠ [] := by
    intro heq
    have hhead := congrArg List.head? heq
    rw [head?_idLine] at hhead
    cases hhead
  have hclose : idLine value ≠ Utf8.encode "Connection: close".toList := by
    intro heq
    have hhead := congrArg List.head? heq
    rw [head?_idLine] at hhead
    revert hhead
    decide
  have hown : idLine value = idLine (Utf8.encode id) ↔ Utf8.encode id = value := by
    rw [idLine, idLine, List.append_cancel_left_eq]
    exact eq_comm
  rw [encode_request, Http.mem_headers_append, lines_rest h, hid]
  have htake : [idLine (Utf8.encode id), Utf8.encode "Connection: close".toList, [], []].takeWhile (· ≠ []) =
      [idLine (Utf8.encode id), Utf8.encode "Connection: close".toList] := by
    simp only [List.takeWhile_cons, hne, ne_eq, not_false_eq_true, decide_true, ↓reduceIte]
    rfl
  rw [htake]
  simp only [List.mem_cons, List.not_mem_nil, or_false, hclose, hown]
  exact or_comm

/-! ### The exchanges -/

/-- The server on a socket answers with this response, and with the status message asked for. -/
structure Answers (p : Peer) (msg : List Char) (r : ServerResponse) : Prop where
  connects : p.connects = true
  accepts : p.accepts = true
  read : ServerResponse.read p = .ok (true, r)
  statusMsg : r.statusMsg = some msg

/-- The exchange on a socket fails with an `IOException`: no connection, no way to write, a broken or
    malformed response, or another status message. -/
def Refuses (p : Peer) (msg : List Char) : Prop :=
  p.connects = false ∨ p.accepts = false ∨ ServerResponse.read p = .error .io ∨
    ∃ valid r, ServerResponse.read p = .ok (valid, r) ∧ (valid = false ∨ r.statusMsg ≠ some msg)

/-- What an exchange yields. -/
def exchange (p : Peer) (msg : List Char) : Except Exc ServerResponse :=
  if p.connects = true ∧ p.accepts = true then
    match ServerResponse.read p with
    | .error e => .error e
    | .ok (valid, r) => if valid = true ∧ r.statusMsg = some msg then .ok r else .error .io
  else .error .io

theorem exchange_eq_ok {p : Peer} {msg : List Char} {r : ServerResponse} :
    exchange p msg = .ok r ↔ Answers p msg r := by
  constructor
  · intro h
    unfold exchange at h
    split at h
    · rename_i hp
      split at h
      · cases h
      · rename_i hread
        split at h
        · rename_i hr
          cases h
          exact ⟨hp.1, hp.2, hr.1 ▸ hread, hr.2⟩
        · cases h
    · cases h
  · rintro ⟨hc, ha, hread, hmsg⟩
    simp only [exchange, hc, ha, hread, hmsg, and_self, ↓reduceIte]

theorem exchange_eq_io {p : Peer} {msg : List Char} : exchange p msg = .error .io ↔ Refuses p msg := by
  constructor
  · intro h
    unfold exchange at h
    split at h
    · split at h
      · rename_i hread
        cases h
        exact .inr (.inr (.inl hread))
      · rename_i valid r hread
        split at h
        · cases h
        · rename_i hr
          refine .inr (.inr (.inr ⟨valid, r, hread, ?_⟩))
          cases valid with
          | false => exact .inl rfl
          | true => exact .inr fun hmsg => hr ⟨rfl, hmsg⟩
    · rename_i hp
      cases hc : p.connects with
      | false => exact .inl hc
      | true =>
        cases ha : p.accepts with
        | false => exact .inr (.inl ha)
        | true => exact absurd ⟨hc, ha⟩ hp
  · rintro (h | h | h | ⟨valid, r, hread, h⟩)
    · simp [exchange, h]
    · simp [exchange, h]
    · simp [exchange, h]
    · have hr : ¬(valid = true ∧ r.statusMsg = some msg) := by
        rintro ⟨rfl, hmsg⟩
        exact h.elim nofun fun hne => hne hmsg
      simp [exchange, hread, hr]

/-- Running one action after another. -/
theorem run_bind {α β : Type} (x : Io α) (k : α → Io β) (w : Written) :
    (x >>= k).run.run w =
      match x.run.run w with
      | (.ok a, w) => (k a).run.run w
      | (.error e, w) => (.error e, w) := by
  rw [ExceptT.run_bind, StateT.run_bind]
  rcases x.run.run w with ⟨_ | a, w⟩ <;> rfl

theorem run_connect (p : Peer) (w : Written) :
    (connect p).run.run w = (if p.connects = true then .ok () else .error .io, w) := by
  unfold connect
  cases p.connects <;> rfl

theorem run_sendConnectionCreate (f : Fields) (connConfig : List Char) (p : Peer) (w : Written) :
    (sendConnectionCreate f connConfig p).run.run w =
      if p.accepts = true then
        (.ok (), { w with writeOut := w.writeOut ++ Utf8.encode (buildPayload f connConfig 1 "0".toList) })
      else (.error .io, w) := by
  unfold sendConnectionCreate
  cases p.accepts <;> rfl

theorem run_sendConnectionComplete (f : Fields) (connConfig : List Char) (p : Peer) (id : List Char) (w : Written) :
    (sendConnectionComplete f connConfig p id).run.run w =
      if p.accepts = true then
        (.ok (), { w with readOut := w.readOut ++ Utf8.encode (buildPayload f connConfig 2 id) })
      else (.error .io, w) := by
  unfold sendConnectionComplete
  cases p.accepts <;> rfl

theorem run_receive (p : Peer) (msg : List Char) (w : Written) : (receive p msg).run.run w =
    (match ServerResponse.read p with
      | .error e => .error e
      | .ok (valid, r) => if valid = true ∧ r.statusMsg = some msg then .ok r else .error .io, w) := by
  unfold receive
  rw [run_bind]
  cases ServerResponse.read p with
  | error e => rfl
  | ok q =>
    obtain ⟨valid, r⟩ := q
    cases valid with
    | false => rfl
    | true =>
      by_cases hm : r.statusMsg = some msg
      · have hne : ¬r.statusMsg ≠ some msg := fun h => h hm
        simp only [hm, and_self, ↓reduceIte]
        change StateT.run (ExceptT.run (if r.statusMsg ≠ some msg then throw Exc.io else pure r)) w = _
        rw [if_neg hne]
        rfl
      · simp only [hm, and_false, ↓reduceIte]
        change StateT.run (ExceptT.run (if r.statusMsg ≠ some msg then throw Exc.io else pure r)) w = _
        rw [if_pos hm]
        rfl

/-- An exchange on a socket, with what is written on it and what follows it. -/
theorem run_exchange {α : Type} {p : Peer} {msg : List Char} {send : Io Unit} {put : Written → Written}
    (hsend : ∀ w, send.run.run w = if p.accepts = true then (.ok (), put w) else (.error .io, w))
    (k : ServerResponse → Io α) (w : Written) :
    (connect p >>= fun _ => send >>= fun _ => receive p msg >>= k).run.run w =
      match exchange p msg with
      | .ok r => (k r).run.run (put w)
      | .error e => (.error e, if p.connects = true ∧ p.accepts = true then put w else w) := by
  unfold exchange
  rw [run_bind, run_connect]
  cases p.connects with
  | false => rfl
  | true =>
    simp only [↓reduceIte, true_and]
    rw [run_bind, hsend]
    cases p.accepts with
    | false => rfl
    | true =>
      simp only [↓reduceIte]
      rw [run_bind, run_receive]
      cases ServerResponse.read p with
      | error e => rfl
      | ok q =>
        obtain ⟨valid, r⟩ := q
        by_cases hr : valid = true ∧ r.statusMsg = some msg <;> simp only [hr, and_self, ↓reduceIte]

section Handshake
variable {f : Fields} {connConfig : List Char} {write read : Peer}

/-- A handshake whose first exchange fails. -/
theorem handshake_of_error {e : Exc} (h : exchange write Constants.msgConnectionCreated = .error e) :
    (handshake f connConfig write read).1 = .error e := by
  unfold handshake establishConnection
  rw [run_exchange (run_sendConnectionCreate f connConfig write), h]

/-- A handshake whose first exchange goes well is its second exchange, with the id of the first. -/
theorem handshake_of_ok {first : ServerResponse} (h : exchange write Constants.msgConnectionCreated = .ok first) :
    (handshake f connConfig write read).1 = (exchange read Constants.msgConnectionCompleted).map fun _ => true := by
  unfold handshake establishConnection
  rw [run_exchange (run_sendConnectionCreate f connConfig write), h]
  dsimp only
  rw [run_exchange (run_sendConnectionComplete f connConfig read _)]
  cases exchange read Constants.msgConnectionCompleted <;> rfl

/-- What a handshake that goes well has written on the read socket. -/
theorem handshake_readOut {first second : ServerResponse}
    (h : exchange write Constants.msgConnectionCreated = .ok first)
    (h' : exchange read Constants.msgConnectionCompleted = .ok second) :
    (handshake f connConfig write read).2.readOut =
      Utf8.encode (buildPayload f connConfig 2 (nullableToString first.id)) := by
  unfold handshake establishConnection
  rw [run_exchange (run_sendConnectionCreate f connConfig write), h]
  dsimp only
  rw [run_exchange (run_sendConnectionComplete f connConfig read _), h']
  exact List.nil_append _

/-- A handshake returns true just when both exchanges go well. -/
theorem handshake_eq_true : (handshake f connConfig write read).1 = .ok true ↔
    ∃ first second, Answers write Constants.msgConnectionCreated first ∧
      Answers read Constants.msgConnectionCompleted second := by
  simp only [← exchange_eq_ok]
  cases hw : exchange write Constants.msgConnectionCreated with
  | error e =>
    rw [handshake_of_error hw]
    exact ⟨nofun, nofun⟩
  | ok first =>
    rw [handshake_of_ok hw]
    cases exchange read Constants.msgConnectionCompleted with
    | error e => exact ⟨nofun, nofun⟩
    | ok second => exact ⟨fun _ => ⟨first, second, rfl, rfl⟩, fun _ => rfl⟩

end Handshake

end Connection
end NicVpn
