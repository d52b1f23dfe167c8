import NicVpn.Theorems.Payload
import NicVpn.Theorems.Handshake

/-! The rounds of `run` over a payload of several pieces. The generator writes `[split]` between the pieces and
    `run` splits at the same text with a backslash before it, so that only a payload of one piece makes the
    rounds that it should. -/

namespace NicVpn
namespace Connection
open Text

/-- What the generator writes between two pieces. -/
def splitToken : List Char := "[split]".toList

/-- A payload of these pieces. -/
def payloadOf (ps : List (List Char)) : String := String.ofList (splitToken.intercalate ps)

theorem toList_payloadOf (ps : List (List Char)) : (payloadOf ps).toList = splitToken.intercalate ps :=
  String.toList_ofList

/-- The servers answer every handshake. -/
def AllAnswer (servers : Nat → Peer × Peer) (first second : Nat → ServerResponse) : Prop :=
  ∀ i, Answers (servers i).1 Constants.msgConnectionCreated (first i) ∧
    Answers (servers i).2 Constants.msgConnectionCompleted (second i)

/-- One round for each piece, in order, and no separator in what the servers are sent. -/
structure SplitRun (f : Fields) (ps : List (List Char)) (servers : Nat → Peer × Peer) : Prop where
  configs : (run f (payloadOf ps) servers).2.map (·.config) = ps
  free : ∀ r ∈ (run f (payloadOf ps) servers).2,
    ¬Utf8.encode splitToken <:+: r.written.writeOut ∧ ¬Utf8.encode splitToken <:+: r.written.readOut

/-- The values of the requests are without the separator. -/
def FreeFields (f : Fields) (id : List Char) : Prop :=
  ¬splitToken <:+: f.target ∧ (∀ pass, f.pass = some pass → ¬splitToken <:+: pass) ∧ ¬splitToken <:+: id

/-! ### Pieces -/

/-- Separators of two lengths do not make one payload of several pieces. -/
theorem length_eq_one_of_pieces {ps : List (List Char)} (hne : ps ≠ []) (h : pieces (payloadOf ps) = ps) :
    ps.length = 1 := by
  have hwhole : "\\[split]".toList.intercalate ps = splitToken.intercalate ps := by
    unfold pieces at h
    rw [toList_payloadOf] at h
    exact (congrArg _ h).symm.trans (intercalate_split (by decide) _)
  obtain ⟨p, ps, rfl⟩ := List.exists_cons_of_ne_nil hne
  have hlength := congrArg List.length hwhole
  rw [length_intercalate, length_intercalate] at hlength
  have hsizes : ("\\[split]".toList).length = 8 ∧ splitToken.length = 7 := by decide
  rw [hsizes.1, hsizes.2] at hlength
  rw [List.length_cons]
  omega

theorem pieces_singleton {p : List Char} (h : ¬splitToken <:+: p) : pieces (payloadOf [p]) = [p] := by
  unfold pieces
  rw [toList_payloadOf, List.intercalate_singleton]
  refine split_of_not_infix fun hinf => h ?_
  have hsuf : splitToken <:+: "\\[split]".toList := ⟨['\\'], [], by decide⟩
  exact hsuf.trans hinf

/-! ### Rounds -/

section Rounds
variable {f : Fields} {config : List Char} {write read : Peer} {first second : ServerResponse}

/-- What a round has written when the servers answer. -/
theorem round_of_answers (hw : Answers write Constants.msgConnectionCreated first)
    (hr : Answers read Constants.msgConnectionCompleted second) :
    round f config write read =
      (.ok (), { writeOut := Utf8.encode (buildPayload f config 1 "0".toList ++ buildPayload f config 3 "0".toList)
                 readOut := Utf8.encode (buildPayload f config 2 (nullableToString first.id)) }) := by
  have hestablish : (establishConnection f config write read).run.run {} =
      (.ok true, { writeOut := Utf8.encode (buildPayload f config 1 "0".toList)
                   readOut := Utf8.encode (buildPayload f config 2 (nullableToString first.id)) }) := by
    unfold establishConnection
    rw [run_exchange (run_sendConnectionCreate f config write), exchange_eq_ok.mpr hw]
    dsimp only
    rw [run_exchange (run_sendConnectionComplete f config read _), exchange_eq_ok.mpr hr]
    simp only [List.nil_append]
    rfl
  have hsend : ∀ w : Written, (sendDataRequest f config write).run.run w =
      (.ok (), { w with writeOut := w.writeOut ++ Utf8.encode (buildPayload f config 3 "0".toList) }) := by
    intro w
    unfold sendDataRequest
    rw [if_pos hw.accepts]
    rfl
  unfold round
  rw [run_bind, hestablish]
  dsimp only
  rw [if_pos rfl, hsend, Utf8.encode_append]

theorem rounds_of_answers {servers : Nat → Peer × Peer} {first second : Nat → ServerResponse}
    (h : AllAnswer servers first second) (f : Fields) (configs : List (List Char)) :
    (rounds f configs servers).2.map (·.config) = configs := by
  induction configs generalizing servers first second with
  | nil => rfl
  | cons config configs ih =>
    unfold rounds
    rw [round_of_answers (h 0).1 (h 0).2]
    exact congrArg (config :: ·) (ih fun i => h (i + 1))

end Rounds

/-! ### The separator in the requests -/

theorem splitToken_fixedTexts : ∀ b ∈ fixedTexts, Apart splitToken b := by
  unfold fixedTexts splitToken
  repeat rw [String.toList_ofList]
  decide

/-- No placeholder stands for a text that a separator could begin or end in. -/
theorem splitToken_placeholders : ∀ p ∈ placeholders, p.1 ≠ [] ∧ Apart splitToken p.2 := by
  unfold placeholders splitToken
  rw [String.toList_append]
  repeat rw [String.toList_ofList]
  decide +kernel

theorem splitToken_buildPayload {f : Fields} {config : List Char} (hconfig : ¬splitToken <:+: config)
    (action : Nat) (id : List Char) :
    splitToken <:+: buildPayload f config action id ↔ ∃ v ∈ values f action id, splitToken <:+: v := by
  have hexpand : ¬splitToken <:+: expand config := fun h => hconfig (infix_of_infix_replaceAll splitToken_placeholders h)
  rw [infix_buildPayload_iff (by decide) splitToken_fixedTexts]
  simp only [hexpand, false_or]

/-- The two requests on a write socket, one behind the other: the first ends with a line. -/
theorem splitToken_writeOut {f : Fields} {config : List Char} (hconfig : ¬splitToken <:+: config) (id : List Char) :
    splitToken <:+: buildPayload f config 1 id ++ buildPayload f config 3 id ↔ ∃ v ∈ values f 1 id, splitToken <:+: v := by
  have hline : Apart splitToken ['\n'] := by decide
  obtain ⟨x, hx⟩ : ∃ x, buildPayload f config 1 id = x ++ ['\n'] := by
    unfold buildPayload
    exact ⟨_, (List.append_assoc _ ['\r'] ['\n']).symm⟩
  have hcreate : splitToken <:+: x ↔ splitToken <:+: buildPayload f config 1 id := by
    rw [hx, ← List.append_nil ['\n'], hline.infix_append_iff]
    simp [show ¬splitToken <:+: [] by decide]
  rw [hx, List.append_assoc, hline.infix_append_iff, hcreate, splitToken_buildPayload hconfig,
    splitToken_buildPayload hconfig]
  simp [values]

theorem freeFields_iff (f : Fields) (id : List Char) :
    FreeFields f id ↔ (¬∃ v ∈ values f 1 "0".toList, splitToken <:+: v) ∧ ¬∃ v ∈ values f 2 id, splitToken <:+: v := by
  unfold FreeFields values
  rcases f.pass with _ | pass
  · simp
  · simp only [Option.toList_some, List.singleton_append, List.mem_cons, List.not_mem_nil, or_false, exists_eq_or_imp,
      exists_eq_left, Option.some.injEq, forall_eq', not_or]
    constructor
    · rintro ⟨htarget, hpass, hid⟩
      exact ⟨⟨hpass, htarget⟩, hid⟩
    · rintro ⟨⟨hpass, htarget⟩, hid⟩
      exact ⟨htarget, hpass, hid⟩

/-- A payload makes its rounds just when it is one piece and the other fields of the requests are without the
    separator. -/
theorem splitRun_iff {f : Fields} {ps : List (List Char)} {servers : Nat → Peer × Peer}
    {first second : Nat → ServerResponse} (hne : ps ≠ []) (hps : ∀ p ∈ ps, ¬splitToken <:+: p)
    (hok : AllAnswer servers first second) :
    SplitRun f ps servers ↔ ps.length = 1 ∧ FreeFields f (nullableToString (first 0).id) := by
  have hascii : ∀ c ∈ splitToken, c.toNat < 0x80 := forall_of_all (by decide)
  have hone : ∀ p, ps = [p] → (SplitRun f ps servers ↔ FreeFields f (nullableToString (first 0).id)) := by
    rintro p rfl
    have hp := hps p List.mem_cons_self
    have hrun : (run f (payloadOf [p]) servers).2 = [⟨p, (round f p (servers 0).1 (servers 0).2).2⟩] := by
      unfold run
      rw [pieces_singleton hp, rounds, round_of_answers (hok 0).1 (hok 0).2]
      rfl
    have hround : round f p (servers 0).1 (servers 0).2 = _ := round_of_answers (hok 0).1 (hok 0).2
    have hwritten := congrArg Prod.snd hround
    have hfree : (∀ r ∈ (run f (payloadOf [p]) servers).2,
        ¬Utf8.encode splitToken <:+: r.written.writeOut ∧ ¬Utf8.encode splitToken <:+: r.written.readOut) ↔
        FreeFields f (nullableToString (first 0).id) := by
      rw [hrun, List.forall_mem_singleton, hwritten, infix_encode_iff hascii, infix_encode_iff hascii,
        splitToken_writeOut hp, splitToken_buildPayload hp, freeFields_iff]
    refine ⟨fun h => hfree.mp h.free, fun h => ⟨?_, hfree.mpr h⟩⟩
    rw [hrun]
    rfl
  constructor
  · intro h
    have hconfigs := h.configs
    unfold run at hconfigs
    rw [rounds_of_answers hok] at hconfigs
    have hlength := length_eq_one_of_pieces hne hconfigs
    obtain ⟨p, hp⟩ := List.length_eq_one_iff.mp hlength
    exact ⟨hlength, (hone p hp).mp h⟩
  · rintro ⟨hlength, hfields⟩
    obtain ⟨p, hp⟩ := List.length_eq_one_iff.mp hlength
    exact (hone p hp).mpr hfields

/-! ### Servers that answer -/

def createdResponse : ServerResponse :=
  { statusCode := 200, statusMsg := some Constants.msgConnectionCreated, id := some "17".toList, isValid := true }

def completedResponse : ServerResponse :=
  { statusCode := 200, statusMsg := some Constants.msgConnectionCompleted, isValid := true }

def answeringServers (_ : Nat) : Peer × Peer :=
  (⟨true, true, Utf8.bytes "HTTP/1.1 200 Created\r\nX-Id: 17\r\n\r\n".toList, false⟩,
    ⟨true, true, Utf8.bytes "HTTP/1.1 200 Completed\r\n\r\n".toList, false⟩)

theorem allAnswer_answeringServers :
    AllAnswer answeringServers (fun _ => createdResponse) fun _ => completedResponse := by
  intro i
  refine ⟨⟨rfl, rfl, ?_, rfl⟩, ⟨rfl, rfl, ?_, rfl⟩⟩
  · show ServerResponse.read (answeringServers 0).1 = .ok (true, createdResponse)
    decide +kernel
  · show ServerResponse.read (answeringServers 0).2 = .ok (true, completedResponse)
    decide +kernel

/-- Two pieces are sent as one. -/
theorem two_pieces_one_round :
    AllAnswer answeringServers (fun _ => createdResponse) (fun _ => completedResponse) ∧
      (∀ p ∈ ["a".toList, "b".toList], ¬splitToken <:+: p) ∧
      ¬SplitRun clientFields ["a".toList, "b".toList] answeringServers := by
  refine ⟨allAnswer_answeringServers, by decide, fun h => ?_⟩
  have hconfigs := h.configs
  unfold run at hconfigs
  rw [rounds_of_answers allAnswer_answeringServers] at hconfigs
  revert hconfigs
  decide

theorem splitRun_one_piece :
    SplitRun clientFields ["GET / [protocol][crlf]".toList] answeringServers ↔
      (["GET / [protocol][crlf]".toList]).length = 1 ∧ FreeFields clientFields (nullableToString createdResponse.id) :=
  splitRun_iff (by decide) (by decide) allAnswer_answeringServers

end Connection
end NicVpn
