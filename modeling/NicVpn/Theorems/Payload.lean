import NicVpn.Handshake
import NicVpn.Lib.Replace

/-! The requests of a payload piece: what `buildPayload` puts behind the piece, and which texts can occur in
    the whole. -/

namespace NicVpn
namespace Connection
open Text

/-- The fields of every connection that the client makes. -/
def clientFields : Fields := ⟨"127.0.0.1:8443".toList, none⟩

/-- The values that a request has behind its piece. -/
def values (f : Fields) (action : Nat) (id : List Char) : List (List Char) :=
  match action with
  | 1 => f.pass.toList ++ [f.target]
  | 2 => [id]
  | _ => []

/-- What stands between the values: the header names, with the line ends before and behind them. -/
def fixedTexts : List (List Char) :=
  [Constants.actionHeader ++ (Constants.actionCreate ++ (crlf ++ Constants.passHeader)),
    Constants.actionHeader ++ (Constants.actionCreate ++ (crlf ++ Constants.targetHeader)),
    crlf ++ Constants.targetHeader,
    crlf ++ (Constants.contentHeader ++ ("0".toList ++ (crlf ++ crlf))),
    Constants.actionHeader ++ (Constants.actionComplete ++ (crlf ++ Constants.idHeader)),
    crlf ++ ("Connection: close".toList ++ (crlf ++ crlf)),
    Constants.actionHeader ++ (Constants.actionData ++ (crlf ++ (Constants.contentHeader ++ ("2147483647".toList ++
      (crlf ++ ("Connection: Keep-Alive".toList ++ (crlf ++ crlf)))))))]

theorem buildPayload_create_some {f : Fields} {pass : List Char} (h : f.pass = some pass) (config id : List Char) :
    buildPayload f config 1 id = expand config ++
      ((Constants.actionHeader ++ (Constants.actionCreate ++ (crlf ++ Constants.passHeader))) ++ (pass ++
        ((crlf ++ Constants.targetHeader) ++ (f.target ++
          ((crlf ++ (Constants.contentHeader ++ ("0".toList ++ (crlf ++ crlf)))) ++ []))))) := by
  simp only [buildPayload, h, List.append_assoc, List.append_nil]

theorem buildPayload_create_none {f : Fields} (h : f.pass = none) (config id : List Char) :
    buildPayload f config 1 id = expand config ++
      ((Constants.actionHeader ++ (Constants.actionCreate ++ (crlf ++ Constants.targetHeader))) ++ (f.target ++
        ((crlf ++ (Constants.contentHeader ++ ("0".toList ++ (crlf ++ crlf)))) ++ []))) := by
  simp only [buildPayload, h, List.append_assoc, List.append_nil]

theorem buildPayload_complete (f : Fields) (config id : List Char) :
    buildPayload f config 2 id = expand config ++
      ((Constants.actionHeader ++ (Constants.actionComplete ++ (crlf ++ Constants.idHeader))) ++ (id ++
        ((crlf ++ ("Connection: close".toList ++ (crlf ++ crlf))) ++ []))) := by
  simp only [buildPayload, List.append_assoc, List.append_nil]

theorem buildPayload_data (f : Fields) (config id : List Char) :
    buildPayload f config 3 id = expand config ++
      ((Constants.actionHeader ++ (Constants.actionData ++ (crlf ++ (Constants.contentHeader ++
        ("2147483647".toList ++ (crlf ++ ("Connection: Keep-Alive".toList ++ (crlf ++ crlf)))))))) ++ []) := by
  simp only [buildPayload, List.append_assoc, List.append_nil]

/-- A text that keeps apart from the header names occurs in a request just when it occurs in the piece or in
    one of the values. -/
theorem infix_buildPayload_iff {pat : List Char} (hne : pat ≠ []) (h : ∀ b ∈ fixedTexts, Apart pat b) (f : Fields)
    (config id : List Char) (action : Nat) :
    pat <:+: buildPayload f config action id ↔ pat <:+: expand config ∨ ∃ v ∈ values f action id, pat <:+: v := by
  have hnil : ¬pat <:+: [] := fun hinf => hne (List.infix_nil.mp hinf)
  simp only [fixedTexts, List.forall_mem_cons] at h
  obtain ⟨hpass, hfirst, htarget, hcontent, hid, hclose, hdata, -⟩ := h
  rcases action with _ | _ | _ | _ | action
  · simp [buildPayload, values]
  · rcases hp : f.pass with _ | pass
    · rw [buildPayload_create_none hp, hfirst.infix_append_iff, hcontent.infix_append_iff]
      simp [values, hp, hnil]
    · rw [buildPayload_create_some hp, hpass.infix_append_iff, htarget.infix_append_iff, hcontent.infix_append_iff]
      simp [values, hp, hnil]
  · rw [Nat.zero_add, buildPayload_complete, hid.infix_append_iff, hclose.infix_append_iff]
    simp [values, hnil]
  · rw [Nat.zero_add, buildPayload_data, hdata.infix_append_iff]
    simp [values, hnil]
  · simp [buildPayload, values]

/-! ### Replacements one after another -/

def replaceAll (ps : List (List Char × List Char)) (s : List Char) : List Char :=
  ps.foldl (fun text p => Text.replace p.1 p.2 text) s

theorem expand_eq_replaceAll (s : List Char) : expand s = replaceAll placeholders s := rfl

theorem replaceAll_append (ps ps' : List (List Char × List Char)) (s : List Char) :
    replaceAll (ps ++ ps') s = replaceAll ps' (replaceAll ps s) := List.foldl_append

section ReplaceAll
variable {ps : List (List Char × List Char)} {pat b s : List Char}

/-- No replacement brings in a text that keeps apart from what the placeholders stand for. -/
theorem infix_of_infix_replaceAll (hps : ∀ p ∈ ps, p.1 ≠ [] ∧ Apart pat p.2) (h : pat <:+: replaceAll ps s) :
    pat <:+: s := by
  induction ps generalizing s with
  | nil => exact h
  | cons p ps ih =>
    obtain ⟨⟨hne, hapart⟩, hps⟩ := List.forall_mem_cons.mp hps
    exact infix_of_infix_replace hne hapart (ih hps h)

/-- Around a text that no placeholder touches each part is replaced for itself. -/
theorem replaceAll_around (hps : ∀ p ∈ ps, p.1 ≠ [] ∧ Apart p.1 b) (x y : List Char) :
    replaceAll ps (x ++ (b ++ y)) = replaceAll ps x ++ (b ++ replaceAll ps y) := by
  induction ps generalizing x y with
  | nil => rfl
  | cons p ps ih =>
    obtain ⟨⟨hne, hapart⟩, hps⟩ := List.forall_mem_cons.mp hps
    have hstep : Text.replace p.1 p.2 (x ++ (b ++ y)) = Text.replace p.1 p.2 x ++ (b ++ Text.replace p.1 p.2 y) :=
      replace_around hne hapart p.2 x y
    show replaceAll ps (Text.replace p.1 p.2 (x ++ (b ++ y))) = _
    rw [hstep, ih hps]
    rfl

theorem replaceAll_nil (ps : List (List Char × List Char)) : replaceAll ps [] = [] := by
  induction ps with
  | nil => rfl
  | cons p ps ih => exact ih

theorem replaceAll_eq_nil_iff (hps : ∀ p ∈ ps, p.1 ≠ [] ∧ p.2 ≠ []) : replaceAll ps s = [] ↔ s = [] := by
  induction ps generalizing s with
  | nil => exact Iff.rfl
  | cons p ps ih =>
    obtain ⟨⟨hold, hnew⟩, hps⟩ := List.forall_mem_cons.mp hps
    exact (ih hps).trans (replace_eq_nil_iff hold hnew)

/-- The parts of a text are replaced for themselves if no placeholder touches what stands behind them. -/
theorem replaceAll_parts (hps : ∀ p ∈ ps, p.1 ≠ [] ∧ Apart p.1 b) (bs : List (List Char)) :
    replaceAll ps (bs.flatMap fun x => x ++ b) = (bs.map (replaceAll ps)).flatMap fun x => x ++ b := by
  induction bs with
  | nil => exact replaceAll_nil ps
  | cons x bs ih =>
    rw [List.flatMap_cons, List.append_assoc, replaceAll_around hps, ih, List.map_cons, List.flatMap_cons,
      List.append_assoc]

end ReplaceAll

end Connection
end NicVpn
