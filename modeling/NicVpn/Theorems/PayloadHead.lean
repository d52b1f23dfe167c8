import NicVpn.Theorems.Payload
import NicVpn.Lib.TokenRuns
import NicVpn.Lib.Joined

/-! Where the head of a request ends. The runs of `[crlf]` in a piece become half as many line ends, so that a
    run of three is an empty line, and the headers behind the piece do not belong to the head. -/

namespace NicVpn
namespace Connection
open Text

/-! ### Lines -/

/-- Each text as a line. -/
def lines (ls : List (List Char)) : List Char := ls.flatMap fun l => l ++ crlf

theorem lines_append (ls ls' : List (List Char)) : lines (ls ++ ls') = lines ls ++ lines ls' := List.flatMap_append

/-- An empty line ends the text, and there is none before it. -/
structure OneHead (s : List Char) : Prop where
  ends : crlf ++ crlf <:+ s
  once : ∀ x y, s = x ++ (crlf ++ crlf ++ y) → y = []

/-- Behind lines that are not empty, the empty line at the end is the only one. -/
theorem eq_nil_of_lines {ls : List (List Char)} (hls : ∀ l ∈ ls, l ≠ [] ∧ '\r' ∉ l) {x y : List Char}
    (h : lines ls ++ crlf = x ++ (crlf ++ crlf ++ y)) : y = [] := by
  induction ls generalizing x with
  | nil =>
    have hlength := congrArg List.length h
    simp [lines, crlf] at hlength
    omega
  | cons l ls ih =>
    obtain ⟨⟨-, hl⟩, hls⟩ := List.forall_mem_cons.mp hls
    have hleft : lines (l :: ls) ++ crlf = l ++ '\r' :: ('\n' :: (lines ls ++ crlf)) := by simp [lines, crlf]
    rw [hleft] at h
    by_cases hx : '\r' ∈ x
    · -- The line ends within `x`, and `y` is behind the lines that follow.
      obtain ⟨x₁, x₂, rfl, hx₁⟩ := List.eq_append_cons_of_mem hx
      rw [List.append_assoc] at h
      obtain ⟨-, htail⟩ := Joined.append_cons_inj hl hx₁ h
      cases x₂ with
      | nil => exact absurd (List.cons.inj htail).1 (by decide)
      | cons c x₂ => exact ih hls (List.cons.inj htail).2
    · -- The line is `x`, so that the next one would be empty.
      obtain ⟨-, htail⟩ := Joined.append_cons_inj hl hx h
      have hrest : lines ls ++ crlf = '\r' :: '\n' :: y := (List.cons.inj htail).2
      cases ls with
      | nil => exact (List.cons.inj (List.cons.inj hrest).2).2.symm
      | cons l' ls =>
        obtain ⟨⟨hne, hl'⟩, -⟩ := List.forall_mem_cons.mp hls
        obtain ⟨c, l', rfl⟩ := List.exists_cons_of_ne_nil hne
        have hc : c = '\r' := (List.cons.inj hrest).1
        exact absurd (hc ▸ List.mem_cons_self) hl'

/-- Lines with an empty line behind them end at it just when none of them, the first apart, is empty. -/
theorem oneHead_lines_iff {l : List Char} {ls : List (List Char)} (hl : l ≠ []) (hls : ∀ l' ∈ l :: ls, '\r' ∉ l') :
    OneHead (lines (l :: ls) ++ crlf) ↔ ∀ l' ∈ ls, l' ≠ [] := by
  constructor
  · rintro ⟨-, honce⟩ l' hl' rfl
    obtain ⟨a, b, rfl⟩ := List.append_of_mem hl'
    have hsplit : lines (l :: (a ++ [] :: b)) ++ crlf = lines (l :: a) ++ (crlf ++ (lines b ++ crlf)) := by
      simp [lines]
    obtain ⟨x, hx⟩ : ∃ x, lines (l :: a) = x ++ crlf := by
      rcases List.eq_nil_or_concat (l :: a) with hnil | ⟨a', c, ha⟩
      · cases hnil
      · rw [ha, List.concat_eq_append, lines_append]
        exact ⟨lines a' ++ c, by simp [lines]⟩
    have hnil := honce x (lines b ++ crlf) (by rw [hsplit, hx]; simp)
    simp [crlf] at hnil
  · intro hne
    refine ⟨?_, fun x y h => ?_⟩
    · rcases List.eq_nil_or_concat (l :: ls) with hnil | ⟨a, c, ha⟩
      · cases hnil
      · rw [ha, List.concat_eq_append, lines_append]
        exact ⟨lines a ++ c, by simp [lines]⟩
    · have hall : ∀ l' ∈ l :: ls, l' ≠ [] := List.forall_mem_cons.mpr ⟨hl, hne⟩
      exact eq_nil_of_lines (fun l' hl' => ⟨hall l' hl', hls l' hl'⟩) h

/-! ### The headers behind the piece -/

/-- The header lines of a request. -/
def headerLines (f : Fields) (action : Nat) (id : List Char) : List (List Char) :=
  match action with
  | 1 => (Constants.actionHeader ++ Constants.actionCreate) :: f.pass.toList.map (Constants.passHeader ++ ·) ++
      [Constants.targetHeader ++ f.target, Constants.contentHeader ++ "0".toList]
  | 2 => [Constants.actionHeader ++ Constants.actionComplete, Constants.idHeader ++ id, "Connection: close".toList]
  | _ => [Constants.actionHeader ++ Constants.actionData, Constants.contentHeader ++ "2147483647".toList,
      "Connection: Keep-Alive".toList]

/-- The actions of a request: create, complete and data. -/
def IsAction (action : Nat) : Prop := action = 1 ∨ action = 2 ∨ action = 3

theorem buildPayload_lines (f : Fields) (config id : List Char) {action : Nat} (h : IsAction action) :
    buildPayload f config action id = expand config ++ (lines (headerLines f action id) ++ crlf) := by
  rcases h with rfl | rfl | rfl
  · rcases hpass : f.pass with _ | pass
    · simp only [buildPayload, headerLines, lines, hpass, Option.toList_none, List.map_nil, List.flatMap_cons,
        List.flatMap_nil, List.append_assoc, List.append_nil, List.cons_append, List.nil_append]
    · simp only [buildPayload, headerLines, lines, hpass, Option.toList_some, List.map_cons, List.map_nil,
        List.flatMap_cons, List.flatMap_nil, List.append_assoc, List.append_nil, List.cons_append, List.nil_append]
  · simp only [buildPayload, headerLines, lines, List.flatMap_cons, List.flatMap_nil, List.append_assoc,
      List.append_nil]
  · simp only [buildPayload, headerLines, lines, List.flatMap_cons, List.flatMap_nil, List.append_assoc,
      List.append_nil]

/-- The values of a request have no line break. -/
def OneLine (f : Fields) (action : Nat) (id : List Char) : Prop := ∀ v ∈ values f action id, '\r' ∉ v ∧ '\n' ∉ v

theorem headerLines_ok {f : Fields} {action : Nat} {id : List Char} (h : IsAction action) (hv : OneLine f action id) :
    ∀ l ∈ headerLines f action id, l ≠ [] ∧ '\r' ∉ l := by
  have hvalue : ∀ {name v : List Char}, v ∈ values f action id → name ≠ [] ∧ '\r' ∉ name →
      name ++ v ≠ [] ∧ '\r' ∉ name ++ v := by
    intro name v hmem hname
    refine ⟨List.append_ne_nil_of_left_ne_nil hname.1 _, fun hcr => ?_⟩
    rcases List.mem_append.mp hcr with hcr | hcr
    · exact hname.2 hcr
    · exact (hv v hmem).1 hcr
  rcases h with rfl | rfl | rfl
  · intro l hl
    simp only [headerLines, List.cons_append, List.mem_cons, List.mem_append, List.mem_map, Option.mem_toList,
      List.not_mem_nil, or_false] at hl
    rcases hl with rfl | ⟨pass, hpass, rfl⟩ | rfl | rfl
    · decide
    · exact hvalue (by simp [values, hpass]) (by decide)
    · exact hvalue (by simp [values]) (by decide)
    · decide
  · intro l hl
    simp only [headerLines, List.mem_cons, List.not_mem_nil, or_false] at hl
    rcases hl with rfl | rfl | rfl
    · decide
    · exact hvalue (by simp [values]) (by decide)
    · decide
  · intro l hl
    simp only [headerLines, List.mem_cons, List.not_mem_nil, or_false] at hl
    rcases hl with rfl | rfl | rfl <;> decide

/-! ### The piece -/

/-- The token for a line end. -/
def crlfToken : Token := ⟨'[', "crlf]".toList, by decide⟩

/-- What a piece does not have if its only line breaks are tokens for line ends. -/
def breaks : List (List Char) :=
  [['\r'], ['\n'], ['\\'], "[cr]".toList, "[lf]".toList, "[lfcr]".toList]

/-- A piece whose only line breaks are tokens for line ends, with one of them at its end and none at its
    beginning. -/
structure Piece (s : List Char) : Prop where
  breaks : ∀ b ∈ breaks, ¬b <:+: s
  starts : ¬crlfToken.text <+: s
  ends : crlfToken.text <:+ s

def hostTexts : List (List Char × List Char) := placeholders.take 5

def runTexts : List (List Char × List Char) :=
  [(crlfToken.text ++ crlfToken.text, crlf), (crlfToken.text ++ (crlfToken.text ++ crlfToken.text), crlf),
    (crlfToken.text ++ (crlfToken.text ++ (crlfToken.text ++ crlfToken.text)), crlf), (crlfToken.text, crlf)]

def otherTexts : List (List Char × List Char) := placeholders.drop 9

theorem placeholders_runs : placeholders = hostTexts ++ (runTexts ++ otherTexts) := by
  have hruns : (placeholders.drop 5).take 4 = runTexts := by decide +kernel
  have hother : otherTexts = (placeholders.drop 5).drop 4 := rfl
  rw [← hruns, hother, List.take_append_drop]
  exact (List.take_append_drop 5 placeholders).symm

theorem placeholders_ne_nil : ∀ p ∈ placeholders, p.1 ≠ [] ∧ p.2 ≠ [] := by
  unfold placeholders
  rw [String.toList_append]
  repeat rw [String.toList_ofList]
  decide

/-- A placeholder that is a line break itself, or stands for a text without one. -/
def Breaks (p : List Char × List Char) : Prop :=
  p.1 ≠ [] ∧ ((∃ b ∈ breaks, b <:+: p.1) ∨ ∀ b ∈ breaks, Apart b p.2)

instance (p : List Char × List Char) : Decidable (Breaks p) := inferInstanceAs (Decidable (_ ∧ _))

/-- The entries before and behind the runs do not touch them. -/
theorem hostTexts_ok : ∀ p ∈ hostTexts, Breaks p ∧ Apart p.1 crlfToken.text ∧ Apart crlfToken.text p.2 := by
  unfold hostTexts placeholders Breaks breaks
  repeat rw [String.toList_ofList]
  decide +kernel

theorem otherTexts_ok : ∀ p ∈ otherTexts, Breaks p ∧ Apart p.1 crlf := by
  unfold otherTexts placeholders Breaks breaks
  rw [String.toList_append]
  repeat rw [String.toList_ofList]
  decide +kernel

theorem replaceAll_breaks {ps : List (List Char × List Char)} (hps : ∀ p ∈ ps, Breaks p) {s : List Char}
    (hs : ∀ b ∈ breaks, ¬b <:+: s) : ∀ b ∈ breaks, ¬b <:+: replaceAll ps s := by
  induction ps generalizing s with
  | nil => exact hs
  | cons p ps ih =>
    obtain ⟨⟨hne, hp⟩, hps⟩ := List.forall_mem_cons.mp hps
    have hstep : ∀ b ∈ breaks, ¬b <:+: Text.replace p.1 p.2 s := by
      rcases hp with ⟨b', hb', hinf'⟩ | hapart
      · rw [replace_of_absent fun hinf => hs b' hb' (hinf'.trans hinf)]
        exact hs
      · exact fun b hb hinf => hs b hb (infix_of_infix_replace hne (hapart b hb) hinf)
    exact ih hps hstep

/-- The runs of line ends, collapsed. -/
theorem replaceAll_runTexts {cs : List (List Char)} (hcs : ∀ c ∈ cs, ¬crlfToken.text <:+: c) :
    replaceAll runTexts (crlfToken.ended cs) = lines (Token.collapse cs) := by
  have happ : Apart crlfToken.text crlf := by decide
  have hpair : ¬crlfToken.text ++ crlfToken.text <:+: Token.paired crlfToken crlf cs :=
    Token.not_infix_paired happ (by decide) hcs
  have hthree : ¬crlfToken.text ++ (crlfToken.text ++ crlfToken.text) <:+: Token.paired crlfToken crlf cs :=
    fun h => hpair ((List.suffix_append crlfToken.text _).isInfix.trans h)
  have hfour : ¬crlfToken.text ++ (crlfToken.text ++ (crlfToken.text ++ crlfToken.text)) <:+:
      Token.paired crlfToken crlf cs := fun h => hthree ((List.suffix_append crlfToken.text _).isInfix.trans h)
  have hfold : replaceAll runTexts (crlfToken.ended cs) =
      Text.replace crlfToken.text crlf (Text.replace (crlfToken.text ++ (crlfToken.text ++ (crlfToken.text ++
        crlfToken.text))) crlf (Text.replace (crlfToken.text ++ (crlfToken.text ++ crlfToken.text)) crlf
          (Text.replace (crlfToken.text ++ crlfToken.text) crlf (crlfToken.ended cs)))) := rfl
  rw [hfold, Token.replace_pairs hcs, replace_of_absent hthree, replace_of_absent hfour,
    Token.replace_paired happ hcs]
  rfl

theorem infix_pair_map_iff {g : List Char → List Char} (hg : ∀ b, g b = [] ↔ b = []) (bs : List (List Char)) :
    [[], []] <:+: bs.map g ↔ [[], []] <:+: bs := by
  rw [List.infix_map_iff]
  constructor
  · rintro ⟨l, hl, hmap⟩
    have hnil : l = [[], []] := by
      rcases l with _ | ⟨a, _ | ⟨b, _ | ⟨c, l⟩⟩⟩
      · simp at hmap
      · simp at hmap
      · simp only [List.map_cons, List.map_nil, List.cons.injEq, and_true] at hmap
        rw [(hg a).mp hmap.1.symm, (hg b).mp hmap.2.symm]
      · simp at hmap
    exact hnil ▸ hl
  · intro h
    exact ⟨_, h, by simp [(hg []).mpr rfl]⟩

theorem collapse_cons (c : List Char) (cs : List (List Char)) :
    Token.collapse (c :: cs) = c :: (Token.collapse (c :: cs)).tail := by
  rcases cs with _ | ⟨_ | ⟨d, v⟩, cs⟩ <;> rfl

/-- A piece becomes lines, of which none but the first is empty just when no three line ends were in a row. -/
theorem expand_piece {s : List Char} (h : Piece s) :
    ∃ l ls, expand s = lines (l :: ls) ∧ l ≠ [] ∧ (∀ l' ∈ l :: ls, '\r' ∉ l') ∧
      ((∀ l' ∈ ls, l' ≠ []) ↔ ¬crlfToken.text ++ (crlfToken.text ++ crlfToken.text) <:+: s) := by
  obtain ⟨_ | ⟨b, bs⟩, hne, rfl, hpart⟩ := Token.exists_ended h.ends
  · exact absurd rfl hne
  have hne_nil : ∀ {ps : List (List Char × List Char)}, ps ⊆ placeholders → ∀ s, replaceAll ps s = [] ↔ s = [] :=
    fun hsub s => replaceAll_eq_nil_iff fun p hp => placeholders_ne_nil p (hsub hp)
  have hhost : hostTexts ⊆ placeholders := List.take_subset _ _
  have hother : otherTexts ⊆ placeholders := List.drop_subset _ _
  -- What the replacements do to the parts.
  obtain ⟨cs, hcs⟩ : ∃ cs, cs = (b :: bs).map (replaceAll hostTexts) := ⟨_, rfl⟩
  have hfree : ∀ c ∈ cs, ¬crlfToken.text <:+: c := by
    intro c hc hinf
    rw [hcs] at hc
    obtain ⟨b', hb', rfl⟩ := List.mem_map.mp hc
    exact hpart b' hb' (infix_of_infix_replaceAll (fun p hp => ⟨(hostTexts_ok p hp).1.1, (hostTexts_ok p hp).2.2⟩) hinf)
  have hexpand : expand (crlfToken.ended (b :: bs)) = lines ((Token.collapse cs).map (replaceAll otherTexts)) := by
    have hfirst : replaceAll hostTexts (crlfToken.ended (b :: bs)) = crlfToken.ended cs := by
      rw [hcs]
      exact replaceAll_parts (fun p hp => ⟨(hostTexts_ok p hp).1.1, (hostTexts_ok p hp).2.1⟩) _
    rw [expand_eq_replaceAll, placeholders_runs, replaceAll_append, replaceAll_append, hfirst, replaceAll_runTexts hfree]
    exact replaceAll_parts (fun p hp => ⟨(otherTexts_ok p hp).1.1, (otherTexts_ok p hp).2⟩) _
  -- The lines have no line breaks in them.
  have hlines : ∀ l ∈ (Token.collapse cs).map (replaceAll otherTexts), '\r' ∉ l := by
    intro l hl hcr
    obtain ⟨c, hc, rfl⟩ := List.mem_map.mp hl
    have hc := Token.mem_of_mem_collapse hc
    rw [hcs] at hc
    obtain ⟨b', hb', rfl⟩ := List.mem_map.mp hc
    have hclean : ∀ x ∈ breaks, ¬x <:+: b' := by
      intro x hx hinf
      refine h.breaks x hx (hinf.trans ?_)
      obtain ⟨u, v, huv⟩ := List.append_of_mem hb'
      rw [huv]
      exact ⟨crlfToken.ended u, crlfToken.text ++ crlfToken.ended v, by simp [Token.ended]⟩
    have hhost := replaceAll_breaks (fun p hp => (hostTexts_ok p hp).1) hclean
    have hclean' := replaceAll_breaks (fun p hp => (otherTexts_ok p hp).1) hhost
    exact hclean' ['\r'] (by decide) ((List.singleton_infix_iff _ _).mpr hcr)
  have hcons : cs = replaceAll hostTexts b :: bs.map (replaceAll hostTexts) := hcs
  rw [hcons, collapse_cons, ← hcons, List.map_cons] at hexpand hlines
  refine ⟨_, _, hexpand, ?_, hlines, ?_⟩
  · intro hnil
    have hb : b = [] := (hne_nil hhost b).mp ((hne_nil hother _).mp hnil)
    subst hb
    refine h.starts ?_
    rw [Token.ended_cons]
    exact List.prefix_append _ _
  · have htail : cs.tail = bs.map (replaceAll hostTexts) := by
      rw [hcons]
      rfl
    have hrun : (∀ c ∈ (Token.collapse cs).tail, c ≠ []) ↔ ¬[[], []] <:+: bs := by
      rw [Token.collapse_tail_iff, htail, infix_pair_map_iff (hne_nil hhost)]
    rw [Token.three_infix_iff hpart, List.tail_cons, ← hrun]
    simp only [List.forall_mem_map, ne_eq, hne_nil hother]

/-- The headers belong to the head just when the piece has no three line ends in a row. -/
theorem oneHead_buildPayload_iff {f : Fields} {config id : List Char} {action : Nat} (h : Piece config)
    (haction : IsAction action) (hvalues : OneLine f action id) :
    OneHead (buildPayload f config action id) ↔
      ¬crlfToken.text ++ (crlfToken.text ++ crlfToken.text) <:+: config := by
  obtain ⟨l, ls, hexpand, hl, hcr, hiff⟩ := expand_piece h
  have hheaders := headerLines_ok haction hvalues
  have hrequest : buildPayload f config action id = lines (l :: (ls ++ headerLines f action id)) ++ crlf := by
    rw [buildPayload_lines f config id haction, hexpand, ← List.append_assoc, ← lines_append]
    rfl
  have hcr' : ∀ l' ∈ l :: (ls ++ headerLines f action id), '\r' ∉ l' := by
    intro l' hl'
    rw [← List.cons_append] at hl'
    rcases List.mem_append.mp hl' with hl' | hl'
    · exact hcr l' hl'
    · exact (hheaders l' hl').2
  rw [hrequest, oneHead_lines_iff hl hcr', ← hiff]
  refine ⟨fun h l' hl' => h l' (List.mem_append_left _ hl'), fun h l' hl' => ?_⟩
  rcases List.mem_append.mp hl' with hl' | hl'
  · exact h l' hl'
  · exact (hheaders l' hl').1

theorem piece_of_decide {s : List Char} (h : (∀ b ∈ breaks, ¬b <:+: s) ∧ ¬crlfToken.text <+: s ∧ crlfToken.text <:+ s) :
    Piece s := ⟨h.1, h.2.1, h.2.2⟩

theorem oneHead_two_line_ends :
    OneHead (buildPayload clientFields "GET / [protocol][crlf]Host: [host][crlf][crlf]".toList 1 "0".toList) ↔
      ¬crlfToken.text ++ (crlfToken.text ++ crlfToken.text) <:+:
        "GET / [protocol][crlf]Host: [host][crlf][crlf]".toList :=
  oneHead_buildPayload_iff (piece_of_decide (by decide)) (.inl rfl) (by unfold OneLine; decide)

/-- Three line ends at the end of a piece end the head before the first header. -/
theorem three_line_ends_two_heads :
    Piece "GET / [protocol][crlf][crlf][crlf]".toList ∧ OneLine clientFields 1 "0".toList ∧
      ¬OneHead (buildPayload clientFields "GET / [protocol][crlf][crlf][crlf]".toList 1 "0".toList) := by
  have hpiece : Piece "GET / [protocol][crlf][crlf][crlf]".toList := by
    rw [String.toList_ofList]
    exact piece_of_decide (by decide)
  refine ⟨hpiece, by unfold OneLine; decide, fun h => ?_⟩
  have hearly : buildPayload clientFields "GET / [protocol][crlf][crlf][crlf]".toList 1 "0".toList =
      "GET / HTTP/1.0".toList ++ (crlf ++ crlf ++
        "X-Action: create\r\nX-Target: 127.0.0.1:8443\r\nContent-Length: 0\r\n\r\n".toList) := by
    unfold buildPayload expand
    repeat rw [String.toList_ofList]
    decide
  exact absurd (h.once _ _ hearly) (by decide)

end Connection
end NicVpn
