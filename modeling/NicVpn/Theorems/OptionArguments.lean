import NicVpn.ConfigParser
import NicVpn.Lib.Joined
import NicVpn.VpnProfile

/-! Arguments that are escaped, written on one line and cut out of it again. The parser keeps the last character in
    `out` while it reads a backslash, so that this character is stored twice. -/

namespace NicVpn
namespace ConfigParser

/-- What `openVpnEscape` writes for a character. -/
def escapeChar (c : Char) : List Char :=
  if c = '\\' then ['\\', '\\'] else if c = '"' then ['\\', '"'] else [c]

def Special (c : Char) : Prop := c = '\\' ∨ c = '"' ∨ c = ' ' ∨ c = '#' ∨ c = ';'

/-- An argument that is written between quotes. -/
def Quoted (arg : List Char) : Prop := arg = [] ∨ ∃ c ∈ arg, Special c

/-- A text of the characters that have a place on a line. -/
def Plain (arg : List Char) : Prop := ∀ c ∈ arg, c ≠ '\n' ∧ c ≠ '\r' ∧ c ≠ '\x00'

/-! ### Escaping -/

theorem escaped_eq {arg : List Char} (h : Plain arg) :
    Text.replace ['\n'] ['\\', 'n'] (Text.replace ['"'] ['\\', '"'] (Text.replace ['\\'] ['\\', '\\'] arg)) =
      arg.flatMap escapeChar := by
  simp only [Text.replace_singleton, List.flatMap_assoc]
  refine List.flatMap_congr fun c hc => ?_
  have hline := (h c hc).1
  by_cases hback : c = '\\'
  · subst hback
    decide
  by_cases hquote : c = '"'
  · subst hquote
    decide
  simp [escapeChar, hback, hquote, hline]

theorem length_escapeChar {c : Char} (h : c = '\\' ∨ c = '"') : (escapeChar c).length = 2 := by
  rcases h with rfl | rfl <;> decide

theorem escapeChar_of_ne {c : Char} (hback : c ≠ '\\') (hquote : c ≠ '"') : escapeChar c = [c] := by
  rw [escapeChar, if_neg hback, if_neg hquote]

theorem length_escaped (arg : List Char) : arg.length ≤ (arg.flatMap escapeChar).length := by
  induction arg with
  | nil => exact Nat.le_refl _
  | cons c arg ih =>
    have hpos : 1 ≤ (escapeChar c).length := by
      by_cases hc : c = '\\' ∨ c = '"'
      · rw [length_escapeChar hc]
        decide
      · obtain ⟨hback, hquote⟩ := not_or.mp hc
        rw [escapeChar_of_ne hback hquote]
        exact Nat.le_refl _
    rw [List.flatMap_cons, List.length_append, List.length_cons]
    omega

theorem escaped_eq_self {arg : List Char} : arg.flatMap escapeChar = arg ↔ ∀ c ∈ arg, ¬(c = '\\' ∨ c = '"') := by
  induction arg with
  | nil => simp
  | cons c arg ih =>
    rw [List.forall_mem_cons, ← ih, List.flatMap_cons]
    by_cases hc : c = '\\' ∨ c = '"'
    · refine iff_of_false (fun heq => ?_) fun h => h.1 hc
      have hlength := congrArg List.length heq
      have hrest := length_escaped arg
      rw [List.length_append, length_escapeChar hc, List.length_cons] at hlength
      omega
    · obtain ⟨hback, hquote⟩ := not_or.mp hc
      rw [escapeChar_of_ne hback hquote]
      simp [hc]

/-- The condition under which `openVpnEscape` leaves the quotes out. -/
theorem not_quoted_iff {arg : List Char} : ¬Quoted arg ↔ (arg.flatMap escapeChar = arg ∧ ' ' ∉ arg.flatMap escapeChar ∧
    '#' ∉ arg.flatMap escapeChar ∧ ';' ∉ arg.flatMap escapeChar ∧ arg.flatMap escapeChar ≠ []) := by
  constructor
  · intro h
    obtain ⟨hne, hspecial⟩ := not_or.mp h
    have hnot : ∀ c ∈ arg, ¬Special c := fun c hc hs => hspecial ⟨c, hc, hs⟩
    have hsame : arg.flatMap escapeChar = arg :=
      escaped_eq_self.mpr fun c hc h => hnot c hc (h.imp_right .inl)
    rw [hsame]
    refine ⟨rfl, fun hc => hnot _ hc ?_, fun hc => hnot _ hc ?_, fun hc => hnot _ hc ?_, hne⟩ <;> simp [Special]
  · rintro ⟨hsame, hspace, hhash, hsemi, hne⟩ hq
    have hchars := escaped_eq_self.mp hsame
    rw [hsame] at hspace hhash hsemi hne
    rcases hq with rfl | ⟨c, hc, rfl | rfl | rfl | rfl | rfl⟩
    · exact hne rfl
    · exact hchars _ hc (.inl rfl)
    · exact hchars _ hc (.inr rfl)
    · exact hspace hc
    · exact hhash hc
    · exact hsemi hc

section
variable {arg : List Char}

theorem openVpnEscape_of_quoted (h : Plain arg) (hq : Quoted arg) :
    VpnProfile.openVpnEscape arg = '"' :: (arg.flatMap escapeChar ++ ['"']) := by
  unfold VpnProfile.openVpnEscape
  dsimp only
  rw [escaped_eq h, if_neg fun hcond => not_quoted_iff.mpr hcond hq, List.cons_append]

theorem openVpnEscape_of_not_quoted (h : Plain arg) (hq : ¬Quoted arg) : VpnProfile.openVpnEscape arg = arg := by
  unfold VpnProfile.openVpnEscape
  dsimp only
  rw [escaped_eq h, if_pos (not_quoted_iff.mp hq)]

end

/-! ### One character -/

namespace Scan

/-- Between two arguments. -/
def between (ps : List (List Char)) : Scan := { parameters := ps }

/-- In an argument. -/
def reading (state : LineState) (out : Char) (arg : List Char) (ps : List (List Char)) : Scan :=
  { state := state, out := out, currentarg := arg, parameters := ps }

section
variable {s s' : Scan} {c out : Char} {arg line : List Char} {ps : List (List Char)}

theorem run_cons (h : s.step c = .ok (some s')) (line : List Char) : s.run (c :: line) = s'.run line := by
  rw [run, h]
  rfl

theorem ne_of_space {d : Char} (h : space c = true) (hd : space d = false) : c ≠ d := by
  rintro rfl
  rw [h] at hd
  cases hd

theorem step_space (h : space c = true) : (between ps).step c = .ok (some (between ps)) := by
  have hback : c ≠ '\\' := ne_of_space h (by decide)
  simp [step, next, finish, store, between, h, hback]

theorem step_token (h : space c = false) (hspecial : ¬Special c) (hsingle : c ≠ '\'') :
    (between ps).step c = .ok (some (reading .readingUnquoted c [c] ps)) := by
  simp only [Special, not_or] at hspecial
  obtain ⟨hback, hquote, -, hhash, hsemi⟩ := hspecial
  have hzero : c ≠ '\x00' := (ne_of_space (d := c) (by decide) h).symm
  simp [step, next, finish, store, between, reading, h, hback, hquote, hhash, hsemi, hsingle, hzero]

theorem step_quote : (between ps).step '"' = .ok (some (reading .readingQuoted '\x00' [] ps)) := by
  have h : space '"' = false := by decide
  simp [step, next, finish, store, between, reading, h]

theorem step_single : (between ps).step '\'' = .ok (some (reading .readinSingleQuote '\x00' [] ps)) := by
  have h : space '\'' = false := by decide
  simp [step, next, finish, store, between, reading, h]

theorem step_unquoted (h : space c = false) (hback : c ≠ '\\') :
    (reading .readingUnquoted out arg ps).step c = .ok (some (reading .readingUnquoted c (arg ++ [c]) ps)) := by
  have hzero : c ≠ '\x00' := (ne_of_space (d := c) (by decide) h).symm
  simp [step, next, finish, store, reading, h, hback, hzero]

theorem step_unquoted_space (h : space c = true) :
    (reading .readingUnquoted out arg ps).step c = .ok (some (between (ps ++ [arg]))) := by
  have hback : c ≠ '\\' := ne_of_space h (by decide)
  simp [step, next, finish, store, between, reading, h, hback]

theorem step_quoted (hback : c ≠ '\\') (hquote : c ≠ '"') (hzero : c ≠ '\x00') :
    (reading .readingQuoted out arg ps).step c = .ok (some (reading .readingQuoted c (arg ++ [c]) ps)) := by
  simp [step, next, finish, store, reading, hback, hquote, hzero]

theorem step_quoted_end : (reading .readingQuoted out arg ps).step '"' = .ok (some (between (ps ++ [arg]))) := by
  simp [step, next, finish, store, between, reading]

theorem step_single_char (hsingle : c ≠ '\'') (hzero : c ≠ '\x00') :
    (reading .readinSingleQuote out arg ps).step c = .ok (some (reading .readinSingleQuote c (arg ++ [c]) ps)) := by
  simp [step, next, finish, store, reading, hsingle, hzero]

theorem step_single_end :
    (reading .readinSingleQuote out arg ps).step '\'' = .ok (some (between (ps ++ [arg]))) := by
  simp [step, next, finish, store, between, reading]

theorem run_single_zero : (reading .readinSingleQuote out arg ps).run ['\x00'] = .ok ps := by
  have hstep : (reading .readinSingleQuote out arg ps).step '\x00' =
      .ok (some (reading .readinSingleQuote '\x00' arg ps)) := by
    simp [step, next, finish, store, reading]
  rw [run_cons hstep]
  rfl

/-- What is in `out` is stored a second time before the character behind a backslash. -/
theorem run_escaped (h : c = '\\' ∨ c = '"') (line : List Char) :
    (reading .readingQuoted out arg ps).run ('\\' :: c :: line) =
      (reading .readingQuoted c (arg ++ (if out = '\x00' then [] else [out]) ++ [c]) ps).run line := by
  have hback : (reading .readingQuoted out arg ps).step '\\' = .ok (some { reading .readingQuoted out
      (arg ++ (if out = '\x00' then [] else [out])) ps with backslash := true }) := by
    by_cases hout : out = '\x00' <;> simp [step, store, reading, hout]
  rw [run_cons hback]
  refine run_cons ?_ line
  rcases h with rfl | rfl <;> simp [step, next, finish, store, reading]

/-! ### One argument -/

theorem run_space (h : space c = true) (line : List Char) : (between ps).run (c :: line) = (between ps).run line :=
  run_cons (step_space h) line

theorem run_spaces {w : List Char} (h : ∀ c ∈ w, space c = true) (line : List Char) :
    (between ps).run (w ++ line) = (between ps).run line := by
  induction w with
  | nil => rfl
  | cons c w ih =>
    obtain ⟨hc, hw⟩ := List.forall_mem_cons.mp h
    rw [List.cons_append, run_space hc, ih hw]

theorem run_unquoted {x : List Char} (hx : ∀ d ∈ x, space d = false ∧ d ≠ '\\') (hc : space c = true) :
    (reading .readingUnquoted out arg ps).run (x ++ c :: line) = (between (ps ++ [arg ++ x])).run line := by
  induction x generalizing out arg with
  | nil =>
    rw [List.nil_append, List.append_nil, run_cons (step_unquoted_space hc)]
  | cons d x ih =>
    obtain ⟨⟨hspace, hback⟩, hx⟩ := List.forall_mem_cons.mp hx
    rw [List.cons_append, run_cons (step_unquoted hspace hback), ih hx, List.append_assoc]
    rfl

/-- A word that ends at white space, which is left for what follows. -/
theorem run_word {x : List Char} (hx : ∀ d ∈ c :: x, space d = false ∧ ¬Special d) (hsingle : c ≠ '\'') {d : Char}
    (hd : space d = true) : (between ps).run (c :: x ++ d :: line) = (between (ps ++ [c :: x])).run (d :: line) := by
  obtain ⟨⟨hspace, hspecial⟩, hx⟩ := List.forall_mem_cons.mp hx
  have hplain : ∀ e ∈ x, space e = false ∧ e ≠ '\\' := fun e he => (hx e he).imp_right fun hs heq => hs (.inl heq)
  rw [List.cons_append, run_cons (step_token hspace hspecial hsingle), run_unquoted hplain hd, run_space hd]
  rfl

theorem run_single {x : List Char} (hx : ∀ d ∈ x, d ≠ '\'' ∧ d ≠ '\x00') :
    ∃ out', (reading .readinSingleQuote out arg ps).run (x ++ line) =
      (reading .readinSingleQuote out' (arg ++ x) ps).run line := by
  induction x generalizing out arg with
  | nil => exact ⟨out, by rw [List.nil_append, List.append_nil]⟩
  | cons d x ih =>
    obtain ⟨⟨hsingle, hzero⟩, hx⟩ := List.forall_mem_cons.mp hx
    rw [List.cons_append, run_cons (step_single_char hsingle hzero), ← List.singleton_append (l := x),
      ← List.append_assoc]
    exact ih hx

/-- What stands between two single quotes, whatever it is. -/
theorem run_single_closed {x : List Char} (hx : ∀ d ∈ x, d ≠ '\'' ∧ d ≠ '\x00') :
    (between ps).run ('\'' :: (x ++ '\'' :: line)) = (between (ps ++ [x])).run line := by
  rw [run_cons step_single]
  obtain ⟨out', hrun⟩ := run_single hx
  rw [hrun, run_cons step_single_end, List.nil_append]

theorem run_single_open {x : List Char} (hx : ∀ d ∈ x, d ≠ '\'' ∧ d ≠ '\x00') :
    (between ps).run ('\'' :: (x ++ ['\x00'])) = .ok ps := by
  rw [run_cons step_single]
  obtain ⟨out', hrun⟩ := run_single hx
  rw [hrun, run_single_zero]

end
end Scan

/-- What comes out of an argument between quotes: the character before a backslash or a quote comes twice. -/
def doubled (out : Char) : List Char → List Char
  | [] => []
  | c :: arg => (if (c = '\\' ∨ c = '"') ∧ out ≠ '\x00' then [out] else []) ++ c :: doubled c arg

@[simp] theorem doubled_nil (out : Char) : doubled out [] = [] := rfl

theorem doubled_cons (out c : Char) (arg : List Char) :
    doubled out (c :: arg) = (if (c = '\\' ∨ c = '"') ∧ out ≠ '\x00' then [out] else []) ++ c :: doubled c arg :=
  rfl

namespace Scan

theorem run_quoted {x : List Char} (hx : Plain x) (out : Char) (arg line : List Char) (ps : List (List Char)) :
    (reading .readingQuoted out arg ps).run (x.flatMap escapeChar ++ '"' :: line) =
      (between (ps ++ [arg ++ doubled out x])).run line := by
  induction x generalizing out arg with
  | nil =>
    rw [List.flatMap_nil, List.nil_append, run_cons step_quoted_end, doubled_nil, List.append_nil]
  | cons c x ih =>
    obtain ⟨⟨-, -, hzero⟩, hx⟩ := List.forall_mem_cons.mp hx
    rw [List.flatMap_cons, List.append_assoc, doubled_cons]
    by_cases hc : c = '\\' ∨ c = '"'
    · have hescape : escapeChar c = ['\\', c] := by
        rcases hc with rfl | rfl <;> decide
      rw [hescape]
      show (reading .readingQuoted out arg ps).run ('\\' :: c :: (x.flatMap escapeChar ++ '"' :: line)) = _
      rw [run_escaped hc, ih hx]
      by_cases hout : out = '\x00' <;> simp [hc, hout]
    · obtain ⟨hback, hquote⟩ := not_or.mp hc
      rw [escapeChar_of_ne hback hquote]
      show (reading .readingQuoted out arg ps).run (c :: (x.flatMap escapeChar ++ '"' :: line)) = _
      rw [run_cons (step_quoted hback hquote hzero), ih hx]
      simp [hc]

theorem run_openVpnEscape {x : List Char} (hx : Plain x) (hq : Quoted x) (line : List Char) (ps : List (List Char)) :
    (between ps).run (VpnProfile.openVpnEscape x ++ line) = (between (ps ++ [doubled '\x00' x])).run line := by
  rw [openVpnEscape_of_quoted hx hq, List.cons_append, List.append_assoc, run_cons step_quote]
  exact run_quoted hx '\x00' [] line ps

end Scan

/-! ### Doubled characters -/

section
variable {out : Char} {arg : List Char}

theorem length_doubled (out : Char) (arg : List Char) : arg.length ≤ (doubled out arg).length := by
  induction arg generalizing out with
  | nil => exact Nat.le_refl _
  | cons c arg ih =>
    have hrest := ih c
    rw [doubled_cons, List.length_append, List.length_cons, List.length_cons]
    omega

theorem mem_doubled {c : Char} (h : c ∈ arg) : c ∈ doubled out arg := by
  induction arg generalizing out with
  | nil => cases h
  | cons d arg ih =>
    rw [doubled_cons]
    refine List.mem_append_right _ ?_
    rcases List.mem_cons.mp h with rfl | h
    · exact List.mem_cons_self
    · exact List.mem_cons_of_mem _ (ih h)

/-- What comes out between quotes still needs the quotes. -/
theorem Quoted.doubled (h : Quoted arg) : Quoted (doubled out arg) := by
  rcases h with rfl | ⟨c, hc, hspecial⟩
  · exact .inl rfl
  · exact .inr ⟨c, mem_doubled hc, hspecial⟩

theorem doubled_eq_self (harg : Plain arg) (hout : out ≠ '\x00') :
    doubled out arg = arg ↔ ∀ c ∈ arg, ¬(c = '\\' ∨ c = '"') := by
  induction arg generalizing out with
  | nil => simp
  | cons c arg ih =>
    obtain ⟨⟨-, -, hzero⟩, harg⟩ := List.forall_mem_cons.mp harg
    rw [List.forall_mem_cons, ← ih harg hzero, doubled_cons]
    by_cases hc : c = '\\' ∨ c = '"'
    · refine iff_of_false (fun heq => ?_) fun h => h.1 hc
      have hlength := congrArg List.length heq
      have hrest := length_doubled c arg
      rw [if_pos ⟨hc, hout⟩, List.singleton_append, List.length_cons, List.length_cons, List.length_cons] at hlength
      omega
    · simp [hc]

theorem doubled_zero_eq_self (harg : Plain arg) :
    doubled '\x00' arg = arg ↔ ∀ c ∈ arg.drop 1, ¬(c = '\\' ∨ c = '"') := by
  cases arg with
  | nil => simp
  | cons c arg =>
    obtain ⟨⟨-, -, hzero⟩, harg⟩ := List.forall_mem_cons.mp harg
    rw [List.drop_one, List.tail_cons, ← doubled_eq_self harg hzero, doubled_cons]
    simp

end

/-! ### The line -/

/-- The arguments behind other ones. -/
def body (args : Args) : List Char := args.flatMap fun arg => ' ' :: VpnProfile.openVpnEscape arg

/-- With the zero at the end of the line. -/
def behind (args : Args) : List Char := body args ++ ['\x00']

theorem behind_cons (arg : List Char) (args : Args) :
    behind (arg :: args) = ' ' :: (VpnProfile.openVpnEscape arg ++ behind args) := by
  simp [behind, body]

/-- An argument on a line ends at white space. -/
theorem exists_behind (args : Args) : ∃ c line, behind args = c :: line ∧ space c = true := by
  cases args with
  | nil => exact ⟨'\x00', [], rfl, by decide⟩
  | cons arg args => exact ⟨' ', _, behind_cons arg args, by decide⟩

theorem openVpnEscape_ne_nil {arg : List Char} (h : Plain arg) : VpnProfile.openVpnEscape arg ≠ [] := by
  by_cases hq : Quoted arg
  · rw [openVpnEscape_of_quoted h hq]
    exact List.cons_ne_nil _ _
  · rw [openVpnEscape_of_not_quoted h hq]
    exact fun hnil => hq (.inl hnil)

theorem zero_not_mem_openVpnEscape {arg : List Char} (h : Plain arg) : '\x00' ∉ VpnProfile.openVpnEscape arg := by
  have hzero : '\x00' ∉ arg := fun hmem => (h _ hmem).2.2 rfl
  by_cases hq : Quoted arg
  · rw [openVpnEscape_of_quoted h hq]
    simp only [List.mem_cons, List.mem_append, List.mem_flatMap, List.not_mem_nil, or_false, not_or, not_exists, not_and]
    refine ⟨by decide, fun c hc hmem => ?_, by decide⟩
    by_cases hescape : c = '\\' ∨ c = '"'
    · revert hmem
      rcases hescape with rfl | rfl <;> decide
    · obtain ⟨hback, hquote⟩ := not_or.mp hescape
      rw [escapeChar_of_ne hback hquote, List.mem_singleton] at hmem
      exact hzero (hmem ▸ hc)
  · rwa [openVpnEscape_of_not_quoted h hq]

theorem zero_not_mem_body {args : Args} (h : ∀ arg ∈ args, Plain arg) : '\x00' ∉ body args := by
  intro hmem
  obtain ⟨arg, harg, hmem⟩ := List.mem_flatMap.mp hmem
  rcases List.mem_cons.mp hmem with hspace | hmem
  · exact absurd hspace (by decide)
  · exact zero_not_mem_openVpnEscape (h arg harg) hmem

theorem cons_join {args : Args} (hne : args ≠ []) :
    ' ' :: Joined.join ' ' (args.map VpnProfile.openVpnEscape) = body args := by
  induction args with
  | nil => exact absurd rfl hne
  | cons arg args ih =>
    by_cases hargs : args = []
    · subst hargs
      simp [body]
    · rw [List.map_cons, Joined.join_cons (by simpa using hargs), ih hargs]
      simp [body]

theorem parseline_join {args : Args} (hne : args ≠ []) (h : ∀ arg ∈ args, Plain arg) :
    parseline (Joined.join ' ' (args.map VpnProfile.openVpnEscape)) = (Scan.between []).run (behind args) := by
  have htext : Joined.join ' ' (args.map VpnProfile.openVpnEscape) ≠ [] := by
    refine Joined.join_ne_nil (by simpa using hne) fun x hx => ?_
    obtain ⟨arg, harg, rfl⟩ := List.mem_map.mp hx
    exact openVpnEscape_ne_nil (h arg harg)
  have hspace : space ' ' = true := by decide
  rw [parseline, if_neg htext, behind, ← cons_join hne, List.cons_append, Scan.run_space hspace]
  rfl

/-! ### The first argument that comes out -/

/-- What is left of an argument that was written without quotes. -/
def Tail (t : List Char) : Prop := ∀ c ∈ t, ¬Special c ∧ c ≠ '\x00'

theorem tail_of_not_quoted {arg : List Char} (h : Plain arg) (hq : ¬Quoted arg) : Tail arg := fun c hc =>
  ⟨fun hs => hq (.inr ⟨c, hc, hs⟩), (h c hc).2.2⟩

/-- The first argument that comes out of a text: none, one without white space, one that needs quotes, or one that
    stood between two single quotes of the same argument. -/
inductive First (ps : List (List Char)) (args : Args) (text : List Char) : Prop
  | nothing (hrun : (Scan.between ps).run text = .ok ps)
  | word (e line : List Char) (hrun : (Scan.between ps).run text = (Scan.between (ps ++ [e])).run line)
      (hspace : ∀ c ∈ e, space c = false) (hsingle : e.head? ≠ some '\'')
  | quoted (e line : List Char) (hrun : (Scan.between ps).run text = (Scan.between (ps ++ [e])).run line) (hq : Quoted e)
  | inside (e t : List Char) (args' : Args)
      (hrun : (Scan.between ps).run text = (Scan.between (ps ++ [e])).run (t ++ behind args')) (hsingle : '\'' ∉ e) (ht : Tail t) (hargs : args' <:+ args) (hlt : (t ++ behind args').length < text.length)

section
variable {ps : List (List Char)} {args args' : Args} {text text' t : List Char}

theorem First.of_run (h : First ps args text) (hrun : (Scan.between ps).run text' = (Scan.between ps).run text)
    (hlen : text.length ≤ text'.length) (hargs : args <:+ args') : First ps args' text' := by
  cases h with
  | nothing h => exact .nothing (hrun.trans h)
  | word e line h hspace hsingle => exact .word e line (hrun.trans h) hspace hsingle
  | quoted e line h hq => exact .quoted e line (hrun.trans h) hq
  | inside e t args'' h hsingle ht hsuffix hlt =>
    exact .inside e t args'' (hrun.trans h) hsingle ht (hsuffix.trans hargs) (Nat.lt_of_lt_of_le hlt hlen)

/-- A word and the white space behind it. -/
theorem exists_word (ht : Tail t) (args : Args) : ∃ x d line, t ++ behind args = x ++ d :: line ∧
    (∀ c ∈ x, space c = false ∧ ¬Special c) ∧ space d = true := by
  induction t with
  | nil =>
    obtain ⟨d, line, hbehind, hd⟩ := exists_behind args
    exact ⟨[], d, line, hbehind, fun _ h => absurd h List.not_mem_nil, hd⟩
  | cons c t ih =>
    obtain ⟨⟨hspecial, -⟩, ht⟩ := List.forall_mem_cons.mp ht
    by_cases hc : space c = true
    · exact ⟨[], c, t ++ behind args, rfl, fun _ h => absurd h List.not_mem_nil, hc⟩
    · obtain ⟨x, d, line, heq, hx, hd⟩ := ih ht
      refine ⟨c :: x, d, line, ?_, List.forall_mem_cons.mpr ⟨⟨Bool.not_eq_true _ ▸ hc, hspecial⟩, hx⟩, hd⟩
      rw [List.cons_append, heq, List.cons_append]

/-- A single quote that ends in the same argument, in a later one, or not at all. -/
theorem first_of_single (hargs : ∀ arg ∈ args, Plain arg) (ht : Tail t) : First ps args ('\'' :: (t ++ behind args)) := by
  have hzero : ∀ {x : List Char}, (∀ c ∈ x, c ≠ '\x00') → '\'' ∉ x → ∀ c ∈ x, c ≠ '\'' ∧ c ≠ '\x00' :=
    fun hx hnot c hc => ⟨fun heq => hnot (heq ▸ hc), hx c hc⟩
  by_cases hmem : '\'' ∈ t
  · obtain ⟨x, t', rfl, hx⟩ := List.eq_append_cons_of_mem hmem
    have hplain := hzero (fun c hc => (ht c (List.mem_append_left _ hc)).2) hx
    refine .inside x t' args ?_ hx (fun c hc => ht c (List.mem_append_right _ (List.mem_cons_of_mem _ hc)))
      (List.suffix_refl _) ?_
    · rw [List.append_assoc, List.cons_append, Scan.run_single_closed hplain]
    · simp only [List.length_cons, List.length_append]
      omega
  · by_cases hlater : '\'' ∈ body args
    · obtain ⟨x, line, hbody, hx⟩ := List.eq_append_cons_of_mem hlater
      have hplain : ∀ c ∈ t ++ x, c ≠ '\'' ∧ c ≠ '\x00' := by
        refine hzero (fun c hc => ?_) fun hc => (List.mem_append.mp hc).elim hmem hx
        rcases List.mem_append.mp hc with hc | hc
        · exact (ht c hc).2
        · rintro rfl
          exact zero_not_mem_body hargs (hbody ▸ List.mem_append_left _ hc)
      have hspace : ' ' ∈ x := by
        cases args with
        | nil => cases hlater
        | cons arg args =>
          cases x with
          | nil => exact absurd (List.cons.inj hbody).1 (by decide)
          | cons d x =>
            rw [← (List.cons.inj hbody).1]
            exact List.mem_cons_self
      refine .quoted (t ++ x) (line ++ ['\x00']) ?_ (.inr ⟨' ', List.mem_append_right _ hspace, .inr (.inr (.inl rfl))⟩)
      rw [behind, hbody, List.append_assoc, List.cons_append, ← List.append_assoc, Scan.run_single_closed hplain]
    · refine .nothing ?_
      have hplain : ∀ c ∈ t ++ body args, c ≠ '\'' ∧ c ≠ '\x00' := by
        refine hzero (fun c hc => ?_) fun hc => (List.mem_append.mp hc).elim hmem hlater
        rcases List.mem_append.mp hc with hc | hc
        · exact (ht c hc).2
        · rintro rfl
          exact zero_not_mem_body hargs hc
      rw [behind, ← List.append_assoc, Scan.run_single_open hplain]

theorem first_of_tail (hargs : ∀ arg ∈ args, Plain arg) (ht : Tail t) (h : First ps args (behind args)) :
    First ps args (t ++ behind args) := by
  induction t with
  | nil => exact h
  | cons c t ih =>
    obtain ⟨⟨hspecial, -⟩, ht'⟩ := List.forall_mem_cons.mp ht
    by_cases hc : space c = true
    · exact (ih ht').of_run (Scan.run_space hc _) (Nat.le_succ _) (List.suffix_refl _)
    by_cases hsingle : c = '\''
    · subst hsingle
      exact first_of_single hargs ht'
    · obtain ⟨x, d, line, heq, hx, hd⟩ := exists_word ht' args
      have hword : ∀ e ∈ c :: x, space e = false ∧ ¬Special e :=
        List.forall_mem_cons.mpr ⟨⟨Bool.not_eq_true _ ▸ hc, hspecial⟩, hx⟩
      refine .word (c :: x) (d :: line) ?_ (fun e he => (hword e he).1) ?_
      · rw [List.cons_append, heq]
        exact Scan.run_word hword hsingle hd
      · rw [List.head?_cons]
        exact fun heq => hsingle (Option.some.inj heq)

theorem first_behind (hargs : ∀ arg ∈ args, Plain arg) : First ps args (behind args) := by
  induction args with
  | nil =>
    have hzero : space '\x00' = true := by decide
    exact .nothing (Scan.run_space hzero [])
  | cons arg args ih =>
    obtain ⟨harg, hargs⟩ := List.forall_mem_cons.mp hargs
    have hspace : space ' ' = true := by decide
    have hrun : (Scan.between ps).run (' ' :: (VpnProfile.openVpnEscape arg ++ behind args)) =
        (Scan.between ps).run (VpnProfile.openVpnEscape arg ++ behind args) := Scan.run_space hspace _
    rw [behind_cons]
    by_cases hq : Quoted arg
    · exact .quoted (doubled '\x00' arg) (behind args) (hrun.trans (Scan.run_openVpnEscape harg hq _ _)) hq.doubled
    · rw [openVpnEscape_of_not_quoted harg hq] at hrun ⊢
      exact (first_of_tail hargs (tail_of_not_quoted harg hq) (ih hargs)).of_run hrun (Nat.le_succ _)
        (List.suffix_cons arg args)

end

/-! ### What survives -/

namespace Scan

/-- Arguments that are stored stay stored. -/
theorem parameters_step {s s' : Scan} {c : Char} (h : s.step c = .ok (some s')) : s.parameters <+: s'.parameters := by
  have hnext : ∀ t, s.next c = some t → t.parameters = s.parameters := by
    intro t ht
    unfold next at ht
    split at ht
    · split at ht
      · cases ht
        rfl
      · split at ht
        · cases ht
        · split at ht
          · cases ht
            rfl
          · split at ht <;> cases ht <;> rfl
    · split at ht <;> cases ht <;> rfl
    · split at ht <;> cases ht <;> rfl
    · split at ht <;> cases ht <;> rfl
    · cases ht
      rfl
  have hstore : ∀ t : Scan, t.store.parameters = t.parameters := by
    intro t
    unfold store
    split <;> rfl
  have hfinish : ∀ t : Scan, t.parameters <+: t.finish.parameters := by
    intro t
    unfold finish
    split
    · exact List.prefix_append _ _
    · exact List.prefix_refl _
  unfold step at h
  split at h
  · cases h
    exact (hstore _).symm ▸ List.prefix_refl _
  · split at h
    · cases h
    · rename_i t ht
      dsimp only at h
      split at h
      · cases h
      · cases h
        rw [hstore, ← hnext t ht]
        exact hfinish t

theorem parameters_run {s : Scan} {line : List Char} {r : List (List Char)} (h : s.run line = .ok r) :
    s.parameters <+: r := by
  induction line generalizing s with
  | nil =>
    cases h
    exact List.prefix_refl _
  | cons c line ih =>
    rw [run] at h
    cases hstep : s.step c with
    | error e =>
      rw [hstep] at h
      cases h
    | ok next =>
      rw [hstep] at h
      cases next with
      | none =>
        cases h
        exact List.prefix_refl _
      | some s' => exact (parameters_step hstep).trans (ih h)

/-- The first argument that comes out is the first one of the result. -/
theorem eq_of_run {ps more : List (List Char)} {e x line : List Char}
    (h : (between (ps ++ [e])).run line = .ok (ps ++ x :: more)) : e = x := by
  have hprefix := (List.prefix_append_right_inj ps).mp (parameters_run h)
  exact (List.cons_prefix_cons.mp hprefix).1

end Scan

/-- An argument that comes back: between quotes it has no backslash and no quote behind its first character, and
    without quotes it has no white space and does not begin with a single quote. -/
def Survives (arg : List Char) : Prop :=
  (Quoted arg ∧ ∀ c ∈ arg.drop 1, ¬(c = '\\' ∨ c = '"')) ∨
    (¬Quoted arg ∧ arg.head? ≠ some '\'' ∧ ∀ c ∈ arg, isWhitespace c = false)

/-- White space that is written without quotes: nothing comes out of it. -/
structure Blank (arg : List Char) : Prop where
  ne_nil : arg ≠ []
  not_quoted : ¬Quoted arg
  space : ∀ c ∈ arg, space c = true

/-- An argument with a single quote in it that is not the text of a word. -/
structure Hidden (arg : List Char) : Prop where
  not_quoted : ¬Quoted arg
  mem : '\'' ∈ arg
  not_word : arg.head? = some '\'' ∨ ∃ c ∈ arg, space c = true

theorem Blank.ne_word {x : List Char} (h : Blank x) : ¬∀ c ∈ x, ConfigParser.space c = false := by
  intro hx
  obtain ⟨c, x, rfl⟩ := List.exists_cons_of_ne_nil h.ne_nil
  have hc := h.space c List.mem_cons_self
  rw [hx c List.mem_cons_self] at hc
  cases hc

theorem Hidden.ne_word {y : List Char} (h : Hidden y) (hsingle : y.head? ≠ some '\'') : ¬∀ c ∈ y, space c = false := by
  intro hy
  rcases h.not_word with hhead | ⟨c, hc, hspace⟩
  · exact hsingle hhead
  · rw [hy c hc] at hspace
    cases hspace

/-- White space can come out of single quotes only, and what follows it then never does. -/
theorem run_ne_of_hidden {y : List Char} (hy : Hidden y) {more : List (List Char)} (n : Nat) {ps xs : List (List Char)}
    {args : Args} {t : List Char} (hn : (t ++ behind args).length ≤ n) (hargs : ∀ arg ∈ args, Plain arg) (ht : Tail t)
    (hxs : ∀ x ∈ xs, Blank x) : (Scan.between ps).run (t ++ behind args) ≠ .ok (ps ++ (xs ++ y :: more)) := by
  induction n using Nat.strongRecOn generalizing ps xs args t with
  | ind n ih =>
    intro hok
    have hfirst : First ps args (t ++ behind args) := first_of_tail hargs ht (first_behind hargs)
    cases hfirst with
    | nothing hrun =>
      rw [hrun] at hok
      have hlength := congrArg List.length (Except.ok.inj hok)
      simp at hlength
    | word e line hrun hspace hsingle =>
      rw [hrun] at hok
      cases xs with
      | nil =>
        cases Scan.eq_of_run hok
        exact hy.ne_word hsingle hspace
      | cons x xs =>
        cases Scan.eq_of_run hok
        exact (hxs _ List.mem_cons_self).ne_word hspace
    | quoted e line hrun hq =>
      rw [hrun] at hok
      cases xs with
      | nil =>
        cases Scan.eq_of_run hok
        exact hy.not_quoted hq
      | cons x xs =>
        cases Scan.eq_of_run hok
        exact (hxs _ List.mem_cons_self).not_quoted hq
    | inside e t' args' hrun hsingle ht' hsuffix hlt =>
      rw [hrun] at hok
      cases xs with
      | nil =>
        cases Scan.eq_of_run hok
        exact hsingle hy.mem
      | cons x xs =>
        cases Scan.eq_of_run hok
        have hrest : (Scan.between (ps ++ [e])).run (t' ++ behind args') ≠ .ok (ps ++ [e] ++ (xs ++ y :: more)) :=
          ih (t' ++ behind args').length (by omega) (Nat.le_refl _) (fun arg harg => hargs arg (hsuffix.mem harg)) ht'
            fun x hx => hxs x (List.mem_cons_of_mem _ hx)
        rw [hok] at hrest
        simp at hrest

section
variable {ps : List (List Char)} {arg y : List Char} {args xs zs : Args}

theorem run_survives (harg : Plain arg) (h : Survives arg) (args : Args) :
    (Scan.between ps).run (behind (arg :: args)) = (Scan.between (ps ++ [arg])).run (behind args) := by
  have hspace : space ' ' = true := by decide
  rw [behind_cons, Scan.run_space hspace]
  rcases h with ⟨hq, hchars⟩ | ⟨hq, hsingle, hchars⟩
  · rw [Scan.run_openVpnEscape harg hq, (doubled_zero_eq_self harg).mpr hchars]
  · obtain ⟨c, x, rfl⟩ := List.exists_cons_of_ne_nil fun hnil => hq (.inl hnil)
    obtain ⟨d, line, hbehind, hd⟩ := exists_behind args
    have hword : ∀ e ∈ c :: x, space e = false ∧ ¬Special e := by
      intro e he
      obtain ⟨hspecial, hzero⟩ := tail_of_not_quoted harg hq e he
      exact ⟨by simp [space, hchars e he, hzero], hspecial⟩
    rw [openVpnEscape_of_not_quoted harg hq, hbehind, Scan.run_word hword (fun heq => hsingle (by rw [heq]; rfl)) hd]

theorem run_blanks (ps : List (List Char)) (hxs : ∀ x ∈ xs, Blank x) (hplain : ∀ x ∈ xs, Plain x) (args : Args) :
    (Scan.between ps).run (behind (xs ++ args)) = (Scan.between ps).run (behind args) := by
  induction xs with
  | nil => rfl
  | cons x xs ih =>
    obtain ⟨hx, hxs⟩ := List.forall_mem_cons.mp hxs
    obtain ⟨hxplain, hplain⟩ := List.forall_mem_cons.mp hplain
    have hspace : space ' ' = true := by decide
    rw [List.cons_append, behind_cons, Scan.run_space hspace, openVpnEscape_of_not_quoted hxplain hx.not_quoted,
      Scan.run_spaces hx.space, ih hxs hplain]

theorem exists_first (y : List Char) :
    (∀ c ∈ y, space c = true) ∨ ∃ w c r, y = w ++ c :: r ∧ (∀ d ∈ w, space d = true) ∧ space c = false := by
  induction y with
  | nil => exact .inl fun _ h => absurd h List.not_mem_nil
  | cons c y ih =>
    by_cases hc : space c = true
    · rcases ih with hall | ⟨w, d, r, rfl, hw, hd⟩
      · exact .inl (List.forall_mem_cons.mpr ⟨hc, hall⟩)
      · exact .inr ⟨c :: w, d, r, rfl, List.forall_mem_cons.mpr ⟨hc, hw⟩, hd⟩
    · exact .inr ⟨[], c, y, rfl, fun _ h => absurd h List.not_mem_nil, Bool.not_eq_true _ ▸ hc⟩

/-- Without quotes an argument is white space, hides a single quote, or begins with a word. -/
theorem word_of_not_hidden (ps : List (List Char)) (hplain : Plain y) (hq : ¬Quoted y) (hblank : ¬Blank y)
    (hhidden : ¬Hidden y) (zs : Args) :
    ∃ e line, (Scan.between ps).run (behind (y :: zs)) = (Scan.between (ps ++ [e])).run line ∧
      (∀ c ∈ e, space c = false) ∧ e.head? ≠ some '\'' := by
  have hspace : space ' ' = true := by decide
  have htail := tail_of_not_quoted hplain hq
  rcases exists_first y with hall | ⟨w, c, r, rfl, hw, hc⟩
  · exact absurd ⟨fun hnil => hq (.inl hnil), hq, hall⟩ hblank
  have hsingle : c ≠ '\'' := by
    rintro rfl
    refine hhidden ⟨hq, List.mem_append_right _ List.mem_cons_self, ?_⟩
    cases w with
    | nil => exact .inl rfl
    | cons d w => exact .inr ⟨d, List.mem_cons_self, hw d List.mem_cons_self⟩
  have hr : Tail r := fun e he => htail e (List.mem_append_right _ (List.mem_cons_of_mem _ he))
  have hspecial := (htail c (List.mem_append_right _ List.mem_cons_self)).1
  obtain ⟨x, d, line, heq, hx, hd⟩ := exists_word hr zs
  have hword : ∀ e ∈ c :: x, space e = false ∧ ¬Special e := List.forall_mem_cons.mpr ⟨⟨hc, hspecial⟩, hx⟩
  refine ⟨c :: x, d :: line, ?_, fun e he => (hword e he).1, fun heq => hsingle (Option.some.inj heq)⟩
  rw [behind_cons, Scan.run_space hspace, openVpnEscape_of_not_quoted hplain hq, List.append_assoc,
    Scan.run_spaces hw, List.cons_append, heq]
  exact Scan.run_word hword hsingle hd

/-- The first argument that is more than white space has none before it, if all come back. -/
theorem survives_of_run (hxs : ∀ x ∈ xs, Blank x) (hy : ¬Blank y) (hplain : ∀ a ∈ xs ++ y :: zs, Plain a)
    (hok : (Scan.between ps).run (behind (xs ++ y :: zs)) = .ok (ps ++ (xs ++ y :: zs))) : xs = [] ∧ Survives y := by
  have hyplain : Plain y := hplain y (List.mem_append_right _ List.mem_cons_self)
  have hrun := run_blanks ps hxs (fun x hx => hplain x (List.mem_append_left _ hx)) (y :: zs)
  by_cases hhidden : Hidden y
  · exact absurd hok (run_ne_of_hidden hhidden _ (Nat.le_refl _) hplain (fun _ h => absurd h List.not_mem_nil) hxs)
  rw [hrun] at hok
  by_cases hq : Quoted y
  · have hspace : space ' ' = true := by decide
    rw [behind_cons, Scan.run_space hspace, Scan.run_openVpnEscape hyplain hq] at hok
    cases xs with
    | nil => exact ⟨rfl, .inl ⟨hq, (doubled_zero_eq_self hyplain).mp (Scan.eq_of_run hok)⟩⟩
    | cons x xs =>
      have hx := (hxs x List.mem_cons_self).not_quoted
      rw [← Scan.eq_of_run hok] at hx
      exact absurd hq.doubled hx
  · obtain ⟨e, line, hword, hspace, hsingle⟩ := word_of_not_hidden ps hyplain hq hy hhidden zs
    rw [hword] at hok
    cases xs with
    | nil =>
      cases Scan.eq_of_run hok
      refine ⟨rfl, .inr ⟨hq, hsingle, fun c hc => ?_⟩⟩
      have hc := hspace c hc
      exact (Bool.or_eq_false_iff.mp hc).1
    | cons x xs =>
      cases Scan.eq_of_run hok
      exact absurd hspace (hxs _ List.mem_cons_self).ne_word

theorem exists_not_blank (args : Args) :
    (∀ a ∈ args, Blank a) ∨ ∃ xs y zs, args = xs ++ y :: zs ∧ (∀ x ∈ xs, Blank x) ∧ ¬Blank y := by
  induction args with
  | nil => exact .inl fun _ h => absurd h List.not_mem_nil
  | cons a args ih =>
    by_cases ha : Blank a
    · rcases ih with hall | ⟨xs, y, zs, rfl, hxs, hy⟩
      · exact .inl (List.forall_mem_cons.mpr ⟨ha, hall⟩)
      · exact .inr ⟨a :: xs, y, zs, rfl, List.forall_mem_cons.mpr ⟨ha, hxs⟩, hy⟩
    · exact .inr ⟨[], a, args, rfl, fun _ h => absurd h List.not_mem_nil, ha⟩

theorem run_behind_iff (hplain : ∀ a ∈ args, Plain a) :
    (Scan.between ps).run (behind args) = .ok (ps ++ args) ↔ ∀ a ∈ args, Survives a := by
  induction args generalizing ps with
  | nil =>
    have hzero : space '\x00' = true := by decide
    have hrun : (Scan.between ps).run (behind []) = .ok ps := Scan.run_space hzero []
    simp [hrun]
  | cons a args ih =>
    obtain ⟨ha, hargs⟩ := List.forall_mem_cons.mp hplain
    have hstep : Survives a → ((Scan.between ps).run (behind (a :: args)) = .ok (ps ++ a :: args) ↔
        ∀ b ∈ args, Survives b) := fun hs => by
      have hrest : (Scan.between (ps ++ [a])).run (behind args) = .ok (ps ++ [a] ++ args) ↔ ∀ b ∈ args, Survives b :=
        ih hargs
      rw [run_survives ha hs, ← hrest, List.append_assoc, List.singleton_append]
    rw [List.forall_mem_cons]
    refine ⟨fun hok => ?_, fun h => (hstep h.1).mpr h.2⟩
    have hs : Survives a := by
      rcases exists_not_blank (a :: args) with hall | ⟨xs, y, zs, heq, hxs, hy⟩
      · have hrun := run_blanks ps hall hplain []
        have hzero : space '\x00' = true := by decide
        have hnil : (Scan.between ps).run (behind []) = .ok ps := Scan.run_space hzero []
        rw [List.append_nil, hnil, hok] at hrun
        have hlength := congrArg List.length (Except.ok.inj hrun)
        simp at hlength
      · rw [heq] at hok hplain
        obtain ⟨rfl, hs⟩ := survives_of_run hxs hy hplain hok
        cases heq
        exact hs
    exact ⟨hs, (hstep hs).mp hok⟩

/-- Escaped arguments come back from their line just when every one of them survives. -/
theorem parseline_openVpnEscape (hne : args ≠ []) (hplain : ∀ a ∈ args, Plain a) :
    parseline (Joined.join ' ' (args.map VpnProfile.openVpnEscape)) = .ok args ↔ ∀ a ∈ args, Survives a := by
  rw [parseline_join hne hplain]
  exact run_behind_iff hplain

end

theorem parseline_openVpnEscape_setenv :
    parseline (Joined.join ' ' (["setenv".toList, "a b;".toList].map VpnProfile.openVpnEscape)) =
      .ok ["setenv".toList, "a b;".toList] := by
  have hplain : ∀ a ∈ ["setenv".toList, "a b;".toList], Plain a := by
    simp [Plain]
  have hsurvive : ∀ a ∈ ["setenv".toList, "a b;".toList], Survives a := by
    simp only [Survives, Quoted, Special, isWhitespace]
    simp
    decide
  exact (parseline_openVpnEscape (List.cons_ne_nil _ _) hplain).mpr hsurvive

/-- The character before a backslash comes back twice. -/
theorem backslash_lost : ¬∀ args : Args, args ≠ [] → (∀ a ∈ args, Plain a) →
    parseline (Joined.join ' ' (args.map VpnProfile.openVpnEscape)) = .ok args := by
  intro hall
  have hplain : ∀ a ∈ ["cd".toList, "C:\\vpn".toList], Plain a := by
    simp [Plain]
  have hback := hall _ (List.cons_ne_nil _ _) hplain
  have hline : parseline (Joined.join ' ' (["cd".toList, "C:\\vpn".toList].map VpnProfile.openVpnEscape)) =
      .ok ["cd".toList, "C::\\vpn".toList] := by
    decide
  rw [hline] at hback
  exact absurd hback (by decide)

end ConfigParser
end NicVpn
