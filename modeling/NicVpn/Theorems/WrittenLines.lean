import NicVpn.GetConfigFile
import NicVpn.Theorems.InlineBlocks

/-! Configurations that are written line by line: words and escaped arguments with blanks between them, comments,
    and files. Texts that are read for themselves are read one behind the other, so that what a writer puts together
    from pieces comes back as the options of the pieces. -/

namespace NicVpn
namespace ConfigParser

/-! ### Arguments -/

/-- An argument as it stands: no white space, no backslash, and no quote or comment at the front. -/
def isWord : List Char → Bool
  | [] => false
  | c :: w => !(c = '"' || c = '\'' || c = '#' || c = ';') && (c :: w).all fun d => !space d && d ≠ '\\'

abbrev Word (w : List Char) : Prop := isWord w = true

/-- A text that the parser takes as one argument wherever it ends at white space. -/
structure Token (text arg : List Char) : Prop where
  run : ∀ ps c line, space c = true →
    (Scan.between ps).run (text ++ c :: line) = (Scan.between (ps ++ [arg])).run (c :: line)
  no_feed : '\n' ∉ text
  no_return : '\r' ∉ text

section
variable {c : Char} {w s text arg : List Char} {args : Args}

theorem Word.chars (h : Word w) : ∀ c ∈ w, space c = false ∧ c ≠ '\\' := by
  cases w with
  | nil => cases h
  | cons c w =>
    obtain ⟨-, hall⟩ := Bool.and_eq_true_iff.mp h
    exact fun d hd => by simpa using List.all_eq_true.mp hall d hd

theorem Word.first (h : Word (c :: w)) : ¬Special c ∧ c ≠ '\'' := by
  have hback := (h.chars c List.mem_cons_self).2
  have hspace := (h.chars c List.mem_cons_self).1
  have hblank : c ≠ ' ' := by
    rintro rfl
    exact absurd hspace (by decide)
  obtain ⟨hfirst, -⟩ := Bool.and_eq_true_iff.mp h
  simp only [Bool.not_eq_true', Bool.or_eq_false_iff, decide_eq_false_iff_not] at hfirst
  obtain ⟨⟨⟨hquote, hsingle⟩, hhash⟩, hsemi⟩ := hfirst
  exact ⟨by simp [Special, hback, hblank, hquote, hhash, hsemi], hsingle⟩

theorem Word.ne_nil (h : Word w) : w ≠ [] := by
  rintro rfl
  cases h

theorem Word.not_mem (h : Word w) (hc : space c = true) : c ∉ w := fun hmem => by
  rw [(h.chars c hmem).1] at hc
  cases hc

theorem token_word (h : Word w) : Token w w where
  no_feed := h.not_mem (by decide)
  no_return := h.not_mem (by decide)
  run ps d line hd := by
    obtain ⟨c, x, rfl⟩ := List.exists_cons_of_ne_nil h.ne_nil
    obtain ⟨hspecial, hsingle⟩ := h.first
    obtain ⟨⟨hspace, -⟩, hx⟩ := List.forall_mem_cons.mp h.chars
    rw [List.cons_append, Scan.run_cons (Scan.step_token hspace hspecial hsingle), Scan.run_unquoted hx hd,
      Scan.run_space hd]
    rfl

theorem plain_not_mem (h : Plain arg) : '\n' ∉ arg ∧ '\r' ∉ arg :=
  ⟨fun hmem => (h _ hmem).1 rfl, fun hmem => (h _ hmem).2.1 rfl⟩

theorem not_mem_escaped {d : Char} (hd : d ≠ '\\' ∧ d ≠ '"') (h : d ∉ arg) : d ∉ arg.flatMap escapeChar := by
  intro hmem
  obtain ⟨c, hc, hmem⟩ := List.mem_flatMap.mp hmem
  by_cases hescape : c = '\\' ∨ c = '"'
  · have hpair : escapeChar c = ['\\', c] := by
      rcases hescape with rfl | rfl <;> decide
    rw [hpair] at hmem
    rcases List.mem_pair.mp hmem with rfl | rfl
    · exact hd.1 rfl
    · exact h hc
  · obtain ⟨hback, hquote⟩ := not_or.mp hescape
    rw [escapeChar_of_ne hback hquote, List.mem_singleton] at hmem
    exact h (hmem ▸ hc)

theorem not_mem_openVpnEscape (hplain : Plain arg) {d : Char} (hd : d ≠ '\\' ∧ d ≠ '"') (h : d ∉ arg) :
    d ∉ VpnProfile.openVpnEscape arg := by
  by_cases hq : Quoted arg
  · rw [openVpnEscape_of_quoted hplain hq]
    have hescaped := not_mem_escaped hd h
    simp [hd.2, hescaped]
  · rwa [openVpnEscape_of_not_quoted hplain hq]

theorem token_openVpnEscape (hplain : Plain arg) (h : Survives arg) :
    Token (VpnProfile.openVpnEscape arg) arg where
  no_feed := not_mem_openVpnEscape hplain (by decide) (plain_not_mem hplain).1
  no_return := not_mem_openVpnEscape hplain (by decide) (plain_not_mem hplain).2
  run ps d line hd := by
    rcases h with ⟨hq, hchars⟩ | ⟨hq, hsingle, hchars⟩
    · rw [Scan.run_openVpnEscape hplain hq, (doubled_zero_eq_self hplain).mpr hchars]
    · obtain ⟨c, x, rfl⟩ := List.exists_cons_of_ne_nil fun hnil => hq (.inl hnil)
      have hword : ∀ e ∈ c :: x, space e = false ∧ ¬Special e := by
        intro e he
        obtain ⟨hspecial, hzero⟩ := tail_of_not_quoted hplain hq e he
        exact ⟨by simp [space, hchars e he, hzero], hspecial⟩
      rw [openVpnEscape_of_not_quoted hplain hq]
      exact Scan.run_word hword (fun heq => hsingle (by rw [heq]; rfl)) hd

/-! ### Lines -/

/-- The arguments of a line, with blanks between them. -/
inductive IsLine : List Char → Args → Prop
  | nil : IsLine [] []
  | blank {s : List Char} {args : Args} (h : IsLine s args) : IsLine (' ' :: s) args
  | last {text arg : List Char} (h : Token text arg) : IsLine text [arg]
  | cons {text arg s : List Char} {args : Args} (h : Token text arg) (hs : IsLine s args) :
    IsLine (text ++ ' ' :: s) (arg :: args)

theorem IsLine.run (h : IsLine s args) (ps : List (List Char)) :
    (Scan.between ps).run (s ++ ['\x00']) = .ok (ps ++ args) := by
  have hspace : space ' ' = true := by decide
  have hzero : space '\x00' = true := by decide
  have hend : ∀ ps, (Scan.between ps).run ['\x00'] = .ok ps := fun ps => Scan.run_space hzero []
  induction h generalizing ps with
  | nil => rw [List.nil_append, hend, List.append_nil]
  | blank _ ih => rw [List.cons_append, Scan.run_space hspace, ih]
  | last h => rw [h.run ps _ _ hzero, hend]
  | cons h _ ih =>
    rw [List.append_assoc, List.cons_append, h.run ps _ _ hspace, Scan.run_space hspace, ih, List.append_assoc]
    rfl

theorem IsLine.parseline (h : IsLine s args) : parseline s = .ok args := by
  have hrun : (Scan.between []).run (s ++ ['\x00']) = .ok args := h.run []
  unfold ConfigParser.parseline
  split
  · next hs =>
    subst hs
    exact hrun
  · exact hrun

theorem IsLine.not_mem (h : IsLine s args) : '\n' ∉ s ∧ '\r' ∉ s := by
  induction h with
  | nil => simp
  | blank _ ih => simpa using ih
  | last h => exact ⟨h.no_feed, h.no_return⟩
  | cons h _ ih => simp [h.no_feed, h.no_return, ih.1, ih.2]

theorem IsLine.not_meta (h : IsLine s (arg :: args)) : ¬accessServer.isPrefixOf s = true := by
  intro hprefix
  obtain ⟨rest, rfl⟩ := List.isPrefixOf_iff_prefix.mp hprefix
  have hcomment : ConfigParser.parseline (accessServer ++ rest) = .ok [] := rfl
  rw [h.parseline] at hcomment
  cases hcomment

/-- The name of an option that the parser stores as it is. -/
structure IsOption (name : String) : Prop where
  no_dashes : ¬['-', '-'].isPrefixOf name.toList = true
  no_tag : tagName name.toList = none
  no_alias : optionAliases name = name

/-! ### Texts -/

/-- The lines of an option, in their order. -/
def Options.lines (o : Options) (n : String) : List Args := (o.filter (·.1 = n)).map (·.2)

/-- The lines of an option in groups of lines. -/
def linesOf (groups : List (String × List Args)) (n : String) : List Args := (groups.filter (·.1 = n)).flatMap (·.2)

/-- A text of whole lines, and the options that the parser reads of it, whatever follows. -/
structure ReadsOptions (text : List Char) (ls : List (List Char)) (o : Options) : Prop where
  no_return : '\r' ∉ text
  split : ∀ rest, Text.split ['\n'] (text ++ rest) = ls ++ Text.split ['\n'] rest
  parse : ∀ p rest, parseLines p .top (ls ++ rest) = parseLines { p with options := p.options ++ o } .top rest

/-- The parser reads the lines of the groups of a text. -/
def Reads (text : List Char) (groups : List (String × List Args)) : Prop :=
  ∃ ls o, ReadsOptions text ls o ∧ ∀ n, Options.lines o n = linesOf groups n

@[simp] theorem linesOf_nil (n : String) : linesOf [] n = [] := rfl

theorem linesOf_append (g g' : List (String × List Args)) (n : String) :
    linesOf (g ++ g') n = linesOf g n ++ linesOf g' n := by
  simp [linesOf]

theorem linesOf_cons (m : String) (ls : List Args) (g : List (String × List Args)) (n : String) :
    linesOf ((m, ls) :: g) n = (if m = n then ls else []) ++ linesOf g n := by
  by_cases hm : m = n <;> simp [linesOf, hm]

theorem Options.lines_append (o o' : Options) (n : String) : lines (o ++ o') n = lines o n ++ lines o' n := by
  simp [lines]

end

section
variable {t t' : List Char} {g g' : List (String × List Args)} {n : String} {ls ls' : List Args}

theorem reads_nil : Reads [] [] :=
  ⟨[], [], ⟨List.not_mem_nil, fun _ => rfl, fun p rest => by rw [List.append_nil]; rfl⟩, fun _ => rfl⟩

theorem Reads.append (h : Reads t g) (h' : Reads t' g') : Reads (t ++ t') (g ++ g') := by
  obtain ⟨ls, o, ⟨hreturn, hsplit, hparse⟩, ho⟩ := h
  obtain ⟨ls', o', ⟨hreturn', hsplit', hparse'⟩, ho'⟩ := h'
  refine ⟨ls ++ ls', o ++ o', ⟨?_, fun rest => ?_, fun p rest => ?_⟩, fun n => ?_⟩
  · exact List.mem_append.not.mpr (not_or.mpr ⟨hreturn, hreturn'⟩)
  · rw [List.append_assoc, hsplit, hsplit', List.append_assoc]
  · rw [List.append_assoc, hparse, hparse', List.append_assoc]
  · rw [Options.lines_append, linesOf_append, ho, ho']

theorem Reads.congr (h : Reads t g) (hg : ∀ n, linesOf g n = linesOf g' n) : Reads t g' := by
  obtain ⟨ls, o, hread, ho⟩ := h
  exact ⟨ls, o, hread, fun n => (ho n).trans (hg n)⟩

/-- No lines of an option are no group. -/
theorem linesOf_singleton_nil (m n : String) : linesOf [(m, [])] n = [] := by
  rw [linesOf_cons, ite_self]
  rfl

theorem reads_empty (n : String) : Reads [] [(n, [])] :=
  reads_nil.congr fun m => (linesOf_singleton_nil n m).symm

/-- Two groups of one option are one. -/
theorem Reads.merge (h : Reads t [(n, ls)]) (h' : Reads t' [(n, ls')]) : Reads (t ++ t') [(n, ls ++ ls')] := by
  refine (h.append h').congr fun m => ?_
  rw [List.singleton_append, linesOf_cons, linesOf_cons, linesOf_cons]
  split
  · exact (List.append_assoc _ _ _).symm
  · rfl

theorem reads_flatMap {α : Type} {as : List α} {text : α → List Char} {line : α → Args}
    (h : ∀ a ∈ as, Reads (text a) [(n, [line a])]) : Reads (as.flatMap text) [(n, as.map line)] := by
  induction as with
  | nil => exact reads_empty n
  | cons a as ih =>
    obtain ⟨ha, has⟩ := List.forall_mem_cons.mp h
    exact ha.merge (ih has)

theorem reads_textIf {c : Bool} (h : c = true → Reads t [(n, ls)]) :
    Reads (textIf c t) [(n, if c then ls else [])] := by
  cases c with
  | false => exact reads_empty n
  | true => exact h rfl

/-! ### What is written -/

/-- The text of one line, which is more than its line feed if it is given at all. -/
theorem split_line (h : '\n' ∉ t) (rest : List Char) :
    Text.split ['\n'] (t ++ ['\n'] ++ rest) = [t] ++ Text.split ['\n'] rest := by
  rw [List.append_assoc, List.singleton_append, Text.split_append_cons h, List.singleton_append]

theorem reads_line (hn : IsOption n) {args : Args} (h : IsLine t (n.toList :: args)) :
    Reads (t ++ ['\n']) [(n, [n.toList :: args])] := by
  obtain ⟨hfeed, hreturn⟩ := h.not_mem
  refine ⟨[t], [(n, n.toList :: args)], ⟨?_, split_line hfeed, fun p rest => ?_⟩, fun m => ?_⟩
  · simp [hreturn]
  · have hadd : p.add n.toList args = { p with options := p.options ++ [(n, n.toList :: args)] } := by
      rw [Parsed.add, String.ofList_toList, hn.no_alias]
    rw [List.singleton_append, parseLines, if_neg h.not_meta, h.parseline]
    dsimp only
    rw [if_neg hn.no_dashes, hn.no_tag, hadd]
  · rw [linesOf_cons]
    by_cases hm : n = m <;> simp [Options.lines, linesOf, hm]

/-- A line of which nothing is read. -/
theorem reads_ignored (hfeed : '\n' ∉ t) (hreturn : '\r' ∉ t) (hmeta : ¬accessServer.isPrefixOf t = true)
    (h : parseline t = .ok []) : Reads (t ++ ['\n']) [] := by
  refine ⟨[t], [], ⟨?_, split_line hfeed, fun p rest => ?_⟩, fun _ => rfl⟩
  · simp [hreturn]
  · rw [List.singleton_append, parseLines, if_neg hmeta, h, List.append_nil]

/-- What comes back of a file: the name that is shown is lost. -/
def readFile (filedata : List Char) : List Char :=
  if VpnProfile.isEmbedded filedata then inlineTag ++ VpnProfile.getEmbeddedContent filedata else filedata

/-- A file that can be written as an option: its data does not end the block, or its name comes back. -/
structure IsFile (n : String) (filedata : List Char) : Prop where
  block : VpnProfile.isEmbedded filedata = true → Block n.toList (VpnProfile.getEmbeddedContent filedata)
  plain : VpnProfile.isEmbedded filedata = false → Plain filedata
  survives : VpnProfile.isEmbedded filedata = false → Survives filedata

theorem insertFileData_embedded {tag filedata : List Char} (h : VpnProfile.isEmbedded filedata = true) :
    VpnProfile.insertFileData tag filedata =
      starttag tag ++ '\n' :: (VpnProfile.getEmbeddedContent filedata ++ '\n' :: (endtag tag ++ ['\n'])) := by
  rw [VpnProfile.insertFileData, if_pos h]
  simp [starttag, endtag]

theorem reads_block {data : List Char} (h : Block n.toList data) :
    Reads (VpnProfile.insertFileData n.toList (VpnProfile.inlineTag ++ data)) [(n, [[n.toList, inlineTag ++ data]])] := by
  have hn : String.ofList n.toList = n := String.ofList_toList
  have hadd : ∀ p : Parsed, p.add n.toList [inlineTag ++ data] =
      { p with options := p.options ++ [(n, [n.toList, inlineTag ++ data])] } := fun p => by
    rw [Parsed.add, h.not_alias, hn]
  refine ⟨blockLines n.toList data, [(n, [n.toList, inlineTag ++ data])], ⟨?_, ?_, fun p rest => ?_⟩, fun m => ?_⟩
  · have htag : '\r' ∉ n.toList := not_mem_of_isName h.name (by decide)
    have hdata := h.no_return
    rw [insertFileData_inline]
    simp [starttag, endtag, htag, hdata]
  · exact split_insertFileData h.name data
  · rw [parseLines_block h, hadd]
  · rw [linesOf_cons]
    by_cases hm : n = m <;> simp [Options.lines, linesOf, hm]

theorem reads_file (hn : IsOption n) (hword : Word n.toList) {filedata : List Char} (h : IsFile n filedata) :
    Reads (VpnProfile.insertFileData n.toList filedata) [(n, [[n.toList, readFile filedata]])] := by
  unfold readFile
  cases hembedded : VpnProfile.isEmbedded filedata with
  | true =>
    rw [if_pos rfl, insertFileData_embedded hembedded, ← insertFileData_inline]
    exact reads_block (h.block hembedded)
  | false =>
    have hline : IsLine (n.toList ++ ' ' :: VpnProfile.openVpnEscape filedata) [n.toList, filedata] :=
      .cons (token_word hword) (.last (token_openVpnEscape (h.plain hembedded) (h.survives hembedded)))
    have htext : VpnProfile.insertFileData n.toList filedata =
        n.toList ++ ' ' :: VpnProfile.openVpnEscape filedata ++ ['\n'] := by
      rw [VpnProfile.insertFileData, if_neg (by rw [hembedded]; decide)]
      simp
    rw [if_neg (by decide), htext]
    exact reads_line hn hline

/-- A configuration that begins with a comment is read as the groups of its text. -/
theorem parseConfig_of_reads {text : List Char} (h : Reads text g) (ht : text = '#' :: t) :
    ∃ o, parseConfig text = .ok { options := o, metas := [] } ∧ ∀ n, Options.lines o n = linesOf g n := by
  obtain ⟨ls, o, ⟨hreturn, hsplit, hparse⟩, ho⟩ := h
  have hlines : Text.split ['\n'] text = ls ++ [[]] := by
    have hend := hsplit []
    rwa [List.append_nil] at hend
  have hread : readLines text = ls := by
    unfold readLines
    rw [Text.lines_eq_split hreturn, hlines]
    simp
  obtain ⟨line, rest, hls⟩ : ∃ line rest, ls = ('#' :: line) :: rest := by
    have hjoin := Text.intercalate_split (List.cons_ne_nil '\n' []) text
    rw [hlines, ht] at hjoin
    match ls, hjoin with
    | [], hjoin => cases hjoin
    | [] :: l :: ls, hjoin => exact absurd (List.cons.inj hjoin).1 (by decide)
    | [[]], hjoin => exact absurd (List.cons.inj hjoin).1 (by decide)
    | (c :: line) :: ls, hjoin =>
      have hc : c = '#' := by
        cases ls <;> exact (List.cons.inj hjoin).1
      exact ⟨line, ls, by rw [hc]⟩
  have hfirst : firstLine ('#' :: line) = .ok ('#' :: line) := rfl
  refine ⟨o, ?_, ho⟩
  have hdone := hparse {} []
  rw [List.append_nil, hls] at hdone
  rw [parseConfig, hread, hls]
  dsimp only
  rw [hfirst]
  exact hdone

/-- Of a text nothing else is read than the lines of its groups. -/
theorem mem_linesOf {o : Options} (ho : ∀ n, Options.lines o n = linesOf g n) {line : String × Args} (h : line ∈ o) :
    ∃ p ∈ g, p.1 = line.1 ∧ line.2 ∈ p.2 := by
  have hmem : line.2 ∈ Options.lines o line.1 := List.mem_map.mpr ⟨line, by simp [h], rfl⟩
  rw [ho] at hmem
  obtain ⟨p, hp, hline⟩ := List.mem_flatMap.mp hmem
  obtain ⟨hp, hname⟩ := List.mem_filter.mp hp
  exact ⟨p, hp, of_decide_eq_true hname, hline⟩

/-- The lines of one of several groups with different names. -/
theorem linesOf_of_nodup (hnodup : (g.map (·.1)).Nodup) (h : (n, ls) ∈ g) : linesOf g n = ls := by
  induction g with
  | nil => cases h
  | cons p g ih =>
    obtain ⟨m, ls'⟩ := p
    obtain ⟨hnot, hnodup⟩ := List.nodup_cons.mp hnodup
    rw [linesOf_cons]
    rcases List.mem_cons.mp h with heq | h
    · cases heq
      have hrest : linesOf g n = [] := by
        refine List.flatMap_eq_nil_iff.mpr fun p hp => ?_
        obtain ⟨hp, hname⟩ := List.mem_filter.mp hp
        exact absurd (List.mem_map.mpr ⟨p, hp, of_decide_eq_true hname⟩) hnot
      rw [if_pos rfl, hrest, List.append_nil]
    · have hmn : m ≠ n := fun heq => hnot (List.mem_map.mpr ⟨_, h, heq.symm⟩)
      rw [if_neg hmn, List.nil_append, ih hnodup h]

end
end ConfigParser
end NicVpn
