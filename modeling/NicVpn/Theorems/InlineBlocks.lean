import NicVpn.Lib.Replace
import NicVpn.Theorems.OptionArguments

/-! Inline blocks `<tag>` .. `</tag>` that are written one after the other and read again. The reader puts a line feed
    behind each line and takes the last one away, which is the one that the writer put before the end tag. -/

namespace NicVpn
namespace ConfigParser

/-- A tag that the parser takes as one word: letters, digits and hyphens make one. -/
def IsName (tag : List Char) : Prop := ∀ c ∈ tag, ¬c ≤ ' ' ∧ isWhitespace c = false ∧ c ≠ '\\'

/-- A tag and data that stand inline: the data has no carriage return and does not end the block. -/
structure Block (tag data : List Char) : Prop where
  name : IsName tag
  not_alias : optionAliases (String.ofList tag) = String.ofList tag
  no_return : '\r' ∉ data
  not_ended : ∀ line ∈ Text.split ['\n'] data, Text.trim line ≠ endtag tag

theorem isName_of_alphanum {tag : List Char} (h : ∀ c ∈ tag, c.isAlphanum = true ∨ c = '-') : IsName tag := by
  intro c hc
  rcases h c hc with hc | rfl
  · have hrange : 48 ≤ c.toNat ∧ c.toNat ≤ 122 ∧ c.toNat ≠ 92 := by
      change ((decide (c.val ≥ 65 ∧ c.val ≤ 90) || decide (c.val ≥ 97) && decide (c.val ≤ 122)) ||
        decide (c.val ≥ 48) && decide (c.val ≤ 57)) = true at hc
      simp only [Bool.or_eq_true, Bool.and_eq_true, decide_eq_true_eq, ge_iff_le, UInt32.le_iff_toNat_le] at hc
      change ((65 ≤ c.toNat ∧ c.toNat ≤ 90) ∨ (97 ≤ c.toNat ∧ c.toNat ≤ 122)) ∨ (48 ≤ c.toNat ∧ c.toNat ≤ 57) at hc
      omega
    refine ⟨fun hle => ?_, ?_, ?_⟩
    · have hle : c.toNat ≤ 32 := hle
      omega
    · simp only [isWhitespace, Text.isWhitespace]
      grind
    · rintro rfl
      exact hrange.2.2 rfl
  · decide

/-! ### Tags -/

def starttag (tag : List Char) : List Char := '<' :: tag ++ ['>']

theorem not_mem_tags {tag : List Char} {c : Char} (hc : c ∉ tag) (h : c ∉ "</>".toList) :
    c ∉ starttag tag ∧ c ∉ endtag tag := by
  rw [String.toList_ofList] at h
  simp only [List.mem_cons, List.not_mem_nil, or_false, not_or] at h
  simp [starttag, endtag, hc, h]

theorem trim_of_ends {s : List Char} {a b : Char} (ha : ¬a ≤ ' ') (hb : ¬b ≤ ' ') :
    Text.trim (a :: s ++ [b]) = a :: s ++ [b] := by
  have hback : (a :: s ++ [b]).reverse = b :: (a :: s).reverse := List.reverse_concat
  unfold Text.trim
  rw [List.cons_append, List.dropWhile_cons_of_neg (by simpa using ha), ← List.cons_append, hback,
    List.dropWhile_cons_of_neg (by simpa using hb), ← hback, List.reverse_reverse]

theorem trim_endtag (tag : List Char) : Text.trim (endtag tag) = endtag tag :=
  trim_of_ends (a := '<') (s := '/' :: tag) (b := '>') (by decide) (by decide)

theorem tagName_starttag (tag : List Char) : tagName (starttag tag) = some tag := by
  have htrim : Text.trim (starttag tag) = starttag tag := trim_of_ends (by decide) (by decide)
  have hstart : ['<'].isPrefixOf (starttag tag) = true := by simp [starttag]
  have hend : ['>'].isSuffixOf (starttag tag) = true := List.isSuffixOf_iff_suffix.mpr (List.suffix_append _ _)
  unfold tagName
  simp only [htrim, hstart, hend, and_self, ↓reduceIte]
  simp [starttag]

theorem parseline_starttag {tag : List Char} (h : IsName tag) : parseline (starttag tag) = .ok [starttag tag] := by
  have hfirst : space '<' = false ∧ ¬Special '<' := by simp [Special]; decide
  have hchars : ∀ c ∈ tag ++ ['>'], space c = false ∧ c ≠ '\\' := by
    intro c hc
    rcases List.mem_append.mp hc with hc | hc
    · obtain ⟨hblank, hwhite, hback⟩ := h c hc
      have hzero : c ≠ '\x00' := by
        rintro rfl
        exact hblank (by decide)
      exact ⟨by simp [space, hwhite, hzero], hback⟩
    · rw [List.mem_singleton.mp hc]
      decide
  have hzero : space '\x00' = true := by decide
  have hne : starttag tag ≠ [] := List.cons_ne_nil _ _
  rw [parseline, if_neg hne]
  show (Scan.between []).run ('<' :: ((tag ++ ['>']) ++ ['\x00'])) = _
  rw [Scan.run_cons (Scan.step_token hfirst.1 hfirst.2 (by decide)), Scan.run_unquoted hchars hzero]
  rfl

/-! ### Lines -/

section
variable {tag data acc : List Char} {p : Parsed}

theorem parseLines_starttag (h : IsName tag) (p : Parsed) (lines : List (List Char)) :
    parseLines p .top (starttag tag :: lines) = parseLines p (.inline tag inlineTag) lines := by
  have hmeta : ¬accessServer.isPrefixOf (starttag tag) = true := by
    have hhead : accessServer.head? = some '#' := by decide
    intro hprefix
    obtain ⟨rest, hrest⟩ := List.isPrefixOf_iff_prefix.mp hprefix
    have hfirst := congrArg List.head? hrest
    rw [List.head?_append, hhead] at hfirst
    exact absurd (Option.some.inj hfirst) (by decide)
  have hdashes : ¬['-', '-'].isPrefixOf (starttag tag) = true := by
    simp [starttag]
  rw [parseLines, if_neg hmeta, parseline_starttag h]
  dsimp only
  rw [if_neg hdashes, tagName_starttag]

/-- The lines of the data, each with its line feed. -/
theorem parseLines_data {lines : List (List Char)} (h : ∀ line ∈ lines, Text.trim line ≠ endtag tag)
    (rest : List (List Char)) :
    parseLines p (.inline tag acc) (lines ++ rest) =
      parseLines p (.inline tag (acc ++ lines.flatMap (· ++ ['\n']))) rest := by
  induction lines generalizing acc with
  | nil => rw [List.nil_append, List.flatMap_nil, List.append_nil]
  | cons line lines ih =>
    obtain ⟨hline, hlines⟩ := List.forall_mem_cons.mp h
    rw [List.cons_append]
    refine (if_neg hline).trans ?_
    rw [ih hlines, List.flatMap_cons]
    simp

theorem parseLines_endtag (acc : List Char) (lines : List (List Char)) :
    parseLines p (.inline tag (acc ++ ['\n'])) (endtag tag :: lines) = parseLines (p.add tag [acc]) .top lines := by
  have hend : ['\n'].isSuffixOf (acc ++ ['\n']) = true := List.isSuffixOf_iff_suffix.mpr (List.suffix_append _ _)
  refine (if_pos (trim_endtag tag)).trans ?_
  rw [if_pos hend, List.dropLast_concat]

theorem flatMap_split (data : List Char) : (Text.split ['\n'] data).flatMap (· ++ ['\n']) = data ++ ['\n'] := by
  have hjoin := Text.intercalate_split (List.cons_ne_nil '\n' []) data
  have hne : Text.split ['\n'] data ≠ [] := Text.splitFrom_ne_nil _ _ _ _
  rw [Joined.flatMap_append_singleton hne]
  exact congrArg (· ++ ['\n']) hjoin

/-- The lines of a block. -/
def blockLines (tag data : List Char) : List (List Char) := starttag tag :: (Text.split ['\n'] data ++ [endtag tag])

theorem parseLines_block (h : Block tag data) (p : Parsed) (lines : List (List Char)) :
    parseLines p .top (blockLines tag data ++ lines) = parseLines (p.add tag [inlineTag ++ data]) .top lines := by
  rw [blockLines, List.cons_append, List.append_assoc, parseLines_starttag h.name, parseLines_data h.not_ended,
    flatMap_split, ← List.append_assoc]
  exact parseLines_endtag _ _

/-- What a block puts into the options. -/
def entry (tag data : List Char) : String × Args := (String.ofList tag, [tag, inlineTag ++ data])

theorem parseLines_blocks {blocks : List (List Char × List Char)} (h : ∀ b ∈ blocks, Block b.1 b.2) (p : Parsed) :
    parseLines p .top (blocks.flatMap fun b => blockLines b.1 b.2) =
      .ok { p with options := p.options ++ blocks.map fun b => entry b.1 b.2 } := by
  induction blocks generalizing p with
  | nil =>
    rw [List.map_nil, List.append_nil]
    rfl
  | cons b blocks ih =>
    obtain ⟨hb, hblocks⟩ := List.forall_mem_cons.mp h
    rw [List.flatMap_cons, parseLines_block hb, ih hblocks, Parsed.add, hb.not_alias]
    simp [entry]

/-! ### The text -/

theorem insertFileData_inline (tag data : List Char) :
    VpnProfile.insertFileData tag (VpnProfile.inlineTag ++ data) =
      starttag tag ++ '\n' :: (data ++ '\n' :: (endtag tag ++ ['\n'])) := by
  have hembedded : VpnProfile.isEmbedded (VpnProfile.inlineTag ++ data) = true := by
    have hprefix : VpnProfile.inlineTag.isPrefixOf (VpnProfile.inlineTag ++ data) = true :=
      List.isPrefixOf_iff_prefix.mpr (List.prefix_append _ _)
    rw [VpnProfile.isEmbedded, hprefix, Bool.true_or]
  have hcontent : VpnProfile.getEmbeddedContent (VpnProfile.inlineTag ++ data) = data := by
    have hindex : Text.indexOf VpnProfile.inlineTag (VpnProfile.inlineTag ++ data) = some 0 := by
      have hprefix : VpnProfile.inlineTag.isPrefixOf (VpnProfile.inlineTag ++ data) = true :=
        List.isPrefixOf_iff_prefix.mpr (List.prefix_append _ _)
      exact if_pos hprefix
    rw [VpnProfile.getEmbeddedContent, hindex]
    dsimp only
    rw [Nat.zero_add, List.drop_left]
  rw [VpnProfile.insertFileData, if_pos hembedded, hcontent]
  simp [starttag, endtag]

theorem not_mem_of_isName (h : IsName tag) {c : Char} (hc : c ≤ ' ') : c ∉ tag := fun hmem => (h c hmem).1 hc

theorem split_insertFileData (h : IsName tag) (data rest : List Char) :
    Text.split ['\n'] (VpnProfile.insertFileData tag (VpnProfile.inlineTag ++ data) ++ rest) =
      blockLines tag data ++ Text.split ['\n'] rest := by
  obtain ⟨hstart, hend⟩ := not_mem_tags (not_mem_of_isName h (by decide : '\n' ≤ ' ')) (by decide)
  rw [insertFileData_inline, List.append_assoc, List.cons_append, Text.split_append_cons hstart, List.append_assoc,
    List.cons_append, Text.split_append, List.append_assoc, List.singleton_append, Text.split_append_cons hend, blockLines]
  simp

theorem readLines_blocks {blocks : List (List Char × List Char)} (h : ∀ b ∈ blocks, Block b.1 b.2) :
    readLines (blocks.flatMap fun b => VpnProfile.insertFileData b.1 (VpnProfile.inlineTag ++ b.2)) =
      blocks.flatMap fun b => blockLines b.1 b.2 := by
  have hreturn : '\r' ∉ blocks.flatMap fun b => VpnProfile.insertFileData b.1 (VpnProfile.inlineTag ++ b.2) := by
    intro hmem
    obtain ⟨b, hb, hmem⟩ := List.mem_flatMap.mp hmem
    obtain ⟨hstart, hend⟩ := not_mem_tags (not_mem_of_isName (h b hb).name (by decide : '\r' ≤ ' ')) (by decide)
    rw [insertFileData_inline] at hmem
    simp [hstart, hend, (h b hb).no_return] at hmem
  have hsplit : Text.split ['\n'] (blocks.flatMap fun b => VpnProfile.insertFileData b.1 (VpnProfile.inlineTag ++ b.2)) =
      (blocks.flatMap fun b => blockLines b.1 b.2) ++ [[]] := by
    clear hreturn
    induction blocks with
    | nil => rfl
    | cons b blocks ih =>
      obtain ⟨hb, hblocks⟩ := List.forall_mem_cons.mp h
      rw [List.flatMap_cons, split_insertFileData hb.name, ih hblocks, List.flatMap_cons, List.append_assoc]
  unfold readLines
  rw [Text.lines_eq_split hreturn, hsplit]
  simp

/-- A first block begins neither with an archive nor with a byte order mark. -/
theorem firstLine_starttag (tag : List Char) : firstLine (starttag tag) = .ok (starttag tag) := by
  simp [firstLine, starttag]

/-- The blocks that were written come back as the options, in their order, and there is nothing else. -/
theorem parseConfig_blocks {blocks : List (List Char × List Char)} (h : ∀ b ∈ blocks, Block b.1 b.2) :
    parseConfig (blocks.flatMap fun b => VpnProfile.insertFileData b.1 (VpnProfile.inlineTag ++ b.2)) =
      .ok { options := blocks.map fun b => entry b.1 b.2, metas := [] } := by
  have hparse := parseLines_blocks h {}
  rw [parseConfig, readLines_blocks h]
  cases blocks with
  | nil => rfl
  | cons b blocks =>
    rw [List.flatMap_cons, blockLines, List.cons_append] at hparse ⊢
    dsimp only
    rw [firstLine_starttag]
    exact hparse

/-- The values of a tag are the data of its blocks. -/
theorem all_blocks (blocks : List (List Char × List Char)) (tag : List Char) :
    (Options.all (blocks.map fun b => entry b.1 b.2) (String.ofList tag)).getD [] =
      (blocks.filter fun b => b.1 = tag).map fun b => [tag, inlineTag ++ b.2] := by
  have hfilter : ((blocks.map fun b => entry b.1 b.2).filter (·.1 = String.ofList tag)).map (·.2) =
      (blocks.filter fun b => b.1 = tag).map fun b => [tag, inlineTag ++ b.2] := by
    induction blocks with
    | nil => rfl
    | cons b blocks ih =>
      by_cases hb : b.1 = tag
      · rw [List.map_cons, List.filter_cons_of_pos (by simp [entry, hb]), List.filter_cons_of_pos (by simpa using hb),
          List.map_cons, List.map_cons, ih, entry, hb]
      · rw [List.map_cons, List.filter_cons_of_neg (by simp [entry, String.ofList_inj, hb]),
          List.filter_cons_of_neg (by simpa using hb), ih]
  unfold Options.all
  rw [hfilter]
  generalize ((blocks.filter fun b => b.1 = tag).map fun b => [tag, inlineTag ++ b.2]) = lines
  cases lines <;> rfl

/-- The blocks that were written come back under their tags, in their order, and there is nothing else. -/
theorem parseConfig_insertFileData {blocks : List (List Char × List Char)} (h : ∀ b ∈ blocks, Block b.1 b.2) :
    ∃ p, parseConfig (blocks.flatMap fun b => VpnProfile.insertFileData b.1 (VpnProfile.inlineTag ++ b.2)) = .ok p ∧
      p.options = (blocks.map fun b => entry b.1 b.2) ∧ p.metas = [] ∧
      ∀ tag, (p.options.all (String.ofList tag)).getD [] =
        (blocks.filter fun b => b.1 = tag).map fun b => [tag, VpnProfile.inlineTag ++ b.2] :=
  ⟨_, parseConfig_blocks h, rfl, rfl, all_blocks blocks⟩

end

theorem parseConfig_insertFileData_ca : ∃ p,
    parseConfig (VpnProfile.insertFileData "ca".toList (VpnProfile.inlineTag ++ "# none\n<key>\n".toList)) = .ok p ∧
      p.options = [entry "ca".toList "# none\n<key>\n".toList] := by
  have hblock : ∀ b ∈ [("ca".toList, "# none\n<key>\n".toList)], Block b.1 b.2 := by
    intro b hb
    rw [List.mem_singleton.mp hb]
    exact ⟨isName_of_alphanum (Text.forall_of_all (by decide)), by decide, by decide, by decide⟩
  obtain ⟨p, hp, hoptions, -⟩ := parseConfig_insertFileData hblock
  exact ⟨p, by simpa using hp, hoptions⟩

end ConfigParser
end NicVpn
