import NicVpn.Theorems.Payload
import NicVpn.Lib.Joined

/-! The tokens that are left in a request. A text of literals and tokens loses its tokens one kind after
    another; `[raw]` and `[netData]` stand for texts with `[host_port]` in them, which is replaced before. -/

namespace NicVpn
namespace Connection
open Text

/-! ### Texts of literals and tokens -/

def bracket (name : List Char) : List Char := '[' :: (name ++ [']'])

/-- The text has no brackets. -/
def Plain (s : List Char) : Prop := '[' ∉ s ∧ ']' ∉ s

instance (s : List Char) : Decidable (Plain s) := inferInstanceAs (Decidable (_ ∧ _))

/-- A text of characters other than brackets and of tokens with these names. -/
inductive Made (names : List (List Char)) : List Char → Prop
  | nil : Made names []
  | char {c : Char} {s : List Char} (hc : Plain [c]) (hs : Made names s) : Made names (c :: s)
  | token {n s : List Char} (hn : n ∈ names) (hs : Made names s) : Made names (bracket n ++ s)

theorem plain_cons {c : Char} {s : List Char} : Plain (c :: s) ↔ Plain [c] ∧ Plain s := by
  simp only [Plain, List.mem_cons, List.not_mem_nil, or_false, not_or]
  exact and_and_and_comm

section Made
variable {names names' : List (List Char)} {m n s t old new : List Char}

theorem bracket_append_inj (hm : Plain m) (hn : Plain n) (h : bracket m ++ s = bracket n ++ t) : m = n ∧ s = t := by
  have htail : m ++ ']' :: s = n ++ ']' :: t := by
    have h := (List.cons.inj h).2
    simpa using h
  exact Joined.append_cons_inj hm.2 hn.2 htail

/-- Behind a token the text is made the same way. -/
theorem Made.of_append (hnames : ∀ n ∈ names, Plain n) (hm : Plain m) (h : Made names (bracket m ++ s)) :
    Made names s := by
  generalize hw : bracket m ++ s = w at h
  cases h with
  | nil => cases hw
  | char hc _ => exact absurd (List.mem_singleton.mpr (List.cons.inj hw).1) hc.1
  | token hn hs =>
    obtain ⟨-, rfl⟩ := bracket_append_inj hm (hnames _ hn) hw
    exact hs

theorem Made.of_flatMap_append (hnames : ∀ n ∈ names, Plain n) {ms : List (List Char)} (hms : ∀ m ∈ ms, Plain m)
    (h : Made names (ms.flatMap bracket ++ s)) : Made names s := by
  induction ms with
  | nil => exact h
  | cons m ms ih =>
    obtain ⟨hm, hms⟩ := List.forall_mem_cons.mp hms
    rw [List.flatMap_cons, List.append_assoc] at h
    exact ih hms (h.of_append hnames hm)

theorem Made.plain_append (hnew : Plain new) (h : Made names s) : Made names (new ++ s) := by
  induction new with
  | nil => exact h
  | cons c new ih =>
    obtain ⟨hc, hnew⟩ := plain_cons.mp hnew
    exact .char hc (ih hnew)

/-- In a token nothing that begins with a bracket begins but the token itself. -/
theorem not_prefix_of_suffix (hn : Plain n) (hold : ¬ '[' :: old <+: bracket n ++ s) :
    ∀ t, t <:+ bracket n → t ≠ [] → ¬ '[' :: old <+: t ++ s := by
  intro t ht hne hpre
  rcases List.suffix_cons_iff.mp ht with rfl | ht
  · exact hold hpre
  · obtain ⟨c, t, rfl⟩ := List.exists_cons_of_ne_nil hne
    have hc : c ∈ n ++ [']'] := ht.subset List.mem_cons_self
    rw [← (List.cons_prefix_cons.mp hpre).1] at hc
    rcases List.mem_append.mp hc with hc | hc
    · exact hn.1 hc
    · exact absurd (List.mem_singleton.mp hc) (by decide)

/-- A token that is none of those in the text does not occur in it. -/
theorem Made.not_infix (hnames : ∀ n ∈ names, Plain n) (hm : Plain m) (hmem : m ∉ names) (h : Made names s) :
    ¬bracket m <:+: s := by
  induction h with
  | nil => exact fun hinf => absurd (List.infix_nil.mp hinf) (List.cons_ne_nil _ _)
  | char hc _ ih =>
    intro hinf
    rcases List.infix_cons_iff.mp hinf with hpre | hinf
    · exact hc.1 (List.mem_singleton.mpr (List.cons_prefix_cons.mp hpre).1)
    · exact ih hinf
  | @token n s hn _ ih =>
    intro hinf
    have hcons : bracket n ++ s = '[' :: (n ++ [']'] ++ s) := rfl
    rw [hcons] at hinf
    rcases List.infix_cons_iff.mp hinf with ⟨t, ht⟩ | hinf
    · obtain ⟨rfl, -⟩ := bracket_append_inj hm (hnames _ hn) ht
      exact hmem hn
    · refine ih (infix_of_not_mem (fun hc => ?_) hinf)
      rcases List.mem_append.mp hc with hc | hc
      · exact (hnames _ hn).1 hc
      · exact absurd (List.mem_singleton.mp hc) (by decide)

/-- Fewer names do if the others are not in the text. -/
theorem Made.of_not_infix (h : Made names s) (hnames : ∀ n ∈ names, n ∈ names' ∨ ¬bracket n <:+: s) : Made names' s := by
  induction h with
  | nil => exact .nil
  | char hc _ ih =>
    exact .char hc (ih fun n hn => (hnames n hn).imp_right fun hnot hinf => hnot (List.infix_cons hinf))
  | token hn _ ih =>
    have hmem := (hnames _ hn).resolve_right fun hnot => hnot (List.prefix_append _ _).isInfix
    refine .token hmem (ih fun n hn => (hnames n hn).imp_right fun hnot hinf => hnot ?_)
    exact hinf.trans (List.suffix_append _ _).isInfix

/-- Replacing a token, or a run of tokens, by plain text. A token that is replaced is not left. -/
theorem Made.replace (hnames : ∀ n ∈ names, Plain n) {ms : List (List Char)} (hms : ∀ m ∈ ms, Plain m) (hne : ms ≠ [])
    (hnew : Plain new) (hleft : ∀ n ∈ names, n ∈ names' ∨ ms = [n]) (h : Made names s) :
    Made names' (Text.replace (ms.flatMap bracket) new s) := by
  obtain ⟨m, ms, rfl⟩ := List.exists_cons_of_ne_nil hne
  have hold : (m :: ms).flatMap bracket = '[' :: (m ++ [']'] ++ ms.flatMap bracket) := rfl
  induction hlen : s.length using Nat.strong_induction_on generalizing s with
  | _ k ih =>
    subst hlen
    cases h with
    | nil => exact .nil
    | @char c s hc hs =>
      have hpre : ¬(m :: ms).flatMap bracket <+: c :: s := by
        intro hpre
        rw [hold] at hpre
        exact hc.1 (List.mem_singleton.mpr (List.cons_prefix_cons.mp hpre).1)
      rw [replace_cons_of_absent hpre]
      exact .char hc (ih _ (Nat.lt_succ_self _) hs rfl)
    | @token n s hn hs =>
      by_cases hpre : (m :: ms).flatMap bracket <+: bracket n ++ s
      · obtain ⟨z, hz⟩ := hpre
        have hmade : Made names z := by
          refine Made.of_flatMap_append hnames hms ?_
          rw [hz]
          exact .token hn hs
        have hlt : z.length < (bracket n ++ s).length := by
          rw [← hz, hold]
          simp only [List.length_append, List.length_cons]
          omega
        rw [← hz, replace_append (by rw [hold]; exact List.cons_ne_nil _ _)]
        exact (ih _ hlt hmade rfl).plain_append hnew
      · have hlt : s.length < (bracket n ++ s).length := by
          simp only [List.length_append, bracket, List.length_cons]
          omega
        have hleft' : n ∈ names' := by
          refine (hleft n hn).resolve_right fun hms => hpre ?_
          rw [hms]
          simp
        rw [replace_append_of_absent (hold ▸ not_prefix_of_suffix (hnames n hn) (hold ▸ hpre))]
        exact .token hleft' (ih _ hlt hs rfl)

theorem Made.plain (h : Made [] s) : Plain s := by
  induction h with
  | nil => exact ⟨List.not_mem_nil, List.not_mem_nil⟩
  | char hc _ ih => exact plain_cons.mpr ⟨hc, ih⟩
  | token hn => cases hn

end Made

/-! ### The replacements -/

/-- The names of the tokens that a payload is written with. -/
def tokenNames : List (List Char) :=
  ["host_port".toList, "host".toList, "port".toList, "raw".toList, "netData".toList, "crlf".toList, "cr".toList,
    "lf".toList, "lfcr".toList, "protocol".toList, "ua".toList, "method".toList]

/-- A run of tokens and what it is replaced by. -/
abbrev Entry := List (List Char) × List Char

def Entry.spell (e : Entry) : List Char × List Char := (e.1.flatMap bracket, e.2)

def hostEntries : List Entry :=
  [(["host_port".toList], Constants.listeningServer), (["host".toList], Constants.listeningAddr),
    (["port".toList], Constants.listeningAddrPort)]

/-- A token is replaced, and runs of it before or behind that, which does not matter here. -/
def runEntries (name : String) (new : List Char) : List Entry :=
  [1, 2, 3, 4].map fun k => (List.replicate k name.toList, new)

def lineEntries : List Entry :=
  [(List.replicate 2 "crlf".toList, crlf), (List.replicate 3 "crlf".toList, crlf),
    (List.replicate 4 "crlf".toList, crlf), (["crlf".toList], crlf)] ++ runEntries "cr" ['\r'] ++
    runEntries "lf" ['\n'] ++ runEntries "lfcr" ['\n', '\r'] ++
    [(["protocol".toList], "HTTP/1.0".toList),
      (["ua".toList], ("Mozilla/5.0 (Windows NT 6.3; WOW64) AppleWebKit/537.36 (KHTML, like Gecko) " ++
        "Chrome/44.0.2403.130 Safari/537.36").toList),
      (["method".toList], "CONNECT".toList)]

def rawTexts : List (List Char × List Char) :=
  [("[raw]".toList, "CONNECT [host_port] HTTP/1.1".toList),
    ("[netData]".toList, "CONNECT [host_port] [protocol]".toList)]

def escapeTexts : List (List Char × List Char) := [("\\n".toList, ['\n']), ("\\r".toList, ['\n'])]

theorem placeholders_eq :
    placeholders = hostEntries.map Entry.spell ++ rawTexts ++ lineEntries.map Entry.spell ++ escapeTexts := by
  unfold placeholders hostEntries rawTexts lineEntries escapeTexts
  rw [String.toList_append]
  repeat rw [String.toList_ofList]
  decide

/-- An entry that replaces tokens by plain text. -/
def Entry.Ok (e : Entry) : Prop := e.1 ≠ [] ∧ (∀ m ∈ e.1, Plain m) ∧ Plain e.2

instance (e : Entry) : Decidable e.Ok := inferInstanceAs (Decidable (_ ∧ _))

theorem Made.replaceAll {names : List (List Char)} (hnames : ∀ n ∈ names, Plain n) {es : List Entry}
    (hes : ∀ e ∈ es, e.Ok) {s : List Char} (h : Made names s) :
    Made (names.filter fun n => [n] ∉ es.map Prod.fst) (replaceAll (es.map Entry.spell) s) := by
  induction es generalizing names s with
  | nil =>
    have hall : names.filter (fun n => [n] ∉ ([] : List Entry).map Prod.fst) = names := by simp
    rw [hall]
    exact h
  | cons e es ih =>
    obtain ⟨⟨hne, hms, hnew⟩, hes⟩ := List.forall_mem_cons.mp hes
    have hstep : Made (names.filter fun n => [n] ≠ e.1) (Text.replace (e.1.flatMap bracket) e.2 s) := by
      refine h.replace hnames hms hne hnew fun n hn => ?_
      by_cases hn' : [n] = e.1
      · exact .inr hn'.symm
      · exact .inl (List.mem_filter.mpr ⟨hn, decide_eq_true hn'⟩)
    have hrest := ih (fun n hn => hnames n (List.mem_filter.mp hn).1) hes hstep
    rw [List.filter_filter] at hrest
    have hfilter : (names.filter fun n => [n] ∉ (e :: es).map Prod.fst) =
        names.filter fun n => decide ([n] ∉ es.map Prod.fst) && decide ([n] ≠ e.1) := by
      refine List.filter_congr fun n _ => ?_
      simp only [List.map_cons, List.mem_cons, not_or, Bool.decide_and]
      exact Bool.and_comm _ _
    rw [hfilter]
    exact hrest

def rawName : List Char := "raw".toList
def netDataName : List Char := "netData".toList
def hostPortName : List Char := "host_port".toList

/-- The tokens that stand for texts with tokens. -/
def nested : List (List Char) := [rawName, netDataName]

theorem replaceAll_plain {ps : List (List Char × List Char)} (hps : ∀ p ∈ ps, Plain p.2) {s : List Char}
    (hs : Plain s) : Plain (replaceAll ps s) := by
  induction ps generalizing s with
  | nil => exact hs
  | cons p ps ih =>
    obtain ⟨hp, hps⟩ := List.forall_mem_cons.mp hps
    have hstep : Plain (Text.replace p.1 p.2 s) :=
      ⟨fun h => (mem_of_mem_replace h).elim hs.1 hp.1, fun h => (mem_of_mem_replace h).elim hs.2 hp.2⟩
    exact ih hps hstep

/-- The tokens that stand for plain texts, and those of them that are left behind the first entries. -/
def plainNames : List (List Char) :=
  ["host_port".toList, "host".toList, "port".toList, "crlf".toList, "cr".toList, "lf".toList, "lfcr".toList,
    "protocol".toList, "ua".toList, "method".toList]

def lineNames : List (List Char) :=
  ["crlf".toList, "cr".toList, "lf".toList, "lfcr".toList, "protocol".toList, "ua".toList, "method".toList]

/-- The first entries replace the host and the port, and those for the line every other plain text. -/
theorem entries_ok :
    (∀ e ∈ hostEntries, e.Ok) ∧ (plainNames.filter fun n => [n] ∉ hostEntries.map Prod.fst) = lineNames ∧
      (∀ e ∈ lineEntries, e.Ok) ∧ (lineNames.filter fun n => [n] ∉ lineEntries.map Prod.fst) = [] := by
  unfold hostEntries plainNames lineEntries lineNames
  rw [String.toList_append]
  repeat rw [String.toList_ofList]
  decide

/-- How the tables of names are related. -/
theorem names_related :
    (∀ n ∈ tokenNames, Plain n ∧ (n ∈ nested ∨ n ∈ plainNames)) ∧
      (∀ n ∈ plainNames, n ∈ tokenNames) ∧ (∀ n ∈ lineNames, n ∈ tokenNames) ∧
      ∀ n ∈ nested, n ∈ tokenNames ∧ n ∉ lineNames := by
  decide

theorem replaceAll_rawTexts {s : List Char} (h : ∀ n ∈ nested, ¬bracket n <:+: s) : replaceAll rawTexts s = s := by
  have hraw : Text.replace "[raw]".toList "CONNECT [host_port] HTTP/1.1".toList s = s :=
    replace_of_absent (h rawName List.mem_cons_self)
  have hnet : Text.replace "[netData]".toList "CONNECT [host_port] [protocol]".toList s = s :=
    replace_of_absent (h netDataName (List.mem_cons_of_mem _ List.mem_cons_self))
  show Text.replace _ _ (Text.replace _ _ s) = s
  rw [hraw, hnet]

/-- Without the nested tokens no bracket is left. -/
theorem expand_plain {s : List Char} (h : Made tokenNames s) (hnested : ∀ n ∈ nested, ¬bracket n <:+: s) :
    Plain (expand s) := by
  obtain ⟨hhostOk, hhostNames, hlineOk, hlineNames⟩ := entries_ok
  obtain ⟨hnames, hplain, hlines, hnest⟩ := names_related
  have hmade : Made plainNames s :=
    h.of_not_infix fun n hn => (hnames n hn).2.symm.imp_right (hnested n)
  have hhost := hmade.replaceAll (fun n hn => (hnames n (hplain n hn)).1) hhostOk
  rw [hhostNames] at hhost
  have hlinePlain : ∀ n ∈ lineNames, Plain n := fun n hn => (hnames n (hlines n hn)).1
  have hline := hhost.replaceAll hlinePlain hlineOk
  rw [hlineNames] at hline
  have hraw := replaceAll_rawTexts fun n hn =>
    hhost.not_infix hlinePlain (hnames n (hnest n hn).1).1 (hnest n hn).2
  have hexpand : expand s = replaceAll escapeTexts (replaceAll (lineEntries.map Entry.spell)
      (replaceAll (hostEntries.map Entry.spell) s)) := by
    rw [expand_eq_replaceAll, placeholders_eq, replaceAll_append, replaceAll_append, replaceAll_append, hraw]
  rw [hexpand]
  exact replaceAll_plain (by decide) hline.plain

/-! ### What a nested token brings in -/

theorem infix_replaceAll {pat s : List Char} {ps : List (List Char × List Char)}
    (hps : ∀ p ∈ ps, p.1 ≠ [] ∧ Apart p.1 pat) (h : pat <:+: s) : pat <:+: replaceAll ps s := by
  obtain ⟨x, y, rfl⟩ := h
  rw [List.append_assoc, replaceAll_around hps]
  exact ⟨_, _, List.append_assoc _ _ _⟩

/-- A text stays from the replacement that brings it in, when no later one touches it. -/
theorem infix_replaceAll_of_new {pat old new s : List Char} {ps ps' : List (List Char × List Char)}
    (hold : old ≠ []) (hps : ∀ p ∈ ps, p.1 ≠ [] ∧ Apart p.1 old) (hnew : pat <:+: new)
    (hps' : ∀ p ∈ ps', p.1 ≠ [] ∧ Apart p.1 pat) (h : old <:+: s) :
    pat <:+: replaceAll (ps ++ (old, new) :: ps') s := by
  rw [replaceAll_append]
  refine infix_replaceAll (s := Text.replace old new (replaceAll ps s)) hps' ?_
  obtain ⟨x, y, -, hreplace⟩ := exists_replace hold new (infix_replaceAll hps h)
  rw [hreplace]
  exact hnew.trans ((List.prefix_append new _).isInfix.trans (List.suffix_append x _).isInfix)

/-- A nested token brings `[host_port]` in after it has been replaced. -/
theorem hostPort_infix_expand {n s : List Char} (hn : n ∈ nested) (h : bracket n <:+: s) :
    bracket hostPortName <:+: expand s := by
  have hraw : placeholders = hostEntries.map Entry.spell ++ (bracket rawName, "CONNECT [host_port] HTTP/1.1".toList) ::
      ((bracket netDataName, "CONNECT [host_port] [protocol]".toList) ::
        (lineEntries.map Entry.spell ++ escapeTexts)) := by
    rw [placeholders_eq, List.append_assoc, List.append_assoc]
    rfl
  rw [expand_eq_replaceAll, hraw]
  rcases List.mem_cons.mp hn with rfl | hn
  · exact infix_replaceAll_of_new (by decide) (by decide) (by decide) (by decide) h
  · rw [List.mem_singleton.mp hn] at h
    rw [List.append_cons]
    exact infix_replaceAll_of_new (by decide) (by decide) (by decide) (by decide) h

/-! ### Requests -/

/-- None of the tokens occurs in the text. -/
def NoToken (s : List Char) : Prop := ∀ n ∈ tokenNames, ¬bracket n <:+: s

theorem tokens_fixedTexts : ∀ n ∈ tokenNames, ∀ b ∈ fixedTexts, Apart (bracket n) b := by
  unfold tokenNames fixedTexts
  repeat rw [String.toList_ofList]
  decide

theorem noToken_buildPayload {f : Fields} {config id : List Char} {action : Nat} :
    NoToken (buildPayload f config action id) ↔ NoToken (expand config) ∧ ∀ v ∈ values f action id, NoToken v := by
  have hiff : ∀ n ∈ tokenNames, (bracket n <:+: buildPayload f config action id ↔
      bracket n <:+: expand config ∨ ∃ v ∈ values f action id, bracket n <:+: v) := fun n hn =>
    infix_buildPayload_iff (List.cons_ne_nil _ _) (tokens_fixedTexts n hn) f config id action
  constructor
  · intro h
    refine ⟨fun n hn hinf => h n hn ((hiff n hn).mpr (.inl hinf)), fun v hv n hn hinf => ?_⟩
    exact h n hn ((hiff n hn).mpr (.inr ⟨v, hv, hinf⟩))
  · rintro ⟨hexpand, hvalues⟩ n hn hinf
    rcases (hiff n hn).mp hinf with hinf | ⟨v, hv, hinf⟩
    · exact hexpand n hn hinf
    · exact hvalues v hv n hn hinf

/-- No token is left in a request just when the payload has no nested token and the values have no token. -/
theorem noToken_buildPayload_iff {f : Fields} {config : List Char} (h : Made tokenNames config) (action : Nat)
    (id : List Char) : NoToken (buildPayload f config action id) ↔
      (∀ n ∈ nested, ¬bracket n <:+: config) ∧ ∀ v ∈ values f action id, NoToken v := by
  rw [noToken_buildPayload]
  refine and_congr_left fun _ => ⟨fun hexpand n hn hinf => ?_, fun hnested n hn hinf => ?_⟩
  · exact hexpand hostPortName (by decide) (hostPort_infix_expand hn hinf)
  · refine (expand_plain h hnested).1 (hinf.subset ?_)
    exact List.mem_cons_self

theorem noToken_protocol :
    NoToken (buildPayload clientFields "GET / [protocol][crlf]".toList 1 "0".toList) ↔
      (∀ n ∈ nested, ¬bracket n <:+: "GET / [protocol][crlf]".toList) ∧
        ∀ v ∈ values clientFields 1 "0".toList, NoToken v := by
  have hmade : Made tokenNames ("GET / ".toList ++ (bracket "protocol".toList ++ (bracket "crlf".toList ++ []))) :=
    Made.plain_append (by decide) (.token (by decide) (.token (by decide) .nil))
  exact noToken_buildPayload_iff hmade 1 "0".toList

/-- The payload that the generator makes of a plain request. -/
theorem netData_not_expanded :
    Made tokenNames "[netData][crlf]".toList ∧
      ¬NoToken (buildPayload clientFields "[netData][crlf]".toList 1 "0".toList) := by
  constructor
  · show Made tokenNames (bracket netDataName ++ (bracket "crlf".toList ++ []))
    exact .token (by decide) (.token (by decide) .nil)
  · intro h
    have hleft : bracket hostPortName <:+: buildPayload clientFields "[netData][crlf]".toList 1 "0".toList := by
      decide
    exact h hostPortName (by decide) hleft

end Connection
end NicVpn
