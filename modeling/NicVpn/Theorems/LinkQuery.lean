import NicVpn.Lib.UriServer
import NicVpn.Theorems.ShadowsocksLink

/-! The query of a link: its parameters are read as they were written, when their values have no separators and are legal
    in a URI. -/

namespace NicVpn.V2ray
namespace AngConfigManager
open NicVpn.Utils

/-! ### Characters that are no part of a URI -/

/-- What `fixIllegalUrl` makes of a character. -/
def fixChar (c : Char) : List Char := if c = ' ' then "%20".toList else if c = '|' then "%7C".toList else [c]

theorem fixIllegalUrl_eq (s : List Char) : fixIllegalUrl s = s.flatMap fixChar := by
  rw [fixIllegalUrl, Text.replace_singleton, Text.replace_singleton, List.flatMap_assoc]
  refine congrArg (s.flatMap ·) (funext fun c => ?_)
  unfold fixChar
  split
  · rfl
  · rw [List.flatMap_singleton]

theorem fixIllegalUrl_append (s t : List Char) : fixIllegalUrl (s ++ t) = fixIllegalUrl s ++ fixIllegalUrl t := by
  simp only [fixIllegalUrl_eq, List.flatMap_append]

theorem fixIllegalUrl_cons {c : Char} (hblank : c ≠ ' ') (hbar : c ≠ '|') (s : List Char) :
    fixIllegalUrl (c :: s) = c :: fixIllegalUrl s := by
  rw [fixIllegalUrl_eq, List.flatMap_cons, fixChar, if_neg hblank, if_neg hbar, ← fixIllegalUrl_eq]
  rfl

theorem mem_fixIllegalUrl {c : Char} (hc : c ∉ "%20%7C".toList) {s : List Char} (h : c ∈ fixIllegalUrl s) : c ∈ s := by
  rw [fixIllegalUrl_eq] at h
  obtain ⟨d, hd, hcd⟩ := List.mem_flatMap.mp h
  have hsub : ∀ x ∈ "%20".toList ++ "%7C".toList, x ∈ "%20%7C".toList := Text.forall_of_all (by decide)
  unfold fixChar at hcd
  split at hcd
  · exact absurd (hsub c (List.mem_append_left _ hcd)) hc
  · split at hcd
    · exact absurd (hsub c (List.mem_append_right _ hcd)) hc
    · rwa [List.mem_singleton.mp hcd]

/-- The piece of a character that is fixed. -/
def fixPiece (c : Char) : Percent.Piece := if c = ' ' then .byte 0x20 else if c = '|' then .byte 0x7C else .char c

theorem coded_fixIllegalUrl {s : List Char} (h : '%' ∉ s) : Percent.Coded (fixIllegalUrl s) (s.map fixPiece) := by
  rw [fixIllegalUrl_eq]
  induction s with
  | nil => exact .nil
  | cons c s ih =>
    rw [List.mem_cons, not_or] at h
    have hchar : Percent.Coded (fixChar c) [fixPiece c] := by
      unfold fixChar fixPiece
      split
      · exact .escape (by decide) .nil
      · split
        · exact .escape (by decide) .nil
        · exact .char (Ne.symm h.1) .nil
    exact hchar.append (ih h.2)

theorem text_fixPiece (s : List Char) : Percent.text (s.map fixPiece) = s := by
  have hbytes : (s.map fixPiece).flatMap Percent.Piece.bytes = Utf8.encode s := by
    rw [List.flatMap_map]
    refine congrArg (fun f => s.flatMap f) (funext fun c => ?_)
    unfold fixPiece
    split
    · rename_i hc
      rw [hc]
      rfl
    · split
      · rename_i hc
        rw [hc]
        rfl
      · rfl
  rw [Percent.text, hbytes, Utf8.decode_encode]

theorem spaced_fixPiece {s : List Char} (h : '+' ∉ s) : (s.map fixPiece).map Percent.Piece.spaced = s.map fixPiece := by
  rw [List.map_map]
  refine List.map_congr_left fun c hc => ?_
  have hplus : c ≠ '+' := fun heq => h (heq ▸ hc)
  rw [Function.comp_apply]
  unfold fixPiece
  split
  · rfl
  · split
    · rfl
    · rw [Percent.Piece.spaced, if_neg hplus]

/-! ### Parameters -/

theorem isUric_of_safe {c : Char} (h : Percent.safe c = true) : Uri.isUric c = true := by
  have halnum : c.isAlphanum = true → Uri.isAlphanum c = true := by
    intro h
    have hranges : (decide (c.val ≥ 'A'.val ∧ c.val ≤ 'Z'.val) ||
        (decide (c.val ≥ 'a'.val) && decide (c.val ≤ 'z'.val)) ||
          (decide (c.val ≥ '0'.val) && decide (c.val ≤ '9'.val))) = true := h
    simp only [Bool.or_eq_true, Bool.and_eq_true, decide_eq_true_eq] at hranges
    simp only [Uri.isAlphanum, Uri.isAlpha, Uri.isDigit, Char.le_def, Bool.or_eq_true, Bool.and_eq_true, decide_eq_true_eq]
    grind
  simp only [Percent.safe, Bool.or_eq_true, beq_iff_eq] at h
  rcases h with (((h | rfl) | rfl) | rfl) | rfl
  · simp [Uri.isUric, Uri.isUnreserved, halnum h]
  all_goals rfl

/-- What `URLEncoder` writes is legal in a URI. -/
theorem legal_urlEncode (v : List Char) : Uri.legal Uri.isUric (urlEncode v) = true := by
  refine Uri.legal_iff.mpr ⟨_, Percent.coded_urlEncode v, fun c hc => ?_⟩
  obtain ⟨d, -, hd⟩ := List.mem_flatMap.mp hc
  unfold Percent.encodedPieces at hd
  split at hd
  · rename_i hsafe
    cases List.mem_singleton.mp hd
    rw [isUric_of_safe hsafe]
    rfl
  · split at hd
    · cases List.mem_singleton.mp hd
      rfl
    · obtain ⟨b, -, hb⟩ := List.mem_map.mp hd
      cases hb

/-- A value that keeps its place in a query. -/
structure Readable (v : List Char) : Prop where
  legal : Uri.legal Uri.isUric (fixIllegalUrl v) = true
  ampersand : '&' ∉ v
  equals : '=' ∉ v

/-- What a value is read as. -/
def readValue (v : List Char) : List Char := urlDecode (fixIllegalUrl v)

/-- A text without a character that decoding changes. -/
def Plain (v : List Char) : Prop := '%' ∉ v ∧ '+' ∉ v

/-- A text that cannot be decoded twice, which is then left as it is. -/
def Undecodable (v : List Char) : Prop := (Percent.urlDecode v).bind Percent.urlDecode = none

/-- A value that comes back as it is written. -/
structure Kept (v : List Char) : Prop where
  readable : Readable v
  steady : Plain v ∨ (' ' ∉ v ∧ '|' ∉ v ∧ Undecodable v)

theorem Plain.urlDecode_eq {v : List Char} (h : Plain v) : Percent.urlDecode v = some v :=
  Percent.urlDecode_eq_self_iff.mpr h

theorem urlDecode_of_undecodable {v : List Char} (h : Undecodable v) : urlDecode v = v := by rw [urlDecode, h, Option.getD_none]

theorem Kept.readValue {v : List Char} (h : Kept v) : readValue v = v := by
  rcases h.steady with hplain | ⟨hblank, hbar, hsteady⟩
  · have hfirst : Percent.urlDecode (fixIllegalUrl v) = some v := by
      rw [Percent.urlDecode, (coded_fixIllegalUrl hplain.1).pieces_eq, Option.map_some, spaced_fixPiece hplain.2,
        text_fixPiece]
    rw [AngConfigManager.readValue, urlDecode, hfirst, Option.bind_some, hplain.urlDecode_eq, Option.getD_some]
  · rw [AngConfigManager.readValue, fixIllegalUrl_of_not_mem hblank hbar, urlDecode_of_undecodable hsteady]

theorem fixIllegalUrl_urlEncode (v : List Char) : fixIllegalUrl (urlEncode v) = urlEncode v :=
  fixIllegalUrl_of_not_mem (not_mem_urlEncode (by decide) v) (not_mem_urlEncode (by decide) v)

theorem readable_urlEncode (v : List Char) : Readable (urlEncode v) := by
  have hno : ∀ x ∈ "&=".toList, x ∉ urlEncode v := by
    intro x hx hmem
    have hsub : ∀ x ∈ "&=".toList, Percent.safe x = false ∧ x ≠ '+' ∧ x ≠ '%' ∧ x ∉ Percent.upperDigits :=
      Text.forall_of_all (by decide)
    obtain ⟨hsafe, hplus, hpercent, hdigit⟩ := hsub x hx
    refine Percent.mem_urlEncode (P := fun c => c ≠ x) ?_ (Ne.symm hplus) (Ne.symm hpercent) ?_ x hmem rfl
    · rintro c hc rfl
      exact Bool.false_ne_true (hsafe.symm.trans hc)
    · rintro c hc rfl
      exact hdigit hc
  refine ⟨?_, hno '&' (by decide), hno '=' (by decide)⟩
  rw [fixIllegalUrl_urlEncode]
  exact legal_urlEncode v

/-- A coded value is decoded twice. -/
theorem Plain.urlDecode_urlEncode {v : List Char} (h : Plain v) : urlDecode (urlEncode v) = v := by
  rw [urlDecode, urlEncode, Percent.urlDecode_urlEncode, Option.bind_some, h.urlDecode_eq, Option.getD_some]

theorem Plain.readValue {v : List Char} (h : Plain v) : readValue (urlEncode v) = v := by
  rw [AngConfigManager.readValue, fixIllegalUrl_urlEncode, h.urlDecode_urlEncode]

def readParams (l : Params) : Params := l.map fun p => (p.1, readValue p.2)

def IsKey (k : List Char) : Prop := ∀ c ∈ k, Uri.isAlpha c = true

section Params
variable {l : Params} {p : List Char × List Char}

def pair (p : List Char × List Char) : List Char := p.1 ++ '=' :: p.2

theorem IsKey.not_mem {k : List Char} (h : IsKey k) {c : Char} (hc : Uri.isAlpha c = false) : c ∉ k := fun hmem =>
  Bool.false_ne_true (hc.symm.trans (h c hmem))

theorem fixIllegalUrl_pair (h : IsKey p.1) : fixIllegalUrl (pair p) = pair (p.1, fixIllegalUrl p.2) := by
  rw [pair, fixIllegalUrl_append, fixIllegalUrl_cons (by decide) (by decide),
    fixIllegalUrl_of_not_mem (h.not_mem (by decide)) (h.not_mem (by decide))]
  rfl

theorem not_mem_pair (h : IsKey p.1) (hv : Readable p.2) : '&' ∉ pair (p.1, fixIllegalUrl p.2) := by
  simp only [pair, List.mem_append, List.mem_cons, not_or]
  exact ⟨h.not_mem (by decide), by decide, fun hmem => hv.ampersand (mem_fixIllegalUrl (by decide) hmem)⟩

theorem legal_pair (h : IsKey p.1) (hv : Readable p.2) : Uri.legal Uri.isUric (pair (p.1, fixIllegalUrl p.2)) = true := by
  have hkey : Uri.legal Uri.isUric p.1 = true := Uri.legal_of_forall fun c hc => by
    refine ⟨fun heq => h.not_mem (by decide) (heq ▸ hc), ?_⟩
    simp [Uri.isUric, Uri.isUnreserved, Uri.isAlphanum, h c hc]
  rw [pair, Uri.legal_append_cons (by decide), Uri.legal_cons (by decide), hkey, hv.legal]
  decide

theorem param_pair (h : IsKey p.1) (hv : Readable p.2) : param (pair (p.1, fixIllegalUrl p.2)) = .ok (p.1, readValue p.2) := by
  have hvalue : '=' ∉ fixIllegalUrl p.2 := fun hmem => hv.equals (mem_fixIllegalUrl (by decide) hmem)
  rw [pair, param, Text.split_append_cons (h.not_mem (by decide)), Text.split_of_not_mem hvalue]
  rfl

/-- The text of the pairs. -/
theorem fixIllegalUrl_joinQuery (h : ∀ p ∈ l, IsKey p.1) :
    fixIllegalUrl (joinQuery l) = Joined.join '&' (l.map fun p => pair (p.1, fixIllegalUrl p.2)) := by
  have hjoin : joinQuery l = Joined.join '&' (l.map pair) := rfl
  rw [hjoin]
  induction l with
  | nil => rfl
  | cons p l ih =>
    obtain ⟨hp, hl⟩ := List.forall_mem_cons.mp h
    by_cases hnil : l = []
    · subst hnil
      exact (congrArg fixIllegalUrl Joined.join_singleton).trans ((fixIllegalUrl_pair hp).trans Joined.join_singleton.symm)
    · have hmap : ∀ {f : List Char × List Char → List Char}, l.map f ≠ [] := List.map_eq_nil_iff.not.mpr hnil
      rw [List.map_cons, List.map_cons, Joined.join_cons hmap, Joined.join_cons hmap, fixIllegalUrl_append,
        fixIllegalUrl_cons (by decide) (by decide), fixIllegalUrl_pair hp, ih hl rfl]

theorem legal_join {l : List (List Char)} (h : ∀ x ∈ l, Uri.legal Uri.isUric x = true) :
    Uri.legal Uri.isUric (Joined.join '&' l) = true := by
  induction l with
  | nil => rfl
  | cons x l ih =>
    obtain ⟨hx, hl⟩ := List.forall_mem_cons.mp h
    by_cases hnil : l = []
    · subst hnil
      rwa [Joined.join_singleton]
    · rw [Joined.join_cons hnil, Uri.legal_append_cons (by decide), Uri.legal_cons (by decide), hx, ih hl]
      decide

theorem mapM_param {f : List Char × List Char → List Char} {g : List Char × List Char → List Char × List Char}
    (h : ∀ p ∈ l, param (f p) = .ok (g p)) : (l.map f).mapM param = .ok (l.map g) := by
  induction l with
  | nil => rfl
  | cons p l ih =>
    obtain ⟨hp, hl⟩ := List.forall_mem_cons.mp h
    rw [List.map_cons, List.mapM_cons, hp, ih hl]
    rfl

/-- A query of keys with readable values is legal, and read with these keys. -/
theorem queryParams_joinQuery (hne : l ≠ []) (hkeys : ∀ p ∈ l, IsKey p.1) (hvalues : ∀ p ∈ l, Readable p.2) :
    Uri.legal Uri.isUric (fixIllegalUrl (joinQuery l)) = true ∧
      queryParams (fixIllegalUrl (joinQuery l)) = .ok (readParams l) := by
  have hmap : l.map (fun p => pair (p.1, fixIllegalUrl p.2)) ≠ [] := List.map_eq_nil_iff.not.mpr hne
  rw [fixIllegalUrl_joinQuery hkeys]
  constructor
  · refine legal_join fun x hx => ?_
    obtain ⟨p, hp, rfl⟩ := List.mem_map.mp hx
    exact legal_pair (hkeys p hp) (hvalues p hp)
  · have hsep : ∀ x ∈ l.map fun p => pair (p.1, fixIllegalUrl p.2), '&' ∉ x := by
      intro x hx
      obtain ⟨p, hp, rfl⟩ := List.mem_map.mp hx
      exact not_mem_pair (hkeys p hp) (hvalues p hp)
    rw [queryParams, Joined.split_join_of_not_mem hmap hsep]
    exact mapM_param fun p hp => param_pair (hkeys p hp) (hvalues p hp)

/-- A key that occurs once has its value, whatever the order is. -/
theorem queryParam_readParams {l' : Params} (hperm : l'.Perm l) (hnodup : (Assoc.keys l).Nodup) (k : String) :
    queryParam (readParams l') k = (l.lookup k.toList).map readValue := by
  have hkeys : (Assoc.keys l').Nodup := (hperm.map Prod.fst).nodup_iff.mpr hnodup
  have hread : ∀ l : Params, (readParams l).lookup k.toList = (l.lookup k.toList).map readValue := by
    intro l
    induction l with
    | nil => rfl
    | cons p l ih =>
      rw [readParams, List.map_cons, List.lookup_cons, List.lookup_cons, ← readParams, ih]
      split <;> rfl
  have hkeys' : (Assoc.keys (readParams l')).Nodup := by
    rw [Assoc.keys, readParams, List.map_map]
    exact hkeys
  rw [queryParam, Assoc.lookup_of_perm (List.reverse_perm _) hkeys', hread, Assoc.lookup_of_perm hperm hnodup]

end Params

end AngConfigManager
end NicVpn.V2ray
