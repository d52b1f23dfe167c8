import NicVpn.Theorems.Routes
import NicVpn.Lib.Replace

/-! What `checkProfile` finds out about the routes. It counts the routes up to the first token that is refused, so it
    notices such a token only at the front of a field. -/

namespace NicVpn
namespace VpnProfile
open ConfigParser

/-- A length from 0 to 32. -/
structure IsLength (s : List Char) : Prop where
  ne_nil : s ≠ []
  digits : ∀ c ∈ s, c.isDigit = true
  le : Nat.ofDigitChars 10 s 0 ≤ 32

/-- `ip` or `ip/len`. -/
def WellFormed (token : List Char) : Prop :=
  (∃ n, Quad token n) ∨ ∃ ip n len, Quad ip n ∧ IsLength len ∧ token = ip ++ '/' :: len

def tokens (field : Option (List Char)) : List (List Char) := (splitRoutes (field.getD [])).filter (· ≠ [])

def fields (np : VpnProfile) : List (Option (List Char)) := [np.mCustomRoutes, np.mExcludedRoutes]

/-- A token of the two fields is not well formed. -/
def Malformed (np : VpnProfile) : Prop := ∃ field ∈ fields np, ∃ token ∈ tokens field, ¬WellFormed token

/-- A field of separators only. -/
def Separators (field : Option (List Char)) : Prop := isEmpty field = false ∧ tokens field = []

/-- What the routes are read from: no slash at all, or one slash before a number from 0 to 32 and then slashes only.
    The text before the slash is not looked at. -/
def Accepted (token : List Char) : Prop :=
  '/' ∉ token ∨ ∃ ip len k, '/' ∉ ip ∧ '/' ∉ len ∧ (∃ n, Text.toInt len = some n ∧ 0 ≤ n ∧ n ≤ 32) ∧
    token = ip ++ '/' :: (len ++ List.replicate k '/')

/-- A field whose first token is refused. -/
def RefusedFirst (field : Option (List Char)) : Prop := ∃ token, (tokens field).head? = some token ∧ ¬Accepted token

/-! ### Tokens -/

theorem accepted_of_parts {token : List Char} (hslash : '/' ∈ token) (h : VpnProfile.cidrToIPAndNetmask token ≠ none) :
    ∃ ip len n, Text.parts '/' token = [ip, len] ∧ Text.toInt len = some n ∧ 0 ≤ n ∧ n ≤ 32 := by
  have htwo := Text.two_le_length_split hslash
  -- A token with slashes but one part only ends in a slash; with the length added, it has an empty part.
  have hthree : ∀ ip len, Text.parts '/' (token ++ "/32".toList) ≠ [ip, len] := by
    intro ip len hpair
    have hsplit : Text.split ['/'] (token ++ '/' :: "32".toList) = Text.split ['/'] token ++ ["32".toList] := by
      rw [Text.split_append, Text.split_of_not_mem (s := "32".toList) (by decide)]
    have hlength := congrArg List.length
      ((Text.parts_eq_split (List.mem_append_right _ List.mem_cons_self) hsplit (by decide)).symm.trans hpair)
    rw [List.length_append, List.length_singleton, List.length_cons, List.length_singleton] at hlength
    omega
  unfold VpnProfile.cidrToIPAndNetmask at h
  by_cases hone : (Text.parts '/' token).length = 1
  · -- The pattern of two parts is not met, by `hthree`.
    simp only [hone, ↓reduceIte] at h
    exact absurd rfl h
  · simp only [hone, ↓reduceIte] at h
    split at h
    · rename_i ip len hpair
      cases hint : Text.toInt len with
      | none =>
        rw [hint] at h
        exact absurd rfl h
      | some n =>
        by_cases hrange : n < 0 ∨ 32 < n
        · rw [hint, Option.bind_eq_bind, Option.bind_some, if_pos hrange] at h
          exact absurd rfl h
        · exact ⟨ip, len, n, hpair, hint, by omega, by omega⟩
    · exact absurd rfl h

theorem cidrToIPAndNetmask_of_length {ip len : List Char} {n : Int} (hip : '/' ∉ ip) (hlen : '/' ∉ len)
    (hint : Text.toInt len = some n) (h0 : 0 ≤ n) (h32 : n ≤ 32) (k : Nat) :
    VpnProfile.cidrToIPAndNetmask (ip ++ '/' :: (len ++ List.replicate k '/')) =
      some (ip ++ "  ".toList ++ maskOf n.toNat) := by
  have hne : len ≠ [] := by
    rintro rfl
    cases hint
  have hrange : ¬(n < 0 ∨ 32 < n) := by omega
  unfold VpnProfile.cidrToIPAndNetmask maskOf
  simp only [Text.parts_pair hip hlen hne, List.length_cons, List.length_nil, Nat.reduceAdd, OfNat.ofNat_ne_one,
    ↓reduceIte, hint, Option.bind_eq_bind, Option.bind_some, hrange]

theorem cidrToIPAndNetmask_ne_none_iff {token : List Char} :
    VpnProfile.cidrToIPAndNetmask token ≠ none ↔ Accepted token := by
  constructor
  · intro h
    by_cases hslash : '/' ∈ token
    · obtain ⟨ip, len, n, hpair, hint, h0, h32⟩ := accepted_of_parts hslash h
      obtain ⟨hip, hlen, k, htoken⟩ := Text.eq_of_parts_pair hslash hpair
      exact .inr ⟨ip, len, k, hip, hlen, ⟨n, hint, h0, h32⟩, htoken⟩
    · exact .inl hslash
  · rintro (hslash | ⟨ip, len, k, hip, hlen, ⟨n, hint, h0, h32⟩, rfl⟩)
    · rw [cidrToIPAndNetmask_of_not_mem hslash, cidrToIPAndNetmask_of_len hslash (by decide)]
      exact Option.some_ne_none _
    · rw [cidrToIPAndNetmask_of_length hip hlen hint h0 h32]
      exact Option.some_ne_none _

theorem IsLength.toInt {len : List Char} (h : IsLength len) : ∃ n, Text.toInt len = some n ∧ 0 ≤ n ∧ n ≤ 32 := by
  have hle := h.le
  exact ⟨_, Text.parseSigned_digits h.ne_nil h.digits (by omega) (by omega), by omega, by omega⟩

/-- A well-formed token is not refused. -/
theorem accepted_of_wellFormed {token : List Char} (h : WellFormed token) : Accepted token := by
  rcases h with ⟨n, hquad⟩ | ⟨ip, n, len, hquad, hlen, rfl⟩
  · exact .inl (hquad.not_mem (by decide) (by decide))
  · have hslash : '/' ∉ len := fun hmem => absurd (hlen.digits _ hmem) (by decide)
    refine .inr ⟨ip, len, 0, hquad.not_mem (by decide) (by decide), hslash, hlen.toInt, ?_⟩
    rw [List.replicate_zero, List.append_nil]

theorem cidrRoutes_eq_nil_iff (l : List (List Char)) :
    cidrRoutes l = [] ↔ ∀ token, (l.filter (· ≠ [])).head? = some token → VpnProfile.cidrToIPAndNetmask token = none := by
  induction l with
  | nil => exact iff_of_true rfl nofun
  | cons token l ih =>
    unfold cidrRoutes
    by_cases hnil : token = []
    · rw [if_pos hnil, ih, List.filter_cons_of_neg (by simpa using hnil)]
    · rw [if_neg hnil, List.filter_cons_of_pos (by simpa using hnil), List.head?_cons]
      cases hcidr : VpnProfile.cidrToIPAndNetmask token with
      | none =>
        refine iff_of_true rfl fun token' htoken => ?_
        rw [← Option.some.inj htoken]
        exact hcidr
      | some route =>
        refine iff_of_false (List.cons_ne_nil _ _) fun h => ?_
        rw [h token rfl] at hcidr
        cases hcidr

/-- Without a refused token every token is a route. -/
theorem cidrRoutes_of_accepted {l : List (List Char)}
    (h : ∀ token ∈ l.filter (· ≠ []), VpnProfile.cidrToIPAndNetmask token ≠ none) :
    (l.filter (· ≠ [])).map VpnProfile.cidrToIPAndNetmask = (cidrRoutes l).map some := by
  induction l with
  | nil => rfl
  | cons token l ih =>
    unfold cidrRoutes
    by_cases hnil : token = []
    · rw [List.filter_cons_of_neg (by simpa using hnil)] at h ⊢
      rw [if_pos hnil, ih h]
    · rw [List.filter_cons_of_pos (by simpa using hnil)] at h ⊢
      obtain ⟨htoken, hl⟩ := List.forall_mem_cons.mp h
      obtain ⟨route, hroute⟩ := Option.ne_none_iff_exists'.mp htoken
      rw [if_neg hnil, List.map_cons, ih hl, hroute]
      rfl

theorem getCustomRoutes_eq (field : Option (List Char)) :
    getCustomRoutes field = cidrRoutes (splitRoutes (field.getD [])) := by
  cases field with
  | none => rfl
  | some routes => rfl

/-! ### The check -/

/-- A field that the check complains about. -/
theorem field_error_iff (field : Option (List Char)) :
    ((!isEmpty field) = true ∧ (getCustomRoutes field).length = 0) ↔ Separators field ∨ RefusedFirst field := by
  rw [getCustomRoutes_eq, List.length_eq_zero_iff, cidrRoutes_eq_nil_iff, Bool.not_eq_true']
  constructor
  · rintro ⟨hempty, hfirst⟩
    cases htokens : tokens field with
    | nil => exact .inl ⟨hempty, htokens⟩
    | cons token rest =>
      have hhead : (tokens field).head? = some token := by rw [htokens]; rfl
      exact .inr ⟨token, hhead, fun hacc => cidrToIPAndNetmask_ne_none_iff.mpr hacc (hfirst token hhead)⟩
  · rintro (⟨hempty, hnone⟩ | ⟨token, hhead, hrefused⟩)
    · refine ⟨hempty, fun token htoken => ?_⟩
      have hhead : (tokens field).head? = some token := htoken
      rw [hnone] at hhead
      cases hhead
    · refine ⟨?_, fun token' htoken' => ?_⟩
      · rw [isEmpty, decide_eq_false_iff_not]
        intro hnil
        rw [tokens, hnil] at hhead
        cases hhead
      · rw [← Option.some.inj (hhead.symm.trans htoken')]
        exact Classical.not_not.mp fun hne => hrefused (cidrToIPAndNetmask_ne_none_iff.mp hne)

section
variable {np : VpnProfile}

theorem checkRoutes_cases (hdefault : np.mUseDefaultRoute = false) :
    (checkRoutes np = some .customRouteFormatError ∧ ∃ field ∈ fields np, Separators field ∨ RefusedFirst field) ∨
      (checkRoutes np = none ∧ ∀ field ∈ fields np, ¬(Separators field ∨ RefusedFirst field)) := by
  unfold checkRoutes fields
  rw [if_neg (by rw [hdefault]; decide)]
  split
  · rename_i h
    exact .inl ⟨rfl, _, List.mem_cons_self, (field_error_iff _).mp h⟩
  · rename_i hcustom
    split
    · rename_i h
      exact .inl ⟨rfl, _, List.mem_cons_of_mem _ List.mem_cons_self, (field_error_iff _).mp h⟩
    · rename_i hexcluded
      refine .inr ⟨rfl, List.forall_mem_cons.mpr ⟨?_, List.forall_mem_singleton.mpr ?_⟩⟩
      · exact fun h => hcustom ((field_error_iff _).mpr h)
      · exact fun h => hexcluded ((field_error_iff _).mpr h)

theorem checkKeys_ne (np : VpnProfile) : checkKeys np ≠ some .customRouteFormatError := by
  unfold checkKeys
  repeat' split
  all_goals decide

theorem checkOpenVPN3_ne (np : VpnProfile) : checkOpenVPN3 np ≠ some .customRouteFormatError := by
  unfold checkOpenVPN3
  repeat' split
  all_goals decide

theorem checkOrbot_ne (np : VpnProfile) (checkTorReceiver : Bool) :
    checkOrbot np checkTorReceiver ≠ some .customRouteFormatError := by
  unfold checkOrbot
  repeat' split
  all_goals decide

/-- No other check complains about the routes. -/
theorem checkRest_ne (np : VpnProfile) (useOpenVPN3 checkTorReceiver : Bool) :
    checkRest np useOpenVPN3 checkTorReceiver ≠ some .customRouteFormatError := by
  intro h
  rcases Option.or_eq_some_iff.mp h with h | ⟨-, h⟩
  · rcases Option.or_eq_some_iff.mp h with h | ⟨-, h⟩
    · exact checkKeys_ne np h
    · split at h
      · exact checkOpenVPN3_ne np h
      · cases h
  · exact checkOrbot_ne np checkTorReceiver h

theorem checkProfile_eq_iff {mAlias : Option (List Char)} (hdefault : np.mUseDefaultRoute = false)
    (hfirst : checkFirst np mAlias = none) (useOpenVPN3 checkTorReceiver : Bool) :
    checkProfile np mAlias useOpenVPN3 checkTorReceiver = .customRouteFormatError ↔
      ∃ field ∈ fields np, Separators field ∨ RefusedFirst field := by
  unfold checkProfile
  rw [hfirst, Option.none_or]
  rcases checkRoutes_cases hdefault with ⟨hroutes, hbad⟩ | ⟨hroutes, hgood⟩
  · rw [hroutes]
    exact iff_of_true rfl hbad
  · rw [hroutes, Option.none_or]
    refine iff_of_false (fun h => ?_) fun ⟨field, hfield, hbad⟩ => hgood field hfield hbad
    cases hrest : checkRest np useOpenVPN3 checkTorReceiver with
    | none =>
      rw [hrest] at h
      cases h
    | some e =>
      rw [hrest] at h
      exact checkRest_ne np useOpenVPN3 checkTorReceiver (hrest.trans (congrArg some h))

/-- The generated lines: one for every token, in their order. -/
def EmitsAll (np : VpnProfile) : Prop :=
  ∃ custom excluded : List (List Char), (tokens np.mCustomRoutes).map VpnProfile.cidrToIPAndNetmask = custom.map some ∧
    (tokens np.mExcludedRoutes).map VpnProfile.cidrToIPAndNetmask = excluded.map some ∧
    routeLines np = custom.map (routeLine · vpnGateway) ++ excluded.map (routeLine · netGateway)

theorem emitsAll_of_wellFormed (hdefault : np.mUseDefaultRoute = false) (h : ¬Malformed np) : EmitsAll np := by
  have hfield : ∀ field ∈ fields np, (tokens field).map VpnProfile.cidrToIPAndNetmask =
      (getCustomRoutes field).map some := by
    intro field hfield
    rw [getCustomRoutes_eq]
    refine cidrRoutes_of_accepted fun token htoken => cidrToIPAndNetmask_ne_none_iff.mpr (accepted_of_wellFormed ?_)
    exact Classical.not_not.mp fun hbad => h ⟨field, hfield, token, htoken, hbad⟩
  refine ⟨_, _, hfield _ List.mem_cons_self, hfield _ (List.mem_cons_of_mem _ List.mem_cons_self), ?_⟩
  unfold routeLines
  rw [if_neg (by rw [hdefault]; decide)]

/-- The check complains exactly about malformed tokens, and without a complaint every token becomes a line. -/
def Validates (np : VpnProfile) (result : CheckResult) : Prop :=
  (result = .customRouteFormatError ↔ Malformed np) ∧ (result ≠ .customRouteFormatError → EmitsAll np)

/-- Without a malformed token no field has separators only; with one, there is such a field or one whose first token
    is refused. -/
def Noticed (np : VpnProfile) : Prop :=
  (¬Malformed np ∧ ∀ field ∈ fields np, ¬Separators field) ∨
    (Malformed np ∧ ∃ field ∈ fields np, Separators field ∨ RefusedFirst field)

theorem malformed_of_refusedFirst {field : Option (List Char)} (hfield : field ∈ fields np) (h : RefusedFirst field) :
    Malformed np := by
  obtain ⟨token, hhead, hrefused⟩ := h
  exact ⟨field, hfield, token, List.mem_of_mem_head? hhead, fun hwell => hrefused (accepted_of_wellFormed hwell)⟩

theorem validates_iff {mAlias : Option (List Char)} (hdefault : np.mUseDefaultRoute = false)
    (hfirst : checkFirst np mAlias = none) (useOpenVPN3 checkTorReceiver : Bool) :
    Validates np (checkProfile np mAlias useOpenVPN3 checkTorReceiver) ↔ Noticed np := by
  unfold Validates Noticed
  rw [Ne, checkProfile_eq_iff hdefault hfirst]
  constructor
  · rintro ⟨hiff, -⟩
    by_cases hbad : Malformed np
    · exact .inr ⟨hbad, hiff.mpr hbad⟩
    · exact .inl ⟨hbad, fun field hfield hsep => hbad (hiff.mp ⟨field, hfield, .inl hsep⟩)⟩
  · rintro (⟨hgood, hsep⟩ | ⟨hbad, hfield⟩)
    · have hno : ¬∃ field ∈ fields np, Separators field ∨ RefusedFirst field := by
        rintro ⟨field, hfield, h | h⟩
        · exact hsep field hfield h
        · exact hgood (malformed_of_refusedFirst hfield h)
      exact ⟨iff_of_false hno hgood, fun _ => emitsAll_of_wellFormed hdefault hgood⟩
    · exact ⟨iff_of_true hfield hbad, fun hno => absurd hfield hno⟩

end

/-- A profile with a password and the routes of a text. -/
def routed (routes : String) : VpnProfile :=
  { mName := "routes".toList, mAuthenticationType := .userpass, mUseDefaultRoute := false
    mCustomRoutes := some routes.toList }

theorem validates_private : Validates (routed "10.0.0.0/8") (checkProfile (routed "10.0.0.0/8") none false false) := by
  have hdefault : (routed "10.0.0.0/8").mUseDefaultRoute = false := rfl
  have hfirst : checkFirst (routed "10.0.0.0/8") none = none := by decide
  have htokens : (fields (routed "10.0.0.0/8")).map tokens = [["10.0.0.0/8".toList], []] := by decide
  have hwell : WellFormed "10.0.0.0/8".toList := by
    have hdotted : "10.0.0.0".toList = dotted 167772160 := by decide
    have hquad : Quad "10.0.0.0".toList 167772160 := by
      rw [hdotted]
      exact quad_dotted (by decide)
    have hlen : IsLength ['8'] := ⟨by decide, Text.forall_of_all (by decide), by decide⟩
    exact .inr ⟨_, _, _, hquad, hlen, by decide⟩
  have hnone : ∀ tokens ∈ [["10.0.0.0/8".toList], []], ∀ token ∈ tokens, WellFormed token := by
    simp only [List.forall_mem_cons, List.not_mem_nil, false_imp_iff, implies_true, and_true]
    exact hwell
  have hgood : ¬Malformed (routed "10.0.0.0/8") := by
    rintro ⟨field, hfield, token, htoken, hbad⟩
    have hmem : tokens field ∈ [["10.0.0.0/8".toList], []] := htokens ▸ List.mem_map_of_mem hfield
    exact hbad (hnone _ hmem token htoken)
  refine (validates_iff hdefault hfirst false false).mpr (.inl ⟨hgood, ?_⟩)
  rintro field hfield ⟨hempty, hsep⟩
  rcases List.mem_cons.mp hfield with rfl | hfield
  · exact absurd hsep (by decide)
  · rw [List.mem_singleton.mp hfield] at hempty
    exact absurd hempty (by decide)

/-- The second token is malformed; it is not noticed, and the third one is lost with it. -/
theorem route_lost : checkFirst (routed "10.0.0.0/8 10.1.0.0/33 192.168.0.0/16") none = none ∧
    Malformed (routed "10.0.0.0/8 10.1.0.0/33 192.168.0.0/16") ∧
    checkProfile (routed "10.0.0.0/8 10.1.0.0/33 192.168.0.0/16") none false false = .noErrorFound ∧
    routeLines (routed "10.0.0.0/8 10.1.0.0/33 192.168.0.0/16") =
      ["route 10.0.0.0  255.0.0.0 vpn_gateway\n".toList] := by
  have hrefused : VpnProfile.cidrToIPAndNetmask "10.1.0.0/33".toList = none := by decide
  refine ⟨by decide, ⟨_, List.mem_cons_self, "10.1.0.0/33".toList, by decide, fun hwell => ?_⟩, by decide, by decide⟩
  exact cidrToIPAndNetmask_ne_none_iff.mpr (accepted_of_wellFormed hwell) hrefused

end VpnProfile
end NicVpn
