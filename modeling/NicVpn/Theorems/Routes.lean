import NicVpn.Theorems.Routing
import NicVpn.Theorems.NetworkText

/-! The routes of a configuration in the configuration that is generated from its profile. Without the default route
    they come back with their networks and masks, and in their sense. -/

namespace NicVpn
namespace ConfigParser
open Taking

/-! ### The texts of routes -/

def routeNet (args : Args) : List Char := args[1]?.getD []

def IsExcluded (line : Args) : Bool := routeGateway line = "net_gateway".toList

/-- The length that a mask is taken to have. -/
def lengthOf (mask : List Char) : Nat :=
  match calculateLenFromMask mask with
  | .ok len => len
  | .error _ => 32

/-- A route as `convertProfile` writes it. -/
def textOf (line : Args) : List Char := (CIDRIP.mk (routeNet line) (lengthOf (routeMask line))).toText

theorem lengthOf_le (mask : List Char) : lengthOf mask ≤ 32 := by
  unfold lengthOf
  split
  · rename_i len h
    exact calculateLenFromMask_le h
  · exact Nat.le_refl 32

theorem addRoute_eq_ok {acc acc' : List Char × List Char} {line : Args} (h : addRoute acc line = .ok acc') :
    ¬Unreadable (routeMask line) ∧ acc' =
      if IsExcluded line then (acc.1, acc.2 ++ textOf line ++ [' ']) else (acc.1 ++ textOf line ++ [' '], acc.2) := by
  have hget : get line 1 = .ok (routeNet line) ∧ 1 < line.length := by
    unfold get routeNet
    cases hline : (line)[1]? with
    | none =>
      unfold addRoute at h
      rw [getIf_eq (i := 2) rfl, getIf_eq (i := 3) rfl] at h
      have hmissing : get line 1 = .error .arrayIndexOutOfBounds := by
        unfold get
        rw [hline]
      rw [hmissing] at h
      cases h
    | some net => exact ⟨rfl, (List.getElem?_eq_some_iff.mp hline).1⟩
  obtain ⟨hread, hbit⟩ := (addRoute_ok_iff acc hget.2).mp ⟨acc', h⟩
  refine ⟨hread, ?_⟩
  rcases calculateLenFromMask_cases (routeMask line) with
    ⟨-, -, len, hlen⟩ | ⟨hbit', -⟩ | ⟨hun, -, -⟩ | ⟨hun, -, -⟩
  · rw [addRoute_of_ok acc hget.1 hlen] at h
    cases h
    unfold textOf lengthOf IsExcluded
    rw [hlen]
    simp only [decide_eq_true_eq]
  · exact absurd hbit' hbit
  · exact absurd hun hread
  · exact absurd hun hread

/-- The routes of either sense, in the order of the file. -/
theorem foldlM_addRoute {lines : List Args} {acc texts : List Char × List Char}
    (h : lines.foldlM addRoute acc = .ok texts) :
    (∀ line ∈ lines, ¬Unreadable (routeMask line)) ∧
      texts.1 = acc.1 ++ (lines.filter fun line => !IsExcluded line).flatMap (fun line => textOf line ++ [' ']) ∧
      texts.2 = acc.2 ++ (lines.filter IsExcluded).flatMap fun line => textOf line ++ [' '] := by
  induction lines generalizing acc with
  | nil =>
    cases h
    simp
  | cons line lines ih =>
    rw [List.foldlM_cons] at h
    cases hacc : addRoute acc line with
    | error e =>
      rw [hacc] at h
      cases h
    | ok acc' =>
      rw [hacc] at h
      obtain ⟨hread, heq⟩ := addRoute_eq_ok hacc
      obtain ⟨hlines, hfst, hsnd⟩ := ih h
      refine ⟨List.forall_mem_cons.mpr ⟨hread, hlines⟩, ?_⟩
      rw [hfst, hsnd, heq]
      cases hexcl : IsExcluded line <;> simp [hexcl]

/-! ### Reading the texts back -/

/-- The characters that `splitRoutes` cuts at. -/
def IsBlank (c : Char) : Bool := c = '\n' || c = ' ' || c = '\t'

theorem splitRoutes_append (s t : List Char) :
    VpnProfile.splitRoutes (s ++ ' ' :: t) = VpnProfile.splitRoutes s ++ VpnProfile.splitRoutes t :=
  List.splitOnP_append_cons s t (by decide)

theorem splitRoutes_of_not_blank {s : List Char} (h : ∀ c ∈ s, IsBlank c = false) : VpnProfile.splitRoutes s = [s] :=
  List.splitOnP_eq_singleton h

theorem splitRoutes_flatMap (texts : List (List Char)) :
    VpnProfile.splitRoutes (texts.flatMap (· ++ [' '])) = texts.flatMap VpnProfile.splitRoutes ++ [[]] := by
  induction texts with
  | nil => rfl
  | cons text texts ih =>
    rw [List.flatMap_cons, List.append_assoc, List.singleton_append, splitRoutes_append, ih, List.flatMap_cons,
      List.append_assoc]

/-- A token that does not end the reading. -/
def Readable (token : List Char) : Prop := token = [] ∨ VpnProfile.cidrToIPAndNetmask token ≠ none

/-- The tokens before do not matter if all of them are readable. -/
theorem mem_cidrRoutes_append {tokens tokens' : List (List Char)} (h : ∀ token ∈ tokens, Readable token)
    {route : List Char} (hroute : route ∈ VpnProfile.cidrRoutes tokens') :
    route ∈ VpnProfile.cidrRoutes (tokens ++ tokens') := by
  induction tokens with
  | nil => exact hroute
  | cons token tokens ih =>
    obtain ⟨htoken, htokens⟩ := List.forall_mem_cons.mp h
    show route ∈ VpnProfile.cidrRoutes (token :: (tokens ++ tokens'))
    unfold VpnProfile.cidrRoutes
    split
    · exact ih htokens
    · rename_i hne
      split
      · rename_i hnone
        exact absurd hnone (htoken.resolve_left hne)
      · exact List.mem_cons_of_mem _ (ih htokens)

theorem toInt_toDigits {len : Nat} (h : len ≤ 32) : Text.toInt (Nat.toDigits 10 len) = some (len : Int) := by
  have hvalue : Nat.ofDigitChars 10 (Nat.toDigits 10 len) 0 = len := Nat.ofDigitChars_ten_toDigits
  have hint : Text.toInt (Nat.toDigits 10 len) = some ((Nat.ofDigitChars 10 (Nat.toDigits 10 len) 0 : Nat) : Int) :=
    Text.parseSigned_digits Nat.toDigits_ne_nil (fun c hc => Nat.isDigit_of_mem_toDigits (by decide) (by decide) hc)
      (by omega) (by omega)
  rw [hint, hvalue]

/-- The mask of a length. -/
def maskOf (len : Nat) : List Char := dotted (4294967295 * 2 ^ (32 - len) % 4294967296)

theorem parts_slash {ip : List Char} (hip : '/' ∉ ip) (len : Nat) :
    Text.parts '/' (ip ++ '/' :: Nat.toDigits 10 len) = [ip, Nat.toDigits 10 len] := by
  refine Text.parts_eq_split (l := [ip]) (by simp) ?_ Nat.toDigits_ne_nil
  rw [Text.split_append_cons hip, Text.split_of_not_mem (not_mem_toDigits_ten slash_ne_digitChar len)]
  rfl

theorem cidrToIPAndNetmask_of_len {ip : List Char} (hip : '/' ∉ ip) {len : Nat} (hlen : len ≤ 32) :
    VpnProfile.cidrToIPAndNetmask (ip ++ '/' :: Nat.toDigits 10 len) = some (ip ++ "  ".toList ++ maskOf len) := by
  have hrange : ¬((len : Int) < 0 ∨ 32 < (len : Int)) := by omega
  unfold VpnProfile.cidrToIPAndNetmask maskOf
  simp only [parts_slash hip, List.length_cons, List.length_nil, Nat.reduceAdd, OfNat.ofNat_ne_one, ↓reduceIte,
    toInt_toDigits hlen, Option.bind_eq_bind, Option.bind_some, hrange, Int.toNat_natCast]

theorem cidrToIPAndNetmask_of_not_mem {ip : List Char} (hip : '/' ∉ ip) :
    VpnProfile.cidrToIPAndNetmask ip = VpnProfile.cidrToIPAndNetmask (ip ++ '/' :: Nat.toDigits 10 32) := by
  have hslash : "/32".toList = '/' :: Nat.toDigits 10 32 := by decide
  unfold VpnProfile.cidrToIPAndNetmask
  simp only [Text.parts_of_not_mem hip, ↓reduceIte, hslash, parts_slash hip, List.length_cons, List.length_nil,
    Nat.reduceAdd, OfNat.ofNat_ne_one]

theorem isBlank_of_isDigit {c : Char} (h : c.isDigit = true) : IsBlank c = false := by
  have hne : ∀ d : Char, d.isDigit = false → c ≠ d := by
    rintro d hd rfl
    rw [h] at hd
    cases hd
  simp [IsBlank, hne '\n' (by decide), hne ' ' (by decide), hne '\t' (by decide)]

theorem isBlank_of_mem_length {len : Nat} {c : Char} (h : c ∈ '/' :: Nat.toDigits 10 len) : IsBlank c = false := by
  rcases List.mem_cons.mp h with rfl | h
  · decide
  · exact isBlank_of_isDigit (Nat.isDigit_of_mem_toDigits (by decide) (by decide) h)

/-- The tokens of a network without a slash that a length follows. -/
theorem token_of_net {net : List Char} (hnet : '/' ∉ net) (len : Nat) :
    ∀ token ∈ VpnProfile.splitRoutes (net ++ '/' :: Nat.toDigits 10 len),
      '/' ∉ token ∨ ∃ ip, '/' ∉ ip ∧ token = ip ++ '/' :: Nat.toDigits 10 len := by
  induction net with
  | nil =>
    intro token htoken
    rw [List.nil_append, splitRoutes_of_not_blank fun c hc => isBlank_of_mem_length hc] at htoken
    exact .inr ⟨[], List.not_mem_nil, List.mem_singleton.mp htoken⟩
  | cons c net ih =>
    obtain ⟨hc, hnet⟩ := List.ne_and_not_mem_of_not_mem_cons hnet
    have ih := ih hnet
    intro token htoken
    have hcons : VpnProfile.splitRoutes (c :: (net ++ '/' :: Nat.toDigits 10 len)) = if IsBlank c = true
        then [] :: VpnProfile.splitRoutes (net ++ '/' :: Nat.toDigits 10 len)
        else (VpnProfile.splitRoutes (net ++ '/' :: Nat.toDigits 10 len)).modifyHead (c :: ·) :=
      List.splitOnP_cons_eq_if_modifyHead ..
    rw [List.cons_append, hcons] at htoken
    split at htoken
    · rcases List.mem_cons.mp htoken with rfl | htoken
      · exact .inl List.not_mem_nil
      · exact ih token htoken
    · generalize VpnProfile.splitRoutes (net ++ '/' :: Nat.toDigits 10 len) = tokens at htoken ih
      cases tokens with
      | nil => cases htoken
      | cons first tokens =>
        rcases List.mem_cons.mp htoken with rfl | htoken
        · rcases ih first List.mem_cons_self with hfirst | ⟨ip, hip, rfl⟩
          · exact .inl (List.not_mem_cons_of_ne_of_not_mem hc hfirst)
          · exact .inr ⟨c :: ip, List.not_mem_cons_of_ne_of_not_mem hc hip, rfl⟩
        · exact ih token (List.mem_cons_of_mem _ htoken)

theorem textOf_eq (line : Args) :
    textOf line = routeNet line ++ '/' :: Nat.toDigits 10 (lengthOf (routeMask line)) := CIDRIP.toText_eq _

/-- A network without a slash is read to its end. -/
theorem readable_textOf {line : Args} (h : '/' ∉ routeNet line) :
    ∀ token ∈ VpnProfile.splitRoutes (textOf line), Readable token := by
  intro token htoken
  rw [textOf_eq] at htoken
  refine .inr ?_
  rcases token_of_net h _ token htoken with hslash | ⟨ip, hip, rfl⟩
  · rw [cidrToIPAndNetmask_of_not_mem hslash, cidrToIPAndNetmask_of_len hslash (by decide)]
    exact Option.some_ne_none _
  · rw [cidrToIPAndNetmask_of_len hip (lengthOf_le _)]
    exact Option.some_ne_none _

/-- The route of a line is among those that are read back, if the networks before it have no slash. -/
theorem mem_getCustomRoutes {before after : List Args} {line : Args} (hbefore : ∀ l ∈ before, '/' ∉ routeNet l)
    (hslash : '/' ∉ routeNet line) (hblank : ∀ c ∈ routeNet line, IsBlank c = false) :
    routeNet line ++ "  ".toList ++ maskOf (lengthOf (routeMask line)) ∈
      VpnProfile.getCustomRoutes (some ((before ++ line :: after).flatMap fun l => textOf l ++ [' '])) := by
  have hmap : (before ++ line :: after).flatMap (fun l => textOf l ++ [' ']) =
      ((before ++ line :: after).map textOf).flatMap (· ++ [' ']) := by rw [List.flatMap_map]
  have htoken : VpnProfile.splitRoutes (textOf line) = [textOf line] := by
    refine splitRoutes_of_not_blank fun c hc => ?_
    rw [textOf_eq] at hc
    rcases List.mem_append.mp hc with hc | hc
    · exact hblank c hc
    · exact isBlank_of_mem_length hc
  unfold VpnProfile.getCustomRoutes
  dsimp only
  rw [hmap, splitRoutes_flatMap, List.map_append, List.map_cons, List.flatMap_append, List.flatMap_cons, htoken,
    List.append_assoc]
  refine mem_cidrRoutes_append (fun token hmem => ?_) ?_
  · obtain ⟨text, htext, hmem⟩ := List.mem_flatMap.mp hmem
    obtain ⟨l, hl, rfl⟩ := List.mem_map.mp htext
    exact readable_textOf (hbefore l hl) token hmem
  · have hne : textOf line ≠ [] := by
      rw [textOf_eq]
      exact List.append_ne_nil_of_right_ne_nil _ (List.cons_ne_nil _ _)
    have hread := cidrToIPAndNetmask_of_len hslash (lengthOf_le (routeMask line))
    rw [← textOf_eq] at hread
    show _ ∈ VpnProfile.cidrRoutes (textOf line :: _)
    unfold VpnProfile.cidrRoutes
    rw [if_neg hne, hread]
    exact List.mem_cons_self

/-! ### The routes of the generated configuration -/

/-- A line `route net mask gateway` in dotted quads and with a sense that is given by name. -/
structure IsRoute (line : Args) (net : List Char) (mask : Nat) (gateway : List Char) : Prop where
  hasNet : (line)[1]? = some net
  netQuad : ∃ n, Quad net n
  maskQuad : Quad (routeMask line) mask
  hasGateway : routeGateway line = gateway
  known : gateway = VpnProfile.vpnGateway ∨ gateway = VpnProfile.netGateway

theorem mod_eq_sub : ∀ k ≤ 32, 4294967295 * 2 ^ k % 4294967296 = 4294967296 - 2 ^ k := by decide

theorem maskOf_of_contiguous {mask : List Char} {n : Nat} (h : Quad mask n) (hn : Contiguous n) :
    maskOf (lengthOf mask) = dotted n := by
  obtain ⟨k, hk, rfl⟩ := hn
  unfold maskOf lengthOf
  rw [calculateLenFromMask_of_contiguous h hk rfl]
  dsimp only
  rw [Nat.sub_sub_self hk, mod_eq_sub k hk]

theorem maskOf_of_not_contiguous {mask : List Char} {n : Nat} (h : Quad mask n) (hn : ¬Contiguous n) :
    maskOf (lengthOf mask) = "255.255.255.255".toList := by
  unfold lengthOf
  rw [calculateLenFromMask_of_not_contiguous h hn]
  decide

/-- The route of a line in its sense. -/
theorem routeLine_mem {o : Options} {np : VpnProfile} {texts : List Char × List Char} (h : Routed o np texts)
    (hdefault : usesDefaultRoute o = false) {before after : List Args} {line : Args} {net gateway : List Char} {mask : Nat}
    (hlines : routesOf o = before ++ line :: after) (hline : IsRoute line net mask gateway)
    (hbefore : ∀ l ∈ before, IsExcluded l = IsExcluded line → '/' ∉ routeNet l) :
    VpnProfile.routeLine (net ++ "  ".toList ++ maskOf (lengthOf (routeMask line))) gateway ∈
      VpnProfile.routeLines np := by
  obtain ⟨n, hquad⟩ := hline.netQuad
  have hnet : routeNet line = net := by
    unfold routeNet
    rw [hline.hasNet]
    rfl
  have hslash : '/' ∉ routeNet line := by
    rw [hnet]
    exact hquad.not_mem (by decide) (by decide)
  have hblank : ∀ c ∈ routeNet line, IsBlank c = false := by
    intro c hc
    have hne : ∀ d : Char, d.isDigit = false → d ≠ '.' → c ≠ d := by
      rintro d hd hdot rfl
      exact hquad.not_mem hd hdot (hnet ▸ hc)
    simp [IsBlank, hne '\n' (by decide) (by decide), hne ' ' (by decide) (by decide), hne '\t' (by decide) (by decide)]
  obtain ⟨-, hcustom, hexcluded⟩ := foldlM_addRoute h.added
  rw [List.nil_append] at hcustom hexcluded
  unfold VpnProfile.routeLines
  rw [h.useDefaultRoute, hdefault, if_neg Bool.false_ne_true, h.custom, h.excluded, hcustom, hexcluded, hlines, ← hnet]
  cases hexcl : IsExcluded line with
  | true =>
    have hgateway : gateway = VpnProfile.netGateway := hline.hasGateway.symm.trans (of_decide_eq_true hexcl)
    refine List.mem_append_right _ (List.mem_map.mpr ⟨_, ?_, by rw [hgateway]⟩)
    rw [List.filter_append, List.filter_cons_of_pos hexcl]
    refine mem_getCustomRoutes (fun l hl => ?_) hslash hblank
    obtain ⟨hl, hexcl'⟩ := List.mem_filter.mp hl
    exact hbefore l hl (hexcl'.trans hexcl.symm)
  | false =>
    have hgateway : gateway = VpnProfile.vpnGateway := by
      refine hline.known.resolve_right fun hnetgw => ?_
      exact of_decide_eq_false hexcl (hline.hasGateway.trans hnetgw)
    have hfilter : (line :: after).filter (fun line => !IsExcluded line) =
        line :: after.filter fun line => !IsExcluded line := List.filter_cons_of_pos (by rw [hexcl, Bool.not_false])
    refine List.mem_append_left _ (List.mem_map.mpr ⟨_, ?_, by rw [hgateway]⟩)
    rw [List.filter_append, hfilter]
    refine mem_getCustomRoutes (fun l hl => ?_) hslash hblank
    obtain ⟨hl, hincl'⟩ := List.mem_filter.mp hl
    rw [Bool.not_eq_true'] at hincl'
    exact hbefore l hl (hincl'.trans hexcl.symm)

/-- Without the default route every route comes back with its network and in its sense, and with its mask unless that
    is none, which stands for a single address. With the default route there are no others. A mask that cannot be read
    is refused. -/
theorem routes_survive {order : HashOrder} {p : Parsed} {np : VpnProfile} {file : Option (List Char)}
    (h : convertProfile order p = .ok (np, file)) :
    (∀ line ∈ routesOf p.options, ¬Unreadable (routeMask line)) ∧
      (usesDefaultRoute p.options = true →
        VpnProfile.routeLines np = [VpnProfile.routeLine "0.0.0.0 0.0.0.0".toList VpnProfile.vpnGateway]) ∧
      (usesDefaultRoute p.options = false → ∀ before line after net mask gateway,
        routesOf p.options = before ++ line :: after → IsRoute line net mask gateway →
        (∀ l ∈ before, IsExcluded l = IsExcluded line → '/' ∉ routeNet l) →
        (Contiguous mask → VpnProfile.routeLine (net ++ "  ".toList ++ dotted mask) gateway ∈ VpnProfile.routeLines np) ∧
        (¬Contiguous mask →
          VpnProfile.routeLine (net ++ "  255.255.255.255".toList) gateway ∈ VpnProfile.routeLines np)) := by
  obtain ⟨texts, hrouted⟩ := routed_of_convertProfile h
  refine ⟨(foldlM_addRoute hrouted.added).1, fun hdefault => ?_, fun hdefault => ?_⟩
  · unfold VpnProfile.routeLines
    rw [hrouted.useDefaultRoute, hdefault, if_pos rfl]
  · intro before line after net mask gateway hlines hline hbefore
    have hmem := routeLine_mem hrouted hdefault hlines hline hbefore
    refine ⟨fun hmask => ?_, fun hmask => ?_⟩
    · rw [maskOf_of_contiguous hline.maskQuad hmask] at hmem
      exact hmem
    · rw [maskOf_of_not_contiguous hline.maskQuad hmask, List.append_assoc] at hmem
      exact hmem

/-- The octets of a text without a zero before them. -/
theorem octet_of_toDigits {n : Nat} (h : n ≤ 255) : Octet (Nat.toDigits 10 n) n where
  ne_nil := Nat.toDigits_ne_nil
  digits c hc := Nat.isDigit_of_mem_toDigits (by decide) (by decide) hc
  value := Nat.ofDigitChars_ten_toDigits
  le := h

theorem quad_dotted {n : Nat} (h : n < 4294967296) : Quad (dotted n) n := by
  have hoctet : ∀ m, Octet (toString (m % 256)).toList (m % 256) := fun m => by
    rw [toList_toString]
    exact octet_of_toDigits (by omega)
  refine ⟨_, _, _, _, _, _, _, _, hoctet (n / 16777216), hoctet (n / 65536), hoctet (n / 256), hoctet n, dotted_eq n, ?_⟩
  omega

/-- An excluded network of eight bits that comes back. -/
theorem routes_survive_excluded : ∃ np file,
    convertProfile fileOrder
      { options := [("route", ["route".toList, dotted 167772160, dotted 4278190080, "net_gateway".toList])] } =
        .ok (np, file) ∧
      VpnProfile.routeLine (dotted 167772160 ++ "  ".toList ++ dotted 4278190080) VpnProfile.netGateway ∈
        VpnProfile.routeLines np := by
  let p : Parsed :=
    { options := [("route", ["route".toList, dotted 167772160, dotted 4278190080, "net_gateway".toList])] }
  have hok : (convertProfile fileOrder p).isOk = true := by decide
  cases h : convertProfile fileOrder p with
  | error e =>
    rw [h] at hok
    cases hok
  | ok r =>
    have hroute : IsRoute ["route".toList, dotted 167772160, dotted 4278190080, "net_gateway".toList]
        (dotted 167772160) 4278190080 VpnProfile.netGateway :=
      ⟨rfl, ⟨_, quad_dotted (by decide)⟩, quad_dotted (by decide), rfl, .inr rfl⟩
    have hmem := ((routes_survive h).2.2 (by decide) [] _ [] _ _ _ rfl hroute nofun).1 ⟨24, by decide, by decide⟩
    exact ⟨r.1, r.2, rfl, hmem⟩

/-- An excluded network that is lost to the default route, and a mask with a gap that becomes another one. -/
theorem routes_lost :
    ((parseAndConvert fileOrder "route 10.0.0.0 255.0.0.0 net_gateway\nredirect-gateway\n".toList).toOption.map
      VpnProfile.routeLines = some ["route 0.0.0.0 0.0.0.0 vpn_gateway\n".toList]) ∧
    (parseAndConvert fileOrder "route 10.0.0.0 255.0.255.0\n".toList).toOption.map VpnProfile.routeLines =
      some ["route 10.0.0.0  255.255.255.255 vpn_gateway\n".toList] := by
  repeat rw [String.toList_ofList]
  decide +kernel

end ConfigParser
end NicVpn
