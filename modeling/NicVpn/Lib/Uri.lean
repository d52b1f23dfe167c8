import NicVpn.Lib.Percent
import NicVpn.Lib.Text

/-! `java.net.URI`: a text is taken apart into scheme, authority, path, query and fragment, each of which has its
    characters; an authority is a server with a host and a port, or else a name of a registry. -/

namespace Uri
open Percent

/-! ### Characters -/

def isAlpha (c : Char) : Bool := ('a' ≤ c && c ≤ 'z') || ('A' ≤ c && c ≤ 'Z')

def isDigit (c : Char) : Bool := '0' ≤ c && c ≤ '9'

def isAlphanum (c : Char) : Bool := isAlpha c || isDigit c

def isHex (c : Char) : Bool := (hexValue c).isSome

def isUnreserved (c : Char) : Bool := isAlphanum c || "_-!.~'()*".toList.contains c

def isReserved (c : Char) : Bool := ";/?:@&=+$,[]".toList.contains c

/-- A character beyond ASCII that is neither a control nor a space character. -/
def isOther (c : Char) : Bool :=
  let n := c.toNat
  0xA0 < n && n != 0x1680 && !(0x2000 ≤ n && n ≤ 0x200A) && n != 0x2028 && n != 0x2029 && n != 0x202F && n != 0x205F &&
    n != 0x3000

def isUric (c : Char) : Bool := isUnreserved c || isReserved c

def isPathChar (c : Char) : Bool := isUnreserved c || ";/:@&=+$,".toList.contains c

def isUserInfoChar (c : Char) : Bool := isUnreserved c || ";:&=+$,".toList.contains c

def isRegNameChar (c : Char) : Bool := isUnreserved c || ";:@&=+$,".toList.contains c

def isSchemeChar (c : Char) : Bool := isAlphanum c || "+-.".toList.contains c

def isScopeChar (c : Char) : Bool := isAlphanum c || "_.".toList.contains c

/-- A text of the given characters, of other characters and of escapes. -/
def legal (p : Char → Bool) (s : List Char) : Bool :=
  match pieces s with
  | none => false
  | some l => l.all fun b =>
    match b with
    | .char c => p c || isOther c
    | .byte _ => true

/-! ### Hosts -/

/-- The value of a byte in decimal. -/
def isByte (s : List Char) : Bool :=
  1 ≤ s.length && s.length ≤ 3 && s.all isDigit && (Text.toInt s).any (· ≤ 255)

def isIPv4 (s : List Char) : Bool :=
  let bytes := Text.split ['.'] s
  bytes.length = 4 && bytes.all isByte

/-- `domainlabel` -/
def isLabel (s : List Char) : Bool :=
  s.head?.any isAlphanum && s.getLast?.any isAlphanum && s.all fun c => isAlphanum c || c == '-'

/-- The labels of a name, less an empty one at its end. -/
def labels (s : List Char) : List (List Char) :=
  let l := Text.split ['.'] s
  if l.getLast? = some [] then l.dropLast else l

/-- `hostname`: the last of several labels begins with a letter. -/
def isHostname (s : List Char) : Bool :=
  let l := labels s
  l ≠ [] && l.all isLabel && (l.length = 1 || (l.getLast?.bind List.head?).any isAlpha)

/-- `hex4` -/
def isHex4 (s : List Char) : Bool := 1 ≤ s.length && s.length ≤ 4 && s.all isHex

/-- The bytes of groups, of which the last may be an IPv4 address. -/
def groupBytes : List (List Char) → Option Nat
  | [] => some 0
  | [g] => if isHex4 g then some 2 else if isIPv4 g then some 4 else none
  | g :: gs => if isHex4 g then (groupBytes gs).map (· + 2) else none

/-- The bytes on one side of a double colon. -/
def sideBytes (s : List Char) : Option Nat := if s = [] then some 0 else groupBytes (Text.split [':'] s)

def isIPv6 (s : List Char) : Bool :=
  match Text.split [':', ':'] s with
  | [s] => sideBytes s = some 16
  | [a, b] =>
    match sideBytes a, sideBytes b with
    | some m, some n => (Text.split [':'] a).all (fun g => g = [] || isHex4 g) && m + n < 16
    | _, _ => false
  | _ => false

/-- The text before the first such character, and what follows it. -/
def cut (c : Char) (s : List Char) : List Char × Option (List Char) :=
  (s.takeWhile (· ≠ c), if c ∈ s then some (s.dropWhile (· ≠ c)).tail else none)

/-- What stands in the brackets of a literal address. -/
def isLiteral (s : List Char) : Bool :=
  match cut '%' s with
  | (s, none) => isIPv6 s
  | (s, some scope) => isIPv6 s && scope ≠ [] && scope.all isScopeChar

/-! ### Authority -/

/-- A host with its port; −1 where there is none. -/
structure Server where
  userInfo : Option (List Char)
  host : List Char
  port : Int
  deriving DecidableEq, Repr

/-- The port behind a host. -/
def parsePort (s : List Char) : Option Int :=
  match s with
  | [] => some (-1)
  | [':'] => some (-1)
  | ':' :: s => if s.all isDigit then Text.toInt s else none
  | _ => none

/-- The host at the beginning of a text, and what follows it. -/
def parseHost (s : List Char) : Option (List Char × List Char) :=
  match s with
  | '[' :: t =>
    match cut ']' t with
    | (literal, some rest) => if isLiteral literal then some ('[' :: literal ++ [']'], rest) else none
    | (_, none) => none
  | _ =>
    let host := s.takeWhile (· ≠ ':')
    if isIPv4 host || isHostname host then some (host, s.dropWhile (· ≠ ':')) else none

def parseHostPort (userInfo : Option (List Char)) (s : List Char) : Option Server := do
  let (host, rest) ← parseHost s
  let port ← parsePort rest
  return { userInfo := userInfo, host := host, port := port }

def parseServer (s : List Char) : Option Server :=
  match cut '@' s with
  | (userInfo, some rest) => if legal isUserInfoChar userInfo then parseHostPort (some userInfo) rest else none
  | (_, none) => parseHostPort none s

end Uri

/-- The parts that the program reads. -/
structure Uri where
  scheme : Option (List Char)
  /-- No server for a registry name, and for a text without an authority. -/
  server : Option Uri.Server
  rawQuery : Option (List Char)
  rawFragment : Option (List Char)
  deriving DecidableEq, Repr

namespace Uri
open Percent

def parseAuthority (s : List Char) : Option (Option Server) :=
  match parseServer s with
  | some server => some (some server)
  | none => if legal isRegNameChar s then some none else none

def optional (p : Char → Bool) (s : Option (List Char)) : Bool := s.all (legal p)

/-- Authority, path and query; `last` tells that no fragment follows. -/
def parseHierarchical (scheme : Option (List Char)) (s : List Char) (fragment : Option (List Char)) : Option Uri :=
  let (s, query) := cut '?' s
  if !optional isUric query then none
  else
    match s with
    | '/' :: '/' :: t =>
      let authority := t.takeWhile (· ≠ '/')
      let path := t.dropWhile (· ≠ '/')
      if !legal isPathChar path then none
      else if authority = [] then
        if path = [] ∧ query = none ∧ fragment = none then none
        else some { scheme := scheme, server := none, rawQuery := query, rawFragment := fragment }
      else (parseAuthority authority).map fun server =>
        { scheme := scheme, server := server, rawQuery := query, rawFragment := fragment }
    | _ =>
      if legal isPathChar s then
        some { scheme := scheme, server := none, rawQuery := query, rawFragment := fragment }
      else none

/-- The constructor `URI(String)`; none stands for its exception. -/
def parse (s : List Char) : Option Uri :=
  let (s, fragment) := cut '#' s
  if !optional isUric fragment then none
  else
    match cut ':' s with
    | (scheme, some rest) =>
      if scheme.any "/?".toList.contains then parseHierarchical none s fragment
      else if !(scheme.head?.any isAlpha && scheme.all isSchemeChar) then none
      else if rest.head? = some '/' then parseHierarchical (some scheme) rest fragment
      else if rest ≠ [] ∧ legal isUric rest then
        some { scheme := some scheme, server := none, rawQuery := none, rawFragment := fragment }
      else none
    | (_, none) => parseHierarchical none s fragment

def decoded (s : List Char) : List Char := (decode s).getD s

def userInfo (u : Uri) : Option (List Char) := (u.server.bind (·.userInfo)).map decoded

def host (u : Uri) : Option (List Char) := u.server.map (·.host)

def port (u : Uri) : Int := (u.server.map (·.port)).getD (-1)

def fragment (u : Uri) : Option (List Char) := u.rawFragment.map decoded

/-! ### Texts put together -/

section Parse
variable {c : Char} {s t f q scheme : List Char}

theorem cut_append_cons (h : c ∉ s) (t : List Char) : cut c (s ++ c :: t) = (s, some t) := by
  have htrue : ∀ d ∈ s, decide (d ≠ c) = true := fun d hd => decide_eq_true fun heq => h (heq ▸ hd)
  have hmem : c ∈ s ++ c :: t := by simp
  rw [cut, if_pos hmem, List.takeWhile_append_of_pos htrue, List.dropWhile_append_of_pos htrue,
    List.takeWhile_cons_of_neg (by simp), List.dropWhile_cons_of_neg (by simp), List.append_nil, List.tail_cons]

theorem cut_of_not_mem (h : c ∉ s) : cut c s = (s, none) := by
  have htrue : ∀ d ∈ s, decide (d ≠ c) = true := fun d hd => decide_eq_true fun heq => h (heq ▸ hd)
  have hall : (s ++ []).takeWhile (· ≠ c) = s ++ [].takeWhile (· ≠ c) := List.takeWhile_append_of_pos htrue
  rw [List.takeWhile_nil, List.append_nil] at hall
  rw [cut, if_neg h, hall]

/-- A scheme is read up to its colon, and the fragment from the first number sign. -/
theorem parse_scheme (hstart : scheme.head?.any isAlpha = true) (hscheme : scheme.all isSchemeChar = true)
    (ht : '#' ∉ t) (f : List Char) :
    parse (scheme ++ ':' :: '/' :: (t ++ '#' :: f)) =
      if legal isUric f then parseHierarchical (some scheme) ('/' :: t) (some f) else none := by
  have hsep : ∀ c ∈ ":/?#".toList, c ∉ scheme := by
    intro c hc hmem
    have hno : ∀ c ∈ ":/?#".toList, isSchemeChar c = false := Text.forall_of_all (by decide)
    exact Bool.false_ne_true ((hno c hc).symm.trans (List.all_eq_true.mp hscheme c hmem))
  have hfragment : '#' ∉ scheme ++ ':' :: '/' :: t := by simp [hsep '#', ht]
  have hbegin : scheme.any "/?".toList.contains = false := by
    rw [List.any_eq_false]
    intro c hc hmem
    have hsub : ∀ c, "/?".toList.contains c = true → c ∈ ":/?#".toList := by simp
    exact hsep c (hsub c hmem) hc
  have hcut := cut_append_cons hfragment f
  rw [List.append_assoc, List.cons_append, List.cons_append] at hcut
  rw [parse, hcut]
  dsimp only
  rw [cut_append_cons (hsep ':' (by decide))]
  simp only [optional, Option.all_some, Bool.not_eq_true', hbegin, hstart, hscheme, Bool.and_self, Bool.not_true,
    Bool.false_eq_true, ↓reduceIte, List.head?_cons]
  cases legal isUric f <;> rfl

/-- An authority and a path, without a query. -/
theorem parseHierarchical_slashes (ht : '?' ∉ t) (scheme : Option (List Char)) (f : List Char) :
    parseHierarchical scheme ('/' :: '/' :: t) (some f) =
      if legal isPathChar (t.dropWhile (· ≠ '/')) then
        if t.takeWhile (· ≠ '/') = [] then
          some { scheme := scheme, server := none, rawQuery := none, rawFragment := some f }
        else (parseAuthority (t.takeWhile (· ≠ '/'))).map fun server =>
          { scheme := scheme, server := server, rawQuery := none, rawFragment := some f }
      else none := by
  have hmem : '?' ∉ '/' :: '/' :: t := by simp [ht]
  rw [parseHierarchical, cut_of_not_mem hmem]
  simp only [optional, Option.all_none, Bool.not_true, Bool.false_eq_true, ↓reduceIte, reduceCtorEq, and_false]
  cases legal isPathChar (t.dropWhile (· ≠ '/')) <;> rfl

/-- A port is read to the end, so there is no colon in it. -/
theorem parsePort_of_mem (ht : t ≠ []) (h : ':' ∈ t) : parsePort (':' :: t) = none := by
  have hdigits : t.all isDigit = false := by
    rw [List.all_eq_false]
    exact ⟨':', h, by decide⟩
  cases t with
  | nil => exact absurd rfl ht
  | cons d t =>
    rw [parsePort, hdigits]
    · rfl
    · simp

theorem parsePort_digits (ht : t ≠ []) (h : t.all isDigit = true) : parsePort (':' :: t) = Text.toInt t := by
  cases t with
  | nil => exact absurd rfl ht
  | cons d t =>
    rw [parsePort, if_pos h]
    simp

/-- A literal address in its brackets, or a text with no bracket at its beginning. -/
def HostText (host : List Char) : Prop := (∃ x, ']' ∉ x ∧ host = '[' :: x ++ [']']) ∨ (host ≠ [] ∧ host.head? ≠ some '[')

theorem parseHost_literal {x : List Char} (hx : ']' ∉ x) (rest : List Char) :
    parseHost ('[' :: x ++ [']'] ++ rest) = if isLiteral x then some ('[' :: x ++ [']'], rest) else none := by
  rw [List.append_assoc, List.cons_append, List.singleton_append, parseHost, cut_append_cons hx]

theorem parseHost_name {host : List Char} (hhead : host.head? ≠ some '[') (hne : host ≠ []) (hcolon : ':' ∉ host)
    (t : List Char) :
    parseHost (host ++ ':' :: t) = if isIPv4 host || isHostname host then some (host, ':' :: t) else none := by
  have htrue : ∀ d ∈ host, decide (d ≠ ':') = true := fun d hd => decide_eq_true fun heq => hcolon (heq ▸ hd)
  have htake : (host ++ ':' :: t).takeWhile (· ≠ ':') = host := by
    rw [List.takeWhile_append_of_pos htrue, List.takeWhile_cons_of_neg (by simp), List.append_nil]
  have hdrop : (host ++ ':' :: t).dropWhile (· ≠ ':') = ':' :: t := by
    rw [List.dropWhile_append_of_pos htrue, List.dropWhile_cons_of_neg (by simp)]
  rw [parseHost, htake, hdrop]
  intro u hu
  obtain ⟨d, v, rfl⟩ := List.exists_cons_of_ne_nil hne
  exact hhead (congrArg some (List.cons.inj hu).1)

/-- What follows the host of a name begins at its first colon. -/
theorem rest_of_parseHost {s host rest : List Char} (hhead : s.head? ≠ some '[') (h : parseHost s = some (host, rest)) :
    host = s.takeWhile (· ≠ ':') ∧ rest = s.dropWhile (· ≠ ':') := by
  rw [parseHost] at h
  · split at h
    · cases h
      exact ⟨rfl, rfl⟩
    · cases h
  · rintro u rfl
    exact hhead rfl

/-- Whatever host is read of a host and a port is this host. -/
theorem parts_of_parseHost {host port host' rest : List Char} {n : Int} (hhost : HostText host)
    (hparse : parseHost (host ++ ':' :: port) = some (host', rest)) (hn : parsePort rest = some n) :
    host' = host ∧ rest = ':' :: port := by
  obtain ⟨x, hx, rfl⟩ | ⟨hne, hhead⟩ := hhost
  · rw [parseHost_literal hx] at hparse
    obtain ⟨-, hparse⟩ := Option.ite_none_right_eq_some.mp hparse
    cases hparse
    exact ⟨rfl, rfl⟩
  · by_cases hcolon : ':' ∈ host
    · -- a second colon is left for the port
      obtain ⟨x, y, rfl, hx⟩ := List.eq_append_cons_of_mem hcolon
      have htrue : ∀ d ∈ x, decide (d ≠ ':') = true := fun d hd => decide_eq_true fun heq => hx (heq ▸ hd)
      have hhead' : (x ++ ':' :: y ++ ':' :: port).head? ≠ some '[' := by
        cases x with
        | nil => simp
        | cons d x => exact hhead
      have hrest := (rest_of_parseHost hhead' hparse).2
      rw [List.append_assoc, List.dropWhile_append_of_pos htrue, List.cons_append,
        List.dropWhile_cons_of_neg (by simp)] at hrest
      rw [hrest, parsePort_of_mem (by simp) (by simp)] at hn
      cases hn
    · rw [parseHost_name hhead hne hcolon] at hparse
      obtain ⟨-, hparse⟩ := Option.ite_none_right_eq_some.mp hparse
      cases hparse
      exact ⟨rfl, rfl⟩

theorem parseHostPort_eq_some {s : List Char} {userInfo : Option (List Char)} {server : Server}
    (h : parseHostPort userInfo s = some server) :
    ∃ rest, parseHost s = some (server.host, rest) ∧ parsePort rest = some server.port ∧ server.userInfo = userInfo := by
  obtain ⟨⟨host, rest⟩, hhost, h⟩ := Option.bind_eq_some_iff.mp h
  obtain ⟨port, hport, h⟩ := Option.bind_eq_some_iff.mp h
  cases h
  exact ⟨rest, hhost, hport, rfl⟩

/-- Whatever server is read of a host and a port has this host and this port. -/
theorem eq_of_parseHostPort {host port : List Char} {userInfo : Option (List Char)} {server : Server}
    (hhost : HostText host) (hport : port ≠ []) (hdigits : port.all isDigit = true)
    (h : parseHostPort userInfo (host ++ ':' :: port) = some server) :
    server.userInfo = userInfo ∧ server.host = host ∧ Text.toInt port = some server.port := by
  obtain ⟨rest, hparse, hn, huser⟩ := parseHostPort_eq_some h
  obtain ⟨heq, rfl⟩ := parts_of_parseHost hhost hparse hn
  rw [parsePort_digits hport hdigits] at hn
  exact ⟨huser, heq, hn⟩

/-- An authority without an at sign has no user info. -/
theorem userInfo_of_parseServer {server : Server} (hs : '@' ∉ s) (h : parseServer s = some server) :
    server.userInfo = none := by
  rw [parseServer, cut_of_not_mem hs] at h
  obtain ⟨x, -, h⟩ := Option.bind_eq_some_iff.mp h
  obtain ⟨n, -, h⟩ := Option.bind_eq_some_iff.mp h
  cases h
  rfl

theorem parseServer_append (hs : '@' ∉ s) (t : List Char) :
    parseServer (s ++ '@' :: t) = if legal isUserInfoChar s then parseHostPort (some s) t else none := by
  rw [parseServer, cut_append_cons hs]

theorem parseServer_of_parseAuthority {server : Server} (h : parseAuthority s = some (some server)) :
    parseServer s = some server := by
  unfold parseAuthority at h
  split at h
  · rename_i server' hserver
    exact hserver.trans (Option.some.inj h)
  · split at h <;> cases h

/-- The server of a text with an authority is the one of that authority. -/
theorem parseServer_of_parse (hstart : scheme.head?.any isAlpha = true) (hscheme : scheme.all isSchemeChar = true)
    (ht : '#' ∉ t) (ht' : '?' ∉ t) {uri : Uri} {server : Server}
    (h : parse (scheme ++ "://".toList ++ (t ++ '#' :: f)) = some uri) (hserver : uri.server = some server) :
    parseServer (t.takeWhile (· ≠ '/')) = some server := by
  have htext : scheme ++ "://".toList ++ (t ++ '#' :: f) = scheme ++ ':' :: '/' :: ('/' :: t ++ '#' :: f) := by simp
  rw [htext, parse_scheme hstart hscheme (by simp [ht]), parseHierarchical_slashes ht'] at h
  obtain ⟨-, h⟩ := Option.ite_none_right_eq_some.mp h
  obtain ⟨-, h⟩ := Option.ite_none_right_eq_some.mp h
  split at h
  · cases h
    cases hserver
  · obtain ⟨server', hauthority, rfl⟩ := Option.map_eq_some_iff.mp h
    dsimp only at hserver
    exact parseServer_of_parseAuthority (hserver ▸ hauthority)

end Parse

end Uri
