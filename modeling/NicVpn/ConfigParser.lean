import NicVpn.Lib.Assoc
import NicVpn.Lib.Text
import Mathlib.Algebra.Group.Nat.Defs

/-! `ConfigParser`, first half: an OpenVPN configuration is read line by line into its options. A line is cut into
    arguments as OpenVPN does it, and a tag `<foo>` takes the lines up to `</foo>` as its argument. -/

namespace NicVpn
namespace ConfigParser

/-- What can end the parsing and the conversion. -/
inductive Failure
  | configParseError (message : List Char)
  | ioException
  | arrayIndexOutOfBounds
  | stringIndexOutOfBounds
  /-- With the text that is no number. -/
  | numberFormat (text : List Char)
  /-- A loop that does not end. -/
  | endless
  deriving DecidableEq, Repr

/-- `Vector.get`, and the index of an array. -/
def get {α : Type} (l : List α) (i : Nat) : Except Failure α :=
  match l[i]? with
  | some a => .ok a
  | none => .error .arrayIndexOutOfBounds

def parseLong (s : List Char) : Except Failure Int :=
  match Text.toLong s with
  | some n => .ok n
  | none => .error (.numberFormat s)

def parseInt (s : List Char) : Except Failure Int :=
  match Text.toInt s with
  | some n => .ok n
  | none => .error (.numberFormat s)

/-- `getLocalizedMessage` of a `NumberFormatException`. -/
def numberFormatMessage (s : List Char) : List Char := "For input string: \"".toList ++ s ++ ['"']

def configParseError {α : Type} (message : List Char) : Except Failure α := .error (.configParseError message)

/-! ### Lines -/

/-- `Character.isWhitespace`, which leaves out the spaces that do not break. -/
def isWhitespace (c : Char) : Bool :=
  Text.isWhitespace c && c.toNat ≠ 0xA0 && c.toNat ≠ 0x2007 && c.toNat ≠ 0x202F

def space (c : Char) : Bool := isWhitespace c || c = '\x00'

inductive LineState
  | initial
  | readinSingleQuote
  | readingQuoted
  | readingUnquoted
  | done
  deriving DecidableEq, Repr

/-- The variables of `parseline`. -/
structure Scan where
  state : LineState := .initial
  backslash : Bool := false
  out : Char := '\x00'
  currentarg : List Char := []
  parameters : List (List Char) := []
  deriving DecidableEq, Repr

namespace Scan

/-- The state and `out` after a character that is no escaping backslash; `none` where a comment begins. -/
def next (s : Scan) (c : Char) : Option Scan :=
  match s.state with
  | .initial =>
    if space c then some s
    else if c = ';' ∨ c = '#' then none
    else if !s.backslash ∧ c = '"' then some { s with state := .readingQuoted }
    else if !s.backslash ∧ c = '\'' then some { s with state := .readinSingleQuote }
    else some { s with out := c, state := .readingUnquoted }
  | .readingUnquoted =>
    if !s.backslash ∧ space c then some { s with state := .done } else some { s with out := c }
  | .readingQuoted =>
    if !s.backslash ∧ c = '"' then some { s with state := .done } else some { s with out := c }
  | .readinSingleQuote => if c = '\'' then some { s with state := .done } else some { s with out := c }
  | .done => some s

/-- A finished argument is stored. -/
def finish (s : Scan) : Scan :=
  if s.state = .done then
    { s with state := .initial, parameters := s.parameters ++ [s.currentarg], currentarg := [], out := '\x00' }
  else s

/-- The end of the loop body. -/
def store (s : Scan) : Scan := if s.out ≠ '\x00' then { s with currentarg := s.currentarg ++ [s.out] } else s

/-- One turn of the loop; `none` ends it. -/
def step (s : Scan) (c : Char) : Except Failure (Option Scan) :=
  if !s.backslash ∧ c = '\\' ∧ s.state ≠ .readinSingleQuote then .ok (some (store { s with backslash := true }))
  else
    match s.next c with
    | none => .ok none
    | some s =>
      let s := s.finish
      if s.backslash ∧ s.out ≠ '\x00' ∧ ¬(s.out = '\\' ∨ s.out = '"' ∨ space s.out) then
        configParseError "Options warning: Bad backslash ('\\') usage".toList
      else .ok (some (store { s with backslash := false }))

def run (s : Scan) : List Char → Except Failure (List (List Char))
  | [] => .ok s.parameters
  | c :: line => do
    match ← s.step c with
    | none => return s.parameters
    | some s => s.run line

end Scan

/-- The arguments of a line, which ends with a zero as in C. -/
def parseline (line : List Char) : Except Failure (List (List Char)) :=
  if line = [] then .ok [] else Scan.run {} (line ++ ['\x00'])

/-- The lines that `readLine` returns, one by one. -/
def readLines (s : List Char) : List (List Char) :=
  let lines := Text.lines s
  if lines.getLast? = some [] then lines.dropLast else lines

/-! ### Options -/

abbrev Args := List (List Char)

/-- The options by their names, in the order of the file. -/
abbrev Options := List (String × Args)

namespace Options

/-- `options.get`; there is no entry without a line. -/
def all (o : Options) (name : String) : Option (List Args) :=
  match (o.filter (·.1 = name)).map (·.2) with
  | [] => none
  | lines => some lines

def remove (o : Options) (name : String) : Options := o.filter (·.1 ≠ name)

def containsKey (o : Options) (name : String) : Bool := (o.all name).isSome

def keys (o : Options) : List String := (o.map (·.1)).dedup

end Options

/-- What `parseConfig` fills in. -/
structure Parsed where
  options : Options := []
  /-- The meta information of the OpenVPN Access Server. -/
  metas : List (String × Args) := []
  deriving DecidableEq, Repr

def inlineTag : List Char := "[[INLINE]]".toList

def accessServer : List Char := "# OVPN_ACCESS_SERVER_".toList

/-- `split("=", 2)` behind the marker. -/
def parsemeta (line : List Char) : Args :=
  let meta' := line.drop accessServer.length
  match Text.indexOf ['='] meta' with
  | some i => [meta'.take i, meta'.drop (i + 1)]
  | none => [meta']

def optionAliases (name : String) : String := if name = "server-poll-timeout" then "timeout-connect" else name

namespace Parsed

def add (p : Parsed) (arg0 : List Char) (args : Args) : Parsed :=
  { p with options := p.options ++ [(optionAliases (String.ofList arg0), arg0 :: args)] }

end Parsed

/-- The name of a tag `<foo>`. -/
def tagName (arg0 : List Char) : Option (List Char) :=
  let arg0 := Text.trim arg0
  if ['<'].isPrefixOf arg0 ∧ ['>'].isSuffixOf arg0 then some (arg0.drop 1).dropLast else none

/-- Where `parseConfig` is: between two options, or in the lines of a tag, with `inlinefile` so far. -/
inductive Mode
  | top
  | inline (argname inlinefile : List Char)
  deriving DecidableEq, Repr

def endtag (argname : List Char) : List Char := "</".toList ++ argname ++ ['>']

/-- The loops of `parseConfig` and of `checkinlinefile`. -/
def parseLines (p : Parsed) : Mode → List (List Char) → Except Failure Parsed
  | .top, [] => .ok p
  | .inline argname _, [] =>
    configParseError ("No endtag </".toList ++ argname ++ "> for starttag <".toList ++ argname ++ "> found".toList)
  | .inline argname inlinefile, line :: lines =>
    if Text.trim line = endtag argname then
      -- The line feed after the last line is cut off again.
      let inlinefile := if ['\n'].isSuffixOf inlinefile then inlinefile.dropLast else inlinefile
      parseLines (p.add argname [inlinefile]) .top lines
    else parseLines p (.inline argname (inlinefile ++ line ++ ['\n'])) lines
  | .top, line :: lines =>
    if accessServer.isPrefixOf line then
      let metaarg := parsemeta line
      parseLines { p with metas := Assoc.put p.metas (String.ofList (metaarg.headD [])) metaarg } .top lines
    else
      match parseline line with
      | .error e => .error e
      | .ok [] => parseLines p .top lines
      | .ok (arg0 :: args) =>
        let arg0 := if ['-', '-'].isPrefixOf arg0 then arg0.drop 2 else arg0
        match tagName arg0 with
        | some argname => parseLines p (.inline argname inlineTag) lines
        | none => parseLines (p.add arg0 args) .top lines

/-- The first line is no ZIP archive, and loses its byte order mark. -/
def firstLine (line : List Char) : Except Failure (List Char) :=
  if ['P', 'K', '\x03', '\x04'].isPrefixOf line ∨ ['P', 'K', '\x07', '\x00', '8'].isPrefixOf line then
    configParseError
      ("Input looks like a ZIP Archive. Import is only possible for OpenVPN config files (.ovpn/.conf)".toList)
  else .ok (if ['\uFEFF'].isPrefixOf line then line.drop 1 else line)

def parseConfig (text : List Char) : Except Failure Parsed :=
  match readLines text with
  | [] => .ok {}
  | line :: lines =>
    match firstLine line with
    | .error e => .error e
    | .ok line => parseLines {} .top (line :: lines)

end ConfigParser
end NicVpn
