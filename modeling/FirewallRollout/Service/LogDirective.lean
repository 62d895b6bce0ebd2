import FirewallRollout.Text.AsciiCase
import FirewallRollout.Text.Blank
import FirewallRollout.Text.Pattern
import FirewallRollout.Text.Utf8

/-!
# Log directives

A directive lets through the lines of a level: all of them, those of the targets that start with a
name, those inside a span, or those with a field. It reads as one of

    level    target    target=level    target[span]=level    target[span{field=value}]=level

where every part may be left out but the brackets that are opened. A directive without a level lets
everything through that it is about.
-/
namespace FirewallRollout.Service

/-- The weight of a line; a greater level lets more lines through. -/
inductive LogLevel where
  | off
  | error
  | warn
  | info
  | debug
  | trace
  deriving DecidableEq

namespace LogLevel

def all : List LogLevel := [off, error, warn, info, debug, trace]

def name : LogLevel → String
  | off => "OFF"
  | error => "ERROR"
  | warn => "WARN"
  | info => "INFO"
  | debug => "DEBUG"
  | trace => "TRACE"

/-- The number of a level, which also names it. -/
def rank : LogLevel → Nat
  | off => 0
  | error => 1
  | warn => 2
  | info => 3
  | debug => 4
  | trace => 5

def parse? (s : String) : Option LogLevel :=
  all.find? fun level =>
    level.name == Text.foldUpper s || (Text.unsigned64? s).any (·.toNat == level.rank)

end LogLevel

/-- A field that a line is to have, and the value that it is to match if one is given. -/
structure LogField where
  name : String
  value : Option String := none
  deriving DecidableEq

namespace LogField

/-- Whether a text is a number with a plus sign, which is no pattern but a value nevertheless. -/
def isPlusNumber : List Char → Bool
  | '+' :: cs =>
    let rest := cs.dropWhile Char.isDigit
    let (fraction, rest) := match rest with
      | '.' :: rest => (rest.takeWhile Char.isDigit, rest.dropWhile Char.isDigit)
      | rest => ([], rest)
    let exponent := match rest with
      | [] => true
      | e :: digits => (e == 'e' || e == 'E') && (Text.signed? digits).isSome
    let written := !(cs.takeWhile Char.isDigit).isEmpty || !fraction.isEmpty
    (written && exponent) || ["inf", "infinity", "nan"].contains (Text.foldLower (.ofList cs))
  | _ => false

/-- A field's name, and after an equals sign its value, which has to be a pattern or a number. What
follows a second sign is passed over. -/
def parse? (s : String) : Option LogField :=
  match s.splitOn "=" with
  | name :: value :: _ =>
    if Text.Pattern.isWellFormed value.toList || isPlusNumber value.toList then
      some { name, value := some value }
    else none
  | _ => some { name := s }

end LogField

/-- What a directive lets through. -/
structure LogDirective where
  level : LogLevel := .trace
  /-- The start of the target; every target starts with the empty one. -/
  target : String := ""
  span : Option String := none
  field : Option LogField := none
  deriving DecidableEq

namespace LogDirective

/-- A character of a directive with the octets that come before it. -/
abbrev Placed := Nat × Char

/-- Characters with their places, the first one at a given place. -/
def place (start : Nat) : List Char → List Placed
  | [] => []
  | c :: rest => (start, c) :: place (start + c.utf8Size) rest

/-- What a text says from a place up to another place, or to its end. -/
def cut? (text : List Char) (start : Nat) (stop : Option Nat) : Option String := do
  let upTo ← match stop with
    | none => some text
    | some stop => (Text.Utf8.splitAt? stop text).map Prod.fst
  (Text.Utf8.splitAt? start upTo).map fun halves => .ofList halves.2

/-- Whether a directive may start with a character other than a bracket. -/
def isStart (c : Char) : Bool := c == '-' || c == ':' || c == '_' || Text.isAlphanumeric c

/-- The directive with the level that a text says after a place. -/
def withLevel? (d : LogDirective) (text : List Char) (start : Nat) : Option LogDirective := do
  let level ← cut? text start none
  if level = "" then some d else (LogLevel.parse? level).map fun level => { d with level }

/-- The end of a directive after the brackets. -/
def afterBrackets? (d : LogDirective) (text : List Char) : List Placed → Option LogDirective
  | [] => some d
  | (i, '=') :: _ => d.withLevel? text (i + 1)
  | _ => none

/-- The rest of a directive from within its brackets on: a span, a field, or both. -/
def inBrackets? (d : LogDirective) (text : List Char) (start : Nat) (rest : List Placed) :
    Option LogDirective :=
  match rest.dropWhile fun p => p.2 != ']' && p.2 != '\x7B' with
  | [] => none
  | (i, ']') :: rest => do
    let span ← cut? text start (some i)
    { d with span := some span }.afterBrackets? text rest
  | (i, _) :: rest => do
    let span ← cut? text start (some i)
    match rest.dropWhile fun p => p.2 != '\x7D' with
    | (j, _) :: (_, ']') :: rest =>
      let field ← ((cut? text (i + 1) (some j)).filter (· != "")).bind LogField.parse?
      { d with span := if span = "" then none else some span, field := some field }.afterBrackets?
        text rest
    | _ => none

/-- A directive with blanks around it. Where its parts begin and end is counted without the blanks
in front, but the parts are cut from the text with them. -/
def parse? (s : String) : Option LogDirective :=
  let text := s.toList
  match place 0 (Text.trimList text) with
  | [] => none
  | (_, '[') :: rest => inBrackets? {} text 1 rest
  | (i, c) :: rest =>
    if !isStart c then none
    else
      match ((i, c) :: rest).dropWhile fun p => p.2 != '=' && p.2 != '[' with
      | [] => some ((LogLevel.parse? s).elim { target := s } fun level => { level })
      | (i, sign) :: rest => do
        let target ← cut? text 0 (some i)
        let d : LogDirective := { target }
        if sign = '=' then d.withLevel? text (i + 1) else d.inBrackets? text (i + 1) rest

/-- Whether a directive decides about lines as they come, whatever span they are in. -/
def isStatic (d : LogDirective) : Bool :=
  d.span.isNone && d.field.all fun field => field.value.isNone

/-- Whether a directive is about a line of a target, all of whose text is its message. -/
def fits (d : LogDirective) (target : String) : Bool :=
  d.target.toList.isPrefixOf target.toList && d.field.all fun field => field.name == "message"

/-- How closely a directive says what it is about: by its target first, then by its field. -/
def closeness (d : LogDirective) : Nat := 2 * d.target.length + if d.field.isSome then 1 else 0

end LogDirective
end FirewallRollout.Service
