import FirewallRollout.Text.Alphanumeric
import FirewallRollout.Text.Decimal

/-!
# Regular expressions

Whether a text is a well-formed regular expression: groups and classes are closed, a repetition has
something to repeat, an escape is a known one. Counted repetitions and word boundaries are refused.
The text is read one character at a time.
-/
namespace FirewallRollout.Text

namespace Pattern

/-- What the next character of an expression belongs to. -/
inductive Mode where
  /-- Nothing that is open; a repetition needs something before it. -/
  | plain (repeatable : Bool)
  | escape
  | hexadecimal (digitsLeft : Nat)
  | property
  | groupStart
  /-- A group after its question mark. -/
  | groupOption
  | groupNameStart
  | groupName (isEmpty : Bool)
  | flags
  | classStart
  /-- A class before its first item, where a closing bracket stands for itself. -/
  | classItems
  | inClass (last : Option Char)
  | range (low : Char)
  deriving DecidableEq

/-- How far an expression has been read, with the numbers of groups and classes that are open. -/
structure Progress where
  groups : Nat := 0
  classes : Nat := 0
  mode : Mode := .plain false
  deriving DecidableEq

namespace Progress

/-- After an item that may be repeated, or after one of a class. -/
def afterItem (p : Progress) (item : Option Char) : Progress :=
  { p with mode := if p.classes = 0 then .plain true else .inClass item }

def outside (p : Progress) (repeatable : Bool) (c : Char) : Option Progress :=
  match c with
  | '\\' => some { p with mode := .escape }
  | '(' => some { p with groups := p.groups + 1, mode := .groupStart }
  | ')' =>
    if p.groups = 0 then none else some { p with groups := p.groups - 1, mode := .plain true }
  | '[' => some { p with classes := 1, mode := .classStart }
  | '|' => some { p with mode := .plain false }
  | '*' | '+' | '?' => if repeatable then some p else none
  | '\x7B' => none
  | _ => some { p with mode := .plain true }

def inside (p : Progress) (last : Option Char) (c : Char) : Option Progress :=
  match c, last with
  | ']', _ => some ({ p with classes := p.classes - 1 }.afterItem none)
  | '[', _ => some { p with classes := p.classes + 1, mode := .classStart }
  | '\\', _ => some { p with mode := .escape }
  | '-', some low => some { p with mode := .range low }
  | c, _ => some { p with mode := .inClass (some c) }

/-- Whether a character without a meaning of its own may be escaped. -/
def isEscapable (c : Char) : Bool :=
  decide (0x20 ≤ c.toNat) && decide (c.toNat < 0x7F) && !isAsciiAlphanumeric c && c != '<' && c != '>'

def escaped (p : Progress) (c : Char) : Option Progress :=
  if c == 'x' then some { p with mode := .hexadecimal 2 }
  else if c == 'u' then some { p with mode := .hexadecimal 4 }
  else if c == 'U' then some { p with mode := .hexadecimal 8 }
  else if c == 'p' || c == 'P' then some { p with mode := .property }
  else if "dDsSwWafnrtv".toList.contains c || isEscapable c then some (p.afterItem none)
  else if (c == 'A' || c == 'z') && p.classes = 0 then some (p.afterItem none)
  else none

def isFlag (c : Char) : Bool := "imsRUux-".toList.contains c

/-- What one more character makes of an expression; absent when it does not fit. -/
def step (p : Progress) (c : Char) : Option Progress :=
  match p.mode with
  | .plain repeatable => p.outside repeatable c
  | .escape => p.escaped c
  | .hexadecimal left =>
    if (hexDigit? c).isNone then none
    else if left ≤ 1 then some (p.afterItem none)
    else some { p with mode := .hexadecimal (left - 1) }
  | .property => if "CLMNPSZ".toList.contains c then some (p.afterItem none) else none
  | .groupStart => if c == '?' then some { p with mode := .groupOption } else p.outside false c
  | .groupOption =>
    if c == ':' then some { p with mode := .plain false }
    else if c == '<' then some { p with mode := .groupName true }
    else if c == 'P' then some { p with mode := .groupNameStart }
    else if isFlag c then some { p with mode := .flags }
    else none
  | .groupNameStart => if c == '<' then some { p with mode := .groupName true } else none
  | .groupName isEmpty =>
    if c == '>' then (if isEmpty then none else some { p with mode := .plain false })
    else if c == '_' || (if isEmpty then c.isAlpha else isAlphanumeric c) then
      some { p with mode := .groupName false }
    else none
  | .flags =>
    if c == ':' then some { p with mode := .plain false }
    else if c == ')' then some { p with groups := p.groups - 1, mode := .plain false }
    else if isFlag c then some p
    else none
  | .classStart =>
    if c == '^' then some { p with mode := .classItems }
    else if c == ']' then some { p with mode := .inClass (some c) }
    else p.inside none c
  | .classItems =>
    if c == ']' then some { p with mode := .inClass (some c) } else p.inside none c
  | .inClass last => p.inside last c
  | .range low =>
    if c == ']' || c == '[' || c == '\\' then p.inside none c
    else if c == '-' || low ≤ c then some { p with mode := .inClass none }
    else none

/-- Whether nothing is left open. -/
def isComplete (p : Progress) : Bool :=
  p.groups == 0 && match p.mode with
    | .plain _ => true
    | _ => false

end Progress

/-- Whether a text is a well-formed expression. -/
def isWellFormed (cs : List Char) : Bool := (cs.foldlM Progress.step {}).any Progress.isComplete

end Pattern
end FirewallRollout.Text
