import FirewallRollout.Text.Decimal

/-!
# Ports

A port, or a span of ports from a lower to a higher one. Both are read with any number of leading
zeros and written without.
-/
namespace FirewallRollout

inductive Port where
  | single (port : Nat)
  | span (low high : Nat)
  deriving DecidableEq

namespace Port

def max : Nat := 65535

/-- One port: ASCII digits that denote a number from 1 to the greatest port. -/
def number? (cs : List Char) : Option Nat :=
  (Text.decimal? cs).filter fun n => decide (1 ≤ n) && decide (n ≤ max)

/-- A port, or two with a colon between that are in order. -/
def parse? (s : String) : Option Port :=
  let cs := s.toList
  let low := cs.takeWhile (· != ':')
  match cs.dropWhile (· != ':') with
  | [] => (number? low).map single
  | _ :: high =>
    match number? low, number? high with
    | some m, some n => if m ≤ n then some (span m n) else none
    | _, _ => none

/-- The port with a separator between the ends of a span. -/
def render (separator : String) : Port → String
  | single n => toString n
  | span m n => toString m ++ separator ++ toString n

/-- The written form in a match. -/
def text (p : Port) : String := p.render ":"

/-- The written form in a translation target. -/
def targetText (p : Port) : String := p.render "-"

end Port
end FirewallRollout
