import FirewallRollout.Text.AsciiCase
import FirewallRollout.Text.Blank

/-!
# Vocabulary of rules

Tables, chains, actions and protocols, with their spelling. All are read from trimmed text; case
matters for chains alone. A blank table is `filter` and a blank protocol is every protocol.
-/
namespace FirewallRollout

inductive Table where
  | filter
  | nat
  | mangle
  | raw
  deriving DecidableEq

namespace Table

def all : List Table := [filter, nat, mangle, raw]

def name : Table → String
  | filter => "filter"
  | nat => "nat"
  | mangle => "mangle"
  | raw => "raw"

def parse? (s : String) : Option Table :=
  match Text.foldLower (Text.trim s) with
  | "" | "filter" => some filter
  | "nat" => some nat
  | "mangle" => some mangle
  | "raw" => some raw
  | _ => none

end Table

/-- A chain: one of the five that every table's hooks know, or one of the user's own. -/
inductive Chain where
  | prerouting
  | input
  | forward
  | output
  | postrouting
  | custom (name : String)
  deriving DecidableEq

namespace Chain

def name : Chain → String
  | prerouting => "PREROUTING"
  | input => "INPUT"
  | forward => "FORWARD"
  | output => "OUTPUT"
  | postrouting => "POSTROUTING"
  | custom name => name

def isCustom : Chain → Bool
  | custom _ => true
  | _ => false

/-- The option that names an interface: incoming on `INPUT` and `FORWARD`, outgoing on `OUTPUT` and
`POSTROUTING`; other chains match on none. -/
def interfaceFlag : Chain → Option String
  | input | forward => some "-i"
  | output | postrouting => some "-o"
  | prerouting | custom _ => none

/-- The longest name that a chain may have. -/
def maxNameLength : Nat := 28

def isNameChar (c : Char) : Bool := Text.isAsciiAlphanumeric c || c == '_' || c == '-'

/-- Whether characters make up the name of a user's chain. -/
def isName (cs : List Char) : Bool :=
  !cs.isEmpty && decide (cs.length ≤ maxNameLength) && cs.head? != some '-' && cs.all isNameChar

def parse? (s : String) : Option Chain :=
  match Text.trim s with
  | "PREROUTING" => some prerouting
  | "INPUT" => some input
  | "FORWARD" => some forward
  | "OUTPUT" => some output
  | "POSTROUTING" => some postrouting
  | name => if isName name.toList then some (custom name) else none

end Chain

/-- What happens to a packet that matches. -/
inductive Action where
  | accept
  | drop
  | reject
  | return
  | log
  | dnat
  | snat
  | masquerade
  | redirect
  deriving DecidableEq

namespace Action

def name : Action → String
  | accept => "ACCEPT"
  | drop => "DROP"
  | reject => "REJECT"
  | .return => "RETURN"
  | log => "LOG"
  | dnat => "DNAT"
  | snat => "SNAT"
  | masquerade => "MASQUERADE"
  | redirect => "REDIRECT"

/-- Whether the action rewrites the source address; such a rule takes no destination address. -/
def isSourceNat : Action → Bool
  | snat | masquerade => true
  | _ => false

def parse? (s : String) : Option Action :=
  match Text.foldUpper (Text.trim s) with
  | "ACCEPT" => some accept
  | "DROP" => some drop
  | "REJECT" => some reject
  | "RETURN" => some .return
  | "LOG" => some log
  | "DNAT" => some dnat
  | "SNAT" => some snat
  | "MASQUERADE" => some masquerade
  | "REDIRECT" => some redirect
  | _ => none

end Action

inductive Protocol where
  | tcp
  | udp
  | icmp
  | all
  deriving DecidableEq

namespace Protocol

def name : Protocol → String
  | tcp => "tcp"
  | udp => "udp"
  | icmp => "icmp"
  | all => "all"

def parse? (s : String) : Option Protocol :=
  match Text.foldLower (Text.trim s) with
  | "tcp" => some tcp
  | "udp" => some udp
  | "icmp" => some icmp
  | "" | "all" => some all
  | _ => none

end Protocol
end FirewallRollout
