import FirewallRollout.Rule.Port
import FirewallRollout.Rule.Vocabulary

/-!
# Commands

One `iptables` command in its normal form, and its text. The options come in a fixed order: table,
chain, protocol, source, destination, interface, action and the target of a translation.
-/
namespace FirewallRollout

/-- What a command does: every field parsed, and an interface only where the chain matches on one. -/
structure Command where
  table : Table
  chain : Chain
  protocol : Protocol
  source : Option String
  sourcePort : Option Port
  destination : Option String
  destinationPort : Option Port
  interface : Option String
  action : Action
  deriving DecidableEq

/-- An option word and its value. -/
abbrev CommandOption := String × String

namespace Command

/-- An option that is left out without a value. -/
def optionOf (word : String) (value : Option String) : List CommandOption :=
  value.toList.map fun v => (word, v)

/-- The ports that a translation target never names. -/
def implicitPorts : List Port := [.single 80, .single 443]

/-- The target of a translation: the address, and the port unless it is implicit. -/
def targetOf (address : String) (port : Option Port) : String :=
  match port with
  | some p => if p ∈ implicitPorts then address else address ++ ":" ++ p.targetText
  | none => address

/-- The target of a destination translation, when there is an address to translate to. -/
def target? (c : Command) : Option String :=
  if c.action = .dnat then c.destination.map fun address => targetOf address c.destinationPort
  else none

/-- The options of a command in order. -/
def options (c : Command) : List CommandOption :=
  (if c.table = .filter then [] else [("-t", c.table.name)])
    ++ [("-A", c.chain.name)]
    ++ (if c.protocol = .all then [] else [("-p", c.protocol.name)])
    ++ optionOf "-s" c.source
    ++ optionOf "--sport" (c.sourcePort.map Port.text)
    ++ optionOf "-d" c.destination
    ++ optionOf "--dport" (c.destinationPort.map Port.text)
    ++ (c.chain.interfaceFlag.elim [] fun flag => optionOf flag c.interface)
    ++ [("-j", c.action.name)]
    ++ optionOf "--to-destination" c.target?

/-- The words of a command. -/
def words (c : Command) : List String :=
  "iptables" :: c.options.flatMap fun o => [o.1, o.2]

/-- The text of a command: its words, set apart by single spaces. -/
def text (c : Command) : String := " ".intercalate c.words

end Command
end FirewallRollout
