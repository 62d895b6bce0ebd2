import FirewallRollout.Error
import FirewallRollout.Rule.Vocabulary

/-!
# Faults of rules

Why a rule has no command: the first field that does not do, and what is wrong with it. Names that
are compared without case are shown folded, except that of an action.
-/
namespace FirewallRollout

inductive Fault where
  | unknownTable (table : String)
  | invalidChain (chain : String)
  | unknownAction (action : String)
  | unknownProtocol (protocol : String)
  /-- A character that a shell could take for something else. -/
  | unsafeText (field value : String)
  | invalidPort (field value : String)
  /-- A destination address on a rule that rewrites the source. -/
  | destinationRefused (action : Action)
  deriving DecidableEq

namespace Fault

/-- The field at fault, by its written name. -/
def field : Fault → String
  | unknownTable _ => "table"
  | invalidChain _ => "chain"
  | unknownAction _ => "action"
  | unknownProtocol _ => "protocol"
  | unsafeText field _ | invalidPort field _ => field
  | destinationRefused _ => "destIp"

def message : Fault → String
  | unknownTable table => s!"unknown table '{Text.foldLower (Text.trim table)}'"
  | invalidChain chain => s!"invalid chain name '{Text.trim chain}'"
  | unknownAction action => s!"unknown action '{Text.trim action}'"
  | unknownProtocol protocol => s!"unknown protocol '{Text.foldLower (Text.trim protocol)}'"
  | unsafeText _ value => s!"'{value}' contains characters not allowed in an iptables argument"
  | invalidPort _ value => s!"invalid port or port range '{value}'"
  | destinationRefused action => s!"{action.name} does not take a destination address"

def error (f : Fault) : Error := .validation f.field f.message

/-- A value that has to be there, or the fault that it is not. -/
def unlessSome {α : Type} (f : Fault) (value : Option α) : Except Fault α :=
  value.elim (.error f) .ok

end Fault
end FirewallRollout
