import FirewallRollout.Command
import FirewallRollout.Rule.Basic
import FirewallRollout.Rule.Fault

/-!
# Compiling rules

A rule becomes a command when all its fields do. They are looked at in a fixed order, so that the
first fault is the one reported: table, chain, action, protocol, source, destination, interface, and
last a destination address where the action takes none.
-/
namespace FirewallRollout

/-- Whether a character means the same to a shell as to the command. -/
def isArgumentChar (c : Char) : Bool :=
  Text.isAsciiAlphanumeric c ||
    c == '.' || c == ':' || c == '/' || c == '_' || c == '+' || c == '-'

namespace Rule

/-- The argument that an optional field gives, trimmed, and absent when blank. -/
def argument (field : String) (value : Option String) : Except Fault (Option String) :=
  match Text.present value with
  | none => .ok none
  | some v =>
    if v.toList.all isArgumentChar then .ok (some v) else .error (.unsafeText field v)

/-- The port that an optional field gives. -/
def portArgument (field : String) (value : Option String) : Except Fault (Option Port) :=
  match Text.present value with
  | none => .ok none
  | some v => (Fault.invalidPort field v).unlessSome (Port.parse? v) |>.map some

/-- The protocol that an optional field gives: every protocol when absent. -/
def protocolOf (value : Option String) : Except Fault Protocol :=
  match Text.present value with
  | none => .ok .all
  | some v => (Fault.unknownProtocol v).unlessSome (Protocol.parse? v)

/-- The command of a rule, or its first fault. -/
def compile (r : Rule) : Except Fault Command := do
  let table ← (Fault.unknownTable r.table).unlessSome (Table.parse? r.table)
  let chain ← (Fault.invalidChain r.chain).unlessSome (Chain.parse? r.chain)
  let action ← (Fault.unknownAction r.action).unlessSome (Action.parse? r.action)
  let protocol ← protocolOf r.protocol
  let source ← argument "sourceIp" r.sourceIp
  let sourcePort ← portArgument "sourcePort" r.sourcePort
  let destination ← argument "destIp" r.destIp
  let destinationPort ← portArgument "destPort" r.destPort
  let interface ← argument "interface" r.interface
  if action.isSourceNat && destination.isSome then
    .error (.destinationRefused action)
  .ok { table, chain, protocol, source, sourcePort, destination, destinationPort,
        interface := if chain.interfaceFlag.isSome then interface else none, action }

end Rule
end FirewallRollout
