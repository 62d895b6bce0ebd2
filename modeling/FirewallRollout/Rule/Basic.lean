import FirewallRollout.Datum.Layout
import FirewallRollout.Rule.Vocabulary

/-!
# Rules

A packet-filter rule as it is kept: match fields are the texts that were given. Rules are ordered by
priority and then by identifier, numbers before texts.
-/
namespace FirewallRollout

inductive RuleId where
  | number (n : Int64)
  | text (s : String)
  deriving DecidableEq

namespace RuleId

/-- Whether the first identifier comes no later: numbers by value, then texts by code points. -/
def le : RuleId → RuleId → Bool
  | number m, number n => decide (m.toInt ≤ n.toInt)
  | number _, text _ => true
  | text _, number _ => false
  | text s, text t => decide (s ≤ t)

def display : RuleId → String
  | number n => toString n.toInt
  | text s => s

def ofDatum? : Datum → Option RuleId
  | .text s => some (text s)
  | d => d.int64?.map number

def toDatum : RuleId → Datum
  | number n => .ofInt64 n
  | text s => .text s

end RuleId

structure Rule where
  id : RuleId
  server : String
  table : String := Table.filter.name
  chain : String
  action : String
  sourceIp : Option String := none
  sourcePort : Option String := none
  destIp : Option String := none
  destPort : Option String := none
  protocol : Option String := none
  interface : Option String := none
  priority : Int64 := 0
  enabled : Bool := true
  comment : Option String := none
  destServer : Option String := none
  destEgress : Option String := none
  createdAt : Int64 := 0
  updatedAt : Int64 := 0
  deriving DecidableEq

namespace Rule

/-- Whether the first rule comes no later in a script. -/
def le (a b : Rule) : Bool :=
  decide (a.priority.toInt < b.priority.toInt) ||
    (decide (a.priority = b.priority) && a.id.le b.id)

/-- Rules in script order; rules that tie keep their order. -/
def inOrder (rules : List Rule) : List Rule := rules.mergeSort le

/-- The fields of a rule record, in order. -/
def layout : Layout :=
  [{ name := "id" },
   { name := "serverId", aliases := ["server_id"] },
   { name := "table", trailing := true },
   { name := "chain" },
   { name := "action" },
   { name := "sourceIp", aliases := ["source_ip"], trailing := true },
   { name := "sourcePort", aliases := ["source_port"], trailing := true },
   { name := "destIp", aliases := ["dest_ip"], trailing := true },
   { name := "destPort", aliases := ["dest_port"], trailing := true },
   { name := "protocol", trailing := true },
   { name := "interface", trailing := true },
   { name := "priority", trailing := true },
   { name := "isEnabled", aliases := ["is_enabled"], trailing := true },
   { name := "comment", trailing := true },
   { name := "destServerId", aliases := ["dest_server_id"], trailing := true },
   { name := "destEgressId", aliases := ["dest_egress_id"], trailing := true },
   { name := "createdAt", aliases := ["created_at"], trailing := true },
   { name := "updatedAt", aliases := ["updated_at"], trailing := true }]

/-- A port as given: a 32-bit number stands for its decimal text. -/
def portText? : Datum → Option String
  | .text s => some s
  | d => d.word32?.map fun n => toString n.toNat

def ofDatum? (surplus : Surplus) (d : Datum) : Option Rule := do
  let fields ← layout.read? surplus d
  let id ← fields.required "id" RuleId.ofDatum?
  let server ← fields.required "serverId" Datum.text?
  let table ← fields.defaulted "table" Datum.text? Table.filter.name
  let chain ← fields.required "chain" Datum.text?
  let action ← fields.required "action" Datum.text?
  let sourceIp ← fields.optional "sourceIp" Datum.text?
  let sourcePort ← fields.optional "sourcePort" portText?
  let destIp ← fields.optional "destIp" Datum.text?
  let destPort ← fields.optional "destPort" portText?
  let protocol ← fields.optional "protocol" Datum.text?
  let interface ← fields.optional "interface" Datum.text?
  let priority ← fields.defaulted "priority" Datum.int64? 0
  let enabled ← fields.defaulted "isEnabled" Datum.bool? true
  let comment ← fields.optional "comment" Datum.text?
  let destServer ← fields.optional "destServerId" Datum.text?
  let destEgress ← fields.optional "destEgressId" Datum.text?
  let createdAt ← fields.defaulted "createdAt" Datum.int64? 0
  let updatedAt ← fields.defaulted "updatedAt" Datum.int64? 0
  some { id, server, table, chain, action, sourceIp, sourcePort, destIp, destPort, protocol,
         interface, priority, enabled, comment, destServer, destEgress, createdAt, updatedAt }

/-- The values of all fields in the layout's order, an absent text being null. -/
def values (r : Rule) : List Datum :=
  [r.id.toDatum, .text r.server, .text r.table, .text r.chain, .text r.action,
   .ofText? r.sourceIp, .ofText? r.sourcePort, .ofText? r.destIp, .ofText? r.destPort,
   .ofText? r.protocol, .ofText? r.interface, .ofInt64 r.priority, .bool r.enabled,
   .ofText? r.comment, .ofText? r.destServer, .ofText? r.destEgress,
   .ofInt64 r.createdAt, .ofInt64 r.updatedAt]

/-- The record of a rule by name, without the fields that are absent. -/
def toDatum (r : Rule) : Datum := .record (layout.entries r.values)

end Rule
end FirewallRollout
