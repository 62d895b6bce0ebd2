import FirewallRollout.Rule.Basic

/-!
# The census of rules

How many rules there are, and how many are enabled, in all and by table. The four tables are always
counted; a rule whose table is unknown is counted under the name it gives, trimmed.
-/
namespace FirewallRollout

structure Tally where
  total : Nat := 0
  enabled : Nat := 0
  deriving DecidableEq

namespace Tally

/-- The tally of a list of rules. -/
def ofRules (rules : List Rule) : Tally :=
  { total := rules.length, enabled := rules.countP (·.enabled) }

def disabled (t : Tally) : Nat := t.total - t.enabled

def toDatum (t : Tally) : Datum :=
  .record [("total", .ofNat t.total), ("enabled", .ofNat t.enabled)]

end Tally

/-- The name under which a rule is counted. -/
def Rule.tableName (r : Rule) : String := ((Table.parse? r.table).map Table.name).getD (Text.trim r.table)

structure Census where
  configs : Tally
  byTable : List (String × Tally)
  deriving DecidableEq

namespace Census

/-- The names counted for some rules, in ascending order and each once. -/
def tableNames (rules : List Rule) : List String :=
  (Table.all.map Table.name ++ rules.map Rule.tableName).eraseDups.mergeSort fun s t => decide (s ≤ t)

/-- The census of the rules of one server, or of all. -/
def ofRules (rules : List Rule) (server : Option String) : Census :=
  let counted := rules.filter fun r => server.all (r.server == ·)
  { configs := .ofRules counted
    byTable := (tableNames counted).map fun name =>
      (name, .ofRules (counted.filter (·.tableName == name))) }

/-- The record of a census. -/
def toDatum (c : Census) : Datum :=
  .record [("totalConfigs", .ofNat c.configs.total), ("enabledConfigs", .ofNat c.configs.enabled),
    ("disabledConfigs", .ofNat c.configs.disabled),
    ("byTable", .record (c.byTable.map fun e => (e.1, e.2.toDatum)))]

end Census
end FirewallRollout
