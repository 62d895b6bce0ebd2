import FirewallRollout.Error
import FirewallRollout.Rule.Basic
import FirewallRollout.Toml.Reader

/-!
# The inventory of rules

The rules of every known server. A rule is written under its own server and replaces the one with
its identifier; a server stays known when its last rule is removed.
-/
namespace FirewallRollout

structure Inventory where
  /-- The rules of each server, in the order in which they first came. -/
  shelves : List (String × List Rule) := []
  deriving DecidableEq

namespace Inventory

def empty : Inventory := {}

/-- The known servers in ascending order. -/
def servers (inv : Inventory) : List String :=
  (inv.shelves.map Prod.fst).mergeSort fun s t => decide (s ≤ t)

def contains (inv : Inventory) (server : String) : Bool := inv.shelves.any (·.1 == server)

/-- The rules of a server as they first came; none for a server that is not known. -/
def shelf? (inv : Inventory) (server : String) : Option (List Rule) := inv.shelves.lookup server

/-- The inventory with the rules of one server changed; a new server starts without rules. -/
def alter (inv : Inventory) (server : String) (change : List Rule → List Rule) : Inventory :=
  if inv.contains server then
    { shelves := inv.shelves.map fun s => if s.1 == server then (server, change s.2) else s }
  else { shelves := inv.shelves ++ [(server, change [])] }

/-- Make a server known. -/
def register (inv : Inventory) (server : String) : Inventory := inv.alter server id

/-- Rules with one more: in the place of the one with its identifier, or else at the end. -/
def putRule (r : Rule) (rules : List Rule) : List Rule :=
  if rules.any (·.id == r.id) then rules.map fun old => if old.id == r.id then r else old
  else rules ++ [r]

/-- Write a rule under its server. -/
def upsert (inv : Inventory) (r : Rule) : Inventory := inv.alter r.server (putRule r)

def ofRules (rules : List Rule) : Inventory := rules.foldl upsert empty

/-- Remove a rule, which is given back. -/
def remove (inv : Inventory) (server : String) (id : RuleId) : Except Error (Rule × Inventory) :=
  match inv.shelf? server with
  | none => .error (.notFound .server server)
  | some rules =>
    match rules.find? (·.id == id) with
    | none => .error (.notFound .rule id.display)
    | some r => .ok (r, inv.alter server fun rules => rules.filter (·.id != id))

/-- The rules of a server in script order. -/
def rulesFor (inv : Inventory) (server : String) : Except Error (List Rule) :=
  match inv.shelf? server with
  | none => .error (.notFound .server server)
  | some rules => .ok (Rule.inOrder rules)

/-- The rules of all servers, server by server, each in script order. -/
def allRules (inv : Inventory) : List Rule :=
  inv.servers.flatMap fun server => Rule.inOrder ((inv.shelf? server).getD [])

/-- The one field of an inventory file: its rules. -/
def layout : Layout := [{ name := "rules", trailing := true }]

/-- The rules of an inventory file, in the order of the file. -/
def rulesOfDatum? (d : Datum) : Option (List Rule) := do
  let fields ← layout.read? .passedOver d
  fields.defaulted "rules" (fun d => d.list?.bind (·.mapM (Rule.ofDatum? .passedOver))) []

/-- The inventory that a TOML document describes. -/
def ofToml (document : String) : Except Error Inventory :=
  match (Toml.parse? document).bind rulesOfDatum? with
  | some rules => .ok (ofRules rules)
  | none => .error (.config "invalid rules file")

end Inventory
end FirewallRollout
