import FirewallRollout.Datum.Basic

/-!
# Trees of TOML tables

Tables as they grow while a document is read. A table is implicit while only paths through it have
been written, and dotted when a dotted key made it; each may be filled in later in its own way only.
-/
namespace FirewallRollout.Toml

/-- What stands under a key. -/
inductive Node where
  | value (d : Datum)
  | table (implicit dotted : Bool) (entries : List (String × Node))
  /-- The tables that share a double-bracketed header, in order. -/
  | tables (items : List Node)

/-- A pair: the path to its table, its key there, and its value. -/
abbrev Pair := List String × String × Datum

abbrev Entries := List (String × Node)

namespace Entries

/-- The entries with another node under a key; a new key goes last. -/
def put (es : Entries) (key : String) (node : Node) : Entries :=
  if es.any (·.1 == key) then es.map fun e => if e.1 == key then (key, node) else e
  else es ++ [(key, node)]

/-- The entries after a change to the table that a path leads to. Tables on the way are made as
needed, a list of tables is entered at its last, and a dotted path enters no table with a
single-bracketed header of its own. The change is told whether the table it gets is dotted. -/
def alterAt (dottedPath : Bool) (change : Bool → Entries → Option Entries) :
    List String → Bool → Entries → Option Entries
  | [], dotted, es => change dotted es
  | key :: path, _, es =>
    match es.lookup key with
    | none =>
      (alterAt dottedPath change path dottedPath []).map fun sub =>
        es.put key (.table true dottedPath sub)
    | some (.table implicit dotted sub) =>
      if dottedPath && !implicit then none
      else (alterAt dottedPath change path dotted sub).map fun sub =>
        es.put key (.table implicit dotted sub)
    | some (.tables items) =>
      match items.getLast? with
      | some (.table implicit dotted sub) =>
        (alterAt dottedPath change path dotted sub).map fun sub =>
          es.put key (.tables (items.dropLast ++ [.table implicit dotted sub]))
      | _ => none
    | some (.value _) => none

/-- The entries with one more pair. A dotted key fills only tables that dotted keys made, and no key
comes twice. -/
def define (es : Entries) (path : List String) (key : String) (node : Node) : Option Entries :=
  alterAt true (fun dotted es =>
    if dotted == path.isEmpty || es.any (·.1 == key) then none else some (es ++ [(key, node)]))
    path false es

/-- The entries with several more pairs, in order. -/
def defineAll (es : Entries) (pairs : List Pair) : Option Entries :=
  pairs.foldlM (fun es p => es.define p.1 p.2.1 (.value p.2.2)) es

/-- The entries with one more table under a single-bracketed header. -/
def defineTable (es : Entries) (path : List String) (key : String)
    (pairs : List Pair) : Option Entries :=
  alterAt false (fun _ es => do
    let before ← match es.lookup key with
      | none => some []
      | some (.table true false sub) => some sub
      | _ => none
    let sub ← defineAll before pairs
    some (es.put key (.table false false sub))) path false es

/-- The entries with one more table under a double-bracketed header. -/
def appendTable (es : Entries) (path : List String) (key : String)
    (pairs : List Pair) : Option Entries :=
  alterAt false (fun _ es => do
    let before ← match es.lookup key with
      | none => some []
      | some (.tables items) => some items
      | _ => none
    let sub ← defineAll [] pairs
    some (es.put key (.tables (before ++ [.table false false sub])))) path false es

end Entries

namespace Node

mutual

/-- The datum that a finished node denotes. -/
def datum : Node → Datum
  | .value d => d
  | .table _ _ entries => .record (entriesData entries)
  | .tables items => .list (itemsData items)

def entriesData : List (String × Node) → List (String × Datum)
  | [] => []
  | (key, node) :: rest => (key, datum node) :: entriesData rest

def itemsData : List Node → List Datum
  | [] => []
  | node :: rest => datum node :: itemsData rest

end

end Node
end FirewallRollout.Toml
