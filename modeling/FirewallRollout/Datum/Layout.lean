import FirewallRollout.Datum.Basic

/-!
# Layouts of records

A layout lists the fields of a record in order. A record may be written by name, where each field
may come under any of its names but only once and foreign names are passed over, or by position,
where the fields at the end that have defaults may be left off; what is given after the last field is
refused or passed over, as the document's format has it.
-/
namespace FirewallRollout

/-- A field: its name, its other names, and whether a positional record may end before it. -/
structure Field where
  name : String
  aliases : List String := []
  trailing : Bool := false

namespace Field

/-- Whether a key is one of the field's names. -/
def named (f : Field) (key : String) : Bool := key == f.name || f.aliases.contains key

end Field

/-- What becomes of the values that a positional record gives after its last field. JSON records
refuse them, TOML records pass over them. -/
inductive Surplus where
  | refused
  | passedOver
  deriving DecidableEq

namespace Surplus

/-- Whether a record of some fields may give some values. -/
def allows (fields values : Nat) : Surplus → Bool
  | refused => decide (values ≤ fields)
  | passedOver => true

end Surplus

/-- The values of the fields that a record gives, under the fields' own names. -/
abbrev Fields := List (String × Datum)

/-- The fields of a record, in order. -/
abbrev Layout := List Field

namespace Layout

/-- The entries that belong to the layout, each under its field's own name. -/
def known (layout : Layout) (entries : List (String × Datum)) : Fields :=
  entries.filterMap fun entry =>
    (layout.find? (·.named entry.1)).map fun f => (f.name, entry.2)

/-- The fields of a datum, refused when one comes twice or when one that may not be left off is past
the end of the positions. -/
def read? (layout : Layout) (surplus : Surplus) : Datum → Option Fields
  | .record entries =>
    let fields := layout.known entries
    if (fields.map Prod.fst).Nodup then some fields else none
  | .list items =>
    if surplus.allows layout.length items.length ∧ (layout.drop items.length).all Field.trailing then
      some ((layout.map Field.name).zip items)
    else none
  | _ => none

/-- Values in the layout's order as entries by name, nulls left out. -/
def entries (layout : Layout) (values : List Datum) : List (String × Datum) :=
  ((layout.map Field.name).zip values).filter fun entry => !entry.2.isNull

end Layout

namespace Fields

variable {α : Type}

/-- A field that has to be there. -/
def required (fields : Fields) (name : String) (read : Datum → Option α) : Option α :=
  (fields.lookup name).bind read

/-- A field with a default. -/
def defaulted (fields : Fields) (name : String) (read : Datum → Option α) (fallback : α) :
    Option α :=
  match fields.lookup name with
  | none => some fallback
  | some d => read d

/-- A field that may be absent or null. -/
def optional (fields : Fields) (name : String) (read : Datum → Option α) : Option (Option α) :=
  match fields.lookup name with
  | none | some .null => some none
  | some d => (read d).map some

end Fields
end FirewallRollout
