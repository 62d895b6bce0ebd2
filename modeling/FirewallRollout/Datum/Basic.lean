import FirewallRollout.Text.Decimal

/-!
# Data of a record format

The value that a JSON or TOML document denotes, as far as the records of this library can tell
documents apart: exact integers, text, lists and entries in their written order. A value that no
field of any record accepts, such as a fraction or a text that is not Unicode, is `unreadable`.
-/
namespace FirewallRollout

/-- A value of a document. -/
inductive Datum where
  | null
  | bool (value : Bool)
  | integer (value : Int)
  | text (value : String)
  | list (items : List Datum)
  | record (entries : List (String × Datum))
  | unreadable
  deriving Inhabited

namespace Datum

def isNull : Datum → Bool
  | .null => true
  | _ => false

def bool? : Datum → Option Bool
  | .bool b => some b
  | _ => none

def text? : Datum → Option String
  | .text s => some s
  | _ => none

def list? : Datum → Option (List Datum)
  | .list items => some items
  | _ => none

def int64? : Datum → Option Int64
  | .integer n => Text.int64? n
  | _ => none

def word32? : Datum → Option UInt32
  | .integer n => Text.word32? n
  | _ => none

def word64? : Datum → Option UInt64
  | .integer n => Text.word64? n
  | _ => none

/-- The value under a key of a record. -/
def get? (key : String) : Datum → Option Datum
  | .record entries => entries.lookup key
  | _ => none

/-- A 64-bit integer as a datum. -/
def ofInt64 (n : Int64) : Datum := .integer n.toInt

/-- A natural number as a datum. -/
def ofNat (n : Nat) : Datum := .integer n

/-- A text that may be absent, absence being null. -/
def ofText? (s : Option String) : Datum := s.elim .null .text

end Datum
end FirewallRollout
