/-!
# Decimal numbers

Reading of decimal text, with any number of leading zeros, and of the bounded kinds that the records
use.
-/
namespace FirewallRollout.Text

/-- The number that a list of ASCII digits denotes, read after `acc`. -/
def decimalFrom (acc : Nat) : List Char → Nat
  | [] => acc
  | c :: rest => decimalFrom (acc * 10 + (c.toNat - 0x30)) rest

/-- The number that a non-empty list of ASCII digits denotes; anything else is refused. -/
def decimal? (cs : List Char) : Option Nat :=
  if cs.isEmpty || !cs.all Char.isDigit then none else some (decimalFrom 0 cs)

/-- The number that ASCII digits denote after an optional sign. -/
def signed? : List Char → Option Int
  | '-' :: digits => (decimal? digits).map fun n => -n
  | '+' :: digits => (decimal? digits).map Int.ofNat
  | digits => (decimal? digits).map Int.ofNat

/-- An unsigned number of at most 64 bits, with an optional plus sign. -/
def unsigned64? (s : String) : Option UInt64 :=
  let digits := match s.toList with
    | '+' :: rest => rest
    | cs => cs
  match decimal? digits with
  | some n => if n < UInt64.size then some (.ofNat n) else none
  | none => none

/-- A number as a 64-bit integer, when it is in range. -/
def int64? (n : Int) : Option Int64 :=
  if Int64.minValue.toInt ≤ n && n ≤ Int64.maxValue.toInt then some (.ofInt n) else none

/-- A number as a 32-bit word, when it is in range. -/
def word32? (n : Int) : Option UInt32 :=
  if 0 ≤ n && n.toNat < UInt32.size then some (.ofNat n.toNat) else none

/-- A number as a 64-bit word, when it is in range. -/
def word64? (n : Int) : Option UInt64 :=
  if 0 ≤ n && n.toNat < UInt64.size then some (.ofNat n.toNat) else none

/-- The ASCII text of a hexadecimal digit. -/
def hexDigit? (c : Char) : Option Nat :=
  if c.isDigit then some (c.toNat - 0x30)
  else if 'a' ≤ c && c ≤ 'f' then some (c.toNat - 0x61 + 10)
  else if 'A' ≤ c && c ≤ 'F' then some (c.toNat - 0x41 + 10)
  else none

/-- The number that a non-empty list of digits denotes in a radix of at most sixteen. -/
def inRadix? (radix : Nat) (cs : List Char) : Option Nat :=
  if cs.isEmpty then none
  else (cs.mapM fun c => (hexDigit? c).filter (· < radix)).map fun ds =>
    ds.foldl (fun n d => n * radix + d) 0

end FirewallRollout.Text
