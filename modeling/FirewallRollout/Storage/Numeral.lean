import FirewallRollout.Text.Decimal

/-!
# Numerals in a column of integers

A text may spell a number with a sign, a fraction and an exponent, and with white space around. An
integer of 64 bits is itself. Any other number is first taken to the precision of binary floating
point of 64 bits, and it is an integer when no fraction is left after that.
-/
namespace FirewallRollout.Storage

/-- A decimal fraction without a sign: its digits times a power of ten. -/
structure Decimal where
  digits : Nat := 0
  exponent : Int := 0
  deriving DecidableEq

namespace Decimal

/-- From here on the digits leave no room in 64 bits for one more. -/
def fullAt : Nat := (UInt64.size - 10) / 10

def digitValue (c : Char) : Nat := c.toNat - 0x30

/-- One more digit before the point. A digit without room only counts as a place. -/
def pushWhole (d : Decimal) (c : Char) : Decimal :=
  if d.digits < fullAt then { d with digits := d.digits * 10 + digitValue c }
  else { d with exponent := d.exponent + 1 }

/-- One more digit after the point. A digit without room is dropped. -/
def pushFraction (d : Decimal) (c : Char) : Decimal :=
  if d.digits < fullAt then
    { digits := d.digits * 10 + digitValue c, exponent := d.exponent - 1 }
  else d

/-- The exponent that a numeral ends with; zero when there is none. -/
def exponent? : List Char → Option Int
  | [] => some 0
  | c :: rest => if c == 'e' || c == 'E' then Text.signed? rest else none

/-- The number that a text spells without a sign. There is a digit before or after the point. -/
def ofChars? (cs : List Char) : Option Decimal :=
  let whole := cs.takeWhile Char.isDigit
  let (fraction, rest) := match cs.dropWhile Char.isDigit with
    | '.' :: rest => (rest.takeWhile Char.isDigit, rest.dropWhile Char.isDigit)
    | rest => ([], rest)
  if whole.isEmpty && fraction.isEmpty then none
  else
    let d := fraction.foldl pushFraction (whole.foldl pushWhole {})
    (exponent? rest).map fun e => { d with exponent := d.exponent + e }

/-- A quotient rounded to a whole number, a half going to the even neighbour. -/
def roundedQuotient (n m : Nat) : Nat :=
  let rest := 2 * (n % m)
  if rest < m then n / m
  else if rest = m then n / m + n / m % 2
  else n / m + 1

/-- The whole number that a quotient is to a precision of 53 binary digits; absent when it keeps a
fraction. A positive quotient below the least positive floating-point number is zero. -/
def wholeQuotient? (n m : Nat) : Option Nat :=
  if n / m = 0 then
    if n * Nat.pow 2 1075 ≤ m then some 0
    else if (Nat.pow 2 54 - 1) * m ≤ n * Nat.pow 2 54 then some 1
    else none
  else
    let size := Nat.log2 (n / m)
    if 52 ≤ size then some (roundedQuotient n (m * Nat.pow 2 (size - 52)) * Nat.pow 2 (size - 52))
    else
      let scaled := roundedQuotient (n * Nat.pow 2 (52 - size)) m
      if scaled % Nat.pow 2 (52 - size) = 0 then some (scaled / Nat.pow 2 (52 - size)) else none

/-- The whole number that a decimal fraction is to that precision. Exponents that put it beyond 64
bits, or below every positive floating-point number, are not raised to. -/
def whole? (d : Decimal) : Option Nat :=
  if d.digits = 0 then some 0
  else if 20 < d.exponent then none
  else if 0 ≤ d.exponent then wholeQuotient? (d.digits * Nat.pow 10 d.exponent.toNat) 1
  else if d.exponent < -400 then some 0
  else wholeQuotient? d.digits (Nat.pow 10 d.exponent.natAbs)

end Decimal

namespace Numeral

/-- Whether a character is white space of ASCII. -/
def isSpace (c : Char) : Bool := c == ' ' || (decide (0x09 ≤ c.toNat) && decide (c.toNat ≤ 0x0D))

/-- The characters without the white space around them. -/
def trim (cs : List Char) : List Char :=
  ((cs.dropWhile isSpace).reverse.dropWhile isSpace).reverse

/-- Whether a minus stands before the number that a text spells, and the number. -/
def decimal? : List Char → Option (Bool × Decimal)
  | '-' :: cs => (Decimal.ofChars? cs).map (true, ·)
  | '+' :: cs => (Decimal.ofChars? cs).map (false, ·)
  | cs => (Decimal.ofChars? cs).map (false, ·)

/-- The integer that a number is by way of floating point, which reaches neither end of the range of 64
bits. -/
def rounded? (negative : Bool) (d : Decimal) : Option Int64 :=
  (d.whole?.filter fun n => decide (n < Nat.pow 2 63)).bind fun n =>
    Text.int64? (if negative then -n else n)

/-- The integer that a text is in a column of integers. -/
def integer? (s : String) : Option Int64 :=
  let cs := trim s.toList
  ((Text.signed? cs).bind Text.int64?) <|> (decimal? cs).bind fun d => rounded? d.1 d.2

/-- Whether a text spells a number at all. -/
def isNumeral (s : String) : Bool := (decimal? (trim s.toList)).isSome

end Numeral
end FirewallRollout.Storage
