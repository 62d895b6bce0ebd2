import FirewallRollout.Datum.Basic
import FirewallRollout.Toml.Quoted

/-!
# Numbers and moments of TOML

Integers in four radices, fractions, dates and times. Underscores may stand between digits. Integers
have 64 bits; a fraction must not be so large that it rounds to infinity.
-/
namespace FirewallRollout.Toml

def isDigitOf (radix : Nat) (c : Char) : Bool := (Text.hexDigit? c).any (· < radix)

/-- The digits that continue a number, without underscores; one that no digit follows is refused. -/
def moreDigits (radix : Nat) : List Char → Taken
  | '_' :: c :: rest => if isDigitOf radix c then Taken.push c (moreDigits radix rest) else none
  | c :: rest =>
    if isDigitOf radix c then Taken.push c (moreDigits radix rest)
    else if c == '_' then none
    else some ([], c :: rest)
  | [] => some ([], [])

/-- At least one digit. -/
def digits (radix : Nat) : List Char → Taken
  | c :: rest => if isDigitOf radix c then Taken.push c (moreDigits radix rest) else none
  | [] => none

/-- Decimal digits without leading zeros. -/
def wholeDigits : List Char → Taken
  | '0' :: rest => some (['0'], rest)
  | cs => digits 10 cs

def valueOf (radix : Nat) (ds : List Char) : Nat :=
  ds.foldl (fun acc d => acc * radix + (Text.hexDigit? d).getD 0) 0

/-- A number within 64 bits. -/
def bounded (n : Int) (rest : List Char) : Option (Datum × List Char) :=
  (Text.int64? n).map fun _ => (.integer n, rest)

/-- A sign, true when negative, and what follows. -/
def sign : List Char → Bool × List Char
  | '-' :: rest => (true, rest)
  | '+' :: rest => (false, rest)
  | cs => (false, cs)

/-- The least number that rounds to infinity in binary floating point of 64 bits. -/
def infinityBound : Nat := Nat.pow 2 1024 - Nat.pow 2 970

/-- Whether a whole number times a power of ten rounds to infinity. -/
def overflows (n : Nat) (exponent : Int) : Bool :=
  if n = 0 then false
  else if 400 < exponent then true
  else if 0 ≤ exponent then decide (infinityBound ≤ n * Nat.pow 10 exponent.toNat)
  else if Nat.log2 n < exponent.natAbs then false
  else decide (infinityBound * Nat.pow 10 exponent.natAbs ≤ n)

/-- The exponent of a fraction; zero when there is none. -/
def exponent? : List Char → Option (Int × List Char)
  | e :: rest =>
    if e == 'e' || e == 'E' then
      let (negative, rest) := sign rest
      (digits 10 rest).map fun (ds, rest) =>
        ((if negative then -(valueOf 10 ds : Int) else valueOf 10 ds), rest)
    else some (0, e :: rest)
  | [] => some (0, [])

/-- What follows the whole digits of a decimal number: a fraction, an exponent, or nothing. -/
def afterWhole (negative : Bool) (whole : List Char) (rest : List Char) : Option (Datum × List Char) :=
  let fraction (places : List Char) (rest : List Char) : Option (Datum × List Char) :=
    (exponent? rest).bind fun (e, rest) =>
      if !negative && overflows (valueOf 10 (whole ++ places)) (e - places.length) then none
      else some (.unreadable, rest)
  match rest with
  | '.' :: rest => (digits 10 rest).bind fun (places, rest) => fraction places rest
  | 'e' :: _ | 'E' :: _ => fraction [] rest
  | _ =>
    let n : Int := valueOf 10 whole
    bounded (if negative then -n else n) rest

/-- A decimal integer, a fraction, an infinity or no number at all. -/
def decimalNumber (cs : List Char) : Option (Datum × List Char) :=
  let (negative, cs) := sign cs
  match cs with
  | 'i' :: 'n' :: 'f' :: rest | 'n' :: 'a' :: 'n' :: rest => some (.unreadable, rest)
  | _ => (wholeDigits cs).bind fun (whole, rest) => afterWhole negative whole rest

/-- Exactly two decimal digits with a value in a range. -/
def twoDigits (low high : Nat) : List Char → Option (Nat × List Char)
  | a :: b :: rest =>
    if a.isDigit && b.isDigit then
      let n := valueOf 10 [a, b]
      if low ≤ n ∧ n ≤ high then some (n, rest) else none
    else none
  | _ => none

def expect (c : Char) : List Char → Option (List Char)
  | d :: rest => if c == d then some rest else none
  | [] => none

def isLeapYear (year : Nat) : Bool := year % 4 == 0 && (year % 100 != 0 || year % 400 == 0)

def daysInMonth (year month : Nat) : Nat :=
  if month = 2 then (if isLeapYear year then 29 else 28)
  else if month ∈ [4, 6, 9, 11] then 30
  else 31

/-- What follows a date. -/
def date? : List Char → Option (List Char)
  | a :: b :: c :: d :: '-' :: rest => do
    if !([a, b, c, d].all Char.isDigit) then none
    let (month, rest) ← twoDigits 1 12 rest
    let rest ← expect '-' rest
    let (_, rest) ← twoDigits 1 (daysInMonth (valueOf 10 [a, b, c, d]) month) rest
    some rest
  | _ => none

/-- What follows the fraction of a second, if there is one. -/
def afterFraction : List Char → List Char
  | '.' :: c :: rest => if c.isDigit then rest.dropWhile Char.isDigit else '.' :: c :: rest
  | cs => cs

/-- What follows a time of day. -/
def time? (cs : List Char) : Option (List Char) := do
  let (_, cs) ← twoDigits 0 23 cs
  let cs ← expect ':' cs
  let (_, cs) ← twoDigits 0 59 cs
  let cs ← expect ':' cs
  let (_, cs) ← twoDigits 0 60 cs
  some (afterFraction cs)

/-- What follows the offset of a time zone. -/
def offset? : List Char → Option (List Char)
  | 'Z' :: rest | 'z' :: rest => some rest
  | c :: rest =>
    if c == '+' || c == '-' then do
      let (_, rest) ← twoDigits 0 23 rest
      let rest ← expect ':' rest
      let (_, rest) ← twoDigits 0 59 rest
      some rest
    else none
  | [] => none

/-- What follows the time that may come after a date. -/
def afterDate : List Char → Option (List Char)
  | c :: rest =>
    if c == 'T' || c == 't' || c == ' ' then
      (time? rest).map fun rest => (offset? rest).getD rest
    else none
  | [] => none

/-- What follows a date, a time, or both. -/
def moment? (cs : List Char) : Option (List Char) :=
  match date? cs with
  | some rest => some ((afterDate rest).getD rest)
  | none => time? cs

/-- A date or a time: a record of one entry that no layout knows. -/
def moment : Datum := .record [("date or time", .unreadable)]

/-- A number or a moment. -/
def number? (cs : List Char) : Option (Datum × List Char) :=
  match moment? cs with
  | some rest => some (moment, rest)
  | none =>
    let inRadix (radix : Nat) (rest : List Char) : Option (Datum × List Char) :=
      (digits radix rest).bind fun (ds, rest) => bounded (valueOf radix ds) rest
    match cs with
    | '0' :: 'x' :: rest => inRadix 16 rest
    | '0' :: 'o' :: rest => inRadix 8 rest
    | '0' :: 'b' :: rest => inRadix 2 rest
    | _ => decimalNumber cs

end FirewallRollout.Toml
