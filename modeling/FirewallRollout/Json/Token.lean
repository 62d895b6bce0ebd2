import FirewallRollout.Text.Decimal
import FirewallRollout.Text.Utf8

/-!
# Tokens of JSON

A text is split into tokens octet by octet. A string whose escapes or octets do not make up Unicode
text is still a token, without a text: it may stand where a value is passed over. A number is known
exactly when it is written as an integer.
-/
namespace FirewallRollout.Json

inductive Token where
  | openList
  | closeList
  | openRecord
  | closeRecord
  | comma
  | colon
  | null
  | bool (value : Bool)
  | number (value : Option Int)
  | text (value : Option String)
  deriving DecidableEq

/-- A piece of a string: an octet as written, or the code unit of a numeric escape. -/
inductive Piece where
  | octet (b : UInt8)
  | unit (code : Nat)

/-- The octets of a string's pieces; a surrogate without its partner is refused. -/
def octetsOf : List Piece → Option (List UInt8)
  | [] => some []
  | .octet b :: rest => (octetsOf rest).map (b :: ·)
  | .unit code :: rest =>
    if 0xD800 ≤ code && code ≤ 0xDBFF then
      match rest with
      | .unit low :: rest' =>
        if 0xDC00 ≤ low && low ≤ 0xDFFF then
          let c := Char.ofNat (0x10000 + (code - 0xD800) * 0x400 + (low - 0xDC00))
          (octetsOf rest').map (Text.Utf8.encode c.toString ++ ·)
        else none
      | _ => none
    else if 0xDC00 ≤ code && code ≤ 0xDFFF then none
    else (octetsOf rest).map (Text.Utf8.encode (Char.ofNat code).toString ++ ·)

/-- The text of a string's pieces. -/
def textOf (pieces : List Piece) : Option String := (octetsOf pieces).bind Text.Utf8.decode?

/-- The octet that a short escape stands for. -/
def shortEscape? (b : UInt8) : Option UInt8 :=
  match Char.ofNat b.toNat with
  | '\x22' => some 0x22
  | '\\' => some 0x5C
  | '/' => some 0x2F
  | 'b' => some 0x08
  | 'f' => some 0x0C
  | 'n' => some 0x0A
  | 'r' => some 0x0D
  | 't' => some 0x09
  | _ => none

/-- Whether characters are an exponent, or nothing. -/
def isExponent : List Char → Bool
  | [] => true
  | e :: rest =>
    (e == 'e' || e == 'E') &&
      (let digits := match rest with
        | '+' :: digits | '-' :: digits => digits
        | digits => digits
      (Text.decimal? digits).isSome)

/-- The number that characters spell: no leading zeros, and exact only without fraction, exponent
and negative zero. -/
def number? (cs : List Char) : Option Token :=
  let (negative, unsigned) := match cs with
    | '-' :: rest => (true, rest)
    | _ => (false, cs)
  let whole := unsigned.takeWhile Char.isDigit
  match Text.decimal? whole with
  | none => none
  | some n =>
    if whole.head? == some '0' && 1 < whole.length then none
    else
      match unsigned.dropWhile Char.isDigit with
      | [] =>
        some (.number (if negative then (if n = 0 then none else some (-n)) else some n))
      | '.' :: rest =>
        if !(rest.takeWhile Char.isDigit).isEmpty && isExponent (rest.dropWhile Char.isDigit) then
          some (.number none)
        else none
      | rest => if isExponent rest then some (.number none) else none

/-- The token that a run of letters, digits, signs and points spells. -/
def bare? (cs : List Char) : Option Token :=
  match String.ofList cs with
  | "null" => some .null
  | "true" => some (.bool true)
  | "false" => some (.bool false)
  | _ => number? cs

/-- Where a scan stands: between tokens, in a bare word, or in a string. Runs are newest first. -/
inductive Place where
  | between
  | bare (run : List Char)
  | quoted (run : List Piece)
  | escape (run : List Piece)
  | numericEscape (run : List Piece) (code digits : Nat)

/-- A scan: where it stands, and its tokens so far, newest first. -/
structure Scan where
  place : Place
  done : List Token

def isBareOctet (b : UInt8) : Bool :=
  let c := Char.ofNat b.toNat
  c.isAlpha || c.isDigit || c == '+' || c == '-' || c == '.'

/-- An octet that does not continue a bare word. -/
def Scan.between (done : List Token) (b : UInt8) : Option Scan :=
  match Char.ofNat b.toNat with
  | ' ' | '\t' | '\n' | '\r' => some ⟨.between, done⟩
  | '[' => some ⟨.between, .openList :: done⟩
  | ']' => some ⟨.between, .closeList :: done⟩
  | '{' => some ⟨.between, .openRecord :: done⟩
  | '}' => some ⟨.between, .closeRecord :: done⟩
  | ',' => some ⟨.between, .comma :: done⟩
  | ':' => some ⟨.between, .colon :: done⟩
  | '\x22' => some ⟨.quoted [], done⟩
  | c => if isBareOctet b then some ⟨.bare [c], done⟩ else none

/-- One octet of a scan. -/
def Scan.step (s : Scan) (b : UInt8) : Option Scan :=
  match s.place with
  | .between => Scan.between s.done b
  | .bare run =>
    if isBareOctet b then some ⟨.bare (Char.ofNat b.toNat :: run), s.done⟩
    else (bare? run.reverse).bind fun t => Scan.between (t :: s.done) b
  | .quoted run =>
    if b == 0x22 then some ⟨.between, .text (textOf run.reverse) :: s.done⟩
    else if b == 0x5C then some ⟨.escape run, s.done⟩
    else if b < 0x20 then none
    else some ⟨.quoted (.octet b :: run), s.done⟩
  | .escape run =>
    if b == 0x75 then some ⟨.numericEscape run 0 0, s.done⟩
    else (shortEscape? b).map fun b' => ⟨.quoted (.octet b' :: run), s.done⟩
  | .numericEscape run code digits =>
    (Text.hexDigit? (Char.ofNat b.toNat)).map fun d =>
      let code := code * 16 + d
      if 3 ≤ digits then ⟨.quoted (.unit code :: run), s.done⟩
      else ⟨.numericEscape run code (digits + 1), s.done⟩

/-- The tokens of a finished scan. -/
def Scan.finish (s : Scan) : Option (List Token) :=
  match s.place with
  | .between => some s.done.reverse
  | .bare run => (bare? run.reverse).map fun t => (t :: s.done).reverse
  | _ => none

/-- The tokens of a text. -/
def tokens? (octets : List UInt8) : Option (List Token) :=
  (octets.foldlM Scan.step ⟨.between, []⟩).bind Scan.finish

end FirewallRollout.Json
