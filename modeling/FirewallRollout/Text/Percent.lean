import FirewallRollout.Text.Decimal
import FirewallRollout.Text.Utf8

/-!
# Percent-encoded text

Escapes of the form `%41` in paths and queries. An escape that is not complete stays as it is.
-/
namespace FirewallRollout.Text.Percent

/-- The value of an octet that spells a hexadecimal digit. -/
def hexOctet? (b : UInt8) : Option UInt8 :=
  (hexDigit? (Char.ofNat b.toNat)).map UInt8.ofNat

/-- Octets with every complete escape replaced by the octet it names. -/
def decodeOctets : List UInt8 → List UInt8
  | [] => []
  | b :: rest =>
    if b == 0x25 then
      match rest with
      | h :: l :: rest' =>
        match hexOctet? h, hexOctet? l with
        | some hi, some lo => (hi * 16 + lo) :: decodeOctets rest'
        | _, _ => b :: decodeOctets (h :: l :: rest')
      | rest' => b :: rest'
    else b :: decodeOctets rest

/-- A percent-encoded text, when its octets are well-formed. -/
def decode? (s : String) : Option String := Utf8.decode? (decodeOctets (Utf8.encode s))

/-- One component of a form: a plus sign is a space, and ill-formed octets are replaced. -/
def decodeForm (s : String) : String :=
  Utf8.decodeLossy (decodeOctets ((Utf8.encode s).map fun b => if b == 0x2B then 0x20 else b))

/-- The pairs of a query: split at ampersands and at the first equals sign, empty pieces skipped. -/
def formPairs (query : String) : List (String × String) :=
  ((query.splitOn "&").filter (· != "")).map fun piece =>
    let cs := piece.toList
    (decodeForm (.ofList (cs.takeWhile (· != '='))),
      decodeForm (.ofList ((cs.dropWhile (· != '=')).drop 1)))

end FirewallRollout.Text.Percent
