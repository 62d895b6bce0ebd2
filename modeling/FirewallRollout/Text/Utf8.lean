/-!
# Decoding of UTF-8

One scan serves the strict and the lenient reading of octets: it yields the characters in order,
and nothing in place of each longest ill-formed piece. The strict reading refuses such a piece, the
lenient one writes U+FFFD for it.
-/
namespace FirewallRollout.Text.Utf8

/-- A character begun: the bits so far, the octets still owed, and the range of the next one. -/
structure Begun where
  bits : Nat
  owed : Nat
  low : UInt8
  high : UInt8

/-- What an octet between characters is: a character, the start of one, or ill-formed. -/
def lead (b : UInt8) : Option (Char ⊕ Begun) :=
  if b < 0x80 then some (.inl (Char.ofNat b.toNat))
  else if 0xC2 ≤ b && b ≤ 0xDF then some (.inr ⟨b.toNat - 0xC0, 1, 0x80, 0xBF⟩)
  else if b == 0xE0 then some (.inr ⟨0, 2, 0xA0, 0xBF⟩)
  else if b == 0xED then some (.inr ⟨0xD, 2, 0x80, 0x9F⟩)
  else if 0xE1 ≤ b && b ≤ 0xEF then some (.inr ⟨b.toNat - 0xE0, 2, 0x80, 0xBF⟩)
  else if b == 0xF0 then some (.inr ⟨0, 3, 0x90, 0xBF⟩)
  else if 0xF1 ≤ b && b ≤ 0xF3 then some (.inr ⟨b.toNat - 0xF0, 3, 0x80, 0xBF⟩)
  else if b == 0xF4 then some (.inr ⟨4, 3, 0x80, 0x8F⟩)
  else none

/-- The characters of a list of octets; `none` stands for one ill-formed piece. -/
def scan : Option Begun → List UInt8 → List (Option Char)
  | none, [] => []
  | some _, [] => [none]
  | none, b :: rest =>
    match lead b with
    | some (.inl c) => some c :: scan none rest
    | some (.inr begun) => scan (some begun) rest
    | none => none :: scan none rest
  | some p, b :: rest =>
    if p.low ≤ b && b ≤ p.high then
      let bits := p.bits * 64 + (b.toNat - 0x80)
      if p.owed ≤ 1 then some (Char.ofNat bits) :: scan none rest
      else scan (some ⟨bits, p.owed - 1, 0x80, 0xBF⟩) rest
    else
      match lead b with
      | some (.inl c) => none :: some c :: scan none rest
      | some (.inr begun) => none :: scan (some begun) rest
      | none => none :: none :: scan none rest

/-- The text of well-formed octets. -/
def decode? (bytes : List UInt8) : Option String :=
  ((scan none bytes).mapM id).map String.ofList

/-- The text of any octets, with U+FFFD for each longest ill-formed piece. -/
def decodeLossy (bytes : List UInt8) : String :=
  .ofList ((scan none bytes).map (·.getD '\uFFFD'))

/-- The octets of a text. -/
def encode (s : String) : List UInt8 := s.toUTF8.data.toList

/-- The characters in a number of octets, and those that follow; absent when the number ends within a
character or past the last one. -/
def splitAt? : Nat → List Char → Option (List Char × List Char)
  | 0, cs => some ([], cs)
  | _ + 1, [] => none
  | n + 1, c :: rest =>
    if c.utf8Size ≤ n + 1 then
      (splitAt? (n + 1 - c.utf8Size) rest).map fun (first, rest) => (c :: first, rest)
    else none

end FirewallRollout.Text.Utf8
