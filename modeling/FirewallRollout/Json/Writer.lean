import FirewallRollout.Datum.Basic

/-!
# Writing JSON

A datum on one line without blanks. Quotes, backslashes and control characters are escaped; what is
unreadable is written as null.
-/
namespace FirewallRollout.Json

/-- A character as it stands within quotes. -/
def escape (c : Char) : List Char :=
  if c == '\x22' then ['\\', '\x22']
  else if c == '\\' then ['\\', '\\']
  else if c == '\n' then ['\\', 'n']
  else if c == '\r' then ['\\', 'r']
  else if c == '\t' then ['\\', 't']
  else if c.toNat = 0x08 then ['\\', 'b']
  else if c.toNat = 0x0C then ['\\', 'f']
  else if c.toNat < 0x20 then
    ['\\', 'u', '0', '0', Nat.digitChar (c.toNat / 16), Nat.digitChar (c.toNat % 16)]
  else [c]

/-- A text within quotes. -/
def quote (s : String) : List Char := '\x22' :: s.toList.flatMap escape ++ ['\x22']

mutual

/-- The characters of a datum. -/
def charsOf : Datum → List Char
  | .null | .unreadable => "null".toList
  | .bool true => "true".toList
  | .bool false => "false".toList
  | .integer n => (toString n).toList
  | .text s => quote s
  | .list items => '[' :: charsOfItems items ++ [']']
  | .record entries => '{' :: charsOfEntries entries ++ ['}']

/-- Items set apart by commas. -/
def charsOfItems : List Datum → List Char
  | [] => []
  | [d] => charsOf d
  | d :: rest => charsOf d ++ ',' :: charsOfItems rest

/-- Entries set apart by commas. -/
def charsOfEntries : List (String × Datum) → List Char
  | [] => []
  | [(key, d)] => quote key ++ ':' :: charsOf d
  | (key, d) :: rest => quote key ++ ':' :: charsOf d ++ ',' :: charsOfEntries rest

end

/-- The document of a datum. -/
def write (d : Datum) : String := .ofList (charsOf d)

end FirewallRollout.Json
