import FirewallRollout.Text.Decimal

/-!
# Strings of TOML

The four kinds of strings. Each function reads what follows the opening quotes and gives the text
and what comes after the closing quotes. A line break in a text is always one line feed.
-/
namespace FirewallRollout.Toml

/-- Characters read, and the characters that follow. -/
abbrev Taken := Option (List Char × List Char)

/-- A taken text with a character in front. -/
def Taken.push (c : Char) (t : Taken) : Taken := t.map fun r => (c :: r.1, r.2)

/-- Whether a character may stand in a string or a comment: a tab, or no control character. -/
def isTextChar (c : Char) : Bool :=
  c == '\t' || (decide (0x20 ≤ c.toNat) && decide (c.toNat ≠ 0x7F))

/-- The character that a short escape stands for. -/
def shortEscape? : Char → Option Char
  | 'b' => some '\x08'
  | 't' => some '\t'
  | 'n' => some '\n'
  | 'f' => some '\x0C'
  | 'r' => some '\r'
  | '\x22' => some '\x22'
  | '\\' => some '\\'
  | _ => none

/-- The character that hexadecimal digits name; a surrogate is none. -/
def namedChar? (digits : List Char) : Option Char := do
  let values ← digits.mapM Text.hexDigit?
  let code := values.foldl (fun acc d => acc * 16 + d) 0
  if code < 0xD800 ∨ (0xDFFF < code ∧ code < 0x110000) then some (Char.ofNat code) else none

/-- A string in double quotes on one line. -/
def basic : List Char → Taken
  | '\x22' :: rest => some ([], rest)
  | '\\' :: 'u' :: a :: b :: c :: d :: rest =>
    (namedChar? [a, b, c, d]).bind fun x => Taken.push x (basic rest)
  | '\\' :: 'U' :: a :: b :: c :: d :: e :: f :: g :: h :: rest =>
    (namedChar? [a, b, c, d, e, f, g, h]).bind fun x => Taken.push x (basic rest)
  | '\\' :: c :: rest => (shortEscape? c).bind fun x => Taken.push x (basic rest)
  | c :: rest => if isTextChar c then Taken.push c (basic rest) else none
  | [] => none

/-- A string in single quotes on one line. -/
def literal : List Char → Taken
  | '\x27' :: rest => some ([], rest)
  | c :: rest => if isTextChar c then Taken.push c (literal rest) else none
  | [] => none

/-- Whether a line break is the first thing after blanks. -/
def breaksLine (cs : List Char) : Bool :=
  match cs.dropWhile fun c => c == ' ' || c == '\t' with
  | '\n' :: _ | '\r' :: '\n' :: _ => true
  | _ => false

/-- A string in three double quotes. Up to two quotes may stand before the closing ones. After a
backslash at the end of a line all blanks and line breaks are skipped. -/
def basicLines (skipping : Bool) : List Char → Taken
  | '\x22' :: '\x22' :: '\x22' :: '\x22' :: '\x22' :: rest => some (['\x22', '\x22'], rest)
  | '\x22' :: '\x22' :: '\x22' :: '\x22' :: rest => some (['\x22'], rest)
  | '\x22' :: '\x22' :: '\x22' :: rest => some ([], rest)
  | '\r' :: '\n' :: rest =>
    if skipping then basicLines true rest else Taken.push '\n' (basicLines false rest)
  | '\\' :: 'u' :: a :: b :: c :: d :: rest =>
    (namedChar? [a, b, c, d]).bind fun x => Taken.push x (basicLines false rest)
  | '\\' :: 'U' :: a :: b :: c :: d :: e :: f :: g :: h :: rest =>
    (namedChar? [a, b, c, d, e, f, g, h]).bind fun x => Taken.push x (basicLines false rest)
  | '\\' :: c :: rest =>
    if breaksLine (c :: rest) then basicLines true (c :: rest)
    else (shortEscape? c).bind fun x => Taken.push x (basicLines false rest)
  | c :: rest =>
    if skipping && (c == ' ' || c == '\t' || c == '\n') then basicLines true rest
    else if c == '\n' || isTextChar c then Taken.push c (basicLines false rest)
    else none
  | [] => none

/-- A string in three single quotes. -/
def literalLines : List Char → Taken
  | '\x27' :: '\x27' :: '\x27' :: '\x27' :: '\x27' :: rest => some (['\x27', '\x27'], rest)
  | '\x27' :: '\x27' :: '\x27' :: '\x27' :: rest => some (['\x27'], rest)
  | '\x27' :: '\x27' :: '\x27' :: rest => some ([], rest)
  | '\r' :: '\n' :: rest => Taken.push '\n' (literalLines rest)
  | c :: rest => if c == '\n' || isTextChar c then Taken.push c (literalLines rest) else none
  | [] => none

/-- Characters without a line break at their start. -/
def skipLineBreak : List Char → List Char
  | '\n' :: rest => rest
  | '\r' :: '\n' :: rest => rest
  | cs => cs

/-- A string of any kind, from its opening quotes on. -/
def string? : List Char → Taken
  | '\x22' :: '\x22' :: '\x22' :: rest => basicLines false (skipLineBreak rest)
  | '\x27' :: '\x27' :: '\x27' :: rest => literalLines (skipLineBreak rest)
  | '\x22' :: rest => basic rest
  | '\x27' :: rest => literal rest
  | _ => none

/-- A string of one line, from its opening quote on. -/
def lineString? : List Char → Taken
  | '\x22' :: rest => basic rest
  | '\x27' :: rest => literal rest
  | _ => none

end FirewallRollout.Toml
