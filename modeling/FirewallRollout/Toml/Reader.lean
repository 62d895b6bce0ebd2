import FirewallRollout.Toml.Number
import FirewallRollout.Toml.Tree

/-!
# Reading TOML

A document is a sequence of lines: pairs, and headers that open a table. Arrays and inline tables
nest to a fixed depth, and a key has a bounded number of parts.
-/
namespace FirewallRollout.Toml

/-- The first depth of nesting, and the first number of parts of a key, that is refused. -/
def limit : Nat := 80

def isBlank (c : Char) : Bool := c == ' ' || c == '\t'

def skipBlanks (cs : List Char) : List Char := cs.dropWhile isBlank

/-- What follows a comment, if one starts here. -/
def skipComment : List Char → List Char
  | '#' :: rest => rest.dropWhile isTextChar
  | cs => cs

/-- What follows blanks, line breaks and comments. -/
def skipFiller : Nat → List Char → List Char
  | 0, cs => cs
  | fuel + 1, cs =>
    match skipComment (skipBlanks cs) with
    | '\n' :: rest => skipFiller fuel rest
    | '\r' :: '\n' :: rest => skipFiller fuel rest
    | cs => cs

/-- What follows the end of a line: blanks, a comment, and a line break or the end of the document. -/
def endLine (cs : List Char) : Option (List Char) :=
  match skipComment (skipBlanks cs) with
  | [] => some []
  | '\n' :: rest => some rest
  | '\r' :: '\n' :: rest => some rest
  | _ => none

def isBareKeyChar (c : Char) : Bool := c.isAlpha || c.isDigit || c == '_' || c == '-'

/-- One part of a key, quoted or bare. -/
def keyPart (cs : List Char) : Option (String × List Char) :=
  match cs with
  | '\x22' :: _ | '\x27' :: _ => (lineString? cs).map fun (s, rest) => (.ofList s, rest)
  | _ =>
    let part := cs.takeWhile isBareKeyChar
    if part.isEmpty then none else some (.ofList part, cs.dropWhile isBareKeyChar)

/-- The parts of a key, set apart by points, of which at most a number are read. -/
def keyParts : Nat → List Char → Option (List String × List Char)
  | 0, _ => none
  | more + 1, cs => do
    let (part, rest) ← keyPart (skipBlanks cs)
    match skipBlanks rest with
    | '.' :: rest =>
      let (parts, rest) ← keyParts more rest
      some (part :: parts, rest)
    | rest => some ([part], rest)

/-- A key: the path to its table, its last part, and the characters that follow. -/
def key? (cs : List Char) : Option (List String × String × List Char) := do
  let (parts, rest) ← keyParts (limit - 1) cs
  let last ← parts.getLast?
  some (parts.dropLast, last, rest)

/-- The items of an array up to its closing bracket; a comma may follow the last one. -/
def items (item : List Char → Option (Datum × List Char)) : Nat → List Char → Option (List Datum × List Char)
  | 0, _ => none
  | fuel + 1, cs =>
    match skipFiller cs.length cs with
    | ']' :: rest => some ([], rest)
    | cs => do
      let (d, rest) ← item cs
      match skipFiller rest.length rest with
      | ',' :: rest =>
        let (ds, rest) ← items item fuel rest
        some (d :: ds, rest)
      | ']' :: rest => some ([d], rest)
      | _ => none

/-- A key, an equals sign and a value. -/
def pair (item : List Char → Option (Datum × List Char)) (cs : List Char) : Option (Pair × List Char) := do
  let (path, key, rest) ← key? cs
  let rest ← expect '=' rest
  let (d, rest) ← item (skipBlanks rest)
  some ((path, key, d), rest)

/-- The pairs of an inline table up to its closing brace; none but the last goes without a comma. -/
def pairs (item : List Char → Option (Datum × List Char)) : Nat → List Char →
    Option (List Pair × List Char)
  | 0, _ => none
  | fuel + 1, cs => do
    let (p, rest) ← pair item cs
    match skipBlanks rest with
    | ',' :: rest =>
      let (ps, rest) ← pairs item fuel rest
      some (p :: ps, rest)
    | '}' :: rest => some ([p], rest)
    | _ => none

/-- A value that is no array and no inline table. -/
def scalar (cs : List Char) : Option (Datum × List Char) :=
  match cs with
  | '\x22' :: _ | '\x27' :: _ => (string? cs).map fun (s, rest) => (.text (.ofList s), rest)
  | 't' :: 'r' :: 'u' :: 'e' :: rest => some (.bool true, rest)
  | 'f' :: 'a' :: 'l' :: 's' :: 'e' :: rest => some (.bool false, rest)
  | _ => number? cs

/-- A value with at most a number of containers around one another. -/
def value : Nat → List Char → Option (Datum × List Char)
  | 0, cs => scalar cs
  | depth + 1, cs =>
    match cs with
    | '[' :: rest => (items (value depth) cs.length rest).map fun (ds, rest) => (.list ds, rest)
    | '{' :: rest =>
      match skipBlanks rest with
      | '}' :: rest => some (.record [], rest)
      | rest => do
        let (ps, rest) ← pairs (value depth) cs.length rest
        let es ← Entries.defineAll [] ps
        some (.record (Node.entriesData es), rest)
    | _ => scalar cs

/-- What a line of a document says. -/
inductive Line where
  | pair (path : List String) (key : String) (d : Datum)
  | header (path : List String) (key : String)
  | listHeader (path : List String) (key : String)

/-- The lines of a document. -/
def lines : Nat → List Char → Option (List Line)
  | 0, _ => none
  | fuel + 1, cs =>
    match skipBlanks cs with
    | [] => some []
    | '\n' :: rest => lines fuel rest
    | '\r' :: '\n' :: rest => lines fuel rest
    | '#' :: rest => (endLine ('#' :: rest)).bind (lines fuel)
    | '[' :: '[' :: rest => do
      let (path, key, rest) ← key? rest
      let rest ← (expect ']' rest).bind (expect ']')
      let ls ← (endLine rest).bind (lines fuel)
      some (.listHeader path key :: ls)
    | '[' :: rest => do
      let (path, key, rest) ← key? rest
      let rest ← expect ']' rest
      let ls ← (endLine rest).bind (lines fuel)
      some (.header path key :: ls)
    | cs => do
      let ((path, key, d), rest) ← pair (value (limit - 1)) cs
      let ls ← (endLine rest).bind (lines fuel)
      some (.pair path key d :: ls)

/-- The pairs at the start of some lines. -/
def leadingPairs : List Line → List (List String × String × Datum)
  | .pair path key d :: rest => (path, key, d) :: leadingPairs rest
  | _ => []

/-- The entries of a document after its lines. Each header takes the pairs up to the next one. -/
def applyLines : Entries → List Line → Option Entries
  | es, [] => some es
  | es, .pair .. :: rest => applyLines es rest
  | es, .header path key :: rest =>
    (es.defineTable path key (leadingPairs rest)).bind fun es => applyLines es rest
  | es, .listHeader path key :: rest =>
    (es.appendTable path key (leadingPairs rest)).bind fun es => applyLines es rest

/-- The datum that a document denotes, after an optional byte order mark. -/
def parse? (document : String) : Option Datum := do
  let cs := match document.toList with
    | '\uFEFF' :: rest => rest
    | cs => cs
  let ls ← lines (cs.length + 1) cs
  let root ← Entries.defineAll [] (leadingPairs ls)
  let es ← applyLines root ls
  some (.record (Node.entriesData es))

end FirewallRollout.Toml
