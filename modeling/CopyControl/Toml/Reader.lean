import CopyControl.Toml.Scalar

/-!
Reading TOML.

A reader takes a text and answers its value and the rest, or nothing if the text does not begin
with what it reads.
-/

namespace CopyControl.Toml

/-! ## Blanks and comments -/

def isBlank (c : Char) : Bool :=
  c = ' ' || c = '\t'

/-- Control characters, which may stand nowhere; a tab is none of them. -/
def isControl (c : Char) : Bool :=
  c.toNat < 32 && c != '\t' || c.toNat = 127

def skipBlanks (s : List Char) : List Char :=
  s.dropWhile isBlank

/-- What follows a line end. -/
def lineEnd? : List Char → Option (List Char)
  | '\n' :: rest => some rest
  | '\r' :: '\n' :: rest => some rest
  | _ => none

/-- What follows a comment, if one begins here. -/
def skipComment : List Char → List Char
  | '#' :: rest => rest.dropWhile (!isControl ·)
  | s => s

/-- What follows the rest of a line that holds at most a comment. -/
def endLine? (s : List Char) : Option (List Char) :=
  match skipComment (skipBlanks s) with
  | [] => some []
  | s => lineEnd? s

/-- Skips blanks, comments and line ends, at most `fuel` lines. -/
def skipLines : Nat → List Char → List Char
  | 0, s => s
  | fuel + 1, s =>
    let s := skipComment (skipBlanks s)
    match lineEnd? s with
    | some rest => skipLines fuel rest
    | none => s

/-- Skips everything that may stand between the parts of a value. -/
def skipSpace (s : List Char) : List Char :=
  skipLines (s.length + 1) s

/-! ## Strings -/

/-- The character that `n` hexadecimal digits name. -/
def codePoint? (n : Nat) (s : List Char) : Option (Char × List Char) :=
  let digits := s.take n
  let value := Text.number 16 digits
  if digits.length = n && digits.all (Text.isDigitTo 16) && value.isValidChar then
    some (Char.ofNat value, s.drop n)
  else none

/-- The character of an escape behind its backslash. -/
def escape? : List Char → Option (Char × List Char)
  | 'b' :: rest => some ('\x08', rest)
  | 't' :: rest => some ('\t', rest)
  | 'n' :: rest => some ('\n', rest)
  | 'f' :: rest => some ('\x0c', rest)
  | 'r' :: rest => some ('\r', rest)
  | 'e' :: rest => some ('\x1b', rest)
  | '"' :: rest => some ('"', rest)
  | '\\' :: rest => some ('\\', rest)
  | 'x' :: rest => codePoint? 2 rest
  | 'u' :: rest => codePoint? 4 rest
  | 'U' :: rest => codePoint? 8 rest
  | _ => none

/-- The rest of a string on one line, in the given quotes. Only double quotes have escapes. -/
def lineString? (quote : Char) : Nat → List Char → Option (List Char × List Char)
  | 0, _ => none
  | _, [] => none
  | fuel + 1, c :: rest =>
    if c = quote then some ([], rest)
    else if c = '\\' && quote = '"' then
      match escape? rest with
      | some (x, rest) => (lineString? quote fuel rest).map fun (s, rest) => (x :: s, rest)
      | none => none
    else if isControl c then none
    else (lineString? quote fuel rest).map fun (s, rest) => (c :: s, rest)

/-- What follows a backslash at the end of a line and all blanks and line ends behind it. -/
def joinLine? (s : List Char) : Option (List Char) :=
  (lineEnd? (skipBlanks s)).map fun rest =>
    rest.dropWhile fun c => isBlank c || c = '\n' || c = '\r'

/-- The rest of a string over several lines, in three of the given quotes. Up to two quotes may
stand in front of the closing ones. -/
def blockString? (quote : Char) : Nat → List Char → Option (List Char × List Char)
  | 0, _ => none
  | _, [] => none
  | fuel + 1, c :: rest =>
    let more (x : List Char) (rest : List Char) :=
      (blockString? quote fuel rest).map fun (s, rest) => (x ++ s, rest)
    if c = quote then
      let run := ((c :: rest).takeWhile (· = quote)).length
      if run < 3 then more (List.replicate run quote) (rest.drop (run - 1))
      else
        let inside := min run 5 - 3
        some (List.replicate inside quote, rest.drop (inside + 2))
    else if c = '\\' && quote = '"' then
      match escape? rest with
      | some (x, rest) => more [x] rest
      | none => (joinLine? rest).bind (more [])
    else
      match lineEnd? (c :: rest) with
      | some rest => more ['\n'] rest
      | none => if isControl c then none else more [c] rest

/-- A line end directly behind the opening quotes is no part of a string. -/
def dropFirstLineEnd (s : List Char) : List Char :=
  (lineEnd? s).getD s

/-- Reads a string in quotes of either kind, one or three. -/
def string? (s : List Char) : Option (List Char × List Char) :=
  match s with
  | '"' :: '"' :: '"' :: rest => blockString? '"' s.length (dropFirstLineEnd rest)
  | '\'' :: '\'' :: '\'' :: rest => blockString? '\'' s.length (dropFirstLineEnd rest)
  | '"' :: rest => lineString? '"' s.length rest
  | '\'' :: rest => lineString? '\'' s.length rest
  | _ => none

/-! ## Keys -/

def isBareChar (c : Char) : Bool :=
  c.isAlphanum || c = '_' || c = '-'

/-- Reads one name of a key, bare or in single quotes of either kind. -/
def name? (s : List Char) : Option (String × List Char) :=
  match s with
  | '"' :: rest => (lineString? '"' s.length rest).map fun (n, rest) => (.ofList n, rest)
  | '\'' :: rest => (lineString? '\'' s.length rest).map fun (n, rest) => (.ofList n, rest)
  | _ =>
    let bare := s.takeWhile isBareChar
    if bare.isEmpty then none else some (.ofList bare, s.drop bare.length)

/-- A key: the names up to the last, and the last. -/
structure Key where
  path : Path
  name : String
deriving DecidableEq, Repr, Inhabited

/-- Reads a key of at most `fuel` names with dots between them, and the blanks behind it. -/
def key? : Nat → List Char → Option (Key × List Char)
  | 0, _ => none
  | fuel + 1, s => do
    let (name, rest) ← name? (skipBlanks s)
    match skipBlanks rest with
    | '.' :: rest =>
      let (key, rest) ← key? fuel rest
      some (⟨name :: key.path, key.name⟩, rest)
    | rest => some (⟨[], name⟩, rest)

/-- Reads a key and the sign behind it. -/
def assignedKey? (s : List Char) : Option (Key × List Char) := do
  let (key, rest) ← key? (s.length + 1) s
  match rest with
  | '=' :: rest => some (key, skipBlanks rest)
  | _ => none

/-! ## Values -/

/-- Characters of values without quotes or brackets. -/
def isScalarChar (c : Char) : Bool :=
  c.isAlphanum || c = '_' || c = '+' || c = '-' || c = '.' || c = ':'

/-- The text of a value without quotes or brackets, and the rest. A blank may divide a date from
a time. -/
def splitScalar (s : List Char) : List Char × List Char :=
  let first := s.takeWhile isScalarChar
  let rest := s.drop first.length
  match date? first, rest with
  | some [], ' ' :: c :: more =>
    if c.isDigit then
      let second := (c :: more).takeWhile isScalarChar
      (first ++ ' ' :: second, (c :: more).drop second.length)
    else (first, rest)
  | _, _ => (first, rest)

mutual

/-- Reads a value with at most `depth` brackets open. -/
def value? (depth : Nat) : Nat → List Char → Option (Value × List Char)
  | 0, _ => none
  | fuel + 1, s =>
    match s, depth with
    | '[' :: rest, depth + 1 => do
      let (items, rest) ← items? depth fuel (skipSpace rest)
      some (.array items, rest)
    | '{' :: rest, depth + 1 => do
      let (entries, rest) ← fields? depth fuel (.emptyTable .header) (skipSpace rest)
      some (.table .inline entries, rest)
    | '[' :: _, 0 => none
    | '{' :: _, 0 => none
    | s, _ =>
      match string? s with
      | some (text, rest) => some (.text (.ofList text), rest)
      | none =>
        let (text, rest) := splitScalar s
        (scalar? text).map (·, rest)

/-- Reads the items of an array and its closing bracket. -/
def items? (depth : Nat) : Nat → List Char → Option (List Value × List Char)
  | 0, _ => none
  | fuel + 1, s =>
    match s with
    | ']' :: rest => some ([], rest)
    | _ => do
      let (item, rest) ← value? depth fuel s
      match skipSpace rest with
      | ',' :: rest =>
        let (items, rest) ← items? depth fuel (skipSpace rest)
        some (item :: items, rest)
      | ']' :: rest => some ([item], rest)
      | _ => none

/-- Reads the fields of a table between braces and the closing brace. -/
def fields? (depth : Nat) :
    Nat → Value → List Char → Option (List (String × Value) × List Char)
  | 0, _, _ => none
  | fuel + 1, table, s =>
    match s with
    | '}' :: rest => some (table.entries, rest)
    | _ => do
      let (key, rest) ← assignedKey? s
      let (v, rest) ← value? depth fuel rest
      let table ← table.addPair key.path key.name v
      match skipSpace rest with
      | ',' :: rest => fields? depth fuel table (skipSpace rest)
      | '}' :: rest => some (table.entries, rest)
      | _ => none

end

/-- How many brackets may be open at once. -/
def depthLimit : Nat := 80

/-! ## Documents -/

/-- A document under way: the top-level table, and the path of the header in force. -/
structure Reading where
  root : Value
  header : Path
deriving Repr, Inhabited

/-- Reads what one line begins with: a header, a pair, or nothing; answers the rest of the
line. -/
def Reading.statement? (r : Reading) (s : List Char) : Option (Reading × List Char) :=
  match skipBlanks s with
  | '[' :: '[' :: rest => do
    let (key, rest) ← key? (rest.length + 1) rest
    match rest with
    | ']' :: ']' :: rest =>
      let root ← r.root.addItem key.path key.name
      some (⟨root, key.path ++ [key.name]⟩, rest)
    | _ => none
  | '[' :: rest => do
    let (key, rest) ← key? (rest.length + 1) rest
    match rest with
    | ']' :: rest =>
      let root ← r.root.addTable key.path key.name
      some (⟨root, key.path ++ [key.name]⟩, rest)
    | _ => none
  | s =>
    if (endLine? s).isSome then some (r, s)
    else do
      let (key, rest) ← assignedKey? s
      let (v, rest) ← value? depthLimit (rest.length + 1) rest
      let root ← r.root.addPairBelow r.header key.path key.name v
      some ({ r with root := root }, rest)

/-- Reads statements, one to a line, to the end. -/
def Reading.statements? : Nat → Reading → List Char → Option Value
  | _, r, [] => some r.root
  | 0, _, _ => none
  | fuel + 1, r, s => do
    let (r, rest) ← r.statement? s
    let rest ← endLine? rest
    statements? fuel r rest

/-- Reads a document, which a byte order mark may begin; answers its table. -/
def read? (text : String) : Option Value :=
  let s := match text.toList with
    | c :: rest => if c.toNat = 0xFEFF then rest else c :: rest
    | [] => []
  Reading.statements? (s.length + 1) ⟨.emptyTable .header, []⟩ s

end CopyControl.Toml
