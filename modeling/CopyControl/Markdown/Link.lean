import CopyControl.Markdown.Block
import CopyControl.Text.Blank
import CopyControl.Text.Digit
import CopyControl.Text.Entity
import CopyControl.Text.Folding
import CopyControl.Text.Punctuation

/-!
The parts of links: character references, labels, destinations, titles, and the definitions that
labels refer to.

All of them are read from the content of one paragraph, from where they begin; each answers its
value and what follows.
-/

namespace CopyControl.Markdown

/-! ## Character references -/

/-- The character with a code point; the replacement character for zero and for numbers that are
no character. -/
def referencedChar (n : Nat) : Char :=
  if n = 0 || !n.isValidChar then Char.ofNat 0xFFFD else Char.ofNat n

/-- The character that digits to a base and a semicolon name. -/
def numericReference? (base limit : Nat) (s : List Char) : Option (List Char × List Char) :=
  let digits := s.takeWhile (Text.isDigitTo base)
  match s.drop digits.length with
  | ';' :: rest =>
    if digits.isEmpty || limit < digits.length then none
    else some ([referencedChar (Text.number base digits)], rest)
  | _ => none

/-- A character reference: its text, and what follows. Decimal numbers have at most seven digits,
hexadecimal ones at most six. -/
def reference? : List Char → Option (List Char × List Char)
  | '&' :: '#' :: x :: rest =>
    if x = 'x' || x = 'X' then numericReference? 16 6 rest
    else numericReference? 10 7 (x :: rest)
  | '&' :: rest =>
    let name := rest.takeWhile Char.isAlphanum
    match rest.drop name.length with
    | ';' :: rest => (Text.entityText? (.ofList name)).map (·, rest)
    | _ => none
  | _ => none

/-! ## Escapes -/

/-- A text with its escapes and character references resolved, up to `fuel` of them. In a table
two backslashes in front of a pipe are dropped with their usual meaning. -/
def unescapeWithin (inTable : Bool) : Nat → List Char → List Char
  | 0, s => s
  | _, [] => []
  | fuel + 1, c :: rest =>
    match inTable, c, rest with
    | true, '\\', '\\' :: '|' :: rest => '|' :: unescapeWithin inTable fuel rest
    | _, '\\', x :: rest' =>
      if Text.isAsciiPunctuation x then x :: unescapeWithin inTable fuel rest'
      else '\\' :: unescapeWithin inTable fuel rest
    | _, '\r', _ => unescapeWithin inTable fuel rest
    | _, _, _ =>
      match reference? (c :: rest) with
      | some (text, rest) => text ++ unescapeWithin inTable fuel rest
      | none => c :: unescapeWithin inTable fuel rest

/-- A text with its escapes and character references resolved. -/
def unescape (inTable : Bool) (s : List Char) : List Char :=
  unescapeWithin inTable s.length s

/-! ## Line ends -/

/-- What follows a line end, if one begins here. -/
def lineEnd? : List Glyph → Option (List Glyph)
  | ⟨'\r', _⟩ :: ⟨'\n', _⟩ :: rest => some rest
  | ⟨'\r', _⟩ :: rest => some rest
  | ⟨'\n', _⟩ :: rest => some rest
  | _ => none

/-- Drops blanks within the line. -/
def dropBlanks (gs : List Glyph) : List Glyph :=
  gs.dropWhile fun g => Text.isLineBlank g.char

/-- What follows the margin and the indentation at the start of a line. -/
def dropIndent (gs : List Glyph) : List Glyph :=
  dropBlanks (gs.dropWhile (·.margin))

/-- Drops blanks with at most one line end among them. -/
def dropSeparator (gs : List Glyph) : List Glyph :=
  let gs := dropBlanks gs
  match lineEnd? gs with
  | some rest => dropIndent rest
  | none => gs

/-! ## Labels -/

/-- Drops blanks, line ends and margins. -/
def dropSpace (gs : List Glyph) : List Glyph :=
  gs.dropWhile fun g => g.margin || Text.isMarkupBlank g.char

/-- Whether a character stands for itself because a backslash is in front of it. -/
def isLiteral (escaped : Bool) (c : Char) : Bool :=
  escaped && Text.isAsciiPunctuation c

/-- The rest of a label up to its closing bracket, at most `fuel` characters, each run of blanks
as one space. `escaped` tells that a backslash is in front. -/
def labelWithin (inTable escaped : Bool) : Nat → List Glyph → Option (List Char × List Glyph)
  | 0, _ => none
  | _, [] => none
  | fuel + 1, g :: rest =>
    let more (c : Char) (escaped : Bool) (rest : List Glyph) :=
      (labelWithin inTable escaped fuel rest).map fun (s, rest) => (c :: s, rest)
    if isLiteral escaped g.char then more g.char false rest
    else if g.char = '[' then none
    else if g.char = ']' then some ([], rest)
    else if Text.isMarkupBlank g.char then more ' ' false (dropSpace rest)
    else if g.char = '\\' then
      if inTable && rest.head?.map (·.char) = some '|' then more '|' false rest.tail
      else more '\\' true rest
    else more g.char false rest

/-- The longest label, in characters. -/
def labelLimit : Nat := 999

/-- Reads a label behind its opening bracket: what is left of it when letters of different case
and runs of blanks are made equal. It cannot be blank. -/
def label? (inTable : Bool) (gs : List Glyph) : Option (List Char × List Glyph) :=
  match labelWithin inTable false (labelLimit + 1) gs with
  | some (s, rest) =>
    match Text.trim (· = ' ') s with
    | [] => none
    | label => some (Text.foldCase label, rest)
  | none => none

/-! ## Destinations -/

/-- The rest of a destination in angle brackets, escapes unresolved. -/
def bracketedDestination? (escaped : Bool) : List Glyph → Option (List Char × List Glyph)
  | [] => none
  | g :: rest =>
    let more (escaped : Bool) :=
      (bracketedDestination? escaped rest).map fun (s, rest) => (g.char :: s, rest)
    if isLiteral escaped g.char then more false
    else if g.char = '\n' || g.char = '\r' || g.char = '<' then none
    else if g.char = '>' then some ([], rest)
    else more (g.char = '\\')

/-- A destination that ends at a blank, a control character, or a parenthesis that was not opened
in it, escapes unresolved. Parentheses may be open up to `limit` deep; `depth` of them are. -/
def plainDestination? (limit depth : Nat) (escaped : Bool) :
    List Glyph → Option (List Char × List Glyph)
  | [] => if depth = 0 then some ([], []) else none
  | g :: rest =>
    let more (depth : Nat) (escaped : Bool) :=
      (plainDestination? limit depth escaped rest).map fun (s, rest) => (g.char :: s, rest)
    if isLiteral escaped g.char then more depth false
    else if g.char.toNat ≤ 0x20 then if depth = 0 then some ([], g :: rest) else none
    else if g.char = '(' then if limit ≤ depth then none else more (depth + 1) false
    else if g.char = ')' then if depth = 0 then some ([], g :: rest) else more (depth - 1) false
    else more depth (g.char = '\\')

/-- Reads a destination, escapes unresolved. -/
def destination? (limit : Nat) : List Glyph → Option (List Char × List Glyph)
  | ⟨'<', _⟩ :: rest => bracketedDestination? false rest
  | gs => plainDestination? limit 0 false gs

/-! ## Titles -/

/-- The rest of a title up to its closing mark, escapes unresolved. A title in parentheses holds
no other opening one. The indentation of further lines is dropped. -/
def titleWithin (opening closing : Char) (escaped : Bool) :
    Nat → List Glyph → Option (List Char × List Glyph)
  | 0, _ => none
  | _, [] => none
  | fuel + 1, g :: rest =>
    let more (c : Char) (escaped : Bool) (rest : List Glyph) :=
      (titleWithin opening closing escaped fuel rest).map fun (s, rest) => (c :: s, rest)
    if isLiteral escaped g.char then more g.char false rest
    else if g.char = closing then some ([], rest)
    else if g.char = opening then none
    else
      match lineEnd? (g :: rest) with
      | some rest => more '\n' false (dropIndent rest)
      | none => more g.char (g.char = '\\') rest

/-- Reads a title in quotes or parentheses, escapes unresolved. -/
def title? : List Glyph → Option (List Char × List Glyph)
  | ⟨'"', _⟩ :: rest => titleWithin '"' '"' false rest.length rest
  | ⟨'\'', _⟩ :: rest => titleWithin '\'' '\'' false rest.length rest
  | ⟨'(', _⟩ :: rest => titleWithin '(' ')' false rest.length rest
  | _ => none

/-! ## Targets -/

/-- Where a link leads. -/
structure LinkTarget where
  destination : String
  title : String
deriving DecidableEq, Repr, Inhabited

/-- A target with the escapes of its parts resolved. -/
def LinkTarget.resolve (inTable : Bool) (destination title : List Char) : LinkTarget where
  destination := .ofList (unescape inTable destination)
  title := .ofList (unescape inTable title)

/-- The target in parentheses behind the text of a link. -/
def inlineTarget? (inTable : Bool) : List Glyph → Option (LinkTarget × List Glyph)
  | ⟨'(', _⟩ :: rest => do
    let (destination, rest) ← destination? 6 (dropSeparator rest)
    let rest := dropSeparator rest
    let (title, rest) := match title? rest with
      | some (title, rest) => (title, dropSeparator rest)
      | none => ([], rest)
    match rest with
    | ⟨')', _⟩ :: rest => some (.resolve inTable destination title, rest)
    | _ => none
  | _ => none

/-- A definition: the label, and the target it stands for. -/
abbrev Definition := List Char × LinkTarget

/-- Whether the line holds nothing more. -/
def isLineOver (gs : List Glyph) : Bool :=
  let gs := dropBlanks gs
  gs.isEmpty || (lineEnd? gs).isSome

/-- What follows blanks with at most one line end among them, and whether there was one; none
where the paragraph ends. -/
def definitionSpace? (gs : List Glyph) : Option (Bool × List Glyph) :=
  let gs := dropBlanks gs
  let (crossed, gs) := match lineEnd? gs with
    | some rest => (true, dropIndent rest)
    | none => (false, gs)
  if gs.isEmpty then none else some (crossed, gs)

/-- A link definition at the start of a paragraph, and what follows on its last line. A title on
a line of its own that cannot be read is no part of the definition; on the line of the
destination it makes the definition void. -/
def definition? : List Glyph → Option (Definition × List Glyph)
  | ⟨'[', _⟩ :: rest => do
    let (label, rest) ← label? false rest
    match rest with
    | ⟨':', _⟩ :: rest =>
      let (_, rest) ← definitionSpace? rest
      let (destination, behind) ← destination? 2 rest
      if behind.length = rest.length then none
      else
        let untitled := ((label, LinkTarget.resolve false destination []), behind)
        match definitionSpace? behind with
        | none => some untitled
        | some (crossed, rest) =>
          if rest.length = behind.length then none
          else
            match title? rest with
            | some (title, rest) =>
              if isLineOver rest then some ((label, .resolve false destination title), rest)
              else if crossed then some untitled else none
            | none => if crossed then some untitled else none
    | _ => none
  | _ => none

end CopyControl.Markdown
