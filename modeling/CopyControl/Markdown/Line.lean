import CopyControl.Text.Blank

/-!
Lines of Markdown, and a cursor that reads the start of one.

Blocks are told apart by how their lines begin, counted in columns: a tab reaches to the next
multiple of four. A tab can be used in part, so the cursor remembers the columns of a tab that
are still to be read.
-/

namespace CopyControl.Markdown

/-- A line and the characters that end it; a line that the text breaks off has none. -/
structure Line where
  text : List Char
  ending : List Char
deriving DecidableEq, Repr, Inhabited

/-- Puts a character in front of the first line. -/
def consChar (c : Char) : List Line → List Line
  | [] => [⟨[c], []⟩]
  | l :: ls => { l with text := c :: l.text } :: ls

/-- Splits a text behind each line feed, carriage return, or the two together. -/
def splitLines : List Char → List Line
  | [] => []
  | '\r' :: '\n' :: rest => ⟨[], ['\r', '\n']⟩ :: splitLines rest
  | '\r' :: rest => ⟨[], ['\r']⟩ :: splitLines rest
  | '\n' :: rest => ⟨[], ['\n']⟩ :: splitLines rest
  | c :: rest => consChar c (splitLines rest)

/-- Whether nothing but blanks follows. -/
def isBlankRest (s : List Char) : Bool :=
  s.all Text.isLineBlank

/-! ## Reading the start of a line -/

/-- Where in a line reading stands. -/
structure Cursor where
  rest : List Char
  /-- Characters read since the start of the line or the last tab. -/
  sinceTab : Nat
  /-- Columns left of the last tab. -/
  pending : Nat
deriving DecidableEq, Repr, Inhabited

namespace Cursor

def atStart (text : List Char) : Cursor where
  rest := text
  sinceTab := 0
  pending := 0

def isAtEnd (c : Cursor) : Bool :=
  c.rest.isEmpty

def isBlank (c : Cursor) : Bool :=
  isBlankRest c.rest

/-- Reads blanks up to `n` columns; answers how many columns were missing. -/
def readColumns : List Char → Nat → Nat → Nat → Nat × Cursor
  | rest, sinceTab, pending, 0 => (0, ⟨rest, sinceTab, pending⟩)
  | ' ' :: rest, sinceTab, pending, n + 1 => readColumns rest (sinceTab + 1) pending n
  | '\t' :: rest, sinceTab, _, n + 1 =>
    let width := 4 - sinceTab % 4
    let used := min width (n + 1)
    readColumns rest 0 (width - used) (n + 1 - used)
  | rest, sinceTab, pending, n + 1 => (n + 1, ⟨rest, sinceTab, pending⟩)

/-- Reads up to `n` columns of blanks, those of a pending tab first; answers how many were
missing. -/
def columns (c : Cursor) (n : Nat) : Nat × Cursor :=
  let used := min c.pending n
  readColumns c.rest c.sinceTab (c.pending - used) (n - used)

/-- Reads up to `n` columns of blanks; answers how many there were. -/
def columnsUpTo (c : Cursor) (n : Nat) : Nat × Cursor :=
  let (missing, c) := c.columns n
  (n - missing, c)

/-- Reads a given character. -/
def char? (c : Cursor) (x : Char) : Option Cursor :=
  match c.rest with
  | y :: rest => if y = x then some { c with rest := rest, sinceTab := c.sinceTab + 1 } else none
  | [] => none

/-- Reads `n` characters, whatever they are. -/
def advance (c : Cursor) (n : Nat) : Cursor :=
  { c with rest := c.rest.drop n, sinceTab := c.sinceTab + n }

/-- Reads all spaces and tabs. -/
def skipBlanks (c : Cursor) : Cursor :=
  { c with rest := c.rest.dropWhile fun x => x = ' ' || x = '\t', pending := 0 }

end Cursor

/-! ## Lines of verbatim blocks -/

/-- A line as verbatim blocks see it: only a line feed ends one. Takes the first line and those
that continue it behind a lone carriage return; answers the joined line and the lines left. -/
def joinCarriage (first : Line) : List Line → Line × List Line
  | [] => (if first.ending = ['\r'] then ⟨first.text ++ ['\r'], []⟩ else first, [])
  | next :: rest =>
    if first.ending = ['\r'] then
      let (joined, left) := joinCarriage next rest
      (⟨first.text ++ '\r' :: joined.text, joined.ending⟩, left)
    else (first, next :: rest)

end CopyControl.Markdown
