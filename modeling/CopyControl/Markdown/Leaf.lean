import CopyControl.Markdown.Angle
import CopyControl.Markdown.Container

/-!
Blocks that hold no other blocks, read from their first line on.

Each reader is given the containers the block is in, outermost first, and the lines behind the
first one; it answers the block and the lines left.
-/

namespace CopyControl.Markdown

/-! ## What ends a paragraph -/

/-- Whether a list item that begins here ends the paragraph in front of it. Inside all the
containers of the paragraph only a bullet or the number one does, and only with content. -/
def interruptsAsItem (complete inTable : Bool) (s : List Char) : Bool :=
  match bareMarker? s with
  | none => false
  | some m =>
    let rest := s.drop m.indent
    (rest.head?.map fun c => c = ' ' || c = '\t').getD true &&
      (!complete || inTable || (isBullet m.sign || m.number = 1) && !isBlankRest rest)

/-- Whether a line ends the paragraph or the table in front of it, from where its indentation of
less than four columns ends. -/
def interrupts (complete inTable : Bool) (s : List Char) : Bool :=
  s.isEmpty || isThematicBreak s || (headingMark? s).isSome || (fence? s).isSome ||
    s.head? = some '>' || interruptsAsItem complete inTable s || (interruptingHtml? s).isSome

/-- Whether a line ends with a backslash that is not itself escaped. -/
def endsInBackslash (s : List Char) : Bool :=
  (s.reverse.takeWhile (· = '\\')).length % 2 = 1

/-- The number of columns of the table that a line begins as its head, together with the line
below it. -/
def tableColumns? (containers : List Container) (s : List Char) : List Line → Option Nat
  | [] => none
  | next :: _ =>
    let f := next.footing containers
    if f.complete && !endsInBackslash s && (headColumns? s).isSome &&
        headColumns? s = delimiterColumns? f.cursor.rest then
      headColumns? s
    else none

/-- The content that a line adds to the paragraph in front of it, unless it ends the paragraph. -/
def continuation? (containers : List Container) (l : Line) (rest : List Line) :
    Option (List Glyph) :=
  let f := l.footing containers
  let (missing, c) := f.cursor.columns 4
  if missing ≠ 0 && (interrupts f.complete false c.rest ||
      f.complete && (tableColumns? containers c.rest rest).isSome) then none
  else if f.cursor.skipBlanks.isAtEnd then none
  else some (Glyph.marginOf (l.before f.cursor) ++ Glyph.ofChars f.cursor.rest)

/-- The level of the heading that a line makes of the paragraph in front of it. -/
def underline? (containers : List Container) (l : Line) : Option HeadingLevel :=
  let f := l.footing containers
  let (missing, c) := f.cursor.columns 4
  if f.complete && missing ≠ 0 then underlineLevel? c.rest else none

/-! ## Paragraphs -/

/-- The content of a paragraph behind its first line, the level of the heading that it turns out
to be, and the lines left. `ending` ends the line in front. -/
def paragraphRest (containers : List Container) (ending : List Char) :
    List Line → List Glyph × Option HeadingLevel × List Line
  | [] => ([], none, [])
  | l :: rest =>
    match underline? containers l with
    | some level => ([], some level, rest)
    | none =>
      match continuation? containers l rest with
      | none => ([], none, l :: rest)
      | some content =>
        let (more, level, left) := paragraphRest containers l.ending rest
        (Glyph.ofChars ending ++ content ++ more, level, left)

/-- Reads a paragraph, or the heading that it turns out to be. -/
def readParagraph (containers : List Container) (task : Option Bool) (first : Line)
    (rest : List Line) : Block × List Line :=
  let (more, level, left) := paragraphRest containers first.ending rest
  let content := Glyph.ofChars first.text ++ more
  match level with
  | some level => (.heading level task content, left)
  | none => (.paragraph task content, left)

/-- The content that a paragraph would have behind its first line, if none of its lines made it a
heading. -/
def definitionRest (containers : List Container) (ending : List Char) : List Line → List Glyph
  | [] => []
  | l :: rest =>
    match continuation? containers l rest with
    | none => []
    | some content =>
      Glyph.ofChars ending ++ content ++ definitionRest containers l.ending rest

/-- How many line ends there are. -/
def countLineEnds : Nat → List Glyph → Nat
  | 0, _ => 0
  | _, [] => 0
  | fuel + 1, g :: rest =>
    match lineEnd? (g :: rest) with
    | some rest => countLineEnds fuel rest + 1
    | none => countLineEnds fuel rest

/-- Reads a link definition, which takes whole lines. -/
def readDefinition? (containers : List Container) (first : Line) (rest : List Line) :
    Option (Definition × List Line) :=
  let content := Glyph.ofChars first.text ++ definitionRest containers first.ending rest
  (definition? content).map fun (definition, left) =>
    let used := content.take (content.length - left.length)
    (definition, rest.drop (countLineEnds used.length used))

/-! ## Tables -/

/-- Cells to a row of exactly `n`: further ones are dropped and missing ones are empty. -/
def fitRow (n : Nat) (cells : List (List Glyph)) : List (List Glyph) :=
  cells.take n ++ List.replicate (n - cells.length) []

/-- The cells of a line. -/
def readRow (columns : Nat) (s : List Char) : List (List Glyph) :=
  fitRow columns ((rowCells (splitCells true s)).map fun cell =>
    Glyph.ofChars (cell.dropWhile Text.isLineBlank))

/-- The rows of a table below the head. A row has any indentation. -/
def readRows (containers : List Container) (columns : Nat) :
    List Line → List (List (List Glyph)) × List Line
  | [] => ([], [])
  | l :: rest =>
    let f := l.footing containers
    let s := f.cursor.skipBlanks.rest
    if f.complete && !interrupts true true s then
      let (rows, left) := readRows containers columns rest
      (readRow columns s :: rows, left)
    else ([], l :: rest)

/-- Reads a table whose head has the given number of columns. The line below the head only tells
that there is a table. -/
def readTable (containers : List Container) (columns : Nat) (first : Line) (rest : List Line) :
    Block × List Line :=
  let (rows, left) := readRows containers columns rest.tail
  (.table (readRow columns first.text) rows, left)

/-! ## Verbatim lines -/

/-- A line of a verbatim block, inside its containers and indentation. -/
structure VerbatimLine where
  /-- Columns that a tab in the indentation reaches into the line. -/
  indent : Nat
  /-- Whether nothing stands between the line and the one in front of it. -/
  joined : Bool
  line : Line
deriving Repr, Inhabited

/-- The verbatim line at a cursor, and the lines left. -/
def verbatimLine (l : Line) (c : Cursor) (rest : List Line) : VerbatimLine × List Line :=
  let (line, left) := joinCarriage { l with text := c.rest } rest
  (⟨c.pending, c.rest.length = l.text.length, line⟩, left)

/-- Adds text to the last piece, or as a piece of its own. Pieces are kept latest first. -/
def addPiece (joined : Bool) (s : List Char) : List (List Char) → List (List Char)
  | pieces =>
    if s.isEmpty then pieces
    else match joined, pieces with
      | true, last :: pieces => (last ++ s) :: pieces
      | _, _ => s :: pieces

/-- Adds a line of code. A carriage return in front of the line feed is left out, which divides
the text there. -/
def addCodeLine (pieces : List (List Char)) (v : VerbatimLine) : List (List Char) :=
  let pieces := addPiece false (List.replicate v.indent ' ') pieces
  let joined := v.joined && v.indent = 0
  if v.line.ending = ['\r', '\n'] then
    addPiece false ['\n'] (addPiece joined v.line.text pieces)
  else addPiece joined (v.line.text ++ v.line.ending) pieces

/-- The text of code lines, in pieces that no skipped character divides. -/
def codePieces (lines : List VerbatimLine) : List String :=
  ((lines.foldl addCodeLine []).reverse).map .ofList

/-! ## Indented code -/

/-- The lines behind the first that are indented by four columns, or blank. -/
def indentedLines (containers : List Container) :
    Nat → List Line → List VerbatimLine × List Line
  | 0, lines => ([], lines)
  | _, [] => ([], [])
  | fuel + 1, l :: rest =>
    let f := l.footing containers
    let (missing, c) := f.cursor.columns 4
    if f.complete && (missing = 0 || c.isAtEnd) then
      let (line, left) := verbatimLine l c rest
      let (lines, left) := indentedLines containers fuel left
      (line :: lines, left)
    else ([], l :: rest)

def VerbatimLine.isBlank (v : VerbatimLine) : Bool :=
  isBlankRest v.line.text

/-- Reads indented code from where the indentation ends. Blank lines at its end are no part of
it; answers also whether there were any. -/
def readIndentedCode (containers : List Container) (l : Line) (c : Cursor) (rest : List Line) :
    Block × Bool × List Line :=
  let (first, left) := verbatimLine l c rest
  let (lines, left) := indentedLines containers (left.length + 1) left
  let all := first :: lines
  let kept := (all.reverse.dropWhile (·.isBlank)).reverse
  (.code none (codePieces kept), kept.length < all.length, left)

/-! ## Fenced code -/

/-- The lines up to the closing fence, or to the end of a container. -/
def fencedLines (containers : List Container) (fence : Fence) (indent : Nat) :
    Nat → List Line → List VerbatimLine × List Line
  | 0, lines => ([], lines)
  | _, [] => ([], [])
  | fuel + 1, l :: rest =>
    let f := l.footing containers
    if !f.complete then ([], l :: rest)
    else
      let (_, c) := f.cursor.columns indent
      let (missing, closing) := c.columns (4 - indent)
      if missing ≠ 0 && fence.isClosedBy closing.rest then ([], rest)
      else
        let (line, left) := verbatimLine l c rest
        let (lines, left) := fencedLines containers fence indent fuel left
        (line :: lines, left)

/-- Reads fenced code. Its lines are indented by no more than the fence is. -/
def readFencedCode (containers : List Container) (fence : Fence) (indent : Nat)
    (rest : List Line) : Block × List Line :=
  let (lines, left) := fencedLines containers fence indent (rest.length + 1) rest
  let info := unescape false (Text.trim Text.isMarkupBlank fence.info)
  (.code (some (.ofList info)) (codePieces lines), left)

/-! ## HTML -/

/-- The pieces of a line of markup. -/
def htmlPieces (indent : Nat) (l : Line) : List HtmlPiece :=
  (if indent = 0 then [] else [.indent (.ofList (List.replicate indent ' '))]) ++
    if l.ending = ['\r', '\n'] then [.markup (.ofList l.text), .markup "\n"]
    else [.markup (.ofList (l.text ++ l.ending))]

/-- Whether a text holds another. -/
def holds (s : List Char) : List Char → Bool
  | [] => s.isEmpty
  | c :: rest => s.isPrefixOf (c :: rest) || holds s rest

/-- Whether an HTML block ends in front of a line, when it has come to the line `last`. -/
def HtmlEnd.isReached (e : HtmlEnd) (last : Line) (f : Footing) : Bool :=
  !f.complete ||
    match e with
    | .behind s => holds s last.text
    | .blankLine => f.cursor.isBlank

/-- The pieces of an HTML block from the line `last` on, which is indented by `indent`. -/
def htmlLines (containers : List Container) (e : HtmlEnd) :
    Nat → Nat → Line → List Line → List HtmlPiece × List Line
  | 0, indent, last, rest => (htmlPieces indent last, rest)
  | _, indent, last, [] => (htmlPieces indent last, [])
  | fuel + 1, indent, last, l :: rest =>
    let f := l.footing containers
    if e.isReached last f then (htmlPieces indent last, l :: rest)
    else
      let (next, left) := joinCarriage { l with text := f.cursor.rest } rest
      let (pieces, left) := htmlLines containers e fuel f.cursor.pending next left
      (htmlPieces indent last ++ pieces, left)

/-- Reads an HTML block. -/
def readHtml (containers : List Container) (e : HtmlEnd) (indent : Nat) (first : Line)
    (rest : List Line) : Block × List Line :=
  let (first, rest) := joinCarriage first rest
  let (pieces, left) := htmlLines containers e (rest.length + 1) indent first rest
  (.html pieces, left)

end CopyControl.Markdown
