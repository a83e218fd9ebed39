import CopyControl.Markdown.Event
import CopyControl.Markdown.Line
import CopyControl.Text.Punctuation
import CopyControl.Text.Digit

/-!
The marks by which a block is known from how its first line begins.

Every function here looks at one line, from where the indentation ends, without its line end.
-/

namespace CopyControl.Markdown

/-! ## Breaks and headings -/

/-- Three or more stars, hyphens or underscores of one kind, with blanks anywhere between. -/
def isThematicBreak (s : List Char) : Bool :=
  match s with
  | [] => false
  | c :: _ =>
    (c = '*' || c = '-' || c = '_') && s.all (fun x => x = c || x = ' ' || x = '\t') &&
      3 ≤ s.count c

def HeadingLevel.ofNat? : Nat → Option HeadingLevel
  | 1 => some .h1
  | 2 => some .h2
  | 3 => some .h3
  | 4 => some .h4
  | 5 => some .h5
  | 6 => some .h6
  | _ => none

/-- One to six number signs in front of a blank or the end of the line: the level, and what
follows the signs. -/
def headingMark? (s : List Char) : Option (HeadingLevel × List Char) :=
  let rest := s.dropWhile (· = '#')
  if (rest.head?.map Text.isMarkupBlank).getD true then
    (HeadingLevel.ofNat? (s.length - rest.length)).map (·, rest)
  else none

/-- The content of a heading line: without trailing blanks, and without a closing run of number
signs that stands alone or behind a space. -/
def headingContent (s : List Char) : List Char :=
  let trimmed := Text.trimEnd (fun c => c = ' ' || c = '\n' || c = '\r') s
  let front := Text.trimEnd (· = '#') trimmed
  if front.isEmpty then []
  else if front.getLast? = some ' ' then Text.trimEnd (· = ' ') front
  else trimmed

/-- A line that turns the paragraph above it into a heading. -/
def underlineLevel? : List Char → Option HeadingLevel
  | c :: s =>
    if (c = '=' || c = '-') && isBlankRest (s.dropWhile (· = c)) then
      some (if c = '=' then .h1 else .h2)
    else none
  | [] => none

/-! ## Code fences -/

/-- A code fence: the character, how often it stands, and what follows. -/
structure Fence where
  mark : Char
  length : Nat
  info : List Char
deriving DecidableEq, Repr, Inhabited

/-- Three or more backticks or tildes; a backtick later in the line of a backtick fence makes it
none. -/
def fence? (s : List Char) : Option Fence :=
  match s with
  | c :: _ =>
    let info := s.dropWhile (· = c)
    let length := s.length - info.length
    if (c = Char.ofNat 96 && !info.contains c || c = '~') && 3 ≤ length then
      some ⟨c, length, info⟩
    else none
  | [] => none

/-- A closing fence is at least as long as the opening one, and only spaces follow. -/
def Fence.isClosedBy (f : Fence) (s : List Char) : Bool :=
  let rest := s.dropWhile (· = f.mark)
  f.length ≤ s.length - rest.length && rest.all (· = ' ')

/-! ## List items -/

/-- A list marker: the bullet, or the sign behind the number; the number; and the columns by
which further lines of the item are indented. -/
structure ListMarker where
  sign : Char
  number : Nat
  indent : Nat
deriving DecidableEq, Repr, Inhabited

def isBullet (c : Char) : Bool :=
  c = '-' || c = '+' || c = '*'

/-- The bare marker in front of a text: the marker with its own width as indent. -/
def bareMarker? (s : List Char) : Option ListMarker :=
  match s with
  | c :: _ =>
    if isBullet c then
      if isThematicBreak s then none else some ⟨c, 0, 1⟩
    else
      let digits := s.takeWhile Char.isDigit
      match s.drop digits.length with
      | sign :: _ =>
        if (sign = '.' || sign = ')') && !digits.isEmpty && digits.length ≤ 9 then
          some ⟨sign, Text.number 10 digits, digits.length + 1⟩
        else none
      | [] => none
  | [] => none

/-- A list marker with at least one column of blanks, or the end of the line, behind it. The item
is indented to where its content starts; content that starts more than four columns further on
is code, and the item is then indented by one column more than its marker. -/
def listMarker? (c : Cursor) (outer : Nat) : Option (ListMarker × Cursor) :=
  match bareMarker? c.rest with
  | none => none
  | some m =>
    let (missing, c) := (c.advance m.indent).columns 1
    let m := { m with indent := outer + m.indent + 1 }
    if missing = 0 || c.isAtEnd then
      if c.isBlank then some (m, c)
      else
        let (more, inner) := c.columnsUpTo 4
        if more < 4 then some ({ m with indent := m.indent + more }, inner) else some (m, c)
    else none

/-- A check box behind a list marker. -/
def taskMark? (c : Cursor) : Option (Bool × Cursor) :=
  let (_, c) := c.columnsUpTo 3
  match c.rest with
  | '[' :: x :: ']' :: rest =>
    if (rest.head?.map Text.isMarkupBlank).getD true then
      if Text.isLineBlank x then some (false, c.advance 3)
      else if x = 'x' || x = 'X' then some (true, c.advance 3)
      else none
    else none
  | _ => none

/-! ## HTML blocks -/

/-- How an HTML block ends: with the line that holds a text, or in front of a blank line. -/
inductive HtmlEnd where
  | behind (s : List Char)
  | blankLine
deriving DecidableEq, Repr, Inhabited

/-- Elements whose content is kept as it is up to their end tag. -/
def verbatimElements : List String :=
  ["pre", "style", "script", "textarea"]

/-- Elements that start an HTML block wherever a line begins with one of their tags. -/
def blockElements : List String := [
  "address", "article", "aside", "base", "basefont", "blockquote", "body", "caption", "center",
  "col", "colgroup", "dd", "details", "dialog", "dir", "div", "dl", "dt", "fieldset",
  "figcaption", "figure", "footer", "form", "frame", "frameset", "h1", "h2", "h3", "h4", "h5",
  "h6", "head", "header", "hr", "html", "iframe", "legend", "li", "link", "main", "menu",
  "menuitem", "nav", "noframes", "ol", "optgroup", "option", "p", "param", "search", "section",
  "summary", "table", "tbody", "td", "tfoot", "th", "thead", "title", "tr", "track", "ul"]

/-- The rest of a text behind a name, letters of either case. -/
def afterName? (name s : List Char) : Option (List Char) :=
  if (s.take name.length).map Char.toLower = name then some (s.drop name.length) else none

/-- What ends an HTML block that runs to a given text. -/
def verbatimEnd? (s : List Char) : Option (List Char) :=
  let element := verbatimElements.find? fun name =>
    match afterName? name.toList s with
    | some rest => (rest.head?.map fun c => Text.isMarkupBlank c || c = '>').getD true
    | none => false
  match element, s with
  | some name, _ => some ('<' :: '/' :: name.toList ++ ['>'])
  | none, '!' :: '-' :: '-' :: _ => some ['-', '-', '>']
  | none, '?' :: _ => some ['?', '>']
  | none, '!' :: '[' :: 'C' :: 'D' :: 'A' :: 'T' :: 'A' :: '[' :: _ => some [']', ']', '>']
  | none, '!' :: c :: _ => if c.isAlpha then some ['>'] else none
  | _, _ => none

/-- Whether a start or end tag of a block element begins here. -/
def startsBlockElement (s : List Char) : Bool :=
  let s := match s with
    | '/' :: rest => rest
    | _ => s
  let name := s.takeWhile Char.isAlphanum
  blockElements.contains (String.ofList (name.map Char.toLower)) &&
    match s.drop name.length with
    | [] => true
    | '/' :: '>' :: _ => true
    | c :: _ => c = ' ' || c = '\t' || c = '\r' || c = '\n' || c = '>'

/-- The HTML block that can interrupt a paragraph, if the line starts one. -/
def interruptingHtml? : List Char → Option HtmlEnd
  | '<' :: s =>
    match verbatimEnd? s with
    | some text => some (.behind text)
    | none => if startsBlockElement s then some .blankLine else none
  | _ => none

/-! ## Tables -/

/-- The parts of a line between pipes. A pipe behind a backslash does not count; with `doubled`,
neither does one behind two. -/
def splitCells (doubled : Bool) : List Char → List (List Char)
  | [] => [[]]
  | '|' :: rest => [] :: splitCells doubled rest
  | '\\' :: '\\' :: '|' :: rest =>
    if doubled then
      match splitCells doubled rest with
      | cell :: cells => ('\\' :: '\\' :: '|' :: cell) :: cells
      | [] => []
    else ['\\', '\\'] :: splitCells doubled rest
  | '\\' :: c :: rest =>
    if Text.isAsciiPunctuation c then
      match splitCells doubled rest with
      | cell :: cells => ('\\' :: c :: cell) :: cells
      | [] => []
    else
      match splitCells doubled (c :: rest) with
      | cell :: cells => ('\\' :: cell) :: cells
      | [] => []
  | c :: rest =>
    match splitCells doubled rest with
    | cell :: cells => (c :: cell) :: cells
    | [] => []

/-- The cells of a row: the parts between pipes, but for a blank part in front of the first pipe
and one behind the last. -/
def rowCells (parts : List (List Char)) : List (List Char) :=
  let parts := match parts with
    | first :: rest => if isBlankRest first && !rest.isEmpty then rest else parts
    | [] => parts
  match parts.getLast? with
  | some last => if isBlankRest last then parts.dropLast else parts
  | none => parts

/-- How many columns a line has as the head of a table; none without a pipe. -/
def headColumns? (s : List Char) : Option Nat :=
  let parts := splitCells false s
  if parts.length ≤ 1 then none else some (rowCells parts).length

/-- The parts of a text between pipes. -/
def splitPipes : List Char → List (List Char)
  | [] => [[]]
  | '|' :: rest => [] :: splitPipes rest
  | c :: rest =>
    match splitPipes rest with
    | cell :: cells => (c :: cell) :: cells
    | [] => [[c]]

/-- How many columns a line has as the row below the head of a table: hyphens, colons and spaces
between pipes, a hyphen in each part that a pipe closes. -/
def delimiterColumns? (s : List Char) : Option Nat :=
  let inner := s.dropWhile (· = ' ')
  if 3 < s.length - inner.length || inner.isEmpty then none
  else
    let parts := splitPipes (match inner with
      | '|' :: rest => rest
      | _ => inner)
    let last := parts.getLast?.getD []
    if inner.all (fun c => c = ' ' || c = ':' || c = '-' || c = '|') && inner.contains '|' &&
        inner.contains '-' && parts.dropLast.all (·.contains '-') then
      some (parts.length - if last.all (· = ' ') then 1 else 0)
    else none

end CopyControl.Markdown
