import CopyControl.Markdown.Event

/-!
The block structure of a page, with the inline content of each leaf still unread.
-/

namespace CopyControl.Markdown

/-- A character of inline content. The characters by which a line repeats the containers it is in
are kept as margin: they are part of verbatim markup that runs over several lines, and of nothing
else. -/
structure Glyph where
  char : Char
  margin : Bool
deriving DecidableEq, Repr, Inhabited

namespace Glyph

def ofChars (s : List Char) : List Glyph :=
  s.map fun c => ⟨c, false⟩

def marginOf (s : List Char) : List Glyph :=
  s.map fun c => ⟨c, true⟩

/-- All characters, those of the margin too. -/
def chars (gs : List Glyph) : List Char :=
  gs.map (·.char)

/-- The characters that are not margin. -/
def visible (gs : List Glyph) : List Char :=
  chars (gs.filter (!·.margin))

end Glyph

/-- A piece of an HTML block: the columns in front of its first line, or markup. -/
inductive HtmlPiece where
  | indent (s : String)
  | markup (s : String)
deriving DecidableEq, Repr, Inhabited

inductive Block where
  /-- A paragraph; the first one of a list item can carry the item's check box. -/
  | paragraph (task : Option Bool) (content : List Glyph)
  | heading (level : HeadingLevel) (task : Option Bool) (content : List Glyph)
  | code (info : Option String) (pieces : List String)
  | html (pieces : List HtmlPiece)
  | rule
  | quote (blocks : List Block)
  /-- An ordered list has the number of its first item. Paragraphs directly in the items of a
  tight list are not marked as such. -/
  | list (start : Option Nat) (tight : Bool) (items : List Block)
  | item (blocks : List Block)
  | table (head : List (List Glyph)) (rows : List (List (List Glyph)))
  /-- A check box in an item whose first line holds nothing else. -/
  | task (checked : Bool)
deriving Repr, Inhabited

end CopyControl.Markdown
