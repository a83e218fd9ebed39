import CopyControl.Markdown.Block
import CopyControl.Markdown.Marker

/-!
The containers that are open while a page is read, and how a further line shows that it is still
inside them.
-/

namespace CopyControl.Markdown

inductive Container where
  | quote
  /-- A list: the sign of its markers, and the number of its first item. -/
  | list (sign : Char) (number : Nat) (tight : Bool)
  /-- An item: the columns by which its lines are indented. -/
  | item (indent : Nat)
deriving DecidableEq, Repr, Inhabited

namespace Container

def isList : Container → Bool
  | .list _ _ _ => true
  | _ => false

def isItem : Container → Bool
  | .item _ => true
  | _ => false

/-- The list with its paragraphs set apart. -/
def loosen : Container → Container
  | .list sign number _ => .list sign number false
  | c => c

/-- Reads what a line has to begin with to be inside a container: the mark of a quote, or the
indentation of an item unless the line ends before it. -/
def continue? : Container → Cursor → Option Cursor
  | .quote, c => ((c.columns 3).2.char? '>').map fun c => (c.columns 1).2
  | .list _ _ _, c => some c
  | .item indent, c =>
    let (missing, c) := c.columns indent
    if missing = 0 || c.isAtEnd then some c else none

/-- The block that a container with the given content makes. -/
def toBlock (content : List Block) : Container → Block
  | .quote => .quote content
  | .list sign number tight => .list (if isBullet sign then none else some number) tight content
  | .item _ => .item content

end Container

/-- How far a line shows that it is inside the open containers. -/
structure Footing where
  matched : Nat
  /-- Whether every container was matched. -/
  complete : Bool
  cursor : Cursor
deriving Repr, Inhabited

/-- Matches a line against containers, outermost first, up to the first that it is not in. -/
def footing : List Container → Cursor → Footing
  | [], c => ⟨0, true, c⟩
  | container :: inner, c =>
    match container.continue? c with
    | some c =>
      let f := footing inner c
      { f with matched := f.matched + 1 }
    | none => ⟨0, false, c⟩

/-- Matches a line from its start. -/
def Line.footing (l : Line) (containers : List Container) : Footing :=
  Markdown.footing containers (.atStart l.text)

/-- The part of a line in front of a cursor. -/
def Line.before (l : Line) (c : Cursor) : List Char :=
  l.text.take (l.text.length - c.rest.length)

end CopyControl.Markdown
