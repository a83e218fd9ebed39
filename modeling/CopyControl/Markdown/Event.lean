/-!
Markdown as a stream of events.

A page is read into one flat list: containers open and close around text, code, markup and
breaks. Everything that is built from Markdown is built from such a list.
-/

namespace CopyControl.Markdown

inductive HeadingLevel where
  | h1 | h2 | h3 | h4 | h5 | h6
deriving DecidableEq, Repr, Inhabited

/-- A container that opens, with what is known about it then. -/
inductive Tag where
  | paragraph
  | heading (level : HeadingLevel)
  | blockQuote
  /-- A fenced block has an info string, maybe empty; an indented block has none. -/
  | codeBlock (info : Option String)
  /-- An ordered list has the number of its first item. -/
  | list (start : Option Nat)
  | item
  | emphasis
  | strong
  | strikethrough
  | link (destination title : String)
  | image (destination title : String)
  | table
  | tableHead
  | tableRow
  | tableCell
  | htmlBlock
  /-- A container for which there is no element of its own. -/
  | generic
deriving DecidableEq, Repr, Inhabited

/-- A container that closes. -/
inductive TagEnd where
  | paragraph | heading | blockQuote | codeBlock | list | item
  | emphasis | strong | strikethrough | link | image
  | table | tableHead | tableRow | tableCell | htmlBlock | generic
deriving DecidableEq, Repr, Inhabited

/-- The end that closes a container. -/
def Tag.toEnd : Tag → TagEnd
  | .paragraph => .paragraph
  | .heading _ => .heading
  | .blockQuote => .blockQuote
  | .codeBlock _ => .codeBlock
  | .list _ => .list
  | .item => .item
  | .emphasis => .emphasis
  | .strong => .strong
  | .strikethrough => .strikethrough
  | .link _ _ => .link
  | .image _ _ => .image
  | .table => .table
  | .tableHead => .tableHead
  | .tableRow => .tableRow
  | .tableCell => .tableCell
  | .htmlBlock => .htmlBlock
  | .generic => .generic

inductive Event where
  | start (tag : Tag)
  | stop (tag : TagEnd)
  | text (s : String)
  | code (s : String)
  /-- Markup of an HTML block, a line or a part of one. -/
  | html (markup : String)
  | inlineHtml (markup : String)
  | softBreak
  | hardBreak
  | rule
  | taskMarker (checked : Bool)
  /-- Something for which a page has no place. -/
  | unsupported
deriving DecidableEq, Repr, Inhabited

/-- A way to read the source of a page. -/
abbrev Reader := String → List Event

end CopyControl.Markdown
