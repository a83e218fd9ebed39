import CopyControl.Markdown.Inline
import CopyControl.Markdown.Outline

/-!
Reading Markdown: the events of a page.

The block structure of the whole page is read first, because a link may refer to a definition
that comes later; then the content of each leaf is read where its events are due.
-/

namespace CopyControl.Markdown

mutual

/-- Events of a piece of inline content. -/
def Inline.events : Inline → List Event
  | .text s => [.text (.ofList s)]
  | .code s => [.code (.ofList s)]
  | .markup s => [.inlineHtml (.ofList s)]
  | .softBreak => [.softBreak]
  | .hardBreak => [.hardBreak]
  | .emphasis content => .start .emphasis :: Inline.eventsOf content ++ [.stop .emphasis]
  | .strong content => .start .strong :: Inline.eventsOf content ++ [.stop .strong]
  | .strikethrough content =>
    .start .strikethrough :: Inline.eventsOf content ++ [.stop .strikethrough]
  | .link target content =>
    .start (.link target.destination target.title) :: Inline.eventsOf content ++ [.stop .link]
  | .image target content =>
    .start (.image target.destination target.title) :: Inline.eventsOf content ++ [.stop .image]

/-- Events of inline content. -/
def Inline.eventsOf : List Inline → List Event
  | [] => []
  | i :: is => i.events ++ Inline.eventsOf is

end

/-- Events of the content of a leaf. -/
def contentEvents (definitions : List Definition) (inTable : Bool) (content : List Glyph) :
    List Event :=
  Inline.eventsOf (readInline ⟨definitions, inTable⟩ content)

/-- Events between the start and the end of a container. -/
def enclose (tag : Tag) (events : List Event) : List Event :=
  .start tag :: events ++ [.stop tag.toEnd]

/-- The check box of an item. -/
def taskEvents (box : Option Bool) : List Event :=
  (box.map Event.taskMarker).toList

def HtmlPiece.event : HtmlPiece → Event
  | .indent s => .text s
  | .markup s => .html s

def cellEvents (definitions : List Definition) (cell : List Glyph) : List Event :=
  enclose .tableCell (contentEvents definitions true cell)

def rowEvents (definitions : List Definition) (tag : Tag) (row : List (List Glyph)) :
    List Event :=
  enclose tag (row.flatMap (cellEvents definitions))

mutual

/-- Events of a block; `tight` tells that it is directly in an item of a tight list. -/
def Block.events (definitions : List Definition) (tight : Bool) : Block → List Event
  | .paragraph box content =>
    let events := taskEvents box ++ contentEvents definitions false content
    if tight then events else enclose .paragraph events
  | .heading level box content =>
    enclose (.heading level) (taskEvents box ++ contentEvents definitions false content)
  | .code info pieces => enclose (.codeBlock info) (pieces.map .text)
  | .html pieces => enclose .htmlBlock (pieces.map HtmlPiece.event)
  | .rule => [.rule]
  | .quote blocks => enclose .blockQuote (Block.eventsOf definitions false blocks)
  | .list start tight items => enclose (.list start) (Block.eventsOf definitions tight items)
  | .item blocks => enclose .item (Block.eventsOf definitions tight blocks)
  | .table head rows =>
    enclose .table (rowEvents definitions .tableHead head ++
      rows.flatMap (rowEvents definitions .tableRow))
  | .task checked => [.taskMarker checked]

/-- Events of blocks, one after the other. -/
def Block.eventsOf (definitions : List Definition) (tight : Bool) : List Block → List Event
  | [] => []
  | b :: bs => b.events definitions tight ++ Block.eventsOf definitions tight bs

end

/-- Reads a page. -/
def read (text : String) : List Event :=
  let (blocks, definitions) := outline text.toList
  Block.eventsOf definitions false blocks

end CopyControl.Markdown
