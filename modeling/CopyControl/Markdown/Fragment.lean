import CopyControl.Document.Text
import CopyControl.Markdown.Event
import CopyControl.Text.Blank

/-!
Building document nodes from Markdown events.

The builder keeps the elements that are open, innermost first. A container opens one element,
two, or none, and its end closes as many as it opened; a node made meanwhile goes below the
innermost open element, or to the top level. Text directly inside an image makes no node: it is
added to the image's `alt`.
-/

namespace CopyControl.Markdown

open CopyControl.Document

def HeadingLevel.elementName : HeadingLevel → String
  | .h1 => "h1"
  | .h2 => "h2"
  | .h3 => "h3"
  | .h4 => "h4"
  | .h5 => "h5"
  | .h6 => "h6"

/-- What the builder knows between two events. -/
structure Builder where
  /-- Open elements, innermost first. -/
  stack : List NodeId
  /-- How many elements each open container has opened, innermost first. -/
  opened : List Nat
  /-- Nodes of the top level, latest first. -/
  topLevel : List NodeId
  inTableHead : Bool
deriving Repr, Inhabited

/-- A builder at the start of a fragment. -/
def Builder.start : Builder where
  stack := []
  opened := []
  topLevel := []
  inTableHead := false

/-- The first word of an info string. -/
def firstWord? (info : String) : Option String :=
  match (info.toList.dropWhile Text.isWhiteSpace).takeWhile (!Text.isWhiteSpace ·) with
  | [] => none
  | cs => some (.ofList cs)

/-- The class that names the language of a code block. -/
def languageClass? (info : Option String) : Option String :=
  (info.bind firstWord?).map ("language-" ++ ·)

namespace Builder

/-- Puts a node below the innermost open element, or at the top level. -/
def place (b : Builder) (node : NodeId) : Edit Builder :=
  match b.stack with
  | parent :: _ => do
    appendChild parent node
    return b
  | [] => return { b with topLevel := node :: b.topLevel }

/-- Places an element and leaves it open. -/
def push (b : Builder) (element : NodeId) : Edit Builder := do
  let b ← b.place element
  return { b with stack := element :: b.stack }

/-- Opens a new element. -/
def openElement (b : Builder) (tag : String) : Edit Builder := do
  b.push (← createElement tag)

/-- The image whose text is being read. -/
def currentImage? (b : Builder) (d : Document) : Option NodeId :=
  b.stack.head?.filter fun id => d.tag? id = some "img"

/-- Gives an element a `title` attribute unless the title is empty. -/
def setTitle (element : NodeId) (title : String) : Edit Unit :=
  if title.isEmpty then pure () else setAttribute element "title" title

/-- Opens the elements of a container; answers how many. -/
def openTag (b : Builder) (tag : Tag) : Edit (Builder × Nat) := do
  let single (name : String) : Edit (Builder × Nat) := do return (← b.openElement name, 1)
  match tag with
  | .paragraph => single "p"
  | .heading level => single level.elementName
  | .blockQuote => single "blockquote"
  | .codeBlock info =>
    let b ← b.openElement "pre"
    let code ← createElement "code"
    match languageClass? info with
    | some c => addClass code c
    | none => pure ()
    return (← b.push code, 2)
  | .list (some start) =>
    let list ← createElement "ol"
    if start ≠ 1 then setAttribute list "start" (toString start)
    return (← b.push list, 1)
  | .list none => single "ul"
  | .item => single "li"
  | .emphasis => single "em"
  | .strong => single "strong"
  | .strikethrough => single "del"
  | .link destination title =>
    let link ← createElement "a"
    setAttribute link "href" destination
    setTitle link title
    return (← b.push link, 1)
  | .image destination title =>
    let image ← createElement "img"
    setAttribute image "src" destination
    setAttribute image "alt" ""
    setTitle image title
    return (← b.push image, 1)
  | .table => single "table"
  | .tableHead =>
    let b ← { b with inTableHead := true }.openElement "thead"
    return (← b.openElement "tr", 2)
  | .tableRow => single "tr"
  | .tableCell => single (if b.inTableHead then "th" else "td")
  | .htmlBlock => return (b, 0)
  | .generic => single "div"

/-- Closes as many elements as the innermost open container opened. -/
def close (b : Builder) : Builder :=
  { b with stack := b.stack.drop (b.opened.headD 0), opened := b.opened.tail }

/-- Adds text: to the `alt` of the current image, or as a text node. -/
def addText (b : Builder) (s : String) : Edit Builder := do
  let d ← get
  match b.currentImage? d with
  | some image =>
    setAttribute image "alt" ((d.attribute? image "alt").getD "" ++ s)
    return b
  | none => b.place (← createText s)

/-- A check box: disabled, and checked when the task is done. -/
def createCheckbox (checked : Bool) : Edit NodeId := do
  let input ← createElement "input"
  setAttribute input "type" "checkbox"
  setAttribute input "disabled" ""
  if checked then setAttribute input "checked" ""
  return input

/-- Takes one event. -/
def handle (b : Builder) : Event → Edit Builder
  | .start tag => do
    let (b, n) ← b.openTag tag
    return { b with opened := n :: b.opened }
  | .stop tag =>
    return { b with inTableHead := b.inTableHead && tag != TagEnd.tableHead }.close
  | .text s => b.addText s
  | .code s => do
    let code ← createElement "code"
    let _ ← appendText code s
    b.place code
  | .html markup => do b.place (← createRaw markup)
  | .inlineHtml markup => do b.place (← createRaw markup)
  | .softBreak => do b.place (← createText "\n")
  | .hardBreak => do b.place (← createElement "br")
  | .rule => do b.place (← createElement "hr")
  | .taskMarker checked => do b.place (← createCheckbox checked)
  | .unsupported => return b

/-- Takes events one after the other. -/
def handleAll (b : Builder) (events : List Event) : Edit Builder :=
  events.foldlM handle b

end Builder

/-- Builds the nodes of a fragment without attaching them; answers the top level in order. -/
def buildFragment (events : List Event) : Edit (List NodeId) := do
  let b ← Builder.start.handleAll events
  return b.topLevel.reverse

end CopyControl.Markdown
