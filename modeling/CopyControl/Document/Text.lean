import CopyControl.Document.Edit

/-!
The text of a document: what a subtree says, and edits that put text in place.
-/

namespace CopyControl

mutual

/-- Concatenated text of a subtree. -/
def Tree.textContent : Tree → List Char
  | .node _ kind children =>
    match kind with
    | .text s => s.toList
    | .raw _ => []
    | .element _ => Tree.textContents children

/-- Concatenated text of a list of subtrees. -/
def Tree.textContents : List Tree → List Char
  | [] => []
  | t :: ts => t.textContent ++ Tree.textContents ts

end

mutual

/-- Text as it would show: a `br` is a line break, whatever is below it. -/
def Tree.innerText : Tree → List Char
  | .node _ kind children =>
    match kind with
    | .text s => s.toList
    | .raw _ => []
    | .element e => if e.tag = "br" then ['\n'] else Tree.innerTexts children

/-- Text of a list of subtrees as it would show. -/
def Tree.innerTexts : List Tree → List Char
  | [] => []
  | t :: ts => t.innerText ++ Tree.innerTexts ts

end

namespace Document

/-- Concatenated text at and below a node; empty for a handle that names none. -/
def textContent (d : Document) (id : NodeId) : String :=
  .ofList (((d.tree? id).map Tree.textContent).getD [])

/-- Text at and below a node as it would show. -/
def innerText (d : Document) (id : NodeId) : String :=
  .ofList (((d.tree? id).map Tree.innerText).getD [])

/-- Replaces the children of an element by a single text node. -/
def setTextContent (id : NodeId) (s : String) : Edit Unit := do
  ensureElement id
  let node ← createText s
  replaceChildren id [node]

/-- The only child of a node, if that is a text node. -/
def soleText? (d : Document) (id : NodeId) : Option NodeId :=
  match d.children id with
  | [only] =>
    match d.kind? only with
    | some (.text _) => some only
    | _ => none
  | _ => none

/-- Like `setTextContent`, but a sole text child is rewritten in place, which is no change of
children and is not reported. -/
def setText (id : NodeId) (s : String) : Edit Unit := do
  match (← get).soleText? id with
  | some only => modify fun d => d.updateNode only fun n => { n with kind := .text s }
  | none => setTextContent id s

/-- Appends a text node to an element. -/
def appendText (id : NodeId) (s : String) : Edit NodeId := do
  ensureElement id
  let node ← createText s
  appendChild id node
  return node

end Document

end CopyControl
