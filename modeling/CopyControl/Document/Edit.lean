import CopyControl.Document.Observe

/-!
Operations that change a document and can fail.

An `Edit` keeps the document it has reached also when it fails, so that "a failed operation
changes nothing" is a statement about the operations and not a consequence of their type.
-/

namespace CopyControl

/-- An operation on a document: a value or the cause of failure, and the document afterwards. -/
abbrev Edit := ExceptT DocumentError (StateM Document)

namespace Edit

/-- Runs an operation on a document. -/
def apply {α : Type} (e : Edit α) (d : Document) : Except DocumentError α × Document :=
  e.run d

end Edit

namespace Document

/-! ## Links -/

/-- `child` put in front of `reference`, or last if there is none. -/
def insertSibling (child : NodeId) (reference : Option NodeId) : List NodeId → List NodeId
  | [] => [child]
  | s :: rest =>
    if some s = reference then child :: s :: rest else s :: insertSibling child reference rest

/-- Links `child` below `parent`. -/
def attach (d : Document) (parent child : NodeId) (reference : Option NodeId) : Document :=
  let d := d.updateNode parent fun n =>
    { n with children := insertSibling child reference n.children }
  d.updateNode child fun n => { n with parent := some parent }

/-- Takes `child` out of the children of `parent`. -/
def detach (d : Document) (parent child : NodeId) : Document :=
  let d := d.updateNode parent fun n => { n with children := n.children.filter (· ≠ child) }
  d.updateNode child fun n => { n with parent := none }

/-- Frees a node and everything below it. -/
def releaseSubtree (d : Document) (id : NodeId) : Document :=
  (d.descendants id).foldl vacate d

/-! ## Checks -/

def ensureLive (id : NodeId) : Edit Unit := do
  if !(← get).contains id then throw (.unknownNode id)

def ensureElement (id : NodeId) : Edit Unit := do
  match (← get).kind? id with
  | some (.element _) => pure ()
  | some _ => throw (.notAnElement id)
  | none => throw (.unknownNode id)

/-- A live `child` may go below `parent` unless it is at or above it. -/
def ensureInsertable (parent child : NodeId) : Edit Unit := do
  ensureLive child
  if (← get).isInclusiveAncestor child parent then throw (.hierarchyCycle parent child)

/-! ## Nodes -/

def createElement (tag : String) : Edit NodeId :=
  modifyGet fun d => d.createNode (.element (.ofTag tag))

def createText (s : String) : Edit NodeId :=
  modifyGet fun d => d.createNode (.text s)

def createRaw (markup : String) : Edit NodeId :=
  modifyGet fun d => d.createNode (.raw markup)

/-- Changes the element part of a node. -/
def updateElement (id : NodeId) (f : Element → Element) : Edit Unit := do
  ensureElement id
  modify fun d => d.updateNode id fun n =>
    match n.kind with
    | .element e => { n with kind := .element (f e) }
    | _ => n

def addClass (id : NodeId) (c : String) : Edit Unit :=
  updateElement id (·.addClass c)

def setAttribute (id : NodeId) (name value : String) : Edit Unit :=
  updateElement id (·.setAttribute name value)

def addClickListener (id : NodeId) (l : Listener) : Edit Unit := do
  ensureLive id
  modify fun d => { d with listeners := d.listeners ++ [(id, l)] }

/-! ## Children -/

/-- Takes a node from where it is, if it is anywhere, and links it below `parent`, reporting
both steps. -/
def move (d : Document) (parent child : NodeId) (reference : Option NodeId) : Document :=
  let d := match d.parent? child with
    | some old => (d.detach old child).notify (.ofRemoved old child)
    | none => d
  (d.attach parent child reference).notify (.ofAdded parent child)

/-- Inserts `child` under `parent` in front of `reference`, or last if there is none. A child
that has a parent is moved; in front of itself it stays where it is. -/
def insertBefore (parent child : NodeId) (reference : Option NodeId) : Edit Unit := do
  ensureElement parent
  ensureInsertable parent child
  match reference with
  | some r =>
    if (← get).parent? r ≠ some parent then throw (.notAChild parent r)
    if r ≠ child then modify (·.move parent child reference)
  | none => modify (·.move parent child none)

def appendChild (parent child : NodeId) : Edit Unit :=
  insertBefore parent child none

/-- Takes `child` out of `parent`. The subtree stays alive, listeners included. -/
def removeChild (parent child : NodeId) : Edit Unit := do
  if (← get).parent? child ≠ some parent then throw (.notAChild parent child)
  modify fun d => (d.detach parent child).notify (.ofRemoved parent child)

/-- Links `child` last below `parent`, away from where it was, without a report. -/
def adopt (parent : NodeId) (d : Document) (child : NodeId) : Document :=
  let d := match d.parent? child with
    | some old => d.detach old child
    | none => d
  d.attach parent child none

/-- Forgets the parent of a node. -/
def orphan (d : Document) (id : NodeId) : Document :=
  d.updateNode id fun n => { n with parent := none }

/-- Frees a node that no parent holds. -/
def releaseIfOrphan (d : Document) (id : NodeId) : Document :=
  if (d.parent? id).isNone then d.releaseSubtree id else d

/-- Swaps the children of `parent` in one reported change, and frees the old ones that were not
put back anywhere. -/
def swapChildren (d : Document) (parent : NodeId) (children : List NodeId) : Document :=
  let removed := d.children parent
  let d := d.updateNode parent fun n => { n with children := [] }
  let d := removed.foldl orphan d
  let d := children.foldl (adopt parent) d
  let d := d.notify ⟨parent, children, removed⟩
  removed.foldl releaseIfOrphan d

/-- Replaces every child of `parent`. Old children that are not among the new ones are freed
with their subtrees and listeners. -/
def replaceChildren (parent : NodeId) (children : List NodeId) : Edit Unit := do
  ensureElement parent
  children.forM (ensureInsertable parent)
  modify (·.swapChildren parent children)

/-- Frees a node and everything below it, taking it out of its parent first. -/
def release (id : NodeId) : Edit Unit := do
  ensureLive id
  if id = (← get).root then throw .rootNode
  match (← get).parent? id with
  | some p => removeChild p id
  | none => pure ()
  modify (·.releaseSubtree id)

end Document

end CopyControl
