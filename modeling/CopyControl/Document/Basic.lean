import CopyControl.Document.Error

/-!
A live document: an arena of slots with the tree, the click listeners and the change observers
that hang on it, and the lookups that every other module is written with.

A slot that is given up goes to the front of the free list and is the first to be used again,
under its next generation.
-/

namespace CopyControl

/-- What a click on a node sets off. -/
inductive Listener where
  /-- Copies the text of `block` to the named clipboard and shows the outcome on `control`. -/
  | copyBlock (block control : NodeId) (clipboard : String)
  /-- Leaves a note with whoever hosts the document. -/
  | note (text : String)
deriving DecidableEq, Repr, Inhabited

/-- One structural change: nodes added to, or removed from, the children of `target`. -/
structure MutationRecord where
  target : NodeId
  added : List NodeId
  removed : List NodeId
deriving DecidableEq, Repr, Inhabited

/-- An observer is known by its rank: the first one ever registered is `0`. -/
abbrev ObserverId := Nat

/-- The document's side of an observer. -/
structure Registration where
  id : ObserverId
  target : NodeId
  subtree : Bool
deriving DecidableEq, Repr, Inhabited

/-- The subscriber's side of an observer: records not yet taken, and whether it still listens. -/
structure Mailbox where
  queue : List MutationRecord
  listening : Bool
deriving DecidableEq, Repr, Inhabited

/-- Whether the initial content is in place. -/
inductive ReadyState where
  | loading
  | complete
deriving DecidableEq, Repr, Inhabited

def ReadyState.name : ReadyState → String
  | .loading => "Loading"
  | .complete => "Complete"

/-- A document. `mailboxes` has one entry for each observer ever registered, by rank. -/
structure Document where
  slots : Array Slot
  free : List Nat
  root : NodeId
  head : NodeId
  body : NodeId
  listeners : List (NodeId × Listener)
  observers : List Registration
  mailboxes : Array Mailbox
  ready : ReadyState
deriving DecidableEq, Repr, Inhabited

namespace Document

/-- An `html` document with an empty `head` and an empty `body`, still loading. -/
def new : Document :=
  let root : NodeId := ⟨0, 0⟩
  let head : NodeId := ⟨1, 0⟩
  let body : NodeId := ⟨2, 0⟩
  { slots :=
      #[⟨0, some ⟨.element (.ofTag "html"), none, [head, body]⟩⟩,
        ⟨0, some ⟨.element (.ofTag "head"), some root, []⟩⟩,
        ⟨0, some ⟨.element (.ofTag "body"), some root, []⟩⟩]
    free := []
    root := root
    head := head
    body := body
    listeners := []
    observers := []
    mailboxes := #[]
    ready := .loading }

/-! ## Lookups -/

/-- The node a handle names: its slot must be occupied and of the handle's generation. -/
def node? (d : Document) (id : NodeId) : Option Node :=
  match d.slots[id.index]? with
  | some slot => if slot.generation = id.generation then slot.node else none
  | none => none

/-- Whether the handle names a live node. -/
def contains (d : Document) (id : NodeId) : Bool :=
  (d.node? id).isSome

def kind? (d : Document) (id : NodeId) : Option NodeKind :=
  (d.node? id).map (·.kind)

def element? (d : Document) (id : NodeId) : Option Element :=
  (d.kind? id).bind NodeKind.element?

def tag? (d : Document) (id : NodeId) : Option String :=
  (d.element? id).map (·.tag)

def parent? (d : Document) (id : NodeId) : Option NodeId :=
  (d.node? id).bind (·.parent)

/-- Children in order; none for a handle that names no node. -/
def children (d : Document) (id : NodeId) : List NodeId :=
  ((d.node? id).map (·.children)).getD []

def hasClass (d : Document) (id : NodeId) (c : String) : Bool :=
  ((d.element? id).map (·.hasClass c)).getD false

def attribute? (d : Document) (id : NodeId) (name : String) : Option String :=
  (d.element? id).bind (·.attribute? name)

/-- Live nodes, attached or not. -/
def nodeCount (d : Document) : Nat :=
  d.slots.size - d.free.length

def listenerCount (d : Document) : Nat :=
  d.listeners.length

def observerCount (d : Document) : Nat :=
  d.observers.length

/-- Listeners of a node, oldest first. -/
def clickListeners (d : Document) (id : NodeId) : List Listener :=
  (d.listeners.filter (·.1 = id)).map (·.2)

/-- One line on the size and state of the document. -/
def summary (d : Document) : String :=
  s!"Document \x7b nodes: {d.nodeCount}, listeners: {d.listenerCount}, " ++
    s!"observers: {d.observerCount}, ready: {d.ready.name} \x7d"

/-! ## Slots -/

/-- Changes a live node in place; nothing happens for a handle that names no node. -/
def updateNode (d : Document) (id : NodeId) (f : Node → Node) : Document :=
  if d.contains id then
    { d with slots := d.slots.modify id.index fun s => { s with node := s.node.map f } }
  else d

/-- Puts a new, detached node into the slot vacated last, or into a new slot. -/
def createNode (d : Document) (kind : NodeKind) : NodeId × Document :=
  match d.free with
  | index :: rest =>
    (⟨index, ((d.slots[index]?).map (·.generation)).getD 0⟩,
      { d with
        slots := d.slots.modify index fun s => { s with node := some (.detached kind) }
        free := rest })
  | [] =>
    (⟨d.slots.size, 0⟩, { d with slots := d.slots.push ⟨0, some (.detached kind)⟩ })

/-- Empties a node's slot, moves the slot on to its next generation, and drops the node's
listeners. -/
def vacate (d : Document) (id : NodeId) : Document :=
  { d with
    slots := d.slots.modify id.index fun s => ⟨s.generation + 1, none⟩
    free := id.index :: d.free
    listeners := d.listeners.filter (·.1 ≠ id) }

/-- Signals that the initial content is in place. -/
def markReady (d : Document) : Document :=
  { d with ready := .complete }

end Document

end CopyControl
