import CopyControl.Document.Basic

/-!
Walks over the tree: upwards along parents, downwards in document order, and the subtree below
a node as one value.

Each walk is bounded by the number of slots: no tree has more nodes than there are slots.
-/

namespace CopyControl

/-- A subtree taken out of its document: a node, what it is, and its children's subtrees. -/
inductive Tree where
  | node (id : NodeId) (kind : NodeKind) (children : List Tree)
deriving Repr, Inhabited

namespace Document

/-! ## Upwards -/

/-- The handle, its parent, that one's parent and so on, at most `n` of them. -/
def climb (d : Document) : Nat → NodeId → List NodeId
  | 0, _ => []
  | n + 1, id =>
    id :: match d.parent? id with
      | some p => d.climb n p
      | none => []

/-- The handle itself and then every ancestor, nearest first. -/
def inclusiveAncestors (d : Document) (id : NodeId) : List NodeId :=
  d.climb (d.slots.size + 1) id

def isInclusiveAncestor (d : Document) (ancestor id : NodeId) : Bool :=
  (d.inclusiveAncestors id).contains ancestor

/-- Whether a live node is reachable from the root. -/
def isConnected (d : Document) (id : NodeId) : Bool :=
  d.contains id && d.isInclusiveAncestor d.root id

/-! ## Downwards -/

/-- Takes nodes from a stack, each time putting the children of the one taken back on top. -/
def unstack (d : Document) : Nat → List NodeId → List NodeId
  | 0, _ => []
  | _, [] => []
  | n + 1, id :: stack => id :: d.unstack n (d.children id ++ stack)

/-- The nodes at and below `id` in document order. -/
def descendants (d : Document) (id : NodeId) : List NodeId :=
  if d.contains id then d.unstack d.slots.size [id] else []

/-- Connected elements with the given tag, in document order. -/
def elementsByTag (d : Document) (tag : String) : List NodeId :=
  (d.descendants d.root).filter fun id => d.tag? id = some tag

/-- Connected elements with the tag `child` whose parent has the tag `parent`, in document
order. -/
def selectDirectChildren (d : Document) (parent child : String) : List NodeId :=
  (d.elementsByTag child).filter fun id => (d.parent? id).bind d.tag? = some parent

/-! ## Subtrees -/

/-- The subtree at `id`, cut off below `n` levels. -/
def treeWithin (d : Document) : Nat → NodeId → Option Tree
  | 0, _ => none
  | n + 1, id =>
    (d.node? id).map fun node => .node id node.kind (node.children.filterMap (d.treeWithin n))

/-- The subtree at `id`, if `id` names a live node. -/
def tree? (d : Document) (id : NodeId) : Option Tree :=
  d.treeWithin d.slots.size id

end Document

end CopyControl
