/-!
The parts of a document: handles, elements, and the slots that hold nodes.

A node lives in a numbered slot. A handle names the slot and the generation the slot had when
the node was made. So a handle outlives its node without naming the node's successors, until the
generation comes round again, `2 ^ 32` of them later.
-/

namespace CopyControl

/-- Handle to a node: a slot number and the generation of the slot it was issued for. -/
structure NodeId where
  index : Nat
  generation : UInt32
deriving DecidableEq, Repr, Inhabited

/-- A handle as messages show it: the slot number alone. -/
def NodeId.display (id : NodeId) : String :=
  s!"#{id.index}"

/-- An element: its tag, its classes in the order they were added, and its other attributes. -/
structure Element where
  tag : String
  classes : List String
  attributes : List (String × String)
deriving DecidableEq, Repr, Inhabited

namespace Element

/-- An element without classes or attributes. ASCII capitals of the tag are lowered. -/
def ofTag (tag : String) : Element where
  tag := tag.map Char.toLower
  classes := []
  attributes := []

def hasClass (e : Element) (c : String) : Bool :=
  e.classes.contains c

/-- Adds a class at the end, once. -/
def addClass (e : Element) (c : String) : Element :=
  if e.hasClass c then e else { e with classes := e.classes ++ [c] }

def attribute? (e : Element) (name : String) : Option String :=
  e.attributes.lookup name

/-- Overwrites the first pair with the given name, or adds a pair at the end. -/
def setPair (name value : String) : List (String × String) → List (String × String)
  | [] => [(name, value)]
  | (k, v) :: rest => if k = name then (k, value) :: rest else (k, v) :: setPair name value rest

def setAttribute (e : Element) (name value : String) : Element :=
  { e with attributes := setPair name value e.attributes }

end Element

/-- What a node is. Raw markup is written out as it stands. -/
inductive NodeKind where
  | element (e : Element)
  | text (s : String)
  | raw (markup : String)
deriving DecidableEq, Repr, Inhabited

/-- The element of a kind, if it is one. -/
def NodeKind.element? : NodeKind → Option Element
  | .element e => some e
  | _ => none

/-- A node with its links. -/
structure Node where
  kind : NodeKind
  parent : Option NodeId
  children : List NodeId
deriving DecidableEq, Repr, Inhabited

/-- A node that stands alone. -/
def Node.detached (kind : NodeKind) : Node where
  kind := kind
  parent := none
  children := []

/-- A place for a node. The generation counts, modulo `2 ^ 32`, how often it has been vacated. -/
structure Slot where
  generation : UInt32
  node : Option Node
deriving DecidableEq, Repr, Inhabited

end CopyControl
