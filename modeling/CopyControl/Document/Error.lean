import CopyControl.Document.Node

/-!
Why a document operation can fail, and how each cause is worded.
-/

namespace CopyControl

inductive DocumentError where
  | notAnElement (node : NodeId)
  | notAChild (parent child : NodeId)
  | hierarchyCycle (parent child : NodeId)
  | detached (node : NodeId)
  | unknownNode (node : NodeId)
  | rootNode
deriving DecidableEq, Repr, Inhabited

def DocumentError.message : DocumentError → String
  | .notAnElement n => s!"node {n.display} is not an element"
  | .notAChild p c => s!"node {c.display} is not a child of {p.display}"
  | .hierarchyCycle p c => s!"inserting {c.display} under {p.display} would create a cycle"
  | .detached n => s!"node {n.display} has no parent"
  | .unknownNode n => s!"node {n.display} does not exist in this document"
  | .rootNode => "the document root cannot be released"

end CopyControl
