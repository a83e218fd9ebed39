import CopyControl.Clipboard
import CopyControl.Document.Text

/-!
The labels of a copy control. A control shows `Copy` until it is clicked, then for a while what
came of the click.
-/

namespace CopyControl

inductive ControlLabel where
  | copy
  | copied
  | error
deriving DecidableEq, Repr

instance : Inhabited ControlLabel := ⟨.copy⟩

/-- What came of a click. -/
inductive ClickOutcome where
  | copied
  | failed (e : ClipboardError)
deriving DecidableEq, Repr, Inhabited

namespace ClickOutcome

def ofWrite : Except ClipboardError Unit → ClickOutcome
  | .ok _ => .copied
  | .error e => .failed e

end ClickOutcome

namespace ControlLabel

def text : ControlLabel → String
  | .copy => "Copy"
  | .copied => "Copied"
  | .error => "Error"

/-- The label that a text shows. -/
def ofText? (s : String) : Option ControlLabel :=
  [copy, copied, error].find? (·.text = s)

def ofOutcome : ClickOutcome → ControlLabel
  | .copied => .copied
  | .failed _ => .error

end ControlLabel

/-- The label of a control, if it shows one. -/
def Document.controlLabel? (d : Document) (control : NodeId) : Option ControlLabel :=
  ControlLabel.ofText? (d.textContent control)

/-- Shows a label on a control. -/
def Document.setLabel (control : NodeId) (label : ControlLabel) : Edit Unit :=
  setText control label.text

end CopyControl
