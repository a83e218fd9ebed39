import CopyControl.Host.Basic

/-!
Clicks on copy controls.

A click reads the text of its block when its work first runs, writes it to a clipboard, shows on
the control what came of it, and has the control show its first label again after a while. That
timer is never taken back, so clicks that overlap have one each.
-/

namespace CopyControl.Host

def labelFailure (e : DocumentError) (control : NodeId) : LogEntry where
  level := .debug
  message := "could not update control label"
  fields := [("error", e.message), ("button", control.display)]

/-- Shows a label on a control, if the control is still there. -/
def showLabel (h : Host) (control : NodeId) (label : ControlLabel) : Host :=
  match h.edit (Document.setLabel control label) with
  | (.ok _, h) => h
  | (.error e, h) => h.record (labelFailure e control)

def copyFailure (e : ClipboardError) (block : NodeId) : LogEntry where
  level := .error
  message := "Copy failed"
  fields := [("error", e.message), ("block", block.display)]

/-- Writes the text of a block and shows what came of it. -/
def write (h : Host) (block control : NodeId) (clipboard text : String) : ClickOutcome × Host :=
  let (result, link) := (h.clipboard clipboard).write text
  let h := h.setClipboard clipboard link
  let h := match result with
    | .ok _ => h
    | .error e => h.record (copyFailure e block)
  let outcome := ClickOutcome.ofWrite result
  (outcome, (h.showLabel control (.ofOutcome outcome)).enqueue (.armRevert control))

/-- Runs the work of a click that has just begun: the text is read now and is written now or,
with a slow clipboard, later. -/
def beginClick (h : Host) (number : Nat) (block control : NodeId) (clipboard : String) : Host :=
  let text := h.document.innerText block
  match (h.clipboard clipboard).delay with
  | 0 => (h.write block control clipboard text).2
  | delay => h.setTimer delay (.write number block control clipboard text)

/-- The work that a listener asks for. -/
def workOf (number : Nat) : Listener → Work
  | .copyBlock block control clipboard => .click number block control clipboard
  | .note text => .note number text

/-- Clicks a node: queues the work of each of its listeners; answers how much there is. -/
def dispatchClick (h : Host) (node : NodeId) : Nat × Host :=
  let works := (h.document.clickListeners node).map (workOf h.clicks)
  (works.length, { h with queue := h.queue ++ works, clicks := h.clicks + 1 })

/-- Takes the notes left so far, earliest first. -/
def takeNotes (h : Host) : List String × Host :=
  (h.notes.reverse, { h with notes := [] })

end CopyControl.Host
