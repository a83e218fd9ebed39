import CopyControl.Enhance.Label
import CopyControl.Log

/-!
Enhancement passes: giving every code block a copy control.

A code block is a `code` element directly inside a `pre`. A pass puts each `pre` that has no
control yet into a wrapper, next to a region with the control, and marks the `pre` so that later
passes leave it alone.
-/

namespace CopyControl

open Document

namespace Enhance

/-- Marks a `pre` that has a control. -/
def enhancedClass : String := "has-copy-button"

/-- Asks for wrapped lines in a `pre`. -/
def wrapLinesClass : String := "wrap-lines"

def wrapperClass : String := "code-block-wrapper"

def actionsClass : String := "code-actions"

def buttonClass : String := "copy-code-button"

/-- How long a control shows what came of a click, in milliseconds. -/
def revertDelay : Nat := 1500

/-- A new control that copies the block `code` to a clipboard. -/
def createControl (code : NodeId) (clipboard : String) : Edit NodeId := do
  let button ← createElement "button"
  addClass button buttonClass
  setAttribute button "type" "button"
  setText button ControlLabel.copy.text
  addClickListener button (.copyBlock code button clipboard)
  return button

/-- Puts the block `code`, which is inside `pre`, into a wrapper with a control. -/
def wrapBlock (code pre container : NodeId) (clipboard : String) : Edit Unit := do
  let button ← createControl code clipboard
  let wrapper ← createElement "div"
  addClass wrapper wrapperClass
  addClass pre wrapLinesClass
  insertBefore container wrapper (some pre)
  appendChild wrapper pre
  let actions ← createElement "div"
  addClass actions actionsClass
  appendChild actions button
  appendChild wrapper actions
  addClass pre enhancedClass

/-- Gives a block a control unless its `pre` has one; answers whether it was given one. -/
def enhanceBlock (code : NodeId) (clipboard : String) : Edit Bool := do
  let d ← get
  match d.parent? code with
  | none => throw (.detached code)
  | some pre =>
    if d.hasClass pre enhancedClass then return false
    match d.parent? pre with
    | none => throw (.detached pre)
    | some container =>
      wrapBlock code pre container clipboard
      return true

end Enhance

/-- What a pass came to. -/
structure PassSummary where
  /-- Blocks seen. -/
  found : Nat
  enhanced : Nat
  /-- Blocks that had a control. -/
  skipped : Nat
  failed : Nat
deriving DecidableEq, Repr, Inhabited

/-- A pass under way: the document so far, the counts, and what was logged, latest first. -/
structure Pass where
  document : Document
  summary : PassSummary
  log : List LogEntry
deriving Repr, Inhabited

namespace Pass

def start (d : Document) (found : Nat) : Pass where
  document := d
  summary := ⟨found, 0, 0, 0⟩
  log := []

def failure (e : DocumentError) (block : NodeId) : LogEntry where
  level := .warn
  message := "failed to attach copy control"
  fields := [("error", e.message), ("block", block.display)]

/-- Takes one block. A block that cannot be wrapped is left for the next pass. -/
def takeBlock (clipboard : String) (p : Pass) (code : NodeId) : Pass :=
  let s := p.summary
  match (Enhance.enhanceBlock code clipboard).apply p.document with
  | (.ok true, d) => { p with document := d, summary := { s with enhanced := s.enhanced + 1 } }
  | (.ok false, d) => { p with document := d, summary := { s with skipped := s.skipped + 1 } }
  | (.error e, d) =>
    { document := d
      summary := { s with failed := s.failed + 1 }
      log := failure e code :: p.log }

def report (s : PassSummary) : LogEntry where
  level := .debug
  message := "enhancement pass"
  fields :=
    [("found", toString s.found), ("enhanced", toString s.enhanced),
      ("failed", toString s.failed)]

/-- Logs what the pass came to if it did anything. -/
def finish (p : Pass) : Pass :=
  if 0 < p.summary.enhanced || 0 < p.summary.failed then
    { p with log := report p.summary :: p.log }
  else p

end Pass

namespace Document

/-- The code blocks of a document, in document order. -/
def codeBlocks (d : Document) : List NodeId :=
  d.selectDirectChildren "pre" "code"

/-- One pass over a document. -/
def enhance (d : Document) (clipboard : String) : Pass :=
  (d.codeBlocks.foldl (Pass.takeBlock clipboard) (.start d d.codeBlocks.length)).finish

/-- The copy controls of a document, in document order. -/
def controls (d : Document) : List NodeId :=
  (d.elementsByTag "button").filter (d.hasClass · Enhance.buttonClass)

/-- The control of a block that has been enhanced. -/
def controlFor? (d : Document) (code : NodeId) : Option NodeId := do
  let pre ← d.parent? code
  let wrapper ← d.parent? pre
  if d.hasClass wrapper Enhance.wrapperClass then
    let actions := (d.children wrapper).filter (d.hasClass · Enhance.actionsClass)
    (actions.flatMap d.children).find? (d.hasClass · Enhance.buttonClass)
  else none

end Document

end CopyControl
