import CopyControl.Enhance.Pass

/-!
The host of a live document: the document, the clipboards, a clock, the work that is queued or
waits for a timer, and the sessions that keep the document enhanced.

Work runs one piece at a time, in the order in which it was queued. A piece that has to wait is
kept under a timer and queued again when the timer is due.
-/

namespace CopyControl

/-- A piece of work that runs without interruption. Work that a click set off has the number of
that click. -/
inductive Work where
  /-- Reads the text of a block and begins to write it to a clipboard. -/
  | click (number : Nat) (block control : NodeId) (clipboard : String)
  /-- Writes a text whose delay is over. -/
  | write (number : Nat) (block control : NodeId) (clipboard text : String)
  | note (number : Nat) (text : String)
  /-- Sets the timer after which a control shows its first label again. -/
  | armRevert (control : NodeId)
  | revert (control : NodeId)
  /-- Attaches a session if the document is ready. -/
  | attach (session : Nat)
  /-- Handles the changes that a session's observer has been told of. -/
  | observe (session : Nat)
deriving DecidableEq, Repr, Inhabited

/-- The click that a piece of work belongs to. -/
def Work.click? : Work → Option Nat
  | .click n _ _ _ => some n
  | .write n _ _ _ _ => some n
  | .note n _ => some n
  | _ => none

structure Timer where
  due : Nat
  work : Work
deriving DecidableEq, Repr, Inhabited

/-- A session goes from waiting for the document to observing it, and ends closed. -/
inductive Session where
  /-- `wanted` tells that somebody will have the session when it is attached. -/
  | waiting (clipboard : String) (wanted : Bool)
  | observing (clipboard : String) (observer : ObserverId)
  | closed
deriving DecidableEq, Repr, Inhabited

structure Host where
  document : Document
  /-- The clipboards that are not as they were at first. -/
  clipboards : List (String × ClipboardLink)
  /-- Milliseconds since the start. -/
  now : Nat
  /-- Work to be run, first to last. -/
  queue : List Work
  /-- Timers in the order in which they were set. -/
  timers : List Timer
  sessions : List Session
  /-- Clicks so far. -/
  clicks : Nat
  /-- Notes that listeners have left, latest first. -/
  notes : List String
  /-- Latest first. -/
  log : List LogEntry
deriving Repr, Inhabited

namespace Host

def start (d : Document) : Host where
  document := d
  clipboards := []
  now := 0
  queue := []
  timers := []
  sessions := []
  clicks := 0
  notes := []
  log := []

def enqueue (h : Host) (w : Work) : Host :=
  { h with queue := h.queue ++ [w] }

def setTimer (h : Host) (delay : Nat) (w : Work) : Host :=
  { h with timers := h.timers ++ [⟨h.now + delay, w⟩] }

def record (h : Host) (e : LogEntry) : Host :=
  { h with log := e :: h.log }

/-! ## Clipboards -/

def clipboard (h : Host) (name : String) : ClipboardLink :=
  (h.clipboards.lookup name).getD .direct

def setClipboard (h : Host) (name : String) (l : ClipboardLink) : Host :=
  { h with clipboards := (name, l) :: h.clipboards.filter (·.1 ≠ name) }

/-! ## The document -/

/-- The session that an observer belongs to. -/
def sessionOf? (h : Host) (o : ObserverId) : Option Nat :=
  h.sessions.findIdx? fun s =>
    match s with
    | .observing _ p => p = o
    | _ => false

/-- Queues the session of an observer that has been told of changes, unless it is queued. -/
def wakeObserver (h : Host) (r : Registration) : Host :=
  match h.sessionOf? r.id with
  | some i =>
    if (h.document.queued r.id).isEmpty || h.queue.contains (.observe i) then h
    else h.enqueue (.observe i)
  | none => h

/-- Queues the sessions whose observers have been told of changes. -/
def wake (h : Host) : Host :=
  h.document.observers.foldl wakeObserver h

/-- Runs an operation on the document. -/
def edit {α : Type} (h : Host) (e : Edit α) : Except DocumentError α × Host :=
  let (result, d) := e.apply h.document
  (result, { h with document := d }.wake)

/-- Runs an enhancement pass; observers are not woken yet. -/
def pass (h : Host) (clipboard : String) : PassSummary × Host :=
  let p := h.document.enhance clipboard
  (p.summary, { h with document := p.document, log := p.log ++ h.log })

/-- Runs an enhancement pass. -/
def enhance (h : Host) (clipboard : String) : PassSummary × Host :=
  let (summary, h) := h.pass clipboard
  (summary, h.wake)

end Host

end CopyControl
