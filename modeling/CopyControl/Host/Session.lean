import CopyControl.Host.Click

/-!
Sessions: keeping a document enhanced.

A session waits for the document to be ready, runs a first pass, and then observes the body, so
that blocks that come later get their controls too. It observes for exactly as long as it is
open.
-/

namespace CopyControl.Host

def attached (s : PassSummary) : LogEntry where
  level := .info
  message := "document enhanced"
  fields := [("blocks", toString s.found), ("enhanced", toString s.enhanced)]

def disconnected : LogEntry where
  level := .debug
  message := "observer disconnected"
  fields := []

def setSession (h : Host) (i : Nat) (s : Session) : Host :=
  { h with sessions := h.sessions.set i s }

/-- Takes the registration of a session's observer away. -/
def disconnect (h : Host) (o : ObserverId) : Host :=
  { h with document := h.document.disconnect o }.record disconnected

/-- Attaches a waiting session if the document is ready. A session that nobody wants any more is
closed at once. -/
def attach (h : Host) (i : Nat) : Host :=
  match h.sessions[i]? with
  | some (.waiting clipboard wanted) =>
    if h.document.ready = .complete then
      let (summary, h) := h.enhance clipboard
      let h := h.record (attached summary)
      let (observer, d) := h.document.observe h.document.body true
      let h := { h with document := d }
      if wanted then (h.setSession i (.observing clipboard observer)).enqueue (.observe i)
      else (h.disconnect observer).setSession i .closed
    else h
  | _ => h

def batch (records : Nat) : LogEntry where
  level := .trace
  message := "mutation batch"
  fields := [("records", toString records)]

def stopped : LogEntry where
  level := .trace
  message := "observer stopped"
  fields := []

/-- Handles all changes that an observer has been told of, in at most `n` batches, with a pass
for each. -/
def handleBatches (h : Host) (clipboard : String) (o : ObserverId) : Nat → Host
  | 0 => h
  | n + 1 =>
    match h.document.nextBatch o with
    | (.pending, _) => h
    | (.closed, _) => h.record stopped
    | (.batch records, d) =>
      let h := { h with document := d }.record (batch records.length)
      (h.pass clipboard).2.handleBatches clipboard o n

/-- How many batches one run of an observer can have: the changes it was queued for, and those
that its own first pass makes. -/
def batchLimit : Nat := 3

/-- Handles the changes that a session's observer has been told of. -/
def runObserver (h : Host) (i : Nat) : Host :=
  match h.sessions[i]? with
  | some (.observing clipboard o) => (h.handleBatches clipboard o batchLimit).wake
  | _ => h

/-- Begins to attach a session; answers its number. -/
def beginSession (h : Host) (clipboard : String) : Nat × Host :=
  let i := h.sessions.length
  (i, { h with sessions := h.sessions ++ [Session.waiting clipboard true] }.enqueue (.attach i))

/-- Closes a session. One that is still waiting is given up. -/
def closeSession (h : Host) (i : Nat) : Host :=
  match h.sessions[i]? with
  | some (.observing _ o) => (h.disconnect o).setSession i .closed
  | some (.waiting _ _) => h.setSession i .closed
  | _ => h

/-- Lets go of a session without stopping it from attaching. -/
def abandonSession (h : Host) (i : Nat) : Host :=
  match h.sessions[i]? with
  | some (.waiting clipboard _) => h.setSession i (.waiting clipboard false)
  | _ => h.closeSession i

/-- Runs a pass at once, without waiting for the observer. -/
def flushSession (h : Host) (i : Nat) : Option PassSummary × Host :=
  match h.sessions[i]? with
  | some (.observing clipboard _) =>
    let (summary, h) := h.enhance clipboard
    (some summary, h)
  | _ => (none, h)

/-- Queues a session that waits for the document, unless it is queued. -/
def wakeWaiting (h : Host) (i : Nat) : Host :=
  match h.sessions[i]? with
  | some (.waiting _ _) => if h.queue.contains (.attach i) then h else h.enqueue (.attach i)
  | _ => h

/-- Signals that the document is ready. -/
def markReady (h : Host) : Host :=
  (List.range h.sessions.length).foldl wakeWaiting { h with document := h.document.markReady }

end CopyControl.Host
