import CopyControl.Host.Session

/-!
Running queued work, and letting time pass.

Whoever waits first lets everything that is queued run. Then the clock goes from timer to timer,
and whatever each of them queues is run, until the wait is over.
-/

namespace CopyControl.Host

/-- Runs a piece of work. -/
def run (h : Host) : Work → Host
  | .click number block control clipboard => h.beginClick number block control clipboard
  | .write _ block control clipboard text => (h.write block control clipboard text).2
  | .note _ text => { h with notes := text :: h.notes }
  | .armRevert control => h.setTimer Enhance.revertDelay (.revert control)
  | .revert control => h.showLabel control .copy
  | .attach session => h.attach session
  | .observe session => h.runObserver session

/-- Runs the first piece of queued work. -/
def step (h : Host) : Host :=
  match h.queue with
  | w :: rest => { h with queue := rest }.run w
  | [] => h

/-- Runs queued work, at most `n` pieces. -/
def runQueued (h : Host) : Nat → Host
  | 0 => h
  | n + 1 => if h.queue.isEmpty then h else h.step.runQueued n

/-- More than the pieces of work that can come of what is queued or under a timer: each can lead
to one that follows it, and wake every session twice. -/
def effort (h : Host) : Nat :=
  8 * (h.queue.length + h.timers.length + 1) * (h.sessions.length + 2)

/-- Lets everything that is queued run. -/
def settle (h : Host) : Host :=
  h.runQueued h.effort

/-- When the next timer is due. -/
def nextDue? (h : Host) : Option Nat :=
  (h.timers.map (·.due)).min?

/-- Goes on to a time and queues the work of the timers that are due, those set first first. -/
def fireTimers (h : Host) (time : Nat) : Host :=
  { h with
    now := time
    queue := h.queue ++ (h.timers.filter (·.due ≤ time)).map (·.work)
    timers := h.timers.filter (time < ·.due) }

/-- Lets time pass, through at most `n` times at which timers are due. -/
def passTo (h : Host) (time : Nat) : Nat → Host
  | 0 => { h with now := time }
  | n + 1 =>
    let h := h.settle
    match h.nextDue? with
    | some due =>
      if due ≤ time then (h.fireTimers due).passTo time n else { h with now := time }
    | none => { h with now := time }

/-- Waits for a number of milliseconds. -/
def sleep (h : Host) (ms : Nat) : Host :=
  h.passTo (h.now + ms) h.effort

/-- Whether work of a click is queued or under a timer. -/
def isClickPending (h : Host) (number : Nat) : Bool :=
  h.queue.any (·.click? = some number) || h.timers.any (·.work.click? = some number)

/-- Lets time pass until no work of a click is left, through at most `n` times. -/
def finishClick (h : Host) (number : Nat) : Nat → Host
  | 0 => h
  | n + 1 =>
    let h := h.settle
    match h.nextDue? with
    | some due =>
      if h.isClickPending number then (h.fireTimers due).finishClick number n else h
    | none => h

/-- Clicks a node and waits for all that its listeners do; answers how many there are. Without
listeners there is nothing to wait for. -/
def click (h : Host) (node : NodeId) : Nat × Host :=
  match h.dispatchClick node with
  | (0, h') => (0, h')
  | (n, h') => (n, h'.finishClick h.clicks h'.effort)

/-- Copies a block as a click on its control does, and waits for the outcome. -/
def copyNow (h : Host) (block control : NodeId) (clipboard : String) : ClickOutcome × Host :=
  let text := h.document.innerText block
  let h := match (h.clipboard clipboard).delay with
    | 0 => h
    | delay => h.sleep delay
  h.write block control clipboard text

/-- Begins to attach a session in the place of another, and gives it a moment. -/
def attachSession (h : Host) (clipboard : String) (former : Option Nat) : Nat × Host :=
  let (i, h) := h.beginSession clipboard
  let h := match former with
    | some j => h.abandonSession j
    | none => h
  (i, h.sleep 1)

end CopyControl.Host
