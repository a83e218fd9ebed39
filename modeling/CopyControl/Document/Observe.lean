import CopyControl.Document.Walk

/-!
Change observers.

A record goes to the mailbox of every registration that watches its target. A registration
whose subscriber has gone away is found out at the first record it would have got, and removed
then; `disconnect` removes one at once.
-/

namespace CopyControl

/-- What one poll for a batch of records finds. -/
inductive Poll where
  /-- Everything that was queued; never empty. -/
  | batch (records : List MutationRecord)
  /-- Nothing is queued yet. -/
  | pending
  /-- The observer is gone and its queue is drained. -/
  | closed
deriving DecidableEq, Repr, Inhabited

namespace MutationRecord

def ofAdded (target node : NodeId) : MutationRecord := ⟨target, [node], []⟩

def ofRemoved (target node : NodeId) : MutationRecord := ⟨target, [], [node]⟩

end MutationRecord

namespace Document

/-- Starts observing `target`; with `subtree`, also everything below it. -/
def observe (d : Document) (target : NodeId) (subtree : Bool) : ObserverId × Document :=
  (d.mailboxes.size,
    { d with
      observers := d.observers ++ [⟨d.mailboxes.size, target, subtree⟩]
      mailboxes := d.mailboxes.push ⟨[], true⟩ })

def disconnect (d : Document) (id : ObserverId) : Document :=
  { d with observers := d.observers.filter (·.id ≠ id) }

def isListening (d : Document) (id : ObserverId) : Bool :=
  ((d.mailboxes[id]?).map (·.listening)).getD false

def queued (d : Document) (id : ObserverId) : List MutationRecord :=
  ((d.mailboxes[id]?).map (·.queue)).getD []

/-- Whether a registration is told of changes to the children of `target`. -/
def watches (d : Document) (r : Registration) (target : NodeId) : Bool :=
  r.target = target || (r.subtree && d.isInclusiveAncestor r.target target)

/-- Queues a record for a subscriber that still listens. -/
def post (record : MutationRecord) (boxes : Array Mailbox) (id : ObserverId) : Array Mailbox :=
  boxes.modify id fun m => if m.listening then { m with queue := m.queue ++ [record] } else m

/-- Delivers a record to every registration that watches its target, and removes those whose
subscriber is gone. -/
def notify (d : Document) (record : MutationRecord) : Document :=
  if d.observers.isEmpty then d
  else
    let interested := (d.observers.filter (d.watches · record.target)).map (·.id)
    { d with
      mailboxes := interested.foldl (post record) d.mailboxes
      observers := d.observers.filter fun r =>
        !(interested.contains r.id && !d.isListening r.id) }

/-- Takes everything queued, without waiting. -/
def takeRecords (d : Document) (id : ObserverId) : List MutationRecord × Document :=
  (d.queued id, { d with mailboxes := d.mailboxes.modify id fun m => { m with queue := [] } })

/-- Whether the observer is still registered. -/
def isRegistered (d : Document) (id : ObserverId) : Bool :=
  d.observers.any (·.id = id)

/-- Asks once for the next batch: all that is queued, taken together. -/
def nextBatch (d : Document) (id : ObserverId) : Poll × Document :=
  match d.queued id with
  | [] => (if d.isRegistered id then .pending else .closed, d)
  | r :: rs => (.batch (r :: rs), (d.takeRecords id).2)

/-- The subscriber goes away with whatever was queued for it. -/
def dropSubscription (d : Document) (id : ObserverId) : Document :=
  { d with mailboxes := d.mailboxes.modify id fun _ => ⟨[], false⟩ }

end Document

end CopyControl
