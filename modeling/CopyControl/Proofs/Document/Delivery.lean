import CopyControl.Proofs.Document.Reports

/-!
Delivery: every observer gets exactly the records that are for it, once and in order.

A step of a run either puts records out or does something to observers, and for one observer it is
accounted for as an equation: what it is handed in the step, followed by what is queued after it,
is what was queued before it, followed by the records of the step that are for it
(`handed_append_queued`). The run is the sum of its steps (`handedOut_append_queued`). How long the
equation holds is how long the observer is registered (`isRegistered_runAll_iff`).

* §1 one record
* §2 one step
* §3 a run
-/

namespace CopyControl

/-- The records of a poll. -/
def Poll.records : Poll → List MutationRecord
  | .batch rs => rs
  | .pending | .closed => []

namespace Operation

/-- What an operation hands out to the subscriber of `o`. -/
def handed (o : ObserverId) : Operation → Document → List MutationRecord
  | takeRecords o', d => if o' = o then (d.takeRecords o').1 else []
  | nextBatch o', d => if o' = o then (d.nextBatch o').1.records else []
  | _, _ => []

/-- What an operation that is not on nodes does to the mailbox of `o`. -/
def onMailbox (o : ObserverId) : Operation → Mailbox → Mailbox
  | takeRecords o', m | nextBatch o', m => if o' = o then { m with queue := [] } else m
  | dropSubscription o', m => if o' = o then ⟨[], false⟩ else m
  | _, m => m

/-- What a run hands out to the subscriber of `o`. -/
def handedOut (o : ObserverId) : List Operation → Document → List MutationRecord
  | [], _ => []
  | op :: ops, d => op.handed o d ++ handedOut o ops (op.run d)

/-- The records that a run puts out. -/
def allEmissions : List Operation → Document → List Emission
  | [], _ => []
  | op :: ops, d => op.emissions d ++ allEmissions ops (op.run d)

/-- The records that a run puts out while `o` is registered. -/
def emissionsWhile (o : ObserverId) : List Operation → Document → List Emission
  | [], _ => []
  | op :: ops, d =>
    if d.isRegistered o then op.emissions d ++ emissionsWhile o ops (op.run d) else []

end Operation

namespace Document

variable {d d' : Document} {o : ObserverId} {target : NodeId} {subtree : Bool}

/-! ## §1 One record -/

/-- The registrations that `o` has: at most one, as it turns out. -/
def registrationsOf (d : Document) (o : ObserverId) : List Registration :=
  d.observers.filter (·.id = o)

theorem isRegistered_iff : d.isRegistered o ↔ d.registrationsOf o ≠ [] := by
  simp [isRegistered, registrationsOf]

/-- A mailbox that listens gets a record as often as it is addressed. -/
theorem getElem?_foldl_post_eq (r : MutationRecord) (boxes : Array Mailbox)
    (ids : List ObserverId) :
    (ids.foldl (post r) boxes)[o]? = boxes[o]?.map fun m =>
      if m.listening then { m with queue := m.queue ++ List.replicate (ids.count o) r } else m := by
  induction ids generalizing boxes with
  | nil =>
    simp only [List.foldl_nil, List.count_nil, List.replicate_zero, List.append_nil, ite_self,
      Option.map_id']
  | cons i ids ih =>
    rw [List.foldl_cons, ih, post, Array.getElem?_modify]
    by_cases hio : i = o
    · subst hio
      cases boxes[i]? with
      | none => simp
      | some m => cases hm : m.listening <;> simp [hm, List.replicate_succ]
    · simp [hio]

/-- How often a record addresses `o`. -/
theorem count_interested (d : Document) (o : ObserverId) (x : NodeId) :
    ((d.observers.filter (d.watches · x)).map (·.id)).count o =
      ((d.registrationsOf o).filter (d.watches · x)).length := by
  rw [List.count_eq_countP, List.countP_map, List.countP_filter, registrationsOf,
    List.filter_filter, ← List.countP_eq_length_filter]
  refine List.countP_congr fun g _ => ?_
  simp [and_comm]

theorem mailbox_notify (d : Document) (r : MutationRecord) (o : ObserverId) :
    (d.notify r).mailboxes[o]? = d.mailboxes[o]?.map fun m =>
      if m.listening then
        { m with queue := m.queue ++
            List.replicate ((d.registrationsOf o).filter (d.watches · r.target)).length r }
      else m := by
  rw [mailboxes_notify, getElem?_foldl_post_eq, count_interested]

theorem isListening_notify (d : Document) (r : MutationRecord) (o : ObserverId) :
    (d.notify r).isListening o = d.isListening o := by
  rw [isListening, mailbox_notify, isListening]
  cases d.mailboxes[o]? with
  | none => rfl
  | some m => cases hm : m.listening <;> simp [hm]

theorem queued_notify (d : Document) (r : MutationRecord) (o : ObserverId) :
    (d.notify r).queued o = d.queued o ++
      if d.isListening o then
        List.replicate ((d.registrationsOf o).filter (d.watches · r.target)).length r
      else [] := by
  rw [queued, mailbox_notify, queued, isListening]
  cases d.mailboxes[o]? with
  | none => rfl
  | some m => cases hm : m.listening <;> simp [hm]

/-- A registration goes with the first record for it that nobody listens to. -/
theorem registrationsOf_notify (d : Document) (r : MutationRecord) (o : ObserverId) :
    (d.notify r).registrationsOf o =
      if !d.isListening o && (d.registrationsOf o).any (d.watches · r.target) then []
      else d.registrationsOf o := by
  have hany : (((d.observers.filter (d.watches · r.target)).map (·.id)).contains o) =
      (d.registrationsOf o).any (d.watches · r.target) := by
    rw [Bool.eq_iff_iff]
    simp [registrationsOf, and_comm, and_left_comm]
  unfold notify
  split
  · rename_i h
    simp [registrationsOf, List.isEmpty_iff.mp h]
  · rw [← hany, registrationsOf, registrationsOf, List.filter_filter]
    -- of the registrations with this id all stay, or none does
    rw [List.filter_congr (q := fun g => g.id = o &&
      !(((d.observers.filter (d.watches · r.target)).map (·.id)).contains o &&
        !d.isListening o)) fun g _ => ?_]
    · split
      · rename_i h
        rw [Bool.and_comm, h]
        simp
      · rename_i h
        rw [Bool.and_comm, Bool.eq_false_iff.mpr h]
        simp
    · by_cases hid : g.id = o
      · simp [hid]
      · simp [hid]

/-- Who watches neither a node nor anything above it is not told of the node. -/
theorem watches_eq_false {g : Registration} {x : NodeId} (h : ¬ d.AtOrAbove g.target x) :
    d.watches g x = false := by
  have hne : g.target ≠ x := fun heq => h (heq ▸ .refl)
  have hanc : d.isInclusiveAncestor g.target x = false := by
    rw [Bool.eq_false_iff]
    intro ha
    exact h (atOrAbove_of_mem_climb (List.contains_iff_mem.mp ha))
  simp [watches, hne, hanc]

/-- The observer is registered as it was, and its mailbox is what it was. -/
structure Untold (d d' : Document) (o : ObserverId) : Prop where
  registrations : d'.registrationsOf o = d.registrationsOf o
  mailbox : d'.mailboxes[o]? = d.mailboxes[o]?

theorem Untold.trans {d'' : Document} (h : d.Untold d' o) (h' : d'.Untold d'' o) :
    d.Untold d'' o :=
  ⟨h'.registrations.trans h.registrations, h'.mailbox.trans h.mailbox⟩

theorem untold_notify {r : MutationRecord}
    (h : ∀ g ∈ d.registrationsOf o, d.watches g r.target = false) : d.Untold (d.notify r) o := by
  have hnone : (d.registrationsOf o).filter (d.watches · r.target) = [] := by
    rw [List.filter_eq_nil_iff]
    intro g hg
    simp [h g hg]
  have hany : (d.registrationsOf o).any (d.watches · r.target) = false := by
    rw [List.any_eq_false]
    intro g hg
    simp [h g hg]
  constructor
  · simp [registrationsOf_notify, hany]
  · simp [mailbox_notify, hnone]

/-! ## §2 One step -/

/-- The observer `o` has been registered for `target`, and it may be so still. -/
structure Knows (d : Document) (o : ObserverId) (target : NodeId) (subtree : Bool) : Prop where
  mailbox : (d.mailboxes[o]?).isSome
  registrations :
    d.registrationsOf o = [⟨o, target, subtree⟩] ∨ d.registrationsOf o = []

theorem watches_eq_isFor (e : Emission) (o : ObserverId) (target : NodeId) (subtree : Bool) :
    e.document.watches ⟨o, target, subtree⟩ e.record.target = e.isFor target subtree := by
  simp [watches, Emission.isFor, eq_comm]

theorem registrationsOf_congr (h : d.SameObservers d') :
    d'.registrationsOf o = d.registrationsOf o := by
  rw [registrationsOf, h.1, registrationsOf]

theorem mailbox_congr (h : d.SameObservers d') : d'.mailboxes[o]? = d.mailboxes[o]? := by
  rw [h.2]

theorem SameObservers.untold (h : d.SameObservers d') : d.Untold d' o :=
  ⟨registrationsOf_congr h, mailbox_congr h⟩

theorem isListening_congr (h : d.SameObservers d') : d'.isListening o = d.isListening o := by
  rw [isListening, mailbox_congr h, isListening]

theorem isRegistered_congr (h : d.SameObservers d') : d'.isRegistered o = d.isRegistered o := by
  rw [isRegistered, h.1, isRegistered]

theorem queued_congr (h : d.SameObservers d') : d'.queued o = d.queued o := by
  rw [queued, mailbox_congr h, queued]

theorem Knows.congr (hk : d.Knows o target subtree) (h : d.SameObservers d') :
    d'.Knows o target subtree :=
  ⟨by rw [mailbox_congr h]; exact hk.mailbox,
    by rw [registrationsOf_congr h]; exact hk.registrations⟩

theorem isRegistered_eq_false_iff : d.isRegistered o = false ↔ d.registrationsOf o = [] := by
  rw [← Bool.not_eq_true, isRegistered_iff, not_not]

theorem isRegistered_of_registrationsOf {g : Registration} (h : d.registrationsOf o = [g]) :
    d.isRegistered o :=
  isRegistered_iff.mpr (by simp [h])

section emission
variable {e : Emission} (hk : e.document.Knows o target subtree)
include hk

theorem Knows.registrationsOf_notify :
    (e.document.notify e.record).registrationsOf o =
      if !e.document.isListening o && e.isFor target subtree then []
      else e.document.registrationsOf o := by
  rw [Document.registrationsOf_notify]
  rcases hk.registrations with h | h <;> simp [h, watches_eq_isFor]

theorem Knows.queued_notify :
    (e.document.notify e.record).queued o = e.document.queued o ++
      if e.document.isListening o && e.document.isRegistered o && e.isFor target subtree then
        [e.record]
      else [] := by
  rw [Document.queued_notify]
  rcases hk.registrations with h | h
  · rw [isRegistered_of_registrationsOf h, h, List.filter_singleton, watches_eq_isFor]
    cases e.document.isListening o <;> cases e.isFor target subtree <;> rfl
  · simp [isRegistered_eq_false_iff.mpr h, h]

theorem Knows.notify : (e.document.notify e.record).Knows o target subtree := by
  refine ⟨by rw [mailbox_notify, Option.isSome_map]; exact hk.mailbox, ?_⟩
  rw [hk.registrationsOf_notify]
  split
  · exact .inr rfl
  · exact hk.registrations

end emission

section reports
variable {es : List Emission}

theorem Reports.isListening_eq (h : Reports d es d') (o : ObserverId) :
    d'.isListening o = d.isListening o := by
  induction h with
  | same hs => exact isListening_congr hs
  | tell hs _ ih => rw [ih, isListening_notify, isListening_congr hs]

theorem Reports.knows (h : Reports d es d') (hk : d.Knows o target subtree) :
    d'.Knows o target subtree := by
  induction h with
  | same hs => exact hk.congr hs
  | tell hs _ ih => exact ih (hk.congr hs).notify

/-- The registration goes if something is put out for it and nobody listens. -/
theorem Reports.registrationsOf_eq (h : Reports d es d') (hk : d.Knows o target subtree) :
    d'.registrationsOf o =
      if !d.isListening o && es.any (·.isFor target subtree) then [] else d.registrationsOf o := by
  induction h with
  | same hs => simpa using registrationsOf_congr hs
  | @tell d d' e es hs _ ih =>
    have hk' := hk.congr hs
    rw [ih hk'.notify, isListening_notify, hk'.registrationsOf_notify, isListening_congr hs,
      registrationsOf_congr hs, List.any_cons]
    cases d.isListening o <;> cases e.isFor target subtree <;> simp

/-- What is put out for the observer is queued for it, as long as somebody listens. -/
theorem Reports.queued_eq (h : Reports d es d') (hk : d.Knows o target subtree) :
    d'.queued o = d.queued o ++
      if d.isListening o && d.isRegistered o then
        (es.filter (·.isFor target subtree)).map (·.record)
      else [] := by
  induction h with
  | same hs => simpa using queued_congr hs
  | @tell d d' e es hs _ ih =>
    have hk' := hk.congr hs
    have hreg : d.isListening o → (e.document.notify e.record).isRegistered o =
        d.isRegistered o := by
      intro hl
      rw [Bool.eq_iff_iff, isRegistered_iff, isRegistered_iff, hk'.registrationsOf_notify,
        isListening_congr hs, registrationsOf_congr hs]
      simp [hl]
    rw [ih hk'.notify, isListening_notify, hk'.queued_notify, isListening_congr hs,
      queued_congr hs, isRegistered_congr hs, List.append_assoc]
    cases hl : d.isListening o with
    | false => simp
    | true =>
      rw [hreg hl]
      cases d.isRegistered o <;> cases he : e.isFor target subtree <;> simp [he]

end reports

section step
variable {op : Operation} (hk : d.Knows o target subtree)

theorem handed_of_onNodes (ho : op.OnNodes) (d : Document) : op.handed o d = [] := by
  cases op with
  | takeRecords | nextBatch => exact ho.elim
  | _ => rfl

/-- A poll hands out all that is queued, and so do records that are taken. -/
theorem nextBatch_eq (d : Document) (o : ObserverId) :
    d.nextBatch o =
      (if d.queued o = [] then if d.isRegistered o then .pending else .closed
        else .batch (d.queued o),
       if d.queued o = [] then d else (d.takeRecords o).2) := by
  unfold nextBatch
  cases h : d.queued o <;> rfl

theorem ne_nil_of_nextBatch {rs : List MutationRecord} (h : (d.nextBatch o).1 = .batch rs) :
    rs ≠ [] := by
  rw [nextBatch_eq] at h
  by_cases hq : d.queued o = []
  · cases hr : d.isRegistered o <;> simp [hq, hr] at h
  · simp only [hq, if_false, Poll.batch.injEq] at h
    rwa [← h]

/-- A poll finds the observer closed when it is gone and nothing is left. -/
theorem nextBatch_closed_iff :
    (d.nextBatch o).1 = .closed ↔ d.isRegistered o = false ∧ d.queued o = [] := by
  rw [nextBatch_eq]
  by_cases hq : d.queued o = []
  · cases hr : d.isRegistered o <;> simp [hq]
  · simp [hq]

theorem records_nextBatch (d : Document) (o : ObserverId) :
    (d.nextBatch o).1.records = d.queued o := by
  rw [nextBatch_eq]
  by_cases h : d.queued o = []
  · simp only [h, if_true]
    split <;> rfl
  · simp only [h, if_false]
    rfl

include hk in
theorem Knows.lt_size : o < d.mailboxes.size := by
  simpa using hk.mailbox

/-- What an operation that is not on nodes does to the mailbox of an observer. -/
theorem mailbox_run (ho : ¬ op.OnNodes) {m : Mailbox} (hm : d.mailboxes[o]? = some m) :
    (op.run d).mailboxes[o]? = some (op.onMailbox o m) := by
  cases op with
  | observe t s =>
    have hne : o ≠ d.mailboxes.size := by
      rintro rfl
      simp at hm
    simp [Operation.run, Operation.onMailbox, observe, Array.getElem?_push, hne, hm]
  | disconnect | markReady => exact hm
  | takeRecords o' =>
    by_cases h : o' = o <;>
      simp [Operation.run, Operation.onMailbox, takeRecords, Array.getElem?_modify, h, hm]
  | nextBatch o' =>
    by_cases hq : d.queued o' = []
    · by_cases h : o' = o
      · subst h
        have hnil : m.queue = [] := by simpa [queued, hm] using hq
        simp [Operation.run, Operation.onMailbox, nextBatch_eq, hq, hm, ← hnil]
      · simp [Operation.run, Operation.onMailbox, nextBatch_eq, hq, hm, h]
    · simp only [Operation.run, nextBatch_eq, if_neg hq]
      by_cases h : o' = o <;>
        simp [Operation.onMailbox, takeRecords, Array.getElem?_modify, h, hm]
  | dropSubscription o' =>
    by_cases h : o' = o <;>
      simp [Operation.run, Operation.onMailbox, dropSubscription, Array.getElem?_modify, h, hm]
  | _ => exact absurd trivial ho

include hk in
/-- The records of a step are handed out or queued, unless the subscriber goes away. -/
theorem handed_append_queued (hw : d.WellFormed) (hop : op ≠ .dropSubscription o) :
    op.handed o d ++ (op.run d).queued o = d.queued o ++
      if d.isListening o && d.isRegistered o then
        ((op.emissions d).filter (·.isFor target subtree)).map (·.record)
      else [] := by
  by_cases ho : op.OnNodes
  · rw [handed_of_onNodes ho, List.nil_append]
    exact (emits_run hw op ho).reports.queued_eq hk
  rw [emissions_of_not_onNodes ho, List.filter_nil, List.map_nil, ite_self, List.append_nil]
  obtain ⟨m, hm⟩ := Option.isSome_iff_exists.mp hk.mailbox
  have hq : d.queued o = m.queue := by simp [queued, hm]
  have hq' : (op.run d).queued o = (op.onMailbox o m).queue := by
    simp [queued, mailbox_run ho hm]
  rw [hq, hq']
  cases op with
  | takeRecords o' =>
    by_cases h : o' = o <;> simp [Operation.handed, Operation.onMailbox, h, takeRecords, hq]
  | nextBatch o' =>
    by_cases h : o' = o <;>
      simp [Operation.handed, Operation.onMailbox, h, records_nextBatch, hq]
  | dropSubscription o' =>
    have : o' ≠ o := fun h => hop (by rw [h])
    simp [Operation.handed, Operation.onMailbox, this]
  | _ => rfl

include hk in
/-- The subscriber listens until it goes away. -/
theorem isListening_run (hw : d.WellFormed) (op : Operation) :
    (op.run d).isListening o = (d.isListening o && op ≠ .dropSubscription o) := by
  by_cases ho : op.OnNodes
  · have : op ≠ .dropSubscription o := by
      rintro rfl
      exact ho
    simp [(emits_run hw op ho).reports.isListening_eq, this]
  obtain ⟨m, hm⟩ := Option.isSome_iff_exists.mp hk.mailbox
  simp only [isListening, mailbox_run ho hm, hm, Option.map_some, Option.getD_some]
  cases op with
  | takeRecords o' | nextBatch o' | dropSubscription o' =>
    by_cases h : o' = o <;> simp [Operation.onMailbox, h]
  | _ => simp [Operation.onMailbox]

include hk in
/-- A registration goes when it is disconnected, or when something is put out for it and its
subscriber has gone away; nothing else removes it. -/
theorem registrationsOf_run (hw : d.WellFormed) (op : Operation) :
    (op.run d).registrationsOf o =
      if op = .disconnect o ∨
          !d.isListening o ∧ (op.emissions d).any (·.isFor target subtree) then []
      else d.registrationsOf o := by
  by_cases ho : op.OnNodes
  · have : op ≠ .disconnect o := by
      rintro rfl
      exact ho
    rw [(emits_run hw op ho).reports.registrationsOf_eq hk]
    simp [this]
  rw [emissions_of_not_onNodes ho, List.any_nil]
  cases op with
  | observe t s =>
    have hne : d.mailboxes.size ≠ o := (Nat.ne_of_lt hk.lt_size).symm
    simp [Operation.run, observe, registrationsOf, hne]
  | disconnect o' =>
    simp only [Operation.run, disconnect, registrationsOf, List.filter_filter]
    by_cases h : o' = o
    · simp [h]
    · simp only [Operation.disconnect.injEq, h, Bool.false_eq_true, and_false, or_self, if_false]
      refine List.filter_congr fun g _ => ?_
      by_cases hg : g.id = o <;> simp [hg, Ne.symm h]
  | nextBatch o' =>
    simp only [Operation.run, nextBatch_eq]
    split <;> simp [registrationsOf, takeRecords]
  | takeRecords | dropSubscription | markReady =>
    simp [Operation.run, registrationsOf, takeRecords, dropSubscription, markReady]
  | _ => exact absurd trivial ho

include hk in
theorem Knows.run (hw : d.WellFormed) (op : Operation) : (op.run d).Knows o target subtree := by
  by_cases ho : op.OnNodes
  · exact (emits_run hw op ho).reports.knows hk
  obtain ⟨m, hm⟩ := Option.isSome_iff_exists.mp hk.mailbox
  refine ⟨by rw [mailbox_run ho hm]; rfl, ?_⟩
  rw [registrationsOf_run hk hw]
  split
  · exact .inr rfl
  · exact hk.registrations

end step

/-! ## §3 A run -/

/-- Who is registered has a mailbox. -/
def Housed (d : Document) : Prop :=
  ∀ g ∈ d.observers, (d.mailboxes[g.id]?).isSome

theorem Housed.notify (hd : d.Housed) (r : MutationRecord) : (d.notify r).Housed := by
  intro g hg
  rw [mailbox_notify, Option.isSome_map]
  refine hd g ?_
  unfold Document.notify at hg
  split at hg
  · exact hg
  · exact (List.mem_filter.mp hg).1

theorem Housed.congr (hd : d.Housed) (h : d.SameObservers d') : d'.Housed := by
  rw [Housed, h.1, h.2]
  exact hd

theorem Reports.housed {es : List Emission} (h : Reports d es d') (hd : d.Housed) :
    d'.Housed := by
  induction h with
  | same hs => exact hd.congr hs
  | tell hs _ ih => exact ih ((hd.congr hs).notify _)

theorem housed_run (hw : d.WellFormed) (hd : d.Housed) (op : Operation) : (op.run d).Housed := by
  by_cases hop : op.OnNodes
  · exact (emits_run hw op hop).reports.housed hd
  have hkeep : ∀ g ∈ d.observers, ((op.run d).mailboxes[g.id]?).isSome := fun g hg => by
    obtain ⟨m, hm⟩ := Option.isSome_iff_exists.mp (hd g hg)
    rw [mailbox_run hop hm]
    rfl
  intro g hg
  cases op with
  | observe t s =>
    rcases List.mem_append.mp hg with hg | hg
    · exact hkeep g hg
    · obtain rfl := List.mem_singleton.mp hg
      simp [Operation.run, observe]
  | disconnect o' => exact hkeep g (List.mem_filter.mp hg).1
  | nextBatch o' =>
    refine hkeep g ?_
    simp only [Operation.run, nextBatch_eq] at hg
    split at hg <;> exact hg
  | takeRecords | dropSubscription | markReady => exact hkeep g hg
  | _ => exact absurd trivial hop

theorem housed_runAll (hw : d.WellFormed) (hd : d.Housed) (ops : List Operation) :
    (Operation.runAll ops d).Housed := by
  induction ops generalizing d with
  | nil => exact hd
  | cons op ops ih => exact ih (wellFormed_run hw op) (housed_run hw hd op)

/-- A new observer has its one registration. -/
theorem registrationsOf_observe (hd : d.Housed) (target : NodeId) (subtree : Bool) :
    (d.observe target subtree).2.registrationsOf d.mailboxes.size =
      [⟨d.mailboxes.size, target, subtree⟩] := by
  have : d.observers.filter (·.id = d.mailboxes.size) = [] := by
    refine List.filter_eq_nil_iff.mpr fun g hg h => ?_
    have hlt := hd g hg
    rw [of_decide_eq_true h] at hlt
    simp at hlt
  simp [observe, registrationsOf, this]

theorem queued_takeRecords (d : Document) (o o' : ObserverId) :
    (d.takeRecords o').2.queued o = if o' = o then [] else d.queued o := by
  simp only [queued, takeRecords, Array.getElem?_modify]
  split
  · cases d.mailboxes[o]? <;> rfl
  · rfl

theorem queued_dropSubscription (d : Document) (o : ObserverId) :
    (d.dropSubscription o).queued o = [] := by
  rw [queued, dropSubscription, Array.getElem?_modify, if_pos rfl]
  cases d.mailboxes[o]? <;> rfl

theorem isListening_dropSubscription (d : Document) (o : ObserverId) :
    (d.dropSubscription o).isListening o = false := by
  rw [isListening, dropSubscription, Array.getElem?_modify, if_pos rfl]
  cases d.mailboxes[o]? <;> rfl

theorem knows_observe (hd : d.Housed) (target : NodeId) (subtree : Bool) :
    (d.observe target subtree).2.Knows d.mailboxes.size target subtree :=
  ⟨by simp [observe], .inl (registrationsOf_observe hd target subtree)⟩

/-- Nothing counts as put out for an observer that is not registered. -/
theorem emissionsWhile_of_unregistered (h : d.isRegistered o = false) (ops : List Operation) :
    Operation.emissionsWhile o ops d = [] := by
  cases ops with
  | nil => rfl
  | cons op ops => simp [Operation.emissionsWhile, h]

theorem wellFormed_of_mem_allEmissions (hw : d.WellFormed) {ops : List Operation} {e : Emission}
    (he : e ∈ Operation.allEmissions ops d) : e.document.WellFormed := by
  induction ops generalizing d with
  | nil => simp [Operation.allEmissions] at he
  | cons op ops ih =>
    rcases List.mem_append.mp he with he | he
    · by_cases ho : op.OnNodes
      · exact (emits_run hw op ho).wellFormed_of_mem hw he
      · simp [emissions_of_not_onNodes ho] at he
    · exact ih (wellFormed_run hw op) he

section run
variable {ops : List Operation} (hw : d.WellFormed) (hk : d.Knows o target subtree)
include hw hk

theorem isRegistered_run (op : Operation) :
    (op.run d).isRegistered o ↔ d.isRegistered o ∧ op ≠ .disconnect o ∧
      (d.isListening o ∨ ∀ e ∈ op.emissions d, ¬ e.isFor target subtree) := by
  rw [isRegistered_iff, isRegistered_iff, registrationsOf_run hk hw]
  by_cases hop : op = .disconnect o
  · simp [hop]
  · have hany : (∀ e ∈ op.emissions d, ¬ e.isFor target subtree) ↔
        ¬ (op.emissions d).any (·.isFor target subtree) := by simp
    rw [hany]
    cases d.isListening o <;> cases (op.emissions d).any (·.isFor target subtree) <;> simp [hop]

/-- An observer that listens is registered until it is disconnected. -/
theorem isRegistered_runAll_of_listening (hl : d.isListening o)
    (hops : .dropSubscription o ∉ ops) :
    (Operation.runAll ops d).isListening o ∧
      ((Operation.runAll ops d).isRegistered o ↔ d.isRegistered o ∧ .disconnect o ∉ ops) := by
  induction ops generalizing d with
  | nil => simpa [Operation.runAll] using hl
  | cons op ops ih =>
    obtain ⟨hop, hops⟩ := not_or.mp (List.mem_cons.not.mp hops)
    have hl' : (op.run d).isListening o := by
      rw [isListening_run hk hw, hl]
      simpa using Ne.symm hop
    obtain ⟨hl'', h⟩ := ih (wellFormed_run hw op) (hk.run hw op) hl' hops
    refine ⟨hl'', ?_⟩
    rw [Operation.runAll_cons, h, isRegistered_run hw hk, List.mem_cons, not_or]
    simp only [hl, true_or, and_true, and_assoc, ne_eq, @eq_comm _ op]

/-- One whose subscriber is gone is registered until it is disconnected or something is put out
for it. -/
theorem isRegistered_runAll_of_not_listening (hl : d.isListening o = false) :
    (Operation.runAll ops d).isRegistered o ↔ d.isRegistered o ∧ .disconnect o ∉ ops ∧
      ∀ e ∈ Operation.allEmissions ops d, ¬ e.isFor target subtree := by
  induction ops generalizing d with
  | nil => simp [Operation.runAll, Operation.allEmissions]
  | cons op ops ih =>
    have hl' : (op.run d).isListening o = false := by simp [isListening_run hk hw, hl]
    rw [Operation.runAll_cons, ih (wellFormed_run hw op) (hk.run hw op) hl',
      isRegistered_run hw hk, Operation.allEmissions, List.forall_mem_append, List.mem_cons, not_or]
    simp only [hl, Bool.false_eq_true, false_or, ne_eq, @eq_comm _ op]
    tauto

/-- What has been handed out, followed by what is queued, is what was put out. -/
theorem handedOut_append_queued (hl : d.isListening o) (hops : .dropSubscription o ∉ ops) :
    Operation.handedOut o ops d ++ (Operation.runAll ops d).queued o = d.queued o ++
      ((Operation.emissionsWhile o ops d).filter (·.isFor target subtree)).map (·.record) := by
  induction ops generalizing d with
  | nil => simp [Operation.handedOut, Operation.emissionsWhile, Operation.runAll]
  | cons op ops ih =>
    obtain ⟨hop, hops⟩ := not_or.mp (List.mem_cons.not.mp hops)
    have hl' : (op.run d).isListening o := by
      rw [isListening_run hk hw, hl]
      simpa using Ne.symm hop
    have hstep := handed_append_queued hk hw (Ne.symm hop)
    rw [Operation.handedOut, Operation.runAll_cons, List.append_assoc,
      ih (wellFormed_run hw op) (hk.run hw op) hl' hops, ← List.append_assoc, hstep,
      List.append_assoc, hl, Bool.true_and, Operation.emissionsWhile]
    cases hr : d.isRegistered o with
    | true => simp
    | false =>
      have : (op.run d).isRegistered o = false := by
        rw [← Bool.not_eq_true, isRegistered_run hw hk]
        simp [hr]
      simp [emissionsWhile_of_unregistered this]

/-- A subscriber that has gone away gets nothing. -/
theorem nothing_after_drop (hl : d.isListening o = false) (hq : d.queued o = [])
    (ops : List Operation) :
    Operation.handedOut o ops d = [] ∧ (Operation.runAll ops d).queued o = [] := by
  induction ops generalizing d with
  | nil => exact ⟨rfl, hq⟩
  | cons op ops ih =>
    have hl' : (op.run d).isListening o = false := by simp [isListening_run hk hw, hl]
    have hstep : op.handed o d ++ (op.run d).queued o = [] := by
      by_cases hop : op = .dropSubscription o
      · subst hop
        exact queued_dropSubscription d o
      · simp [handed_append_queued hk hw hop, hl, hq]
    obtain ⟨hh, hq'⟩ := List.append_eq_nil_iff.mp hstep
    obtain ⟨h, h'⟩ := ih (wellFormed_run hw op) (hk.run hw op) hl' hq'
    exact ⟨by rw [Operation.handedOut, hh, h, List.nil_append], h'⟩

theorem knows_runAll (ops : List Operation) :
    (Operation.runAll ops d).Knows o target subtree := by
  induction ops generalizing d with
  | nil => exact hk
  | cons op ops ih => exact ih (wellFormed_run hw op) (hk.run hw op)

/-- From where the subscriber went away, the registration lasts as long as nobody disconnects it
and nothing is put out for it. -/
theorem isRegistered_after_drop (a b : List Operation) :
    (Operation.runAll (a ++ .dropSubscription o :: b) d).isRegistered o ↔
      (Operation.runAll a d).isRegistered o ∧ .disconnect o ∉ b ∧
        ∀ e ∈ Operation.allEmissions b (Operation.runAll (a ++ [.dropSubscription o]) d),
          ¬ e.isFor target subtree := by
  have hwa := wellFormed_runAll hw a
  have hka := knows_runAll hw hk a
  rw [Operation.runAll_append, Operation.runAll_cons, Operation.runAll_append]
  exact isRegistered_runAll_of_not_listening (wellFormed_run hwa (.dropSubscription o))
    (hka.run hwa (.dropSubscription o)) (isListening_dropSubscription _ o)

theorem isRegistered_runAll_iff (hl : d.isListening o) :
    (Operation.runAll ops d).isRegistered o ↔ d.isRegistered o ∧ .disconnect o ∉ ops ∧
      ∀ a b, ops = a ++ .dropSubscription o :: b →
        ∀ e ∈ Operation.allEmissions b (Operation.runAll (a ++ [.dropSubscription o]) d),
          ¬ e.isFor target subtree := by
  by_cases hops : .dropSubscription o ∈ ops
  · obtain ⟨a, b, rfl, ha⟩ := List.eq_append_cons_of_mem hops
    have hreg := (isRegistered_runAll_of_listening hw hk hl ha).2
    constructor
    · intro h
      have hab := (isRegistered_after_drop hw hk a b).mp h
      obtain ⟨hr, hd⟩ := hreg.mp hab.1
      refine ⟨hr, ?_, fun a' b' hab' => ?_⟩
      · simpa [hd] using hab.2.1
      · rw [hab'] at h
        exact ((isRegistered_after_drop hw hk a' b').mp h).2.2
    · rintro ⟨hr, hd, hno⟩
      simp only [List.mem_append, List.mem_cons, reduceCtorEq, false_or, not_or] at hd
      exact (isRegistered_after_drop hw hk a b).mpr ⟨hreg.mpr ⟨hr, hd.1⟩, hd.2, hno a b rfl⟩
  · rw [(isRegistered_runAll_of_listening hw hk hl hops).2]
    refine and_congr_right fun _ => (and_iff_left fun a b hab => ?_).symm
    simp [hab] at hops

end run

theorem handedOut_append (o : ObserverId) (a b : List Operation) (d : Document) :
    Operation.handedOut o (a ++ b) d =
      Operation.handedOut o a d ++ Operation.handedOut o b (Operation.runAll a d) := by
  induction a generalizing d with
  | nil => rfl
  | cons op a ih =>
    rw [List.cons_append, Operation.handedOut, ih, Operation.handedOut, List.append_assoc,
      Operation.runAll_cons]

/-- **Delivery.** Over any run of operations, a subscription hands out, or still has queued, exactly
the records that were put out for it while it was registered, each once and in order. It is
registered until it is disconnected or until, after the subscriber has gone away, a record is put
out for it. -/
theorem delivered_runAll (before after : List Operation) (target : NodeId) (subtree : Bool) :
    let d := Operation.runAll before new
    let o := (d.observe target subtree).1
    let d₀ := (d.observe target subtree).2
    let d' := Operation.runAll after d₀
    -- what the subscriber gets
    (.dropSubscription o ∉ after →
      Operation.handedOut o after d₀ ++ d'.queued o =
        ((Operation.emissionsWhile o after d₀).filter (·.isFor target subtree)).map (·.record)) ∧
    (∀ a b, after = a ++ .dropSubscription o :: b →
      Operation.handedOut o after d₀ = Operation.handedOut o a d₀ ∧ d'.queued o = []) ∧
    -- which records are for it
    (∀ e ∈ Operation.allEmissions after d₀, e.isFor target subtree ↔
      e.record.target = target ∨ subtree ∧ e.document.AtOrAbove target e.record.target) ∧
    -- how long it is registered
    (d'.isRegistered o ↔ .disconnect o ∉ after ∧ ∀ a b, after = a ++ .dropSubscription o :: b →
      ∀ e ∈ Operation.allEmissions b (Operation.runAll (a ++ [.dropSubscription o]) d₀),
        ¬ e.isFor target subtree) ∧
    -- what a poll finds
    (∀ rs, (d'.nextBatch o).1 = .batch rs → rs ≠ []) ∧
    ((d'.nextBatch o).1 = .closed ↔ d'.isRegistered o = false ∧ d'.queued o = []) := by
  intro d o d₀ d'
  have hw : d.WellFormed := wellFormed_runAll wellFormed_new before
  have hd : d.Housed := housed_runAll wellFormed_new (by simp [Housed, new]) before
  have hw₀ : d₀.WellFormed := wellFormed_run hw (.observe target subtree)
  have hk₀ : d₀.Knows o target subtree := knows_observe hd target subtree
  have hl₀ : d₀.isListening o := by simp [d₀, o, observe, isListening]
  have hq₀ : d₀.queued o = [] := by simp [d₀, o, observe, queued]
  have hr₀ : d₀.isRegistered o :=
    isRegistered_of_registrationsOf (registrationsOf_observe hd target subtree)
  refine ⟨fun hafter => ?_, fun a b hab => ?_, fun e he => ?_, ?_, fun rs hrs => ?_, ?_⟩
  · rw [handedOut_append_queued hw₀ hk₀ hl₀ hafter, hq₀, List.nil_append]
  · have hwa := wellFormed_runAll hw₀ a
    obtain ⟨hh, hq⟩ := nothing_after_drop (wellFormed_run hwa (.dropSubscription o))
      ((knows_runAll hw₀ hk₀ a).run hwa (.dropSubscription o))
      (isListening_dropSubscription _ o) (queued_dropSubscription _ o) b
    refine ⟨?_, ?_⟩
    · rw [hab, handedOut_append, Operation.handedOut, hh]
      simp [Operation.handed]
    · show (Operation.runAll after d₀).queued o = []
      rw [hab, Operation.runAll_append]
      exact hq
  · exact Emission.isFor_iff (wellFormed_of_mem_allEmissions hw₀ he)
  · rw [isRegistered_runAll_iff hw₀ hk₀ hl₀, and_iff_right hr₀]
  · exact ne_nil_of_nextBatch hrs
  · exact nextBatch_closed_iff

/-- Two observers of `body` and all below it: the first subscriber goes away, and its registration
with the next record, while the second polls, is handed the rest, and is disconnected. -/
theorem delivered_runAll_twoObservers :
    let before : List Operation := [.observe new.body true]
    let after : List Operation :=
      [.appendText new.body "a", .dropSubscription 0, .nextBatch 1, .appendText new.body "b",
        .takeRecords 0, .disconnect 1, .appendText new.body "c", .nextBatch 1]
    let d₀ := ((Operation.runAll before new).observe new.body true).2
    .dropSubscription 1 ∉ after ∧
    Operation.handedOut 1 after d₀ ++ (Operation.runAll after d₀).queued 1 =
      ((Operation.emissionsWhile 1 after d₀).filter (·.isFor new.body true)).map (·.record) ∧
    Operation.handedOut 1 after d₀ =
      [.ofAdded new.body ⟨3, 0⟩, .ofAdded new.body ⟨4, 0⟩] ∧
    (Operation.allEmissions after d₀).map (·.record) =
      [.ofAdded new.body ⟨3, 0⟩, .ofAdded new.body ⟨4, 0⟩, .ofAdded new.body ⟨5, 0⟩] ∧
    (Operation.runAll after d₀).observers = [] := by
  refine ⟨by decide, ?_, by decide +kernel, by decide +kernel, by decide +kernel⟩
  exact (delivered_runAll [.observe new.body true] _ new.body true).1 (by decide)

end Document

end CopyControl
