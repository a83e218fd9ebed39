import CopyControl.Proofs.Document.Registrations
import CopyControl.Proofs.Host.Effects
import CopyControl.Proofs.Host.Vigil

/-!
What an action does to sessions.

A session waits, observes and is closed. What an action can do to sessions and to observers is said
once, in seven cases (`leads_perform`): most work on nodes at most, one is an operation on observers
that somebody asks for, and the others take one session one step further. What holds in every run is
then shown for these cases.

* §1 the cases
* §2 every action is one of them
* §3 who is registered
-/

namespace CopyControl

open Document

/-! ## §1 The cases -/

/-- The identity that the operation answers, if the action is one. -/
def Action.subscribes : Action → Host → List ObserverId
  | operate op, h => op.subscribes h.document
  | _, _ => []

namespace Host

variable {h h' : Host} {a : Action} {new : List ObserverId}

/-- What an action can do to observers and to sessions, and the identities that it answers. -/
inductive Leads (h : Host) (a : Action) : List ObserverId → Host → Prop
  /-- It works on nodes at most, -/
  | tended {h' : Host} (hd : h.document.Tended h'.document) (hs : h'.sessions = h.sessions) :
      Leads h a [] h'
  /-- or on observers or the ready state, on somebody else's behalf. -/
  | notice {h' : Host} (op : Operation) (ho : ¬ op.OnNodes)
      (ha : a = .operate op ∨ a = .markReady ∧ op = .markReady)
      (hd : h'.document = op.run h.document) (hs : h'.sessions = h.sessions) :
      Leads h a (op.subscribes h.document) h'
  /-- A session begins to wait, -/
  | opened {h' : Host} (clipboard : String) (hd : h'.document = h.document)
      (hs : h'.sessions = h.sessions ++ [.waiting clipboard true]) : Leads h a [] h'
  /-- or is attached, in a document that is ready, -/
  | attached {h' : Host} (i : Nat) (clipboard : String) (d : Document)
      (hi : h.sessions[i]? = some (.waiting clipboard true)) (hr : h.document.ready = .complete)
      (ht : h.document.Tended d) (hd : h'.document = (d.observe d.body true).2)
      (hs : h'.sessions = h.sessions.set i (.observing clipboard d.mailboxes.size)) :
      Leads h a [] h'
  /-- and closed in the same step if nobody wants it. -/
  | unwanted {h' : Host} (i : Nat) (clipboard : String) (d : Document)
      (hi : h.sessions[i]? = some (.waiting clipboard false)) (hr : h.document.ready = .complete)
      (ht : h.document.Tended d)
      (hd : h'.document = (d.observe d.body true).2.disconnect d.mailboxes.size)
      (hs : h'.sessions = h.sessions.set i .closed) : Leads h a [] h'
  /-- An open session is closed, -/
  | closed {h' : Host} (i : Nat) (o : ObserverId) (hi : h.Observes i o)
      (hd : h'.document = h.document.disconnect o) (hs : h'.sessions = h.sessions.set i .closed) :
      Leads h a [] h'
  /-- and one that waits is given up, or goes on waiting for nobody. -/
  | waiting {h' : Host} (i : Nat) (clipboard : String) (wanted : Bool) (s : Session)
      (hi : h.sessions[i]? = some (.waiting clipboard wanted))
      (hn : s = .closed ∨ s = .waiting clipboard false)
      (hd : h'.document = h.document) (hs : h'.sessions = h.sessions.set i s) : Leads h a [] h'

/-! ## §2 Every action -/

theorem leads_same (hd : h'.document = h.document) (hs : h'.sessions = h.sessions) :
    h.Leads a [] h' :=
  .tended (hd ▸ .refl _) hs

theorem leads_label {control : NodeId} {l : ControlLabel} (hw : h.document.WellFormed)
    (hd : h'.document = ((setLabel control l).apply h.document).2)
    (hs : h'.sessions = h.sessions) : h.Leads a [] h' :=
  .tended (hd ▸ ((onlyChanges_setText control l.text) h.document hw).tended) hs

theorem sessions_write (h : Host) (block control : NodeId) (clipboard text : String) :
    (h.write block control clipboard text).2.sessions = h.sessions := by
  obtain ⟨h₁, -, hs, -, heq⟩ := h.write_eq block control clipboard text
  rw [heq, enqueue, (showLabel_spec h₁ control _).2.1, hs]

theorem sessions_beginClick (h : Host) (n : Nat) (block control : NodeId) (clipboard : String) :
    (h.beginClick n block control clipboard).sessions = h.sessions := by
  by_cases hd : (h.clipboard clipboard).delay = 0
  · rw [beginClick_of_prompt hd, sessions_write]
  · rw [beginClick_of_slow hd]
    rfl

theorem leads_beginClick (hw : h.document.WellFormed) (n : Nat) (block control : NodeId)
    (clipboard : String) : h.Leads a [] (h.beginClick n block control clipboard) := by
  have hs := sessions_beginClick h n block control clipboard
  rcases document_beginClick rfl n block control clipboard with hd | ⟨l, hd⟩
  · exact leads_same hd hs
  · exact leads_label hw hd hs

theorem tended_enhance (hw : h.document.WellFormed) (clipboard : String) :
    h.document.Tended (h.enhance clipboard).2.document := by
  rw [enhance_document]
  exact (changes_enhance hw clipboard).tended

theorem sessions_enhance (h : Host) (clipboard : String) :
    (h.enhance clipboard).2.sessions = h.sessions :=
  (h.pass clipboard).2.wake_spec.2.1

theorem tended_handleBatches (hw : h.document.WellFormed) (clipboard : String) (o : ObserverId)
    (n : Nat) : h.document.Tended (h.handleBatches clipboard o n).document := by
  induction n generalizing h with
  | zero => exact .refl _
  | succ n ih =>
    unfold handleBatches
    split
    · exact .refl _
    · exact .refl _
    · rename_i records d heq
      have ht := tended_nextBatch h.document o
      have hw' := wellFormed_run hw (.nextBatch o)
      rw [Operation.run, heq] at hw'
      rw [heq] at ht
      let h₁ : Host := { h with document := d }
      have hc := changes_enhance hw' clipboard
      exact (ht.trans hc.tended).trans
        (ih (h := ((h₁.record (batch records.length)).pass clipboard).2) (hc.wellFormed hw'))

theorem leads_runObserver (hw : h.document.WellFormed) (i : Nat) :
    h.Leads a [] (h.runObserver i) := by
  refine .tended ?_ (sessions_runObserver h i)
  unfold runObserver
  split
  · rw [(wake_spec _).1]
    exact tended_handleBatches hw _ _ _
  · exact .refl _

theorem leads_attach (hw : h.document.WellFormed) (i : Nat) : h.Leads a [] (h.attach i) := by
  cases hi : h.sessions[i]? with
  | none => exact leads_same (by rw [attach, hi]) (by rw [attach, hi])
  | some s =>
    cases s with
    | waiting clipboard wanted =>
      rw [attach_of_waiting hi]
      split
      case isFalse => exact leads_same rfl rfl
      case isTrue hr =>
        have ht := tended_enhance hw clipboard
        have hs := sessions_enhance h clipboard
        cases wanted with
        | true =>
          refine .attached i clipboard _ hi hr ht rfl ?_
          rw [← hs]
          rfl
        | false =>
          refine .unwanted i clipboard _ hi hr ht rfl ?_
          rw [← hs]
          rfl
    | observing _ _ | closed => exact leads_same (by rw [attach, hi]) (by rw [attach, hi])

theorem leads_closeSession (h : Host) (i : Nat) : h.Leads a [] (h.closeSession i) := by
  unfold closeSession
  split
  · rename_i clipboard o hi
    exact .closed i o ⟨clipboard, hi⟩ rfl rfl
  · rename_i clipboard wanted hi
    exact .waiting i clipboard wanted _ hi (.inl rfl) rfl rfl
  · exact leads_same rfl rfl

theorem leads_abandonSession (h : Host) (i : Nat) : h.Leads a [] (h.abandonSession i) := by
  unfold abandonSession
  split
  · rename_i clipboard wanted hi
    exact .waiting i clipboard wanted _ hi (.inr rfl) rfl rfl
  · exact leads_closeSession h i

theorem leads_run (hw : h.document.WellFormed) (w : Work) : h.Leads a [] (h.run w) := by
  cases w with
  | click n block control clipboard => exact leads_beginClick hw n block control clipboard
  | write n block control clipboard text =>
    exact leads_label hw (document_write rfl block control clipboard text) (sessions_write ..)
  | note _ _ | armRevert _ => exact leads_same rfl rfl
  | revert control =>
    obtain ⟨hd, hs, -⟩ := showLabel_spec h control .copy
    exact leads_label hw hd hs
  | attach i => exact leads_attach hw i
  | observe i => exact leads_runObserver hw i

/-- What the queue holds does not matter. -/
theorem Leads.of_queue {ws : List Work} (hl : Leads { h with queue := ws } a new h') :
    h.Leads a new h' := by
  cases hl with
  | tended hd hs => exact .tended hd hs
  | notice op ho ha hd hs => exact .notice op ho ha hd hs
  | opened clipboard hd hs => exact .opened clipboard hd hs
  | attached i clipboard d hi hr ht hd hs => exact .attached i clipboard d hi hr ht hd hs
  | unwanted i clipboard d hi hr ht hd hs => exact .unwanted i clipboard d hi hr ht hd hs
  | closed i o hi hd hs => exact .closed i o hi hd hs
  | waiting i clipboard wanted s hi hn hd hs => exact .waiting i clipboard wanted s hi hn hd hs

theorem leads_perform (hw : h.document.WellFormed) (a : Action) :
    h.Leads a (a.subscribes h) (a.perform h) := by
  cases a with
  | operate op =>
    obtain ⟨hd, hs, -⟩ := wake_spec { h with document := op.run h.document }
    by_cases ho : op.OnNodes
    · rw [Action.subscribes, Operation.subscribes_of_onNodes ho]
      exact .tended (hd ▸ (makes_run hw op ho).changes.tended) hs
    · exact .notice op ho (.inl rfl) hd hs
  | reload events =>
    obtain ⟨hd, hs, -⟩ := edit_spec h (Markdown.replaceBody events)
    exact .tended (hd ▸ (Markdown.onlyChanges_replaceBody events h.document hw).tended) hs
  | enhance clipboard => exact .tended (tended_enhance hw clipboard) (sessions_enhance h clipboard)
  | flush i =>
    rw [Action.perform, flushSession]
    split
    · exact .tended (tended_enhance hw _) (sessions_enhance h _)
    · exact leads_same rfl rfl
  | handle block control clipboard => exact leads_beginClick hw _ block control clipboard
  | run k =>
    cases hk : h.queue[k]? with
    | none =>
      rw [Action.perform_run_of_none hk]
      exact leads_same rfl rfl
    | some w =>
      rw [Action.perform_run hk]
      exact (leads_run (h := { h with queue := h.queue.eraseIdx k }) hw w).of_queue
  | openSession clipboard => exact .opened clipboard rfl rfl
  | closeSession i => exact leads_closeSession h i
  | abandonSession i => exact leads_abandonSession h i
  | markReady =>
    obtain ⟨hd, hs, -⟩ := markReady_spec h
    exact .notice .markReady id (.inr ⟨rfl, rfl⟩) hd hs
  | click _ | advance _ | setClipboard _ _ | takeNotes => exact leads_same rfl rfl

/-! ## §3 Who is registered -/

/-- Whatever happens, every registration has an identity of its own. -/
theorem Leads.numbered (hl : h.Leads a new h') (hw : h.document.WellFormed)
    (hn : h.document.Numbered) : h'.document.Numbered := by
  cases hl with
  | tended hd hs => exact hn.tended hd
  | notice op ho ha hd hs => exact hd ▸ hn.run hw op
  | attached i clipboard d hi hr ht hd hs => exact hd ▸ (hn.tended ht).observe d.body true
  | unwanted i clipboard d hi hr ht hd hs =>
    exact hd ▸ ((hn.tended ht).observe d.body true).disconnect d.mailboxes.size
  | closed i o hi hd hs => exact hd ▸ hn.disconnect o
  | opened clipboard hd hs | waiting i clipboard wanted s hi hw' hd hs => exact hd ▸ hn

theorem numbered_performAll (hw : h.document.WellFormed) (hn : h.document.Numbered)
    (as : List Action) : (Action.performAll as h).document.Numbered := by
  induction as generalizing h with
  | nil => exact hn
  | cons a as ih => exact ih (wellFormed_perform hw a) ((leads_perform hw a).numbered hw hn)

end Host

end CopyControl
