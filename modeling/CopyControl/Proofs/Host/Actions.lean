import CopyControl.Host.Run
import CopyControl.Markdown.Page
import CopyControl.Proofs.Enhance.Pass

/-!
What can happen to a host, one action at a time.

An action is a call from outside, a piece of queued work — any of them, not only the first — or
time going on. A host that settles takes nothing but such actions (`settle_eq`). For each part of
an action there is one lemma here on what it does to the document, to the sessions, and to the work
that is queued or waits for a timer.

* §1 actions
* §2 work that concerns no control
* §3 clicks
* §4 passes and sessions
-/

namespace CopyControl

open Document

/-! ## §1 Actions -/

/-- Something that can happen to a host. -/
inductive Action where
  | operate (o : Operation)
  /-- A new body from Markdown. -/
  | reload (events : List Markdown.Event)
  | enhance (clipboard : String)
  | flush (session : Nat)
  | click (node : NodeId)
  /-- Handles a click on a control at once. -/
  | handle (block control : NodeId) (clipboard : String)
  /-- The piece of work at a place in the queue is run. -/
  | run (place : Nat)
  /-- The time comes. -/
  | advance (time : Nat)
  | openSession (clipboard : String)
  | closeSession (session : Nat)
  | abandonSession (session : Nat)
  | markReady
  | setClipboard (name : String) (link : ClipboardLink)
  | takeNotes
deriving Inhabited

namespace Action

def perform : Action → Host → Host
  | operate o, h => { h with document := o.run h.document }.wake
  | reload events, h => (h.edit (Markdown.replaceBody events)).2
  | enhance clipboard, h => (h.enhance clipboard).2
  | flush i, h => (h.flushSession i).2
  | click node, h => (h.dispatchClick node).2
  | handle block control clipboard, h => h.beginClick h.clicks block control clipboard
  | run k, h =>
    match h.queue[k]? with
    | some w => { h with queue := h.queue.eraseIdx k }.run w
    | none => h
  | advance time, h => h.fireTimers time
  | openSession clipboard, h => (h.beginSession clipboard).2
  | closeSession i, h => h.closeSession i
  | abandonSession i, h => h.abandonSession i
  | markReady, h => h.markReady
  | setClipboard name link, h => h.setClipboard name link
  | takeNotes, h => h.takeNotes.2

/-- The host after some actions. -/
def performAll (as : List Action) (h : Host) : Host :=
  as.foldl (fun h a => a.perform h) h

theorem perform_run {h : Host} {k : Nat} {w : Work} (hk : h.queue[k]? = some w) :
    (run k).perform h = { h with queue := h.queue.eraseIdx k }.run w := by
  simp [perform, hk]

theorem perform_run_of_none {h : Host} {k : Nat} (hk : h.queue[k]? = none) :
    (run k).perform h = h := by
  simp [perform, hk]

/-- Work that is not the piece taken stays queued. -/
theorem mem_eraseIdx_of_ne {ws : List Work} {k : Nat} {v w : Work} (hk : ws[k]? = some w)
    (hv : v ∈ ws) (hne : v ≠ w) : v ∈ ws.eraseIdx k := by
  obtain ⟨n, hn⟩ := List.getElem?_of_mem hv
  refine List.mem_eraseIdx_iff_getElem?.mpr ⟨n, ?_, hn⟩
  rintro rfl
  exact hne (Option.some.inj (hn.symm.trans hk))

/-- The host's own step is to run the first piece of work. -/
theorem step_eq (h : Host) : h.step = (run 0).perform h := by
  cases hq : h.queue <;> simp [Host.step, perform, hq]

/-- A host settles by running the first pieces of work. -/
theorem settle_eq (h : Host) : ∃ n, h.settle = performAll (.replicate n (run 0)) h := by
  have hqueued : ∀ n (h : Host), ∃ m,
      h.runQueued n = performAll (.replicate m (run 0)) h := by
    intro n
    induction n with
    | zero => exact fun h => ⟨0, rfl⟩
    | succ n ih =>
      intro h
      by_cases hq : h.queue.isEmpty
      · exact ⟨0, by simp [Host.runQueued, performAll, hq]⟩
      · obtain ⟨m, hm⟩ := ih h.step
        refine ⟨m + 1, ?_⟩
        rw [Host.runQueued, if_neg hq, hm, step_eq]
        rfl
  exact hqueued h.effort h

/-- Whether the action may run passes. -/
def runsPasses : Action → Host → Bool
  | enhance _, _ => true
  | flush _, _ => true
  | run k, h =>
    match h.queue[k]? with
    | some (.attach _) => true
    | some (.observe _) => true
    | _ => false
  | _, _ => false

end Action

/-- The control that a piece of work has to do with. -/
def Work.control? : Work → Option NodeId
  | .click _ _ control _ => some control
  | .write _ _ control _ _ => some control
  | .armRevert control => some control
  | .revert control => some control
  | .note _ _ | .attach _ | .observe _ => none

namespace Host

variable {h h' h'' : Host}

/-! ## §2 Work that concerns no control -/

/-- No time has gone by, no timer was set, and what has been queued concerns no control. -/
structure Calm (h h' : Host) : Prop where
  now : h'.now = h.now
  timers : h'.timers = h.timers
  queue : ∃ ws, h'.queue = h.queue ++ ws ∧ ∀ w ∈ ws, w.control? = none

theorem Calm.refl (h : Host) : h.Calm h :=
  ⟨rfl, rfl, [], by simp, by simp⟩

theorem Calm.trans (c : h.Calm h') (c' : h'.Calm h'') : h.Calm h'' := by
  obtain ⟨ws, hq, hws⟩ := c.queue
  obtain ⟨vs, hq', hvs⟩ := c'.queue
  refine ⟨c'.now.trans c.now, c'.timers.trans c.timers, ws ++ vs, ?_, fun w hw => ?_⟩
  · rw [hq', hq, List.append_assoc]
  · exact (List.mem_append.mp hw).elim (hws w) (hvs w)

theorem Calm.mem_queue (c : h.Calm h') {w : Work} (hw : w ∈ h.queue) : w ∈ h'.queue := by
  obtain ⟨ws, hq, -⟩ := c.queue
  rw [hq]
  exact List.mem_append_left ws hw

theorem calm_of_eq (hn : h'.now = h.now) (ht : h'.timers = h.timers) (hq : h'.queue = h.queue) :
    h.Calm h' :=
  ⟨hn, ht, [], by simp [hq], by simp⟩

/-- What else of a host is different at the start does not matter, -/
theorem Calm.of_start (c : h'.Calm h'') (hn : h'.now = h.now) (ht : h'.timers = h.timers)
    (hq : h'.queue = h.queue) : h.Calm h'' :=
  (calm_of_eq hn ht hq).trans c

/-- and neither at the end. -/
theorem Calm.of_end (c : h.Calm h') (hn : h''.now = h'.now) (ht : h''.timers = h'.timers)
    (hq : h''.queue = h'.queue) : h.Calm h'' :=
  c.trans (calm_of_eq hn ht hq)

theorem calm_enqueue (h : Host) {w : Work} (hw : w.control? = none) : h.Calm (h.enqueue w) :=
  ⟨rfl, rfl, [w], rfl, by simpa using hw⟩

/-! ### Waking sessions -/

theorem wakeObserver_spec (h : Host) (r : Registration) :
    (h.wakeObserver r).document = h.document ∧ (h.wakeObserver r).sessions = h.sessions ∧
      h.Calm (h.wakeObserver r) := by
  unfold wakeObserver
  split
  · split
    · exact ⟨rfl, rfl, .refl h⟩
    · exact ⟨rfl, rfl, calm_enqueue h rfl⟩
  · exact ⟨rfl, rfl, .refl h⟩

theorem foldl_wakeObserver_spec (h : Host) (rs : List Registration) :
    (rs.foldl wakeObserver h).document = h.document ∧
      (rs.foldl wakeObserver h).sessions = h.sessions ∧ h.Calm (rs.foldl wakeObserver h) := by
  induction rs generalizing h with
  | nil => exact ⟨rfl, rfl, .refl h⟩
  | cons r rs ih =>
    obtain ⟨hd, hs, hc⟩ := wakeObserver_spec h r
    obtain ⟨hd', hs', hc'⟩ := ih (h.wakeObserver r)
    exact ⟨hd'.trans hd, hs'.trans hs, hc.trans hc'⟩

theorem wake_spec (h : Host) :
    h.wake.document = h.document ∧ h.wake.sessions = h.sessions ∧ h.Calm h.wake :=
  foldl_wakeObserver_spec h h.document.observers

theorem perform_operate (o : Operation) (h : Host) :
    ((Action.operate o).perform h).document = o.run h.document := (wake_spec _).1

/-- Operations do to the document of a host what they do to a document. -/
theorem document_performAll_operate (os : List Operation) (h : Host) :
    (Action.performAll (os.map .operate) h).document = Operation.runAll os h.document := by
  induction os generalizing h with
  | nil => rfl
  | cons o os ih =>
    rw [Operation.runAll_cons, ← perform_operate]
    exact ih _

/-! ## §3 Clicks -/

theorem edit_eq {α : Type} (h : Host) (e : Edit α) :
    (h.edit e).2 = { h with document := (e.apply h.document).2 }.wake := rfl

theorem edit_spec {α : Type} (h : Host) (e : Edit α) :
    (h.edit e).2.document = (e.apply h.document).2 ∧ (h.edit e).2.sessions = h.sessions ∧
      h.Calm (h.edit e).2 := by
  obtain ⟨hd, hs, hc⟩ := wake_spec { h with document := (e.apply h.document).2 }
  rw [edit_eq]
  exact ⟨hd, hs, hc.of_start rfl rfl rfl⟩

theorem showLabel_spec (h : Host) (control : NodeId) (l : ControlLabel) :
    (h.showLabel control l).document = ((setLabel control l).apply h.document).2 ∧
      (h.showLabel control l).sessions = h.sessions ∧ h.Calm (h.showLabel control l) := by
  have hspec := edit_spec h (setLabel control l)
  unfold showLabel
  cases hr : h.edit (setLabel control l) with
  | mk r h' =>
    rw [hr] at hspec
    cases r with
    | ok _ => exact hspec
    | error e => exact ⟨hspec.1, hspec.2.1, hspec.2.2.of_end rfl rfl rfl⟩

/-- A write leaves the document alone until it shows what came of it. -/
theorem write_eq (h : Host) (block control : NodeId) (clipboard text : String) :
    ∃ h₁ : Host, h₁.document = h.document ∧ h₁.sessions = h.sessions ∧ h.Calm h₁ ∧
      (h.write block control clipboard text).2 =
        (h₁.showLabel control (.ofOutcome (h.write block control clipboard text).1)).enqueue
          (.armRevert control) := by
  refine ⟨_, ?_, ?_, ?_, rfl⟩
  all_goals dsimp only
  all_goals split
  all_goals first
    | rfl
    | exact calm_of_eq rfl rfl rfl

/-- The text is written at once, -/
theorem beginClick_of_prompt {clipboard : String} (hd : (h.clipboard clipboard).delay = 0) (n : Nat)
    (block control : NodeId) : h.beginClick n block control clipboard =
      (h.write block control clipboard (h.document.innerText block)).2 := by
  simp [beginClick, hd]

/-- or when the delay of the clipboard is over. -/
theorem beginClick_of_slow {clipboard : String} (hd : (h.clipboard clipboard).delay ≠ 0) (n : Nat)
    (block control : NodeId) : h.beginClick n block control clipboard =
      h.setTimer (h.clipboard clipboard).delay
        (.write n block control clipboard (h.document.innerText block)) := by
  unfold beginClick
  split
  · contradiction
  · rfl

/-! ## §4 Passes and sessions -/

theorem calm_pass (h : Host) (clipboard : String) : h.Calm (h.pass clipboard).2 :=
  calm_of_eq rfl rfl rfl

theorem enhance_document (h : Host) (clipboard : String) :
    (h.enhance clipboard).2.document = (h.document.enhance clipboard).document :=
  (h.pass clipboard).2.wake_spec.1

theorem calm_enhance (h : Host) (clipboard : String) : h.Calm (h.enhance clipboard).2 :=
  (h.calm_pass clipboard).trans (h.pass clipboard).2.wake_spec.2.2

/-- Puts a session that is waiting under an observer of the body. -/
def observeBody (h : Host) (i : Nat) (clipboard : String) (wanted : Bool) : Host :=
  let (observer, d) := h.document.observe h.document.body true
  let h := { h with document := d }
  if wanted then (h.setSession i (.observing clipboard observer)).enqueue (.observe i)
  else (h.disconnect observer).setSession i .closed

/-- A waiting session is attached, if the document is ready, in two steps. -/
theorem attach_of_waiting {i : Nat} {clipboard : String} {wanted : Bool}
    (hi : h.sessions[i]? = some (.waiting clipboard wanted)) :
    h.attach i = if h.document.ready = .complete then
      ((h.enhance clipboard).2.record (attached (h.enhance clipboard).1)).observeBody i clipboard
        wanted
    else h := by
  rw [attach, hi]
  rfl

theorem calm_observeBody (h : Host) (i : Nat) (clipboard : String) (wanted : Bool) :
    h.Calm (h.observeBody i clipboard wanted) := by
  unfold observeBody
  dsimp only
  split
  · exact (calm_enqueue _ rfl).of_start rfl rfl rfl
  · exact calm_of_eq rfl rfl rfl

theorem calm_attach (h : Host) (i : Nat) : h.Calm (h.attach i) := by
  cases hi : h.sessions[i]? with
  | none =>
    rw [attach, hi]
    exact .refl h
  | some s =>
    cases s with
    | waiting clipboard wanted =>
      rw [attach_of_waiting hi]
      split
      · refine Calm.trans ?_ (calm_observeBody _ i _ _)
        exact (h.calm_enhance clipboard).of_end rfl rfl rfl
      · exact .refl h
    | observing _ _ | closed =>
      rw [attach, hi]
      exact .refl h

theorem calm_handleBatches (h : Host) (clipboard : String) (o : ObserverId) (n : Nat) :
    h.Calm (h.handleBatches clipboard o n) := by
  induction n generalizing h with
  | zero => exact .refl h
  | succ n ih =>
    unfold handleBatches
    split
    · exact .refl h
    · exact calm_of_eq rfl rfl rfl
    · rename_i records d _
      have hpass := calm_pass ({ h with document := d }.record (batch records.length)) clipboard
      exact Calm.trans (hpass.of_start rfl rfl rfl) (ih _)

theorem calm_runObserver (h : Host) (i : Nat) : h.Calm (h.runObserver i) := by
  unfold runObserver
  split
  · exact (h.calm_handleBatches _ _ _).trans (wake_spec _).2.2
  · exact .refl h

theorem sessions_handleBatches (h : Host) (clipboard : String) (o : ObserverId) (n : Nat) :
    (h.handleBatches clipboard o n).sessions = h.sessions := by
  induction n generalizing h with
  | zero => rfl
  | succ n ih =>
    unfold handleBatches
    split
    · rfl
    · rfl
    · exact ih _

theorem sessions_runObserver (h : Host) (i : Nat) : (h.runObserver i).sessions = h.sessions := by
  unfold runObserver
  split
  · exact (wake_spec _).2.1.trans (sessions_handleBatches ..)
  · rfl

theorem calm_beginSession (h : Host) (clipboard : String) : h.Calm (h.beginSession clipboard).2 :=
  (calm_enqueue { h with sessions := h.sessions ++ [.waiting clipboard true] } rfl).of_start
    rfl rfl rfl

theorem calm_closeSession (h : Host) (i : Nat) : h.Calm (h.closeSession i) := by
  unfold closeSession
  split
  · exact calm_of_eq rfl rfl rfl
  · exact calm_of_eq rfl rfl rfl
  · exact .refl h

theorem calm_abandonSession (h : Host) (i : Nat) : h.Calm (h.abandonSession i) := by
  unfold abandonSession
  split
  · exact calm_of_eq rfl rfl rfl
  · exact h.calm_closeSession i

theorem calm_flushSession (h : Host) (i : Nat) : h.Calm (h.flushSession i).2 := by
  unfold flushSession
  split
  · exact h.calm_enhance _
  · exact .refl h

theorem wakeWaiting_spec (h : Host) (i : Nat) :
    (h.wakeWaiting i).document = h.document ∧ (h.wakeWaiting i).sessions = h.sessions ∧
      h.Calm (h.wakeWaiting i) := by
  unfold wakeWaiting
  split
  · split
    · exact ⟨rfl, rfl, .refl h⟩
    · exact ⟨rfl, rfl, calm_enqueue h rfl⟩
  · exact ⟨rfl, rfl, .refl h⟩

theorem markReady_spec (h : Host) :
    h.markReady.document = h.document.markReady ∧ h.markReady.sessions = h.sessions ∧
      h.Calm h.markReady := by
  suffices hfold : ∀ (is : List Nat) (h : Host), (is.foldl wakeWaiting h).document = h.document ∧
      (is.foldl wakeWaiting h).sessions = h.sessions ∧ h.Calm (is.foldl wakeWaiting h) by
    obtain ⟨hd, hs, hc⟩ := hfold (List.range h.sessions.length)
      { h with document := h.document.markReady }
    exact ⟨hd, hs, hc.of_start rfl rfl rfl⟩
  intro is
  induction is with
  | nil => exact fun h => ⟨rfl, rfl, .refl h⟩
  | cons i is ih =>
    intro h
    obtain ⟨hd, hs, hc⟩ := wakeWaiting_spec h i
    obtain ⟨hd', hs', hc'⟩ := ih (h.wakeWaiting i)
    exact ⟨hd'.trans hd, hs'.trans hs, hc.trans hc'⟩

end Host

end CopyControl
