import CopyControl.Proofs.Association
import CopyControl.Proofs.Host.Actions

/-!
What reaches the clipboards.

Only the work of clicks touches a clipboard, one piece of it at a time, in an attempt to write
(`clipboard_perform`). So what a memory clipboard holds can be read off the attempts that there
were: the text of the last one that succeeded, and how many got as far as the clipboard
(`memory_performAll`).

* §1 attempts
* §2 what leaves the clipboards alone
* §3 what an action does to a clipboard
* §4 memory
-/

namespace CopyControl

open Document

/-! ## §1 Attempts -/

/-- An attempt to write a text to a clipboard: the click it is made for, the answer of the
clipboard, and what comes of the click. -/
structure Attempt where
  number : Nat
  block : NodeId
  control : NodeId
  clipboard : String
  text : String
  result : Except ClipboardError Unit
  outcome : ClickOutcome

namespace Attempt

def succeeded (t : Attempt) : Bool :=
  match t.result with
  | .ok _ => true
  | .error _ => false

/-- Whether the attempt got as far as the clipboard. -/
def reached (t : Attempt) : Bool :=
  match t.result with
  | .error (.unavailable _) => false
  | _ => true

/-- The text that was written to a clipboard last. -/
def lastWritten (name : String) (ts : List Attempt) : Option String :=
  (ts.filter fun t => t.clipboard = name ∧ t.succeeded).getLast?.map (·.text)

/-- How many attempts have reached a clipboard. -/
def arrivals (name : String) (ts : List Attempt) : Nat :=
  ts.countP fun t => t.clipboard = name ∧ t.reached

theorem lastWritten_append (name : String) (ts us : List Attempt) :
    lastWritten name (ts ++ us) = (lastWritten name us).or (lastWritten name ts) := by
  rw [lastWritten, List.filter_append, List.getLast?_append, Option.map_or]
  rfl

theorem arrivals_append (name : String) (ts us : List Attempt) :
    arrivals name (ts ++ us) = arrivals name ts + arrivals name us :=
  List.countP_append

end Attempt

/-- The attempt to write a text as things are. -/
def Host.attempt (h : Host) (number : Nat) (block control : NodeId) (clipboard text : String) :
    Attempt where
  number := number
  block := block
  control := control
  clipboard := clipboard
  text := text
  result := ((h.clipboard clipboard).write text).1
  outcome := (h.write block control clipboard text).1

/-- The attempt that is made when the work is run. -/
def Work.attempt? (h : Host) : Work → Option Attempt
  | .click n block control clipboard =>
    if (h.clipboard clipboard).delay = 0 then
      some (h.attempt n block control clipboard (h.document.innerText block))
    else none
  | .write n block control clipboard text => some (h.attempt n block control clipboard text)
  | _ => none

/-- What else is queued does not matter. -/
theorem Work.attempt?_withQueue (h : Host) (ws : List Work) (w : Work) :
    w.attempt? { h with queue := ws } = w.attempt? h := by
  cases w <;> rfl

namespace Action

/-- The work that the action runs. -/
def work? : Action → Host → Option Work
  | handle block control clipboard, h => some (.click h.clicks block control clipboard)
  | run k, h => h.queue[k]?
  | _, _ => none

/-- To run a piece of work, the action takes it from the queue or has it at hand. -/
theorem perform_of_work {a : Action} {h : Host} {w : Work} (hw : a.work? h = some w) :
    ∃ ws, a.perform h = { h with queue := ws }.run w := by
  cases a with
  | handle block control clipboard =>
    obtain rfl := Option.some.inj hw
    exact ⟨h.queue, rfl⟩
  | run k => exact ⟨_, perform_run hw⟩
  | operate _ | reload _ | enhance _ | flush _ | click _ | advance _ | openSession _
  | closeSession _ | abandonSession _ | markReady | setClipboard _ _ | takeNotes =>
    simp [work?] at hw

/-- The attempt that the action makes. -/
def attempt? (a : Action) (h : Host) : Option Attempt :=
  (a.work? h).bind (·.attempt? h)

/-- The attempts of a run, in their order. -/
def attempts : List Action → Host → List Attempt
  | [], _ => []
  | a :: as, h => (a.attempt? h).toList ++ attempts as (a.perform h)

theorem attempts_append (as bs : List Action) (h : Host) :
    attempts (as ++ bs) h = attempts as h ++ attempts bs (performAll as h) := by
  induction as generalizing h with
  | nil => rfl
  | cons a as ih =>
    rw [List.cons_append, attempts, ih, attempts, List.append_assoc]
    rfl

end Action

/-- The clipboard after an attempt, which may have been made on this one. -/
def ClipboardLink.after (l : ClipboardLink) (name : String) : Option Attempt → ClipboardLink
  | some t => if t.clipboard = name then (l.write t.text).2 else l
  | none => l

namespace Host

variable {h h' : Host}

/-! ## §2 What leaves the clipboards alone -/

/-- What clicks change, and little else: the clipboards, and how many clicks there were. -/
def copyState (h : Host) : List (String × ClipboardLink) × Nat :=
  (h.clipboards, h.clicks)

theorem clipboard_eq (hc : h'.copyState = h.copyState) : h'.clipboard = h.clipboard := by
  funext name
  rw [clipboard, (Prod.mk.inj hc).1, clipboard]

theorem clicks_eq (hc : h'.copyState = h.copyState) : h'.clicks = h.clicks :=
  (Prod.mk.inj hc).2

theorem copyState_foldl {α : Type} {f : Host → α → Host}
    (hf : ∀ h x, (f h x).copyState = h.copyState) (h : Host) (l : List α) :
    (l.foldl f h).copyState = h.copyState := by
  induction l generalizing h with
  | nil => rfl
  | cons x l ih => exact (ih _).trans (hf h x)

@[simp] theorem copyState_wakeObserver (h : Host) (r : Registration) :
    (h.wakeObserver r).copyState = h.copyState := by
  unfold wakeObserver
  split
  · split <;> rfl
  · rfl

@[simp] theorem copyState_wake (h : Host) : h.wake.copyState = h.copyState :=
  copyState_foldl copyState_wakeObserver h _

@[simp] theorem copyState_edit {α : Type} (h : Host) (e : Edit α) :
    (h.edit e).2.copyState = h.copyState :=
  copyState_wake _

@[simp] theorem copyState_showLabel (h : Host) (control : NodeId) (l : ControlLabel) :
    (h.showLabel control l).copyState = h.copyState := by
  have hedit := copyState_edit h (setLabel control l)
  unfold showLabel
  cases hr : h.edit (setLabel control l) with
  | mk r h' =>
    rw [hr] at hedit
    cases r <;> exact hedit

@[simp] theorem copyState_enhance (h : Host) (clipboard : String) :
    (h.enhance clipboard).2.copyState = h.copyState :=
  copyState_wake _

@[simp] theorem copyState_observeBody (h : Host) (i : Nat) (clipboard : String) (wanted : Bool) :
    (h.observeBody i clipboard wanted).copyState = h.copyState := by
  unfold observeBody
  dsimp only
  split <;> rfl

@[simp] theorem copyState_attach (h : Host) (i : Nat) :
    (h.attach i).copyState = h.copyState := by
  cases hi : h.sessions[i]? with
  | none => rw [attach, hi]
  | some s =>
    cases s with
    | waiting clipboard wanted =>
      rw [attach_of_waiting hi]
      split
      · rw [copyState_observeBody]
        exact copyState_enhance h clipboard
      · rfl
    | observing _ _ | closed => rw [attach, hi]

theorem copyState_handleBatches (h : Host) (clipboard : String) (o : ObserverId) (n : Nat) :
    (h.handleBatches clipboard o n).copyState = h.copyState := by
  induction n generalizing h with
  | zero => rfl
  | succ n ih =>
    unfold handleBatches
    split
    · rfl
    · rfl
    · exact ih _

@[simp] theorem copyState_runObserver (h : Host) (i : Nat) :
    (h.runObserver i).copyState = h.copyState := by
  unfold runObserver
  split
  · rw [copyState_wake, copyState_handleBatches]
  · rfl

@[simp] theorem copyState_closeSession (h : Host) (i : Nat) :
    (h.closeSession i).copyState = h.copyState := by
  unfold closeSession
  split <;> rfl

@[simp] theorem copyState_abandonSession (h : Host) (i : Nat) :
    (h.abandonSession i).copyState = h.copyState := by
  unfold abandonSession
  split
  · rfl
  · exact copyState_closeSession h i

@[simp] theorem copyState_flushSession (h : Host) (i : Nat) :
    (h.flushSession i).2.copyState = h.copyState := by
  unfold flushSession
  split
  · exact copyState_enhance h _
  · rfl

@[simp] theorem copyState_markReady (h : Host) : h.markReady.copyState = h.copyState := by
  refine copyState_foldl (fun h i => ?_) { h with document := h.document.markReady } _
  unfold wakeWaiting
  split
  · split <;> rfl
  · rfl

/-! ## §3 What an action does to a clipboard -/

@[simp] theorem clipboard_setClipboard (h : Host) (name name' : String) (l : ClipboardLink) :
    (h.setClipboard name l).clipboard name' = if name' = name then l else h.clipboard name' := by
  rw [clipboard, setClipboard, lookup_put]
  split <;> rfl

/-- A write does nothing to a clipboard but write to it. -/
theorem copyState_write (h : Host) (block control : NodeId) (clipboard text : String) :
    (h.write block control clipboard text).2.copyState =
      (h.setClipboard clipboard ((h.clipboard clipboard).write text).2).copyState := by
  have henqueue : ∀ (h : Host) (w : Work), (h.enqueue w).copyState = h.copyState := fun _ _ => rfl
  unfold write
  dsimp only
  rw [henqueue, copyState_showLabel]
  split <;> rfl

theorem clipboard_write (h : Host) (n : Nat) (block control : NodeId)
    (clipboard text name : String) :
    (h.write block control clipboard text).2.clipboard name =
      (h.clipboard name).after name (h.attempt n block control clipboard text) := by
  rw [clipboard_eq (copyState_write ..), clipboard_setClipboard, ClipboardLink.after, attempt]
  by_cases hn : name = clipboard
  · simp [hn]
  · simp [hn, Ne.symm hn]

/-- Work that makes no attempt leaves the clipboards alone. -/
theorem clipboard_run (h : Host) (w : Work) (name : String) :
    (h.run w).clipboard name = (h.clipboard name).after name (w.attempt? h) := by
  cases w with
  | click n block control clipboard =>
    by_cases hd : (h.clipboard clipboard).delay = 0
    · rw [run, beginClick_of_prompt hd, clipboard_write h n, Work.attempt?, if_pos hd]
    · rw [run, beginClick_of_slow hd, Work.attempt?, if_neg hd]
      rfl
  | write n block control clipboard text => exact clipboard_write h n block control clipboard text _
  | note _ _ | armRevert _ => rfl
  | revert control => exact congrFun (clipboard_eq (copyState_showLabel ..)) name
  | attach i => exact congrFun (clipboard_eq (copyState_attach ..)) name
  | observe i => exact congrFun (clipboard_eq (copyState_runObserver ..)) name

theorem clicks_run (h : Host) (w : Work) : (h.run w).clicks = h.clicks := by
  cases w with
  | click n block control clipboard =>
    by_cases hd : (h.clipboard clipboard).delay = 0
    · rw [run, beginClick_of_prompt hd]
      exact (clicks_eq (copyState_write ..)).trans rfl
    · rw [run, beginClick_of_slow hd]
      rfl
  | write n block control clipboard text => exact (clicks_eq (copyState_write ..)).trans rfl
  | note _ _ | armRevert _ => rfl
  | revert control => exact clicks_eq (copyState_showLabel ..)
  | attach i => exact clicks_eq (copyState_attach ..)
  | observe i => exact clicks_eq (copyState_runObserver ..)

/-- An action that runs no work, is no click and sets up no clipboard leaves both alone. -/
theorem copyState_perform (h : Host) {a : Action} (hw : a.work? h = none)
    (hclick : ∀ x, a ≠ .click x) (hset : ∀ name l, a ≠ .setClipboard name l) :
    (a.perform h).copyState = h.copyState := by
  cases a with
  | handle block control clipboard => simp [Action.work?] at hw
  | run k => rw [Action.perform_run_of_none hw]
  | click x => exact absurd rfl (hclick x)
  | setClipboard name l => exact absurd rfl (hset name l)
  | operate o => exact copyState_wake _
  | reload events => exact copyState_edit ..
  | enhance clipboard => exact copyState_enhance ..
  | flush i => exact copyState_flushSession ..
  | closeSession i => exact copyState_closeSession ..
  | abandonSession i => exact copyState_abandonSession ..
  | markReady => exact copyState_markReady h
  | advance _ | openSession _ | takeNotes => rfl

/-- An attempt is all that an action can do to a clipboard, except to set it up anew. -/
theorem clipboard_perform (h : Host) (a : Action) {name : String}
    (hset : ∀ l, a ≠ .setClipboard name l) :
    (a.perform h).clipboard name = (h.clipboard name).after name (a.attempt? h) := by
  cases hw : a.work? h with
  | some w =>
    obtain ⟨ws, heq⟩ := Action.perform_of_work hw
    rw [heq, clipboard_run, Work.attempt?_withQueue, Action.attempt?, hw, Option.bind_some]
    rfl
  | none =>
    rw [Action.attempt?, hw, Option.bind_none, ClipboardLink.after]
    cases a with
    | setClipboard name' l =>
      have hne : name ≠ name' := fun heq => hset l (by rw [heq])
      exact (clipboard_setClipboard h name' name l).trans (if_neg hne)
    | click x => rfl
    | _ => exact congrFun (clipboard_eq (copyState_perform h hw (by simp) (by simp))) name

/-- Only clicks are counted. -/
theorem clicks_perform (h : Host) {a : Action} (hclick : ∀ x, a ≠ .click x) :
    (a.perform h).clicks = h.clicks := by
  cases hw : a.work? h with
  | some w =>
    obtain ⟨ws, heq⟩ := Action.perform_of_work hw
    rw [heq, clicks_run]
  | none =>
    cases a with
    | setClipboard name l => rfl
    | _ => exact clicks_eq (copyState_perform h hw hclick (by simp))

end Host

/-! ## §4 Memory -/

/-- An attempt has the answer of the clipboard as it was, and the click's outcome is that answer. -/
theorem Work.result_of_attempt? {w : Work} {h : Host} {t : Attempt} (ht : w.attempt? h = some t) :
    t.result = ((h.clipboard t.clipboard).write t.text).1 ∧
      t.outcome = ClickOutcome.ofWrite t.result := by
  have hattempt : ∀ n block control clipboard text,
      some (h.attempt n block control clipboard text) = some t →
      t.result = ((h.clipboard t.clipboard).write t.text).1 ∧
        t.outcome = ClickOutcome.ofWrite t.result := by
    rintro n block control clipboard text heq
    obtain rfl := Option.some.inj heq
    exact ⟨rfl, rfl⟩
  cases w with
  | click n block control clipboard =>
    rw [Work.attempt?] at ht
    split at ht
    · exact hattempt _ _ _ _ _ ht
    · simp at ht
  | write n block control clipboard text => exact hattempt _ _ _ _ _ ht
  | note _ _ | armRevert _ | revert _ | attach _ | observe _ => simp [Work.attempt?] at ht

theorem Attempt.outcome_eq_copied_iff {t : Attempt}
    (ht : t.outcome = ClickOutcome.ofWrite t.result) : t.outcome = .copied ↔ t.succeeded := by
  rw [ht, Attempt.succeeded]
  cases t.result <;> simp [ClickOutcome.ofWrite]

theorem Action.result_of_attempt? {a : Action} {h : Host} {t : Attempt}
    (ht : a.attempt? h = some t) :
    t.result = ((h.clipboard t.clipboard).write t.text).1 ∧
      t.outcome = ClickOutcome.ofWrite t.result := by
  obtain ⟨w, -, hw⟩ := Option.bind_eq_some_iff.mp ht
  exact Work.result_of_attempt? hw

/-- What an attempt does to the memory of a clipboard. -/
theorem ClipboardLink.memory_after (l : ClipboardLink) (name : String) {t : Option Attempt}
    (ht : ∀ s ∈ t, s.clipboard = name → s.result = (l.write s.text).1) :
    (l.after name t).memory.contents =
        (Attempt.lastWritten name t.toList).or l.memory.contents ∧
      (l.after name t).memory.writes = l.memory.writes + Attempt.arrivals name t.toList := by
  cases t with
  | none => exact ⟨rfl, rfl⟩
  | some s =>
    by_cases hs : s.clipboard = name
    swap
    · simp [after, Attempt.lastWritten, Attempt.arrivals, hs]
    have hr := ht s rfl hs
    rw [after, if_pos hs]
    cases ho : l.outage with
    | some reason =>
      simp only [write, ho] at hr ⊢
      simp [Attempt.lastWritten, Attempt.arrivals, Attempt.succeeded, Attempt.reached, hr]
    | none =>
      simp only [write, ho, MemoryClipboard.write] at hr ⊢
      cases hd : l.memory.denial with
      | some _ | none =>
        simp only [hd] at hr
        simp [Attempt.lastWritten, Attempt.arrivals, Attempt.succeeded, Attempt.reached, hr, hs]

namespace Action

/-- Whoever sets up a clipboard anew leaves it its memory: what was written last, and how many
attempts have reached it. -/
def keepsMemory : Action → Host → Bool
  | setClipboard name l, h =>
    l.memory.contents = (h.clipboard name).memory.contents ∧
      l.memory.writes = (h.clipboard name).memory.writes
  | _, _ => true

/-- All actions of a run leave the clipboards their memories. -/
def keepMemory : List Action → Host → Bool
  | [], _ => true
  | a :: as, h => a.keepsMemory h && keepMemory as (a.perform h)

end Action

namespace Host

variable {h : Host}

theorem memory_perform {a : Action} (ha : a.keepsMemory h) (name : String) :
    ((a.perform h).clipboard name).memory.contents =
        (Attempt.lastWritten name (a.attempt? h).toList).or (h.clipboard name).memory.contents ∧
      ((a.perform h).clipboard name).memory.writes =
        (h.clipboard name).memory.writes + Attempt.arrivals name (a.attempt? h).toList := by
  by_cases hset : ∃ l, a = .setClipboard name l
  · obtain ⟨l, rfl⟩ := hset
    have hl : ((Action.setClipboard name l).perform h).clipboard name = l := by
      simp [Action.perform]
    have hkept := of_decide_eq_true ha
    rw [hl]
    exact hkept
  · rw [clipboard_perform h a fun l hl => hset ⟨l, hl⟩]
    refine ClipboardLink.memory_after _ name fun t ht hn => ?_
    rw [(Action.result_of_attempt? ht).1, hn]

/-- What a clipboard holds after a run is the text that was written to it last, or else what it held
before; and it has counted the attempts that have reached it. -/
theorem memory_performAll {as : List Action} (has : Action.keepMemory as h) (name : String) :
    ((Action.performAll as h).clipboard name).memory.contents =
        (Attempt.lastWritten name (Action.attempts as h)).or
          (h.clipboard name).memory.contents ∧
      ((Action.performAll as h).clipboard name).memory.writes =
        (h.clipboard name).memory.writes + Attempt.arrivals name (Action.attempts as h) := by
  induction as generalizing h with
  | nil => exact ⟨rfl, rfl⟩
  | cons a as ih =>
    rw [Action.keepMemory, Bool.and_eq_true] at has
    obtain ⟨hc, hw⟩ := memory_perform has.1 name
    obtain ⟨hcs, hws⟩ := ih has.2
    rw [Action.attempts, Attempt.lastWritten_append, Option.or_assoc, ← hc, Attempt.arrivals_append,
      ← Nat.add_assoc, ← hw]
    exact ⟨hcs, hws⟩

end Host

end CopyControl
