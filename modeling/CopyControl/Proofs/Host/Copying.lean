import CopyControl.Proofs.Host.Attempts
import CopyControl.Proofs.Host.Effects
import Mathlib.Algebra.Order.Group.Multiset
import Mathlib.Data.List.Induction

/-!
The work of clicks, however they overlap.

Work that copies for a click has the number of the click. Of this work an action takes at most the
piece that it runs, and leaves what comes of that piece (`copying_perform`). So a click that has one
piece of work goes through three stages, whatever else happens: its work is queued, the text that it
has read waits for the clipboard, and an attempt has been made to write that text
(`CopyStage.performAll`).

* §1 work that copies
* §2 what an action does to it
* §3 the numbers of clicks
* §4 the stages of a click
-/

namespace CopyControl

open Relation Document

/-! ## §1 Work that copies -/

/-- The click for which the work copies, if it does. -/
def Work.copies? : Work → Option Nat
  | .click n _ _ _ => some n
  | .write n _ _ _ _ => some n
  | _ => none

/-- The pieces of work that copy for a click. -/
def copiesFor (n : Nat) (ws : List Work) : Multiset Work :=
  (ws.filter (·.copies? = some n) : List Work)

theorem copiesFor_append (n : Nat) (ws vs : List Work) :
    copiesFor n (ws ++ vs) = copiesFor n ws + copiesFor n vs := by
  rw [copiesFor, List.filter_append, ← Multiset.coe_add, copiesFor, copiesFor]

theorem copiesFor_perm {n : Nat} {ws vs : List Work} (h : ws.Perm vs) :
    copiesFor n ws = copiesFor n vs :=
  Multiset.coe_eq_coe.mpr (h.filter _)

theorem copiesFor_of_forall {n : Nat} {ws : List Work} (h : ∀ w ∈ ws, w.copies? ≠ some n) :
    copiesFor n ws = 0 := by
  rw [copiesFor, List.filter_eq_nil_iff.mpr fun w hw => by simpa using h w hw]
  rfl

theorem copiesFor_singleton {n : Nat} {w : Work} (h : w.copies? = some n) :
    copiesFor n [w] = {w} := by
  rw [copiesFor, List.filter_cons_of_pos (by simpa using h)]
  rfl

theorem Work.copies?_of_control?_eq_none {w : Work} (h : w.control? = none) : w.copies? = none := by
  cases w <;> simp_all [Work.control?, Work.copies?]

namespace Host

variable {h h' : Host} {n : Nat}

/-- The work that waits to be run, in the queue or under a timer. -/
def works (h : Host) : List Work :=
  h.queue ++ h.timers.map (·.work)

/-- How many pieces of work still copy for a click. -/
def pending (h : Host) (n : Nat) : Nat :=
  h.works.countP (·.copies? = some n)

/-- The work that still copies for a click. -/
def copying (h : Host) (n : Nat) : Multiset Work :=
  copiesFor n h.works

theorem card_copying (h : Host) (n : Nat) : Multiset.card (h.copying n) = h.pending n := by
  rw [copying, copiesFor, Multiset.coe_card, pending, List.countP_eq_length_filter]

theorem mem_copying {w : Work} (hw : w ∈ h.works) (hc : w.copies? = some n) : w ∈ h.copying n :=
  List.mem_filter.mpr ⟨hw, by simpa using hc⟩

theorem Calm.copying (hc : h.Calm h') (n : Nat) : h'.copying n = h.copying n := by
  obtain ⟨ws, hq, hws⟩ := hc.queue
  have hnone : copiesFor n ws = 0 := copiesFor_of_forall fun w hw => by
    simp [Work.copies?_of_control?_eq_none (hws w hw)]
  simp only [Host.copying, works, hq, hc.timers, copiesFor_append, hnone, add_zero]

theorem copying_enqueue (h : Host) (w : Work) (n : Nat) :
    (h.enqueue w).copying n = h.copying n + copiesFor n [w] := by
  simp only [copying, works, enqueue, copiesFor_append, add_right_comm]

theorem copying_setTimer (h : Host) (delay : Nat) (w : Work) (n : Nat) :
    (h.setTimer delay w).copying n = h.copying n + copiesFor n [w] := by
  simp only [copying, works, setTimer, List.map_append, List.map_singleton, copiesFor_append,
    add_assoc]

theorem copying_eraseIdx {k : Nat} {w : Work} (hk : h.queue[k]? = some w) (n : Nat) :
    ({ h with queue := h.queue.eraseIdx k } : Host).copying n + copiesFor n [w] = h.copying n := by
  obtain ⟨hlt, hget⟩ := List.getElem?_eq_some_iff.mp hk
  have hperm : copiesFor n ([w] ++ h.queue.eraseIdx k) = copiesFor n h.queue :=
    copiesFor_perm (hget ▸ List.getElem_cons_eraseIdx_perm hlt)
  rw [copiesFor_append] at hperm
  simp only [copying, works, copiesFor_append, ← hperm]
  rw [add_right_comm, add_comm (copiesFor n [w])]

theorem copying_fireTimers (h : Host) (time n : Nat) :
    (h.fireTimers time).copying n = h.copying n := by
  have hlater : (fun τ : Timer => !decide (τ.due ≤ time)) = fun τ => decide (time < τ.due) := by
    funext τ
    rw [← decide_not]
    simp only [Nat.not_le]
  have htimers := List.filter_append_perm (fun τ : Timer => decide (τ.due ≤ time)) h.timers
  rw [hlater] at htimers
  have hworks : (h.fireTimers time).works.Perm h.works := by
    have := (htimers.map (·.work)).append_left h.queue
    rwa [List.map_append, ← List.append_assoc] at this
  exact copiesFor_perm hworks

end Host

/-! ## §2 What an action does to it -/

/-- The work that is left of a piece that has been run: with a slow clipboard, the text that has
been read is still to be written. -/
def Work.next? (h : Host) : Work → Option Work
  | .click n block control clipboard =>
    if (h.clipboard clipboard).delay = 0 then none
    else some (.write n block control clipboard (h.document.innerText block))
  | _ => none

theorem Work.copies?_of_next? {h : Host} {v w : Work} (hv : w.next? h = some v) :
    v.copies? = w.copies? := by
  cases w with
  | click n block control clipboard =>
    rw [Work.next?] at hv
    split at hv
    · simp at hv
    · obtain rfl := Option.some.inj hv
      rfl
  | write _ _ _ _ _ | note _ _ | armRevert _ | revert _ | attach _ | observe _ =>
    simp [Work.next?] at hv

namespace Action

/-- The number that the action gives the work for a click. -/
def number? : Action → Host → Option Nat
  | click _, h => some h.clicks
  | handle _ _ _, h => some h.clicks
  | _, _ => none

/-- The work that is left of the piece that the action runs. -/
def next? (a : Action) (h : Host) : Option Work :=
  (a.work? h).bind (·.next? h)

end Action

namespace Host

variable {h h' : Host} {n : Nat}

theorem copying_write (h : Host) (block control : NodeId) (clipboard text : String) (n : Nat) :
    (h.write block control clipboard text).2.copying n = h.copying n := by
  obtain ⟨h₁, -, -, hc, heq⟩ := h.write_eq block control clipboard text
  rw [heq, copying_enqueue, (showLabel_spec h₁ control _).2.2.copying, hc.copying]
  exact add_zero _

theorem copying_run (h : Host) (w : Work) (n : Nat) :
    (h.run w).copying n = h.copying n + copiesFor n (w.next? h).toList := by
  cases w with
  | click m block control clipboard =>
    by_cases hd : (h.clipboard clipboard).delay = 0
    · rw [run, beginClick_of_prompt hd, copying_write, Work.next?, if_pos hd]
      exact (add_zero _).symm
    · rw [run, beginClick_of_slow hd, copying_setTimer, Work.next?, if_neg hd]
      rfl
  | write m block control clipboard text =>
    exact (copying_write h block control clipboard text n).trans (add_zero _).symm
  | note _ _ => exact (add_zero _).symm
  | armRevert control => exact copying_setTimer h _ _ n
  | revert control => exact ((showLabel_spec h control _).2.2.copying n).trans (add_zero _).symm
  | attach i => exact ((calm_attach h i).copying n).trans (add_zero _).symm
  | observe i => exact ((calm_runObserver h i).copying n).trans (add_zero _).symm

theorem copying_dispatchClick (h : Host) (x : NodeId) (n : Nat) :
    (h.dispatchClick x).2.copying n =
      h.copying n + copiesFor n ((h.document.clickListeners x).map (workOf h.clicks)) := by
  simp only [copying, works, dispatchClick, copiesFor_append, add_right_comm]

/-- Of what copies for a click, an action takes the piece that it runs and leaves what comes of
it. -/
theorem copying_perform (h : Host) (a : Action) (hn : a.number? h ≠ some n) :
    (a.perform h).copying n + copiesFor n (a.work? h).toList =
      h.copying n + copiesFor n (a.next? h).toList := by
  have hcalm : ∀ {h'}, h.Calm h' → h'.copying n + 0 = h.copying n + 0 := fun hc => by
    rw [hc.copying]
  cases a with
  | handle block control clipboard =>
    have hne : ∀ w : Work, w.copies? = some h.clicks → copiesFor n [w] = 0 := fun w hw =>
      copiesFor_of_forall fun v hv => by
        rwa [List.mem_singleton.mp hv, hw]
    have hrun := copying_run h (.click h.clicks block control clipboard) n
    rw [Action.work?, Option.toList_some, hne _ rfl, add_zero]
    exact hrun
  | run k =>
    cases hk : h.queue[k]? with
    | none => simp [Action.perform_run_of_none hk, Action.work?, Action.next?, hk]
    | some w =>
      -- what else is queued does not matter for what comes of a piece of work
      have hnext : w.next? { h with queue := h.queue.eraseIdx k } = w.next? h := by
        cases w <;> rfl
      rw [Action.perform_run hk, copying_run, hnext, add_right_comm, Action.next?, Action.work?, hk,
        Option.toList_some, copying_eraseIdx hk, Option.bind_some]
  | click x =>
    have hnone : copiesFor n ((h.document.clickListeners x).map (workOf h.clicks)) = 0 := by
      refine copiesFor_of_forall fun w hw => ?_
      obtain ⟨l, -, rfl⟩ := List.mem_map.mp hw
      cases l with
      | copyBlock _ _ _ => exact hn
      | note _ => simp [workOf, Work.copies?]
    have hclick := copying_dispatchClick h x n
    rw [hnone] at hclick
    exact congrArg (· + 0) (hclick.trans (add_zero _))
  | advance time => exact congrArg (· + 0) (copying_fireTimers h time n)
  | operate o => exact hcalm ((wake_spec _).2.2.of_start rfl rfl rfl)
  | reload events => exact hcalm (edit_spec h _).2.2
  | enhance clipboard => exact hcalm (calm_enhance h clipboard)
  | flush i => exact hcalm (calm_flushSession h i)
  | openSession clipboard => exact hcalm (calm_beginSession h clipboard)
  | closeSession i => exact hcalm (calm_closeSession h i)
  | abandonSession i => exact hcalm (calm_abandonSession h i)
  | markReady => exact hcalm (markReady_spec h).2.2
  | setClipboard _ _ | takeNotes => rfl

theorem mem_copying_of_work {a : Action} (hn : a.number? h ≠ some n) {w : Work}
    (hw : a.work? h = some w) (hc : w.copies? = some n) : w ∈ h.copying n := by
  cases a with
  | handle block control clipboard =>
    obtain rfl := Option.some.inj hw
    exact absurd hc hn
  | run k => exact mem_copying (List.mem_append_left _ (List.mem_of_getElem? hw)) hc
  | operate _ | reload _ | enhance _ | flush _ | click _ | advance _ | openSession _
  | closeSession _ | abandonSession _ | markReady | setClipboard _ _ | takeNotes =>
    simp [Action.work?] at hw

/-- An action that runs no work of the click leaves alone what copies for it. -/
theorem copying_perform_of_other {a : Action} (hn : a.number? h ≠ some n)
    (hw : ∀ w, a.work? h = some w → w.copies? ≠ some n) :
    (a.perform h).copying n = h.copying n := by
  have hrun := copying_perform h a hn
  have hwork : copiesFor n (a.work? h).toList = 0 := copiesFor_of_forall fun w hm =>
    hw w (Option.mem_toList.mp hm)
  have hnext : copiesFor n (a.next? h).toList = 0 := copiesFor_of_forall fun v hm => by
    obtain ⟨w, hw', hv⟩ := Option.bind_eq_some_iff.mp (Option.mem_toList.mp hm)
    rw [Work.copies?_of_next? hv]
    exact hw w hw'
  rwa [hwork, hnext, add_zero, add_zero] at hrun

/-- If the action runs a piece of it, that piece is taken, and what comes of it is left. -/
theorem copying_perform_of_work {a : Action} (hn : a.number? h ≠ some n) {w : Work}
    (hw : a.work? h = some w) (hc : w.copies? = some n) :
    (a.perform h).copying n + {w} = h.copying n + ((w.next? h).toList : Multiset Work) := by
  have hrun := copying_perform h a hn
  have hnext : copiesFor n (w.next? h).toList = ((w.next? h).toList : Multiset Work) := by
    rw [copiesFor, List.filter_eq_self.mpr fun v hv => ?_]
    rw [decide_eq_true_iff, Work.copies?_of_next? (Option.mem_toList.mp hv), hc]
  rwa [hw, Option.toList_some, copiesFor_singleton hc, Action.next?, hw, Option.bind_some,
    hnext] at hrun

end Host

/-! ## §3 The numbers of clicks -/

/-- Whether the action handles a click at once, without its being counted. -/
def Action.isHandled : Action → Bool
  | .handle _ _ _ => true
  | _ => false

namespace Host

variable {h : Host} {a : Action} {n : Nat}

theorem clicks_le_perform (h : Host) (a : Action) : h.clicks ≤ (a.perform h).clicks := by
  by_cases ha : ∃ x, a = .click x
  · obtain ⟨x, rfl⟩ := ha
    exact Nat.le_succ _
  · exact (clicks_perform h fun x hx => ha ⟨x, hx⟩).ge

theorem clicks_le_performAll (h : Host) (as : List Action) :
    h.clicks ≤ (Action.performAll as h).clicks := by
  induction as generalizing h with
  | nil => exact le_rfl
  | cons a as ih => exact (clicks_le_perform h a).trans (ih (a.perform h))

theorem number?_ne (hn : n < h.clicks) (a : Action) : a.number? h ≠ some n := by
  cases a <;> simp [Action.number?, Nat.ne_of_gt hn]

/-- No work copies for a click that is still to come. -/
def Numbered (h : Host) : Prop :=
  ∀ n, h.clicks ≤ n → h.copying n = 0

theorem numbered_start (d : Document) : (start d).Numbered := fun _ _ => rfl

theorem Numbered.perform (hh : h.Numbered) (ha : a.isHandled = false) :
    (a.perform h).Numbered := by
  intro n hn
  have hcopy := hh n ((clicks_le_perform h a).trans hn)
  have hnumber : a.number? h ≠ some n := by
    cases a with
    | click x =>
      have hlt : h.clicks < n := hn
      simpa [Action.number?] using Nat.ne_of_lt hlt
    | handle _ _ _ => simp [Action.isHandled] at ha
    | _ => simp [Action.number?]
  rw [copying_perform_of_other hnumber fun w hw hc => ?_, hcopy]
  have hmem := mem_copying_of_work hnumber hw hc
  simp [hcopy] at hmem

theorem Numbered.performAll (hh : h.Numbered) {as : List Action}
    (has : ∀ a ∈ as, a.isHandled = false) : (Action.performAll as h).Numbered := by
  induction as generalizing h with
  | nil => exact hh
  | cons a as ih =>
    obtain ⟨ha, has⟩ := List.forall_mem_cons.mp has
    exact ih (hh.perform ha) has

end Host

/-! ## §4 The stages of a click -/

theorem Work.copies?_of_attempt? {h : Host} {w : Work} {t : Attempt} (ht : w.attempt? h = some t) :
    w.copies? = some t.number := by
  cases w with
  | click n block control clipboard =>
    rw [Work.attempt?] at ht
    split at ht
    · rw [← Option.some.inj ht]
      rfl
    · simp at ht
  | write n block control clipboard text =>
    rw [← Option.some.inj ht]
    rfl
  | note _ _ | armRevert _ | revert _ | attach _ | observe _ => simp [Work.attempt?] at ht

namespace Action

/-- Whether the action runs the work of the click for the first time. -/
def starts (n : Nat) (a : Action) (h : Host) : Bool :=
  match a.work? h with
  | some (.click m _ _ _) => m = n
  | _ => false

/-- The state in which the work of a click is first run. -/
def firstRun? (n : Nat) : List Action → Host → Option Host
  | [], _ => none
  | a :: as, h => if a.starts n h then some h else firstRun? n as (a.perform h)

theorem firstRun?_append (n : Nat) (as bs : List Action) (h : Host) :
    firstRun? n (as ++ bs) h = (firstRun? n as h).or (firstRun? n bs (performAll as h)) := by
  induction as generalizing h with
  | nil => rfl
  | cons a as ih =>
    rw [List.cons_append, firstRun?, firstRun?, ih]
    split <;> rfl

/-- The attempts that a run makes for a click. -/
def attemptsFor (n : Nat) (as : List Action) (h : Host) : List Attempt :=
  (attempts as h).filter (·.number = n)

end Action

/-- How far a click has come, by the state in which its work was first run and the attempts that
have been made for it. -/
inductive CopyStage (n : Nat) (block control : NodeId) (clipboard : String) (h : Host) :
    Option Host → List Attempt → Prop
  /-- Its work has not been run, -/
  | queued (hc : h.copying n = {.click n block control clipboard}) :
    CopyStage n block control clipboard h none []
  /-- or the text that it has read is still to be written, -/
  | waiting {s : Host}
    (hc : h.copying n = {.write n block control clipboard (s.document.innerText block)}) :
    CopyStage n block control clipboard h (some s) []
  /-- or an attempt has been made to write it. -/
  | finished {s s' : Host} (hc : h.copying n = 0) :
    CopyStage n block control clipboard h (some s)
      [s'.attempt n block control clipboard (s.document.innerText block)]

namespace CopyStage

variable {n : Nat} {block control : NodeId} {clipboard : String} {h : Host} {s : Option Host}
  {ts : List Attempt}

/-- A click goes on to its next stage if its work is run, and stays where it is else. -/
theorem perform (hs : CopyStage n block control clipboard h s ts) (hn : n < h.clicks)
    (a : Action) :
    CopyStage n block control clipboard (a.perform h)
      (s.or (if a.starts n h then some h else none))
      (ts ++ (a.attempt? h).toList.filter (·.number = n)) := by
  have hnumber := Host.number?_ne hn a
  by_cases hw : ∃ w, a.work? h = some w ∧ w.copies? = some n
  swap
  · have hother : ∀ w, a.work? h = some w → w.copies? ≠ some n := fun w hw' hc => hw ⟨w, hw', hc⟩
    have hcopy := Host.copying_perform_of_other hnumber hother
    have hstarts : a.starts n h = false := by
      unfold Action.starts
      split
      · next m _ _ _ hclick => exact decide_eq_false fun hm => hother _ hclick (congrArg some hm)
      · rfl
    have hattempt : (a.attempt? h).toList.filter (·.number = n) = [] := by
      refine List.filter_eq_nil_iff.mpr fun t ht htn => ?_
      obtain ⟨w, hw', ht⟩ := Option.bind_eq_some_iff.mp (Option.mem_toList.mp ht)
      exact hother w hw' (of_decide_eq_true htn ▸ Work.copies?_of_attempt? ht)
    rw [hstarts, hattempt, List.append_nil, if_neg (by simp), Option.or_none]
    cases hs with
    | queued hc => exact .queued (hcopy.trans hc)
    | waiting hc => exact .waiting (hcopy.trans hc)
    | finished hc => exact .finished (hcopy.trans hc)
  obtain ⟨w, hw, hc⟩ := hw
  have hmem := Host.mem_copying_of_work hnumber hw hc
  have hcopy := Host.copying_perform_of_work hnumber hw hc
  cases hs with
  | queued hq =>
    obtain rfl := Multiset.mem_singleton.mp (hq ▸ hmem)
    have hstarts : a.starts n h := by simp [Action.starts, hw]
    rw [hq, add_comm] at hcopy
    rw [if_pos hstarts, Option.none_or, List.nil_append, Action.attempt?, hw, Option.bind_some]
    have hrest := add_left_cancel hcopy
    by_cases hd : (h.clipboard clipboard).delay = 0
    · rw [Work.next?, if_pos hd] at hrest
      rw [Work.attempt?, if_pos hd, Option.toList_some,
        List.filter_cons_of_pos (by simp [Host.attempt])]
      exact .finished hrest
    · rw [Work.next?, if_neg hd] at hrest
      rw [Work.attempt?, if_neg hd]
      exact .waiting hrest
  | waiting hq =>
    obtain rfl := Multiset.mem_singleton.mp (hq ▸ hmem)
    have hstarts : a.starts n h = false := by simp [Action.starts, hw]
    rw [hq, add_comm] at hcopy
    rw [hstarts, if_neg (by simp), Option.or_none, List.nil_append, Action.attempt?, hw,
      Option.bind_some, Work.attempt?, Option.toList_some,
      List.filter_cons_of_pos (by simp [Host.attempt])]
    exact .finished (add_left_cancel hcopy)
  | finished hq => simp [hq] at hmem

theorem once (hs : CopyStage n block control clipboard h s ts) : h.pending n + ts.length = 1 := by
  rw [← Host.card_copying]
  cases hs with
  | queued hc | waiting hc | finished hc => rw [hc]; rfl

theorem copy (hs : CopyStage n block control clipboard h s ts) {t : Attempt} (ht : t ∈ ts) :
    t.block = block ∧ t.control = control ∧ t.clipboard = clipboard ∧
      (∃ s', s = some s' ∧ t.text = s'.document.innerText block) ∧
        (t.outcome = .copied ↔ t.succeeded) := by
  cases hs with
  | queued _ | waiting _ => simp at ht
  | finished _ =>
    obtain rfl := List.mem_singleton.mp ht
    exact ⟨rfl, rfl, rfl, ⟨_, rfl, rfl⟩, Attempt.outcome_eq_copied_iff rfl⟩

/-- A click goes through its stages in a run. -/
theorem performAll (hs : CopyStage n block control clipboard h none []) (hn : n < h.clicks)
    (as : List Action) :
    CopyStage n block control clipboard (Action.performAll as h) (Action.firstRun? n as h)
      (Action.attemptsFor n as h) := by
  -- from the end of the run, so that the last action is a step from the stage reached before it
  induction as using List.reverseRecOn with
  | nil => exact hs
  | append_singleton as a ih =>
    have hstep := ih.perform (hn.trans_le (Host.clicks_le_performAll h as)) a
    rw [Action.performAll_append, Action.firstRun?_append, Action.attemptsFor,
      Action.attempts_append, List.filter_append, Action.attempts, Action.attempts, List.append_nil]
    exact hstep

end CopyStage

end CopyControl
