import CopyControl.Proofs.Host.Copying
import CopyControl.Proofs.Host.Service

/-!
What comes of a click.

A click on a control queues one piece of work that copies (`copyStage_click`), and so makes one
attempt, whatever else goes on: for the block of the control, with the text that the block had when
the work was first run. An attempt is followed at once by the label that says what came of it
(`document_perform_of_attempt?`).

* §1 attempts and labels
* §2 one click
* §3 whole runs
-/

namespace CopyControl

open Document

namespace Host

open CopyControl.Action

variable {h : Host} {x block : NodeId} {clipboard : String}

/-! ## §1 Attempts and labels -/

/-- An attempt is followed at once by the label that says what came of it. -/
theorem document_run_of_attempt? {w : Work} {t : Attempt} (ht : w.attempt? h = some t) :
    (h.run w).document = ((setLabel t.control (.ofOutcome t.outcome)).apply h.document).2 := by
  cases w with
  | click m block control clipboard =>
    by_cases hd : (h.clipboard clipboard).delay = 0
    · rw [Work.attempt?, if_pos hd] at ht
      rw [run, beginClick_of_prompt hd, ← Option.some.inj ht]
      exact document_write rfl block control clipboard _
    · simp [Work.attempt?, hd] at ht
  | write m block control clipboard text =>
    rw [← Option.some.inj ht]
    exact document_write rfl block control clipboard text
  | note _ _ | armRevert _ | revert _ | attach _ | observe _ => simp [Work.attempt?] at ht

theorem document_perform_of_attempt? {a : Action} {t : Attempt} (ht : a.attempt? h = some t) :
    (a.perform h).document =
      ((setLabel t.control (.ofOutcome t.outcome)).apply h.document).2 := by
  obtain ⟨w, hw, hwt⟩ := Option.bind_eq_some_iff.mp ht
  obtain ⟨ws, heq⟩ := perform_of_work hw
  rw [heq]
  exact document_run_of_attempt? ((Work.attempt?_withQueue h ws w).trans hwt)

/-! ## §2 One click -/

/-- The click with the number `n` has just been made, to copy the block, and is true to it in the
run. -/
structure CopiesOnce (h : Host) (n : Nat) (block control : NodeId) (clipboard : String)
    (as : List Action) : Prop where
  /-- The copy is still to be made, or it has been made, and once. -/
  once : (performAll as h).pending n + (attemptsFor n as h).length = 1
  /-- What is written is the text that the block had when the work of the click was first run. -/
  copy : ∀ t ∈ attemptsFor n as h, t.block = block ∧ t.control = control ∧
    t.clipboard = clipboard ∧
      (∃ s, firstRun? n as h = some s ∧ t.text = s.document.innerText block) ∧
        (t.outcome = .copied ↔ t.succeeded)
  /-- If an action now makes the attempt and the control is still live, the control shows what has
  come of it. -/
  label : ∀ (a : Action) (t : Attempt), a.attempt? (performAll as h) = some t → t.number = n →
    (performAll as h).document.contains control →
    Action.timesEmptied control.index as h < UInt32.size →
    (a.perform (performAll as h)).document.controlLabel? control = some (.ofOutcome t.outcome)

/-- The work of a click on a control is queued. -/
theorem copyStage_click (hh : h.Numbered) (hs : h.document.Serves x block clipboard) :
    CopyStage h.clicks block x clipboard ((Action.click x).perform h) none [] := by
  have hworks : ∀ ls : List Listener, copiesFor h.clicks (ls.map (workOf h.clicks)) =
      ((ls.filter Listener.copies).map (workOf h.clicks) : List Work) := by
    intro ls
    rw [copiesFor, List.filter_map]
    have hsame : ∀ l : Listener,
        decide ((workOf h.clicks l).copies? = some h.clicks) = l.copies := by
      rintro (_ | _) <;> simp [workOf, Work.copies?, Listener.copies]
    exact congrArg (fun l => ((l.map (workOf h.clicks) : List Work) : Multiset Work))
      (List.filter_congr fun l _ => hsame l)
  refine .queued ?_
  rw [Action.perform, copying_dispatchClick, hh _ le_rfl, zero_add, hworks, hs.listeners]
  rfl

theorem copiesOnce_click (hw : h.document.WellFormed) (hh : h.Numbered)
    (hs : h.document.Serves x block clipboard) (as : List Action) :
    ((Action.click x).perform h).CopiesOnce h.clicks block x clipboard as := by
  have hn : h.clicks < ((Action.click x).perform h).clicks := Nat.lt_succ_self _
  have hstage := (copyStage_click hh hs).performAll hn as
  refine ⟨hstage.once, fun t => hstage.copy, fun a t ht htn hlive hn' => ?_⟩
  have hw₀ : ((Action.click x).perform h).document.WellFormed := wellFormed_perform hw _
  have hw₁ : (performAll as ((Action.click x).perform h)).document.WellFormed :=
    wellFormed_performAll hw₀ as
  have hkeep := not_emptied_of_live hw₀ (contains_of_isElement hs.isElement) hlive hn'
  have hx : (performAll as ((Action.click x).perform h)).document.IsElement x :=
    isElement_of_keeps (keeps_of_not_emptied hw₀ hkeep) hs.isElement
  have hnext := hstage.perform (hn.trans_le (clicks_le_performAll _ as)) a
  obtain ⟨-, hcontrol, -⟩ := hnext.copy (t := t) (by simp [ht, htn])
  refine Shows.controlLabel? (wellFormed_perform hw₁ a) ?_
  rw [document_perform_of_attempt? ht, hcontrol]
  exact shows_setLabel hw₁ hx _

/-! ## §3 Whole runs -/

/-- In every run, a control that a pass makes is made for a block, and as long as it is live, each
click on it makes one attempt to write to the clipboard of the injector that ran the pass: the text
that the block had when the work of the click was first run. The attempt decides what comes of the
click, and the control shows it. Nothing but attempts touches a clipboard, so a clipboard that keeps
its memory holds the text that was written last, and has counted the attempts that have reached it.

A live handle is that of the same control as long as its slot has not been emptied `2 ^ 32` times.
The control must not have been given another listener that copies; and no click must have been
handled directly before, without being counted, for such a click has the number of the next one. -/
theorem click_fidelity {d : Document} (hw : d.WellFormed) (as : List Action) :
    (∀ a : Action, ∀ x ∈ a.newControls (performAll as (start d)),
      let made := a.perform (performAll as (start d))
      ∃ block pre, ∃ clipboard ∈ a.injector? (performAll as (start d)),
        (performAll as (start d)).document.MadeFor made.document block pre x ∧
          ∀ bs : List Action, (∀ b ∈ as ++ a :: bs, b.isHandled = false) →
            (∀ b ∈ bs, ∀ l ∈ b.listenersFor x, l.copies = false) →
            Action.timesEmptied x.index bs made < UInt32.size →
            let h := performAll bs made
            h.document.contains x →
              ∀ cs, ((Action.click x).perform h).CopiesOnce h.clicks block x clipboard cs) ∧
    (∀ (a : Action) (name : String), (∀ l, a ≠ .setClipboard name l) →
      let h := performAll as (start d)
      (a.perform h).clipboard name = (h.clipboard name).after name (a.attempt? h)) ∧
    (keepMemory as (start d) → ∀ name,
      let memory := ((performAll as (start d)).clipboard name).memory
      memory.contents = Attempt.lastWritten name (attempts as (start d)) ∧
        memory.writes = Attempt.arrivals name (attempts as (start d))) := by
  have hw₀ : (performAll as (start d)).document.WellFormed :=
    wellFormed_performAll (h := start d) hw as
  refine ⟨fun a x hx => ?_, fun a name => clipboard_perform _ a, fun hkeep name => ?_⟩
  · obtain ⟨block, pre, clipboard, hc, hmade, hserves⟩ := madeFor_of_newControl hw₀ hx
    refine ⟨block, pre, clipboard, hc, hmade, fun bs hhandled hcopies hn hlive => ?_⟩
    have hw₁ := wellFormed_perform hw₀ a
    have hkeep := not_emptied_of_live hw₁ (contains_of_isElement hserves.isElement) hlive hn
    have hnumbered : (performAll bs (a.perform (performAll as (start d)))).Numbered := by
      have := (numbered_start d).performAll hhandled
      rwa [performAll_append] at this
    exact copiesOnce_click (wellFormed_performAll hw₁ bs) hnumbered
      (serves_performAll hserves hw₁ hkeep hcopies)
  · obtain ⟨hcontents, hwrites⟩ := memory_performAll hkeep name
    exact ⟨hcontents.trans (Option.or_none), hwrites.trans (Nat.zero_add _)⟩

/-- A page with a block that has a text. -/
def textBlock : List Action :=
  oneBlock.map .operate ++ [.operate (.setText ⟨4, 0⟩ "first")]

/-- The clipboard begins to take its time. -/
def slowClipboard : List Action :=
  [.setClipboard "" { ClipboardLink.direct with delay := 5 }]

/-- The work of a click is run, and the block is edited before the clipboard's time is over. -/
def lateEdit : List Action :=
  [.run 0, .operate (.setText ⟨4, 0⟩ "second"), .advance 5]

/-- The page is enhanced, and the control of the block is clicked. -/
def clickedBlock : Host :=
  (Action.click ⟨6, 0⟩).perform
    (performAll slowClipboard ((Action.enhance "").perform (performAll textBlock (start new))))

/-- All that has happened when the text is written. -/
def lateEditRun : List Action :=
  textBlock ++ .enhance "" :: slowClipboard ++ .click ⟨6, 0⟩ :: lateEdit ++ [.run 0]

theorem click_fidelity_lateEdit :
    ⟨6, 0⟩ ∈ (Action.enhance "").newControls (performAll textBlock (start new)) ∧
      (∀ b ∈ textBlock ++ .enhance "" :: slowClipboard, b.isHandled = false) ∧
      (∀ b ∈ slowClipboard, ∀ l ∈ b.listenersFor ⟨6, 0⟩, l.copies = false) ∧
      (attemptsFor 0 (lateEdit ++ [.run 0]) clickedBlock).length = 1 ∧
      (∀ t ∈ attemptsFor 0 (lateEdit ++ [.run 0]) clickedBlock,
        t.control = ⟨6, 0⟩ ∧ t.clipboard = "" ∧ t.text = "first") ∧
      (performAll (lateEdit ++ [.run 0]) clickedBlock).document.innerText ⟨4, 0⟩ = "second" ∧
      (performAll (lateEdit ++ [.run 0]) clickedBlock).document.controlLabel? ⟨6, 0⟩ =
        some .copied ∧
      keepMemory lateEditRun (start new) ∧
      ((performAll lateEditRun (start new)).clipboard "").memory.contents = some "first" ∧
      ((performAll lateEditRun (start new)).clipboard "").memory.writes = 1 := by
  have hx : ⟨6, 0⟩ ∈ (Action.enhance "").newControls (performAll textBlock (start new)) := by
    decide +kernel
  have hhandled : ∀ b ∈ textBlock ++ .enhance "" :: slowClipboard, b.isHandled = false := by
    decide +kernel
  have hcopies : ∀ b ∈ slowClipboard, ∀ l ∈ b.listenersFor ⟨6, 0⟩, l.copies = false := by
    decide +kernel
  have hkeep : keepMemory lateEditRun (start new) := by decide +kernel
  obtain ⟨hcontrols, -, -⟩ := click_fidelity wellFormed_new textBlock
  obtain ⟨block, pre, clipboard, hc, hmade, hclicks⟩ := hcontrols _ _ hx
  obtain rfl : "" = clipboard := Option.some.inj hc
  obtain rfl : block = ⟨4, 0⟩ := by
    have hcode : (performAll textBlock (start new)).document.codeBlocks = [⟨4, 0⟩] := by
      decide +kernel
    have hmem := List.mem_of_mem_filter (List.mem_of_mem_head? hmade.first)
    rw [hcode] at hmem
    exact List.mem_singleton.mp hmem
  have hrun : ∀ cs, clickedBlock.CopiesOnce 0 ⟨4, 0⟩ ⟨6, 0⟩ "" cs := by
    intro cs
    have hclick := hclicks slowClipboard hhandled hcopies (by decide +kernel) (by decide +kernel) cs
    have hnumber : (performAll slowClipboard ((Action.enhance "").perform
        (performAll textBlock (start new)))).clicks = 0 := by
      decide +kernel
    rw [hnumber] at hclick
    exact hclick
  refine ⟨hx, hhandled, hcopies, ?_, fun t ht => ?_, by decide +kernel, ?_, hkeep, ?_⟩
  · have honce := (hrun (lateEdit ++ [.run 0])).once
    have hpending : (performAll (lateEdit ++ [.run 0]) clickedBlock).pending 0 = 0 := by
      decide +kernel
    omega
  · obtain ⟨-, hcontrol, hname, ⟨s, hs, htext⟩, -⟩ := (hrun (lateEdit ++ [.run 0])).copy t ht
    have hfirst : (firstRun? 0 (lateEdit ++ [.run 0]) clickedBlock).map
        (·.document.innerText ⟨4, 0⟩) = some "first" := by
      decide +kernel
    rw [hs] at hfirst
    exact ⟨hcontrol, hname, htext.trans (Option.some.inj hfirst)⟩
  · have hattempt : ((Action.run 0).attempt? (performAll lateEdit clickedBlock)).map
        (fun t => (t.number, t.outcome)) = some (0, .copied) := by
      decide +kernel
    obtain ⟨t, ht, heq⟩ := Option.map_eq_some_iff.mp hattempt
    obtain ⟨hnumber, houtcome⟩ := Prod.mk.inj heq
    have hlabel := (hrun lateEdit).label (.run 0) t ht hnumber (by decide +kernel)
      (by decide +kernel)
    rw [houtcome] at hlabel
    rw [performAll_append]
    exact hlabel
  · obtain ⟨hcontents, hwrites⟩ := (click_fidelity wellFormed_new lateEditRun).2.2 hkeep ""
    have hlast : Attempt.lastWritten "" (attempts lateEditRun (start new)) = some "first" := by
      decide +kernel
    have harrivals : Attempt.arrivals "" (attempts lateEditRun (start new)) = 1 := by
      decide +kernel
    exact ⟨hcontents.trans hlast, hwrites.trans harrivals⟩

end Host

end CopyControl
