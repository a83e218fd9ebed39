import CopyControl.Proofs.Host.Attempts
import CopyControl.Proofs.Host.Pairs

/-!
The i-th control copies the i-th code block.

A page is rendered, gets a pass, and is then given one source after the other, with a pass after
each. Whatever came before, the page comes out of a new body as it comes out of its first rendering:
without controls, and with the blocks of its source (`Tidy.replaceBody_pristine`). So after each
pass the controls are those of the blocks, in the order of the code blocks in the source, and what a
click on one of them leaves on the clipboard is the text of its code block
(`controls_copy_blocks`).

* §1 rendering and reloads
* §2 a click, from beginning to end
* §3 the source and the clipboard
-/

namespace CopyControl

open Document Markdown

/-! ## §1 Rendering and reloads -/

namespace Document

variable {d d₀ : Document}

/-- A page gets a new body, and then a pass. -/
def reload (d : Document) (events : List Event) (clipboard : String) :
    Except DocumentError Document :=
  match (replaceBody events).apply d with
  | (.ok _, d) => .ok (d.enhance clipboard).document
  | (.error e, _) => .error e

/-- One source after the other, each with the clipboard that its pass is for. -/
def reloadAll (d : Document) (reloads : List (List Event × String)) :
    Except DocumentError Document :=
  reloads.foldlM (fun d r => d.reload r.1 r.2) d

/-- With a new body a page is pristine, whatever has become of it before. -/
theorem Tidy.replaceBody_pristine (h : Tidy d₀ d) (h₀ : d₀.WellFormed)
    (hplain : ∀ y e, d₀.element? y = some e → e.Unadorned) (events : List Event) :
    (Markdown.replaceBody events).Gives d fun _ d' =>
      Tidy d₀ d' ∧ d'.Pristine d₀.head (sketch events) := by
  obtain ⟨n, d', heq, htidy⟩ := h.replaceBody h₀ hplain events
  obtain ⟨_, _, heq', -, hbody⟩ := h.page.replaceBody events
  obtain ⟨-, rfl⟩ := Prod.mk.inj (heq.symm.trans heq')
  exact ⟨n, d', heq, htidy, htidy.page, htidy.rooted,
    htidy.page.unadorned_of_sameBelow h₀ hplain htidy.rooted htidy.head hbody, hbody⟩

/-- A page that is given one source after the other is, before the last pass, pristine and drawn
from the last source. -/
theorem reloadAll_spec {source : List Event} (clipboard : String) (h : Tidy d₀ d)
    (hd : d.Pristine d₀.head (sketch source)) (h₀ : d₀.WellFormed)
    (hplain : ∀ y e, d₀.element? y = some e → e.Unadorned) (reloads : List (List Event × String)) :
    ∃ d' : Document, d'.Pristine d₀.head (sketch (reloads.getLastD (source, clipboard)).1) ∧
      (d.enhance clipboard).document.reloadAll reloads =
        .ok (d'.enhance (reloads.getLastD (source, clipboard)).2).document := by
  induction reloads generalizing d source clipboard with
  | nil => exact ⟨d, hd, rfl⟩
  | cons r reloads ih =>
    obtain ⟨events, clipboard'⟩ := r
    obtain ⟨n, d₁, heq, htidy, hd₁⟩ :=
      (h.enhance h₀ clipboard).replaceBody_pristine h₀ hplain events
    obtain ⟨d', hd', hreload⟩ := ih clipboard' htidy hd₁
    have hfirst : (d.enhance clipboard).document.reload events clipboard' =
        .ok (d₁.enhance clipboard').document := by
      rw [reload, heq]
    refine ⟨d', by rwa [List.getLastD_cons], ?_⟩
    rw [List.getLastD_cons, ← hreload, reloadAll, List.foldlM_cons]
    dsimp only
    rw [hfirst]
    rfl

end Document

/-! ## §2 A click, from beginning to end -/

/-- Whether a write gets through. -/
def ClipboardLink.IsOpen (l : ClipboardLink) : Prop :=
  l.outage = none ∧ l.memory.denial = none

theorem ClipboardLink.contents_write {l : ClipboardLink} (h : l.IsOpen) (text : String) :
    (l.write text).2.memory.contents = some text := by
  obtain ⟨houtage, hdenial⟩ := h
  simp [ClipboardLink.write, MemoryClipboard.write, houtage, hdenial]

namespace Host

variable {h : Host} {block control : NodeId} {clipboard text : String}

/-- Nothing is queued or waits, and no session is there that might be woken. -/
structure IsIdle (h : Host) : Prop where
  queue : h.queue = []
  timers : h.timers = []
  sessions : h.sessions = []

theorem wake_of_no_sessions (hs : h.sessions = []) : h.wake = h := by
  have hone : ∀ r, h.wakeObserver r = h := fun r => by
    simp [wakeObserver, sessionOf?, hs]
  rw [wake]
  induction h.document.observers with
  | nil => rfl
  | cons r rs ih => rw [List.foldl_cons, hone, ih]

theorem queue_showLabel (hs : h.sessions = []) (l : ControlLabel) :
    (h.showLabel control l).queue = h.queue := by
  have hedit : h.edit (setLabel control l) =
      (((setLabel control l).apply h.document).1,
        { h with document := ((setLabel control l).apply h.document).2 }) :=
    congrArg (Prod.mk _) (wake_of_no_sessions hs)
  rw [showLabel, hedit]
  cases ((setLabel control l).apply h.document).1 <;> rfl

/-- A write leaves only the revert of its label to be armed. -/
theorem queue_write (hs : h.sessions = []) (block control : NodeId) (clipboard text : String) :
    (h.write block control clipboard text).2.queue = h.queue ++ [.armRevert control] ∧
      (h.write block control clipboard text).2.timers = h.timers := by
  have hlabel : ∀ h₁ : Host, h₁.sessions = [] → h₁.queue = h.queue → h₁.timers = h.timers → ∀ l,
      ((h₁.showLabel control l).enqueue (.armRevert control)).queue =
          h.queue ++ [.armRevert control] ∧
        ((h₁.showLabel control l).enqueue (.armRevert control)).timers = h.timers := by
    intro h₁ hs₁ hq ht l
    exact ⟨congrArg (· ++ _) ((queue_showLabel hs₁ l).trans hq),
      (h₁.showLabel_spec control l).2.2.timers.trans ht⟩
  unfold write
  dsimp only
  split
  all_goals
    refine hlabel _ ?_ ?_ ?_ _
    · exact hs
    · rfl
    · rfl

/-- After the work that writes a text, the text is on the clipboard, and the host has nothing left
to do but the revert of the label. -/
theorem settle_write {w : Work} (hq : h.queue = [w]) (ht : h.timers = []) (hs : h.sessions = [])
    (hw : { h with queue := [] }.run w =
      ({ h with queue := [] }.write block control clipboard text).2)
    (hopen : (h.clipboard clipboard).IsOpen) :
    h.settle.queue = [] ∧ (∃ due, h.settle.timers = [⟨due, .revert control⟩]) ∧
      (h.settle.clipboard clipboard).memory.contents = some text := by
  have heffort : h.effort = 29 + 1 + 1 + 1 := by simp [effort, hq, ht, hs]
  have hstep : h.step = ({ h with queue := [] }.write block control clipboard text).2 := by
    rw [← hw, step, hq]
  obtain ⟨hqueue, htimers⟩ :=
    queue_write (h := { h with queue := [] }) hs block control clipboard text
  have hcontents := congrFun (clipboard_eq
    (copyState_write { h with queue := [] } block control clipboard text)) clipboard
  rw [clipboard_setClipboard, if_pos rfl] at hcontents
  generalize ({ h with queue := [] }.write block control clipboard text).2 = h₁ at *
  rw [List.nil_append] at hqueue
  have harm : h₁.step = { h₁ with queue := [] }.setTimer Enhance.revertDelay (.revert control) := by
    rw [step, hqueue]
    rfl
  have hsettle : h.settle =
      { h₁ with queue := [] }.setTimer Enhance.revertDelay (.revert control) := by
    rw [settle, heffort, runQueued, if_neg (by simp [hq]), hstep, runQueued,
      if_neg (by simp [hqueue]), harm, runQueued, if_pos (by simp [setTimer])]
  rw [hsettle]
  refine ⟨rfl, ⟨_, congrArg (· ++ _) (htimers.trans ht)⟩, ?_⟩
  exact (congrArg (·.memory.contents) hcontents).trans (ClipboardLink.contents_write hopen text)

/-- The wait for a click is over when its text has been written. -/
theorem contents_finishClick {w : Work} (hq : h.queue = [w]) (ht : h.timers = [])
    (hs : h.sessions = [])
    (hw : { h with queue := [] }.run w =
      ({ h with queue := [] }.write block control clipboard text).2)
    (hopen : (h.clipboard clipboard).IsOpen) (number n : Nat) :
    ((h.finishClick number (n + 1)).clipboard clipboard).memory.contents = some text := by
  obtain ⟨hqueue, ⟨due, htimers⟩, hcontents⟩ := settle_write hq ht hs hw hopen
  have hpending : h.settle.isClickPending number = false := by
    simp [isClickPending, hqueue, htimers, Work.click?]
  have hdue : h.settle.nextDue? = some due := by simp [nextDue?, htimers]
  rw [finishClick]
  simp only [hdue, hpending]
  exact hcontents

/-- A host on which a click has just been made that is to copy a block. -/
def clicked (h : Host) (block control : NodeId) (clipboard : String) : Host :=
  { h with
    queue := [.click h.clicks block control clipboard]
    clicks := h.clicks + 1 }

/-- A prompt clipboard gets the text at once. -/
theorem contents_of_prompt (hidle : h.IsIdle) (hopen : (h.clipboard clipboard).IsOpen)
    (hdelay : (h.clipboard clipboard).delay = 0) (n : Nat) :
    (((h.clicked block control clipboard).finishClick h.clicks (n + 1)).clipboard
      clipboard).memory.contents = some (h.document.innerText block) :=
  contents_finishClick (h := h.clicked block control clipboard) rfl hidle.timers hidle.sessions
    (beginClick_of_prompt (h := { h.clicked block control clipboard with queue := [] }) hdelay ..)
    hopen _ n

/-- A slow clipboard gets the text when its delay is over, as it was read at the click. -/
theorem contents_of_slow (hidle : h.IsIdle) (hopen : (h.clipboard clipboard).IsOpen)
    (hdelay : (h.clipboard clipboard).delay ≠ 0) (n : Nat) :
    (((h.clicked block control clipboard).finishClick h.clicks (n + 2)).clipboard
      clipboard).memory.contents = some (h.document.innerText block) := by
  obtain ⟨-, ht, hs⟩ := hidle
  let due := h.now + (h.clipboard clipboard).delay
  let late : Work := .write h.clicks block control clipboard (h.document.innerText block)
  let waiting : Host := { h with queue := [], timers := [⟨due, late⟩], clicks := h.clicks + 1 }
  let writing : Host := { waiting with now := due, queue := [late], timers := [] }
  have hbegin : (h.clicked block control clipboard).step = waiting := by
    have hstep : (h.clicked block control clipboard).step =
        { h.clicked block control clipboard with queue := [] }.beginClick
          h.clicks block control clipboard := rfl
    rw [hstep, beginClick_of_slow (h := { h.clicked block control clipboard with queue := [] })
      hdelay, setTimer, clicked, ht]
    rfl
  have heffort : (h.clicked block control clipboard).effort = 30 + 1 + 1 := by
    simp [effort, clicked, ht, hs]
  have hsettle : (h.clicked block control clipboard).settle = waiting := by
    rw [settle, heffort, runQueued, if_neg (by simp [clicked]), hbegin, runQueued,
      if_pos (by simp [waiting])]
  have hdue : waiting.nextDue? = some due := by simp [nextDue?, waiting]
  have hpending : waiting.isClickPending h.clicks = true := by
    simp [isClickPending, waiting, late, Work.click?]
  have hfire : waiting.fireTimers due = writing := by simp [fireTimers, waiting, writing]
  have hrun : { writing with queue := [] }.run late =
      ({ writing with queue := [] }.write block control clipboard
        (h.document.innerText block)).2 := by
    rw [run]
  rw [finishClick]
  simp only [hsettle, hdue, hpending, hfire, if_true]
  exact contents_finishClick (h := writing) (w := late) rfl rfl hs hrun hopen _ n

/-- A click on a control with one listener, which copies a block, puts the text of the block on the
clipboard. -/
theorem click_spec (hidle : h.IsIdle)
    (hl : h.document.clickListeners control = [.copyBlock block control clipboard])
    (hopen : (h.clipboard clipboard).IsOpen) :
    (h.click control).1 = 1 ∧ ((h.click control).2.clipboard clipboard).memory.contents =
      some (h.document.innerText block) := by
  have hdispatch : h.dispatchClick control = (1, h.clicked block control clipboard) := by
    simp [dispatchClick, hl, workOf, hidle.queue, clicked]
  have heffort : (h.clicked block control clipboard).effort = 30 + 2 := by
    simp [effort, clicked, hidle.timers, hidle.sessions]
  have hclick : h.click control =
      (1, (h.clicked block control clipboard).finishClick h.clicks (30 + 2)) := by
    rw [click, hdispatch, ← heffort]
    rfl
  rw [hclick]
  refine ⟨rfl, ?_⟩
  by_cases hdelay : (h.clipboard clipboard).delay = 0
  · exact contents_of_prompt hidle hopen hdelay _
  · exact contents_of_slow hidle hopen hdelay _

end Host

/-! ## §3 The source and the clipboard -/

/-- A click on the control sets off one thing, and when it is done the text is on the clipboard,
however slow that is: on any host that has nothing else to do. -/
structure Document.Copies (d : Document) (clipboard : String) (control : NodeId) (text : String) :
    Prop where
  once : (d.clickListeners control).length = 1
  click : ∀ h : Host, h.document = d → h.IsIdle → (h.clipboard clipboard).IsOpen →
    (h.click control).1 = 1 ∧ ((h.click control).2.clipboard clipboard).memory.contents = some text

namespace Document

variable {d : Document} {clipboard : String} {block control : NodeId}

theorem HasControl.copies (h : d.HasControl clipboard block control) :
    d.Copies clipboard control (d.innerText block) where
  once := by rw [h.listeners, List.length_singleton]
  click := by
    rintro k rfl hidle hopen
    exact Host.click_spec hidle h.listeners hopen

/-- **Block i has control i.** A page is rendered and gets a pass, and may then be given other
sources, with a pass after each. Let the last source be well nested, with nothing but text in its
code blocks. Then the controls are those that are found for the blocks, in the same order; there are
as many as code blocks begin in the source; and each has one listener, and copies the texts of its
code block. -/
theorem controls_copy_blocks (source : List Event) (options : PageOptions) (first : String)
    (reloads : List (List Event × String)) {events : List Event} {ps : List Branch}
    (hlast : reloads.getLastD (source, first) = (events, clipboard))
    (hnest : eventTree? events = some ps) (hplain : allPlain ps) :
    ∃ page d, buildPage source options = .ok page ∧
      (page.enhance first).document.reloadAll reloads = .ok d ∧
      d.codeBlocks.map d.controlFor? = d.controls.map some ∧
      d.controls.length = events.countP Event.startsBlock ∧
      List.Forall₂ (d.Copies clipboard) d.controls (blockTextsOf ps) := by
  obtain ⟨page, hbuild, hdraft⟩ := buildPage_spec source options
  obtain ⟨htidy, hunadorned⟩ := Host.tidy_buildPage hbuild
  obtain ⟨d', hd', hreload⟩ := reloadAll_spec first htidy
    ⟨hdraft.page, htidy.rooted, hunadorned, hdraft.body⟩ hdraft.page.wellFormed hunadorned reloads
  rw [hlast] at hd' hreload
  have hblocks := hasBlocks_sketch hnest hplain
  have hpairs := hd'.pairsUp hblocks.orderly clipboard
  have htexts := hd'.map_innerText_enhance hblocks.orderly clipboard
  rw [hblocks.blockTexts] at htexts
  refine ⟨page, _, hbuild, hreload, ?_, ?_, ?_⟩
  · rw [← List.forall₂_eq_eq_eq, List.forall₂_map_left_iff, List.forall₂_map_right_iff]
    exact hpairs.imp fun _ _ h => h.found
  · rw [← hpairs.length_eq, ← eventTree?_eq_some_iff.mp hnest, ← length_blockTextsOf ps hplain,
      ← htexts, List.length_map]
  · rw [← htexts, List.forall₂_map_right_iff]
    exact hpairs.flip.imp fun _ _ h => h.copies

/-- A list with a block in an item and one in a quote, and then a table with a block in its head. -/
def scatteredBlocks : List Branch :=
  [.container (.list none)
    [.container .item [.text "a", .container (.codeBlock (some "rust")) [.text "x\n", .text "y"]],
      .container .item [.container .blockQuote [.container (.codeBlock none) []]]],
    .container .table [.container .tableHead [.container .tableCell
      [.code "no block", .container (.codeBlock none) [.text "z"]]]]]

/-- The page had one block before, and nothing is left of it. -/
theorem controls_copy_blocks_scattered :
    let reloads := [([], "clip"), (eventsOf scatteredBlocks, "clip")]
    reloads.getLastD (Host.blockSource, "") = (eventsOf scatteredBlocks, "clip") ∧
      eventTree? (eventsOf scatteredBlocks) = some scatteredBlocks ∧
      allPlain scatteredBlocks ∧
      ∃ page d, buildPage Host.blockSource ⟨none⟩ = .ok page ∧
        (page.enhance "").document.reloadAll reloads = .ok d ∧
        d.codeBlocks.map d.controlFor? = d.controls.map some ∧ d.controls.length = 3 ∧
        List.Forall₂ (d.Copies "clip") d.controls ["x\ny", "", "z"] := by
  intro reloads
  have hnest : eventTree? (eventsOf scatteredBlocks) = some scatteredBlocks := rfl
  have hplain : allPlain scatteredBlocks := by decide
  have hcount : (eventsOf scatteredBlocks).countP Event.startsBlock = 3 := by decide
  have htexts : blockTextsOf scatteredBlocks = ["x\ny", "", "z"] := by decide +kernel
  have h := controls_copy_blocks Host.blockSource ⟨none⟩ "" reloads rfl hnest hplain
  rw [hcount, htexts] at h
  exact ⟨rfl, hnest, hplain, h⟩

end Document

end CopyControl
