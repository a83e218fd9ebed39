import CopyControl.Proofs.Enhance.Label
import CopyControl.Proofs.Enhance.Result
import CopyControl.Proofs.Host.Actions
import CopyControl.Proofs.Markdown.Fragment

/-!
The labels of controls, however clicks overlap.

Timers are never taken back, so a control that has been clicked a few times has a few reverts
under way. Whatever their order, the invariant `Faithful` holds: each control shows one of the
labels, and if it is not the first one, a revert is under way that belongs to the last outcome or
to one before it.

* §1 what is remembered of a run
* §2 the invariant
* §3 writes and reverts
* §4 passes and edits
* §5 runs
-/

namespace CopyControl

open Relation Document

/-! ## §1 What is remembered of a run -/

/-- What is remembered of a run, besides the state it has led to. -/
structure Ledger where
  /-- The controls that passes have made and that are still there. -/
  controls : List NodeId
  /-- When the outcome of a write was last shown on a node. -/
  outcome : NodeId → Option Nat
  /-- For how long, since then, the clock has gone on while a revert of the node still had to be
  armed. -/
  lag : NodeId → Nat
  /-- The clock has never gone on while a revert still had to be armed. -/
  prompt : Bool

namespace Action

/-- The nodes that an action has made together with a listener. Only passes make such nodes. -/
def newControls (a : Action) (h : Host) : List NodeId :=
  if a.runsPasses h then
    ((a.perform h).document.listeners.map Prod.fst).filter (!h.document.contains ·)
  else []

/-- The node on which the action shows the outcome of a write. -/
def writesOn? : Action → Host → Option NodeId
  | handle _ control clipboard, h =>
    if (h.clipboard clipboard).delay = 0 then some control else none
  | run k, h =>
    match h.queue[k]? with
    | some (.click _ _ control clipboard) =>
      if (h.clipboard clipboard).delay = 0 then some control else none
    | some (.write _ _ control _ _) => some control
    | _ => none
  | _, _ => none

/-- For how long the clock goes on. -/
def delay : Action → Host → Nat
  | advance time, h => time - h.now
  | _, _ => 0

/-- An edit does not touch the inside of any control that it leaves there, and a reload does not
fill a control. -/
def Respects (a : Action) (h : Host) (controls : List NodeId) : Prop :=
  match a with
  | operate _ => ∀ b ∈ controls, (a.perform h).document.contains b →
      h.document.SameInside (a.perform h).document b
  | reload _ => h.document.body ∉ controls
  | _ => True

end Action

/-- Whether the work arms a revert. -/
def Work.armsRevert : Work → Bool
  | .armRevert _ => true
  | _ => false

namespace Ledger

/-- The ledger of a run that begins. -/
def start : Ledger where
  controls := []
  outcome _ := none
  lag _ := 0
  prompt := true

/-- The ledger after an action. -/
def after (l : Ledger) (a : Action) (h : Host) : Ledger where
  controls := (l.controls ++ a.newControls h).filter ((a.perform h).document.contains ·)
  outcome b := if a.writesOn? h = some b then some h.now else l.outcome b
  lag b :=
    if a.writesOn? h = some b then 0
    else if .armRevert b ∈ h.queue then l.lag b + a.delay h else l.lag b
  prompt := l.prompt && (a.delay h = 0 || !h.queue.any Work.armsRevert)

theorem after_of_quiet {a : Action} {h : Host} (l : Ledger) (hw : a.writesOn? h = none)
    (hd : a.delay h = 0) :
    (l.after a h).outcome = l.outcome ∧ (l.after a h).lag = l.lag := by
  constructor <;> funext b <;> simp [after, hw, hd]

theorem after_of_write {a : Action} {h : Host} {control : NodeId} (l : Ledger)
    (hw : a.writesOn? h = some control) (hd : a.delay h = 0) (b : NodeId) :
    (l.after a h).outcome b = (if control = b then some h.now else l.outcome b) ∧
      (l.after a h).lag b = if control = b then 0 else l.lag b := by
  simp [after, hw, hd]

/-- Without a pass there are no new controls. -/
theorem mem_controls_after {a : Action} {h : Host} {l : Ledger} {b : NodeId}
    (hp : a.runsPasses h = false) (hb : b ∈ (l.after a h).controls) :
    b ∈ l.controls ∧ (a.perform h).document.contains b := by
  simpa [after, Action.newControls, hp] using hb

end Ledger

/-- The control that a piece of work sets back, or is to set back. -/
def Work.reverts? : Work → Option NodeId
  | .armRevert control | .revert control => some control
  | _ => none

namespace Host

variable {h h' : Host} {l l' : Ledger} {b : NodeId}

/-- All that can have happened to a document: any actions in any order, edits inside controls
apart. -/
inductive LabelRun (d : Document) : Host → Ledger → Prop
  | start : LabelRun d (start d) .start
  | step {h : Host} {l : Ledger} (a : Action) (hr : LabelRun d h l)
      (ha : a.Respects h l.controls) : LabelRun d (a.perform h) (l.after a h)

/-! ## §2 The invariant -/

/-- A revert of `b` is under way: it is about to be armed, or is under a timer that is due by the
given time after the last outcome at the latest, or is due already. -/
def Reverting (h : Host) (l : Ledger) (b : NodeId) : Prop :=
  ∃ t, l.outcome b = some t ∧
    ((.armRevert b ∈ h.queue ∧ h.now ≤ t + l.lag b) ∨
      (∃ due ≤ t + Enhance.revertDelay + l.lag b, ⟨due, .revert b⟩ ∈ h.timers) ∨
      .revert b ∈ h.queue)

/-- Each control shows a label, and the first one if no revert is under way. -/
structure Faithful (h : Host) (l : Ledger) : Prop where
  wellFormed : h.document.WellFormed
  labels : ∀ b ∈ l.controls, ∃ s, h.document.Shows b s ∧ (s ≠ .copy → h.Reverting l b)

theorem faithful_start {d : Document} (hw : d.WellFormed) : (start d).Faithful .start :=
  ⟨hw, by simp [Ledger.start]⟩

/-- No time has gone by, and no revert has been lost. -/
structure KeepsReverts (h h' : Host) : Prop where
  now : h'.now = h.now
  timers : ∀ τ ∈ h.timers, τ ∈ h'.timers
  queue : ∀ w ∈ h.queue, w.reverts? ≠ none → w ∈ h'.queue

theorem Calm.keepsReverts (hc : h.Calm h') : h.KeepsReverts h' where
  now := hc.now
  timers _ hτ := hc.timers ▸ hτ
  queue _ hw _ := hc.mem_queue hw

theorem keepsReverts_of_eq (hn : h'.now = h.now) (ht : h'.timers = h.timers)
    (hq : h'.queue = h.queue) : h.KeepsReverts h' :=
  (calm_of_eq hn ht hq).keepsReverts

theorem KeepsReverts.trans {h'' : Host} (hk : h.KeepsReverts h') (hk' : h'.KeepsReverts h'') :
    h.KeepsReverts h'' where
  now := hk'.now.trans hk.now
  timers τ hτ := hk'.timers τ (hk.timers τ hτ)
  queue w hw hr := hk'.queue w (hk.queue w hw hr) hr

/-- A piece of work that sets nothing back is taken from the queue. -/
theorem keepsReverts_eraseIdx {k : Nat} {w : Work} (hk : h.queue[k]? = some w)
    (hw : w.reverts? = none) : h.KeepsReverts { h with queue := h.queue.eraseIdx k } := by
  refine ⟨rfl, fun _ => id, fun v hv hr => Action.mem_eraseIdx_of_ne hk hv ?_⟩
  rintro rfl
  exact hr hw

theorem Reverting.mono (hr : h.Reverting l b) (hk : h.KeepsReverts h')
    (ho : l'.outcome b = l.outcome b) (hl : l'.lag b = l.lag b) : h'.Reverting l' b := by
  obtain ⟨t, hout, hrev⟩ := hr
  refine ⟨t, ho.trans hout, ?_⟩
  rw [hk.now, hl]
  rcases hrev with ⟨hq, hn⟩ | ⟨due, hd, ht⟩ | hq
  · exact .inl ⟨hk.queue _ hq (by simp [Work.reverts?]), hn⟩
  · exact .inr (.inl ⟨due, hd, hk.timers _ ht⟩)
  · exact .inr (.inr (hk.queue _ hq (by simp [Work.reverts?])))

/-- What a control shows is kept if it goes on showing what it shows, and keeps its reverts. -/
theorem Faithful.keep (hf : h.Faithful l) (hb : b ∈ l.controls)
    (hs : ∀ s, h.document.Shows b s → h'.document.Shows b s)
    (hr : h.Reverting l b → h'.Reverting l' b) :
    ∃ s, h'.document.Shows b s ∧ (s ≠ .copy → h'.Reverting l' b) := by
  obtain ⟨s, hshow, hrev⟩ := hf.labels b hb
  exact ⟨s, hs s hshow, hr ∘ hrev⟩

/-- Without an outcome, each control shows what it showed, or is new. -/
theorem Faithful.quiet (hf : h.Faithful l) (hw : h'.document.WellFormed)
    (hk : h.KeepsReverts h') (hl : l'.outcome = l.outcome ∧ l'.lag = l.lag)
    (hc : ∀ b ∈ l'.controls,
      (b ∈ l.controls ∧ ∀ s, h.document.Shows b s → h'.document.Shows b s) ∨
        h'.document.Shows b .copy) : h'.Faithful l' := by
  refine ⟨hw, fun b hb => ?_⟩
  rcases hc b hb with ⟨hb, hs⟩ | hs
  · exact hf.keep hb hs fun hr => hr.mono hk (congrFun hl.1 b) (congrFun hl.2 b)
  · exact ⟨.copy, hs, fun h => absurd rfl h⟩

/-! ## §3 Writes and reverts -/

theorem wellFormed_setLabel {d : Document} (hw : d.WellFormed) (x : NodeId) (s : ControlLabel) :
    ((setLabel x s).apply d).2.WellFormed :=
  (onlyChanges_setText x s.text d hw).wellFormed hw

theorem Faithful.write (hf : h.Faithful l) {block control : NodeId} {clipboard text : String}
    (hc : ∀ b ∈ l'.controls, b ∈ l.controls ∧
      (h.write block control clipboard text).2.document.contains b)
    (hl : ∀ b, l'.outcome b = (if control = b then some h.now else l.outcome b) ∧
      l'.lag b = if control = b then 0 else l.lag b) :
    (h.write block control clipboard text).2.Faithful l' := by
  obtain ⟨h₁, hd, -, hcalm, heq⟩ := write_eq h block control clipboard text
  rw [heq] at hc ⊢
  generalize ControlLabel.ofOutcome (h.write block control clipboard text).1 = s at hc ⊢
  obtain ⟨hdoc, -, hcalm'⟩ := showLabel_spec h₁ control s
  rw [hd] at hdoc
  have hk : h.KeepsReverts ((h₁.showLabel control s).enqueue (.armRevert control)) := by
    refine (hcalm.trans hcalm').keepsReverts.trans ⟨rfl, fun _ => id, fun w hw _ => ?_⟩
    exact List.mem_append_left _ hw
  have hdoc' : ((h₁.showLabel control s).enqueue (.armRevert control)).document =
      ((setLabel control s).apply h.document).2 := hdoc
  refine ⟨hdoc' ▸ wellFormed_setLabel hf.wellFormed control s, fun b hb => ?_⟩
  obtain ⟨hb, hlive⟩ := hc b hb
  obtain ⟨ho, hlag⟩ := hl b
  rw [hdoc'] at hlive
  by_cases hbc : control = b
  · subst hbc
    obtain ⟨old, hold, -⟩ := hf.labels control hb
    refine ⟨s, hdoc' ▸ hold.setLabel s, fun _ => ⟨h.now, by rw [ho, if_pos rfl], .inl ⟨?_, ?_⟩⟩⟩
    · exact List.mem_append_right _ (List.mem_singleton.mpr rfl)
    · rw [hk.now]
      exact Nat.le_add_right _ _
  · rw [if_neg hbc] at ho hlag
    refine hf.keep hb (fun s' hs' => ?_) fun hr => hr.mono hk ho hlag
    exact hdoc' ▸ hs'.setLabel_of_ne hf.wellFormed (Ne.symm hbc) s hlive

/-- A revert of one control is no revert of another. -/
theorem Reverting.of_run {control : NodeId} {k : Nat} {w : Work} (hr : h.Reverting l b)
    (hk : h.queue[k]? = some w) (hw : w.reverts? = some control) (hne : b ≠ control)
    (hkeep : Host.KeepsReverts { h with queue := h.queue.eraseIdx k } h')
    (hl : l'.outcome = l.outcome ∧ l'.lag = l.lag) : h'.Reverting l' b := by
  have hrest : ∀ v ∈ h.queue, v.reverts? = some b → v ∈ h.queue.eraseIdx k := by
    intro v hv hvb
    refine Action.mem_eraseIdx_of_ne hk hv ?_
    rintro rfl
    exact hne (Option.some.inj (hvb.symm.trans hw))
  refine Reverting.mono (h := { h with queue := h.queue.eraseIdx k }) ?_ hkeep
    (congrFun hl.1 b) (congrFun hl.2 b)
  obtain ⟨t, hout, ⟨hq, hn⟩ | ht | hq⟩ := hr
  · exact ⟨t, hout, .inl ⟨hrest _ hq rfl, hn⟩⟩
  · exact ⟨t, hout, .inr (.inl ht)⟩
  · exact ⟨t, hout, .inr (.inr (hrest _ hq rfl))⟩

theorem Faithful.runRevert (hf : h.Faithful l) {control : NodeId} {k : Nat}
    (hk : h.queue[k]? = some (.revert control))
    (hl : l'.outcome = l.outcome ∧ l'.lag = l.lag) :
    let h' := Host.showLabel { h with queue := h.queue.eraseIdx k } control .copy
    (∀ b ∈ l'.controls, b ∈ l.controls ∧ h'.document.contains b) → h'.Faithful l' := by
  intro h' hc
  obtain ⟨hdoc, -, hcalm⟩ :=
    showLabel_spec { h with queue := h.queue.eraseIdx k } control .copy
  refine ⟨hdoc ▸ wellFormed_setLabel hf.wellFormed control .copy, fun b hb => ?_⟩
  obtain ⟨hb, hlive⟩ := hc b hb
  by_cases hbc : control = b
  · subst hbc
    obtain ⟨old, hold, -⟩ := hf.labels control hb
    exact ⟨.copy, hdoc ▸ hold.setLabel .copy, fun h => absurd rfl h⟩
  · refine hf.keep hb (fun s hs => ?_) fun hr =>
      hr.of_run hk rfl (Ne.symm hbc) hcalm.keepsReverts hl
    rw [hdoc] at hlive ⊢
    exact hs.setLabel_of_ne hf.wellFormed (Ne.symm hbc) .copy hlive

/-- A revert that is armed is due one delay later. -/
theorem Faithful.runArmRevert (hf : h.Faithful l) {control : NodeId} {k : Nat}
    (hk : h.queue[k]? = some (.armRevert control))
    (hl : l'.outcome = l.outcome ∧ l'.lag = l.lag) (hc : ∀ b ∈ l'.controls, b ∈ l.controls) :
    (Host.setTimer { h with queue := h.queue.eraseIdx k } Enhance.revertDelay
      (.revert control)).Faithful l' := by
  refine ⟨hf.wellFormed, fun b hb => hf.keep (hc b hb) (fun _ => id) fun hr => ?_⟩
  have hkeep : Host.KeepsReverts { h with queue := h.queue.eraseIdx k }
      (Host.setTimer { h with queue := h.queue.eraseIdx k } Enhance.revertDelay
        (.revert control)) :=
    ⟨rfl, fun _ => List.mem_append_left _, fun _ hw _ => hw⟩
  by_cases hbc : b = control
  · subst hbc
    obtain ⟨t, hout, hrev⟩ := hr
    refine ⟨t, (congrFun hl.1 b).trans hout, ?_⟩
    rw [hl.2]
    rcases hrev with ⟨-, hn⟩ | ⟨due, hd, ht⟩ | hq
    · refine .inr (.inl ⟨h.now + Enhance.revertDelay, by omega, ?_⟩)
      exact List.mem_append_right _ (List.mem_singleton.mpr rfl)
    · exact .inr (.inl ⟨due, hd, List.mem_append_left _ ht⟩)
    · exact .inr (.inr (Action.mem_eraseIdx_of_ne hk hq (by simp)))
  · exact hr.of_run hk rfl hbc hkeep hl

/-- Time that goes on makes reverts due, and puts off those that are not armed. -/
theorem Faithful.fireTimers (hf : h.Faithful l) (time : Nat) (ho : l'.outcome = l.outcome)
    (hl : ∀ b, l'.lag b =
      if .armRevert b ∈ h.queue then l.lag b + (time - h.now) else l.lag b)
    (hc : ∀ b ∈ l'.controls, b ∈ l.controls) : (h.fireTimers time).Faithful l' := by
  refine ⟨hf.wellFormed, fun b hb => hf.keep (hc b hb) (fun _ => id) fun hr => ?_⟩
  obtain ⟨t, hout, hrev⟩ := hr
  refine ⟨t, (congrFun ho b).trans hout, ?_⟩
  have hlag : l.lag b ≤ l'.lag b := by
    rw [hl]
    split <;> omega
  rcases hrev with ⟨hq, hn⟩ | ⟨due, hd, ht⟩ | hq
  · refine .inl ⟨List.mem_append_left _ hq, ?_⟩
    show time ≤ t + l'.lag b
    rw [hl, if_pos hq]
    omega
  · by_cases hdue : due ≤ time
    · have hfired : ⟨due, .revert b⟩ ∈ h.timers.filter (·.due ≤ time) :=
        List.mem_filter.mpr ⟨ht, decide_eq_true hdue⟩
      exact .inr (.inr (List.mem_append_right _ (List.mem_map_of_mem (f := Timer.work) hfired)))
    · refine .inr (.inl ⟨due, by omega, List.mem_filter.mpr ⟨ht, ?_⟩⟩)
      simpa using hdue
  · exact .inr (.inr (List.mem_append_left _ hq))

/-! ## §4 Passes and edits -/

theorem overlays_handleBatches (hw : h.document.WellFormed) (clipboard : String)
    (o : ObserverId) (n : Nat) :
    h.document.Overlays (h.handleBatches clipboard o n).document := by
  induction n generalizing h with
  | zero => exact .refl hw
  | succ n ih =>
    unfold Host.handleBatches
    split
    · exact .refl hw
    · exact .refl hw
    · rename_i records d heq
      have ha : h.document.SameArena d := by
        have := sameArena_run h.document (o := .nextBatch o) id
        rwa [Operation.run, heq] at this
      have hw' := ha.wellFormed hw
      have hpass := overlays_enhance hw' clipboard
      let h₁ : Host := { h with document := d }
      have hrest := ih (h := ((h₁.record (batch records.length)).pass clipboard).2)
        hpass.wellFormed
      exact (overlays_of_sameArena hw ha).trans (Overlays.trans hpass hrest)

theorem overlays_runObserver (hw : h.document.WellFormed) (i : Nat) :
    h.document.Overlays (h.runObserver i).document := by
  unfold Host.runObserver
  split
  · rw [(wake_spec _).1]
    exact overlays_handleBatches hw _ _ _
  · exact .refl hw

theorem overlays_observeBody (hw : h.document.WellFormed) (i : Nat) (clipboard : String)
    (wanted : Bool) : h.document.Overlays (h.observeBody i clipboard wanted).document := by
  unfold observeBody
  dsimp only
  split
  · exact overlays_of_sameArena hw ⟨rfl, rfl, rfl, rfl⟩
  · exact overlays_of_sameArena hw ⟨rfl, rfl, rfl, rfl⟩

theorem overlays_attach (hw : h.document.WellFormed) (i : Nat) :
    h.document.Overlays (h.attach i).document := by
  cases hi : h.sessions[i]? with
  | none =>
    rw [Host.attach, hi]
    exact .refl hw
  | some s =>
    cases s with
    | waiting clipboard wanted =>
      rw [attach_of_waiting hi]
      split
      · have hpass := overlays_enhance hw clipboard
        rw [← enhance_document] at hpass
        have hbody := overlays_observeBody
          (h := (h.enhance clipboard).2.record (attached (h.enhance clipboard).1))
          hpass.wellFormed i clipboard wanted
        exact hpass.trans hbody
      · exact .refl hw
    | observing _ _ | closed =>
      rw [Host.attach, hi]
      exact .refl hw

theorem overlays_closeSession (hw : h.document.WellFormed) (i : Nat) :
    h.document.Overlays (h.closeSession i).document := by
  unfold closeSession
  split
  · exact overlays_of_sameArena hw ⟨rfl, rfl, rfl, rfl⟩
  · exact .refl hw
  · exact .refl hw

theorem overlays_abandonSession (hw : h.document.WellFormed) (i : Nat) :
    h.document.Overlays (h.abandonSession i).document := by
  unfold abandonSession
  split
  · exact .refl hw
  · exact overlays_closeSession hw i

theorem overlays_flushSession (hw : h.document.WellFormed) (i : Nat) :
    h.document.Overlays (h.flushSession i).2.document := by
  unfold flushSession
  split
  · rw [enhance_document]
    exact overlays_enhance hw _
  · exact .refl hw

/-- Passes keep the labels there are, and what they make shows the first one. -/
theorem Faithful.overlay (hf : h.Faithful l) {a : Action}
    (ho : h.document.Overlays (a.perform h).document) (hk : h.KeepsReverts (a.perform h))
    (hl : (l.after a h).outcome = l.outcome ∧ (l.after a h).lag = l.lag) :
    (a.perform h).Faithful (l.after a h) := by
  refine hf.quiet ho.wellFormed hk hl fun b hb => ?_
  obtain ⟨hb, -⟩ := List.mem_filter.mp hb
  rcases List.mem_append.mp hb with hb | hb
  · exact .inl ⟨hb, fun s => ho.shows b s⟩
  · unfold Action.newControls at hb
    split at hb
    · obtain ⟨hb, hdead⟩ := List.mem_filter.mp hb
      obtain ⟨p, hp, rfl⟩ := List.mem_map.mp hb
      rcases ho.listeners p hp with hp | ⟨-, hs⟩
      · simp [hf.wellFormed.listeners_live p hp] at hdead
      · exact .inr hs
    · simp at hb

/-- A new body is built beside the old one, so it changes the inside of the body only. -/
theorem sameInside_replaceBody {d : Document} (hw : d.WellFormed) (events : List Markdown.Event)
    (hb : d.contains b) (hne : b ≠ d.body)
    (hlive : ((Markdown.replaceBody events).apply d).2.contains b) :
    d.SameInside ((Markdown.replaceBody events).apply d).2 b := by
  obtain ⟨nodes, d', hbeside, -, -, h⟩ := Markdown.replaceBody_spec hw events
  have hin : d.SameInside d' b := ⟨hbeside.children b hb, fun c hc =>
    hbeside.kind? c (hw.contains_of_child hc)⟩
  rcases h with ⟨⟨hbody, hcs⟩, heq⟩ | ⟨-, heq⟩
  · rw [heq] at hlive ⊢
    refine hin.trans
      (SameInside.swapChildren hbeside.wellFormed hbody hcs (fun c hc => ?_) hne hlive)
    rw [hbeside.children b hb] at hc
    intro hm
    exact absurd (hw.contains_of_child hc) (by simp [(hbeside.root c hm).1])
  · rw [heq]
    exact hin

/-- An edit that does not touch the inside of controls keeps their labels. -/
theorem Faithful.edited (hf : h.Faithful l) {a : Action}
    (ha : ∀ b ∈ l.controls, (a.perform h).document.contains b →
      h.document.SameInside (a.perform h).document b)
    (hw : (a.perform h).document.WellFormed) (hc : h.Calm (a.perform h))
    (hp : a.runsPasses h = false)
    (hl : (l.after a h).outcome = l.outcome ∧ (l.after a h).lag = l.lag) :
    (a.perform h).Faithful (l.after a h) := by
  refine hf.quiet hw hc.keepsReverts hl fun b hb => .inl ?_
  obtain ⟨hb, hlive⟩ := Ledger.mem_controls_after hp hb
  exact ⟨hb, fun s hs => hs.congr (ha b hb hlive)⟩

/-! ## §5 Runs -/

theorem keepsReverts_setTimer (h : Host) (delay : Nat) (w : Work) :
    h.KeepsReverts (h.setTimer delay w) :=
  ⟨rfl, fun _ => List.mem_append_left _, fun _ hw _ => hw⟩

/-- A click that is handled. -/
theorem Faithful.handle (hf : h.Faithful l) (block control : NodeId) (clipboard : String) :
    ((Action.handle block control clipboard).perform h).Faithful
      (l.after (.handle block control clipboard) h) := by
  by_cases hd : (h.clipboard clipboard).delay = 0
  · have hw : (Action.handle block control clipboard).writesOn? h = some control := if_pos hd
    have hrun := beginClick_of_prompt hd h.clicks block control
    have hc := fun b => Ledger.mem_controls_after (a := .handle block control clipboard) (h := h)
      (l := l) (b := b) rfl
    simp only [Action.perform, hrun] at hc ⊢
    exact hf.write hc fun b => l.after_of_write hw rfl b
  · have hw : (Action.handle block control clipboard).writesOn? h = none := if_neg hd
    have hrun := beginClick_of_slow hd h.clicks block control
    refine hf.overlay ?_ ?_ (l.after_of_quiet hw rfl)
    · rw [Action.perform, hrun]
      exact .refl hf.wellFormed
    · rw [Action.perform, hrun]
      exact keepsReverts_setTimer ..

/-- A piece of work that is run. -/
theorem Faithful.run (hf : h.Faithful l) {k : Nat} {w : Work} (hk : h.queue[k]? = some w) :
    ((Action.run k).perform h).Faithful (l.after (.run k) h) := by
  have hrun := Action.perform_run hk
  -- what is known of the host without the piece, unless that is a revert
  have htaken : w.reverts? = none →
      h.KeepsReverts { h with queue := h.queue.eraseIdx k } ∧
        Host.Faithful { h with queue := h.queue.eraseIdx k } l := fun hw =>
    have hkeep := keepsReverts_eraseIdx hk hw
    ⟨hkeep, hf.quiet hf.wellFormed hkeep ⟨rfl, rfl⟩ fun b hb => .inl ⟨hb, fun _ => id⟩⟩
  cases w with
  | click n block control clipboard =>
    obtain ⟨hkeep, hf'⟩ := htaken rfl
    have hp : (Action.run k).runsPasses h = false := by simp [Action.runsPasses, hk]
    by_cases hd : (h.clipboard clipboard).delay = 0
    · have hw : (Action.run k).writesOn? h = some control := by simp [Action.writesOn?, hk, hd]
      have hc := fun b => Ledger.mem_controls_after (b := b) (l := l) hp
      have hd' : (Host.clipboard { h with queue := h.queue.eraseIdx k } clipboard).delay = 0 := hd
      rw [hrun, Host.run, beginClick_of_prompt hd'] at hc ⊢
      exact hf'.write hc fun b => l.after_of_write hw rfl b
    · have hw : (Action.run k).writesOn? h = none := by simp [Action.writesOn?, hk, hd]
      have hd' : (Host.clipboard { h with queue := h.queue.eraseIdx k } clipboard).delay ≠ 0 := hd
      refine hf.overlay ?_ ?_ (l.after_of_quiet hw rfl)
      · rw [hrun, Host.run, beginClick_of_slow hd']
        exact .refl hf.wellFormed
      · rw [hrun, Host.run, beginClick_of_slow hd']
        exact hkeep.trans (keepsReverts_setTimer ..)
  | write n block control clipboard text =>
    obtain ⟨-, hf'⟩ := htaken rfl
    have hp : (Action.run k).runsPasses h = false := by simp [Action.runsPasses, hk]
    have hw : (Action.run k).writesOn? h = some control := by simp [Action.writesOn?, hk]
    have hc := fun b => Ledger.mem_controls_after (b := b) (l := l) hp
    rw [hrun] at hc ⊢
    exact hf'.write hc fun b => l.after_of_write hw rfl b
  | note n text =>
    have hw : (Action.run k).writesOn? h = none := by simp [Action.writesOn?, hk]
    refine hf.overlay ?_ ?_ (l.after_of_quiet hw rfl)
    · rw [hrun]
      exact .refl hf.wellFormed
    · rw [hrun]
      exact (htaken rfl).1.trans (keepsReverts_of_eq rfl rfl rfl)
  | armRevert control =>
    have hp : (Action.run k).runsPasses h = false := by simp [Action.runsPasses, hk]
    have hw : (Action.run k).writesOn? h = none := by simp [Action.writesOn?, hk]
    rw [hrun]
    exact hf.runArmRevert hk (l.after_of_quiet hw rfl) fun b hb =>
      (Ledger.mem_controls_after hp hb).1
  | revert control =>
    have hp : (Action.run k).runsPasses h = false := by simp [Action.runsPasses, hk]
    have hw : (Action.run k).writesOn? h = none := by simp [Action.writesOn?, hk]
    have hc := fun b => Ledger.mem_controls_after (b := b) (l := l) hp
    rw [hrun] at hc ⊢
    exact hf.runRevert hk (l.after_of_quiet hw rfl) hc
  | attach i =>
    have hw : (Action.run k).writesOn? h = none := by simp [Action.writesOn?, hk]
    refine hf.overlay ?_ ?_ (l.after_of_quiet hw rfl)
    · rw [hrun]
      exact overlays_attach (h := { h with queue := h.queue.eraseIdx k }) hf.wellFormed i
    · rw [hrun]
      exact (htaken rfl).1.trans (calm_attach _ i).keepsReverts
  | observe i =>
    have hw : (Action.run k).writesOn? h = none := by simp [Action.writesOn?, hk]
    refine hf.overlay ?_ ?_ (l.after_of_quiet hw rfl)
    · rw [hrun]
      exact overlays_runObserver (h := { h with queue := h.queue.eraseIdx k }) hf.wellFormed i
    · rw [hrun]
      exact (htaken rfl).1.trans (calm_runObserver _ i).keepsReverts

/-- One action keeps the invariant. -/
theorem Faithful.perform (hf : h.Faithful l) (a : Action) (ha : a.Respects h l.controls) :
    (a.perform h).Faithful (l.after a h) := by
  have hw := hf.wellFormed
  cases a with
  | operate op =>
    obtain ⟨hd, -, hc⟩ := wake_spec { h with document := op.run h.document }
    exact hf.edited ha (hd ▸ wellFormed_run hw op) (hc.of_start rfl rfl rfl) rfl
      (l.after_of_quiet rfl rfl)
  | reload events =>
    obtain ⟨hd, -, hc⟩ := edit_spec h (Markdown.replaceBody events)
    have hw' := (Markdown.onlyChanges_replaceBody events h.document hw).wellFormed hw
    have ha : h.document.body ∉ l.controls := ha
    refine hf.edited (fun b hb hlive => ?_) (hd ▸ hw') hc rfl (l.after_of_quiet rfl rfl)
    obtain ⟨s, hs, -⟩ := hf.labels b hb
    rw [Action.perform, hd] at hlive ⊢
    exact sameInside_replaceBody hw events hs.contains (fun hbody => ha (hbody ▸ hb)) hlive
  | enhance clipboard =>
    refine hf.overlay ?_ (calm_enhance h clipboard).keepsReverts (l.after_of_quiet rfl rfl)
    rw [Action.perform, enhance_document]
    exact overlays_enhance hw clipboard
  | flush i =>
    exact hf.overlay (overlays_flushSession hw i) (calm_flushSession h i).keepsReverts
      (l.after_of_quiet rfl rfl)
  | click node =>
    refine hf.overlay (.refl hw) ⟨rfl, fun _ => id, fun _ hq _ => ?_⟩ (l.after_of_quiet rfl rfl)
    exact List.mem_append_left _ hq
  | handle block control clipboard => exact hf.handle block control clipboard
  | run k =>
    cases hk : h.queue[k]? with
    | none =>
      have hw' : (Action.run k).writesOn? h = none := by simp [Action.writesOn?, hk]
      refine hf.overlay ?_ ?_ (l.after_of_quiet hw' rfl)
      · rw [Action.perform_run_of_none hk]
        exact .refl hw
      · rw [Action.perform_run_of_none hk]
        exact (Calm.refl h).keepsReverts
    | some w => exact hf.run hk
  | advance time =>
    refine hf.fireTimers time ?_ ?_ fun b hb => (Ledger.mem_controls_after rfl hb).1
    · funext b
      simp [Ledger.after, Action.writesOn?]
    · intro b
      simp [Ledger.after, Action.writesOn?, Action.delay]
  | openSession clipboard =>
    exact hf.overlay (.refl hw) (calm_beginSession h clipboard).keepsReverts
      (l.after_of_quiet rfl rfl)
  | closeSession i =>
    exact hf.overlay (overlays_closeSession hw i) (calm_closeSession h i).keepsReverts
      (l.after_of_quiet rfl rfl)
  | abandonSession i =>
    exact hf.overlay (overlays_abandonSession hw i) (calm_abandonSession h i).keepsReverts
      (l.after_of_quiet rfl rfl)
  | markReady =>
    obtain ⟨hd, -, hc⟩ := markReady_spec h
    refine hf.overlay ?_ hc.keepsReverts (l.after_of_quiet rfl rfl)
    rw [Action.perform, hd]
    exact overlays_of_sameArena hw ⟨rfl, rfl, rfl, rfl⟩
  | setClipboard name link =>
    exact hf.overlay (.refl hw) (keepsReverts_of_eq rfl rfl rfl) (l.after_of_quiet rfl rfl)
  | takeNotes =>
    exact hf.overlay (.refl hw) (keepsReverts_of_eq rfl rfl rfl) (l.after_of_quiet rfl rfl)

theorem LabelRun.faithful {d : Document} (hw : d.WellFormed) (hr : LabelRun d h l) :
    h.Faithful l := by
  induction hr with
  | start => exact faithful_start hw
  | step a _ ha ih => exact ih.perform a ha

end Host

end CopyControl
