import CopyControl.Proofs.Enhance.BlockText
import CopyControl.Proofs.Host.Clicks
import CopyControl.Proofs.Host.Effects

/-!
What a block says, while a document is enhanced and its controls are clicked.

Passes, clicks, writes and reverts are to leave what a block says as it is. They do unless a `pre`
that has no control yet is in view inside the block: then its control comes to stand in the block
as well, and the block says what the control shows (`innerText_performAll_iff`,
`innerText_nestedBlock`). That no click changes it either is an invariant: all that clicks are
aimed at stands outside the block (`Untouched`).
-/

namespace CopyControl

open Document

/-- The control that a listener copies for. -/
def Listener.control? : Listener → Option NodeId
  | .copyBlock _ control _ => some control
  | .note _ => none

/-- An action that is no edit from outside. If it handles a click, then one on a control that is
not in view in the block. -/
def Action.IsTame (a : Action) (d : Document) (c : NodeId) : Prop :=
  match a with
  | operate _ | reload _ => False
  | handle _ control _ => d.Outside c control
  | _ => True

namespace Host

variable {h : Host} {a : Action} {as : List Action} {c k : NodeId}

/-- The controls that clicks are aimed at, or will be: those that listeners copy for, and those that
work of clicks has to do with. -/
def aims (h : Host) : List NodeId :=
  h.document.listeners.filterMap (·.2.control?) ++ h.queue.filterMap Work.control? ++
    h.timers.filterMap (·.work.control?)

theorem mem_aims_iff :
    k ∈ h.aims ↔
      (∃ x b clipboard, (x, .copyBlock b k clipboard) ∈ h.document.listeners) ∨ h.Targets k := by
  simp only [aims, List.mem_append, List.mem_filterMap, Targets, or_assoc]
  refine or_congr_left ⟨?_, ?_⟩
  · rintro ⟨⟨x, l⟩, hl, hk⟩
    cases l with
    | copyBlock b control clipboard =>
      obtain rfl := Option.some.inj hk
      exact ⟨x, b, clipboard, hl⟩
    | note text => simp [Listener.control?] at hk
  · rintro ⟨x, b, clipboard, hl⟩
    exact ⟨_, hl, rfl⟩

/-- No `pre` without a control is in view in the block, and all that clicks are aimed at stands
outside. -/
structure Untouched (h : Host) (c : NodeId) : Prop where
  wellFormed : h.document.WellFormed
  code : h.document.tag? c = some "code"
  sealed : h.document.Sealed c
  aims : ∀ k ∈ h.aims, h.document.Outside c k

theorem passes_leavesBlock {d d' : Document} (hw : d.WellFormed) (hc : d.tag? c = some "code")
    (hs : d.Sealed c) (h : Passes d d') : d.LeavesBlock d' c := by
  induction h with
  | refl => exact SameArena.leavesBlock hw hs ⟨rfl, rfl, rfl, rfl⟩
  | tail _ hstep ih =>
    refine ih.trans ?_
    cases hstep with
    | same he => exact SameArena.leavesBlock ih.wellFormed ih.sealed he
    | pass clipboard =>
      exact leavesBlock_enhance ih.wellFormed (ih.tag.trans hc) ih.sealed clipboard

section step
variable (hu : h.Untouched c) (ha : a.IsTame h.document c)
include hu ha

theorem Untouched.outside_of_aim (hk : a.aim? h = some k) : h.document.Outside c k := by
  cases a with
  | handle b control clipboard =>
    obtain rfl := Option.some.inj hk
    exact ha
  | run n =>
    obtain ⟨w, hw, hwk⟩ := Option.bind_eq_some_iff.mp hk
    exact hu.aims k (mem_aims_iff.mpr (.inr (.inl ⟨w, List.mem_of_getElem? hw, hwk⟩)))
  | operate _ | reload _ => exact ha.elim
  | enhance _ | flush _ | click _ | advance _ | openSession _ | closeSession _ | abandonSession _
  | markReady | setClipboard _ _ | takeNotes => simp [Action.aim?] at hk

theorem Untouched.leavesBlock : h.document.LeavesBlock (a.perform h).document c := by
  obtain ⟨d, hd⟩ : ∃ d, (a.perform h).document = d := ⟨_, rfl⟩
  have hacts := h.acts_perform a
  rw [hd] at hacts ⊢
  cases hacts with
  | operate o => exact ha.elim
  | reload events => exact ha.elim
  | label hk l =>
    exact leavesBlock_setLabel hu.wellFormed hu.code hu.sealed (hu.outside_of_aim ha hk) l
  | passes _ hp => exact passes_leavesBlock hu.wellFormed hu.code hu.sealed hp
  | same he => exact SameArena.leavesBlock hu.wellFormed hu.sealed he

/-- One action leaves what a block says as it is, and nothing is then aimed at what is in view in
the block. -/
theorem Untouched.perform : (a.perform h).Untouched c := by
  have hl := hu.leavesBlock ha
  refine ⟨hl.wellFormed, hl.tag.trans hu.code, hl.sealed, fun k hk => ?_⟩
  have hold : k ∈ h.aims → (a.perform h).document.Outside c k := fun hk =>
    hl.outside k (hu.aims k hk)
  rcases mem_aims_iff.mp hk with ⟨x, b, clipboard, hlisten⟩ | ht
  · rcases hl.listeners x b k clipboard hlisten with hlisten | hout
    · exact hold (mem_aims_iff.mpr (.inl ⟨x, b, clipboard, hlisten⟩))
    · exact hout
  · rcases targets_of_perform ht with ht | hk | hlisten
    · exact hold (mem_aims_iff.mpr (.inr ht))
    · exact hl.outside k (hu.outside_of_aim ha hk)
    · exact hold (mem_aims_iff.mpr (.inl hlisten))

end step

/-- What a run leaves of a block. -/
theorem Untouched.performAll (hu : h.Untouched c)
    (has : ∀ a ∈ as, a.IsTame h.document c) :
    (Action.performAll as h).document.textAt c = h.document.textAt c := by
  induction as generalizing h with
  | nil => rfl
  | cons a as ih =>
    obtain ⟨ha, has⟩ := List.forall_mem_cons.mp has
    have hl := hu.leavesBlock ha
    have htame : ∀ b ∈ as, b.IsTame (a.perform h).document c := fun b hb => by
      have hb := has b hb
      cases b with
      | handle _ control _ => exact hl.outside control hb
      | operate _ | reload _ => exact hb.elim
      | _ => trivial
    exact (ih (hu.perform ha) htame).trans hl.text

/-- **What a block says.** After any run, take a block that no click is aimed into. Passes by any
injectors, clicks, writes and reverts leave what it says as it is, however many there are, if and
only if no `pre` that has yet to get its control is in view in it. -/
theorem innerText_performAll_iff (bs : List Action) (c : NodeId)
    (hc : c ∈ (Action.performAll bs (start new)).document.codeBlocks)
    (haims : ∀ k ∈ (Action.performAll bs (start new)).aims,
      (Action.performAll bs (start new)).document.Outside c k) :
    let h := Action.performAll bs (start new)
    (∀ as : List Action, (∀ a ∈ as, a.IsTame h.document c) →
      (Action.performAll as h).document.innerText c = h.document.innerText c) ↔
        ∀ pre, h.document.isBare pre → ¬ h.document.InView c pre := by
  intro h
  have hw : h.document.WellFormed := wellFormed_performAll wellFormed_new bs
  have hblock := (mem_codeBlocks_iff hw).mp hc
  obtain ⟨pre, hb⟩ := block_of_isBlock hblock
  have hconn : h.document.isConnected c := by
    simp only [isBlock, Bool.and_eq_true] at hblock
    exact hblock.1.1
  rw [← sealed_iff hw hconn]
  constructor
  · intro hall
    have hpass := hall [.enhance ""] (by simp [Action.IsTame])
    rw [innerText_eq_iff] at hpass
    rw [← textAt_enhance_iff hw hblock "", ← hpass, ← enhance_document]
    rfl
  · intro hs as has
    rw [innerText_eq_iff]
    exact Untouched.performAll ⟨hw, hb.tag_code, hs, haims⟩ has

/-- A page with one block, which has been given its control, and a click on the control under
way. -/
def clickUnderWay : List Action :=
  oneBlock.map .operate ++ [.enhance "", .click ⟨5, 0⟩, .run 0]

theorem innerText_performAll_iff_clickUnderWay :
    let h := Action.performAll clickUnderWay (start new)
    ⟨4, 0⟩ ∈ h.document.codeBlocks ∧ h.aims = [⟨5, 0⟩, ⟨5, 0⟩] ∧
      (∀ k ∈ h.aims, h.document.Outside ⟨4, 0⟩ k) ∧
      ∀ as : List Action, (∀ a ∈ as, a.IsTame h.document ⟨4, 0⟩) →
        (Action.performAll as h).document.innerText ⟨4, 0⟩ = h.document.innerText ⟨4, 0⟩ := by
  intro h
  have hw : h.document.WellFormed := wellFormed_performAll wellFormed_new clickUnderWay
  have hc : ⟨4, 0⟩ ∈ h.document.codeBlocks := by decide +kernel
  have haims : h.aims = [⟨5, 0⟩, ⟨5, 0⟩] := by decide +kernel
  have hnot : h.document.isInclusiveAncestor ⟨4, 0⟩ ⟨5, 0⟩ = false := by decide +kernel
  have hout : ∀ k ∈ h.aims, h.document.Outside ⟨4, 0⟩ k := by
    rw [haims]
    simp only [List.forall_mem_cons, List.not_mem_nil, false_implies, implies_true, and_true,
      and_self]
    refine .inr ⟨⟨.copied, ⟨6, 0⟩, by decide +kernel, by decide +kernel⟩, fun hview => ?_⟩
    rw [hw.isInclusiveAncestor_iff.mpr hview.atOrAbove] at hnot
    simp at hnot
  have hdone : ∀ x ∈ h.document.liveNodes, h.document.isBare x = false := by decide +kernel
  refine ⟨hc, haims, hout, (innerText_performAll_iff clickUnderWay ⟨4, 0⟩ hc hout).mpr ?_⟩
  intro pre hpre
  have hlive := contains_of_isConnected (isBare_iff.mp hpre).1
  rw [hdone pre (mem_liveNodes_iff.mpr hlive)] at hpre
  simp at hpre

/-- A block that says "a" and has another block in it that says "b". -/
def nestedBlock : List Operation :=
  [.createElement "pre", .createElement "code", .appendChild ⟨3, 0⟩ ⟨4, 0⟩,
    .appendText ⟨4, 0⟩ "a", .createElement "pre", .createElement "code",
    .appendChild ⟨6, 0⟩ ⟨7, 0⟩, .appendText ⟨7, 0⟩ "b", .appendChild ⟨4, 0⟩ ⟨6, 0⟩,
    .appendChild new.body ⟨3, 0⟩]

/-- The control of the inner block stands in the outer block, so one pass changes what the outer
block says, and a click changes it again. -/
theorem innerText_nestedBlock :
    let h := Action.performAll (nestedBlock.map .operate) (start new)
    let h₁ := (Action.enhance "").perform h
    let h₂ := Action.performAll [.click ⟨13, 0⟩, .run 0] h₁
    ⟨4, 0⟩ ∈ h.document.codeBlocks ∧ h.document.innerText ⟨4, 0⟩ = "ab" ∧
      h₁.document.innerText ⟨4, 0⟩ = "abCopy" ∧ h₂.document.innerText ⟨4, 0⟩ = "abCopied" := by
  decide +kernel

end Host

end CopyControl
