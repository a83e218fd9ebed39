import CopyControl.Proofs.Document.Notice
import CopyControl.Proofs.Enhance.Label

/-!
Documents without the labels of their controls.

`d.unlabelled controls` is `d` without the texts that are directly inside the controls. No pass
looks at a text (`enhance_congr`), and to show another label on a control is to change nothing else
(`unlabelled_setLabel`).
-/

namespace CopyControl.Document

open Relation Enhance

variable {S : NodeId → Bool} {d d' : Document} {controls : List NodeId}

/-! ## Passes look at no text -/

theorem codeBlocks_blanked (S : NodeId → Bool) (d : Document) :
    (d.blanked S).codeBlocks = d.codeBlocks := by
  simp only [codeBlocks, selectDirectChildren, elementsByTag, descendants_blanked, tag?_blanked,
    parent?_blanked]
  rfl

theorem foldl_takeBlock_congr {clipboard : String} {p p' : Pass}
    (h : p'.document.blanked S = p.document.blanked S) (cs : List NodeId) :
    (cs.foldl (Pass.takeBlock clipboard) p').document.blanked S =
      (cs.foldl (Pass.takeBlock clipboard) p).document.blanked S := by
  induction cs generalizing p p' with
  | nil => exact h
  | cons c cs ih =>
    refine ih ?_
    rw [document_takeBlock, document_takeBlock]
    exact (((constructive_enhanceBlock c clipboard).blind S).apply_eq h).2

/-- A pass does the same to documents that differ in texts. -/
theorem enhance_congr (h : d'.blanked S = d.blanked S) (clipboard : String) :
    (d'.enhance clipboard).document.blanked S = (d.enhance clipboard).document.blanked S := by
  have hblocks : d'.codeBlocks = d.codeBlocks := by
    rw [← codeBlocks_blanked S d', h, codeBlocks_blanked]
  rw [enhance, enhance, document_finish, document_finish, hblocks]
  exact foldl_takeBlock_congr h _

/-- A text node that is there before a pass stays what it is and where it is. -/
theorem enhance_of_text (hw : d.WellFormed) {clipboard : String} {x : NodeId} {s : String}
    (hx : d.contains x) (hk : (d.enhance clipboard).document.kind? x = some (.text s)) :
    (d.enhance clipboard).document.parent? x = d.parent? x ∧ d.kind? x = some (.text s) := by
  obtain ⟨os, h⟩ := enhance_progress hw clipboard
  have hpre : x ∉ os.map Outfit.pre := by
    intro hp
    obtain ⟨o, ho, rfl⟩ := List.mem_map.mp hp
    obtain ⟨e, -, he⟩ := h.enhanced.element?_pre o ho
    simp [element?_eq_some_iff.mp he] at hk
  refine ⟨h.enhanced.parent?_rest x (h.not_made hx) hpre, ?_⟩
  rw [← h.enhanced.kind?_rest x (h.not_made hx) hpre, hk]

/-! ## Without labels -/

/-- Whether the node is directly inside one of the controls. -/
def inside (d : Document) (controls : List NodeId) (x : NodeId) : Bool :=
  (d.parent? x).any (controls.contains ·)

/-- The document without the texts that are directly inside the controls. -/
def unlabelled (controls : List NodeId) (d : Document) : Document :=
  d.blanked (d.inside controls)

theorem inside_iff {x : NodeId} : d.inside controls x ↔ ∃ c ∈ controls, d.parent? x = some c := by
  unfold inside
  cases d.parent? x with
  | none => simp
  | some p => simp

theorem inside_mono {controls' : List NodeId} (h : controls ⊆ controls') {x : NodeId}
    (hx : d.inside controls x) : d.inside controls' x := by
  obtain ⟨c, hc, hp⟩ := inside_iff.mp hx
  exact inside_iff.mpr ⟨c, h hc, hp⟩

theorem inside_congr (h : d'.parent? = d.parent?) : d'.inside controls = d.inside controls := by
  funext x
  rw [inside, inside, h]

theorem parent?_eq_of_blanked (h : d'.blanked S = d.blanked S) : d'.parent? = d.parent? := by
  rw [← parent?_blanked S d', h, parent?_blanked]

/-- To blank fewer texts first makes no difference. -/
theorem blanked_blanked_of_le {U : NodeId → Bool}
    (h : ∀ x s, d.kind? x = some (.text s) → S x → U x) :
    (d.blanked S).blanked U = d.blanked U := by
  refine eq_of_slots (fun i => ?_) rfl
  simp only [getElem?_slots_blanked]
  cases hs : d.slots[i]? with
  | none => rfl
  | some slot =>
    obtain ⟨g, n⟩ := slot
    cases n with
    | none => rfl
    | some n =>
      obtain ⟨kind, parent, children⟩ := n
      cases kind with
      | element e => rfl
      | raw m => rfl
      | text s =>
        have hk : d.kind? ⟨i, g⟩ = some (.text s) := by
          rw [kind?, node?_eq_some_iff.mpr hs]
          rfl
        have hle := h ⟨i, g⟩ s hk
        cases hS : S ⟨i, g⟩ with
        | true => simp [Slot.blankIn, Node.blankIf, NodeKind.blankIf, hS, hle hS]
        | false => simp [Slot.blankIn, Node.blankIf, NodeKind.blankIf, hS]

/-- Documents that differ in texts of `S` only differ in labels only, if all of `S` that is text is
inside controls. -/
theorem unlabelled_eq_of_blanked (h : d'.blanked S = d.blanked S)
    (hS : ∀ x s, d.kind? x = some (.text s) → S x → d.inside controls x) :
    d'.unlabelled controls = d.unlabelled controls := by
  have hS' : ∀ x s, d'.kind? x = some (.text s) → S x → d.inside controls x := by
    intro x s hk
    have hkind := congrArg (fun d => d.kind? x) h
    simp only [kind?_blanked, hk] at hkind
    cases hk' : d.kind? x with
    | none => simp [hk'] at hkind
    | some k =>
      cases k with
      | text s' => exact hS x s' hk'
      | element e => simp [hk', NodeKind.blankIf] at hkind
      | raw m => simp [hk', NodeKind.blankIf] at hkind
  rw [unlabelled, inside_congr (parent?_eq_of_blanked h), ← blanked_blanked_of_le hS', h,
    blanked_blanked_of_le hS]
  rfl

/-- Documents that differ in labels only have the same tree and the same elements. -/
theorem lookups_eq_of_unlabelled (h : d'.unlabelled controls = d.unlabelled controls) :
    d'.parent? = d.parent? ∧ d'.children = d.children ∧ d'.element? = d.element? := by
  refine ⟨?_, ?_, ?_⟩
  · simpa only [unlabelled, parent?_blanked] using congrArg parent? h
  · simpa only [unlabelled, children_blanked] using congrArg children h
  · simpa only [unlabelled, element?_blanked] using congrArg element? h

theorem blanked_eq_of_unlabelled (h : d'.unlabelled controls = d.unlabelled controls) :
    d'.blanked (d.inside controls) = d.blanked (d.inside controls) := by
  have hp := (lookups_eq_of_unlabelled h).1
  rw [unlabelled, inside_congr hp] at h
  exact h

theorem blanked_of_none (h : ∀ x, S x = false) (d : Document) : d.blanked S = d := by
  refine eq_of_slots (fun i => ?_) rfl
  rw [getElem?_slots_blanked]
  cases d.slots[i]? with
  | none => rfl
  | some slot =>
    obtain ⟨g, n⟩ := slot
    cases n with
    | none => rfl
    | some n =>
      obtain ⟨kind, _, _⟩ := n
      cases kind <;> simp [Slot.blankIn, Node.blankIf, NodeKind.blankIf, h]

/-- Without any control that is still there, there are no labels. -/
theorem unlabelled_of_dead (hw : d.WellFormed) (h : ∀ c ∈ controls, d.contains c = false) :
    d.unlabelled controls = d := by
  refine blanked_of_none (fun x => ?_) d
  rw [Bool.eq_false_iff]
  intro hx
  obtain ⟨c, hc, hp⟩ := inside_iff.mp hx
  exact absurd (hw.contains_of_link hp) (by simp [h c hc])

/-! ## Labels -/

theorem updateNode_text_of_mem {t : NodeId} {old : String} (ht : S t)
    (hk : d.kind? t = some (.text old)) (text : String) :
    (d.updateNode t fun n => { n with kind := .text text }).blanked S = d.blanked S := by
  rw [updateNode, if_pos (contains_of_kind? hk)]
  refine eq_of_slots (fun i => ?_) rfl
  simp only [getElem?_slots_blanked, Array.getElem?_modify]
  split
  swap
  · rfl
  rename_i hi
  subst hi
  obtain ⟨n, hn, hkind⟩ := Option.map_eq_some_iff.mp hk
  obtain ⟨kind, parent, children⟩ := n
  obtain rfl : kind = .text old := hkind
  simp [node?_eq_some_iff.mp hn, Slot.blankIn, Node.blankIf, NodeKind.blankIf, ht]

theorem unlabelled_setLabel (hw : d.WellFormed) {c : NodeId} {s : ControlLabel}
    (hs : d.Shows c s) (hc : c ∈ controls) (l : ControlLabel) :
    ((setLabel c l).apply d).2.unlabelled controls = d.unlabelled controls ∧
      d.SameObservers ((setLabel c l).apply d).2 := by
  obtain ⟨t, hsole, hch⟩ := hs.soleText?
  obtain ⟨old, hk⟩ := kind?_of_soleText? hsole
  rw [setLabel, setText_of_sole l.text hsole]
  have hin : d.inside controls t :=
    inside_iff.mpr ⟨c, hc, (hw.parent_iff t c).mpr (by simp [hch])⟩
  refine ⟨?_, sameObservers_updateNode d t _⟩
  have hp : (d.updateNode t fun n => { n with kind := .text l.text }).parent? = d.parent? :=
    parent?_updateNode_of_keeps d t fun _ => rfl
  show (d.updateNode t fun n => { n with kind := .text l.text }).unlabelled controls = _
  rw [unlabelled, inside_congr hp]
  exact updateNode_text_of_mem hin hk l.text

/-- The control shows a label, as long as it is there. -/
def Labelled (d : Document) (control : NodeId) : Prop :=
  d.contains control → ∃ s, d.Shows control s

/-- To show a label changes nothing but labels and is reported to no observer. -/
theorem setLabel_quiet (hw : d.WellFormed) {c : NodeId} (hl : d.Labelled c) (hc : c ∈ controls)
    (l : ControlLabel) :
    ((setLabel c l).apply d).2.unlabelled controls = d.unlabelled controls ∧
      d.SameObservers ((setLabel c l).apply d).2 := by
  by_cases hlive : d.contains c
  · obtain ⟨s, hs⟩ := hl hlive
    exact unlabelled_setLabel hw hs hc l
  · obtain ⟨e, he⟩ := setText_fails l.text (Bool.eq_false_iff.mpr hlive)
    rw [setLabel, he]
    exact ⟨rfl, rfl, rfl⟩

end CopyControl.Document
