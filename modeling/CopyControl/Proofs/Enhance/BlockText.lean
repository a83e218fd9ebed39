import Mathlib.Algebra.Order.BigOperators.Group.List
import Mathlib.Algebra.Order.Group.Nat
import CopyControl.Proofs.Enhance.Label
import CopyControl.Proofs.Enhance.Again
import CopyControl.Proofs.Enhance.Shape
import CopyControl.Proofs.Enhance.Undo

/-!
What a block says, before and after passes and labels.

The text of a node depends only on what is in view from it: a line break hides what is below it
(`textAt_congr`). So a pass leaves the text of a block as it is if no `pre` that gets a control is
in view in the block. If one is, the block says more than before, for then it has the label of the
control inside (`textAt_enhance_iff`). A label that is set on a control changes no text but where
the control is in view (`leavesBlock_setLabel`).

* §1 what is in view
* §2 passes that leave a text alone
* §3 passes that change it
* §4 labels
-/

namespace CopyControl.Document

open Relation Edit Enhance

variable {d d' : Document} {clipboard : String} {os : List Outfit} {c x y : NodeId}

/-! ## §1 What is in view -/

/-- The characters of the text at a node as it would show. -/
def textAt (d : Document) (x : NodeId) : List Char :=
  ((d.shape? x).map Tree.innerText).getD []

theorem innerText_eq_textAt (d : Document) (x : NodeId) : d.innerText x = .ofList (d.textAt x) :=
  innerText_eq d x

theorem innerText_eq_iff : d'.innerText x = d.innerText x ↔ d'.textAt x = d.textAt x := by
  rw [innerText_eq_textAt, innerText_eq_textAt, String.ofList_inj]

theorem Depicts.innerTexts {xs : List NodeId} {ts : List Tree} (h : d.Depicts xs ts) :
    Tree.innerTexts ts = xs.flatMap d.textAt := by
  induction xs generalizing ts with
  | nil =>
    obtain rfl : ts = [] := List.map_eq_nil_iff.mp h.symm
    rfl
  | cons x xs ih =>
    cases ts with
    | nil => simp [Depicts] at h
    | cons t ts =>
      obtain ⟨ht, hts⟩ := depicts_cons.mp h
      rw [Tree.innerTexts, ih hts, List.flatMap_cons, textAt, ht]
      rfl

/-- A line break shows as one, and other elements show what is below them. -/
theorem textAt_eq (hw : d.WellFormed) {k : NodeKind} (hk : d.kind? x = some k) :
    d.textAt x =
      match k with
      | .text s => s.toList
      | .raw _ => []
      | .element e => if e.tag = "br" then ['\n'] else (d.children x).flatMap d.textAt := by
  rw [← (depicts_children hw x).innerTexts, textAt, shape?_eq hw hk, Option.map_some,
    Option.getD_some]
  cases k <;> simp only [Tree.innerText]

/-- The node is `c`, or it is below `c` and no line break hides it. -/
def InView (d : Document) (c x : NodeId) : Prop :=
  ReflTransGen (fun x y => d.Link x y ∧ d.tag? y ≠ some "br") x c

theorem InView.atOrAbove (h : d.InView c x) : d.AtOrAbove c x :=
  ReflTransGen.mono (fun _ _ h => h.1) x c h

theorem InView.contains (h : d.InView c x) (hc : d.contains c) : d.contains x := by
  rcases ReflTransGen.cases_head h with rfl | ⟨y, hxy, -⟩
  · exact hc
  · exact contains_of_parent? hxy.1

/-- What a node has as a child is in view if the node is, and no line break. -/
theorem InView.child (hw : d.WellFormed) (h : d.InView c x) (hx : d.tag? x ≠ some "br")
    (hy : y ∈ d.children x) : d.InView c y :=
  h.head ⟨(hw.parent_iff y x).mpr hy, hx⟩

/-- What is in view from a child is in view from the node. -/
theorem inView_of_child (hw : d.WellFormed) (hc : d.tag? c ≠ some "br") (hx : x ∈ d.children c)
    (h : d.InView x y) : d.InView c y :=
  ReflTransGen.tail h ⟨(hw.parent_iff x c).mpr hx, hc⟩

/-- What is in view from a node is the node, or in view from a child. -/
theorem InView.cases (hw : d.WellFormed) (h : d.InView c x) :
    x = c ∨ d.tag? c ≠ some "br" ∧ ∃ y ∈ d.children c, d.InView y x := by
  rcases ReflTransGen.cases_tail h with h | ⟨y, hxy, hyc⟩
  · exact .inl h.symm
  · exact .inr ⟨hyc.2, y, (hw.parent_iff y c).mp hyc.1, hxy⟩

/-- What is in view and below `c` stands in something that is in view. -/
theorem InView.parent (h : d.InView c x) (hne : x ≠ c) (hp : d.parent? x = some y) :
    d.InView c y ∧ d.tag? y ≠ some "br" := by
  rcases ReflTransGen.cases_head h with h | ⟨z, hxz, hzc⟩
  · exact absurd h hne
  · obtain rfl : z = y := Option.some.inj (hxz.1.symm.trans hp)
    exact ⟨hzc, hxz.2⟩

/-- The text at a node does not change if nothing in view does. -/
theorem textAt_congr (hw : d.WellFormed) (hw' : d'.WellFormed)
    (h : ∀ y, d.InView c y →
      d'.kind? y = d.kind? y ∧ (d.tag? y ≠ some "br" → d'.children y = d.children y)) :
    d'.textAt c = d.textAt c := by
  induction c using hw.children_induction with
  | h x ih =>
    obtain ⟨hkind, hch⟩ := h x .refl
    cases hk : d.kind? x with
    | none =>
      rw [textAt, textAt, shape?_of_dead (kind?_eq_none_iff.mp hk),
        shape?_of_dead (kind?_eq_none_iff.mp (hkind.trans hk))]
    | some k =>
      rw [textAt_eq hw hk, textAt_eq hw' (hkind.trans hk)]
      cases k with
      | text s => rfl
      | raw s => rfl
      | element e =>
        dsimp only
        split
        · rfl
        · rename_i hbr
          have hx : d.tag? x ≠ some "br" := by
            simpa [tag?, element?, hk, NodeKind.element?] using hbr
          rw [hch hx]
          exact List.flatMap_congr fun y hy => ih y hy fun z hz => h z (inView_of_child hw hx hy hz)

/-! ## §2 Passes that leave a text alone -/

/-- A `pre` without a control that has a block directly inside. -/
def IsOpen (d : Document) (x : NodeId) : Prop :=
  d.tag? x = some "pre" ∧ d.hasClass x enhancedClass = false ∧
    ∃ y ∈ d.children x, d.tag? y = some "code"

/-- No such `pre` is in view. -/
def Sealed (d : Document) (c : NodeId) : Prop :=
  ∀ x, d.InView c x → ¬ d.IsOpen x

theorem isBare_iff_isOpen (hx : d.isConnected x) : d.isBare x ↔ d.IsOpen x := by
  simp [isBare_iff, IsOpen, hx]

theorem isConnected_of_inView (hw : d.WellFormed) (hc : d.isConnected c) (h : d.InView c x) :
    d.isConnected x := by
  obtain ⟨hlive, hroot⟩ := hw.isConnected_iff.mp hc
  exact hw.isConnected_iff.mpr ⟨h.contains hlive, h.atOrAbove.trans hroot⟩

theorem sealed_iff (hw : d.WellFormed) (hc : d.isConnected c) :
    d.Sealed c ↔ ∀ pre, d.isBare pre → ¬ d.InView c pre := by
  constructor
  · intro h pre hpre hview
    exact h pre hview ((isBare_iff_isOpen (isBare_iff.mp hpre).1).mp hpre)
  · intro h x hview hopen
    exact h x ((isBare_iff_isOpen (isConnected_of_inView hw hc hview)).mpr hopen) hview

/-- A pass gives controls to none but these. -/
theorem Progress.isOpen {p : Pass} (hw : d.WellFormed)
    (h : d.Progress clipboard d.codeBlocks p os) {o : Outfit} (ho : o ∈ os) : d.IsOpen o.pre := by
  obtain ⟨htag, hm, hfirst⟩ := h.bare o ho
  have hcode := List.mem_of_mem_head? hfirst
  rw [List.mem_filter, decide_eq_true_iff] at hcode
  obtain ⟨pre, hb⟩ := block_of_isBlock ((mem_codeBlocks_iff hw).mp hcode.1)
  exact ⟨htag, hm, o.code, (hw.parent_iff _ _).mp hcode.2, hb.tag_code⟩

namespace Enhanced

variable (hw : d.WellFormed) (h : d.Enhanced d' os clipboard)
include hw h

/-- What is in view after a pass, and was there before, was in view. -/
theorem inView (hc : d.contains c) (hx : d.contains x) (hcx : d'.InView c x) : d.InView c x := by
  -- as for ancestors, a way goes on from an old node, or from a wrapper to where its `pre` was
  suffices hboth : (d.contains x → d.InView c x) ∧
      (∀ o ∈ os, x = o.wrapper → ∀ q, d.parent? o.pre = some q →
        d.InView c q ∧ d.tag? q ≠ some "br") from hboth.1 hx
  clear hx
  induction hcx using ReflTransGen.head_induction_on with
  | refl =>
    refine ⟨fun _ => .refl, ?_⟩
    rintro o ho rfl
    simp [h.made_fresh o ho o.wrapper (by simp [Outfit.made])] at hc
  | @head x y hl _ ih =>
    obtain ⟨hold, hwrap⟩ := ih
    obtain ⟨hl, htag⟩ := hl
    refine ⟨fun hx => ?_, ?_⟩
    · by_cases hp : x ∈ os.map Outfit.pre
      · obtain ⟨o, ho, rfl⟩ := List.mem_map.mp hp
        rw [Link, h.parent?_pre o ho] at hl
        obtain ⟨q, hq, -⟩ := h.parent?_made o ho
        obtain ⟨hview, hbr⟩ := hwrap o ho (Option.some.inj hl).symm q hq
        exact hview.head ⟨hq, hbr⟩
      · rw [Link, h.parent?_rest x (h.not_made_of_live hx) hp] at hl
        have hy : d.contains y := hw.contains_of_link hl
        rw [h.tag? (h.not_made_of_live hy)] at htag
        exact (hold hy).head ⟨hl, htag⟩
    · rintro o ho rfl q hq
      obtain ⟨container, hcont, hm⟩ := h.parent?_made o ho
      have hwm : o.wrapper ∈ o.made := by simp [Outfit.made]
      rw [Link, hm _ hwm, Outfit.madeParent, if_pos rfl] at hl
      obtain rfl := Option.some.inj (hcont.symm.trans hq)
      obtain rfl := Option.some.inj hl
      have hy : d.contains container := hw.contains_of_link hcont
      rw [h.tag? (h.not_made_of_live hy)] at htag
      exact ⟨hold hy, htag⟩

theorem textAt_eq_of_not_inView (hc : d.contains c) (hno : ∀ o ∈ os, ¬ d.InView c o.pre) :
    d'.textAt c = d.textAt c := by
  have hrest : ∀ y, d.InView c y → y ∉ os.map Outfit.pre := fun y hy hm => by
    obtain ⟨o, ho, rfl⟩ := List.mem_map.mp hm
    exact hno o ho hy
  refine textAt_congr hw h.wellFormed fun y hy => ⟨?_, fun hbr => ?_⟩
  · exact h.kind?_rest y (h.not_made_of_live (hy.contains hc)) (hrest y hy)
  · rw [h.children_rest y (h.not_made_of_live (hy.contains hc))]
    refine (List.map_congr_left fun z hz => ?_).trans (List.map_id _)
    exact wrapperOf_rest (hrest z (hy.child hw hbr hz))

omit hw in
/-- What is open after a pass was open before it. -/
theorem isOpen (hx : d'.IsOpen x) : d.contains x ∧ d.IsOpen x ∧ x ∉ os.map Outfit.pre := by
  obtain ⟨htag, hm, y, hy, hcode⟩ := hx
  have hlive : x ∉ os.flatMap Outfit.made := fun hmade => (tag?_made h hmade).2 htag
  have hp : x ∉ os.map Outfit.pre := fun hp => by
    obtain ⟨o, ho, rfl⟩ := List.mem_map.mp hp
    simp [(h.hasClass_pre ho).1] at hm
  rw [h.tag? hlive] at htag
  rw [hasClass_congr (h.kind?_rest x hlive hp)] at hm
  refine ⟨contains_of_tag? htag, ⟨htag, hm, y, ?_⟩, hp⟩
  have hmade : y ∉ os.flatMap Outfit.made := fun hmade => (tag?_made h hmade).1 hcode
  rw [h.children_rest x hlive] at hy
  obtain ⟨z, hz, rfl⟩ := List.mem_map.mp hy
  by_cases hzp : z ∈ os.map Outfit.pre
  · obtain ⟨o, ho, rfl⟩ := List.mem_map.mp hzp
    rw [h.wrapperOf_pre ho] at hmade
    exact absurd (List.mem_flatMap.mpr ⟨o, ho, by simp [Outfit.made]⟩) hmade
  · rw [wrapperOf_rest hzp] at hmade hcode ⊢
    exact ⟨hz, by rwa [← h.tag? hmade]⟩

/-- A control is not in view if its `pre` was not. -/
theorem button_not_inView {o : Outfit} (ha : o.Added d d' clipboard) (ho : o ∈ os)
    (hc : d.contains c) (hno : ¬ d.InView c o.pre) : ¬ d'.InView c o.button := by
  have hne : ∀ y ∈ o.made, y ≠ c := by
    rintro y hy rfl
    simp [h.made_fresh o ho y hy] at hc
  simp only [Outfit.made, List.forall_mem_cons] at hne
  obtain ⟨hwc, hac, hbc, -⟩ := hne
  obtain ⟨container, hcont, -⟩ := h.parent?_made o ho
  have hlive : d.contains container := hw.contains_of_link hcont
  intro hview
  obtain ⟨hview, -⟩ := hview.parent hbc ha.button.2.1
  obtain ⟨hview, -⟩ := hview.parent hac ha.actions.2.1
  obtain ⟨hview, hbr⟩ := hview.parent hwc (ha.wrapper.2.1.trans hcont)
  rw [h.tag? (h.not_made_of_live hlive)] at hbr
  exact hno ((h.inView hw hc hlive hview).head ⟨hcont, hbr⟩)

theorem sealed (hc : d.contains c) (hs : d.Sealed c) : d'.Sealed c := fun x hview hopen => by
  obtain ⟨hx, hopen, -⟩ := h.isOpen hopen
  exact hs x (h.inView hw hc hx hview) hopen

end Enhanced

/-! ## §3 Passes that change it -/

theorem textAt_of_sole (hw : d.WellFormed) {e : Element} (hk : d.kind? x = some (.element e))
    (hbr : e.tag ≠ "br") (hc : d.children x = [y]) : d.textAt x = d.textAt y := by
  rw [textAt_eq hw hk]
  simp [hbr, hc]

/-- A wrapper says what its `pre` says, and the label. -/
theorem Outfit.Added.textAt_wrapper {o : Outfit} (h : o.Added d d' clipboard)
    (hw' : d'.WellFormed) :
    d'.textAt o.wrapper = d'.textAt o.pre ++ ControlLabel.copy.text.toList := by
  obtain ⟨hwrapper, -, hinner⟩ := h.wrapper
  obtain ⟨hactions, -, hbuttons⟩ := h.actions
  obtain ⟨hbutton, -, hlabels, -⟩ := h.button
  have hlabel := textAt_eq hw' h.label.1
  rw [textAt_eq hw' hwrapper, hinner]
  simp only [boxElement, List.flatMap_cons, List.flatMap_nil, List.append_nil]
  rw [if_neg (by decide), textAt_of_sole hw' hactions (by simp [boxElement]) hbuttons,
    textAt_of_sole hw' hbutton (by simp [controlElement]) hlabels, hlabel]

section longer
variable (hw : d.WellFormed) (h : d.Enhanced d' os clipboard)
  (hadded : ∀ o ∈ os, o.Added d d' clipboard)
include h hadded

/-- A child in its wrapper, if it got one, says no less than before, and more if it got one. -/
theorem length_textAt_wrapperOf (hle : (d.textAt x).length ≤ (d'.textAt x).length) :
    (d.textAt x).length ≤ (d'.textAt (wrapperOf os x)).length ∧
      (x ∈ os.map Outfit.pre ∨ (d.textAt x).length < (d'.textAt x).length →
        (d.textAt x).length < (d'.textAt (wrapperOf os x)).length) := by
  by_cases hp : x ∈ os.map Outfit.pre
  · obtain ⟨o, ho, rfl⟩ := List.mem_map.mp hp
    have hlabel : 0 < ControlLabel.copy.text.toList.length := by decide
    rw [h.wrapperOf_pre ho, (hadded o ho).textAt_wrapper h.wellFormed, List.length_append]
    omega
  · rw [wrapperOf_rest hp]
    exact ⟨hle, fun hlt => hlt.resolve_left hp⟩

include hw

omit hadded hw in
/-- An element is still one after a pass, with the same tag. -/
theorem kind?_of_element {e : Element} (hk : d.kind? x = some (.element e)) :
    ∃ e', d'.kind? x = some (.element e') ∧ e'.tag = e.tag := by
  rw [h.kind?_eq hk]
  split
  · exact ⟨marked e, rfl, by simp [marked]⟩
  · exact ⟨e, rfl, rfl⟩

omit hadded in
/-- What is no element says what it said. -/
theorem textAt_of_not_element {k : NodeKind} (hk : d.kind? x = some k) (hel : k.element? = none) :
    d'.textAt x = d.textAt x := by
  have hk' := h.kind?_eq hk
  cases k with
  | element e => simp [NodeKind.element?] at hel
  | text s | raw s =>
    simp only [NodeKind.onElement, ite_self] at hk'
    rw [textAt_eq hw hk, textAt_eq h.wellFormed hk']

omit hadded in
/-- An element that is no line break says what its children say, in their wrappers. -/
theorem textAt_element {e : Element} (hk : d.kind? x = some (.element e)) (hbr : e.tag ≠ "br") :
    d.textAt x = (d.children x).flatMap d.textAt ∧
      d'.textAt x = (d.children x).flatMap fun y => d'.textAt (wrapperOf os y) := by
  obtain ⟨e', hk', htag⟩ := kind?_of_element h hk
  have hch := h.children_rest x (h.not_made_of_live (contains_of_kind? hk))
  rw [textAt_eq hw hk, textAt_eq h.wellFormed hk', hch]
  simp [hbr, htag, List.flatMap_map]

/-- No text gets shorter, and one with a new control in view gets longer. -/
theorem length_textAt (hx : d.contains x) :
    (d.textAt x).length ≤ (d'.textAt x).length ∧
      ((∃ o ∈ os, o.pre ≠ x ∧ d.InView x o.pre) →
        (d.textAt x).length < (d'.textAt x).length) := by
  induction x using hw.children_induction with
  | h x ih =>
    obtain ⟨k, hk⟩ := Option.isSome_iff_exists.mp ((kind?_isSome d x).trans hx)
    -- where no child is in view, the same is said
    have hleaf (hsame : d'.textAt x = d.textAt x)
        (hno : d.tag? x = some "br" ∨ d.children x = []) :
        (d.textAt x).length ≤ (d'.textAt x).length ∧
          ((∃ o ∈ os, o.pre ≠ x ∧ d.InView x o.pre) →
            (d.textAt x).length < (d'.textAt x).length) := by
      refine ⟨by rw [hsame], ?_⟩
      rintro ⟨o, -, hne, hview⟩
      obtain ⟨htag, y, hy, -⟩ := (hview.cases hw).resolve_left hne
      rcases hno with hbr | hnil
      · exact absurd hbr htag
      · simp [hnil] at hy
    cases hel : k.element? with
    | none =>
      refine hleaf (textAt_of_not_element hw h hk hel) (.inr ?_)
      refine List.eq_nil_iff_forall_not_mem.mpr fun c hc => ?_
      have := hw.element_of_child c x hc
      simp [element?, hk, hel] at this
    | some e =>
      obtain rfl : k = .element e := by cases k <;> simp_all [NodeKind.element?]
      have htag : d.tag? x = some e.tag := by simp [tag?, element?, hk, NodeKind.element?]
      by_cases hbr : e.tag = "br"
      · obtain ⟨e', hk', htag'⟩ := kind?_of_element h hk
        refine hleaf ?_ (.inl (hbr ▸ htag))
        rw [textAt_eq hw hk, textAt_eq h.wellFormed hk']
        simp [hbr, htag']
      · obtain ⟨htext, htext'⟩ := textAt_element hw h hk hbr
        have hchild := fun y hy =>
          length_textAt_wrapperOf h hadded (ih y hy (hw.contains_of_child hy)).1
        rw [htext, htext', List.length_flatMap, List.length_flatMap]
        refine ⟨List.sum_le_sum fun y hy => (hchild y hy).1, ?_⟩
        rintro ⟨o, ho, hne, hview⟩
        obtain ⟨-, y, hy, hview⟩ := (hview.cases hw).resolve_left hne
        refine List.sum_lt_sum _ _ (fun y hy => (hchild y hy).1) ⟨y, hy, (hchild y hy).2 ?_⟩
        by_cases hyo : o.pre = y
        · exact .inl (List.mem_map.mpr ⟨o, ho, hyo⟩)
        · exact .inr ((ih y hy (hw.contains_of_child hy)).2 ⟨o, ho, hyo, hview⟩)

end longer

/-- A pass leaves the text of a block as it is just if no `pre` without a control is in view in
it. -/
theorem textAt_enhance_iff (hw : d.WellFormed) (hc : d.isBlock c) (clipboard : String) :
    (d.enhance clipboard).document.textAt c = d.textAt c ↔ d.Sealed c := by
  obtain ⟨os, hp⟩ := enhance_progress hw clipboard
  have h := hp.enhanced
  have hconn : d.isConnected c := by
    simp only [isBlock, Bool.and_eq_true] at hc
    exact hc.1.1
  have hlive := (hw.isConnected_iff.mp hconn).1
  constructor
  · intro heq x hview hopen
    obtain ⟨htag, hm, y, hy, hcode⟩ := hopen
    have hne : x ≠ c := by
      rintro rfl
      simp [isBlock, htag] at hc
    have hb : d.Block y x := ⟨hcode, (hw.parent_iff y x).mpr hy, htag⟩
    have hmem := (mem_codeBlocks_iff hw).mpr
      (isBlock_of_child hw (isConnected_of_inView hw hconn hview) hb)
    -- a block with a parent got a control, and its label is in view
    have hpre : x ∈ os.map Outfit.pre := by
      rcases hp.covered y hmem x hb.link with hc' | hpre | htop
      · simp [hm] at hc'
      · exact hpre
      · exact absurd (eq_of_atOrAbove_of_parent?_none hview.atOrAbove htop).symm hne
    obtain ⟨o, ho, rfl⟩ := List.mem_map.mp hpre
    have hlong := (length_textAt hw h (fun o ho => h.added hw (fun o ho => (hp.bare o ho).1)
      (fun o ho => (hp.bare o ho).2.1) ho) hlive).2 ⟨o, ho, hne, hview⟩
    rw [heq] at hlong
    omega
  · intro hs
    exact h.textAt_eq_of_not_inView hw hlive fun o ho hview => hs _ hview (hp.isOpen hw ho)

/-! ## §4 Labels -/

/-- A label that takes the place of another is the new text of the node that was the old one, and
nothing else changes. -/
theorem setLabel_eq_updateNode {k : NodeId} {s : ControlLabel} (hs : d.Shows k s)
    (l : ControlLabel) :
    ∃ t old, d.children k = [t] ∧ d.kind? t = some (.text old) ∧
      ((setLabel k l).apply d).2 = d.updateNode t fun n => { n with kind := .text l.text } := by
  obtain ⟨t, hsole, hch⟩ := hs.soleText?
  obtain ⟨old, hold⟩ := kind?_of_soleText? hsole
  exact ⟨t, old, hch, hold, by rw [setLabel, setText_of_sole l.text hsole]⟩

/-- Whoever sets a label on `k` changes nothing in view from `c`: `k` has gone, or it shows a label
and is not in view. -/
def Outside (d : Document) (c k : NodeId) : Prop :=
  d.Spent k ∨ (∃ s, d.Shows k s) ∧ ¬ d.InView c k

/-- What passes and labels do to a document, as seen from the block `c`: nothing. -/
structure LeavesBlock (d d' : Document) (c : NodeId) : Prop where
  wellFormed : d'.WellFormed
  tag : d'.tag? c = d.tag? c
  text : d'.textAt c = d.textAt c
  sealed : d'.Sealed c
  outside : ∀ k, d.Outside c k → d'.Outside c k
  /-- Nobody listens for a click on a control in view who did not before. -/
  listeners : ∀ x b k clipboard, (x, .copyBlock b k clipboard) ∈ d'.listeners →
    (x, .copyBlock b k clipboard) ∈ d.listeners ∨ d'.Outside c k

theorem LeavesBlock.trans {d'' : Document} (h : d.LeavesBlock d' c) (h' : d'.LeavesBlock d'' c) :
    d.LeavesBlock d'' c where
  wellFormed := h'.wellFormed
  tag := h'.tag.trans h.tag
  text := h'.text.trans h.text
  sealed := h'.sealed
  outside k hk := h'.outside k (h.outside k hk)
  listeners x b k clipboard hl := by
    rcases h'.listeners x b k clipboard hl with hl | hk
    · exact (h.listeners x b k clipboard hl).imp id (h'.outside k)
    · exact .inr hk

theorem inView_congr (hp : d'.parent? = d.parent?) (ht : d'.tag? = d.tag?) :
    d'.InView = d.InView := by
  unfold InView
  rw [link_congr hp, ht]

section leaves
variable (hw : d.WellFormed) (hc : d.tag? c = some "code") (hs : d.Sealed c)
include hw hs

theorem SameArena.leavesBlock (h : d.SameArena d') : d.LeavesBlock d' c := by
  obtain ⟨-, hk, hp, hch⟩ := lookups_congr h.slots
  have ht : d'.tag? = d.tag? := funext fun x => tag?_eq_of_kind? (congrFun hk x)
  have hview := inView_congr hp ht
  have hw' := h.wellFormed hw
  refine ⟨hw', congrFun ht c, ?_, ?_, ?_, fun x b k clipboard hl => .inl (h.listeners ▸ hl)⟩
  · exact textAt_congr hw hw' fun y _ => ⟨congrFun hk y, fun _ => congrFun hch y⟩
  · intro x hx hopen
    rw [hview] at hx
    refine hs x hx ?_
    simpa only [IsOpen, ht, hch, hasClass, element?, hk] using hopen
  · intro k hk'
    obtain hspent | ⟨⟨s, hshow⟩, hno⟩ := hk'
    · exact .inl (hspent.mono (h.keeps _).generation)
    · exact .inr ⟨⟨s, hshow.congr ⟨by rw [hch], fun y _ => by rw [hk]⟩⟩, by rwa [hview]⟩

include hc

theorem leavesBlock_enhance (clipboard : String) :
    d.LeavesBlock (d.enhance clipboard).document c := by
  obtain ⟨os, hp⟩ := enhance_progress hw clipboard
  have h := hp.enhanced
  have hlive := contains_of_tag? hc
  have hno : ∀ o ∈ os, ¬ d.InView c o.pre := fun o ho hview => hs _ hview (hp.isOpen hw ho)
  have hgrows : ∀ i, Keeps i d (d.enhance clipboard).document :=
    Grows.keeps ((adds_enhance hw clipboard).lift id fun _ _ => .adds)
  refine ⟨h.wellFormed, h.tag? (h.not_made_of_live hlive),
    h.textAt_eq_of_not_inView hw hlive hno, h.sealed hw hlive hs, ?_, ?_⟩
  · intro k hk
    refine hk.imp (fun h' => h'.mono (hgrows _).generation) fun ⟨⟨s, hshow⟩, hview⟩ => ?_
    exact ⟨⟨s, h.shows hshow⟩, fun hview' => hview (h.inView hw hlive hshow.contains hview')⟩
  · intro x b k clip hl
    rw [h.listeners, List.mem_append] at hl
    refine hl.imp id fun hl => ?_
    obtain ⟨o, ho, heq⟩ := List.mem_map.mp hl
    obtain ⟨rfl, -, rfl, -⟩ : o.button = x ∧ o.code = b ∧ o.button = k ∧ clipboard = clip := by
      simpa using heq
    have ha := h.added hw (fun o ho => (hp.bare o ho).1) (fun o ho => (hp.bare o ho).2.1) ho
    exact .inr ⟨⟨_, h.shows_button ho⟩, h.button_not_inView hw ha ho hlive (hno o ho)⟩

theorem leavesBlock_setLabel {k : NodeId} (hk : d.Outside c k) (l : ControlLabel) :
    d.LeavesBlock ((setLabel k l).apply d).2 c := by
  rcases hk with hspent | ⟨⟨s, hshow⟩, hno⟩
  · obtain ⟨x, hx⟩ := setText_fails l.text hspent.dead
    rw [setLabel, hx]
    exact SameArena.leavesBlock hw hs ⟨rfl, rfl, rfl, rfl⟩
  obtain ⟨t, old, hch, hold, heq⟩ := setLabel_eq_updateNode hshow l
  obtain ⟨hchildren, hkind⟩ := setNodeText_spec d t l.text
  have hw' : ((setLabel k l).apply d).2.WellFormed :=
    (makes_setText hw k l.text).changes.wellFormed hw
  have hlive (y : NodeId) (hy : d.contains y) : ((setLabel k l).apply d).2.contains y := by
    rwa [heq, contains_updateNode]
  have hel : ((setLabel k l).apply d).2.element? = d.element? := by
    funext y
    rw [heq, element?, hkind, element?]
    split
    · rename_i hy
      rw [hy, hold]
      rfl
    · rfl
  have ht : ((setLabel k l).apply d).2.tag? = d.tag? := by
    funext y
    rw [tag?, hel, tag?]
  have hview : ((setLabel k l).apply d).2.InView = d.InView :=
    inView_congr (by rw [heq]; exact parent?_updateNode_of_keeps d t fun _ => rfl) ht
  -- the text is in view only if the control is
  have htext : ¬ d.InView c t := fun h => by
    have htc : t ≠ c := by
      rintro rfl
      simp [tag?, element?, hold, NodeKind.element?] at hc
    exact hno (h.parent htc ((hw.parent_iff t k).mpr (by simp [hch]))).1
  refine ⟨hw', congrFun ht c, ?_, ?_, ?_, ?_⟩
  · refine textAt_congr hw hw' fun y hy => ?_
    have hyt : y ≠ t := by
      rintro rfl
      exact htext hy
    rw [heq, hkind, if_neg hyt, hchildren]
    exact ⟨rfl, fun _ => rfl⟩
  · intro x hx hopen
    rw [hview] at hx
    refine hs x hx ?_
    rw [IsOpen, ht, hasClass, hel] at hopen
    rw [heq, hchildren] at hopen
    exact hopen
  · intro k' hk'
    obtain hspent | ⟨⟨s', hshow'⟩, hno'⟩ := hk'
    · exact .inl (hspent.mono fun g hg => by rwa [heq, generation?_updateNode])
    · refine .inr ⟨?_, by rwa [hview]⟩
      by_cases hkk : k' = k
      · exact ⟨l, hkk ▸ hshow.setLabel l⟩
      · exact ⟨s', hshow'.setLabel_of_ne hw hkk l (hlive k' hshow'.contains)⟩
  · intro x b k' clipboard hl
    rw [heq, listeners_updateNode] at hl
    exact .inl hl

end leaves

end CopyControl.Document
