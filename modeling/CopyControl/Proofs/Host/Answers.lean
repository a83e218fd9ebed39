import CopyControl.Proofs.Enhance.Classes
import CopyControl.Proofs.Enhance.Result
import CopyControl.Proofs.Host.Service

/-!
Whose control is found for a block.

The control of a block is looked up by the shape of the tree: from the block to its `pre`, from
there to the wrapper, and down again through the actions to a button. Which block a control copies
is written in its listener. Let classes and copying listeners come from passes alone. Then, whatever
is done to the tree, what is found is a control, and it copies some block. As long as wrappers and
actions are left as they are, it copies the first block of the `pre` (`controlFor?_serves`). So a
second block in a `pre` is answered with the control of the first (`controlFor?_secondBlock`).

* §1 edits that make no controls
* §2 every button of a pass copies a block
* §3 fixtures
* §4 the control that is found
-/

namespace CopyControl

open Document Enhance

/-! ## §1 Edits -/

/-- The classes by which a control is found. -/
def Enhance.fixtureClasses : List String :=
  [enhancedClass, wrapperClass, actionsClass, buttonClass]

/-- Whether the operation does to a node what is for passes to do. -/
def Operation.forges : Operation → Bool
  | addClass _ c => fixtureClasses.contains c
  | addClickListener _ l => l.copies
  | _ => false

/-- Whether the action is a pass, or an operation on the document that makes no control. -/
def Action.isEdit : Action → Bool
  | operate o => !o.forges
  | enhance _ => true
  | _ => false

namespace Document

variable {d d' : Document} {x block : NodeId} {clipboard : String} {o : Operation}

theorem not_forges_addClass {y : NodeId} {c : String} (hc : c ∈ fixtureClasses) :
    (Operation.addClass y c).forges = true := by
  simpa [Operation.forges] using hc

/-- The classes of controls are kept by such operations, and not given to any node. -/
theorem hasClass_of_run (hw : d.WellFormed) (ho : o.forges = false) {c : String}
    (hc : c ∈ fixtureClasses) (h : (o.run d).hasClass x c) : d.hasClass x c := by
  refine (hasClass_run hw h).resolve_right ?_
  rintro rfl
  simp [not_forges_addClass hc] at ho

theorem run_hasClass (hw : d.WellFormed) {c : String} (hx : (o.run d).contains x)
    (h : d.hasClass x c) : (o.run d).hasClass x c :=
  (works_run hw o).hasClass hw hx h

theorem run_tag? (hw : d.WellFormed) (hx : (o.run d).contains x) (h : d.contains x) :
    (o.run d).tag? x = d.tag? x := by
  rcases run_keeps_or_empties hw o x.index with hk | hk
  · exact (hk.node x rfl h).2
  · simp [not_contains_of_empties hk h] at hx

theorem isElement_congr (h : d'.tag? x = d.tag? x) : d'.IsElement x ↔ d.IsElement x := by
  have hiff : ∀ d : Document, d.IsElement x ↔ (d.tag? x).isSome := fun d => by
    rw [IsElement, tag?, Option.isSome_map]
  rw [hiff, h, ← hiff]

theorem Serves.run (h : d.Serves x block clipboard) (hw : d.WellFormed)
    (ho : o.forges = false) (hx : (o.run d).contains x) :
    (o.run d).Serves x block clipboard := by
  have hnone : (o.listenersFor x).filter Listener.copies = [] := by
    refine List.filter_eq_nil_iff.mpr fun l hl => ?_
    cases o <;> simp_all [Operation.listenersFor, Operation.forges]
  have htag := run_tag? hw hx (contains_of_isElement h.isElement)
  refine ⟨(isElement_congr htag).mpr h.isElement, ?_⟩
  rw [clickListeners_run hw o hx, List.filter_append, h.listeners, hnone, List.append_nil]

theorem Serves.enhance (h : d.Serves x block clipboard) (hw : d.WellFormed) (second : String) :
    (d.enhance second).document.Serves x block clipboard := by
  have hlive := contains_of_isElement h.isElement
  have hpass : Passes d (d.enhance second).document := .single (.pass second)
  have htag := (((Passes.grows hw hpass).keeps x.index).node x rfl hlive).2
  refine ⟨(isElement_congr htag).mpr h.isElement, ?_⟩
  rw [Passes.clickListeners hw hpass hlive, h.listeners]

/-! ## §2 Buttons -/

/-- Every node with the class of buttons is a button that copies one block. -/
def Manned (d : Document) : Prop :=
  ∀ x, d.hasClass x buttonClass →
    d.tag? x = some "button" ∧ ∃ block clipboard, d.Serves x block clipboard

theorem Manned.run (h : d.Manned) (hw : d.WellFormed) (ho : o.forges = false) :
    (o.run d).Manned := by
  intro x hx
  have hold := hasClass_of_run hw ho (by decide) hx
  obtain ⟨htag, block, clipboard, hs⟩ := h x hold
  have hlive := contains_of_hasClass hx
  exact ⟨(run_tag? hw hlive (contains_of_hasClass hold)).trans htag, block, clipboard,
    hs.run hw ho hlive⟩

theorem Enhanced.serves {os : List Outfit} (h : d.Enhanced d' os clipboard) (hw : d.WellFormed)
    {o : Outfit} (ho : o ∈ os) :
    d'.tag? o.button = some "button" ∧ d'.Serves o.button o.code clipboard := by
  obtain ⟨-, hwb, -, hab, -⟩ := Outfit.distinct ((List.nodup_flatMap.mp h.made_nodup).1 o ho)
  have helement : d'.element? o.button = some controlElement := by
    rw [element?_eq_some_iff, h.kind?_made o ho o.button (by simp [Outfit.made]),
      Outfit.madeKind, if_neg hwb.symm, if_neg hab.symm, if_pos rfl]
  refine ⟨by simp [Document.tag?, helement, controlElement], Option.isSome_of_mem helement, ?_⟩
  rw [h.clickListeners_button hw ho]
  rfl

theorem Manned.enhance (h : d.Manned) (hw : d.WellFormed) (clipboard : String) :
    (d.enhance clipboard).document.Manned := by
  intro x hx
  obtain ⟨os, hp⟩ := enhance_progress hw clipboard
  rcases hp.enhanced.hasClass_cases hx with hold | ⟨o, ho, hmade⟩
  · obtain ⟨htag, block, clipboard', hs⟩ := h x hold
    have hm := hp.enhanced.not_made_of_live (contains_of_hasClass hold)
    exact ⟨(hp.enhanced.tag? hm).trans htag, block, clipboard', hs.enhance hw clipboard⟩
  · rcases hmade with ⟨-, hc⟩ | ⟨-, hc⟩ | ⟨rfl, -⟩ | ⟨-, hc⟩
    · exact absurd hc (by decide)
    · exact absurd hc (by decide)
    · obtain ⟨htag, hs⟩ := hp.enhanced.serves hw ho
      exact ⟨htag, o.code, clipboard, hs⟩
    · exact absurd hc (by decide)

/-! ## §3 Fixtures -/

/-- The outfit is in place: its `pre` and its control are in its wrapper, and the control copies the
first block of the `pre`. -/
structure Outfit.InPlace (o : Outfit) (d : Document) : Prop where
  wrapper : d.hasClass o.wrapper wrapperClass ∧ d.children o.wrapper = [o.pre, o.actions]
  pre : d.tag? o.pre = some "pre" ∧ d.hasClass o.pre enhancedClass
  actions : d.tag? o.actions = some "div" ∧ d.hasClass o.actions actionsClass ∧
    d.children o.actions = [o.button]
  button : d.tag? o.button = some "button" ∧ d.hasClass o.button buttonClass
  code : d.firstBlock? o.pre = some o.code
  serves : ∃ clipboard, d.Serves o.button o.code clipboard

/-- Every `pre` with the mark, and every wrapper, is part of an outfit that is in place. -/
structure Fitted (d : Document) : Prop where
  wellFormed : d.WellFormed
  marked : ∀ x, d.hasClass x enhancedClass → ∃ o : Outfit, o.pre = x ∧ o.InPlace d
  wrappers : ∀ x, d.hasClass x wrapperClass → ∃ o : Outfit, o.wrapper = x ∧ o.InPlace d
  actions : ∀ x, d.hasClass x actionsClass → d.tag? x = some "div"

/-- From `d` to `d'`, wrappers and actions hold what they held as long as they are there, and each
`pre` with the mark is where it was and has the first block it had. -/
def LeavesFixtures (d d' : Document) : Prop :=
  ∀ x ∈ d.liveNodes, d'.contains x →
    (d.hasClass x wrapperClass ∨ d.hasClass x actionsClass → d'.children x = d.children x) ∧
    (d.hasClass x enhancedClass →
      d'.parent? x = d.parent? x ∧ d'.firstBlock? x = d.firstBlock? x)

instance (d d' : Document) : Decidable (d.LeavesFixtures d') :=
  inferInstanceAs (Decidable (∀ x ∈ d.liveNodes, _ → _ ∧ _))

namespace Outfit.InPlace

variable {q : Outfit} (h : q.InPlace d)
include h

theorem live_wrapper : d.contains q.wrapper := contains_of_hasClass h.wrapper.1

theorem live_pre : d.contains q.pre := contains_of_hasClass h.pre.2

theorem live_actions : d.contains q.actions := contains_of_hasClass h.actions.2.1

theorem live_button : d.contains q.button := contains_of_hasClass h.button.2

theorem parent?_pre (hw : d.WellFormed) : d.parent? q.pre = some q.wrapper :=
  (hw.parent_iff _ _).mpr (by rw [h.wrapper.2]; exact List.mem_cons_self)

/-- An outfit stays in place under edits around it. -/
theorem run (hw : d.WellFormed) (ho : o.forges = false) (hl : d.LeavesFixtures (o.run d))
    (hlive : (o.run d).contains q.wrapper) : q.InPlace (o.run d) := by
  have hw' := wellFormed_run hw o
  have hleft : ∀ x, d.contains x → (o.run d).contains x → _ := fun x hx =>
    hl x (mem_liveNodes_iff.mpr hx)
  have hwrapper : (o.run d).children q.wrapper = [q.pre, q.actions] :=
    ((hleft _ h.live_wrapper hlive).1 (.inl h.wrapper.1)).trans h.wrapper.2
  have hpre : (o.run d).contains q.pre :=
    hw'.contains_of_child (p := q.wrapper) (by simp [hwrapper])
  have hact : (o.run d).contains q.actions :=
    hw'.contains_of_child (p := q.wrapper) (by simp [hwrapper])
  have hactions : (o.run d).children q.actions = [q.button] :=
    ((hleft _ h.live_actions hact).1 (.inr h.actions.2.1)).trans h.actions.2.2
  have hbutton : (o.run d).contains q.button :=
    hw'.contains_of_child (p := q.actions) (by simp [hactions])
  obtain ⟨clipboard, hs⟩ := h.serves
  constructor
  case wrapper => exact ⟨run_hasClass hw hlive h.wrapper.1, hwrapper⟩
  case pre => exact ⟨(run_tag? hw hpre h.live_pre).trans h.pre.1, run_hasClass hw hpre h.pre.2⟩
  case actions =>
    exact ⟨(run_tag? hw hact h.live_actions).trans h.actions.1, run_hasClass hw hact h.actions.2.1,
      hactions⟩
  case button =>
    exact ⟨(run_tag? hw hbutton h.live_button).trans h.button.1,
      run_hasClass hw hbutton h.button.2⟩
  case code => exact ((hleft _ h.live_pre hpre).2 h.pre.2).2.trans h.code
  case serves => exact ⟨clipboard, hs.run hw ho hbutton⟩

/-- And under passes. -/
theorem enhance (hw : d.WellFormed) (clipboard : String) :
    q.InPlace (d.enhance clipboard).document := by
  obtain ⟨os, hp⟩ := enhance_progress hw clipboard
  have he := hp.enhanced
  have htag : ∀ p ∈ os, d.tag? p.pre = some "pre" := fun p hpm => (hp.bare p hpm).1
  have hmade : ∀ {x}, d.contains x → x ∉ os.flatMap Outfit.made := he.not_made_of_live
  -- nothing of the outfit is wrapped again: its `pre` has the mark, the rest is no `pre`
  have hpre : q.pre ∉ os.map Outfit.pre := by
    intro hm
    obtain ⟨p, hpm, heq⟩ := List.mem_map.mp hm
    have hbare := (hp.bare p hpm).2.1
    rw [heq, h.pre.2] at hbare
    simp at hbare
  have hother : ∀ {x t}, d.tag? x = some t → t ≠ "pre" → x ∉ os.map Outfit.pre := by
    intro x t hx ht hm
    obtain ⟨p, hpm, rfl⟩ := List.mem_map.mp hm
    exact ht (Option.some.inj (hx.symm.trans (htag p hpm)))
  have hact := hother h.actions.1 (by decide)
  have hbutton := hother h.button.1 (by decide)
  obtain ⟨clipboard', hs⟩ := h.serves
  constructor
  case wrapper =>
    refine ⟨hasClass_enhance hw clipboard h.wrapper.1, ?_⟩
    rw [he.children_rest _ (hmade h.live_wrapper), h.wrapper.2, List.map_cons, List.map_cons,
      List.map_nil, wrapperOf_rest hpre, wrapperOf_rest hact]
  case pre =>
    exact ⟨(he.tag? (hmade h.live_pre)).trans h.pre.1, hasClass_enhance hw clipboard h.pre.2⟩
  case actions =>
    refine ⟨(he.tag? (hmade h.live_actions)).trans h.actions.1,
      hasClass_enhance hw clipboard h.actions.2.1, ?_⟩
    rw [he.children_rest _ (hmade h.live_actions), h.actions.2.2, List.map_cons, List.map_nil,
      wrapperOf_rest hbutton]
  case button =>
    exact ⟨(he.tag? (hmade h.live_button)).trans h.button.1,
      hasClass_enhance hw clipboard h.button.2⟩
  case code => exact (he.firstBlock? hw htag h.live_pre).trans h.code
  case serves => exact ⟨clipboard', hs.enhance hw clipboard⟩

end Outfit.InPlace

/-- What a pass makes is in place. -/
theorem Progress.inPlace (hw : d.WellFormed) (hr : d.RootApart) {os : List Outfit}
    (hp : d.Progress clipboard d.codeBlocks (d.enhance clipboard) os) {q : Outfit} (hq : q ∈ os) :
    q.InPlace (d.enhance clipboard).document := by
  have hs := hp.stands hw hr hq
  have he := hp.enhanced
  have htag : ∀ p ∈ os, d.tag? p.pre = some "pre" := fun p hpm => (hp.bare p hpm).1
  have hlive := he.contains_pre hq
  have hclass {x : NodeId} {e : Element} (c : String)
      (hx : (d.enhance clipboard).document.kind? x = some (.element e)) :
      (d.enhance clipboard).document.hasClass x c = e.hasClass c :=
    hasClass_of_element? (element?_eq_some_iff.mpr hx) c
  have htagged {x : NodeId} {e : Element}
      (hx : (d.enhance clipboard).document.kind? x = some (.element e)) :
      (d.enhance clipboard).document.tag? x = some e.tag := by
    rw [tag?, element?_eq_some_iff.mpr hx, Option.map_some]
  constructor
  case wrapper => exact ⟨(hclass _ hs.wrapper.1).trans (by decide), hs.wrapper.2.2⟩
  case pre => exact ⟨(he.tag? (he.not_made_of_live hlive)).trans (htag q hq), hs.pre.1⟩
  case actions =>
    exact ⟨htagged hs.actions.1, (hclass _ hs.actions.1).trans (by decide), hs.actions.2⟩
  case button => exact ⟨htagged hs.button.1, (hclass _ hs.button.1).trans (by decide)⟩
  case code => exact (he.firstBlock? hw htag hlive).trans hs.code
  case serves => exact ⟨clipboard, (he.serves hw hq).2⟩

theorem Fitted.run (h : d.Fitted) (ho : o.forges = false) (hl : d.LeavesFixtures (o.run d)) :
    (o.run d).Fitted := by
  have hw := h.wellFormed
  have hw' := wellFormed_run hw o
  refine ⟨hw', fun x hx => ?_, fun x hx => ?_, fun x hx => ?_⟩
  · obtain ⟨q, rfl, hq⟩ := h.marked x (hasClass_of_run hw ho (by decide) hx)
    have hparent : (o.run d).parent? q.pre = some q.wrapper :=
      ((hl _ (mem_liveNodes_iff.mpr hq.live_pre) (contains_of_hasClass hx)).2 hq.pre.2).1.trans
        (hq.parent?_pre hw)
    exact ⟨q, rfl, hq.run hw ho hl (hw'.contains_of_link hparent)⟩
  · obtain ⟨q, rfl, hq⟩ := h.wrappers x (hasClass_of_run hw ho (by decide) hx)
    exact ⟨q, rfl, hq.run hw ho hl (contains_of_hasClass hx)⟩
  · have hold := hasClass_of_run hw ho (by decide) hx
    exact (run_tag? hw (contains_of_hasClass hx) (contains_of_hasClass hold)).trans
      (h.actions x hold)

theorem Fitted.enhance (h : d.Fitted) (hr : d.RootApart) (clipboard : String) :
    (d.enhance clipboard).document.Fitted := by
  have hw := h.wellFormed
  obtain ⟨os, hp⟩ := enhance_progress hw clipboard
  have he := hp.enhanced
  refine ⟨he.wellFormed, fun x hx => ?_, fun x hx => ?_, fun x hx => ?_⟩
  · rcases he.hasClass_cases hx with hold | ⟨q, hq, hmade⟩
    · obtain ⟨q, rfl, hq⟩ := h.marked x hold
      exact ⟨q, rfl, hq.enhance hw clipboard⟩
    · rcases hmade with ⟨-, hc⟩ | ⟨-, hc⟩ | ⟨-, hc⟩ | ⟨rfl, -⟩
      · exact absurd hc (by decide)
      · exact absurd hc (by decide)
      · exact absurd hc (by decide)
      · exact ⟨q, rfl, hp.inPlace hw hr hq⟩
  · rcases he.hasClass_cases hx with hold | ⟨q, hq, hmade⟩
    · obtain ⟨q, rfl, hq⟩ := h.wrappers x hold
      exact ⟨q, rfl, hq.enhance hw clipboard⟩
    · rcases hmade with ⟨rfl, -⟩ | ⟨-, hc⟩ | ⟨-, hc⟩ | ⟨-, hc⟩
      · exact ⟨q, rfl, hp.inPlace hw hr hq⟩
      · exact absurd hc (by decide)
      · exact absurd hc (by decide)
      · exact absurd hc (by decide)
  · rcases he.hasClass_cases hx with hold | ⟨q, hq, hmade⟩
    · rw [he.tag? (he.not_made_of_live (contains_of_hasClass hold)), h.actions x hold]
    · rcases hmade with ⟨-, hc⟩ | ⟨rfl, -⟩ | ⟨-, hc⟩ | ⟨-, hc⟩
      · exact absurd hc (by decide)
      · exact (hp.inPlace hw hr hq).actions.1
      · exact absurd hc (by decide)
      · exact absurd hc (by decide)

/-! ## §4 The control that is found -/

theorem hasClass_of_controlFor? {c b : NodeId} (h : d.controlFor? c = some b) :
    d.hasClass b buttonClass := by
  simp only [controlFor?, Option.bind_eq_bind, Option.bind_eq_some_iff] at h
  obtain ⟨pre, -, wrapper, -, h⟩ := h
  split at h
  · simpa using List.find?_some h
  · simp at h

/-- In an outfit that is in place, the control is found from every block of the `pre`. -/
theorem Fitted.controlFor?_eq (h : d.Fitted) {q : Outfit} (hq : q.InPlace d) {c : NodeId}
    (hc : d.Block c q.pre) : d.controlFor? c = some q.button := by
  have hpre : d.hasClass q.pre actionsClass = false := by
    rw [Bool.eq_false_iff]
    intro ha
    have htag := (h.actions _ ha).symm.trans hq.pre.1
    simp at htag
  simp [controlFor?, hc.link, hq.parent?_pre h.wellFormed, hq.wrapper, hq.actions, hq.button, hpre]

/-- From a block of a `pre` without the mark none is found. -/
theorem Fitted.controlFor?_eq_none (h : d.Fitted) {c pre : NodeId} (hc : d.Block c pre)
    (hm : d.hasClass pre enhancedClass = false) : d.controlFor? c = none := by
  cases hp : d.parent? pre with
  | none => simp [controlFor?, hc.link, hp]
  | some wrapper =>
    have hplain : d.hasClass wrapper wrapperClass = false := by
      rw [Bool.eq_false_iff]
      intro hwrap
      obtain ⟨q, rfl, hq⟩ := h.wrappers wrapper hwrap
      have hmem := (h.wellFormed.parent_iff pre q.wrapper).mp hp
      rw [hq.wrapper.2] at hmem
      rcases List.mem_pair.mp hmem with rfl | rfl
      · simp [hq.pre.2] at hm
      · have htag := hc.tag_pre.symm.trans hq.actions.1
        simp at htag
    simp [controlFor?, hc.link, hp, hplain]

end Document

namespace Action

/-- No operation of the run touches the fixtures that stand when it is made. -/
def AllLeaveFixtures : List Action → Host → Prop
  | [], _ => True
  | a :: as, h =>
    (a.runsPasses h = false → h.document.LeavesFixtures (a.perform h).document) ∧
      AllLeaveFixtures as (a.perform h)

instance decidableAllLeaveFixtures : (as : List Action) → (h : Host) →
    Decidable (AllLeaveFixtures as h)
  | [], _ => .isTrue trivial
  | a :: as, h =>
    have := decidableAllLeaveFixtures as (a.perform h)
    inferInstanceAs (Decidable (_ ∧ _))

theorem allLeaveFixtures_append {as bs : List Action} {h : Host} :
    AllLeaveFixtures (as ++ bs) h ↔
      AllLeaveFixtures as h ∧ AllLeaveFixtures bs (performAll as h) := by
  induction as generalizing h with
  | nil => simp [AllLeaveFixtures, performAll]
  | cons a as ih =>
    rw [List.cons_append, AllLeaveFixtures, ih, AllLeaveFixtures, and_assoc]
    rfl

end Action

namespace Host

open CopyControl.Action

variable {as : List Action}

theorem not_hasClass_new (x : NodeId) (c : String) : Document.new.hasClass x c = false := by
  cases hk : Document.new.kind? x with
  | none => simp [hasClass, element?, hk]
  | some k =>
    obtain ⟨tag, rfl⟩ := kind?_new x k hk
    simp [hasClass, element?, hk, NodeKind.element?, Element.hasClass, Element.ofTag]

theorem manned_performAll (has : ∀ a ∈ as, a.isEdit) :
    (performAll as (start new)).document.Manned := by
  induction as using List.reverseRecOn with
  | nil => exact fun x hx => by simp [performAll, start, not_hasClass_new] at hx
  | append_singleton as a ih =>
    obtain ⟨hold, hedit⟩ := List.forall_mem_append.mp has
    have hedit := hedit a (List.mem_singleton_self a)
    have hw := wellFormed_performAll (h := start new) wellFormed_new as
    rw [performAll_append]
    show (a.perform _).document.Manned
    cases a with
    | operate o =>
      rw [perform_operate]
      exact (ih hold).run hw (by simpa [isEdit] using hedit)
    | enhance clipboard =>
      rw [perform, enhance_document]
      exact (ih hold).enhance hw clipboard
    | _ => simp [isEdit] at hedit

theorem fitted_performAll (has : ∀ a ∈ as, a.isEdit) (hl : AllLeaveFixtures as (start new))
    (hn : timesEmptied new.root.index as (start new) < UInt32.size) :
    (performAll as (start new)).document.Fitted := by
  induction as using List.reverseRecOn with
  | nil =>
    refine ⟨wellFormed_new, fun x hx => ?_, fun x hx => ?_, fun x hx => ?_⟩
    all_goals simp [performAll, start, not_hasClass_new] at hx
  | append_singleton as a ih =>
    obtain ⟨hold, hedit⟩ := List.forall_mem_append.mp has
    have hedit := hedit a (List.mem_singleton_self a)
    obtain ⟨hrest, hla, -⟩ := allLeaveFixtures_append.mp hl
    have hcount : timesEmptied new.root.index as (start new) < UInt32.size := by
      rw [timesEmptied_append] at hn
      omega
    rw [performAll_append]
    show (a.perform _).document.Fitted
    cases a with
    | operate o =>
      have hleave := hla rfl
      rw [perform_operate] at hleave ⊢
      exact (ih hold hrest hcount).run (by simpa [isEdit] using hedit) hleave
    | enhance clipboard =>
      rw [perform, enhance_document]
      exact (ih hold hrest hcount).enhance (rootApart_performAll as hcount) clipboard
    | _ => simp [isEdit] at hedit

/-- **The control of a block.** A new document goes through operations that make no controls of
their own, and passes, in any order. What is then found for a block is a button that copies one
block. If no operation has touched a wrapper, the actions in it or the place and the first block of
its `pre`, then a control is found for exactly those blocks whose `pre` has the mark, and it copies
the first block of the `pre`. So it copies the block that was asked for if and only if that is the
first one. -/
theorem controlFor?_serves (has : ∀ a ∈ as, a.isEdit) :
    let d := (performAll as (start new)).document
    (∀ c b, d.controlFor? c = some b → d.tag? b = some "button" ∧ d.hasClass b buttonClass ∧
      ∃ block clipboard, d.Serves b block clipboard) ∧
    (AllLeaveFixtures as (start new) →
      timesEmptied new.root.index as (start new) < UInt32.size → ∀ c pre, d.Block c pre →
        (d.controlFor? c = none ↔ d.hasClass pre enhancedClass = false) ∧
        ∀ b, d.controlFor? c = some b →
          ∃ first clipboard, d.firstBlock? pre = some first ∧ d.Serves b first clipboard) := by
  intro d
  refine ⟨fun c b hb => ?_, fun hl hn c pre hc => ?_⟩
  · have hclass := hasClass_of_controlFor? hb
    obtain ⟨htag, hserves⟩ := manned_performAll has b hclass
    exact ⟨htag, hclass, hserves⟩
  have hd : d.Fitted := fitted_performAll has hl hn
  cases hm : d.hasClass pre enhancedClass with
  | false => simp [hd.controlFor?_eq_none hc hm]
  | true =>
    obtain ⟨q, rfl, hq⟩ := hd.marked pre hm
    obtain ⟨clipboard, hs⟩ := hq.serves
    rw [hd.controlFor?_eq hq hc]
    refine ⟨by simp, fun b hb => ?_⟩
    obtain rfl := Option.some.inj hb
    exact ⟨q.code, clipboard, hq.code, hs⟩

/-- A pass over a `pre` with two blocks. -/
def sharedPre : List Action :=
  [.operate (.createElement "pre"), .operate (.createElement "code"),
    .operate (.createElement "code"), .operate (.appendChild ⟨2, 0⟩ ⟨3, 0⟩),
    .operate (.appendChild ⟨3, 0⟩ ⟨4, 0⟩), .operate (.appendChild ⟨3, 0⟩ ⟨5, 0⟩),
    .operate (.appendText ⟨4, 0⟩ "a"), .operate (.appendText ⟨5, 0⟩ "b"), .enhance ""]

/-- After the pass the `pre` gets a third block, and its text another one. -/
def laterBlock : List Action :=
  sharedPre ++ [.operate (.createElement "code"), .operate (.appendChild ⟨3, 0⟩ ⟨12, 0⟩),
    .operate (.setText ⟨4, 0⟩ "c"), .enhance "again"]

theorem controlFor?_serves_laterBlock :
    let d := (performAll laterBlock (start new)).document
    d.Block ⟨12, 0⟩ ⟨3, 0⟩ ∧ d.controlFor? ⟨12, 0⟩ = some ⟨8, 0⟩ ∧
      ∃ first clipboard, d.firstBlock? ⟨3, 0⟩ = some first ∧ d.Serves ⟨8, 0⟩ first clipboard := by
  intro d
  have hblock : d.Block ⟨12, 0⟩ ⟨3, 0⟩ :=
    ⟨by decide +kernel, by decide +kernel, by decide +kernel⟩
  have hfound : d.controlFor? ⟨12, 0⟩ = some ⟨8, 0⟩ := by decide +kernel
  have hedits : ∀ a ∈ laterBlock, a.isEdit := by decide
  have h := controlFor?_serves hedits
  exact ⟨hblock, hfound,
    (h.2 (by decide +kernel) (by decide +kernel) ⟨12, 0⟩ ⟨3, 0⟩ hblock).2 ⟨8, 0⟩ hfound⟩

/-- What is found for the second block of a `pre` is a control that copies the first one. -/
theorem controlFor?_secondBlock :
    let d := (performAll sharedPre (start new)).document
    (∀ a ∈ sharedPre, a.isEdit) ∧ d.Block ⟨5, 0⟩ ⟨3, 0⟩ ∧ d.controlFor? ⟨5, 0⟩ = some ⟨8, 0⟩ ∧
      d.clickListeners ⟨8, 0⟩ = [.copyBlock ⟨4, 0⟩ ⟨8, 0⟩ ""] := by
  refine ⟨by decide, ⟨?_, ?_, ?_⟩, ?_, ?_⟩
  all_goals decide +kernel

end Host

end CopyControl
