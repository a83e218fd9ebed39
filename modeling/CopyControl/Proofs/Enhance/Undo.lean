import CopyControl.Proofs.Enhance.Result

/-!
Undoing a pass.

A pass can be read off the documents before and after it: the wrappers and the marks that are new.
`undone` puts each `pre` back where its new wrapper stands and takes the new marks off, and what is
left is the document before the pass, node by node (`pass_only_wraps`). The blocks may be siblings,
share a `pre` or stand inside one another; since `Enhanced` compares with the document before the
pass and not with the one before the last block, none of this needs a case of its own.

* §1 the undoing
* §2 a node that was there before
* §3 a node that is new
* §4 the pass
-/

namespace CopyControl

/-- An element without some classes. -/
def Element.without (e : Element) (cs : List String) : Element :=
  { e with classes := e.classes.filter (· ∉ cs) }

namespace Document

open Enhance

variable {d d' : Document} {clipboard : String} {os : List Outfit} {o : Outfit} {x y : NodeId}

/-! ## §1 The undoing -/

/-- A node of `d` that has the mark in `d'` and had none in `d`. -/
def isNewlyMarked (d d' : Document) (x : NodeId) : Bool :=
  d.contains x && !d.hasClass x enhancedClass && d'.hasClass x enhancedClass

/-- The classes that marking a node has given it. -/
def newMarks (d d' : Document) (x : NodeId) : List String :=
  if d.isNewlyMarked d' x then [wrapLinesClass, enhancedClass].filter (!d.hasClass x ·) else []

/-- A wrapper of `d'` that is not in `d`. -/
def isNewWrapper (d d' : Document) (x : NodeId) : Bool :=
  !d.contains x && d'.hasClass x wrapperClass

/-- The `pre` that a new wrapper holds, or the node itself. -/
def unwrapped (d d' : Document) (x : NodeId) : NodeId :=
  if d.isNewWrapper d' x then
    ((d'.children x).find? (d'.tag? · = some "pre")).getD x
  else x

/-- The node with the wrappers and the marks taken away that are in `d'` and not in `d`. -/
def undone (d d' : Document) (x : NodeId) : Option Node :=
  (d'.node? x).map fun n =>
    { kind := n.kind.onElement (·.without (d.newMarks d' x))
      parent := n.parent.bind fun p => if d.isNewWrapper d' p then d'.parent? p else some p
      children := n.children.map (d.unwrapped d') }

/-- What a pass adds to a document for one block. -/
structure Outfit.Added (o : Outfit) (d d' : Document) (clipboard : String) : Prop where
  /-- The nodes are new, and there are four of them. -/
  new : o.made.Nodup ∧ ∀ y ∈ o.made, d.contains y = false
  /-- The `pre` has been there, and now has its mark. -/
  pre : d'.tag? o.pre = some "pre" ∧ d.isNewlyMarked d' o.pre
  /-- The wrapper stands where the `pre` stood, and holds the `pre` and the actions. -/
  wrapper : d'.kind? o.wrapper = some (.element (boxElement wrapperClass)) ∧
    d'.parent? o.wrapper = d.parent? o.pre ∧ d'.children o.wrapper = [o.pre, o.actions]
  actions : d'.kind? o.actions = some (.element (boxElement actionsClass)) ∧
    d'.parent? o.actions = some o.wrapper ∧ d'.children o.actions = [o.button]
  button : d'.kind? o.button = some (.element controlElement) ∧
    d'.parent? o.button = some o.actions ∧ d'.children o.button = [o.label] ∧
    d'.clickListeners o.button = [.copyBlock o.code o.button clipboard]
  label : d'.kind? o.label = some (.text ControlLabel.copy.text) ∧
    d'.parent? o.label = some o.button ∧ d'.children o.label = []

/-! ## §2 A node that was there before -/

/-- Without a class it was given, an element is what it was without it. -/
theorem without_addClass {e : Element} {c : String} {cs : List String} (hc : c ∈ cs) :
    (e.addClass c).without cs = e.without cs := by
  unfold Element.addClass
  split
  · rfl
  · simp [Element.without, hc]

theorem without_of_not_hasClass {e : Element} {cs : List String}
    (h : ∀ c ∈ cs, e.hasClass c = false) : e.without cs = e := by
  have hfilter : e.classes.filter (· ∉ cs) = e.classes := by
    refine List.filter_eq_self.mpr fun c hc => decide_eq_true fun hcs => ?_
    have := h c hcs
    rw [Element.hasClass, ← Bool.not_eq_true, List.contains_iff_mem] at this
    exact this hc
  rw [Element.without, hfilter]

/-- Without the classes that it did not have, a marked element is what it was. -/
theorem without_marked {e : Element} (h : e.hasClass enhancedClass = false) :
    (marked e).without ([wrapLinesClass, enhancedClass].filter (!e.hasClass ·)) = e := by
  have hself : e.without ([wrapLinesClass, enhancedClass].filter (!e.hasClass ·)) = e :=
    without_of_not_hasClass fun c hc => by simpa using (List.mem_filter.mp hc).2
  rw [marked, without_addClass (by simp [h])]
  cases hw : e.hasClass wrapLinesClass with
  | true => rwa [Element.addClass, if_pos hw]
  | false => rwa [without_addClass (by simp [hw])]

theorem node?_eq_iff {n : Node} :
    d.node? x = some n ↔
      d.kind? x = some n.kind ∧ d.parent? x = n.parent ∧ d.children x = n.children := by
  obtain ⟨k, p, cs⟩ := n
  cases h : d.node? x with
  | none => simp [kind?, h]
  | some m =>
    obtain ⟨k', p', cs'⟩ := m
    simp [kind?, parent?, children, h]

theorem undone_eq_iff {n : Node} (hx : d'.contains x) :
    d.undone d' x = some n ↔
      (d'.kind? x).map (·.onElement (·.without (d.newMarks d' x))) = some n.kind ∧
      ((d'.parent? x).bind fun p => if d.isNewWrapper d' p then d'.parent? p else some p) =
        n.parent ∧
      (d'.children x).map (d.unwrapped d') = n.children := by
  obtain ⟨m, hm⟩ := Option.isSome_iff_exists.mp hx
  obtain ⟨k, p, cs⟩ := n
  obtain ⟨hk, hp, hc⟩ := node?_eq_iff.mp hm
  rw [undone, hm, hk, hp, hc]
  simp

namespace Enhanced

variable (h : d.Enhanced d' os clipboard)
include h

theorem contains_of_live (hx : d.contains x) : d'.contains x :=
  h.contains_iff.mpr (.inr hx)

theorem isNewWrapper_wrapper (ho : o ∈ os) : d.isNewWrapper d' o.wrapper := by
  have hmem : o.wrapper ∈ o.made := by simp [Outfit.made]
  have hkind := h.kind?_made o ho _ hmem
  rw [Outfit.madeKind, if_pos rfl] at hkind
  have hclass : (boxElement wrapperClass).hasClass wrapperClass := by
    simp [boxElement, Element.hasClass]
  simp [isNewWrapper, h.made_fresh o ho _ hmem, hasClass, element?, hkind, NodeKind.element?,
    hclass]

omit h in
theorem isNewWrapper_of_live (hx : d.contains x) : d.isNewWrapper d' x = false := by
  simp [isNewWrapper, hx]

omit h in
theorem unwrapped_of_live (hx : d.contains x) : d.unwrapped d' x = x := by
  simp [unwrapped, isNewWrapper_of_live hx]

theorem tag?_pre (htag : ∀ o ∈ os, d.tag? o.pre = some "pre") (ho : o ∈ os) :
    d'.tag? o.pre = some "pre" := by
  rw [h.tag? (h.not_made_of_live (h.contains_pre ho)), htag o ho]

/-- A new wrapper holds first the `pre` it is for. -/
theorem unwrapped_wrapper (htag : ∀ o ∈ os, d.tag? o.pre = some "pre") (ho : o ∈ os) :
    d.unwrapped d' o.wrapper = o.pre := by
  have hch := h.children_made o ho o.wrapper (by simp [Outfit.made])
  rw [Outfit.madeChildren, if_pos rfl] at hch
  rw [unwrapped, if_pos (h.isNewWrapper_wrapper ho), hch]
  simp [h.tag?_pre htag ho]

/-- What a node that was there before holds, with each wrapper replaced by its `pre`. -/
theorem map_unwrapped_children (htag : ∀ o ∈ os, d.tag? o.pre = some "pre")
    (hw : d.WellFormed) (hx : d.contains x) :
    (d'.children x).map (d.unwrapped d') = d.children x := by
  rw [h.children_rest x (h.not_made_of_live hx), List.map_map]
  refine (List.map_congr_left fun c hc => ?_).trans (List.map_id _)
  rw [Function.comp_apply, id_eq]
  by_cases hp : c ∈ os.map Outfit.pre
  · obtain ⟨o, ho, rfl⟩ := List.mem_map.mp hp
    rw [h.wrapperOf_pre ho, h.unwrapped_wrapper htag ho]
  · rw [wrapperOf_rest hp, unwrapped_of_live (hw.contains_of_child hc)]

/-- Where a node that was there before stands, with each wrapper replaced by its `pre`. -/
theorem parent?_outside (hw : d.WellFormed) (hx : d.contains x) :
    ((d'.parent? x).bind fun p => if d.isNewWrapper d' p then d'.parent? p else some p) =
      d.parent? x := by
  by_cases hp : x ∈ os.map Outfit.pre
  · obtain ⟨o, ho, rfl⟩ := List.mem_map.mp hp
    obtain ⟨container, hc, hpar⟩ := h.parent?_made o ho
    have hpw := hpar o.wrapper (by simp [Outfit.made])
    rw [Outfit.madeParent, if_pos rfl] at hpw
    simp [h.parent?_pre o ho, h.isNewWrapper_wrapper ho, hpw, hc]
  · rw [h.parent?_rest x (h.not_made_of_live hx) hp]
    cases hq : d.parent? x with
    | none => rfl
    | some q => simp [isNewWrapper_of_live (hw.contains_of_link hq)]

/-- The marks are new on just the nodes that got a control. -/
theorem isNewlyMarked_iff (hbare : ∀ o ∈ os, d.hasClass o.pre enhancedClass = false) :
    d.isNewlyMarked d' x ↔ x ∈ os.map Outfit.pre := by
  simp only [isNewlyMarked, Bool.and_eq_true, Bool.not_eq_true']
  constructor
  · rintro ⟨⟨hx, hno⟩, hm⟩
    by_contra hp
    rw [hasClass_congr (h.kind?_rest x (h.not_made_of_live hx) hp), hno] at hm
    simp at hm
  · intro hp
    obtain ⟨o, ho, rfl⟩ := List.mem_map.mp hp
    exact ⟨⟨h.contains_pre ho, hbare o ho⟩, (h.hasClass_pre ho).1⟩

/-- What a node that was there before is, without the marks that are new. -/
theorem kind?_without (hbare : ∀ o ∈ os, d.hasClass o.pre enhancedClass = false)
    (hx : d.contains x) :
    (d'.kind? x).map (·.onElement (·.without (d.newMarks d' x))) = d.kind? x := by
  by_cases hp : x ∈ os.map Outfit.pre
  · rw [newMarks, if_pos ((h.isNewlyMarked_iff hbare).mpr hp)]
    obtain ⟨o, ho, rfl⟩ := List.mem_map.mp hp
    obtain ⟨e, he, he'⟩ := h.element?_pre o ho
    have hno : e.hasClass enhancedClass = false := by
      rw [← hasClass_of_element? he, hbare o ho]
    simp only [hasClass_of_element? he]
    rw [element?_eq_some_iff.mp he, element?_eq_some_iff.mp he', Option.map_some,
      NodeKind.onElement, without_marked hno]
  · rw [newMarks, if_neg fun hm => hp ((h.isNewlyMarked_iff hbare).mp hm),
      h.kind?_rest x (h.not_made_of_live hx) hp]
    cases hk : d.kind? x with
    | none => rfl
    | some k => cases k <;> simp [NodeKind.onElement, Element.without]

theorem undone_eq (hw : d.WellFormed) (htag : ∀ o ∈ os, d.tag? o.pre = some "pre")
    (hbare : ∀ o ∈ os, d.hasClass o.pre enhancedClass = false) (hx : d.contains x) :
    d.undone d' x = d.node? x := by
  obtain ⟨n, hn⟩ := Option.isSome_iff_exists.mp hx
  obtain ⟨hk, hp, hc⟩ := node?_eq_iff.mp hn
  rw [hn, undone_eq_iff (h.contains_of_live hx), h.kind?_without hbare hx, h.parent?_outside hw hx,
    h.map_unwrapped_children htag hw hx]
  exact ⟨hk, hp, hc⟩

/-- The new listeners are those of the new controls. -/
theorem clickListeners_of_live (hx : d.contains x) :
    d'.clickListeners x = d.clickListeners x := by
  have hnew : (os.map fun o => (o.button, Listener.copyBlock o.code o.button clipboard)).filter
      (·.1 = x) = [] := by
    refine List.filter_eq_nil_iff.mpr fun l hl hlx => ?_
    obtain ⟨o, ho, rfl⟩ := List.mem_map.mp hl
    have hdead := h.made_fresh o ho o.button (by simp [Outfit.made])
    rw [(by simpa using hlx : o.button = x), hx] at hdead
    simp at hdead
  rw [clickListeners, h.listeners, List.filter_append, hnew, List.append_nil, clickListeners]

/-! ## §3 A node that is new -/

theorem added (hw : d.WellFormed) (htag : ∀ o ∈ os, d.tag? o.pre = some "pre")
    (hbare : ∀ o ∈ os, d.hasClass o.pre enhancedClass = false) (ho : o ∈ os) :
    o.Added d d' clipboard := by
  have hn : o.made.Nodup := (List.nodup_flatMap.mp h.made_nodup).1 o ho
  obtain ⟨hwa, hwb, hwl, hab, hal, hbl⟩ := Outfit.distinct hn
  obtain ⟨container, hc, hpar⟩ := h.parent?_made o ho
  have hkind := h.kind?_made o ho
  have hch := h.children_made o ho
  simp only [Outfit.made, List.forall_mem_cons, Outfit.madeKind, Outfit.madeParent,
    Outfit.madeChildren, if_true, if_neg hwa.symm, if_neg hwb.symm, if_neg hwl.symm,
    if_neg hab.symm, if_neg hal.symm, if_neg hbl.symm] at hkind hpar hch
  obtain ⟨hkw, hka, hkb, hkl, -⟩ := hkind
  obtain ⟨hpw, hpa, hpb, hpl, -⟩ := hpar
  obtain ⟨hcw, hca, hcb, hcl, -⟩ := hch
  constructor
  case new => exact ⟨hn, h.made_fresh o ho⟩
  case pre =>
    exact ⟨h.tag?_pre htag ho, (h.isNewlyMarked_iff hbare).mpr (List.mem_map_of_mem ho)⟩
  case wrapper => exact ⟨hkw, hpw.trans hc.symm, hcw⟩
  case actions => exact ⟨hka, hpa, hca⟩
  case button => exact ⟨hkb, hpb, hcb, h.clickListeners_button hw ho⟩
  case label => exact ⟨hkl, hpl, hcl⟩

end Enhanced

/-! ## §4 The pass -/

theorem anchors_enhance (hw : d.WellFormed) (clipboard : String) :
    (d.enhance clipboard).document.anchors = d.anchors :=
  (changes_enhance hw clipboard).anchors_eq

/-- **A pass only wraps.** With the new wrappers and the new marks taken away, every node that was
there before a pass is what it was, where it was, and holds what it held; and every other node is
part of what was added for one `pre`. -/
theorem pass_only_wraps (ops : List Operation) (clipboard : String) :
    let d := Operation.runAll ops new
    let d' := (d.enhance clipboard).document
    (∀ x, d.contains x →
      d'.contains x ∧ d.undone d' x = d.node? x ∧ d'.clickListeners x = d.clickListeners x) ∧
    (∀ x, d'.contains x → d.contains x = false →
      ∃ o : Outfit, o.Added d d' clipboard ∧ x ∈ o.made) ∧
    d'.anchors = d.anchors := by
  intro d d'
  have hw : d.WellFormed := wellFormed_runAll wellFormed_new ops
  obtain ⟨os, h⟩ := enhance_progress hw clipboard
  have he := h.enhanced
  have htag : ∀ o ∈ os, d.tag? o.pre = some "pre" := fun o ho => (h.bare o ho).1
  have hbare : ∀ o ∈ os, d.hasClass o.pre enhancedClass = false := fun o ho => (h.bare o ho).2.1
  refine ⟨fun x hx => ⟨he.contains_of_live hx, he.undone_eq hw htag hbare hx,
    he.clickListeners_of_live hx⟩, fun x hx' hx => ?_, anchors_enhance hw clipboard⟩
  rcases he.contains_iff.mp hx' with hm | hm
  · obtain ⟨o, ho, hxo⟩ := List.mem_flatMap.mp hm
    exact ⟨o, he.added hw htag hbare ho, hxo⟩
  · simp [hm] at hx

end Document

end CopyControl
