import CopyControl.Proofs.Document.Listeners
import CopyControl.Proofs.Enhance.Again

/-!
Where the classes of an element come from.

Nodes are made without classes, and no operation but `addClass` gives a node one (`hasClass_run`).
A pass gives classes to the nodes that it makes and to each `pre` that it wraps, and to nothing else
(`Enhanced.hasClass_cases`).

* §1 classes and operations
* §2 classes and passes
* §3 the blocks of a `pre`
-/

namespace CopyControl.Document

open Edit Enhance

variable {d d' d'' : Document} {x : NodeId}

/-! ## §1 Operations -/

theorem contains_of_hasClass {c : String} (h : d.hasClass x c) : d.contains x := by
  cases he : d.element? x with
  | none => simp [hasClass, he] at h
  | some e => exact contains_of_element? he

/-- No node has a class in `d'` that it does not have in `d`. -/
def NoNewClass (d d' : Document) : Prop :=
  ∀ x c, d'.hasClass x c → d.hasClass x c

theorem NoNewClass.trans (h : d.NoNewClass d') (h' : d'.NoNewClass d'') : d.NoNewClass d'' :=
  fun x c hc => h x c (h' x c hc)

/-- What goes on living as the kind of node it was has the classes it had. -/
theorem noNewClass_of_kind? (h : ∀ x, d'.contains x → d'.kind? x = d.kind? x) :
    d.NoNewClass d' := by
  intro x c hc
  rwa [← hasClass_congr (h x (contains_of_hasClass hc))]

theorem noNewClass_of_eq (h : d'.kind? = d.kind?) : d.NoNewClass d' :=
  noNewClass_of_kind? fun x _ => congrFun h x

theorem OnlyFrees.noNewClass (h : d.OnlyFrees d') : d.NoNewClass d' := by
  refine noNewClass_of_kind? fun x hx => ?_
  rw [kind?, h.node? hx, kind?]

theorem noNewClass_of_fails {α : Type} {e : Edit α} (h : e.Fails d) :
    d.NoNewClass (e.apply d).2 := by
  obtain ⟨err, herr⟩ := h
  rw [herr]
  exact fun _ _ => id

/-- An element that is changed gets no class that the change does not give it. -/
theorem hasClass_updateElement {y : NodeId} {f : Element → Element} {c : String}
    (hf : x = y → ∀ e, (f e).hasClass c → e.hasClass c)
    (hc : ((updateElement y f).apply d).2.hasClass x c) : d.hasClass x c := by
  by_cases hy : d.IsElement y
  swap
  · exact noNewClass_of_fails (updateElement_fails f hy) x c hc
  have hkind := kind?_updateNode d y (f := onElement f) (g := NodeKind.onElement f)
    (by intro n; rw [onElement_eq]) x
  rw [updateElement_ok f hy] at hc
  by_cases hx : x = y
  · obtain ⟨e, he⟩ := Option.isSome_iff_exists.mp hy
    subst hx
    have he' : (d.updateNode x (onElement f)).element? x = some (f e) := by
      rw [element?_eq_some_iff, hkind, if_pos rfl, element?_eq_some_iff.mp he]
      rfl
    rw [hasClass_of_element? he'] at hc
    rw [hasClass_of_element? he]
    exact hf rfl e hc
  · rw [if_neg hx] at hkind
    rwa [hasClass_congr hkind] at hc

theorem kind?_cutLoose (d : Document) (x : NodeId) : (d.cutLoose x).kind? = d.kind? := by
  unfold cutLoose
  split
  · exact (kind?_notify ..).trans (kind?_detach ..)
  · rfl

theorem noNewClass_insertBefore (p c : NodeId) (r : Option NodeId) :
    d.NoNewClass ((insertBefore p c r).apply d).2 := by
  by_cases h : d.Insertable p c r
  · rw [insertBefore_ok h]
    split
    · exact fun _ _ => id
    · exact noNewClass_of_eq (kind?_move d p c r)
  · exact noNewClass_of_fails (insertBefore_fails h)

section
variable (hw : d.WellFormed)
include hw

theorem noNewClass_createNode {k : NodeKind} (hk : ∀ e, k = .element e → e.classes = []) :
    d.NoNewClass (d.createNode k).2 := by
  intro x c hc
  have hkind := kind?_createNode hw.free k x
  by_cases hx : x = (d.createNode k).1
  · rw [if_pos hx] at hkind
    cases k with
    | element e =>
      simp [hasClass, element?, hkind, NodeKind.element?, Element.hasClass, hk e rfl] at hc
    | text s => simp [hasClass, element?, hkind, NodeKind.element?] at hc
    | raw s => simp [hasClass, element?, hkind, NodeKind.element?] at hc
  · rw [if_neg hx] at hkind
    rwa [hasClass_congr hkind] at hc

theorem noNewClass_swapChildren {p : NodeId} {cs : List NodeId} (hp : d.IsElement p)
    (hcs : ∀ c ∈ cs, d.MayHold p c) : d.NoNewClass (d.swapChildren p cs) :=
  (noNewClass_of_eq (kind?_regrouped d p cs)).trans (swapChildren_spec hw hp hcs).2.noNewClass

theorem noNewClass_setTextContent (x : NodeId) (s : String) :
    d.NoNewClass ((setTextContent x s).apply d).2 := by
  by_cases hx : d.IsElement x
  · rw [setTextContent_ok hw s hx]
    exact (noNewClass_createNode hw (by simp)).trans
      (noNewClass_swapChildren (wellFormed_createNode hw (by simp)) (isElement_newText hw s hx)
        (mayHold_newText hw s hx))
  · exact noNewClass_of_fails (setTextContent_fails s hx)

theorem noNewClass_setText (x : NodeId) (s : String) :
    d.NoNewClass ((setText x s).apply d).2 := by
  cases h : d.soleText? x with
  | none =>
    rw [setText_of_not_sole s h]
    exact noNewClass_setTextContent hw x s
  | some only =>
    rw [setText_of_sole s h]
    intro y c hc
    have hkind := kind?_updateNode d only (f := fun n => { n with kind := .text s })
      (g := fun _ => .text s) (fun _ => rfl) y
    by_cases hy : y = only
    · obtain ⟨t, ht⟩ := kind?_of_soleText? h
      rw [if_pos hy, hy, ht] at hkind
      rw [hy] at hc
      simp [hasClass, element?, hkind, NodeKind.element?] at hc
    · rw [if_neg hy] at hkind
      rwa [hasClass_congr hkind] at hc

/-- No operation but `addClass` gives a node a class. -/
theorem hasClass_run {o : Operation} {c : String} (hc : (o.run d).hasClass x c) :
    d.hasClass x c ∨ o = .addClass x c := by
  by_cases hadd : ∃ y c', o = .addClass y c'
  · obtain ⟨y, c', rfl⟩ := hadd
    by_cases hx : x = y ∧ c = c'
    · exact .inr (by rw [hx.1, hx.2])
    · refine .inl (hasClass_updateElement (fun hxy e he => ?_) hc)
      exact (Element.hasClass_addClass.mp he).resolve_right fun hcc => hx ⟨hxy, hcc⟩
  refine .inl ((?_ : d.NoNewClass (o.run d)) x c hc)
  by_cases hn : o.OnNodes
  swap
  · exact noNewClass_of_eq (lookups_congr (sameArena_run d hn).slots).2.1
  cases o with
  | createElement tag => exact noNewClass_createNode hw fun e he => NodeKind.element.inj he ▸ rfl
  | createText _ | createRaw _ => exact noNewClass_createNode hw (by simp)
  | appendChild p c => exact noNewClass_insertBefore p c none
  | insertBefore p c r => exact noNewClass_insertBefore p c r
  | removeChild p c =>
    by_cases h : d.parent? c = some p
    · rw [Operation.run, removeChild_ok h]
      exact noNewClass_of_eq ((kind?_notify ..).trans (kind?_detach d p c))
    · exact noNewClass_of_fails (removeChild_fails h)
  | replaceChildren p cs =>
    by_cases h : d.IsElement p ∧ ∀ c ∈ cs, d.MayHold p c
    · rw [Operation.run, replaceChildren_ok h.1 h.2]
      exact noNewClass_swapChildren hw h.1 h.2
    · exact noNewClass_of_fails (replaceChildren_fails h)
  | release y =>
    by_cases h : d.contains y ∧ y ≠ d.root
    · rw [Operation.run, release_ok h.1 h.2]
      exact (noNewClass_of_eq (kind?_cutLoose d y)).trans
        (onlyFrees_releaseSubtree (wellFormed_cutLoose hw y) y).noNewClass
    · exact noNewClass_of_fails (release_fails h)
  | setText y s => exact noNewClass_setText hw y s
  | setTextContent y s => exact noNewClass_setTextContent hw y s
  | appendText y s =>
    by_cases h : d.IsElement y
    · rw [Operation.run, appendText_ok hw s h]
      exact (noNewClass_createNode hw (by simp)).trans (noNewClass_of_eq (kind?_move ..))
    · exact noNewClass_of_fails (appendText_fails s h)
  | addClass y c' => exact absurd ⟨y, c', rfl⟩ hadd
  | setAttribute y _ _ => exact fun _ _ => hasClass_updateElement fun _ _ => id
  | addClickListener y l =>
    by_cases h : d.contains y
    · rw [Operation.run, addClickListener_ok l h]
      exact noNewClass_of_eq rfl
    · exact noNewClass_of_fails (addClickListener_fails l h)
  | observe | disconnect | takeRecords | nextBatch | dropSubscription | markReady => exact hn.elim

end

/-! ## §2 Passes -/

section pass
variable {os : List Outfit} {clipboard : String} (h : d.Enhanced d' os clipboard)
include h

/-- The wrapper, the actions and the button have a class each. -/
theorem Enhanced.hasClass_made {o : Outfit} (ho : o ∈ os) {c : String} (hx : x ∈ o.made)
    (hc : d'.hasClass x c) : (x = o.wrapper ∧ c = wrapperClass) ∨
      (x = o.actions ∧ c = actionsClass) ∨ (x = o.button ∧ c = buttonClass) := by
  rw [hasClass, element?, h.kind?_made o ho x hx, Outfit.madeKind] at hc
  split at hc
  · simp_all [NodeKind.element?, Element.hasClass, boxElement]
  split at hc
  · simp_all [NodeKind.element?, Element.hasClass, boxElement]
  split at hc
  · simp_all [NodeKind.element?, Element.hasClass, controlElement]
  · simp [NodeKind.element?] at hc

/-- Else a class was there before, or is one of the marks of a `pre` that has been wrapped. -/
theorem Enhanced.hasClass_cases {c : String} (hc : d'.hasClass x c) :
    d.hasClass x c ∨ ∃ o ∈ os, (x = o.wrapper ∧ c = wrapperClass) ∨
      (x = o.actions ∧ c = actionsClass) ∨ (x = o.button ∧ c = buttonClass) ∨
      (x = o.pre ∧ (c = wrapLinesClass ∨ c = enhancedClass)) := by
  by_cases hm : x ∈ os.flatMap Outfit.made
  · obtain ⟨o, ho, hx⟩ := List.mem_flatMap.mp hm
    rcases h.hasClass_made ho hx hc with hw | ha | hb
    · exact .inr ⟨o, ho, .inl hw⟩
    · exact .inr ⟨o, ho, .inr (.inl ha)⟩
    · exact .inr ⟨o, ho, .inr (.inr (.inl hb))⟩
  by_cases hp : x ∈ os.map Outfit.pre
  · obtain ⟨o, ho, rfl⟩ := List.mem_map.mp hp
    obtain ⟨e, he, he'⟩ := h.element?_pre o ho
    rw [hasClass_of_element? he', marked, Element.hasClass_addClass,
      Element.hasClass_addClass, or_assoc] at hc
    rw [hasClass_of_element? he]
    exact hc.imp id fun hmark => ⟨o, ho, .inr (.inr (.inr ⟨rfl, hmark⟩))⟩
  · rw [hasClass_congr (h.kind?_rest x hm hp)] at hc
    exact .inl hc

end pass

theorem hasClass_enhance (hw : d.WellFormed) (clipboard : String) {c : String}
    (hc : d.hasClass x c) : (d.enhance clipboard).document.hasClass x c :=
  Grows.hasClass hw ((adds_enhance hw clipboard).lift id fun _ _ => .adds) hc

/-! ## §3 The blocks of a `pre` -/

/-- The first block among the children of a node. -/
def firstBlock? (d : Document) (x : NodeId) : Option NodeId :=
  (d.children x).find? (d.tag? · = some "code")

/-- A pass puts wrappers around the `pre` elements among the children of a node, and leaves the
blocks among them alone. -/
theorem Enhanced.firstBlock? {os : List Outfit} {clipboard : String}
    (h : d.Enhanced d' os clipboard) (hw : d.WellFormed)
    (hpre : ∀ o ∈ os, d.tag? o.pre = some "pre") (hx : d.contains x) :
    d'.firstBlock? x = d.firstBlock? x := by
  have hcode : ∀ y ∈ d.children x,
      (d'.tag? (wrapperOf os y) = some "code" ↔ d.tag? y = some "code") := by
    intro y hy
    by_cases hp : y ∈ os.map Outfit.pre
    · obtain ⟨o, ho, rfl⟩ := List.mem_map.mp hp
      have hmade : o.wrapper ∈ os.flatMap Outfit.made :=
        List.mem_flatMap.mpr ⟨o, ho, by simp [Outfit.made]⟩
      simp [h.wrapperOf_pre ho, (tag?_made h hmade).1, hpre o ho]
    · rw [wrapperOf_rest hp, h.tag? (h.not_made_of_live (hw.contains_of_child hy))]
  have hfind : (d.children x).find? ((fun y => decide (d'.tag? y = some "code")) ∘ wrapperOf os) =
      (d.children x).find? (d.tag? · = some "code") := by
    rw [← List.head?_filter, ← List.head?_filter]
    refine congrArg List.head? (List.filter_congr fun y hy => ?_)
    rw [Function.comp_apply, decide_eq_decide]
    exact hcode y hy
  rw [Document.firstBlock?, h.children_rest x (h.not_made_of_live hx), List.find?_map, hfind,
    Document.firstBlock?]
  cases hf : (d.children x).find? (d.tag? · = some "code") with
  | none => rfl
  | some c =>
    have htag : d.tag? c = some "code" := by simpa using List.find?_some hf
    have hc : c ∉ os.map Outfit.pre := by
      intro hc
      obtain ⟨o, ho, rfl⟩ := List.mem_map.mp hc
      simp [hpre o ho] at htag
    rw [Option.map_some, wrapperOf_rest hc]

end CopyControl.Document
