import CopyControl.Proofs.Document.Rooted
import CopyControl.Proofs.Enhance.Result

/-!
Controls, marks and listeners, counted against each other.

In a document that only passes give controls to, each control has one listener and nothing else has
any, and there are as many marks as listeners (`Tally`). A pass keeps the tally: for each `pre` that
it marks it makes one control and one listener (`Tally.enhance`). In a rooted document all of them
are found from the root, so the listeners that are counted are the controls that are listed, and as
many as the marks that are listed (`Tally.listenerCount_eq`).

* §1 tags and classes
* §2 the tally
* §3 a pass
-/

namespace CopyControl

open Enhance

/-! ## §1 Tags and classes -/

namespace Element

/-- Whether the element has the tag and the class. -/
def wears (tag c : String) (e : Element) : Bool :=
  e.tag = tag && e.hasClass c

def isControl (e : Element) : Bool := e.wears "button" buttonClass

/-- Whether the element is a `pre` with the mark of one that has a control. -/
def isMarked (e : Element) : Bool := e.wears "pre" enhancedClass

end Element

namespace Document

variable {d d' : Document} {x : NodeId} {clipboard : String}

def isControl (d : Document) (x : NodeId) : Bool :=
  (d.element? x).any Element.isControl

def isMarked (d : Document) (x : NodeId) : Bool :=
  (d.element? x).any Element.isMarked

/-- The connected `pre` elements with the mark, in document order. -/
def markedPres (d : Document) : List NodeId :=
  (d.elementsByTag "pre").filter (d.hasClass · enhancedClass)

theorem filter_elementsByTag (d : Document) (tag c : String) :
    (d.elementsByTag tag).filter (d.hasClass · c) =
      (d.descendants d.root).filter fun x => (d.element? x).any (·.wears tag c) := by
  rw [elementsByTag, List.filter_filter]
  refine List.filter_congr fun x _ => ?_
  rw [hasClass, tag?]
  cases d.element? x <;> simp [Element.wears, Bool.and_comm]

theorem controls_eq (d : Document) : d.controls = (d.descendants d.root).filter d.isControl :=
  filter_elementsByTag d "button" buttonClass

theorem markedPres_eq (d : Document) :
    d.markedPres = (d.descendants d.root).filter d.isMarked :=
  filter_elementsByTag d "pre" enhancedClass

theorem contains_of_isControl (h : d.isControl x) : d.contains x := by
  obtain ⟨e, he, -⟩ := (Option.any_eq_true ..).mp h
  exact contains_of_element? he

theorem contains_of_isMarked (h : d.isMarked x) : d.contains x := by
  obtain ⟨e, he, -⟩ := (Option.any_eq_true ..).mp h
  exact contains_of_element? he

theorem isMarked_iff : d.isMarked x ↔ d.tag? x = some "pre" ∧ d.hasClass x enhancedClass := by
  rw [isMarked, tag?, hasClass]
  cases d.element? x <;> simp [Element.isMarked, Element.wears]

/-! ## §2 The tally -/

/-- Each control has one listener and nothing else has any, and there are as many marks as
listeners. -/
structure Tally (d : Document) : Prop where
  nodup : (d.listeners.map Prod.fst).Nodup
  controls : ∀ x, x ∈ d.listeners.map Prod.fst ↔ d.isControl x
  marked : ∃ ps : List NodeId, ps.Nodup ∧ (∀ x, x ∈ ps ↔ d.isMarked x) ∧
    ps.length = d.listeners.length

theorem tally_of_plain (hl : d.listeners = []) (hc : ∀ x, d.isControl x = false)
    (hm : ∀ x, d.isMarked x = false) : d.Tally where
  nodup := by simp [hl]
  controls := by simp [hl, hc]
  marked := ⟨[], by simp [hl, hm]⟩

theorem Tally.congr (h : d.Tally) (hel : d'.element? = d.element?)
    (hl : d'.listeners = d.listeners) : d'.Tally where
  nodup := hl ▸ h.nodup
  controls x := by rw [hl, h.controls, isControl, isControl, hel]
  marked := by
    obtain ⟨ps, hn, hps, hlen⟩ := h.marked
    exact ⟨ps, hn, fun x => by rw [hps, isMarked, isMarked, hel], hl ▸ hlen⟩

/-- A list of all live nodes with a property is as long as the list of those that are found from the
root. -/
theorem Rooted.length_eq_filter (hr : d.Rooted) (hw : d.WellFormed) {l : List NodeId}
    {P : NodeId → Bool} (hn : l.Nodup) (hl : ∀ x, x ∈ l ↔ P x) (hlive : ∀ x, P x → d.contains x) :
    l.length = ((d.descendants d.root).filter P).length := by
  refine ((List.perm_ext_iff_of_nodup hn ((hw.nodup_descendants d.root).filter P)).mpr
    fun x => ?_).length_eq
  rw [hl, List.mem_filter, hr.mem_descendants_iff hw]
  exact ⟨fun hx => ⟨hlive x hx, hx⟩, And.right⟩

/-- There is a listener for each control that is listed, and a listed mark for each listener. -/
theorem Tally.listenerCount_eq (h : d.Tally) (hr : d.Rooted) (hw : d.WellFormed) :
    d.listenerCount = d.controls.length ∧ d.listenerCount = d.markedPres.length := by
  constructor
  · rw [controls_eq, ← hr.length_eq_filter hw h.nodup h.controls fun _ => contains_of_isControl,
      List.length_map, listenerCount]
  · obtain ⟨ps, hn, hps, hlen⟩ := h.marked
    rw [markedPres_eq, ← hr.length_eq_filter hw hn hps fun _ => contains_of_isMarked, hlen,
      listenerCount]

/-! ## §3 A pass -/

namespace Enhanced

variable {os : List Outfit} (he : d.Enhanced d' os clipboard)
include he

/-- Of what has been made, only the buttons are controls. -/
theorem isControl_made {o : Outfit} (ho : o ∈ os) {y : NodeId} (hy : y ∈ o.made) :
    d'.isControl y ↔ y = o.button := by
  have hn : o.made.Nodup := (List.nodup_flatMap.mp he.made_nodup).1 o ho
  obtain ⟨-, hwb, -, hab, -, -⟩ := Outfit.distinct hn
  rw [isControl, element?, he.kind?_made o ho y hy, Outfit.madeKind]
  split
  · next hyw => simp [NodeKind.element?, boxElement, Element.isControl, Element.wears, hyw, hwb]
  split
  · next hya => simp [NodeKind.element?, boxElement, Element.isControl, Element.wears, hya, hab]
  split
  · next hyb =>
    simp [NodeKind.element?, controlElement, Element.isControl, Element.wears, Element.hasClass,
      hyb]
  · next hyb => simp [NodeKind.element?, hyb]

theorem isMarked_made {y : NodeId} (hy : y ∈ os.flatMap Outfit.made) : d'.isMarked y = false := by
  rw [Bool.eq_false_iff, ne_eq, isMarked_iff]
  exact fun hm => (tag?_made he hy).2 hm.1

theorem element?_rest {y : NodeId} (hy : y ∉ os.flatMap Outfit.made)
    (hp : y ∉ os.map Outfit.pre) : d'.element? y = d.element? y := by
  rw [element?, he.kind?_rest y hy hp, element?]

theorem button_dead {y : NodeId} (hy : y ∈ os.map Outfit.button) : d.contains y = false := by
  obtain ⟨o, ho, rfl⟩ := List.mem_map.mp hy
  exact he.made_fresh o ho _ (by simp [Outfit.made])

theorem rooted (hr : d.Rooted) (hroot : d'.root = d.root) : d'.Rooted := by
  intro x hx hnone
  by_cases hm : x ∈ os.flatMap Outfit.made
  · obtain ⟨o, ho, hxo⟩ := List.mem_flatMap.mp hm
    obtain ⟨container, -, hp⟩ := he.parent?_made o ho
    simp [hp x hxo] at hnone
  by_cases hp : x ∈ os.map Outfit.pre
  · obtain ⟨o, ho, rfl⟩ := List.mem_map.mp hp
    simp [he.parent?_pre o ho] at hnone
  rw [hroot]
  rw [he.parent?_rest x hm hp] at hnone
  exact hr x ((he.contains_iff.mp hx).resolve_left hm) hnone

/-- The new controls are the new buttons. -/
theorem isControl_iff (hpre : ∀ o ∈ os, d.tag? o.pre = some "pre") :
    d'.isControl x ↔ d.isControl x ∨ x ∈ os.map Outfit.button := by
  by_cases hm : x ∈ os.flatMap Outfit.made
  · obtain ⟨o, ho, hxo⟩ := List.mem_flatMap.mp hm
    have hdead := he.made_fresh o ho x hxo
    rw [he.isControl_made ho hxo]
    constructor
    · rintro rfl
      exact .inr (List.mem_map_of_mem ho)
    · rintro (hc | hb)
      · simp [contains_of_isControl hc] at hdead
      · obtain ⟨o', ho', rfl⟩ := List.mem_map.mp hb
        have hself : o'.button ∈ o'.made := by simp [Outfit.made]
        rw [← he.isControl_made ho hxo, he.isControl_made ho' hself]
  have hbutton : x ∉ os.map Outfit.button := fun hb => hm <| (buttons_sublist os).subset hb
  rw [or_iff_left hbutton]
  by_cases hp : x ∈ os.map Outfit.pre
  · obtain ⟨o, ho, rfl⟩ := List.mem_map.mp hp
    obtain ⟨e, hel, hel'⟩ := he.element?_pre o ho
    have htag : e.tag = "pre" := by simpa [Document.tag?, hel] using hpre o ho
    simp [isControl, hel, hel', Element.isControl, Element.wears, marked, htag]
  · rw [isControl, he.element?_rest hm hp, isControl]

/-- The new marks are on what has been wrapped. -/
theorem isMarked_iff (hpre : ∀ o ∈ os, d.tag? o.pre = some "pre") :
    d'.isMarked x ↔ d.isMarked x ∨ x ∈ os.map Outfit.pre := by
  by_cases hm : x ∈ os.flatMap Outfit.made
  · obtain ⟨o, ho, hxo⟩ := List.mem_flatMap.mp hm
    have hdead := he.made_fresh o ho x hxo
    rw [he.isMarked_made hm, Bool.false_eq_true, false_iff]
    rintro (hmk | hp)
    · simp [contains_of_isMarked hmk] at hdead
    · obtain ⟨o', ho', rfl⟩ := List.mem_map.mp hp
      simp [he.contains_pre ho'] at hdead
  by_cases hp : x ∈ os.map Outfit.pre
  · rw [or_iff_right_of_imp fun _ => hp, Document.isMarked_iff]
    obtain ⟨o, ho, rfl⟩ := List.mem_map.mp hp
    simp [he.tag? hm, hpre o ho, (he.hasClass_pre ho).1, List.mem_map_of_mem ho]
  · rw [or_iff_left hp, isMarked, he.element?_rest hm hp, isMarked]

end Enhanced

/-- A pass makes one control and one listener for each mark that it sets. -/
theorem Tally.enhance (h : d.Tally) (hw : d.WellFormed) (clipboard : String) :
    (d.enhance clipboard).document.Tally := by
  obtain ⟨os, hp⟩ := enhance_progress hw clipboard
  have he := hp.enhanced
  have hpre : ∀ o ∈ os, d.tag? o.pre = some "pre" := fun o ho => (hp.bare o ho).1
  have hfst : (d.enhance clipboard).document.listeners.map Prod.fst =
      d.listeners.map Prod.fst ++ os.map Outfit.button := by
    rw [he.listeners, List.map_append, List.map_map]
    rfl
  obtain ⟨ps, hn, hps, hlen⟩ := h.marked
  constructor
  case nodup =>
    rw [hfst]
    refine List.nodup_append.mpr
      ⟨h.nodup, (buttons_sublist os).nodup he.made_nodup, fun x hx y hy hxy => ?_⟩
    have hlive := contains_of_isControl ((h.controls x).mp hx)
    simp [hxy, he.button_dead hy] at hlive
  case controls =>
    intro x
    rw [hfst, List.mem_append, h.controls, he.isControl_iff hpre]
  case marked =>
    refine ⟨ps ++ os.map Outfit.pre, ?_, fun x => ?_, ?_⟩
    · refine List.nodup_append.mpr ⟨hn, he.pres_nodup, fun x hx y hy hxy => ?_⟩
      obtain ⟨o, ho, rfl⟩ := List.mem_map.mp hy
      have hmark := (Document.isMarked_iff.mp ((hps x).mp hx)).2
      simp [hxy, (hp.bare o ho).2.1] at hmark
    · rw [List.mem_append, hps, he.isMarked_iff hpre]
    · simp [he.listeners, hlen]

theorem Rooted.enhance (h : d.Rooted) (hw : d.WellFormed) (clipboard : String) :
    (d.enhance clipboard).document.Rooted := by
  obtain ⟨os, hp⟩ := enhance_progress hw clipboard
  exact hp.enhanced.rooted h (congrArg Prod.fst (changes_enhance hw clipboard).landmarks_eq)

end Document

end CopyControl
