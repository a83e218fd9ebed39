import CopyControl.Proofs.Document.Swap
import CopyControl.Proofs.Enhance.Pass

/-!
What a control shows, and who can change it.

A control shows a label if its only child is the text of that label. Setting a label on one node
changes it there and nowhere else (`Shows.setLabel`, `Shows.setLabel_of_ne`); a pass changes it
nowhere, and what it makes shows the first label (`overlays_enhance`).
-/

namespace CopyControl.Document

open Relation Edit Enhance

variable {d d' d'' : Document} {b x : NodeId} {s l : ControlLabel}

/-- The label is the only child of the node. -/
def Shows (d : Document) (b : NodeId) (l : ControlLabel) : Prop :=
  ∃ t, d.children b = [t] ∧ d.kind? t = some (.text l.text)

theorem ofText?_text (l : ControlLabel) : ControlLabel.ofText? l.text = some l := by
  cases l <;> decide

/-- The text of an element with a text as its only child. -/
theorem textContent_of_sole (hw : d.WellFormed) {t : NodeId} {text : String}
    (hc : d.children b = [t]) (ht : d.kind? t = some (.text text)) :
    d.textContent b = text := by
  have hmem : t ∈ d.children b := by simp [hc]
  have hlive := hw.contains_of_child hmem
  obtain ⟨e, he⟩ := Option.isSome_iff_exists.mp (hw.element_of_child t b hmem)
  rw [element?_eq_some_iff] at he
  obtain ⟨nb, hnb, hkb⟩ := Option.map_eq_some_iff.mp he
  obtain ⟨nt, hnt, hkt⟩ := Option.map_eq_some_iff.mp ht
  have hcb : nb.children = [t] := by simpa [children, hnb] using hc
  -- two live nodes have two slots, so the walk gets to the text
  have hne : b.index ≠ t.index := by
    intro h
    rw [eq_of_index_eq (contains_of_element? (element?_eq_some_iff.mpr he)) hlive h, ht] at he
    simp at he
  have hbi := index_lt_of_contains (contains_of_element? (element?_eq_some_iff.mpr he))
  have hti := index_lt_of_contains hlive
  obtain ⟨n, hn⟩ : ∃ n, d.slots.size = n + 2 := ⟨d.slots.size - 2, by omega⟩
  have htree : d.treeWithin (n + 1) t =
      some (.node t nt.kind (nt.children.filterMap (d.treeWithin n))) := by
    simp [treeWithin, hnt]
  rw [textContent, tree?, hn, treeWithin, hnb]
  simp [hcb, htree, hkb, hkt, Tree.textContent, Tree.textContents]

theorem Shows.controlLabel? (hw : d.WellFormed) (h : d.Shows b l) :
    d.controlLabel? b = some l := by
  obtain ⟨t, hc, ht⟩ := h
  rw [Document.controlLabel?, textContent_of_sole hw hc ht, ofText?_text]

theorem Shows.contains (h : d.Shows b l) : d.contains b := by
  obtain ⟨t, hc, -⟩ := h
  by_contra hb
  rw [Bool.not_eq_true] at hb
  simp [children_eq_nil_of_dead hb] at hc

/-- The children of a node are the same ones, and of the same kinds. -/
def SameInside (d d' : Document) (b : NodeId) : Prop :=
  d'.children b = d.children b ∧ ∀ c ∈ d.children b, d'.kind? c = d.kind? c

theorem Shows.congr (h : d.Shows b l) (hs : d.SameInside d' b) : d'.Shows b l := by
  obtain ⟨t, hc, ht⟩ := h
  exact ⟨t, hs.1.trans hc, (hs.2 t (by simp [hc])).trans ht⟩

theorem SameInside.trans (h : d.SameInside d' b) (h' : d'.SameInside d'' b) :
    d.SameInside d'' b :=
  ⟨h'.1.trans h.1, fun c hc => (h'.2 c (by rwa [h.1])).trans (h.2 c hc)⟩

/-! ## Setting a label -/

theorem Shows.soleText? (h : d.Shows x s) : ∃ t, d.soleText? x = some t ∧ d.children x = [t] := by
  obtain ⟨t, hc, ht⟩ := h
  exact ⟨t, by simp [Document.soleText?, hc, ht], hc⟩

theorem children_eq_of_soleText? {t : NodeId} (h : d.soleText? x = some t) :
    d.children x = [t] := by
  unfold Document.soleText? at h
  split at h
  · rename_i only hc
    split at h
    · rw [hc, Option.some.inj h]
    · simp at h
  · simp at h

/-- The text of a text node is set. -/
theorem setNodeText_spec (d : Document) (t : NodeId) (text : String) :
    (d.updateNode t fun n => { n with kind := .text text }).children = d.children ∧
      ∀ y, (d.updateNode t fun n => { n with kind := .text text }).kind? y =
        if y = t then (d.kind? y).map fun _ => .text text else d.kind? y :=
  ⟨children_updateNode_of_keeps d t fun _ => rfl,
    kind?_updateNode d t (g := fun _ => .text text) fun _ => rfl⟩

/-- On a node whose only child is a text the label is put in its place, -/
theorem shows_setLabel_of_sole {t : NodeId} (hsole : d.soleText? x = some t) (l : ControlLabel) :
    ((setLabel x l).apply d).2.Shows x l := by
  have hc := children_eq_of_soleText? hsole
  obtain ⟨old, hk⟩ := kind?_of_soleText? hsole
  obtain ⟨hchildren, hkind⟩ := setNodeText_spec d t l.text
  rw [Document.setLabel, setText_of_sole l.text hsole]
  refine ⟨t, (congrFun hchildren x).trans hc, (hkind t).trans ?_⟩
  rw [if_pos rfl, hk]
  rfl

/-- and on any other element in the place of all that is there. -/
theorem shows_setLabel (hw : d.WellFormed) (hx : d.IsElement x) (l : ControlLabel) :
    ((setLabel x l).apply d).2.Shows x l := by
  cases hsole : d.soleText? x with
  | some t => exact shows_setLabel_of_sole hsole l
  | none =>
    have hw₁ : (d.newText l.text).2.WellFormed := wellFormed_createNode hw (by simp)
    have hx₁ := isElement_newText hw l.text hx
    have hcs := mayHold_newText hw l.text hx
    have hnode := fun {y} => node?_swapChildren (y := y) hw₁ hx₁ hcs .refl
    rw [Document.setLabel, setText_of_not_sole l.text hsole, setTextContent_ok hw l.text hx]
    refine ⟨(d.newText l.text).1, ?_, ?_⟩
    · rw [children_swapChildren hw₁ hx₁ hcs, (List.nodup_singleton _).dedup]
    · rw [kind?, hnode (.single ?_), ← kind?, kind?_regrouped, newText,
        kind?_createNode hw.free, if_pos rfl]
      rw [Link, parent?_regrouped fun c hc => (hcs c hc).1, if_pos (List.mem_singleton.mpr rfl)]

theorem Shows.setLabel (h : d.Shows x s) (l : ControlLabel) :
    ((setLabel x l).apply d).2.Shows x l := by
  obtain ⟨t, hsole, -⟩ := h.soleText?
  exact shows_setLabel_of_sole hsole l

/-- A child that is freed takes what is inside a live node with it only if the node goes too. -/
theorem SameInside.swapChildren (hw : d.WellFormed) {cs : List NodeId} (hx : d.IsElement x)
    (hcs : ∀ c ∈ cs, d.MayHold x c) (hb : ∀ c ∈ d.children b, c ∉ cs) (hne : b ≠ x)
    (hlive : (d.swapChildren x cs).contains b) : d.SameInside (d.swapChildren x cs) b := by
  obtain ⟨hw', hfree⟩ := swapChildren_spec hw hx hcs
  have hch : (d.swapChildren x cs).children b = d.children b := by
    rw [children, hfree.node? hlive, ← children, (regrouped_spec hw hx hcs).2 b hne]
    exact List.filter_eq_self.mpr fun c hc => by simpa using hb c hc
  refine ⟨hch, fun c hc => ?_⟩
  have hcl : (d.swapChildren x cs).contains c := hw'.contains_of_child (p := b) (hch ▸ hc)
  rw [kind?, hfree.node? hcl, ← kind?, kind?_regrouped]

/-- Other nodes that are still there show what they showed. -/
theorem Shows.setLabel_of_ne (hw : d.WellFormed) (h : d.Shows b s) (hne : b ≠ x)
    (l : ControlLabel) (hlive : ((Document.setLabel x l).apply d).2.contains b) :
    ((Document.setLabel x l).apply d).2.Shows b s := by
  refine h.congr ?_
  rw [Document.setLabel] at hlive ⊢
  cases hsole : d.soleText? x with
  | some t =>
    have hc := children_eq_of_soleText? hsole
    obtain ⟨hchildren, hkind⟩ := setNodeText_spec d t l.text
    rw [setText_of_sole l.text hsole]
    refine ⟨congrFun hchildren b, fun c hcb => (hkind c).trans (if_neg ?_)⟩
    rintro rfl
    -- a node has one parent
    have hx := (hw.parent_iff c x).mpr (by simp [hc])
    have hb := (hw.parent_iff c b).mpr hcb
    exact hne (Option.some.inj (hb.symm.trans hx))
  | none =>
    rw [setText_of_not_sole l.text hsole] at hlive ⊢
    by_cases hx : d.IsElement x
    · rw [setTextContent_ok hw l.text hx] at hlive ⊢
      have hf := contains_createNode_fst hw.free (.text l.text)
      have hw₁ : (d.newText l.text).2.WellFormed := wellFormed_createNode hw (by simp)
      have hch : (d.newText l.text).2.children = d.children := children_createNode hw.free _
      have hkeep : ∀ c ∈ d.children b, c ≠ (d.newText l.text).1 := fun c hc =>
        ne_of_live_of_dead (hw.contains_of_child hc) hf
      have hin : (d.newText l.text).2.SameInside
          ((d.newText l.text).2.swapChildren x [(d.newText l.text).1]) b := by
        refine SameInside.swapChildren hw₁ (isElement_newText hw l.text hx)
          (mayHold_newText hw l.text hx) (fun c hc => ?_) hne hlive
        rw [hch] at hc
        simpa using hkeep c hc
      refine SameInside.trans ⟨congrFun hch b, fun c hc => ?_⟩ hin
      rw [newText, kind?_createNode hw.free]
      exact if_neg (hkeep c hc)
    · obtain ⟨e, he⟩ := setTextContent_fails l.text hx
      rw [he]
      exact ⟨rfl, fun _ _ => rfl⟩

/-! ## Passes -/

/-- What shows a label goes on showing it, and who has a new listener shows the first one. -/
structure Overlays (d d' : Document) : Prop where
  wellFormed : d'.WellFormed
  live : ∀ y, d.contains y → d'.contains y
  shows : ∀ b l, d.Shows b l → d'.Shows b l
  listeners : ∀ p ∈ d'.listeners,
    p ∈ d.listeners ∨ (d.contains p.1 = false ∧ d'.Shows p.1 .copy)

theorem Overlays.trans (h : d.Overlays d') (h' : d'.Overlays d'') : d.Overlays d'' where
  wellFormed := h'.wellFormed
  live y hy := h'.live y (h.live y hy)
  shows b l hb := h'.shows b l (h.shows b l hb)
  listeners p hp := by
    rcases h'.listeners p hp with hp | ⟨hdead, hs⟩
    · exact (h.listeners p hp).imp id fun ⟨hdead, hs⟩ => ⟨hdead, h'.shows _ _ hs⟩
    · refine .inr ⟨?_, hs⟩
      by_contra hlive
      rw [Bool.not_eq_false] at hlive
      simp [h.live _ hlive] at hdead

theorem overlays_of_sameArena (hw : d.WellFormed) (h : d.SameArena d') : d.Overlays d' := by
  obtain ⟨hc, hk, -, hch⟩ := lookups_congr h.slots
  refine ⟨h.wellFormed hw, fun y hy => by rwa [hc], fun b l hs => ?_, fun p hp => .inl ?_⟩
  · exact hs.congr ⟨by rw [hch], fun c _ => by rw [hk]⟩
  · rwa [← h.listeners]

theorem Overlays.refl (hw : d.WellFormed) : d.Overlays d :=
  overlays_of_sameArena hw ⟨rfl, rfl, rfl, rfl⟩

theorem Enhanced.shows {clipboard : String} {os : List Outfit} (h : d.Enhanced d' os clipboard)
    (hs : d.Shows b l) : d'.Shows b l := by
  have hb := h.not_made_of_live hs.contains
  obtain ⟨t, hc, ht⟩ := hs
  have htl : t ∉ os.flatMap Outfit.made := h.not_made_of_live (contains_of_kind? ht)
  have htp : t ∉ os.map Outfit.pre := by
    intro hm
    obtain ⟨o, ho, rfl⟩ := List.mem_map.mp hm
    obtain ⟨e, he, -⟩ := h.element?_pre o ho
    rw [element?_eq_some_iff, ht] at he
    simp at he
  refine ⟨t, ?_, (h.kind?_rest t htl htp).trans ht⟩
  rw [h.children_rest b hb, hc, List.map_singleton, wrapperOf_rest htp]

theorem Enhanced.shows_button {clipboard : String} {os : List Outfit}
    (h : d.Enhanced d' os clipboard) {o : Outfit} (ho : o ∈ os) : d'.Shows o.button .copy := by
  have hn : o.made.Nodup := (List.nodup_flatMap.mp h.made_nodup).1 o ho
  obtain ⟨hwa, hwb, hwl, hab, hal, hbl⟩ := Outfit.distinct hn
  refine ⟨o.label, ?_, ?_⟩
  · rw [h.children_made o ho o.button (by simp [Outfit.made]), Outfit.madeChildren,
      if_neg hwb.symm, if_neg hab.symm, if_pos rfl]
  · rw [h.kind?_made o ho o.label (by simp [Outfit.made]), Outfit.madeKind, if_neg hwl.symm,
      if_neg hal.symm, if_neg hbl.symm]

theorem overlays_enhance (hw : d.WellFormed) (clipboard : String) :
    d.Overlays (d.enhance clipboard).document := by
  obtain ⟨os, hp⟩ := enhance_progress hw clipboard
  have h := hp.enhanced
  refine ⟨h.wellFormed, fun y hy => h.contains_iff.mpr (.inr hy), fun b l => h.shows,
    fun p hmem => ?_⟩
  rw [h.listeners, List.mem_append] at hmem
  refine hmem.imp id fun hmem => ?_
  obtain ⟨o, ho, rfl⟩ := List.mem_map.mp hmem
  exact ⟨h.made_fresh o ho o.button (by simp [Outfit.made]), h.shows_button ho⟩

end CopyControl.Document
