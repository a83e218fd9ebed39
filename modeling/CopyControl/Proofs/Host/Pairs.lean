import CopyControl.Proofs.Enhance.Tally
import CopyControl.Proofs.Host.Bounded
import CopyControl.Proofs.Markdown.Blocks

/-!
Blocks and controls, side by side in document order.

Two walks list the two: one takes the `code` elements that are directly in a `pre`, the other the
buttons of controls. After the first pass over a page on which a `pre` holds its block and nothing
else (`Pristine`), the two lists go together: the control that is found for a block has the place
among the controls that the block has among the blocks (`Pristine.pairsUp`). For where there was a
`pre`, there is now a wrapper, with one block and after it one control in it; all else has neither.
The induction is on the tree as it was before the pass.

* §1 what blocks say after a pass
* §2 pristine pages
* §3 a block and its control
* §4 a page
-/

namespace CopyControl

open Relation Enhance Document

/-! ## §1 What blocks say after a pass -/

namespace Tree

theorem enhancedAll_eq (ts : List Tree) :
    enhancedAll ts = ts.map fun t => if t.isBare then t.enhanced.wrapped else t.enhanced := by
  induction ts with
  | nil => rfl
  | cons t ts ih => rw [enhancedAll, ih, List.map_cons]

theorem isBare_of_not_pre {n : NodeId} {k : NodeKind} (hk : k.hasTag "pre" = false)
    (ts : List Tree) : (Tree.node n k ts).isBare = false := by
  rw [isBare]
  cases k with
  | element e =>
    have he : e.tag ≠ "pre" := by simpa [hasTag_element] using hk
    simp [NodeKind.element?, he]
  | text _ | raw _ => rfl

/-- There is nothing for a pass in a block. -/
theorem enhanced_ofTexts {e : Element} (he : e.tag ≠ "pre") (texts : List String) :
    (ofTexts e texts).isBare = false ∧ (ofTexts e texts).enhanced = ofTexts e texts := by
  have hbare : (ofTexts e texts).isBare = false :=
    isBare_of_not_pre (by simpa [hasTag_element] using he) _
  have hall : enhancedAll (texts.map ofText) = texts.map ofText := by
    rw [enhancedAll_eq, List.map_map]
    rfl
  refine ⟨hbare, ?_⟩
  rw [ofTexts] at hbare ⊢
  rw [enhanced, hbare, hall]
  rfl

/-- A wrapper is around the blocks that it was made for, and no others. -/
theorem blockTexts_wrapped (t : Tree) : blockTexts [t.wrapped] = blockTexts [t] := by
  rw [wrapped, blockTexts_node (by decide)]
  have hactions : ∀ u : Tree, blockTexts [t, u] = blockTexts [t] ++ blockTexts [u] := fun u =>
    blockTexts_append [t] [u]
  rw [hactions, blockTexts_node (by decide), blockTexts_node (by decide),
    blockTexts_node (by decide)]
  simp [blockTexts]

theorem blockTexts_flatMap {α : Type} (f : α → Tree) (xs : List α) :
    blockTexts (xs.map f) = xs.flatMap fun x => blockTexts [f x] := by
  induction xs with
  | nil => rfl
  | cons x xs ih =>
    rw [List.map_cons, ← List.singleton_append, blockTexts_append, ih, List.flatMap_cons]

/-- What holds of each child holds of the children. -/
theorem blockTexts_enhancedAll {ts : List Tree}
    (h : ∀ t ∈ ts, blockTexts [t.enhanced] = blockTexts [t]) :
    blockTexts (enhancedAll ts) = blockTexts ts := by
  have hone : ∀ t ∈ ts, blockTexts [if t.isBare then t.enhanced.wrapped else t.enhanced] =
      blockTexts [t] := fun t ht => by
    split
    · rw [blockTexts_wrapped, h t ht]
    · exact h t ht
  rw [enhancedAll_eq, blockTexts_flatMap, List.flatMap_congr hone]
  simpa using (blockTexts_flatMap id ts).symm

theorem hasTag_onElement_marked {k : NodeKind} {tag : String} (hk : k.hasTag tag) :
    (k.onElement marked).hasTag tag := by
  cases k with
  | element e => simpa [NodeKind.onElement, hasTag_element, marked] using hk
  | text _ | raw _ => exact hk

/-- A pass changes nothing of what the blocks in an orderly tree say. -/
theorem Orderly.blockTexts_enhanced {t : Tree} (h : t.Orderly) :
    blockTexts [t.enhanced] = blockTexts [t] := by
  induction h with
  | @node n k ts hpre hts ih =>
    cases hk : k.hasTag "pre" with
    | true =>
      obtain ⟨e, texts, rfl, he⟩ := hpre hk
      have hne : e.tag ≠ "pre" := by simp [he]
      obtain ⟨hbare, hsame⟩ := enhanced_ofTexts hne texts
      have hall : enhancedAll [ofTexts e texts] = [ofTexts e texts] := by
        rw [enhancedAll_eq, List.map_singleton, hbare, hsame]
        rfl
      have hmark : (if (Tree.node n k [ofTexts e texts]).isBare then k.onElement marked
          else k).hasTag "pre" := by
        split
        · exact hasTag_onElement_marked hk
        · exact hk
      rw [enhanced, hall, blockTexts, blockTexts, List.flatMap_singleton, List.flatMap_singleton,
        blocks_pre texts he hk, blocks_pre texts he hmark]
    | false =>
      rw [enhanced, isBare_of_not_pre hk, if_neg (by simp), blockTexts_node hk, blockTexts_node hk,
        blockTexts_enhancedAll ih]

end Tree

namespace Document

variable {d : Document} {x head : NodeId} {clipboard : String} {ts : List Tree}

/-! ## §2 Pristine pages -/

/-- A page as it comes from a source: in one piece, with no class that is not from Markdown, and
with a body drawn from `ts`. -/
structure Pristine (d : Document) (head : NodeId) (ts : List Tree) : Prop where
  page : d.IsPage head
  rooted : d.Rooted
  unadorned : ∀ x e, d.element? x = some e → e.Unadorned
  body : d.shape? d.body = some (.node default (.element (.ofTag "body")) ts)

/-- The node holds a `code`, without elements in it, and nothing else. -/
def HoldsBlock (d : Document) (p : NodeId) : Prop :=
  ∃ c, d.children p = [c] ∧ d.tag? c = some "code" ∧ ∀ y ∈ d.children c, d.element? y = none

/-- What is below an orderly tree is orderly. -/
theorem shape?_of_orderly (hw : d.WellFormed) {y : NodeId} (hy : d.AtOrAbove x y) {t : Tree}
    (ht : d.shape? x = some t) (ho : t.Orderly) : ∃ u, d.shape? y = some u ∧ u.Orderly := by
  induction hy using ReflTransGen.head_induction_on with
  | refl => exact ⟨t, ht, ho⟩
  | @head c p hl _ ih =>
    obtain ⟨u, hu, ho⟩ := ih
    obtain ⟨n, k, us⟩ := u
    obtain ⟨v, hv, hshape⟩ :=
      (of_shape? hw hu).2.shape?_of_mem ((hw.parent_iff c p).mp hl)
    cases ho with
    | node _ hts => exact ⟨v, hshape, hts v hv⟩

/-- The shape of a node says that it holds a block. -/
theorem holdsBlock_of_shape? (hw : d.WellFormed) {n : NodeId} {k : NodeKind} {e : Element}
    {texts : List String} (he : e.tag = "code")
    (hx : d.shape? x = some (.node n k [.ofTexts e texts])) : d.HoldsBlock x := by
  obtain ⟨-, hcs⟩ := of_shape? hw hx
  obtain ⟨c, hc⟩ : ∃ c, d.children x = [c] :=
    List.length_eq_one_iff.mp (by simpa [Depicts] using congrArg List.length hcs)
  rw [hc] at hcs
  obtain ⟨hcode, -⟩ := depicts_cons.mp hcs
  obtain ⟨hk, hys⟩ := of_shape? hw hcode
  refine ⟨c, hc, ?_, fun y hy => ?_⟩
  · rw [tag?, element?, hk, ← he]
    rfl
  · obtain ⟨t, ht, hshape⟩ := hys.shape?_of_mem hy
    obtain ⟨s, -, rfl⟩ := List.mem_map.mp ht
    rw [element?, (of_shape? hw hshape).1]
    rfl

namespace Pristine

variable (h : d.Pristine head ts)
include h

theorem isControl_eq_false (x : NodeId) : d.isControl x = false :=
  any_wears_of_unadorned (h.unadorned x) _ (by decide)

/-- Nothing has a class that does not name a language. -/
theorem hasClass_eq_false {c : String} (hc : c.toList.head? ≠ some 'l') (x : NodeId) :
    d.hasClass x c = false := by
  rw [hasClass]
  cases he : d.element? x with
  | none => rfl
  | some e => exact hasClass_of_unadorned (h.unadorned x e he) hc

/-- Every `pre` holds a block and nothing else. -/
theorem holdsBlock (hts : ∀ t ∈ ts, t.Orderly) {p : NodeId} (hp : d.tag? p = some "pre") :
    d.HoldsBlock p := by
  have hw := h.page.wellFormed
  have hbody : (Tree.node default (.element (.ofTag "body")) ts).Orderly :=
    Tree.orderly_node (by decide +kernel) hts
  rcases h.page.cases_of_rooted h.rooted (contains_of_tag? hp) with rfl | hin | hin
  · simp [h.page.tag?_root] at hp
  · exact absurd hp (h.page.noPre p hin)
  · obtain ⟨u, hu, ho⟩ := shape?_of_orderly hw hin h.body hbody
    obtain ⟨n, k, us⟩ := u
    cases ho with
    | node hpre hus =>
      obtain ⟨e, texts, rfl, he⟩ := hpre ((tag?_eq_iff (of_shape? hw hu).1).mp hp)
      exact holdsBlock_of_shape? hw he hu

/-- A pass finds every `pre`. -/
theorem isBare_iff (hts : ∀ t ∈ ts, t.Orderly) (p : NodeId) :
    d.isBare p ↔ d.tag? p = some "pre" := by
  rw [Document.isBare_iff]
  refine ⟨fun hb => hb.2.1, fun hp => ?_⟩
  obtain ⟨c, hc, hcode, -⟩ := h.holdsBlock hts hp
  exact ⟨h.rooted.isConnected h.page.wellFormed (contains_of_tag? hp), hp,
    h.hasClass_eq_false (by decide) p, c, by simp [hc], hcode⟩

end Pristine

/-! ## §3 A block and its control -/

/-- The control of the block: it is found from there, and a click on it copies the block and does
nothing else. -/
structure HasControl (d : Document) (clipboard : String) (block control : NodeId) : Prop where
  found : d.controlFor? block = some control
  listeners : d.clickListeners control = [.copyBlock block control clipboard]

/-- In a list of nodes, the blocks have the controls for theirs, in the same order. -/
def PairsUp (d : Document) (clipboard : String) (xs : List NodeId) : Prop :=
  List.Forall₂ (d.HasControl clipboard) (xs.filter d.isCodeInPre) (xs.filter d.isControl)

theorem PairsUp.append {xs ys : List NodeId} (h : d.PairsUp clipboard xs)
    (h' : d.PairsUp clipboard ys) : d.PairsUp clipboard (xs ++ ys) := by
  rw [PairsUp, List.filter_append, List.filter_append]
  exact List.rel_append h h'

theorem pairsUp_flatMap {α : Type} {f : α → List NodeId} {xs : List α}
    (h : ∀ x ∈ xs, d.PairsUp clipboard (f x)) : d.PairsUp clipboard (xs.flatMap f) := by
  induction xs with
  | nil => exact .nil
  | cons x xs ih =>
    obtain ⟨hx, hxs⟩ := List.forall_mem_cons.mp h
    exact hx.append (ih hxs)

/-- A node that is neither does not matter. -/
theorem pairsUp_singleton (hb : d.isCodeInPre x = false) (hc : d.isControl x = false) :
    d.PairsUp clipboard [x] := by
  simp [PairsUp, hb, hc]

section pass
variable (h : d.Pristine head ts) (hts : ∀ t ∈ ts, t.Orderly) {os : List Outfit}
  (hp : d.Progress clipboard d.codeBlocks (d.enhance clipboard) os)
include hp

/-- A pass makes no blocks. -/
theorem Progress.isCodeInPre_enhance (hw : d.WellFormed) (x : NodeId) :
    (d.enhance clipboard).document.isCodeInPre x = d.isCodeInPre x := by
  have he := hp.enhanced
  rw [isCodeInPre, isCodeInPre]
  by_cases hcode : d.tag? x = some "code"
  · have hm := he.not_made_of_live (contains_of_tag? hcode)
    have hpre : x ∉ os.map Outfit.pre := fun hx => by
      obtain ⟨o, ho, rfl⟩ := List.mem_map.mp hx
      simp [(hp.bare o ho).1] at hcode
    rw [he.tag? hm, he.parent?_rest x hm hpre]
    cases hl : d.parent? x with
    | none => rfl
    | some p =>
      rw [Option.bind_some, Option.bind_some,
        he.tag? (he.not_made_of_live (hw.contains_of_link hl))]
  · have hcode' : (d.enhance clipboard).document.tag? x ≠ some "code" := fun htag => by
      by_cases hm : x ∈ os.flatMap Outfit.made
      · exact (tag?_made he hm).1 htag
      · exact hcode (he.tag? hm ▸ htag)
    simp [hcode, hcode']

/-- What a control copies is a block, in the `pre` that the control was made for. -/
theorem Progress.block (hw : d.WellFormed) (hr : d.RootApart) {o : Outfit} (ho : o ∈ os) :
    d.Block o.code o.pre := by
  have hfirst := hp.find?_code hw hr ho
  exact ⟨by simpa using List.find?_some hfirst,
    (hw.parent_iff _ _).mpr (List.mem_of_find?_eq_some hfirst), (hp.bare o ho).1⟩

include h

/-- After a pass over a pristine page, the controls are the buttons that it made. -/
theorem Pristine.isControl_enhance (x : NodeId) :
    (d.enhance clipboard).document.isControl x ↔ x ∈ os.map Outfit.button := by
  rw [hp.enhanced.isControl_iff fun o ho => (hp.bare o ho).1, h.isControl_eq_false]
  simp

/-- What was there before the pass is no control. -/
theorem Pristine.isControl_of_live (hx : d.contains x) :
    (d.enhance clipboard).document.isControl x = false := by
  rw [Bool.eq_false_iff, ne_eq, h.isControl_enhance hp]
  intro hm
  simp [hp.enhanced.button_dead hm] at hx

/-- In its wrapper, the control is found from the block. -/
theorem Pristine.hasControl {o : Outfit} (ho : o ∈ os) :
    (d.enhance clipboard).document.HasControl clipboard o.code o.button := by
  have hw := h.page.wellFormed
  have he := hp.enhanced
  have hs := hp.stands hw h.page.rootApart ho
  obtain ⟨hwrapper, -, hinner⟩ := hs.wrapper
  obtain ⟨hactions, hbuttons⟩ := hs.actions
  obtain ⟨hbutton, -, -, hlisteners⟩ := hs.button
  have hblock := hp.block hw h.page.rootApart ho
  have hclass {x : NodeId} {e : Element} (c : String)
      (hx : (d.enhance clipboard).document.kind? x = some (.element e)) :
      (d.enhance clipboard).document.hasClass x c = e.hasClass c :=
    hasClass_of_element? (element?_eq_some_iff.mpr hx) c
  have hpre : (d.enhance clipboard).document.hasClass o.pre actionsClass = false := by
    obtain ⟨e, hel, hel'⟩ := he.element?_pre o ho
    have hnone := hasClass_of_unadorned (h.unadorned o.pre e hel) (c := actionsClass) (by decide)
    rw [hasClass_of_element? hel', Bool.eq_false_iff, ne_eq, marked, Element.hasClass_addClass,
      Element.hasClass_addClass, hnone]
    decide
  have hregion : (d.enhance clipboard).document.hasClass o.actions actionsClass := by
    rw [hclass _ hactions]
    decide
  have hfirst : (d.enhance clipboard).document.hasClass o.button buttonClass := by
    rw [hclass _ hbutton]
    decide
  refine ⟨?_, hlisteners⟩
  rw [controlFor?, hp.link hblock, Option.bind_eq_bind, Option.bind_some, he.parent?_pre o ho,
    Option.bind_some, hclass _ hwrapper, if_pos (by decide), hinner]
  simp [hpre, hregion, hfirst, hbuttons]

include hts

/-- What is in a wrapper, in document order. Apart from the block there are only texts in the
`pre`. -/
theorem Pristine.descendants_wrapper {o : Outfit} (ho : o ∈ os) :
    ∃ texts, (∀ y ∈ texts, (d.enhance clipboard).document.element? y = none) ∧
      (d.enhance clipboard).document.descendants o.wrapper =
        [o.wrapper, o.pre, o.code] ++ texts ++ [o.actions, o.button, o.label] := by
  have he := hp.enhanced
  have hs := hp.stands h.page.wellFormed h.page.rootApart ho
  obtain ⟨c, hc, hcode, hplain⟩ := h.holdsBlock hts (hp.bare o ho).1
  obtain rfl : c = o.code := by simpa [hc, hcode] using hs.code
  generalize (d.enhance clipboard).document = d' at he hs ⊢
  have hw' := he.wellFormed
  obtain ⟨hwrapper, -, hinner⟩ := hs.wrapper
  obtain ⟨hactions, hbuttons⟩ := hs.actions
  obtain ⟨hbutton, hlabels, hlabel, -⟩ := hs.button
  have hrest {y : NodeId} (hy : d.tag? y ≠ some "pre") : y ∉ os.map Outfit.pre := fun hm => by
    obtain ⟨o', ho', rfl⟩ := List.mem_map.mp hm
    exact hy (hp.bare o' ho').1
  -- neither the block nor a text is moved
  have hpre : d'.children o.pre = [o.code] := by
    rw [he.children_rest _ (he.not_made_of_live (he.contains_pre ho)), hc, List.map_singleton,
      wrapperOf_rest (hrest (by simp [hcode]))]
  have htexts : d'.children o.code = d.children o.code := by
    rw [he.children_rest _ (he.not_made_of_live (contains_of_tag? hcode))]
    refine (List.map_congr_left fun y hy => wrapperOf_rest (hrest ?_)).trans (List.map_id' _)
    simp [tag?, hplain y hy]
  have leaf {y : NodeId} (hy : d'.contains y) (hel : d'.element? y = none) :
      d'.descendants y = [y] := by
    have hnil : d'.children y = [] := List.eq_nil_iff_forall_not_mem.mpr fun z hz => by
      simpa [hel] using hw'.element_of_child z y hz
    rw [hw'.descendants_eq hy, hnil, List.flatMap_nil]
  have hleaves : ∀ y ∈ d'.children o.code, d'.element? y = none := fun y hy => by
    rw [htexts] at hy
    have hlive := h.page.wellFormed.contains_of_child hy
    have htag : d.tag? y ≠ some "pre" := by simp [tag?, hplain y hy]
    rw [he.element?_rest (he.not_made_of_live hlive) (hrest htag), hplain y hy]
  refine ⟨d'.children o.code, hleaves, ?_⟩
  have hbelow : (d'.children o.code).flatMap d'.descendants = d'.children o.code :=
    (List.flatMap_congr fun y hy => leaf (hw'.contains_of_child hy) (hleaves y hy)).trans
      (List.flatMap_singleton' _)
  have live {x y : NodeId} (hy : y ∈ d'.children x) : d'.contains y := hw'.contains_of_child hy
  rw [hw'.descendants_eq (contains_of_kind? hwrapper), hinner, List.flatMap_cons,
    List.flatMap_singleton, hw'.descendants_eq (live (x := o.wrapper) (by simp [hinner])), hpre,
    List.flatMap_singleton, hw'.descendants_eq (live (x := o.pre) (by simp [hpre])), hbelow,
    hw'.descendants_eq (contains_of_kind? hactions), hbuttons, List.flatMap_singleton,
    hw'.descendants_eq (contains_of_kind? hbutton), hlabels, List.flatMap_singleton,
    leaf (contains_of_kind? hlabel) (by simp [element?, hlabel, NodeKind.element?])]
  simp

/-- In a wrapper there is one block. -/
theorem Pristine.filter_blocks_wrapper {o : Outfit} (ho : o ∈ os) :
    ((d.enhance clipboard).document.descendants o.wrapper).filter
      (d.enhance clipboard).document.isCodeInPre = [o.code] := by
  have hw := h.page.wellFormed
  obtain ⟨texts, htexts, hlist⟩ := h.descendants_wrapper hts hp ho
  have hblock := hp.block hw h.page.rootApart ho
  have hcode : d.isCodeInPre o.code := by
    simp [isCodeInPre, hblock.tag_code, hblock.link, hblock.tag_pre]
  have hpre : d.isCodeInPre o.pre = false := by simp [isCodeInPre, hblock.tag_pre]
  rw [← hp.isCodeInPre_enhance hw] at hcode hpre
  have hmade : ∀ y ∈ o.made, (d.enhance clipboard).document.isCodeInPre y = false := fun y hy => by
    have htag := (tag?_made hp.enhanced (List.mem_flatMap.mpr ⟨o, ho, hy⟩)).1
    simp [isCodeInPre, htag]
  have hnone : texts.filter (d.enhance clipboard).document.isCodeInPre = [] :=
    List.filter_eq_nil_iff.mpr fun y hy => by simp [isCodeInPre, tag?, htexts y hy]
  simp only [Outfit.made, List.forall_mem_cons] at hmade
  simp [hlist, hcode, hpre, hnone, hmade]

/-- In a wrapper there is one control. -/
theorem Pristine.filter_controls_wrapper {o : Outfit} (ho : o ∈ os) :
    ((d.enhance clipboard).document.descendants o.wrapper).filter
      (d.enhance clipboard).document.isControl = [o.button] := by
  obtain ⟨texts, htexts, hlist⟩ := h.descendants_wrapper hts hp ho
  have hblock := hp.block h.page.wellFormed h.page.rootApart ho
  have hpre := h.isControl_of_live hp (contains_of_tag? hblock.tag_pre)
  have hcode := h.isControl_of_live hp (contains_of_tag? hblock.tag_code)
  have hmade : ∀ y ∈ o.made, ((d.enhance clipboard).document.isControl y = true ↔
      y = o.button) := fun y hy => hp.enhanced.isControl_made ho hy
  obtain ⟨-, hwb, -, hab, -, hbl⟩ :=
    Outfit.distinct ((List.nodup_flatMap.mp hp.enhanced.made_nodup).1 o ho)
  have hnone : texts.filter (d.enhance clipboard).document.isControl = [] :=
    List.filter_eq_nil_iff.mpr fun y hy => by simp [isControl, htexts y hy]
  simp only [Outfit.made, List.forall_mem_cons] at hmade
  simp [hlist, hcode, hpre, hnone, hmade, hwb, hab, hbl.symm]

/-- At and below what stands where `x` stood, blocks and controls go together, unless `x` is a block
itself. -/
theorem Pristine.pairsUp_below {x : NodeId} (hx : d.contains x) (hb : d.isCodeInPre x = false) :
    (d.enhance clipboard).document.PairsUp clipboard
      ((d.enhance clipboard).document.descendants (wrapperOf os x)) := by
  have hw := h.page.wellFormed
  have he := hp.enhanced
  induction x using hw.children_induction with
  | h x ih =>
    by_cases hpre : x ∈ os.map Outfit.pre
    · obtain ⟨o, ho, rfl⟩ := List.mem_map.mp hpre
      rw [he.wrapperOf_pre ho]
      rw [PairsUp, h.filter_blocks_wrapper hts hp ho, h.filter_controls_wrapper hts hp ho]
      exact .cons (h.hasControl hp ho) .nil
    have htag : d.tag? x ≠ some "pre" := fun ht =>
      hpre ((hp.mem_pres_iff hw h.page.rootApart).mpr ((h.isBare_iff hts x).mpr ht))
    rw [wrapperOf_rest hpre, he.wellFormed.descendants_eq (he.contains_iff.mpr (.inr hx)),
      he.children_rest x (he.not_made_of_live hx), List.flatMap_map, ← List.singleton_append]
    refine .append (pairsUp_singleton ?_ (h.isControl_of_live hp hx))
      (pairsUp_flatMap fun c hc => ?_)
    · rw [hp.isCodeInPre_enhance hw, hb]
    · have hl := (hw.parent_iff c x).mpr hc
      exact ih c hc (contains_of_parent? hl) (IsPage.not_isCodeInPre hl htag)

end pass

/-! ## §4 A page -/

/-- **Blocks and controls.** After the first pass over a page on which each `pre` holds a block and
nothing else, the controls are those of the blocks, in the same order. -/
theorem Pristine.pairsUp (h : d.Pristine head ts) (hts : ∀ t ∈ ts, t.Orderly)
    (clipboard : String) :
    List.Forall₂ ((d.enhance clipboard).document.HasControl clipboard)
      (d.enhance clipboard).document.codeBlocks (d.enhance clipboard).document.controls := by
  have hw := h.page.wellFormed
  obtain ⟨os, hp⟩ := enhance_progress hw clipboard
  have hroot : (d.enhance clipboard).document.root = d.root :=
    congrArg Prod.fst (changes_enhance hw clipboard).landmarks_eq
  have hpre : d.root ∉ os.map Outfit.pre := fun hm => by
    obtain ⟨o, ho, heq⟩ := List.mem_map.mp hm
    have htag := (hp.bare o ho).1
    rw [heq, h.page.tag?_root] at htag
    simp at htag
  have hbelow := h.pairsUp_below hts hp (contains_of_kind? h.page.root)
    (by simp [isCodeInPre, h.page.top])
  rw [wrapperOf_rest hpre] at hbelow
  rw [codeBlocks_eq_filter, controls_eq, hroot]
  exact hbelow

/-- The blocks say what they said. -/
theorem Pristine.map_innerText_enhance (h : d.Pristine head ts) (hts : ∀ t ∈ ts, t.Orderly)
    (clipboard : String) :
    (d.enhance clipboard).document.codeBlocks.map (d.enhance clipboard).document.innerText =
      Tree.blockTexts ts := by
  have hbody : (NodeKind.element (.ofTag "body")).hasTag "pre" = false := by decide +kernel
  have horderly : (Tree.node default (.element (.ofTag "body")) ts).Orderly :=
    Tree.orderly_node hbody hts
  have hshape := h.page.shape?_enhance clipboard h.body
  rw [((h.page.enhance clipboard).depicts_codeBlocks hshape).map_innerText,
    ← Tree.blockTexts_node (n := default) hbody ts, ← horderly.blockTexts_enhanced,
    Tree.blockTexts, List.flatMap_singleton]

end Document

end CopyControl
