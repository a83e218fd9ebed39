import CopyControl.Proofs.Document.Works
import CopyControl.Proofs.Enhance.Wrap

/-!
One enhancement pass.

The blocks are listed once, and then the tree is rewritten while the list is gone through. That
this does no harm is the invariant `Enhanced`: what has been made so far is new, each `pre` that
has been wrapped has its wrapper in its place, and everything else is as it was. So each block on
the list is still below its `pre`, and no block fails.

* §1 the blocks of a document
* §2 what a pass has made so far
* §3 the blocks one by one
* §4 the whole pass
-/

namespace CopyControl.Document

open Relation Edit Enhance

variable {d d' : Document} {clipboard : String}

/-! ## §1 Blocks -/

/-- `code` is a block: a `code` element directly inside the `pre` element `pre`. -/
structure Block (d : Document) (code pre : NodeId) : Prop where
  tag_code : d.tag? code = some "code"
  link : d.parent? code = some pre
  tag_pre : d.tag? pre = some "pre"

/-- A connected block. -/
def isBlock (d : Document) (code : NodeId) : Bool :=
  d.isConnected code && d.tag? code = some "code" && (d.parent? code).bind d.tag? = some "pre"

/-- A connected `pre` with a block and without the mark. -/
def isBare (d : Document) (pre : NodeId) : Bool :=
  d.isConnected pre && d.tag? pre = some "pre" && !d.hasClass pre enhancedClass &&
    (d.children pre).any (d.tag? · = some "code")

theorem mem_codeBlocks_iff (hw : d.WellFormed) {c : NodeId} : c ∈ d.codeBlocks ↔ d.isBlock c := by
  simp only [codeBlocks, selectDirectChildren, elementsByTag, List.mem_filter, isBlock,
    Bool.and_eq_true, decide_eq_true_eq, hw.isConnected_iff, hw.mem_descendants_iff]
  constructor
  · rintro ⟨⟨⟨-, h⟩, hc⟩, hp⟩
    exact ⟨⟨⟨contains_of_tag? hc, h⟩, hc⟩, hp⟩
  · rintro ⟨⟨⟨hl, h⟩, hc⟩, hp⟩
    exact ⟨⟨⟨hw.contains_of_atOrAbove h hl, h⟩, hc⟩, hp⟩

theorem nodup_codeBlocks (hw : d.WellFormed) : d.codeBlocks.Nodup :=
  ((hw.nodup_descendants d.root).filter _).filter _

theorem block_of_isBlock {c : NodeId} (h : d.isBlock c) : ∃ pre, d.Block c pre := by
  simp only [isBlock, Bool.and_eq_true, decide_eq_true_eq, Option.bind_eq_some_iff] at h
  obtain ⟨⟨-, hc⟩, pre, hl, hp⟩ := h
  exact ⟨pre, hc, hl, hp⟩

/-- The root is no part of a block. -/
def RootApart (d : Document) : Prop :=
  ∀ t, d.tag? d.root = some t → t ≠ "code" ∧ t ≠ "pre"

/-- The `pre` of a connected block is connected, and below something. -/
theorem isConnected_of_block (hw : d.WellFormed) (hr : d.RootApart) {c pre : NodeId}
    (hc : d.isBlock c) (hb : d.Block c pre) :
    d.isConnected pre ∧ ∃ container, d.parent? pre = some container := by
  have hconn : d.isConnected c := by
    simp only [isBlock, Bool.and_eq_true] at hc
    exact hc.1.1
  obtain ⟨-, h⟩ := hw.isConnected_iff.mp hconn
  have hpre : d.AtOrAbove d.root pre := by
    rcases ReflTransGen.cases_head h with h | ⟨p, hp, h⟩
    · exact absurd rfl (hr "code" (by rw [← h]; exact hb.tag_code)).1
    · rw [Link, hb.link] at hp
      exact Option.some.inj hp ▸ h
  refine ⟨hw.isConnected_iff.mpr ⟨contains_of_tag? hb.tag_pre, hpre⟩, ?_⟩
  rcases ReflTransGen.cases_head hpre with h | ⟨p, hp, -⟩
  · exact absurd rfl (hr "pre" (by rw [← h]; exact hb.tag_pre)).2
  · exact ⟨p, hp⟩

/-- The blocks of a `pre` in document order are its `code` children in their order. -/
theorem filter_codeBlocks (hw : d.WellFormed) {pre : NodeId} (hc : d.isConnected pre)
    (hp : d.tag? pre = some "pre") :
    d.codeBlocks.filter (fun c => d.parent? c = some pre) =
      (d.children pre).filter (fun c => d.tag? c = some "code") := by
  obtain ⟨hl, h⟩ := hw.isConnected_iff.mp hc
  have hroot := hw.filter_parent?_descendants pre (hw.contains_of_atOrAbove h hl)
  rw [if_pos (hw.isInclusiveAncestor_iff.mpr h)] at hroot
  rw [← hroot, codeBlocks, selectDirectChildren, elementsByTag]
  simp only [List.filter_filter]
  refine List.filter_congr fun c _ => ?_
  by_cases hpar : d.parent? c = some pre
  · simp [hpar, hp]
  · simp [hpar]

/-! ## §2 What has been made -/

/-- Where a node is after a pass: in the wrapper that was made for it, or where it was. -/
def wrapperOf (os : List Outfit) (x : NodeId) : NodeId :=
  ((os.find? (·.pre = x)).map (·.wrapper)).getD x

theorem wrapperOf_snoc (os : List Outfit) (o : Outfit) (x : NodeId) :
    wrapperOf (os ++ [o]) x =
      if x ∈ os.map Outfit.pre then wrapperOf os x else if x = o.pre then o.wrapper else x := by
  unfold wrapperOf
  rw [List.find?_append]
  cases hf : os.find? (·.pre = x) with
  | some p =>
    have hp : p.pre = x := by simpa using List.find?_some hf
    have hx : x ∈ os.map Outfit.pre :=
      List.mem_map.mpr ⟨p, List.mem_of_find?_eq_some hf, hp⟩
    simp [hx]
  | none =>
    have hx : x ∉ os.map Outfit.pre := by
      intro hx
      obtain ⟨p, hp, hpx⟩ := List.mem_map.mp hx
      simpa [hpx] using List.find?_eq_none.mp hf p hp
    rw [if_neg hx]
    by_cases hxo : x = o.pre <;> simp [hxo, eq_comm]

theorem mem_madeChildren {o : Outfit} {x y : NodeId} (h : x ∈ o.madeChildren y) :
    x = o.pre ∨ x ∈ o.made := by
  unfold Outfit.madeChildren at h
  split at h
  · simp only [List.mem_cons, List.not_mem_nil, or_false] at h
    exact h.imp id fun h => by simp [Outfit.made, h]
  all_goals grind [Outfit.made]

/-- The outfit is for another `pre` than the outfits `os`, and is made of other nodes than they
are and than `d` has. -/
structure Outfit.Apart (o : Outfit) (d : Document) (os : List Outfit) : Prop where
  fresh : ∀ y ∈ o.made, y ∉ os.flatMap Outfit.made ∧ d.contains y = false
  pre : ∀ p ∈ os, p.pre ≠ o.pre
  live : d.contains o.pre
  pres_live : ∀ p ∈ os, d.contains p.pre
  made_dead : ∀ p ∈ os, ∀ y ∈ p.made, d.contains y = false

namespace Outfit.Apart

variable {o p : Outfit} {os : List Outfit} (h : o.Apart d os)
include h

theorem not_made {y : NodeId} (hy : d.contains y) : y ∉ o.made := fun hm => by
  simp [(h.fresh y hm).2] at hy

theorem pre_not_made (hp : p ∈ os) : p.pre ∉ o.made :=
  h.not_made (h.pres_live p hp)

theorem made_not_made (hp : p ∈ os) {y : NodeId} (hy : y ∈ p.made) : y ∉ o.made := fun hm =>
  (h.fresh y hm).1 (List.mem_flatMap.mpr ⟨p, hp, hy⟩)

theorem made_ne_pre (hp : p ∈ os) {y : NodeId} (hy : y ∈ p.made) : y ≠ o.pre := by
  rintro rfl
  simpa [h.live] using h.made_dead p hp _ hy

end Outfit.Apart

theorem forall_mem_snoc {os : List Outfit} {o : Outfit} {P : Outfit → Prop} :
    (∀ p ∈ os ++ [o], P p) ↔ (∀ p ∈ os, P p) ∧ P o := by
  simp [or_imp, forall_and]

/-- `d'` is `d` with the outfits `os` made, each for a `pre` of its own. -/
structure Enhanced (d d' : Document) (os : List Outfit) (clipboard : String) : Prop where
  wellFormed : d'.WellFormed
  made_nodup : (os.flatMap Outfit.made).Nodup
  made_fresh : ∀ o ∈ os, ∀ y ∈ o.made, d.contains y = false
  pres_nodup : (os.map Outfit.pre).Nodup
  element?_pre : ∀ o ∈ os, ∃ e, d.element? o.pre = some e ∧ d'.element? o.pre = some (marked e)
  parent?_pre : ∀ o ∈ os, d'.parent? o.pre = some o.wrapper
  kind?_made : ∀ o ∈ os, ∀ y ∈ o.made, d'.kind? y = some (o.madeKind y)
  parent?_made : ∀ o ∈ os, ∃ container, d.parent? o.pre = some container ∧
    ∀ y ∈ o.made, d'.parent? y = some (o.madeParent container y)
  children_made : ∀ o ∈ os, ∀ y ∈ o.made, d'.children y = o.madeChildren y
  kind?_rest : ∀ y, y ∉ os.flatMap Outfit.made → y ∉ os.map Outfit.pre → d'.kind? y = d.kind? y
  parent?_rest : ∀ y, y ∉ os.flatMap Outfit.made → y ∉ os.map Outfit.pre →
    d'.parent? y = d.parent? y
  children_rest : ∀ y, y ∉ os.flatMap Outfit.made →
    d'.children y = (d.children y).map (wrapperOf os)
  listeners : d'.listeners = d.listeners ++
    os.map fun o => (o.button, .copyBlock o.code o.button clipboard)

theorem wrapperOf_rest {os : List Outfit} {x : NodeId} (hx : x ∉ os.map Outfit.pre) :
    wrapperOf os x = x := by
  have hf : os.find? (·.pre = x) = none := by
    refine List.find?_eq_none.mpr fun o ho => ?_
    simpa using fun heq => hx (List.mem_map.mpr ⟨o, ho, heq⟩)
  simp [wrapperOf, hf]

namespace Enhanced

variable {os : List Outfit}

theorem nil (hw : d.WellFormed) (clipboard : String) : d.Enhanced d [] clipboard where
  wellFormed := hw
  made_nodup := List.nodup_nil
  made_fresh := by simp
  pres_nodup := List.nodup_nil
  element?_pre := by simp
  parent?_pre := by simp
  kind?_made := by simp
  parent?_made := by simp
  children_made := by simp
  kind?_rest _ _ _ := rfl
  parent?_rest _ _ _ := rfl
  children_rest y _ := (List.map_id' _).symm
  listeners := by simp

variable (h : d.Enhanced d' os clipboard)
include h

theorem not_made_of_live {y : NodeId} (hy : d.contains y) : y ∉ os.flatMap Outfit.made := by
  intro hm
  obtain ⟨o, ho, hym⟩ := List.mem_flatMap.mp hm
  simp [h.made_fresh o ho y hym] at hy

theorem contains_pre {o : Outfit} (ho : o ∈ os) : d.contains o.pre := by
  obtain ⟨e, he, -⟩ := h.element?_pre o ho
  exact contains_of_element? he

theorem contains_iff {y : NodeId} :
    d'.contains y ↔ y ∈ os.flatMap Outfit.made ∨ d.contains y := by
  by_cases hm : y ∈ os.flatMap Outfit.made
  · obtain ⟨o, ho, hym⟩ := List.mem_flatMap.mp hm
    simp [hm, contains_of_kind? (h.kind?_made o ho y hym)]
  by_cases hp : y ∈ os.map Outfit.pre
  · obtain ⟨o, ho, rfl⟩ := List.mem_map.mp hp
    obtain ⟨e, he, he'⟩ := h.element?_pre o ho
    simp [contains_of_element? he, contains_of_element? he']
  · simp [hm, contains_eq_of_kind? (h.kind?_rest y hm hp)]

theorem wrapperOf_pre {o : Outfit} (ho : o ∈ os) : wrapperOf os o.pre = o.wrapper := by
  cases hf : os.find? (·.pre = o.pre) with
  | none =>
    have := List.find?_eq_none.mp hf o ho
    simp at this
  | some p =>
    have hp : p.pre = o.pre := by simpa using List.find?_some hf
    obtain rfl := List.inj_on_of_nodup_map h.pres_nodup (List.mem_of_find?_eq_some hf) ho hp
    simp [wrapperOf, hf]

/-- What is made for one more block has nothing in common with what was made before, nor with the
document before the pass. -/
theorem apart {d'' : Document} {o : Outfit} {e : Element} {container : NodeId}
    (hpre : d.contains o.pre) (hnew : o.pre ∉ os.map Outfit.pre)
    (hw : d'.Wraps d'' o e container clipboard) : o.Apart d os where
  fresh y hy := by
    have := hw.fresh y hy
    rw [← Bool.not_eq_true, h.contains_iff, not_or, Bool.not_eq_true] at this
    exact this
  pre p hp heq := hnew (heq ▸ List.mem_map_of_mem hp)
  live := hpre
  pres_live p hp := h.contains_pre hp
  made_dead := h.made_fresh

theorem snoc {d'' : Document} {o : Outfit} {e : Element} {container : NodeId}
    (he : d.element? o.pre = some e) (hc : d.parent? o.pre = some container)
    (hnew : o.pre ∉ os.map Outfit.pre) (hw : d'.Wraps d'' o e container clipboard) :
    d.Enhanced d'' (os ++ [o]) clipboard := by
  have ha := h.apart (contains_of_element? he) hnew hw
  have hprem : o.pre ∉ o.made := ha.not_made ha.live
  constructor
  case wellFormed => exact hw.wellFormed
  case made_nodup =>
    rw [List.flatMap_append, List.flatMap_singleton]
    exact List.nodup_append.mpr ⟨h.made_nodup, hw.nodup, fun y hy z hz hyz =>
      (ha.fresh z hz).1 (hyz ▸ hy)⟩
  case made_fresh => exact forall_mem_snoc.mpr ⟨h.made_fresh, fun y hy => (ha.fresh y hy).2⟩
  case pres_nodup =>
    rw [List.map_append]
    exact List.nodup_append.mpr ⟨h.pres_nodup, List.nodup_singleton _, by simpa using ha.pre⟩
  case element?_pre =>
    refine forall_mem_snoc.mpr ⟨fun p hp => ?_, e, he, ?_⟩
    · obtain ⟨f, hf, hf'⟩ := h.element?_pre p hp
      refine ⟨f, hf, ?_⟩
      rw [element?_eq_some_iff, hw.kind?_rest (ha.pre_not_made hp) (ha.pre p hp),
        element?_eq_some_iff.mp hf']
    · rw [element?_eq_some_iff, hw.kind?, if_neg hprem, if_pos rfl]
  case parent?_pre =>
    refine forall_mem_snoc.mpr ⟨fun p hp => ?_, ?_⟩
    · rw [hw.parent?_rest (ha.pre_not_made hp) (ha.pre p hp), h.parent?_pre p hp]
    · rw [hw.parent?, if_neg hprem, if_pos rfl]
  case kind?_made =>
    refine forall_mem_snoc.mpr ⟨fun p hp y hy => ?_, fun y hy => ?_⟩
    · rw [hw.kind?_rest (ha.made_not_made hp hy) (ha.made_ne_pre hp hy), h.kind?_made p hp y hy]
    · rw [hw.kind?, if_pos hy]
  case parent?_made =>
    refine forall_mem_snoc.mpr ⟨fun p hp => ?_, container, hc, fun y hy => ?_⟩
    · obtain ⟨q, hq, hm⟩ := h.parent?_made p hp
      refine ⟨q, hq, fun y hy => ?_⟩
      rw [hw.parent?_rest (ha.made_not_made hp hy) (ha.made_ne_pre hp hy), hm y hy]
    · rw [hw.parent?, if_pos hy]
  case children_made =>
    refine forall_mem_snoc.mpr ⟨fun p hp y hy => ?_, fun y hy => ?_⟩
    · rw [hw.children, if_neg (ha.made_not_made hp hy), h.children_made p hp y hy]
      refine (List.map_congr_left fun x hx => if_neg ?_).trans (List.map_id' _)
      -- what an earlier outfit holds is its own `pre` or made for it
      rcases mem_madeChildren hx with rfl | hx
      · exact ha.pre p hp
      · exact ha.made_ne_pre hp hx
    · rw [hw.children, if_pos hy]
  case kind?_rest =>
    intro y hy hp
    rw [List.flatMap_append, List.flatMap_singleton, List.mem_append, not_or] at hy
    rw [List.map_append, List.map_singleton, List.mem_append, List.mem_singleton, not_or] at hp
    rw [hw.kind?_rest hy.2 hp.2, h.kind?_rest y hy.1 hp.1]
  case parent?_rest =>
    intro y hy hp
    rw [List.flatMap_append, List.flatMap_singleton, List.mem_append, not_or] at hy
    rw [List.map_append, List.map_singleton, List.mem_append, List.mem_singleton, not_or] at hp
    rw [hw.parent?_rest hy.2 hp.2, h.parent?_rest y hy.1 hp.1]
  case children_rest =>
    intro y hy
    rw [List.flatMap_append, List.flatMap_singleton, List.mem_append, not_or] at hy
    rw [hw.children, if_neg hy.2, h.children_rest y hy.1, List.map_map]
    refine List.map_congr_left fun x _ => ?_
    rw [Function.comp_apply, wrapperOf_snoc]
    by_cases hx : x ∈ os.map Outfit.pre
    · obtain ⟨p, hp, rfl⟩ := List.mem_map.mp hx
      rw [if_pos hx, h.wrapperOf_pre hp, if_neg (ha.made_ne_pre hp (by simp [Outfit.made]))]
    · rw [if_neg hx, wrapperOf_rest hx]
  case listeners =>
    rw [hw.listeners, h.listeners, List.map_append, List.append_assoc]
    rfl

end Enhanced

/-! ## §3 The blocks one by one -/

theorem hasClass_of_element? {id : NodeId} {e : Element} (h : d.element? id = some e)
    (c : String) : d.hasClass id c = e.hasClass c := by
  simp [hasClass, h]

theorem hasClass_congr {id : NodeId} (h : d'.kind? id = d.kind? id) (c : String) :
    d'.hasClass id c = d.hasClass id c := by
  simp only [hasClass, element?, h]

theorem hasClass_marked (e : Element) :
    (marked e).hasClass enhancedClass ∧ (marked e).hasClass wrapLinesClass :=
  ⟨Element.hasClass_addClass.mpr (.inr rfl),
    Element.hasClass_addClass.mpr (.inl (Element.hasClass_addClass.mpr (.inr rfl)))⟩

theorem enhanceBlock_of_marked {code pre : NodeId} (hl : d.parent? code = some pre)
    (hm : d.hasClass pre enhancedClass) :
    (enhanceBlock code clipboard).apply d = (.ok false, d) := by
  rw [enhanceBlock, apply_get_bind]
  simp [hl, hm]

theorem enhanceBlock_of_bare {code pre container : NodeId} (hl : d.parent? code = some pre)
    (hm : d.hasClass pre enhancedClass = false) (hp : d.parent? pre = some container)
    (h : (wrapBlock code pre container clipboard).apply d = (.ok (), d')) :
    (enhanceBlock code clipboard).apply d = (.ok true, d') := by
  rw [enhanceBlock, apply_get_bind]
  simp only [hl, hm, hp, Bool.false_eq_true, if_false]
  exact apply_bind_ok h

/-- A block that cannot be given a place: its `pre` has no parent. -/
def Stuck (d : Document) (code : NodeId) : Prop :=
  ∃ pre, d.Block code pre ∧ d.parent? pre = none

theorem enhanceBlock_of_stuck {code pre : NodeId} (hl : d.parent? code = some pre)
    (hm : d.hasClass pre enhancedClass = false) (hp : d.parent? pre = none) :
    (enhanceBlock code clipboard).apply d = (.error (.detached pre), d) := by
  rw [enhanceBlock, apply_get_bind]
  simp [hl, hm, hp]

/-- A pass over `d` after the blocks `done`, with the outfits `os` made. -/
structure Progress (d : Document) (clipboard : String) (done : List NodeId) (p : Pass)
    (os : List Outfit) : Prop where
  enhanced : d.Enhanced p.document os clipboard
  found : p.summary.found = d.codeBlocks.length
  failed : p.summary.failed = 0 ∨ ∃ c ∈ done, d.Stuck c
  made : p.summary.enhanced = os.length
  total : p.summary.enhanced + p.summary.skipped + p.summary.failed = done.length
  /-- The `pre` of a block that is done had the mark or has it now. -/
  covered : ∀ c ∈ done, ∀ pre, d.parent? c = some pre →
    d.hasClass pre enhancedClass ∨ pre ∈ os.map Outfit.pre ∨ d.parent? pre = none
  /-- An outfit is for a `pre` without the mark, and copies the first of its blocks. -/
  bare : ∀ o ∈ os, d.tag? o.pre = some "pre" ∧ d.hasClass o.pre enhancedClass = false ∧
    (done.filter fun c => d.parent? c = some o.pre).head? = some o.code

namespace Progress

variable {done : List NodeId} {p : Pass} {os : List Outfit}

theorem start (hw : d.WellFormed) (clipboard : String) :
    d.Progress clipboard [] (.start d d.codeBlocks.length) [] where
  enhanced := .nil hw clipboard
  found := rfl
  failed := .inl rfl
  made := rfl
  total := rfl
  covered := by simp
  bare := by simp

variable (h : d.Progress clipboard done p os)
include h

theorem not_made {x : NodeId} (hx : d.contains x) : x ∉ os.flatMap Outfit.made :=
  h.enhanced.not_made_of_live hx

theorem link {c pre : NodeId} (hb : d.Block c pre) : p.document.parent? c = some pre := by
  have hne : c ∉ os.map Outfit.pre := by
    intro hc
    obtain ⟨o, ho, rfl⟩ := List.mem_map.mp hc
    have := (h.bare o ho).1
    rw [hb.tag_code] at this
    simp at this
  rw [h.enhanced.parent?_rest c (h.not_made (contains_of_tag? hb.tag_code)) hne]
  exact hb.link

/-- The first block of a `pre` stays the first when there are more. -/
theorem bare_snoc {o : Outfit} (ho : o ∈ os) (c : NodeId) :
    d.tag? o.pre = some "pre" ∧ d.hasClass o.pre enhancedClass = false ∧
      ((done ++ [c]).filter fun x => d.parent? x = some o.pre).head? = some o.code := by
  obtain ⟨htag, hm, hfirst⟩ := h.bare o ho
  exact ⟨htag, hm, by rw [List.filter_append, List.head?_append, hfirst, Option.some_or]⟩

/-- Nothing has been done to a `pre` of the document that has no outfit. -/
theorem hasClass_rest {pre : NodeId} (hlive : d.contains pre) (hp : pre ∉ os.map Outfit.pre)
    (c : String) : p.document.hasClass pre c = d.hasClass pre c :=
  hasClass_congr (h.enhanced.kind?_rest pre (h.not_made hlive) hp) c

/-- A block whose `pre` has its mark, from before or from this pass, is skipped. -/
theorem skip {c pre : NodeId} (hb : d.Block c pre)
    (hm : d.hasClass pre enhancedClass ∨ pre ∈ os.map Outfit.pre) :
    d.Progress clipboard (done ++ [c]) (p.takeBlock clipboard c) os := by
  have hmark : p.document.hasClass pre enhancedClass := by
    by_cases hp : pre ∈ os.map Outfit.pre
    · obtain ⟨o, ho, rfl⟩ := List.mem_map.mp hp
      obtain ⟨e, -, he⟩ := h.enhanced.element?_pre o ho
      rw [hasClass_of_element? he]
      exact (hasClass_marked e).1
    · rw [h.hasClass_rest (contains_of_tag? hb.tag_pre) hp]
      exact hm.resolve_right hp
  have htake : p.takeBlock clipboard c =
      { p with summary := { p.summary with skipped := p.summary.skipped + 1 } } := by
    simp only [Pass.takeBlock, enhanceBlock_of_marked (h.link hb) hmark]
  rw [htake]
  refine ⟨h.enhanced, h.found, ?_, h.made, ?_, fun x hx q hq => ?_, fun o ho => h.bare_snoc ho c⟩
  · exact h.failed.imp id fun ⟨x, hx, hs⟩ => ⟨x, List.mem_append_left _ hx, hs⟩
  · have := h.total
    simp only [List.length_append, List.length_singleton]
    omega
  · rcases List.mem_append.mp hx with hx | hx
    · exact h.covered x hx q hq
    · obtain rfl := List.mem_singleton.mp hx
      obtain rfl := Option.some.inj (hq.symm.trans hb.link)
      exact hm.imp id .inl

/-- A block that cannot be given a place fails, and nothing is done. -/
theorem fail {c pre : NodeId} (hb : d.Block c pre) (hp : d.parent? pre = none)
    (hm : d.hasClass pre enhancedClass = false) (hnew : pre ∉ os.map Outfit.pre) :
    d.Progress clipboard (done ++ [c]) (p.takeBlock clipboard c) os := by
  have hlive := contains_of_tag? hb.tag_pre
  have hp' : p.document.parent? pre = none := by
    rw [h.enhanced.parent?_rest pre (h.not_made hlive) hnew, hp]
  have htake : p.takeBlock clipboard c =
      { document := p.document
        summary := { p.summary with failed := p.summary.failed + 1 }
        log := Pass.failure (.detached pre) c :: p.log } := by
    simp only [Pass.takeBlock, enhanceBlock_of_stuck (h.link hb)
      ((h.hasClass_rest hlive hnew _).trans hm) hp']
  rw [htake]
  refine ⟨h.enhanced, h.found, .inr ⟨c, by simp, pre, hb, hp⟩, h.made, ?_, fun x hx q hq => ?_,
    fun o ho => h.bare_snoc ho c⟩
  · have := h.total
    simp only [List.length_append, List.length_singleton]
    omega
  · rcases List.mem_append.mp hx with hx | hx
    · exact h.covered x hx q hq
    · obtain rfl := List.mem_singleton.mp hx
      obtain rfl := Option.some.inj (hq.symm.trans hb.link)
      exact .inr (.inr hp)

/-- A block whose `pre` has no mark yet gets a control. -/
theorem wrap {c pre container : NodeId} (hb : d.Block c pre)
    (hp : d.parent? pre = some container) (hm : d.hasClass pre enhancedClass = false)
    (hnew : pre ∉ os.map Outfit.pre) :
    ∃ o, d.Progress clipboard (done ++ [c]) (p.takeBlock clipboard c) (os ++ [o]) := by
  have hlive := contains_of_tag? hb.tag_pre
  obtain ⟨e, he, -⟩ := tag?_eq_some_iff.mp hb.tag_pre
  have he' : p.document.element? pre = some e := by
    rw [element?_eq_some_iff, h.enhanced.kind?_rest pre (h.not_made hlive) hnew,
      element?_eq_some_iff.mp he]
  have hp' : p.document.parent? pre = some container := by
    rw [h.enhanced.parent?_rest pre (h.not_made hlive) hnew, hp]
  obtain ⟨o, d', hrun, rfl, rfl, hwrap⟩ := wrapBlock_spec h.enhanced.wellFormed c he' hp' clipboard
  have htake : p.takeBlock clipboard o.code = { p with
      document := d', summary := { p.summary with enhanced := p.summary.enhanced + 1 } } := by
    simp only [Pass.takeBlock, enhanceBlock_of_bare (h.link hb)
      ((h.hasClass_rest hlive hnew _).trans hm) hp' hrun]
  -- it is the first block of its `pre`, for else the `pre` would have the mark by now
  have hfirst : done.filter (fun x => d.parent? x = some o.pre) = [] := by
    refine List.filter_eq_nil_iff.mpr fun x hx hpar => ?_
    rcases h.covered x hx o.pre (by simpa using hpar) with hc | hc | hc
    · simp [hm] at hc
    · exact hnew hc
    · simp [hp] at hc
  rw [htake]
  refine ⟨o, h.enhanced.snoc he hp hnew hwrap, h.found, ?_, ?_, ?_, fun x hx q hq => ?_,
    fun r hr => ?_⟩
  · exact h.failed.imp id fun ⟨x, hx, hs⟩ => ⟨x, List.mem_append_left _ hx, hs⟩
  · simp [h.made]
  · have := h.total
    simp only [List.length_append, List.length_singleton]
    omega
  · rcases List.mem_append.mp hx with hx | hx
    · exact (h.covered x hx q hq).imp id (Or.imp (fun hq => by simp [hq]) id)
    · obtain rfl := List.mem_singleton.mp hx
      obtain rfl := Option.some.inj (hq.symm.trans hb.link)
      exact .inr (.inl (by simp))
  · rcases List.mem_append.mp hr with hr | hr
    · exact h.bare_snoc hr o.code
    · obtain rfl := List.mem_singleton.mp hr
      refine ⟨hb.tag_pre, hm, ?_⟩
      rw [List.filter_append, hfirst, List.nil_append, List.filter_cons_of_pos
        (by simpa using hb.link)]
      rfl

theorem takeBlock {c pre : NodeId} (hb : d.Block c pre) :
    ∃ os', d.Progress clipboard (done ++ [c]) (p.takeBlock clipboard c) os' := by
  by_cases hm : d.hasClass pre enhancedClass ∨ pre ∈ os.map Outfit.pre
  · exact ⟨os, h.skip hb hm⟩
  obtain ⟨hm, hnew⟩ := not_or.mp hm
  rw [Bool.not_eq_true] at hm
  cases hp : d.parent? pre with
  | none => exact ⟨os, h.fail hb hp hm hnew⟩
  | some container =>
    obtain ⟨o, ho⟩ := h.wrap hb hp hm hnew
    exact ⟨os ++ [o], ho⟩

theorem foldl {rest : List NodeId} (hrest : ∀ c ∈ rest, ∃ pre, d.Block c pre) :
    ∃ os', d.Progress clipboard (done ++ rest) (rest.foldl (Pass.takeBlock clipboard) p) os' := by
  induction rest generalizing done p os with
  | nil => exact ⟨os, by simpa using h⟩
  | cons c rest ih =>
    obtain ⟨pre, hb⟩ := hrest c List.mem_cons_self
    obtain ⟨os', h'⟩ := h.takeBlock hb
    have := ih h' fun x hx => hrest x (List.mem_cons_of_mem _ hx)
    rwa [List.append_assoc, List.singleton_append] at this

end Progress

/-! ## §4 The whole pass -/

/-- All blocks of a document are taken. -/
theorem enhance_progress (hw : d.WellFormed) (clipboard : String) :
    ∃ os, d.Progress clipboard d.codeBlocks (d.enhance clipboard) os := by
  have hblocks : ∀ c ∈ d.codeBlocks, ∃ pre, d.Block c pre := fun c hc =>
    block_of_isBlock ((mem_codeBlocks_iff hw).mp hc)
  obtain ⟨os, h⟩ := (Progress.start hw clipboard).foldl hblocks
  rw [List.nil_append] at h
  refine ⟨os, ?_⟩
  -- the log is no part of it
  rw [enhance, Pass.finish]
  split
  · exact ⟨h.enhanced, h.found, h.failed, h.made, h.total, h.covered, h.bare⟩
  · exact h

theorem not_stuck (hw : d.WellFormed) (hr : d.RootApart) {c : NodeId} (hc : c ∈ d.codeBlocks) :
    ¬ d.Stuck c := by
  rintro ⟨pre, hb, hp⟩
  obtain ⟨-, container, hp'⟩ := isConnected_of_block hw hr ((mem_codeBlocks_iff hw).mp hc) hb
  simp [hp] at hp'

/-- No block of a document fails. -/
theorem Progress.failed_eq {p : Pass} {os : List Outfit} (hw : d.WellFormed) (hr : d.RootApart)
    (h : d.Progress clipboard d.codeBlocks p os) : p.summary.failed = 0 :=
  h.failed.resolve_right fun ⟨_, hc, hs⟩ => not_stuck hw hr hc hs

theorem isBlock_of_child (hw : d.WellFormed) {c pre : NodeId} (hc : d.isConnected pre)
    (hb : d.Block c pre) : d.isBlock c := by
  obtain ⟨-, h⟩ := hw.isConnected_iff.mp hc
  have : d.isConnected c :=
    hw.isConnected_iff.mpr ⟨contains_of_tag? hb.tag_code, .head hb.link h⟩
  simp [isBlock, this, hb.tag_code, hb.link, hb.tag_pre]

theorem isBare_iff {pre : NodeId} :
    d.isBare pre ↔ d.isConnected pre ∧ d.tag? pre = some "pre" ∧
      d.hasClass pre enhancedClass = false ∧ ∃ c ∈ d.children pre, d.tag? c = some "code" := by
  simp [isBare, and_assoc]

/-- The wrapped ones are exactly the bare ones, and each control copies the first block. -/
theorem Progress.mem_pres_iff {p : Pass} {os : List Outfit} (hw : d.WellFormed)
    (hr : d.RootApart) (h : d.Progress clipboard d.codeBlocks p os) {pre : NodeId} :
    pre ∈ os.map Outfit.pre ↔ d.isBare pre := by
  rw [isBare_iff]
  constructor
  · intro hp
    obtain ⟨o, ho, rfl⟩ := List.mem_map.mp hp
    obtain ⟨htag, hm, hfirst⟩ := h.bare o ho
    have hcode := List.mem_of_mem_head? hfirst
    rw [List.mem_filter, decide_eq_true_iff] at hcode
    have hc := (mem_codeBlocks_iff hw).mp hcode.1
    obtain ⟨pre, hb⟩ := block_of_isBlock hc
    obtain rfl := Option.some.inj (hcode.2.symm.trans hb.link)
    exact ⟨(isConnected_of_block hw hr hc hb).1, htag, hm, o.code,
      (hw.parent_iff _ _).mp hb.link, hb.tag_code⟩
  · rintro ⟨hconn, htag, hm, c, hc, hcode⟩
    have hb : d.Block c pre := ⟨hcode, (hw.parent_iff c pre).mpr hc, htag⟩
    have hmem := (mem_codeBlocks_iff hw).mpr (isBlock_of_child hw hconn hb)
    rcases h.covered c hmem pre hb.link with hc | hp | hp
    · simp [hm] at hc
    · exact hp
    · exact absurd ⟨pre, hb, hp⟩ (not_stuck hw hr hmem)

theorem Progress.find?_code {p : Pass} {os : List Outfit} (hw : d.WellFormed) (hr : d.RootApart)
    (h : d.Progress clipboard d.codeBlocks p os) {o : Outfit} (ho : o ∈ os) :
    (d.children o.pre).find? (fun c => d.tag? c = some "code") = some o.code := by
  have hbare := (h.mem_pres_iff hw hr).mp (List.mem_map_of_mem ho)
  obtain ⟨hc, ht, -⟩ := isBare_iff.mp hbare
  rw [← List.head?_filter, ← filter_codeBlocks hw hc ht]
  exact (h.bare o ho).2.2

/-- A listing of the live nodes with a property counts them. -/
theorem length_eq_countP {l : List NodeId} {P : NodeId → Bool} (hn : l.Nodup)
    (h : ∀ x, x ∈ l ↔ P x) (hlive : ∀ x, P x → d.contains x) :
    l.length = d.liveNodes.countP P := by
  rw [List.countP_eq_length_filter]
  refine ((List.perm_ext_iff_of_nodup hn ((nodup_liveNodes d).filter P)).mpr fun x => ?_).length_eq
  rw [List.mem_filter, mem_liveNodes_iff, h]
  exact ⟨fun hx => ⟨hlive x hx, hx⟩, And.right⟩

theorem contains_of_isConnected {x : NodeId} (h : d.isConnected x) : d.contains x := by
  rw [isConnected, Bool.and_eq_true] at h
  exact h.1

/-! ### Ancestors -/

/-- A pass puts new nodes between old ones, but does not change which is above which. -/
theorem Enhanced.atOrAbove {os : List Outfit} (hw : d.WellFormed)
    (h : d.Enhanced d' os clipboard) {a x : NodeId} (ha : d.contains a) (hx : d.contains x)
    (hax : d'.AtOrAbove a x) : d.AtOrAbove a x := by
  -- a chain goes on from an old node, or from the wrapper of a node to where that node was
  suffices hboth : (d.contains x → d.AtOrAbove a x) ∧
      (∀ o ∈ os, x = o.wrapper → ∀ q, d.parent? o.pre = some q → d.AtOrAbove a q) from hboth.1 hx
  clear hx
  induction hax using ReflTransGen.head_induction_on with
  | refl =>
    refine ⟨fun _ => .refl, ?_⟩
    rintro o ho rfl
    simp [h.made_fresh o ho o.wrapper (by simp [Outfit.made])] at ha
  | @head x y hl _ ih =>
    obtain ⟨hold, hwrap⟩ := ih
    refine ⟨fun hx => ?_, ?_⟩
    · by_cases hp : x ∈ os.map Outfit.pre
      · obtain ⟨o, ho, rfl⟩ := List.mem_map.mp hp
        rw [Link, h.parent?_pre o ho] at hl
        obtain ⟨q, hq, -⟩ := h.parent?_made o ho
        exact .head hq (hwrap o ho (Option.some.inj hl).symm q hq)
      · rw [Link, h.parent?_rest x (h.not_made_of_live hx) hp] at hl
        exact .head hl (hold (hw.contains_of_link hl))
    · rintro o ho rfl q hq
      obtain ⟨container, hc, hm⟩ := h.parent?_made o ho
      have hwm : o.wrapper ∈ o.made := by simp [Outfit.made]
      rw [Link, hm _ hwm, Outfit.madeParent, if_pos rfl] at hl
      obtain rfl := Option.some.inj (hc.symm.trans hq)
      obtain rfl := Option.some.inj hl
      exact hold (hw.contains_of_link hc)

/-! ### A pass only adds -/

/-- A first text for an element without children displaces nothing. -/
theorem adds_setText_of_childless (hw : d.WellFormed) {id : NodeId} (hid : d.IsElement id)
    (hch : d.children id = []) (s : String) :
    ReflTransGen Adds d ((setText id s).apply d).2 := by
  have hset := setsKind_createNode hw (k := .text s) (by simp)
  have hch' : (d.newText s).2.children id = [] := (congrFun hset.children id).trans hch
  have hkeeps : ∀ i, Keeps i (d.newText s).2
      ((d.newText s).2.swapChildren id [(d.newText s).1]) := fun i => by
    rw [swapChildren_eq, hch', List.foldl_nil]
    refine keeps_of_kind? ?_ ?_
    · rw [generation?_notify, generation?_regrouped]
    · rw [kind?_notify, kind?_regrouped]
  rw [setText_of_not_sole s (by simp [soleText?, hch]), setTextContent_ok hw s hid]
  exact (adds_createNode hw (by simp)).tail
    ⟨.swap id _ (isElement_newText hw s hid) (mayHold_newText hw s hid), hkeeps⟩

theorem constructive_createControl (code : NodeId) (clipboard : String) :
    Constructive (createControl code clipboard) where
  adds d hw := by
    obtain ⟨b, d₁, h₁, hb, s₁⟩ := createElement_setsKind hw "button"
    obtain ⟨d₂, h₂, s₂⟩ := addClass_setsKind s₁.wellFormed s₁.element? buttonClass
    obtain ⟨d₃, h₃, s₃⟩ := updateElement_setsKind s₂.wellFormed s₂.element?
      (f := (·.setAttribute "type" "button")) fun h => Element.noRepeats_setAttribute h _ _
    have s := (s₁.trans s₂).trans s₃
    have p₁ := (constructive_createElement "button").adds d hw
    have p₂ := (constructive_addClass b buttonClass).adds d₁ s₁.wellFormed
    have p₃ := (constructive_setAttribute b "type" "button").adds d₂ s₂.wellFormed
    rw [h₁] at p₁
    rw [h₂] at p₂
    rw [setAttribute, h₃] at p₃
    have p₄ := adds_setText_of_childless s.wellFormed (Option.isSome_of_mem s.element?)
      (by rw [s.children, children_eq_nil_of_dead hb]) ControlLabel.copy.text
    rw [createControl, apply_bind_ok h₁, apply_bind_ok h₂, setAttribute, apply_bind_ok h₃]
    refine ((p₁.trans p₂).trans p₃).trans (adds_bind s.wellFormed p₄ fun _ => ?_)
    exact (constructive_addClickListener _ _).bind fun _ => constructive_pure _
  blind S :=
    (blind_createElement _).bind fun b => (blind_updateElement b _).bind fun _ =>
    (blind_updateElement b _).bind fun _ => (blind_setText b _).bind fun _ =>
    (blind_addClickListener b _).bind fun _ => blind_pure _

theorem constructive_wrapBlock (code pre container : NodeId) (clipboard : String) :
    Constructive (wrapBlock code pre container clipboard) :=
  (constructive_createControl _ _).bind fun _ => (constructive_createElement _).bind fun _ =>
  (constructive_addClass _ _).bind fun _ => (constructive_addClass _ _).bind fun _ =>
  (constructive_insertBefore _ _ _).bind fun _ => (constructive_insertBefore _ _ _).bind fun _ =>
  (constructive_createElement _).bind fun _ => (constructive_addClass _ _).bind fun _ =>
  (constructive_insertBefore _ _ _).bind fun _ => (constructive_insertBefore _ _ _).bind fun _ =>
  constructive_addClass _ _

theorem constructive_enhanceBlock (code : NodeId) (clipboard : String) :
    Constructive (enhanceBlock code clipboard) := by
  refine .read (fun d => ?_) fun S d => by simp only [parent?_blanked, hasClass_blanked]
  split
  · exact constructive_throw _
  · split
    · exact constructive_pure _
    · split
      · exact constructive_throw _
      · exact (constructive_wrapBlock _ _ _ _).bind fun _ => constructive_pure _

theorem document_takeBlock (clipboard : String) (p : Pass) (c : NodeId) :
    (p.takeBlock clipboard c).document = ((enhanceBlock c clipboard).apply p.document).2 := by
  rw [Pass.takeBlock]
  split <;> rename_i heq <;> rw [heq]

theorem document_finish (p : Pass) : p.finish.document = p.document := by
  rw [Pass.finish]
  split <;> rfl

theorem adds_foldl_takeBlock (clipboard : String) {p : Pass} (hw : p.document.WellFormed)
    (cs : List NodeId) :
    ReflTransGen Adds p.document (cs.foldl (Pass.takeBlock clipboard) p).document := by
  induction cs generalizing p with
  | nil => exact .refl
  | cons c cs ih =>
    have h := (constructive_enhanceBlock c clipboard).adds p.document hw
    rw [← document_takeBlock] at h
    exact h.trans (ih (adds_wellFormed hw h))

theorem adds_enhance (hw : d.WellFormed) (clipboard : String) :
    ReflTransGen Adds d (d.enhance clipboard).document := by
  rw [enhance, document_finish]
  exact adds_foldl_takeBlock clipboard (p := .start d d.codeBlocks.length) hw d.codeBlocks

theorem changes_enhance (hw : d.WellFormed) (clipboard : String) :
    Changes d (d.enhance clipboard).document :=
  (adds_enhance hw clipboard).lift id fun _ _ h => h.change

/-! ### What a pass leaves behind -/

theorem tag?_made {os : List Outfit} (h : d.Enhanced d' os clipboard) {y : NodeId}
    (hy : y ∈ os.flatMap Outfit.made) : d'.tag? y ≠ some "code" ∧ d'.tag? y ≠ some "pre" := by
  obtain ⟨o, ho, hm⟩ := List.mem_flatMap.mp hy
  rw [tag?, element?, h.kind?_made o ho y hm, Outfit.madeKind]
  split
  · simp [NodeKind.element?, boxElement]
  split
  · simp [NodeKind.element?, boxElement]
  split <;> simp [NodeKind.element?, controlElement]

theorem Enhanced.tag? {os : List Outfit} (h : d.Enhanced d' os clipboard) {y : NodeId}
    (hy : y ∉ os.flatMap Outfit.made) : d'.tag? y = d.tag? y := by
  by_cases hp : y ∈ os.map Outfit.pre
  · obtain ⟨o, ho, rfl⟩ := List.mem_map.mp hp
    obtain ⟨e, he, he'⟩ := h.element?_pre o ho
    simp [Document.tag?, he, he', marked]
  · exact tag?_eq_of_kind? (h.kind?_rest y hy hp)

theorem Enhanced.hasClass_pre {os : List Outfit} (h : d.Enhanced d' os clipboard) {o : Outfit}
    (ho : o ∈ os) : d'.hasClass o.pre enhancedClass ∧ d'.hasClass o.pre wrapLinesClass := by
  obtain ⟨e, -, he⟩ := h.element?_pre o ho
  simp only [hasClass_of_element? he]
  exact hasClass_marked e

/-- A block of the document after a pass was a block before it. -/
theorem Enhanced.block {os : List Outfit} (h : d.Enhanced d' os clipboard) {c pre : NodeId}
    (hpre : ∀ o ∈ os, d.tag? o.pre = some "pre") (hb : d'.Block c pre) : d.Block c pre := by
  have hc : c ∉ os.flatMap Outfit.made := fun hm => (tag?_made h hm).1 hb.tag_code
  have hp : pre ∉ os.flatMap Outfit.made := fun hm => (tag?_made h hm).2 hb.tag_pre
  have hcode : d.tag? c = some "code" := by rw [← h.tag? hc, hb.tag_code]
  refine ⟨hcode, ?_, by rw [← h.tag? hp, hb.tag_pre]⟩
  rw [← h.parent?_rest c hc, hb.link]
  intro hm
  obtain ⟨o, ho, rfl⟩ := List.mem_map.mp hm
  simp [hpre o ho] at hcode

/-- Without a root there are no blocks, and nothing is made. -/
theorem Progress.contains_root {p : Pass} {os : List Outfit} (hw : d.WellFormed)
    (h : d.Progress clipboard d.codeBlocks p os) {o : Outfit} (ho : o ∈ os) :
    d.contains d.root := by
  have hcode := List.mem_of_mem_head? (h.bare o ho).2.2
  have hc := (mem_codeBlocks_iff hw).mp (List.mem_filter.mp hcode).1
  simp only [isBlock, Bool.and_eq_true, hw.isConnected_iff] at hc
  exact hw.contains_of_atOrAbove hc.1.1.2 hc.1.1.1

/-- After a pass every connected block has its mark. -/
theorem Progress.hasClass_of_isBlock {p : Pass} {os : List Outfit} (hw : d.WellFormed)
    (hr : d.RootApart) (hroot : p.document.root = d.root)
    (h : d.Progress clipboard d.codeBlocks p os) {c pre : NodeId} (hc : p.document.isBlock c)
    (hl : p.document.parent? c = some pre) :
    p.document.hasClass pre enhancedClass := by
  obtain ⟨q, hb'⟩ := block_of_isBlock hc
  obtain rfl := Option.some.inj (hl.symm.trans hb'.link)
  have hb := h.enhanced.block (fun o ho => (h.bare o ho).1) hb'
  have hlive := contains_of_tag? hb.tag_code
  by_cases hp : pre ∈ os.map Outfit.pre
  · obtain ⟨o, ho, rfl⟩ := List.mem_map.mp hp
    exact (h.enhanced.hasClass_pre ho).1
  have hconn : d.isBlock c := by
    simp only [isBlock, Bool.and_eq_true] at hc
    obtain ⟨hl', ha'⟩ := h.enhanced.wellFormed.isConnected_iff.mp hc.1.1
    rw [hroot] at ha'
    have hroot : d.contains d.root := by
      have := h.enhanced.wellFormed.contains_of_atOrAbove ha' hl'
      rcases h.enhanced.contains_iff.mp this with hm | hroot
      · obtain ⟨o, ho, -⟩ := List.mem_flatMap.mp hm
        exact h.contains_root hw ho
      · exact hroot
    have := h.enhanced.atOrAbove hw hroot hlive ha'
    simp [isBlock, hw.isConnected_iff, hlive, this, hb.tag_code, hb.link, hb.tag_pre]
  have hmem := (mem_codeBlocks_iff hw).mpr hconn
  rw [h.hasClass_rest (contains_of_tag? hb.tag_pre) hp]
  rcases h.covered c hmem pre hb.link with hc | hp' | hp'
  · exact hc
  · exact absurd hp' hp
  · exact absurd ⟨pre, hb, hp'⟩ (not_stuck hw hr hmem)

end CopyControl.Document
