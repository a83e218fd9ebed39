import Mathlib.Data.List.Dedup
import CopyControl.Proofs.Document.Shape

/-!
What stands after the children of a node have been swapped.

A swap frees the old children that nothing holds any more, with all below them. Whatever hangs on
the same tree as the node itself is not freed (`node?_swapChildren`), so the node has the new
children and they look as they did (`shape?_swapChildren`).

* §1 what is not freed
* §2 the new children
* §3 the rest of the tree
-/

namespace CopyControl.Document

open Relation

variable {d d' : Document} {p x y : NodeId}

/-! ## §1 What is not freed -/

theorem node?_releaseIfOrphan (hw : d.WellFormed) {r : NodeId}
    (h : d.parent? r = none → ¬ d.AtOrAbove r y) : (d.releaseIfOrphan r).node? y = d.node? y := by
  unfold releaseIfOrphan
  split
  · rename_i hr
    rw [node?_releaseSubtree hw, if_neg]
    exact fun hm => h (Option.isNone_iff_eq_none.mp hr) (hw.mem_descendants_iff.mp hm).2
  · rfl

/-- A live node that is below none of the roots in a list is not freed with them. -/
theorem node?_foldl_releaseIfOrphan (hw : d.WellFormed) (hy : d.contains y) (l : List NodeId)
    (h : ∀ r ∈ l, d.parent? r = none → ¬ d.AtOrAbove r y) :
    (l.foldl releaseIfOrphan d).node? y = d.node? y := by
  induction l generalizing d with
  | nil => rfl
  | cons r l ih =>
    obtain ⟨hr, hl⟩ := List.forall_mem_cons.mp h
    obtain ⟨hw', hfree⟩ := releaseIfOrphan_spec hw r
    have hkeep := node?_releaseIfOrphan hw hr
    have hy' : (d.releaseIfOrphan r).contains y := by rwa [contains, hkeep]
    rw [List.foldl_cons, ih hw' hy' fun s hs hroot ha => ?_, hkeep]
    -- what is above `y` is live and was above it before
    have hlive := hw'.contains_of_atOrAbove ha hy'
    refine hl s hs ?_ (atOrAbove_mono (fun a b hab => ?_) ha)
    · rwa [parent?, ← hfree.node? hlive]
    · rwa [Link, parent?, ← hfree.node? (contains_of_parent? hab)]

section swap
variable {cs : List NodeId} (hw : d.WellFormed) (hp : d.IsElement p)
  (hcs : ∀ c ∈ cs, d.MayHold p c)
include hw hp hcs

omit hp in
/-- The way up from `p` is what it was. -/
theorem atOrAbove_regrouped {a : NodeId} (ha : (d.regrouped p cs).AtOrAbove a p) :
    d.AtOrAbove a p := by
  refine atOrAbove_of_new_link (s := (· ∈ cs)) (fun u v hl => ?_) (fun c hc => ?_) ha
  · rw [Link, parent?_regrouped fun c hc => (hcs c hc).1] at hl
    split at hl
    · rename_i hu
      exact .inr ⟨hu, (Option.some.inj hl).symm⟩
    · split at hl
      · simp at hl
      · exact .inl hl
  · exact ((mayHold_iff hw).mp (hcs c hc)).2

/-- What hangs on the tree of `p` is not freed: all that is below a node `a` that `p` is below. -/
theorem node?_swapChildren {a : NodeId} (hap : (d.regrouped p cs).AtOrAbove a p)
    (hay : (d.regrouped p cs).AtOrAbove a y) :
    (d.swapChildren p cs).node? y = (d.regrouped p cs).node? y := by
  obtain ⟨hwr, -⟩ := regrouped_spec hw hp hcs
  have hnotify := lookups_congr (slots_notify (d.regrouped p cs) ⟨p, cs, d.children p⟩)
  cases hy : (d.regrouped p cs).contains y with
  | false =>
    rcases (swapChildren_spec hw hp hcs).2.node?_or y with h | h
    · exact h
    · rw [h, contains_eq_false_iff.mp hy]
  | true =>
    rw [swapChildren_eq, node?_foldl_releaseIfOrphan (wellFormed_notify hwr _) ?_ _ ?_,
      node?_congr (slots_notify ..)]
    · rwa [hnotify.1]
    · intro r hr hroot hry
      rw [hnotify.2.2.1] at hroot
      rw [atOrAbove_congr hnotify.2.2.1] at hry
      -- `r` was a child of `p`, so it would be above itself
      refine hw.not_atOrAbove_of_link ((hw.parent_iff r p).mpr hr)
        (atOrAbove_regrouped hw hcs ?_)
      rcases atOrAbove_total hry hay with h | h
      · exact hap.trans h
      · rwa [← eq_of_atOrAbove_of_parent?_none h hroot]

/-! ## §2 The new children -/

/-- A node that is put in again goes last, so of several places in the list the last one counts. -/
theorem children_foldl_adopt :
    (cs.foldl (adopt p) d).children p = (d.children p).filter (· ∉ cs) ++ cs.dedup := by
  induction cs generalizing d with
  | nil => simp
  | cons c cs ih =>
    have hc := hcs c List.mem_cons_self
    have hp' : (adopt p d c).IsElement p := by
      simpa only [IsElement, element?, kind?_adopt] using hp
    have hch : (adopt p d c).children p = (d.children p).filter (· ≠ c) ++ [c] := by
      rw [children_adopt hw (contains_of_isElement hp), if_pos rfl, insertSibling_none]
    have hfilter : ((d.children p).filter (· ≠ c)).filter (· ∉ cs) =
        (d.children p).filter (· ∉ c :: cs) := by
      rw [List.filter_filter]
      refine List.filter_congr fun y _ => ?_
      simp [Bool.and_comm]
    rw [List.foldl_cons, ih (wellFormed_adopt hw hp hc) hp' fun x hx =>
      mayHold_adopt hw hp hc (hcs x (List.mem_cons_of_mem _ hx)), hch, List.filter_append, hfilter,
      List.append_assoc]
    by_cases hm : c ∈ cs
    · simp [hm]
    · simp [hm]

theorem children_regrouped : (d.regrouped p cs).children p = cs.dedup := by
  have hw' := wellFormed_cleared hw p
  have hp' : (d.cleared p).IsElement p := by
    simpa only [IsElement, element?, kind?_cleared] using hp
  have hnil : (d.cleared p).children p = [] := by rw [children_cleared, if_pos rfl]
  rw [regrouped, children_foldl_adopt hw' hp' fun c hc => mayHold_cleared hw (hcs c hc), hnil,
    List.filter_nil, List.nil_append]

theorem children_swapChildren : (d.swapChildren p cs).children p = cs.dedup := by
  rw [children, node?_swapChildren hw hp hcs .refl .refl, ← children,
    children_regrouped hw hp hcs]

/-! ## §3 The rest of the tree -/

variable (hroots : ∀ c ∈ cs, d.parent? c = none)
include hroots

/-- If roots are put below `p`, only `p` has other children. -/
theorem touches_regrouped : d.Touches (d.regrouped p cs) p := fun y hy => by
  refine ⟨by rw [kind?_regrouped], ?_⟩
  rw [(regrouped_spec hw hp hcs).2 y hy]
  refine List.filter_eq_self.mpr fun c hc => ?_
  have : c ∉ cs := fun hm => by simpa [hroots c hm] using (hw.parent_iff c y).mpr hc
  simpa using this

/-- The node holds the new children, and they look as they did. -/
theorem shape?_swapChildren {k : NodeKind} (hk : d.kind? p = some k) (hn : cs.Nodup)
    {ts : List Tree} (hd : d.Depicts cs ts) :
    (d.swapChildren p cs).shape? p = some (.node default k ts) := by
  obtain ⟨hwr, -⟩ := regrouped_spec hw hp hcs
  have hshape : (d.regrouped p cs).shape? p = some (.node default k ts) := by
    refine shape?_of_depicts hwr (by rw [kind?_regrouped, hk]) ?_
    rw [children_regrouped hw hp hcs, hn.dedup]
    exact hd.congr fun c hc => (touches_regrouped hw hp hcs hroots).shape? hw hwr
      ((mayHold_iff hw).mp (hcs c hc)).2
  rw [← hshape]
  refine shape?_congr hwr (swapChildren_spec hw hp hcs).1 fun y hy => ?_
  have hnode := node?_swapChildren hw hp hcs .refl hy
  exact ⟨by rw [kind?, hnode, kind?], by rw [children, hnode, children]⟩

end swap

end CopyControl.Document
