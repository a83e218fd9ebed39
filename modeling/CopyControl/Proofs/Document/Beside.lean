import CopyControl.Proofs.Document.Rooted

/-!
What trees beside a document come to.

Trees that have been made beside a document do not show in it (`Beside.outerHtml`), but each of
their nodes is counted (`Beside.nodeCount_eq`). More trees can be made beside the document and the
first ones (`Beside.trans`), and these then look as they did (`Depicts.beside`).

* §1 trees after trees
* §2 what shows
* §3 what is counted
-/

namespace CopyControl.Document

open Relation

variable {d d' d'' : Document} {ts us : List NodeId} {trees : List Tree} {x : NodeId}

/-! ## §1 Trees after trees -/

/-- What was above a node is above it still. -/
theorem Beside.atOrAbove (h : d.Beside d' ts) {a : NodeId} (ha : d.AtOrAbove a x) :
    d'.AtOrAbove a x :=
  atOrAbove_mono (fun y _ hl => (h.parent? y (contains_of_parent? hl)).trans hl) ha

/-- Trees beside trees beside a document are all beside the document. -/
theorem Beside.trans (h : d.Beside d' ts) (h' : d'.Beside d'' us) : d.Beside d'' (ts ++ us) where
  wellFormed := h'.wellFormed
  kind? x hx := (h'.kind? x (h.live hx)).trans (h.kind? x hx)
  parent? x hx := (h'.parent? x (h.live hx)).trans (h.parent? x hx)
  children x hx := (h'.children x (h.live hx)).trans (h.children x hx)
  listeners := h'.listeners.trans h.listeners
  untold o ho := by
    have hold := h.untold o ho
    refine hold.trans (h'.untold o fun g hg => h.live (ho g ?_))
    rwa [hold.registrations] at hg
  nodup := by
    refine List.nodup_append.mpr ⟨h.nodup, h'.nodup, fun t ht u hu => ?_⟩
    exact ne_of_live_of_dead (h.root t ht).2.1 (h'.root u hu).1
  root t ht := by
    rcases List.mem_append.mp ht with ht | ht
    · obtain ⟨hdead, hlive, hroot⟩ := h.root t ht
      exact ⟨hdead, h'.live hlive, (h'.parent? t hlive).trans hroot⟩
    · obtain ⟨hdead, hrest⟩ := h'.root t ht
      refine ⟨?_, hrest⟩
      rw [Bool.eq_false_iff]
      exact fun hlive => absurd (h.live hlive) (by simp [hdead])
  covered x hx := by
    rcases h'.covered x hx with hx | ⟨u, hu, hux⟩
    · refine (h.covered x hx).imp id fun ⟨t, ht, htx⟩ => ?_
      exact ⟨t, List.mem_append_left _ ht, h'.atOrAbove htx⟩
    · exact .inr ⟨u, List.mem_append_right _ hu, hux⟩

/-! ## §2 What shows -/

/-- What was live looks as it did. -/
theorem Beside.shape? (hw : d.WellFormed) (h : d.Beside d' ts) (hx : d.contains x) :
    d'.shape? x = d.shape? x := by
  refine shape?_congr hw h.wellFormed fun y hy => ?_
  have hlive := hw.contains_of_mem_descendants (hw.mem_descendants_iff.mpr ⟨hx, hy⟩)
  exact ⟨h.kind? y hlive, h.children y hlive⟩

theorem Beside.outerHtml (hw : d.WellFormed) (h : d.Beside d' ts) (hx : d.contains x) :
    d'.outerHtml x = d.outerHtml x := by
  rw [outerHtml_eq, outerHtml_eq, h.shape? hw hx]

theorem Depicts.beside (hd : d.Depicts us trees) (hw : d.WellFormed) (h : d.Beside d' ts)
    (hus : ∀ u ∈ us, d.contains u) : d'.Depicts us trees :=
  hd.congr fun u hu => h.shape? hw (hus u hu)

/-! ## §3 What is counted -/

/-- Each node below the nodes that are drawn is one of the drawing. -/
theorem Depicts.length_descendants (hw : d.WellFormed) (hd : d.Depicts ts trees) :
    (ts.flatMap d.descendants).length = (Tree.kindsOf trees).length := by
  induction ts generalizing trees with
  | nil =>
    obtain rfl : trees = [] := List.map_eq_nil_iff.mp hd.symm
    rfl
  | cons t ts ih =>
    cases trees with
    | nil => simp [Depicts] at hd
    | cons tree trees =>
      obtain ⟨ht, hts⟩ := depicts_cons.mp hd
      have hone := congrArg List.length (map_kind?_descendants hw ht)
      rw [List.length_map, List.length_map] at hone
      rw [List.flatMap_cons, List.length_append, hone, ih hts, Tree.kindsOf, List.length_append]

/-- What is live is what was live, and what is at or below the new roots. -/
theorem Beside.liveNodes_perm (hw : d.WellFormed) (h : d.Beside d' ts) :
    d'.liveNodes.Perm (d.liveNodes ++ ts.flatMap d'.descendants) := by
  have hnew : ∀ t ∈ ts, ∀ x ∈ d'.descendants t, d.contains x = false := fun t ht x hx =>
    h.dead_of_atOrAbove hw ht (h.wellFormed.mem_descendants_iff.mp hx).2
  have hnodup : (d.liveNodes ++ ts.flatMap d'.descendants).Nodup := by
    refine List.nodup_append.mpr ⟨nodup_liveNodes d, List.nodup_flatMap.mpr ⟨?_, ?_⟩, ?_⟩
    · exact fun t _ => h.wellFormed.nodup_descendants t
    · refine h.nodup.pairwise_of_forall_ne fun t ht u hu hne x hxt hxu => hne ?_
      exact h.eq_of_atOrAbove ht hu (h.wellFormed.mem_descendants_iff.mp hxt).2
        (h.wellFormed.mem_descendants_iff.mp hxu).2
    · intro x hx y hy
      obtain ⟨t, ht, hty⟩ := List.mem_flatMap.mp hy
      exact ne_of_live_of_dead (mem_liveNodes_iff.mp hx) (hnew t ht y hty)
  refine (List.perm_ext_iff_of_nodup (nodup_liveNodes d') hnodup).mpr fun x => ?_
  rw [mem_liveNodes_iff, List.mem_append, mem_liveNodes_iff, List.mem_flatMap]
  constructor
  · refine fun hx => (h.covered x hx).imp id fun ⟨t, ht, htx⟩ => ?_
    exact ⟨t, ht, h.wellFormed.mem_descendants_iff.mpr ⟨(h.root t ht).2.1, htx⟩⟩
  · rintro (hx | ⟨t, -, hx⟩)
    · exact h.live hx
    · exact h.wellFormed.contains_of_mem_descendants hx

/-- The nodes of the trees are counted in addition. -/
theorem Beside.nodeCount_eq (hw : d.WellFormed) (h : d.Beside d' ts) (hd : d'.Depicts ts trees) :
    d'.nodeCount = d.nodeCount + (Tree.kindsOf trees).length := by
  rw [Document.nodeCount_eq h.wellFormed.free, Document.nodeCount_eq hw.free,
    (h.liveNodes_perm hw).length_eq, List.length_append, hd.length_descendants h.wellFormed]

end CopyControl.Document
