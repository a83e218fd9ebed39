import CopyControl.Proofs.Document.Forest

/-!
Document order, and siblings in it.

A walk downwards meets the children of a node in their order, with other nodes in between. So
what a search in document order finds first among siblings is the first of them
(`filter_parent?_descendants`).
-/

namespace CopyControl.Document

open Relation

variable {d : Document} {id p : NodeId}

/-- At or above a node are the node itself and what is at or above one of its children. -/
theorem WellFormed.atOrAbove_iff (hw : d.WellFormed) {a n : NodeId} :
    d.AtOrAbove a n ↔ n = a ∨ ∃ c ∈ d.children a, d.AtOrAbove c n := by
  constructor
  · intro h
    rcases ReflTransGen.cases_tail h with rfl | ⟨c, hc, hl⟩
    · exact .inl rfl
    · exact .inr ⟨c, (hw.parent_iff c a).mp hl, hc⟩
  · rintro (rfl | ⟨c, hc, h⟩)
    · exact .refl
    · exact .tail h ((hw.parent_iff c a).mpr hc)

/-- A listing per member that is empty for all members but one is the listing of that one. -/
theorem flatMap_ite_eq {α β : Type} [DecidableEq α] {l : List α} {a : α} (hn : l.Nodup)
    (ha : a ∈ l) (m : List β) : (l.flatMap fun x => if x = a then m else []) = m := by
  induction l with
  | nil => simp at ha
  | cons b l ih =>
    obtain ⟨hb, hn⟩ := List.nodup_cons.mp hn
    rw [List.flatMap_cons]
    by_cases hba : b = a
    · have hrest : (l.flatMap fun x => if x = a then m else []) = [] := by
        refine List.flatMap_eq_nil_iff.mpr fun x hx => if_neg ?_
        rintro rfl
        exact hb (hba ▸ hx)
      rw [if_pos hba, hrest, List.append_nil]
    · rw [if_neg hba, List.nil_append]
      exact ih hn (List.mem_of_ne_of_mem (Ne.symm hba) ha)

/-- What a walk meets of the children of `p`: all of them in their order, if it starts at or above
`p`, and else at most the node it starts from. -/
theorem WellFormed.filter_parent?_descendants (hw : d.WellFormed) (p : NodeId) {id : NodeId}
    (hid : d.contains id) :
    (d.descendants id).filter (fun x => d.parent? x = some p) =
      if d.isInclusiveAncestor id p then d.children p
      else if d.parent? id = some p then [id] else [] := by
  classical
  induction id using hw.children_induction with
  | _ id ih =>
    have hrest : ((d.children id).flatMap d.descendants).filter (fun x => d.parent? x = some p) =
        (d.children id).flatMap fun c => if d.isInclusiveAncestor c p then d.children p
          else if p = id then [c] else [] := by
      rw [List.filter_flatMap]
      refine List.flatMap_congr fun c hc => ?_
      rw [ih c hc (hw.contains_of_child hc), (hw.parent_iff c id).mpr hc]
      simp only [Option.some.injEq, @eq_comm _ id]
    rw [hw.descendants_eq hid, List.filter_cons, hrest]
    simp only [hw.isInclusiveAncestor_iff]
    by_cases hp : p = id
    · -- the walk starts from `p`
      subst hp
      have hno : ∀ c ∈ d.children p, ¬ d.AtOrAbove c p := fun c hc =>
        hw.not_atOrAbove_of_link ((hw.parent_iff c p).mpr hc)
      have hself : d.parent? p ≠ some p := hw.not_link_self p
      rw [if_neg (by simpa using hself), if_pos (show d.AtOrAbove p p from .refl)]
      calc
        _ = (d.children p).flatMap fun c => [c] :=
          List.flatMap_congr fun c hc => by rw [if_neg (hno c hc), if_pos rfl]
        _ = d.children p := List.flatMap_singleton' _
    simp only [if_neg hp]
    by_cases ha : d.AtOrAbove id p
    · -- exactly one child of `id` is at or above `p`
      obtain ⟨c₀, hc₀, hc₀p⟩ := (hw.atOrAbove_iff.mp ha).resolve_left hp
      have hpar : d.parent? id ≠ some p := fun h => hw.not_atOrAbove_of_link h ha
      rw [if_neg (by simpa using hpar), if_pos ha]
      refine Eq.trans (List.flatMap_congr fun c hc => ?_)
        (flatMap_ite_eq (hw.children_nodup id) hc₀ (d.children p))
      by_cases hcc : c = c₀
      · rw [if_pos hcc, if_pos (hcc ▸ hc₀p)]
      · rw [if_neg hcc, if_neg fun h => hcc (hw.eq_of_atOrAbove_siblings
          ((hw.parent_iff c id).mpr hc) ((hw.parent_iff c₀ id).mpr hc₀) h hc₀p)]
    · have hnil : ((d.children id).flatMap fun c =>
          if d.AtOrAbove c p then d.children p else []) = [] :=
        List.flatMap_eq_nil_iff.mpr fun c hc =>
          if_neg fun h => ha (hw.atOrAbove_iff.mpr (.inr ⟨c, hc, h⟩))
      rw [if_neg ha, hnil]
      by_cases hpar : d.parent? id = some p <;> simp [hpar]

end CopyControl.Document
