import CopyControl.Proofs.Document.Swap

/-!
Documents in which nothing is loose.

A document is rooted if no live node but the root is without a parent. Then every live node is
connected (`Rooted.isConnected`), so all that is counted is what hangs on the root
(`Rooted.nodeCount_eq`). Trees beside a rooted document are all that is loose, and if they become
the children of a node, then nothing is: what is taken out of the node is freed
(`rooted_swapChildren`).

What is below a node, and what it is, can be read off its shape (`map_kind?_descendants`), so nodes
of the same shape have as many nodes below them.

* §1 upwards to a node without a parent
* §2 rooted documents
* §3 other children
* §4 the nodes of a shape
-/

namespace CopyControl

open Relation

namespace Document

variable {d d' : Document} {x p : NodeId}

/-! ## §1 Upwards to a node without a parent -/

/-- Induction from the roots: what holds of a node if it holds of its parent holds of all. -/
theorem WellFormed.parent_induction (hw : d.WellFormed) {P : NodeId → Prop}
    (h : ∀ x, (∀ p, d.Link x p → P p) → P x) (x : NodeId) : P x := by
  generalize hk : (d.inclusiveAncestors x).length = k
  induction k using Nat.strongRecOn generalizing x with
  | _ k ih =>
    refine h x fun p hp => ih _ ?_ p rfl
    rw [← hk, hw.inclusiveAncestors_of_link hp, List.length_cons]
    omega

/-- The way up from a live node ends at a live node. -/
theorem WellFormed.exists_top (hw : d.WellFormed) (hx : d.contains x) :
    ∃ t, d.contains t ∧ d.AtOrAbove t x ∧ d.parent? t = none := by
  induction x using hw.parent_induction with
  | h x ih =>
    cases hp : d.parent? x with
    | none => exact ⟨x, hx, .refl, hp⟩
    | some p =>
      obtain ⟨t, hlive, ht, htop⟩ := ih p hp (hw.contains_of_link hp)
      exact ⟨t, hlive, .head hp ht, htop⟩

/-! ## §2 Rooted documents -/

/-- Of the live nodes, only the root and those in `ts` may be without a parent. -/
def Loose (d : Document) (ts : List NodeId) : Prop :=
  ∀ x, d.contains x → d.parent? x = none → x = d.root ∨ x ∈ ts

/-- Every live node but the root has a parent. -/
def Rooted (d : Document) : Prop :=
  ∀ x, d.contains x → d.parent? x = none → x = d.root

theorem rooted_iff_loose_nil : d.Rooted ↔ d.Loose [] := by
  simp [Rooted, Loose]

theorem Rooted.congr (h : d.Rooted) (hlive : ∀ x, d'.contains x → d.contains x)
    (hparent : d'.parent? = d.parent?) (hroot : d'.root = d.root) : d'.Rooted := fun x hx hp => by
  rw [hparent] at hp
  rw [hroot]
  exact h x (hlive x hx) hp

/-- Every live node of a rooted document is connected. -/
theorem Rooted.isConnected (h : d.Rooted) (hw : d.WellFormed) (hx : d.contains x) :
    d.isConnected x := by
  obtain ⟨t, hlive, ht, htop⟩ := hw.exists_top hx
  rw [h t hlive htop] at ht
  exact hw.isConnected_iff.mpr ⟨hx, ht⟩

theorem Rooted.mem_descendants_iff (h : d.Rooted) (hw : d.WellFormed) :
    x ∈ d.descendants d.root ↔ d.contains x := by
  refine ⟨hw.contains_of_mem_descendants, fun hx => ?_⟩
  obtain ⟨-, hax⟩ := hw.isConnected_iff.mp (h.isConnected hw hx)
  exact hw.mem_descendants_iff.mpr ⟨hw.contains_of_atOrAbove hax hx, hax⟩

/-- What is counted is what hangs on the root. -/
theorem Rooted.nodeCount_eq (h : d.Rooted) (hw : d.WellFormed) :
    d.nodeCount = (d.descendants d.root).length := by
  rw [Document.nodeCount_eq hw.free]
  refine ((List.perm_ext_iff_of_nodup (nodup_liveNodes d) (hw.nodup_descendants d.root)).mpr
    fun x => ?_).length_eq
  rw [mem_liveNodes_iff, h.mem_descendants_iff hw]

/-! ### Steps -/

theorem Loose.set {ts : List NodeId} {k : NodeKind} (h : d.Loose ts) (hs : d.SetsKind d' x k)
    (hroot : d'.root = d.root) : d'.Loose (x :: ts) := fun y hy hp => by
  rw [hs.parent?] at hp
  rw [hroot]
  rcases (hs.contains y).mp hy with rfl | hy
  · exact .inr List.mem_cons_self
  · exact (h y hy hp).imp id (List.mem_cons_of_mem _)

theorem Loose.move {ts : List NodeId} {c : NodeId} {r : Option NodeId} (h : d.Loose (c :: ts))
    (hm : d.Moves d' p c r) (hroot : d'.root = d.root) : d'.Loose ts := fun y hy hp => by
  rw [contains_eq_of_kind? (congrFun hm.kind? y)] at hy
  rw [hm.parent?] at hp
  split at hp
  · simp at hp
  · next hne =>
    rw [hroot]
    exact (h y hy hp).imp id fun hmem => (List.mem_cons.mp hmem).resolve_left hne

/-- Trees beside a rooted document are all that is loose. -/
theorem Rooted.beside {ts : List NodeId} (h : d.Rooted) (hb : d.Beside d' ts)
    (hroot : d'.root = d.root) : d'.Loose ts := fun x hx hp => by
  rw [hroot]
  rcases hb.covered x hx with hold | ⟨t, ht, hax⟩
  · rw [hb.parent? x hold] at hp
    exact .inl (h x hold hp)
  · exact .inr (eq_of_atOrAbove_of_parent?_none hax hp ▸ ht)

/-! ## §3 Other children -/

/-- Of the nodes in a list, only those that some parent holds are left. -/
theorem parent?_foldl_releaseIfOrphan (hw : d.WellFormed) {l : List NodeId} (hx : x ∈ l)
    (hlive : (l.foldl releaseIfOrphan d).contains x) :
    (l.foldl releaseIfOrphan d).parent? x ≠ none := by
  induction l generalizing d with
  | nil => simp at hx
  | cons r l ih =>
    obtain ⟨hw', hfree⟩ := releaseIfOrphan_spec hw r
    rw [List.foldl_cons] at hlive ⊢
    by_cases hxl : x ∈ l
    · exact ih hw' hxl hlive
    obtain rfl : x = r := (List.mem_cons.mp hx).resolve_right hxl
    obtain ⟨-, hrest⟩ := foldl_releaseIfOrphan_spec hw' l
    have hlive' : (d.releaseIfOrphan x).contains x := by
      rwa [contains, ← hrest.node? hlive]
    rw [parent?, hrest.node? hlive, ← parent?]
    unfold releaseIfOrphan at hlive' ⊢
    split at hlive'
    · -- it was freed, with all below it
      next hnone =>
      have hself : x ∈ d.descendants x := by
        by_contra hnot
        have hd : d.contains x := by
          rwa [contains, node?_releaseSubtree hw, if_neg hnot] at hlive'
        exact hnot (hw.mem_descendants_iff.mpr ⟨hd, .refl⟩)
      rw [contains, node?_releaseSubtree hw, if_pos hself] at hlive'
      simp at hlive'
    · next hsome =>
      rw [if_neg hsome]
      exact fun hnone => hsome (by rw [hnone]; rfl)

/-- If all that is loose becomes the children of a node, then nothing is loose. -/
theorem rooted_swapChildren {cs : List NodeId} (h : d.Loose cs) (hw : d.WellFormed)
    (hp : d.IsElement p) (hcs : ∀ c ∈ cs, d.MayHold p c) :
    (d.swapChildren p cs).Rooted := by
  intro x hx hnone
  obtain ⟨-, hfree⟩ := swapChildren_spec hw hp hcs
  have hroot : (d.swapChildren p cs).root = d.root :=
    congrArg (·.1.1) (anchors_swapChildren d p cs)
  have hparent : (d.regrouped p cs).parent? x = none := by
    rw [parent?, ← hfree.node? hx, ← parent?, hnone]
  have hlive : d.contains x := by
    have hx' := hx
    rwa [contains, hfree.node? hx, ← contains,
      contains_eq_of_kind? (congrFun (kind?_regrouped d p cs) x)] at hx'
  -- an old child would have been freed
  have hold : x ∉ d.children p := fun hmem => by
    have hwr := wellFormed_notify (regrouped_spec hw hp hcs).1 ⟨p, cs, d.children p⟩
    rw [swapChildren_eq] at hx hnone
    exact parent?_foldl_releaseIfOrphan hwr hmem hx hnone
  rw [parent?_regrouped fun c hc => (hcs c hc).1] at hparent
  split at hparent
  · simp at hparent
  · next hnew =>
    rw [hroot]
    exact (h x hlive hparent).resolve_right hnew

/-! ## §4 The nodes of a shape -/

end Document

mutual

/-- What the nodes of a tree are, in document order. -/
def Tree.kinds : Tree → List NodeKind
  | .node _ kind children => kind :: Tree.kindsOf children

def Tree.kindsOf : List Tree → List NodeKind
  | [] => []
  | t :: ts => t.kinds ++ Tree.kindsOf ts

end

namespace Document

variable {d d' : Document} {x : NodeId} {t : Tree} {ts : List Tree}

/-- Each of some nodes that have been drawn is drawn by one of the trees. -/
theorem Depicts.shape?_of_mem {xs : List NodeId} (h : d.Depicts xs ts) (hx : x ∈ xs) :
    ∃ t ∈ ts, d.shape? x = some t := by
  obtain ⟨t, ht, heq⟩ := List.mem_map.mp (h ▸ List.mem_map_of_mem hx)
  exact ⟨t, ht, heq.symm⟩

/-- The nodes at and below a node are those of its shape, in the same order. -/
theorem map_kind?_descendants (hw : d.WellFormed) (ht : d.shape? x = some t) :
    (d.descendants x).map d.kind? = t.kinds.map some := by
  induction x using hw.children_induction generalizing t with
  | h x ih =>
    obtain ⟨n, k, ts⟩ := t
    obtain ⟨hk, hts⟩ := of_shape? hw ht
    have hbelow : ((d.children x).flatMap d.descendants).map d.kind? =
        (Tree.kindsOf ts).map some := by
      clear ht
      generalize d.children x = cs at hts ih
      induction cs generalizing ts with
      | nil =>
        obtain rfl : ts = [] := List.map_eq_nil_iff.mp hts.symm
        rfl
      | cons c cs ihc =>
        cases ts with
        | nil => simp [Depicts] at hts
        | cons u us =>
          obtain ⟨hu, hus⟩ := depicts_cons.mp hts
          rw [List.flatMap_cons, List.map_append, ih c List.mem_cons_self hu,
            ihc us hus fun y hy => ih y (List.mem_cons_of_mem _ hy), Tree.kindsOf, List.map_append]
    rw [hw.descendants_eq (contains_of_kind? hk), List.map_cons, hk, hbelow, Tree.kinds,
      List.map_cons]

/-- Nodes with the same nodes below them, each with the same children, have the same listing. -/
theorem descendants_congr (hw : d.WellFormed) (hw' : d'.WellFormed) (hx : d.contains x)
    (hx' : d'.contains x) (h : ∀ y, d.AtOrAbove x y → d'.children y = d.children y) :
    d'.descendants x = d.descendants x := by
  induction x using hw.children_induction with
  | h x ih =>
    have hch := h x .refl
    rw [hw.descendants_eq hx, hw'.descendants_eq hx', hch]
    congr 1
    refine List.flatMap_congr fun c hc => ?_
    refine ih c hc (hw.contains_of_child hc) (hw'.contains_of_child (hch ▸ hc)) fun y hy => ?_
    exact h y (.tail hy ((hw.parent_iff c x).mpr hc))

end Document

end CopyControl
