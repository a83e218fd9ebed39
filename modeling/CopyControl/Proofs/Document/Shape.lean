import CopyControl.Document.Html
import CopyControl.Proofs.Document.Steps

/-!
What a document looks like apart from its handles.

`d.shape? x` is the tree at `x` with the names of the nodes taken out. All that is written or read
out of a document below a node depends on the node's shape only: its HTML (`outerHtml_eq`) and its
text (`textContent_eq`, `innerText_eq`). The shape of a node is what it is together with the shapes
of its children (`shape?_eq`), so a change of one node is seen in the shapes of those above it and
in no others (`Touches.shape?`).

* §1 trees without names
* §2 the tree at a node
* §3 shapes
* §4 shapes of several nodes
* §5 changes of one node
-/

namespace CopyControl

/-! ## §1 Trees without names -/

mutual

/-- The tree, each node under the same handle. -/
def Tree.unnamed : Tree → Tree
  | .node _ kind children => .node default kind (Tree.unnamedAll children)

def Tree.unnamedAll : List Tree → List Tree
  | [] => []
  | t :: ts => t.unnamed :: Tree.unnamedAll ts

end

namespace Tree

theorem unnamedAll_eq (ts : List Tree) : unnamedAll ts = ts.map unnamed := by
  induction ts with
  | nil => rfl
  | cons t ts ih => rw [unnamedAll, ih, List.map_cons]

mutual

theorem html_unnamed : (t : Tree) → t.unnamed.html = t.html
  | .node _ kind children => by
    cases kind <;> simp [unnamed, html, htmls_unnamed children]

theorem htmls_unnamed : (ts : List Tree) → Tree.htmls (unnamedAll ts) = Tree.htmls ts
  | [] => rfl
  | t :: ts => by rw [unnamedAll, Tree.htmls, html_unnamed t, htmls_unnamed ts, Tree.htmls]

end

mutual

theorem textContent_unnamed : (t : Tree) → t.unnamed.textContent = t.textContent
  | .node _ kind children => by
    cases kind <;> simp [unnamed, textContent, textContents_unnamed children]

theorem textContents_unnamed : (ts : List Tree) →
    Tree.textContents (unnamedAll ts) = Tree.textContents ts
  | [] => rfl
  | t :: ts => by
    rw [unnamedAll, Tree.textContents, textContent_unnamed t, textContents_unnamed ts,
      Tree.textContents]

end

mutual

theorem innerText_unnamed : (t : Tree) → t.unnamed.innerText = t.innerText
  | .node _ kind children => by
    cases kind <;> simp [unnamed, innerText, innerTexts_unnamed children]

theorem innerTexts_unnamed : (ts : List Tree) → Tree.innerTexts (unnamedAll ts) = Tree.innerTexts ts
  | [] => rfl
  | t :: ts => by
    rw [unnamedAll, Tree.innerTexts, innerText_unnamed t, innerTexts_unnamed ts, Tree.innerTexts]

end

end Tree

namespace Document

open Relation

variable {d d' : Document} {x : NodeId}

/-! ## §2 The tree at a node -/

theorem treeWithin_of_dead (hx : d.contains x = false) (n : Nat) : d.treeWithin n x = none := by
  cases n with
  | zero => rfl
  | succ n => rw [treeWithin, contains_eq_false_iff.mp hx, Option.map_none]

/-- A tree that is cut off below the last level that there can be is not cut off. -/
theorem treeWithin_eq (hw : d.WellFormed) {n m : Nat}
    (hn : d.slots.size + 1 ≤ n + (d.inclusiveAncestors x).length)
    (hm : d.slots.size + 1 ≤ m + (d.inclusiveAncestors x).length) :
    d.treeWithin n x = d.treeWithin m x := by
  rcases hw.length_inclusiveAncestors x with hlt | ⟨hdead, -⟩
  swap
  · rw [treeWithin_of_dead hdead, treeWithin_of_dead hdead]
  induction n generalizing m x with
  | zero => omega
  | succ n ih =>
    obtain ⟨m, rfl⟩ : ∃ m', m = m' + 1 := ⟨m - 1, by omega⟩
    rw [treeWithin, treeWithin]
    cases hnode : d.node? x with
    | none => rfl
    | some node =>
      have hch : d.children x = node.children := by simp [children, hnode]
      simp only [Option.map_some]
      congr 2
      refine List.filterMap_congr fun c hc => ?_
      have hl := hw.inclusiveAncestors_of_link ((hw.parent_iff c x).mpr (hch ▸ hc))
      rcases hw.length_inclusiveAncestors c with hltc | ⟨hdead, -⟩
      · rw [hl, List.length_cons] at hltc
        refine ih ?_ ?_ ?_ <;> rw [hl, List.length_cons] <;> omega
      · rw [treeWithin_of_dead hdead, treeWithin_of_dead hdead]

/-- The tree at a live node is the node with the trees at its children. -/
theorem tree?_eq (hw : d.WellFormed) {node : Node} (hnode : d.node? x = some node) :
    d.tree? x = some (.node x node.kind (node.children.filterMap d.tree?)) := by
  have hlive : d.contains x := contains_iff.mpr ⟨node, hnode⟩
  have hch : d.children x = node.children := by simp [children, hnode]
  have hlt := index_lt_of_contains hlive
  obtain ⟨n, hn⟩ : ∃ n, d.slots.size = n + 1 := ⟨d.slots.size - 1, by omega⟩
  rw [tree?, hn, treeWithin, hnode, Option.map_some]
  congr 2
  refine List.filterMap_congr fun c hc => ?_
  rw [tree?]
  have hl := hw.inclusiveAncestors_of_link ((hw.parent_iff c x).mpr (hch ▸ hc))
  have hx : 0 < (d.inclusiveAncestors x).length :=
    List.length_pos_of_mem (hw.mem_inclusiveAncestors.mpr .refl)
  refine treeWithin_eq hw ?_ ?_ <;> rw [hl, List.length_cons] <;> omega

theorem tree?_of_dead (hx : d.contains x = false) : d.tree? x = none :=
  treeWithin_of_dead hx _

/-! ## §3 Shapes -/

/-- The tree at a node without the names of the nodes. -/
def shape? (d : Document) (x : NodeId) : Option Tree :=
  (d.tree? x).map Tree.unnamed

/-- The shapes at the children of a node. -/
def shapesBelow (d : Document) (x : NodeId) : List Tree :=
  (d.children x).filterMap d.shape?

theorem shape?_eq (hw : d.WellFormed) {k : NodeKind} (hk : d.kind? x = some k) :
    d.shape? x = some (.node default k (d.shapesBelow x)) := by
  obtain ⟨node, hnode, rfl⟩ := Option.map_eq_some_iff.mp hk
  rw [shape?, tree?_eq hw hnode, Option.map_some, Tree.unnamed, Tree.unnamedAll_eq,
    List.map_filterMap, shapesBelow, children, hnode]
  rfl

theorem shape?_of_dead (hx : d.contains x = false) : d.shape? x = none := by
  rw [shape?, tree?_of_dead hx, Option.map_none]

theorem outerHtml_eq (d : Document) (x : NodeId) :
    d.outerHtml x = .ofList (((d.shape? x).map Tree.html).getD []) := by
  rw [outerHtml, shape?, Option.map_map]
  simp only [Function.comp_def, Tree.html_unnamed]

theorem textContent_eq (d : Document) (x : NodeId) :
    d.textContent x = .ofList (((d.shape? x).map Tree.textContent).getD []) := by
  rw [textContent, shape?, Option.map_map]
  simp only [Function.comp_def, Tree.textContent_unnamed]

theorem innerText_eq (d : Document) (x : NodeId) :
    d.innerText x = .ofList (((d.shape? x).map Tree.innerText).getD []) := by
  rw [innerText, shape?, Option.map_map]
  simp only [Function.comp_def, Tree.innerText_unnamed]

/-- The shape of a node does not change if nothing at or below it does. -/
theorem shape?_congr (hw : d.WellFormed) (hw' : d'.WellFormed)
    (h : ∀ y, d.AtOrAbove x y → d'.kind? y = d.kind? y ∧ d'.children y = d.children y) :
    d'.shape? x = d.shape? x := by
  induction x using hw.children_induction with
  | h x ih =>
    obtain ⟨hkind, hch⟩ := h x .refl
    cases hk : d.kind? x with
    | none =>
      rw [shape?_of_dead (kind?_eq_none_iff.mp hk),
        shape?_of_dead (kind?_eq_none_iff.mp (hkind.trans hk))]
    | some k =>
      rw [shape?_eq hw hk, shape?_eq hw' (hkind.trans hk), shapesBelow, shapesBelow, hch]
      congr 2
      exact List.filterMap_congr fun c hc => ih c hc fun y hy =>
        h y (.tail hy ((hw.parent_iff c x).mpr hc))

/-! ## §4 Shapes of several nodes -/

/-- The nodes are live, and the trees are their shapes. -/
def Depicts (d : Document) (xs : List NodeId) (ts : List Tree) : Prop :=
  xs.map d.shape? = ts.map some

section Depicts
variable {xs ys : List NodeId} {ts us : List Tree} {t : Tree}

theorem depicts_nil (d : Document) : d.Depicts [] [] := rfl

theorem depicts_cons : d.Depicts (x :: xs) (t :: ts) ↔ d.shape? x = some t ∧ d.Depicts xs ts := by
  simp [Depicts]

theorem Depicts.append (h : d.Depicts xs ts) (h' : d.Depicts ys us) :
    d.Depicts (xs ++ ys) (ts ++ us) := by
  rw [Depicts, List.map_append, h, h', List.map_append]

theorem Depicts.reverse (h : d.Depicts xs ts) : d.Depicts xs.reverse ts.reverse := by
  rw [Depicts, List.map_reverse, h, List.map_reverse]

theorem Depicts.filterMap_eq (h : d.Depicts xs ts) : xs.filterMap d.shape? = ts := by
  have hid : (xs.map d.shape?).filterMap id = xs.filterMap d.shape? := by
    rw [List.filterMap_map, Function.id_comp]
  rw [← hid, h, List.filterMap_map, Function.id_comp, List.filterMap_some]

theorem Depicts.congr (h : d.Depicts xs ts) (hs : ∀ x ∈ xs, d'.shape? x = d.shape? x) :
    d'.Depicts xs ts :=
  (List.map_congr_left hs).trans h

/-- The children of a live node have shapes. -/
theorem depicts_children (hw : d.WellFormed) (x : NodeId) :
    d.Depicts (d.children x) (d.shapesBelow x) := by
  have hlive : ∀ c ∈ d.children x, ∃ t, d.shape? c = some t := fun c hc => by
    obtain ⟨k, hk⟩ :=
      Option.isSome_iff_exists.mp ((kind?_isSome d c).trans (hw.contains_of_child hc))
    exact ⟨_, shape?_eq hw hk⟩
  rw [shapesBelow]
  generalize d.children x = cs at hlive ⊢
  induction cs with
  | nil => exact depicts_nil d
  | cons c cs ih =>
    obtain ⟨t, ht⟩ := hlive c List.mem_cons_self
    rw [List.filterMap_cons_some ht]
    exact depicts_cons.mpr ⟨ht, ih fun c hc => hlive c (List.mem_cons_of_mem _ hc)⟩

theorem shape?_of_depicts (hw : d.WellFormed) {k : NodeKind} (hk : d.kind? x = some k)
    (h : d.Depicts (d.children x) ts) : d.shape? x = some (.node default k ts) := by
  rw [shape?_eq hw hk, shapesBelow, h.filterMap_eq]

/-- A node that has a shape is what the shape says, and so are its children. -/
theorem of_shape? (hw : d.WellFormed) {n : NodeId} {k : NodeKind}
    (h : d.shape? x = some (.node n k ts)) : d.kind? x = some k ∧ d.Depicts (d.children x) ts := by
  cases hk : d.kind? x with
  | none => simp [shape?_of_dead (kind?_eq_none_iff.mp hk)] at h
  | some k' =>
    rw [shape?_eq hw hk] at h
    obtain ⟨-, rfl, rfl⟩ := Tree.node.inj (Option.some.inj h)
    exact ⟨rfl, depicts_children hw x⟩

theorem shape?_eq_leaf_iff (hw : d.WellFormed) {k : NodeKind} :
    d.shape? x = some (.node default k []) ↔ d.kind? x = some k ∧ d.children x = [] := by
  constructor
  · intro h
    obtain ⟨hk, hc⟩ := of_shape? hw h
    exact ⟨hk, List.map_eq_nil_iff.mp hc⟩
  · rintro ⟨hk, hc⟩
    exact shape?_of_depicts hw hk (by rw [hc]; exact depicts_nil d)

end Depicts

/-! ## §5 Changes of one node -/

/-- No node but `q` has been changed, links to parents apart. -/
def Touches (d d' : Document) (q : NodeId) : Prop :=
  ∀ y, y ≠ q → d'.kind? y = d.kind? y ∧ d'.children y = d.children y

theorem SetsKind.touches {k : NodeKind} (h : d.SetsKind d' x k) : d.Touches d' x := fun y hy =>
  ⟨by rw [h.kind?, if_neg hy], by rw [h.children]⟩

/-- A root that is put in another place changes the node that it is put below. -/
theorem Moves.touches (hw : d.WellFormed) {p c : NodeId} {r : Option NodeId}
    (h : d.Moves d' p c r) (hc : d.parent? c = none) : d.Touches d' p := fun y hy =>
  ⟨by rw [h.kind?], by rw [h.children, if_neg hy, filter_children_of_orphan hw hc]⟩

theorem Touches.shape? (hw : d.WellFormed) (hw' : d'.WellFormed) {q : NodeId} (h : d.Touches d' q)
    (hx : ¬ d.AtOrAbove x q) : d'.shape? x = d.shape? x := by
  refine shape?_congr hw hw' fun y hy => h y ?_
  rintro rfl
  exact hx hy

/-- The children of the node itself look as they did, unless they are exchanged. -/
theorem Touches.depicts_children (hw : d.WellFormed) (hw' : d'.WellFormed) {q : NodeId}
    (h : d.Touches d' q) {cs : List NodeId} {ts : List Tree} (hcs : ∀ c ∈ cs, c ∈ d.children q)
    (hd : d.Depicts cs ts) : d'.Depicts cs ts :=
  hd.congr fun c hc => h.shape? hw hw' <|
    hw.not_atOrAbove_of_link ((hw.parent_iff c q).mpr (hcs c hc))

end Document

end CopyControl
