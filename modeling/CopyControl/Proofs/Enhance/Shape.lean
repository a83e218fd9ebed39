import CopyControl.Proofs.Document.Shape
import CopyControl.Proofs.Enhance.Result

/-!
Code blocks and passes as the shapes of a document show them.

The blocks at and below a node can be read off the shape of the node (`depicts_blocksBelow`), and so
can what a pass makes of it: the shape after the pass is a function of the shape before it
(`shape?_enhance`), whatever the handles are.

* §1 blocks
* §2 a pass over a tree
* §3 a pass over a document
-/

namespace CopyControl

/-! ## §1 Blocks -/

/-- Whether the kind is an element with the tag. -/
def NodeKind.hasTag (k : NodeKind) (tag : String) : Bool :=
  k.element?.any (·.tag = tag)

namespace Tree

def kind : Tree → NodeKind
  | .node _ k _ => k

mutual

/-- The `code` elements below the root that are directly inside a `pre`, in document order. -/
def blocks : Tree → List Tree
  | .node _ k children => blocksIn k children

/-- Those among and below the children of a node of kind `k`. -/
def blocksIn (k : NodeKind) : List Tree → List Tree
  | [] => []
  | t :: ts =>
    (if k.hasTag "pre" && t.kind.hasTag "code" then [t] else []) ++ t.blocks ++ blocksIn k ts

end

end Tree

namespace Document

open Relation Enhance

variable {d d' : Document} {x : NodeId} {k : NodeKind}

theorem tag?_eq_iff {tag : String} (hk : d.kind? x = some k) :
    d.tag? x = some tag ↔ k.hasTag tag := by
  rw [tag?, element?, hk, Option.bind_some, NodeKind.hasTag]
  cases k.element? <;> simp

/-- Whether the node is a block, connected or not. -/
def isCodeInPre (d : Document) (c : NodeId) : Bool :=
  d.tag? c = some "code" && (d.parent? c).bind d.tag? = some "pre"

/-- The blocks below a node, in document order. -/
def blocksBelow (d : Document) (x : NodeId) : List NodeId :=
  ((d.children x).flatMap d.descendants).filter d.isCodeInPre

theorem codeBlocks_eq_filter (d : Document) :
    d.codeBlocks = (d.descendants d.root).filter d.isCodeInPre := by
  rw [codeBlocks, selectDirectChildren, elementsByTag, List.filter_filter]
  exact List.filter_congr fun c _ => Bool.and_comm ..

theorem codeBlocks_eq (hw : d.WellFormed) (hr : d.contains d.root) (hp : d.parent? d.root = none) :
    d.codeBlocks = d.blocksBelow d.root := by
  have hroot : d.isCodeInPre d.root = false := by simp [isCodeInPre, hp]
  rw [codeBlocks_eq_filter, hw.descendants_eq hr, List.filter_cons_of_neg (by simp [hroot]),
    blocksBelow]

/-- Whether a child is a block is seen in what it is and in what its parent is. -/
theorem isCodeInPre_eq {c : NodeId} {kc : NodeKind} (hk : d.kind? x = some k)
    (hkc : d.kind? c = some kc) (hp : d.parent? c = some x) :
    d.isCodeInPre c = (k.hasTag "pre" && kc.hasTag "code") := by
  rw [isCodeInPre, hp, Option.bind_some, Bool.and_comm, Bool.eq_iff_iff]
  simp only [Bool.and_eq_true, decide_eq_true_eq, tag?_eq_iff hk, tag?_eq_iff hkc]

/-- The blocks among some children and below them, if those below each child are in its shape. -/
theorem depicts_blocks_of_children (hw : d.WellFormed) (hk : d.kind? x = some k) {cs : List NodeId}
    {ts : List Tree} (hcs : ∀ c ∈ cs, d.parent? c = some x) (hd : d.Depicts cs ts)
    (ih : ∀ c ∈ cs, ∀ t, d.shape? c = some t → d.Depicts (d.blocksBelow c) t.blocks) :
    d.Depicts ((cs.flatMap d.descendants).filter d.isCodeInPre) (Tree.blocksIn k ts) := by
  induction cs generalizing ts with
  | nil =>
    obtain rfl : ts = [] := List.map_eq_nil_iff.mp hd.symm
    exact depicts_nil d
  | cons c cs ihs =>
    cases ts with
    | nil => simp [Depicts] at hd
    | cons t ts =>
      obtain ⟨ht, hts⟩ := depicts_cons.mp hd
      obtain ⟨hc, hcs⟩ := List.forall_mem_cons.mp hcs
      obtain ⟨ihc, ih⟩ := List.forall_mem_cons.mp ih
      have hkc : d.kind? c = some t.kind := by
        obtain ⟨n, kc, us⟩ := t
        exact (of_shape? hw ht).1
      have hself : d.Depicts ([c].filter d.isCodeInPre)
          (if k.hasTag "pre" && t.kind.hasTag "code" then [t] else []) := by
        rw [List.filter_singleton, isCodeInPre_eq hk hkc hc]
        cases k.hasTag "pre" && t.kind.hasTag "code" with
        | true => exact depicts_cons.mpr ⟨ht, depicts_nil d⟩
        | false => exact depicts_nil d
      rw [List.flatMap_cons, hw.descendants_eq (contains_of_parent? hc), ← List.singleton_append,
        List.filter_append, List.filter_append, Tree.blocksIn]
      exact (hself.append (ihc t ht)).append (ihs hcs hts ih)

/-- The blocks below a node are in the shape of the node. -/
theorem depicts_blocksBelow (hw : d.WellFormed) {t : Tree} (ht : d.shape? x = some t) :
    d.Depicts (d.blocksBelow x) t.blocks := by
  induction x using hw.children_induction generalizing t with
  | h x ih =>
    obtain ⟨n, k, ts⟩ := t
    obtain ⟨hk, hts⟩ := of_shape? hw ht
    exact depicts_blocks_of_children hw hk (fun c hc => (hw.parent_iff c x).mpr hc) hts
      fun c hc t ht => ih c hc ht

/-- What blocks say is in their shapes. -/
theorem Depicts.map_innerText {xs : List NodeId} {ts : List Tree} (h : d.Depicts xs ts) :
    xs.map d.innerText = ts.map fun t => .ofList t.innerText := by
  have heq : d.innerText = (fun t? => .ofList ((t?.map Tree.innerText).getD [])) ∘ d.shape? :=
    funext fun x => innerText_eq d x
  rw [heq, ← List.map_map, h, List.map_map]
  rfl

end Document

/-! ## §2 A pass over a tree -/

open Enhance Document

namespace Tree

/-- Whether the root is a `pre` that has no control yet, with a `code` directly inside. -/
def isBare : Tree → Bool
  | .node _ k children =>
    k.element?.any (fun e => e.tag = "pre" && !e.hasClass enhancedClass) &&
      children.any (·.kind.hasTag "code")

/-- The tree in a wrapper with a control. -/
def wrapped (t : Tree) : Tree :=
  let label : Tree := .node default (.text ControlLabel.copy.text) []
  let button : Tree := .node default (.element controlElement) [label]
  let actions : Tree := .node default (.element (boxElement actionsClass)) [button]
  .node default (.element (boxElement wrapperClass)) [t, actions]

mutual

/-- The shape after a pass. The root is marked if it is bare; its wrapper is not part of it. -/
def enhanced : Tree → Tree
  | .node n k children =>
    .node default (if (node n k children).isBare then k.onElement marked else k)
      (enhancedAll children)

/-- The shapes of children after a pass. -/
def enhancedAll : List Tree → List Tree
  | [] => []
  | t :: ts => (if t.isBare then t.enhanced.wrapped else t.enhanced) :: enhancedAll ts

end

end Tree

/-! ## §3 A pass over a document -/

namespace Document

variable {d d' : Document} {x : NodeId} {k : NodeKind} {clipboard : String}

theorem Depicts.any_tag (hw : d.WellFormed) {xs : List NodeId} {ts : List Tree}
    (h : d.Depicts xs ts) (tag : String) :
    xs.any (d.tag? · = some tag) = ts.any (·.kind.hasTag tag) := by
  induction xs generalizing ts with
  | nil =>
    obtain rfl : ts = [] := List.map_eq_nil_iff.mp h.symm
    rfl
  | cons x xs ih =>
    cases ts with
    | nil => simp [Depicts] at h
    | cons t ts =>
      obtain ⟨ht, hts⟩ := depicts_cons.mp h
      obtain ⟨n, k, us⟩ := t
      obtain ⟨hk, -⟩ := of_shape? hw ht
      rw [List.any_cons, List.any_cons, ih hts, Tree.kind, Bool.eq_iff_iff]
      simp only [Bool.or_eq_true, decide_eq_true_eq, tag?_eq_iff hk]

/-- A pass takes a connected `pre` for bare if its shape is. -/
theorem isBare_eq_of_shape? (hw : d.WellFormed) {t : Tree} (hx : d.isConnected x)
    (ht : d.shape? x = some t) : d.isBare x = t.isBare := by
  obtain ⟨n, k, ts⟩ := t
  obtain ⟨hk, hts⟩ := of_shape? hw ht
  have hel : d.element? x = k.element? := by rw [element?, hk, Option.bind_some]
  rw [Tree.isBare, ← hts.any_tag hw, isBare, hx, Bool.true_and, tag?, hasClass, hel]
  cases k.element? <;> simp

/-- A wrapper that stands around a `pre` has the shape of one. -/
theorem shape?_wrapper (hw' : d'.WellFormed) {o : Outfit} (h : o.Stands d d' clipboard) {t : Tree}
    (ht : d'.shape? o.pre = some t) : d'.shape? o.wrapper = some t.wrapped := by
  obtain ⟨hwrapper, -, hinner⟩ := h.wrapper
  obtain ⟨hactions, hbuttons⟩ := h.actions
  obtain ⟨hbutton, hlabels, hlabel, -⟩ := h.button
  have hnil : d'.children o.label = [] := List.eq_nil_iff_forall_not_mem.mpr fun c hc => by
    have := hw'.element_of_child c o.label hc
    simp [element?, hlabel, NodeKind.element?] at this
  have hlabel' := (shape?_eq_leaf_iff hw').mpr ⟨hlabel, hnil⟩
  have single : ∀ {x c : NodeId} {k : NodeKind} {u : Tree}, d'.kind? x = some k →
      d'.children x = [c] → d'.shape? c = some u → d'.shape? x = some (.node default k [u]) :=
    fun hk hc hu => shape?_of_depicts hw' hk (hc ▸ depicts_cons.mpr ⟨hu, depicts_nil d'⟩)
  have hactions' := single hactions hbuttons (single hbutton hlabels hlabel')
  refine shape?_of_depicts hw' hwrapper ?_
  rw [hinner]
  exact depicts_cons.mpr ⟨ht, depicts_cons.mpr ⟨hactions', depicts_nil d'⟩⟩

/-- Each child is in a wrapper afterwards if it was bare. -/
theorem Enhanced.depicts_map_wrapperOf {os : List Outfit} (he : d.Enhanced d' os clipboard)
    (hstands : ∀ o ∈ os, o.Stands d d' clipboard) {cs : List NodeId} {ts : List Tree}
    (hd : d.Depicts cs ts)
    (hcs : ∀ c ∈ cs, ∀ t, d.shape? c = some t →
      d'.shape? c = some t.enhanced ∧ (c ∈ os.map Outfit.pre ↔ t.isBare)) :
    d'.Depicts (cs.map (wrapperOf os)) (Tree.enhancedAll ts) := by
  induction cs generalizing ts with
  | nil =>
    obtain rfl : ts = [] := List.map_eq_nil_iff.mp hd.symm
    exact depicts_nil d'
  | cons c cs ih =>
    cases ts with
    | nil => simp [Depicts] at hd
    | cons t ts =>
      obtain ⟨ht, hts⟩ := depicts_cons.mp hd
      obtain ⟨hc, hcs⟩ := List.forall_mem_cons.mp hcs
      obtain ⟨hshape, hbare⟩ := hc t ht
      refine depicts_cons.mpr ⟨?_, ih hts hcs⟩
      by_cases hmem : c ∈ os.map Outfit.pre
      · obtain ⟨o, ho, rfl⟩ := List.mem_map.mp hmem
        rw [he.wrapperOf_pre ho, if_pos (hbare.mp hmem)]
        exact shape?_wrapper he.wellFormed (hstands o ho) hshape
      · rw [wrapperOf_rest hmem, if_neg (fun h => hmem (hbare.mpr h))]
        exact hshape

/-- What a node is after a pass. -/
theorem Enhanced.kind?_eq {os : List Outfit} (he : d.Enhanced d' os clipboard)
    (hk : d.kind? x = some k) :
    d'.kind? x = some (if x ∈ os.map Outfit.pre then k.onElement marked else k) := by
  split
  · rename_i hmem
    obtain ⟨o, ho, rfl⟩ := List.mem_map.mp hmem
    obtain ⟨e, hpre, hpre'⟩ := he.element?_pre o ho
    rw [element?_eq_some_iff, hk] at hpre
    rw [element?_eq_some_iff.mp hpre', Option.some.inj hpre]
    rfl
  · rename_i hmem
    rw [he.kind?_rest x (he.not_made_of_live (contains_of_kind? hk)) hmem, hk]

/-- What a pass makes of the nodes at and below a connected one is seen in their shape. -/
theorem shape?_enhance (hw : d.WellFormed) (hr : d.RootApart) (clipboard : String) {t : Tree}
    (hx : d.isConnected x) (ht : d.shape? x = some t) :
    (d.enhance clipboard).document.shape? x = some t.enhanced := by
  obtain ⟨os, hp⟩ := enhance_progress hw clipboard
  have he := hp.enhanced
  induction x using hw.children_induction generalizing t with
  | h x ih =>
    have hbare : ∀ y u, d.isConnected y → d.shape? y = some u →
        (y ∈ os.map Outfit.pre ↔ u.isBare) := fun y u hy hu => by
      rw [hp.mem_pres_iff hw hr, isBare_eq_of_shape? hw hy hu]
    obtain ⟨n, k, ts⟩ := t
    obtain ⟨hk, hts⟩ := of_shape? hw ht
    have hchildren := he.depicts_map_wrapperOf (fun o ho => hp.stands hw hr ho) hts
      fun c hc t ht => by
        have hconn : d.isConnected c := by
          obtain ⟨-, hroot⟩ := hw.isConnected_iff.mp hx
          exact hw.isConnected_iff.mpr
            ⟨hw.contains_of_child hc, .head ((hw.parent_iff c x).mpr hc) hroot⟩
        exact ⟨ih c hc hconn ht, hbare c t hconn ht⟩
    rw [← he.children_rest x (he.not_made_of_live (contains_of_kind? hk))] at hchildren
    have hkind := he.kind?_eq hk
    simp only [hbare x _ hx ht] at hkind
    exact shape?_of_depicts he.wellFormed hkind hchildren

end Document

end CopyControl
