import CopyControl.Proofs.Document.Rooted
import CopyControl.Proofs.Host.Refusal

/-!
The walks over a tree as loops without a bound.

The walks of a document carry a bound on their length. Here each of them is told once more, as the
loop it is: one rule for each way a pass can go, and no bound. That a loop ends is that its rules
lead to an answer, and since in each state one rule applies at most, there is no other answer. A
bounded walk that does not come to its bound is a run of the loop (`rises_climb`,
`unstacks_unstack`), and in a well-formed forest no walk comes to its bound. So all loops end, with
the answers of the bounded walks:

* `rises_iff` — from parent to parent, up to a node that has none
* `seeks_iff` — the same, up to a node that is looked for
* `unstacks_iff` — downwards, with a stack of what is still to be listed
* `preorder_iff` — the same listing by recursion over the children
-/

namespace CopyControl.Document

open Relation

variable {d : Document} {a n x : NodeId} {l : List NodeId}

/-! ## §1 Loops -/

/-- From `x` to its parent and on, until a node has none; `l` are the nodes met. -/
inductive Rises (d : Document) : NodeId → List NodeId → Prop
  | top {x : NodeId} (h : d.parent? x = none) : Rises d x [x]
  | up {x p : NodeId} {l : List NodeId} (h : d.parent? x = some p) (hp : Rises d p l) :
      Rises d x (x :: l)

/-- From a node to its parent and on, until `a` is met or there is no node any more; `b` is whether
it has been met. -/
inductive Seeks (d : Document) (a : NodeId) : Option NodeId → Bool → Prop
  | ended : Seeks d a none false
  | found : Seeks d a (some a) true
  | up {x : NodeId} {b : Bool} (hx : x ≠ a) (h : Seeks d a (d.parent? x) b) : Seeks d a (some x) b

/-- A node, and then the listings of its children from left to right. -/
inductive Preorder (d : Document) : NodeId → List NodeId → Prop
  | node {x : NodeId} (f : NodeId → List NodeId) (h : ∀ c ∈ d.children x, Preorder d c (f c)) :
      Preorder d x (x :: (d.children x).flatMap f)

/-- While there is something on the stack, the top is taken off and listed, and its children are put
there instead, the first on top. -/
inductive Unstacks (d : Document) : List NodeId → List NodeId → Prop
  | empty : Unstacks d [] []
  | pop {x : NodeId} {stack l : List NodeId} (h : Unstacks d (d.children x ++ stack) l) :
      Unstacks d (x :: stack) (x :: l)

/-! ### No loop has two answers -/

theorem Rises.unique {l' : List NodeId} (h : d.Rises x l) (h' : d.Rises x l') : l = l' := by
  induction h generalizing l' with
  | top hx =>
    cases h' with
    | top => rfl
    | up hp _ => simp [hx] at hp
  | up hx _ ih =>
    cases h' with
    | top hp => simp [hx] at hp
    | up hp h' =>
      obtain rfl := Option.some.inj (hx.symm.trans hp)
      rw [ih h']

theorem Seeks.unique {o : Option NodeId} {b b' : Bool} (h : d.Seeks a o b) (h' : d.Seeks a o b') :
    b = b' := by
  induction h with
  | ended =>
    cases h'
    rfl
  | found =>
    cases h' with
    | found => rfl
    | up hx _ => exact absurd rfl hx
  | up hx _ ih =>
    cases h' with
    | found => exact absurd rfl hx
    | up _ h' => exact ih h'

theorem Preorder.unique {l' : List NodeId} (h : d.Preorder x l) (h' : d.Preorder x l') :
    l = l' := by
  induction h generalizing l' with
  | node f _ ih =>
    cases h' with
    | node g hg => rw [List.flatMap_congr fun c hc => ih c hc (hg c hc)]

theorem Unstacks.unique {stack l' : List NodeId} (h : d.Unstacks stack l)
    (h' : d.Unstacks stack l') : l = l' := by
  induction h generalizing l' with
  | empty =>
    cases h'
    rfl
  | pop _ ih =>
    cases h' with
    | pop h' => rw [ih h']

/-! ## §2 The loops end -/

/-- Different live nodes are counted. -/
theorem WellFormed.length_le_nodeCount (hw : d.WellFormed) (hn : l.Nodup)
    (hl : ∀ x ∈ l, d.contains x) : l.length ≤ d.nodeCount := by
  rw [nodeCount_eq hw.free]
  exact (hn.subperm fun x hx => mem_liveNodes_iff.mpr (hl x hx)).length_le

/-- A bounded walk upwards that ends before its bound has come to a node without a parent. -/
theorem rises_climb {k : Nat} (h : (d.climb k x).length < k) : d.Rises x (d.climb k x) := by
  induction k generalizing x with
  | zero => simp at h
  | succ k ih =>
    rw [climb] at h ⊢
    cases hp : d.parent? x with
    | none => exact .top hp
    | some p =>
      simp only [hp, List.length_cons] at h
      exact .up hp (ih (by omega))

/-- What is looked for is found just if it is among the nodes met. -/
theorem Rises.seeks (h : d.Rises x l) (a : NodeId) : d.Seeks a (some x) (l.contains a) := by
  induction h with
  | @top x hp =>
    by_cases hx : x = a
    · subst hx
      simpa using Seeks.found
    · have hno : [x].contains a = false := by simpa using Ne.symm hx
      exact .up hx (hno ▸ hp ▸ .ended)
  | @up x p l hp _ ih =>
    by_cases hx : x = a
    · subst hx
      simpa using Seeks.found
    · have hrest : (x :: l).contains a = l.contains a := by simp [Ne.symm hx]
      exact .up hx (hrest ▸ hp ▸ ih)

/-- A bounded walk downwards that ends before its bound has emptied the stack. -/
theorem unstacks_unstack {k : Nat} {stack : List NodeId} (h : (d.unstack k stack).length < k) :
    d.Unstacks stack (d.unstack k stack) := by
  induction k generalizing stack with
  | zero => simp at h
  | succ k ih =>
    cases stack with
    | nil => exact .empty
    | cons x stack =>
      rw [unstack, List.length_cons] at h
      exact .pop (ih (by omega))

section
variable (hw : d.WellFormed)
include hw

theorem rises_inclusiveAncestors (x : NodeId) : d.Rises x (d.inclusiveAncestors x) := by
  rcases hw.length_inclusiveAncestors x with h | ⟨hdead, h⟩
  · exact rises_climb h
  · rw [h]
    exact .top (parent?_eq_none_of_dead hdead)

theorem unstacks_descendants (hn : d.contains n) : d.Unstacks [n] (d.descendants n) := by
  have hlist := hw.lists_descendants hn 1 []
  rw [unstack_nil, List.append_nil] at hlist
  rw [← hlist]
  refine unstacks_unstack ?_
  rw [hlist]
  omega

theorem preorder_descendants (hn : d.contains n) : d.Preorder n (d.descendants n) := by
  induction n using hw.children_induction with
  | _ n ih =>
    rw [hw.descendants_eq hn]
    exact .node d.descendants fun c hc => ih c hc (hw.contains_of_child hc)

theorem rises_iff : d.Rises x l ↔ l = d.inclusiveAncestors x :=
  ⟨fun h => h.unique (rises_inclusiveAncestors hw x), fun h => h ▸ rises_inclusiveAncestors hw x⟩

theorem seeks_iff {b : Bool} : d.Seeks a (some x) b ↔ b = d.isInclusiveAncestor a x := by
  have hseeks := (rises_inclusiveAncestors hw x).seeks a
  exact ⟨fun h => h.unique hseeks, fun h => h ▸ hseeks⟩

theorem unstacks_iff (hn : d.contains n) : d.Unstacks [n] l ↔ l = d.descendants n :=
  ⟨fun h => h.unique (unstacks_descendants hw hn), fun h => h ▸ unstacks_descendants hw hn⟩

theorem preorder_iff (hn : d.contains n) : d.Preorder n l ↔ l = d.descendants n :=
  ⟨fun h => h.unique (preorder_descendants hw hn), fun h => h ▸ preorder_descendants hw hn⟩

/-! ## §3 The walks agree -/

/-- Up from a live node no node is met twice, and all of them are live. -/
theorem length_inclusiveAncestors_le (hn : d.contains n) :
    (d.inclusiveAncestors n).length ≤ d.nodeCount :=
  hw.length_le_nodeCount (hw.nodup_climb _ _) fun _ hx =>
    hw.contains_of_atOrAbove (atOrAbove_of_mem_climb hx) hn

theorem mem_descendants_iff_isInclusiveAncestor (hn : d.contains n) :
    x ∈ d.descendants n ↔ d.contains x ∧ d.isInclusiveAncestor n x := by
  rw [hw.mem_descendants_iff, hw.isInclusiveAncestor_iff]
  constructor
  · exact fun h => ⟨hw.contains_of_mem_descendants (hw.mem_descendants_iff.mpr h), h.2⟩
  · exact fun h => ⟨hn, h.2⟩

/-- Also if the root is dead: then nothing is connected, and nothing is listed. -/
theorem isConnected_iff_mem_descendants : d.isConnected x ↔ x ∈ d.descendants d.root := by
  rw [hw.isConnected_iff, hw.mem_descendants_iff]
  constructor
  · exact fun h => ⟨hw.contains_of_atOrAbove h.2 h.1, h.2⟩
  · exact fun h => ⟨hw.contains_of_mem_descendants (hw.mem_descendants_iff.mpr h), h.2⟩

theorem mem_elementsByTag_iff {tag : String} :
    x ∈ d.elementsByTag tag ↔ d.isConnected x ∧ d.tag? x = some tag := by
  rw [elementsByTag, List.mem_filter, decide_eq_true_iff, isConnected_iff_mem_descendants hw]

end

/-- **The walks.** In a document that can be reached, each loop ends, with the answer of the bounded
walk: the ones upwards from any node, the ones downwards from a live one. The way up meets at most
as many nodes as there are. The downward walk from `n` lists each node once, and just the live nodes
from which the upward walk finds `n`. -/
theorem walks_agree (hd : d.Reachable) :
    (∀ x l, d.Rises x l ↔ l = d.inclusiveAncestors x) ∧
    (∀ a x b, d.Seeks a (some x) b ↔ b = d.isInclusiveAncestor a x) ∧
    (∀ n, d.contains n →
      (d.inclusiveAncestors n).length ≤ d.nodeCount ∧
      (∀ l, d.Unstacks [n] l ↔ l = d.descendants n) ∧
      (∀ l, d.Preorder n l ↔ l = d.descendants n) ∧
      (d.descendants n).Nodup ∧
      ∀ x, x ∈ d.descendants n ↔ d.contains x ∧ d.isInclusiveAncestor n x) ∧
    (∀ x, d.isConnected x ↔ x ∈ d.descendants d.root) ∧
    ∀ tag, (d.elementsByTag tag).Sublist (d.descendants d.root) ∧
      ∀ x, x ∈ d.elementsByTag tag ↔ d.isConnected x ∧ d.tag? x = some tag := by
  have hw := hd.wellFormed
  refine ⟨fun x l => rises_iff hw, fun a x b => seeks_iff hw, fun n hn => ?_,
    fun x => isConnected_iff_mem_descendants hw, fun tag => ?_⟩
  · exact ⟨length_inclusiveAncestors_le hw hn, fun l => unstacks_iff hw hn,
      fun l => preorder_iff hw hn, hw.nodup_descendants n,
      fun x => mem_descendants_iff_isInclusiveAncestor hw hn⟩
  · exact ⟨List.filter_sublist, fun x => mem_elementsByTag_iff hw⟩

/-- A `p` with two texts and an `em` between them, and a `p` that stands alone. -/
def branched : List Operation :=
  [.createElement "p", .appendChild new.body ⟨3, 0⟩, .appendText ⟨3, 0⟩ "a",
    .createElement "em", .appendChild ⟨3, 0⟩ ⟨5, 0⟩, .appendText ⟨5, 0⟩ "b",
    .appendText ⟨3, 0⟩ "c", .createElement "p"]

theorem walks_agree_branched :
    let d := Operation.runAll branched new
    d.Reachable ∧ d.contains ⟨3, 0⟩ ∧
      d.Unstacks [⟨3, 0⟩] [⟨3, 0⟩, ⟨4, 0⟩, ⟨5, 0⟩, ⟨6, 0⟩, ⟨7, 0⟩] ∧
      d.Preorder ⟨3, 0⟩ [⟨3, 0⟩, ⟨4, 0⟩, ⟨5, 0⟩, ⟨6, 0⟩, ⟨7, 0⟩] ∧
      d.Seeks new.root (some ⟨6, 0⟩) true ∧ ¬ d.isConnected ⟨8, 0⟩ ∧
      d.elementsByTag "p" = [⟨3, 0⟩] := by
  intro d
  have hd : d.Reachable := reachable_runAll branched
  have hp : d.contains ⟨3, 0⟩ := by decide +kernel
  obtain ⟨-, hseeks, hdown, -⟩ := walks_agree hd
  obtain ⟨-, hstack, hpre, -⟩ := hdown _ hp
  refine ⟨hd, hp, (hstack _).mpr ?_, (hpre _).mpr ?_, (hseeks _ _ _).mpr ?_, ?_, ?_⟩ <;>
    decide +kernel

end CopyControl.Document
