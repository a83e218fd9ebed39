import CopyControl.Proofs.Document.Lookup
import Mathlib.Data.List.Nodup
import Mathlib.Data.List.Perm.Subperm
import Mathlib.Logic.Relation

/-!
The forest a document is, and what its walks find.

`WellFormed` is the invariant of the arena: parents and child lists tell the same story, no node
is its own ancestor, and the free list is exact. A walk up or down carries a bound on its length;
in a well-formed document the bound is never reached, because a walk meets no node twice and
there are at most as many nodes as slots. So each walk answers what the tree relation says:

* `isInclusiveAncestor_iff` — the walk upwards decides `AtOrAbove`
* `mem_descendants_iff`, `nodup_descendants` — the walk downwards lists what is at or below a
  node, each once
* `descendants_eq` — and in document order: a node, then its children's listings in turn
-/

namespace CopyControl

/-- No class and no attribute name is there twice. -/
structure Element.NoRepeats (e : Element) : Prop where
  classes : e.classes.Nodup
  attributes : (e.attributes.map Prod.fst).Nodup

namespace Document

open Relation

/-! ## §1 Ancestors -/

/-- `p` is the parent of `c`. -/
def Link (d : Document) (c p : NodeId) : Prop :=
  d.parent? c = some p

/-- `a` is a proper ancestor of `n`. -/
def Above (d : Document) (a n : NodeId) : Prop :=
  TransGen d.Link n a

/-- `a` is `n` or a proper ancestor of it. -/
def AtOrAbove (d : Document) (a n : NodeId) : Prop :=
  ReflTransGen d.Link n a

/-- The arena is a well-formed forest. -/
structure WellFormed (d : Document) : Prop where
  /-- The free list has no repeats and names exactly the slots without a node. -/
  free : d.FreeExact
  /-- A node has a parent exactly if it is among the parent's children. -/
  parent_iff : ∀ c p, d.parent? c = some p ↔ c ∈ d.children p
  /-- No node is among the children of a node twice. -/
  children_nodup : ∀ p, (d.children p).Nodup
  /-- Only elements have children. -/
  element_of_child : ∀ c p, c ∈ d.children p → (d.element? p).isSome
  /-- No node is its own proper ancestor. -/
  acyclic : ∀ n, ¬ d.Above n n
  /-- Only live nodes have listeners. -/
  listeners_live : ∀ l ∈ d.listeners, d.contains l.1
  /-- No element has a class or an attribute name twice. -/
  no_repeats : ∀ id e, d.element? id = some e → e.NoRepeats

variable {d : Document}

theorem WellFormed.contains_of_link (hw : d.WellFormed) {c p : NodeId} (h : d.Link c p) :
    d.contains p :=
  contains_of_mem_children ((hw.parent_iff c p).mp h)

theorem WellFormed.contains_of_child (hw : d.WellFormed) {c p : NodeId}
    (h : c ∈ d.children p) : d.contains c :=
  contains_of_parent? ((hw.parent_iff c p).mpr h)

theorem WellFormed.contains_of_atOrAbove (hw : d.WellFormed) {a n : NodeId}
    (h : d.AtOrAbove a n) (hn : d.contains n) : d.contains a := by
  induction h with
  | refl => exact hn
  | tail _ hl _ => exact hw.contains_of_link hl

theorem contains_of_above {a n : NodeId} (h : d.Above a n) : d.contains n := by
  obtain ⟨p, hp, -⟩ := TransGen.head'_iff.mp h
  exact contains_of_parent? hp

/-- A handle that names no node has nothing above it. -/
theorem eq_of_atOrAbove_of_dead {a n : NodeId} (h : d.AtOrAbove a n)
    (hn : d.contains n = false) : a = n := by
  rcases reflTransGen_iff_eq_or_transGen.mp h with h | h
  · exact h
  · simp [contains_of_above h] at hn

theorem eq_of_atOrAbove_of_parent?_none {a n : NodeId} (h : d.AtOrAbove a n)
    (hn : d.parent? n = none) : a = n := by
  rcases ReflTransGen.cases_head h with h | ⟨p, hp, -⟩
  · exact h.symm
  · rw [Link, hn] at hp
    simp at hp

theorem WellFormed.not_link_self (hw : d.WellFormed) (n : NodeId) : ¬ d.Link n n :=
  fun h => hw.acyclic n (TransGen.single h)

theorem WellFormed.not_atOrAbove_of_link (hw : d.WellFormed) {c p : NodeId} (h : d.Link c p) :
    ¬ d.AtOrAbove c p :=
  fun hcp => hw.acyclic c (TransGen.head' h hcp)

theorem WellFormed.eq_of_atOrAbove_of_atOrAbove (hw : d.WellFormed) {a b : NodeId}
    (hab : d.AtOrAbove a b) (hba : d.AtOrAbove b a) : a = b := by
  rcases ReflTransGen.cases_head hba with h | ⟨q, hq, hbq⟩
  · exact h
  · exact absurd (hbq.trans hab) (hw.not_atOrAbove_of_link hq)

/-- What is above a node is a line: of two ancestors one is above the other. -/
theorem atOrAbove_total {a b n : NodeId} (ha : d.AtOrAbove a n) (hb : d.AtOrAbove b n) :
    d.AtOrAbove a b ∨ d.AtOrAbove b a := by
  induction ha using ReflTransGen.head_induction_on with
  | refl => exact .inr hb
  | head hl h ih =>
    rcases ReflTransGen.cases_head hb with rfl | ⟨p, hp, hb'⟩
    · exact .inl (ReflTransGen.head hl h)
    · rw [Link] at hl hp
      rw [hl] at hp
      exact ih (Option.some.inj hp ▸ hb')

/-- Nothing is below two children of one node. -/
theorem WellFormed.eq_of_atOrAbove_siblings (hw : d.WellFormed) {a b p n : NodeId}
    (ha : d.Link a p) (hb : d.Link b p) (han : d.AtOrAbove a n) (hbn : d.AtOrAbove b n) :
    a = b := by
  rcases atOrAbove_total han hbn with h | h
  · rcases ReflTransGen.cases_head h with h | ⟨q, hq, h⟩
    · exact h.symm
    · rw [Link, hb] at hq
      exact absurd (Option.some.inj hq ▸ h) (hw.not_atOrAbove_of_link ha)
  · rcases ReflTransGen.cases_head h with h | ⟨q, hq, h⟩
    · exact h
    · rw [Link, ha] at hq
      exact absurd (Option.some.inj hq ▸ h) (hw.not_atOrAbove_of_link hb)

/-! ## §2 Counting -/

/-- Different live nodes need different slots. -/
theorem length_le_size {l : List NodeId} (hn : l.Nodup) (hl : ∀ x ∈ l, d.contains x) :
    l.length ≤ d.slots.size := by
  have hm : (l.map (·.index)).Nodup :=
    hn.map_on fun x hx y hy h => eq_of_index_eq (hl x hx) (hl y hy) h
  have hs : l.map (·.index) ⊆ List.range d.slots.size := by
    intro i hi
    obtain ⟨x, hx, rfl⟩ := List.mem_map.mp hi
    exact List.mem_range.mpr (index_lt_of_contains (hl x hx))
  simpa using (hm.subperm hs).length_le

/-! ## §3 The walk upwards -/

theorem atOrAbove_of_mem_climb {n : Nat} {id a : NodeId} (h : a ∈ d.climb n id) :
    d.AtOrAbove a id := by
  induction n generalizing id with
  | zero => simp [climb] at h
  | succ n ih =>
    rw [climb, List.mem_cons] at h
    rcases h with rfl | h
    · exact ReflTransGen.refl
    · cases hp : d.parent? id with
      | none => simp [hp] at h
      | some p => exact ReflTransGen.head hp (ih (by simpa [hp] using h))

theorem WellFormed.nodup_climb (hw : d.WellFormed) (n : Nat) (id : NodeId) :
    (d.climb n id).Nodup := by
  induction n generalizing id with
  | zero => exact List.nodup_nil
  | succ n ih =>
    rw [climb]
    cases hp : d.parent? id with
    | none => simp
    | some p =>
      refine List.nodup_cons.mpr ⟨fun h => ?_, ih p⟩
      exact hw.not_atOrAbove_of_link hp (atOrAbove_of_mem_climb h)

/-- A walk that ended before its bound has met every ancestor. -/
theorem mem_climb_of_length_lt {n : Nat} {id a : NodeId} (hl : (d.climb n id).length < n)
    (h : d.AtOrAbove a id) : a ∈ d.climb n id := by
  induction n generalizing id with
  | zero => simp at hl
  | succ n ih =>
    rw [climb] at hl ⊢
    rcases ReflTransGen.cases_head h with rfl | ⟨p, hp, h⟩
    · exact List.mem_cons_self
    · rw [Link] at hp
      simp only [hp, List.length_cons] at hl ⊢
      exact List.mem_cons_of_mem _ (ih (by omega) h)

theorem climb_succ_of_length_lt {n : Nat} {id : NodeId} (hl : (d.climb n id).length < n) :
    d.climb (n + 1) id = d.climb n id := by
  induction n generalizing id with
  | zero => simp at hl
  | succ n ih =>
    rw [climb, climb]
    rw [climb] at hl
    cases hp : d.parent? id with
    | none => rfl
    | some p =>
      simp only [hp, List.length_cons] at hl ⊢
      rw [ih (by omega)]

theorem WellFormed.length_inclusiveAncestors (hw : d.WellFormed) (id : NodeId) :
    (d.inclusiveAncestors id).length < d.slots.size + 1 ∨
      d.contains id = false ∧ d.inclusiveAncestors id = [id] := by
  cases hc : d.contains id with
  | true =>
    refine .inl (Nat.lt_succ_of_le (length_le_size (hw.nodup_climb _ _) fun x hx => ?_))
    exact hw.contains_of_atOrAbove (atOrAbove_of_mem_climb hx) hc
  | false =>
    exact .inr ⟨rfl, by simp [inclusiveAncestors, climb, parent?_eq_none_of_dead hc]⟩

theorem WellFormed.mem_inclusiveAncestors (hw : d.WellFormed) {a id : NodeId} :
    a ∈ d.inclusiveAncestors id ↔ d.AtOrAbove a id := by
  refine ⟨atOrAbove_of_mem_climb, fun h => ?_⟩
  rcases hw.length_inclusiveAncestors id with hl | ⟨hc, hl⟩
  · exact mem_climb_of_length_lt hl h
  · simp [hl, eq_of_atOrAbove_of_dead h hc]

/-- The bounded walk upwards answers what the tree says. -/
theorem WellFormed.isInclusiveAncestor_iff (hw : d.WellFormed) {a id : NodeId} :
    d.isInclusiveAncestor a id = true ↔ d.AtOrAbove a id := by
  rw [isInclusiveAncestor, List.contains_iff_mem, hw.mem_inclusiveAncestors]

theorem WellFormed.isConnected_iff (hw : d.WellFormed) {id : NodeId} :
    d.isConnected id = true ↔ d.contains id ∧ d.AtOrAbove d.root id := by
  simp [isConnected, hw.isInclusiveAncestor_iff]

/-- A child has one ancestor more than its parent. -/
theorem WellFormed.inclusiveAncestors_of_link (hw : d.WellFormed) {c p : NodeId}
    (h : d.Link c p) : d.inclusiveAncestors c = c :: d.inclusiveAncestors p := by
  rw [inclusiveAncestors, climb]
  simp only [show d.parent? c = some p from h]
  rw [inclusiveAncestors, ← climb_succ_of_length_lt]
  have hn : (d.climb (d.slots.size + 1) c).Nodup := hw.nodup_climb _ _
  have hlive : ∀ x ∈ d.climb (d.slots.size + 1) c, d.contains x := fun x hx =>
    hw.contains_of_atOrAbove (atOrAbove_of_mem_climb hx) (contains_of_parent? h)
  have hle := length_le_size hn hlive
  rw [climb] at hle
  simp only [show d.parent? c = some p from h, List.length_cons] at hle
  omega

/-- Induction from the leaves: what holds of a node if it holds of its children holds of all. -/
theorem WellFormed.children_induction (hw : d.WellFormed) {P : NodeId → Prop}
    (h : ∀ p, (∀ c ∈ d.children p, P c) → P p) (id : NodeId) : P id := by
  -- the number of ancestors is bounded and grows downwards
  generalize hk : d.slots.size + 1 - (d.inclusiveAncestors id).length = k
  induction k using Nat.strongRecOn generalizing id with
  | _ k ih =>
    refine h id fun c hc => ih _ ?_ c rfl
    have hl := hw.inclusiveAncestors_of_link ((hw.parent_iff c id).mpr hc)
    rcases hw.length_inclusiveAncestors c with hlt | ⟨hd, -⟩
    · rw [hl, List.length_cons] at hlt ⊢
      omega
    · simp [hw.contains_of_child hc] at hd

/-! ## §4 The walk downwards -/

theorem unstack_nil (d : Document) (n : Nat) : d.unstack n [] = [] := by
  cases n <;> rfl

/-- From `id` on top of any stack, the walk lists `l` and goes on with the stack. -/
def Lists (d : Document) (id : NodeId) (l : List NodeId) : Prop :=
  ∀ n stack, d.unstack (l.length + n) (id :: stack) = l ++ d.unstack n stack

theorem Lists.unique {id : NodeId} {l l' : List NodeId} (h : d.Lists id l)
    (h' : d.Lists id l') : l = l' := by
  have h1 := h l'.length []
  have h2 := h' l.length []
  rw [Nat.add_comm] at h2
  rw [h2] at h1
  simpa [unstack_nil] using h1.symm

/-- A stack whose members have listings is listed member by member. -/
theorem unstack_flatMap {f : NodeId → List NodeId} {stack : List NodeId}
    (h : ∀ x ∈ stack, d.Lists x (f x)) (n : Nat) (rest : List NodeId) :
    d.unstack ((stack.flatMap f).length + n) (stack ++ rest) =
      stack.flatMap f ++ d.unstack n rest := by
  induction stack with
  | nil => simp
  | cons x stack ih =>
    have hx := h x List.mem_cons_self
    rw [List.flatMap_cons, List.length_append, Nat.add_assoc, List.cons_append, hx,
      ih fun y hy => h y (List.mem_cons_of_mem _ hy), List.append_assoc]

theorem Lists.cons {id : NodeId} {f : NodeId → List NodeId}
    (h : ∀ c ∈ d.children id, d.Lists c (f c)) :
    d.Lists id (id :: (d.children id).flatMap f) := by
  intro n stack
  rw [List.length_cons, Nat.add_right_comm, unstack, unstack_flatMap h, List.cons_append]

/-- Every node has a listing, of what is at or below it. -/
theorem WellFormed.exists_lists (hw : d.WellFormed) (id : NodeId) :
    ∃ l, d.Lists id l ∧ l.Nodup ∧ ∀ x, x ∈ l ↔ d.AtOrAbove id x := by
  induction id using hw.children_induction with
  | _ id ih =>
    choose! f hf hn hm using ih
    have hmem : ∀ x, x ∈ (d.children id).flatMap f ↔ ∃ c ∈ d.children id, d.AtOrAbove c x := by
      intro x
      rw [List.mem_flatMap]
      exact exists_congr fun c => and_congr_right fun hc => hm c hc x
    refine ⟨id :: (d.children id).flatMap f, Lists.cons hf, List.nodup_cons.mpr ⟨?_, ?_⟩, ?_⟩
    · rw [hmem]
      rintro ⟨c, hc, h⟩
      exact hw.not_atOrAbove_of_link ((hw.parent_iff c id).mpr hc) h
    · rw [List.nodup_flatMap]
      refine ⟨hn, (hw.children_nodup id).pairwise_of_forall_ne fun a ha b hb hab => ?_⟩
      intro x hxa hxb
      exact hab (hw.eq_of_atOrAbove_siblings ((hw.parent_iff a id).mpr ha)
        ((hw.parent_iff b id).mpr hb) ((hm a ha x).mp hxa) ((hm b hb x).mp hxb))
    · intro x
      rw [List.mem_cons, hmem]
      constructor
      · rintro (rfl | ⟨c, hc, h⟩)
        · exact ReflTransGen.refl
        · exact ReflTransGen.tail h ((hw.parent_iff c id).mpr hc)
      · intro h
        rcases ReflTransGen.cases_tail h with rfl | ⟨c, hc, hl⟩
        · exact .inl rfl
        · exact .inr ⟨c, (hw.parent_iff c id).mp hl, hc⟩

/-- The bounded walk downwards is not cut off. -/
theorem WellFormed.lists_descendants (hw : d.WellFormed) {id : NodeId} (hid : d.contains id) :
    d.Lists id (d.descendants id) := by
  obtain ⟨l, hl, hn, hm⟩ := hw.exists_lists id
  have hlive : ∀ x ∈ l, d.contains x := by
    intro x hx
    rcases reflTransGen_iff_eq_or_transGen.mp ((hm x).mp hx) with rfl | h
    · exact hid
    · exact contains_of_above h
  have hle := length_le_size hn hlive
  have hd : d.descendants id = l := by
    have := hl (d.slots.size - l.length) []
    rw [Nat.add_sub_cancel' hle, unstack_nil, List.append_nil] at this
    rw [descendants, if_pos hid, this]
  rwa [hd]

theorem WellFormed.mem_descendants_iff (hw : d.WellFormed) {id x : NodeId} :
    x ∈ d.descendants id ↔ d.contains id ∧ d.AtOrAbove id x := by
  cases hid : d.contains id with
  | false => simp [descendants, hid]
  | true =>
    obtain ⟨l, hl, -, hm⟩ := hw.exists_lists id
    rw [(hw.lists_descendants hid).unique hl, hm]
    simp

theorem WellFormed.nodup_descendants (hw : d.WellFormed) (id : NodeId) :
    (d.descendants id).Nodup := by
  cases hid : d.contains id with
  | false => simp [descendants, hid]
  | true =>
    obtain ⟨l, hl, hn, -⟩ := hw.exists_lists id
    rwa [(hw.lists_descendants hid).unique hl]

theorem WellFormed.contains_of_mem_descendants (hw : d.WellFormed) {id x : NodeId}
    (h : x ∈ d.descendants id) : d.contains x := by
  obtain ⟨hid, h⟩ := hw.mem_descendants_iff.mp h
  rcases reflTransGen_iff_eq_or_transGen.mp h with rfl | h
  · exact hid
  · exact contains_of_above h

/-- Document order: a node, and then what is at or below each child in turn. -/
theorem WellFormed.descendants_eq (hw : d.WellFormed) {id : NodeId} (hid : d.contains id) :
    d.descendants id = id :: (d.children id).flatMap d.descendants :=
  (hw.lists_descendants hid).unique
    (Lists.cons fun _ hc => hw.lists_descendants (hw.contains_of_child hc))

end Document

end CopyControl
