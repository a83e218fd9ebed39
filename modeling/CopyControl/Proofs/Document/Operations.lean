import CopyControl.Proofs.Document.Changes

/-!
Operations as data, and the forest after any run of them.

`Operation` has one constructor for each public operation on a document, with handles that may
name live nodes, freed ones, or nodes of some other document. What an operation can do is said
once: it makes a few `Change`s, each with the conditions under which it is made
(`makes_run`). An invariant is then shown for the changes and holds after every run.

* `wellFormed_run` — the forest is well-formed after every run
* `nodeCount_eq` — and then the node count counts the live nodes
-/

namespace CopyControl

/-- A public operation on a document. -/
inductive Operation where
  | createElement (tag : String)
  | createText (s : String)
  | createRaw (markup : String)
  | appendChild (parent child : NodeId)
  | insertBefore (parent child : NodeId) (reference : Option NodeId)
  | removeChild (parent child : NodeId)
  | replaceChildren (parent : NodeId) (children : List NodeId)
  | release (node : NodeId)
  | setText (node : NodeId) (s : String)
  | setTextContent (node : NodeId) (s : String)
  | appendText (node : NodeId) (s : String)
  | addClass (node : NodeId) (c : String)
  | setAttribute (node : NodeId) (name value : String)
  | addClickListener (node : NodeId) (l : Listener)
  | observe (target : NodeId) (subtree : Bool)
  | disconnect (observer : ObserverId)
  | takeRecords (observer : ObserverId)
  | nextBatch (observer : ObserverId)
  | dropSubscription (observer : ObserverId)
  | markReady
deriving DecidableEq, Repr, Inhabited

namespace Operation

/-- The document after an operation, whether it succeeds or fails. -/
def run : Operation → Document → Document
  | createElement tag, d => ((Document.createElement tag).apply d).2
  | createText s, d => ((Document.createText s).apply d).2
  | createRaw markup, d => ((Document.createRaw markup).apply d).2
  | appendChild p c, d => ((Document.appendChild p c).apply d).2
  | insertBefore p c r, d => ((Document.insertBefore p c r).apply d).2
  | removeChild p c, d => ((Document.removeChild p c).apply d).2
  | replaceChildren p cs, d => ((Document.replaceChildren p cs).apply d).2
  | release id, d => ((Document.release id).apply d).2
  | setText id s, d => ((Document.setText id s).apply d).2
  | setTextContent id s, d => ((Document.setTextContent id s).apply d).2
  | appendText id s, d => ((Document.appendText id s).apply d).2
  | addClass id c, d => ((Document.addClass id c).apply d).2
  | setAttribute id name value, d => ((Document.setAttribute id name value).apply d).2
  | addClickListener id l, d => ((Document.addClickListener id l).apply d).2
  | observe target subtree, d => (d.observe target subtree).2
  | disconnect o, d => d.disconnect o
  | takeRecords o, d => (d.takeRecords o).2
  | nextBatch o, d => (d.nextBatch o).2
  | dropSubscription o, d => d.dropSubscription o
  | markReady, d => d.markReady

/-- Whether the operation is one on nodes. The others are on observers or on the ready state. -/
def OnNodes : Operation → Prop
  | observe _ _ | disconnect _ | takeRecords _ | nextBatch _ | dropSubscription _ | markReady =>
    False
  | _ => True

/-- The document after some operations. -/
def runAll (os : List Operation) (d : Document) : Document :=
  os.foldl (fun d o => o.run d) d

theorem runAll_cons (o : Operation) (os : List Operation) (d : Document) :
    runAll (o :: os) d = runAll os (o.run d) := rfl

theorem runAll_append (ops ops' : List Operation) (d : Document) :
    runAll (ops ++ ops') d = runAll ops' (runAll ops d) :=
  List.foldl_append

end Operation

namespace Document

open Relation Edit

variable {d d' : Document}

/-! ## §1 The changes of an operation -/

/-- Any number of changes, one after the other. -/
abbrev Changes : Document → Document → Prop :=
  ReflTransGen Change

theorem Changes.wellFormed (hw : d.WellFormed) (h : Changes d d') : d'.WellFormed := by
  induction h with
  | refl => exact hw
  | tail _ hc ih => exact hc.wellFormed ih

theorem Changes.shell_eq (h : Changes d d') : d'.shell = d.shell := by
  induction h with
  | refl => rfl
  | tail _ hc ih => exact hc.shell_eq.trans ih

theorem Changes.anchors_eq (h : Changes d d') : d'.anchors = d.anchors :=
  anchors_congr h.shell_eq

theorem Changes.landmarks_eq (h : Changes d d') : d'.landmarks = d.landmarks :=
  congrArg Prod.fst h.anchors_eq

/-- What one operation does: at most one change, or one that keeps every slot and then one. -/
inductive Makes (d : Document) : Document → Prop
  | none : Makes d d
  | one {d' : Document} (h : d.Change d') : Makes d d'
  | two {d' d'' : Document} (hk : ∀ i, Keeps i d d') (h : d.Change d') (h' : d'.Change d'') :
      Makes d d''

theorem Makes.changes (h : d.Makes d') : Changes d d' := by
  cases h with
  | none => exact .refl
  | one h => exact .single h
  | two _ h h' => exact .tail (.single h) h'

theorem Makes.keeps_or_empties (hw : d.WellFormed) (h : d.Makes d') (i : Nat) :
    Keeps i d d' ∨ Empties i d d' := by
  cases h with
  | none => exact .inl (.refl i d)
  | one h => exact h.keeps_or_empties hw i
  | two hk h h' =>
    rcases h'.keeps_or_empties (h.wellFormed hw) i with h' | h'
    · exact .inl ((hk i).trans h')
    · exact .inr ((hk i).empties h')

theorem makes_of_fails {α : Type} {e : Edit α} (h : e.Fails d) : d.Makes (e.apply d).2 := by
  obtain ⟨x, hx⟩ := h
  rw [hx]
  exact .none

theorem makes_updateElement (id : NodeId) {f : Element → Element}
    (hf : ∀ e, (NodeKind.element e).MayBecome (.element (f e))) :
    d.Makes ((updateElement id f).apply d).2 := by
  by_cases h : d.IsElement id
  · rw [updateElement_ok f h]
    refine .one (.data id _ _ (onElement_eq f) fun k hk => ?_)
    obtain ⟨e, he⟩ := Option.isSome_iff_exists.mp h
    rw [element?_eq_some_iff, hk] at he
    obtain rfl := Option.some.inj he
    exact hf e
  · exact makes_of_fails (updateElement_fails f h)

theorem makes_insertBefore (p c : NodeId) (r : Option NodeId) :
    d.Makes ((insertBefore p c r).apply d).2 := by
  by_cases h : d.Insertable p c r
  · rw [insertBefore_ok h]
    split
    · exact .none
    · exact .one (.move p c r h.element h.mayHold)
  · exact makes_of_fails (insertBefore_fails h)

theorem makes_removeChild (p c : NodeId) : d.Makes ((removeChild p c).apply d).2 := by
  by_cases h : d.parent? c = some p
  · rw [removeChild_ok h]
    exact .one (.cut p c h)
  · exact makes_of_fails (removeChild_fails h)

theorem makes_replaceChildren (p : NodeId) (cs : List NodeId) :
    d.Makes ((replaceChildren p cs).apply d).2 := by
  by_cases h : d.IsElement p ∧ ∀ c ∈ cs, d.MayHold p c
  · rw [replaceChildren_ok h.1 h.2]
    exact .one (.swap p cs h.1 h.2)
  · exact makes_of_fails (replaceChildren_fails h)

theorem makes_release (id : NodeId) : d.Makes ((release id).apply d).2 := by
  by_cases h : d.contains id ∧ id ≠ d.root
  swap
  · exact makes_of_fails (release_fails h)
  rw [release_ok h.1 h.2, cutLoose]
  cases hp : d.parent? id with
  | none => exact .one (.free id hp)
  | some p =>
    refine .two (fun i => keeps_cut p id) (.cut p id hp) (.free id ?_)
    rw [parent?_notify, parent?_detach, if_pos rfl]

section
variable (hw : d.WellFormed)
include hw

theorem makes_setTextContent (id : NodeId) (s : String) :
    d.Makes ((setTextContent id s).apply d).2 := by
  by_cases h : d.IsElement id
  · rw [setTextContent_ok hw s h]
    refine .two (fun i => keeps_createNode hw.free _) (.create (.text s) (by simp)) ?_
    exact .swap id _ (isElement_newText hw s h) (mayHold_newText hw s h)
  · exact makes_of_fails (setTextContent_fails s h)

theorem makes_setText (id : NodeId) (s : String) : d.Makes ((setText id s).apply d).2 := by
  cases h : d.soleText? id with
  | none =>
    rw [setText_of_not_sole s h]
    exact makes_setTextContent hw id s
  | some only =>
    rw [setText_of_sole s h]
    refine .one (.data only _ (fun _ => .text s) (fun n => rfl) fun k hk => ?_)
    obtain ⟨t, ht⟩ := kind?_of_soleText? h
    rw [ht] at hk
    obtain rfl := Option.some.inj hk
    trivial

theorem makes_appendText (id : NodeId) (s : String) :
    d.Makes ((appendText id s).apply d).2 := by
  by_cases h : d.IsElement id
  · rw [appendText_ok hw s h]
    refine .two (fun i => keeps_createNode hw.free _) (.create (.text s) (by simp)) ?_
    exact .move id _ none (isElement_newText hw s h)
      (mayHold_newText hw s h _ (List.mem_singleton.mpr rfl))
  · exact makes_of_fails (appendText_fails s h)

/-- Every operation on nodes does what its changes do. -/
theorem makes_run (o : Operation) (ho : o.OnNodes) : d.Makes (o.run d) := by
  cases o with
  | createElement tag =>
    exact .one (.create _ fun e he => NodeKind.element.inj he ▸ Element.noRepeats_ofTag tag)
  | createText s => exact .one (.create _ (by simp))
  | createRaw markup => exact .one (.create _ (by simp))
  | appendChild p c => exact makes_insertBefore p c none
  | insertBefore p c r => exact makes_insertBefore p c r
  | removeChild p c => exact makes_removeChild p c
  | replaceChildren p cs => exact makes_replaceChildren p cs
  | release id => exact makes_release id
  | setText id s => exact makes_setText hw id s
  | setTextContent id s => exact makes_setTextContent hw id s
  | appendText id s => exact makes_appendText hw id s
  | addClass id c =>
    exact makes_updateElement id fun e => ⟨Element.tag_addClass e c,
      fun x hx => Element.hasClass_addClass.mpr (.inl hx), fun h => Element.noRepeats_addClass h c⟩
  | setAttribute id name value =>
    exact makes_updateElement id fun e => ⟨rfl, fun _ hx => hx,
      fun h => Element.noRepeats_setAttribute h name value⟩
  | addClickListener id l =>
    by_cases h : d.contains id
    · have := addClickListener_ok l h
      rw [Operation.run, this]
      exact .one (.listen id l h)
    · exact makes_of_fails (addClickListener_fails l h)
  | observe | disconnect | takeRecords | nextBatch | dropSubscription | markReady => exact ho.elim

end

/-- Nodes and listeners are the same; observers and the ready state may differ. -/
structure SameArena (d d' : Document) : Prop where
  slots : d'.slots = d.slots
  free : d'.free = d.free
  listeners : d'.listeners = d.listeners
  anchors : d'.anchors = d.anchors

theorem SameArena.landmarks (h : d.SameArena d') : d'.landmarks = d.landmarks :=
  congrArg Prod.fst h.anchors

theorem SameArena.wellFormed (h : d.SameArena d') (hw : d.WellFormed) : d'.WellFormed :=
  hw.congr h.slots h.free h.listeners

theorem SameArena.atOrAbove_iff (h : d.SameArena d') {a x : NodeId} :
    d'.AtOrAbove a x ↔ d.AtOrAbove a x := by
  have hlink : d'.Link = d.Link := by
    funext x y
    simp only [Link, (lookups_congr h.slots).2.2.1]
  simp only [AtOrAbove, hlink]

/-- The other operations leave the arena and the listeners as they are. -/
theorem sameArena_run (d : Document) {o : Operation} (ho : ¬ o.OnNodes) :
    d.SameArena (o.run d) := by
  cases o with
  | observe | disconnect | takeRecords | dropSubscription | markReady =>
    exact ⟨rfl, rfl, rfl, rfl⟩
  | nextBatch o =>
    simp only [Operation.run, nextBatch]
    split <;> exact ⟨rfl, rfl, rfl, rfl⟩
  | _ => exact absurd trivial ho

theorem wellFormed_run (hw : d.WellFormed) (o : Operation) : (o.run d).WellFormed := by
  by_cases ho : o.OnNodes
  · exact (makes_run hw o ho).changes.wellFormed hw
  · exact (sameArena_run d ho).wellFormed hw

theorem landmarks_run (hw : d.WellFormed) (o : Operation) : (o.run d).landmarks = d.landmarks := by
  by_cases ho : o.OnNodes
  · exact (makes_run hw o ho).changes.landmarks_eq
  · exact (sameArena_run d ho).landmarks

theorem landmarks_runAll (hw : d.WellFormed) (os : List Operation) :
    (Operation.runAll os d).landmarks = d.landmarks := by
  induction os generalizing d with
  | nil => rfl
  | cons o os ih => exact (ih (wellFormed_run hw o)).trans (landmarks_run hw o)

theorem wellFormed_runAll (hw : d.WellFormed) (os : List Operation) :
    (Operation.runAll os d).WellFormed := by
  induction os generalizing d with
  | nil => exact hw
  | cons o os ih => exact ih (wellFormed_run hw o)

/-! ## §2 Every document that operations lead to -/

theorem node?_new (x : NodeId) :
    new.node? x =
      if x = new.root then some ⟨.element (.ofTag "html"), none, [new.head, new.body]⟩
      else if x = new.head then some ⟨.element (.ofTag "head"), some new.root, []⟩
      else if x = new.body then some ⟨.element (.ofTag "body"), some new.root, []⟩
      else none := by
  obtain ⟨i, g⟩ := x
  rcases eq_or_ne g 0 with rfl | hg
  · rcases i with _ | _ | _ | i <;> simp [node?, new]
  · rcases i with _ | _ | _ | i <;> simp [node?, new, hg, hg.symm]

theorem parent?_new (x : NodeId) :
    new.parent? x = if x = new.head ∨ x = new.body then some new.root else none := by
  rw [parent?, node?_new]
  split
  · rename_i h
    subst h
    rfl
  · have hne : new.body ≠ new.head := by decide
    by_cases h : x = new.head <;> by_cases h' : x = new.body <;> simp [h, h', hne]

theorem children_new (x : NodeId) :
    new.children x = if x = new.root then [new.head, new.body] else [] := by
  rw [children, node?_new]
  split
  · rfl
  · have hne : new.body ≠ new.head := by decide
    by_cases h : x = new.head <;> by_cases h' : x = new.body <;> simp [h, h', hne]

theorem kind?_new (x : NodeId) : ∀ k, new.kind? x = some k → ∃ tag, k = .element (.ofTag tag) := by
  intro k hk
  rw [kind?, node?_new] at hk
  split at hk
  · exact ⟨_, (Option.some.inj hk).symm⟩
  split at hk
  · exact ⟨_, (Option.some.inj hk).symm⟩
  split at hk
  · exact ⟨_, (Option.some.inj hk).symm⟩
  · simp at hk

theorem wellFormed_new : new.WellFormed where
  free := ⟨List.nodup_nil, fun i => by
    rcases i with _ | _ | _ | i <;> simp [Vacant, new]⟩
  parent_iff c p := by
    rw [parent?_new, children_new]
    by_cases hp : p = new.root
    · simp [hp, or_iff_not_imp_left]
    · simp [hp, Ne.symm hp]
  children_nodup p := by
    rw [children_new]
    split <;> decide
  element_of_child c p hc := by
    rw [children_new] at hc
    split at hc
    · rename_i hp
      subst hp
      rfl
    · simp at hc
  acyclic := by
    have hroot : ∀ x y, new.Link x y → y = new.root ∧ x ≠ new.root := by
      intro x y h
      rw [Link, parent?_new] at h
      split at h
      · refine ⟨(Option.some.inj h).symm, ?_⟩
        rintro rfl
        revert ‹_ ∨ _›
        decide
      · simp at h
    intro n hn
    obtain ⟨p, hp, -⟩ := TransGen.head'_iff.mp hn
    obtain ⟨q, -, hq⟩ := TransGen.tail'_iff.mp hn
    exact (hroot _ _ hp).2 (hroot _ _ hq).1
  listeners_live := by simp [new]
  no_repeats id e he := by
    obtain ⟨tag, ht⟩ := kind?_new id _ (element?_eq_some_iff.mp he)
    rw [NodeKind.element.inj ht]
    exact Element.noRepeats_ofTag tag

/-- The handle of the node in a slot. -/
def occupant? (d : Document) (i : Nat) : Option NodeId :=
  (d.slots[i]?).bind fun s => s.node.map fun _ => ⟨i, s.generation⟩

/-- The live nodes by slot. -/
def liveNodes (d : Document) : List NodeId :=
  (List.range d.slots.size).filterMap d.occupant?

theorem occupant?_eq_some_iff {i : Nat} {x : NodeId} :
    d.occupant? i = some x ↔ x.index = i ∧ d.contains x := by
  rw [contains_iff]
  simp only [node?_eq_some_iff, occupant?, Option.bind_eq_some_iff, Option.map_eq_some_iff]
  constructor
  · rintro ⟨⟨g, n⟩, hs, m, rfl, rfl⟩
    exact ⟨rfl, m, hs⟩
  · rintro ⟨rfl, m, hs⟩
    exact ⟨_, hs, m, rfl, rfl⟩

theorem mem_liveNodes_iff {x : NodeId} : x ∈ d.liveNodes ↔ d.contains x := by
  simp only [liveNodes, List.mem_filterMap, List.mem_range, occupant?_eq_some_iff]
  constructor
  · rintro ⟨_, _, _, hx⟩
    exact hx
  · exact fun hx => ⟨x.index, index_lt_of_contains hx, rfl, hx⟩

theorem nodup_liveNodes (d : Document) : d.liveNodes.Nodup := by
  refine List.Nodup.filterMap (fun i j x hi hj => ?_) List.nodup_range
  rw [Option.mem_def, occupant?_eq_some_iff] at hi hj
  exact hi.1.symm.trans hj.1

theorem occupant?_eq_none_iff {i : Nat} (hi : i < d.slots.size) :
    d.occupant? i = none ↔ d.Vacant i := by
  obtain ⟨⟨g, n⟩, hs⟩ : ∃ s, d.slots[i]? = some s := ⟨_, Array.getElem?_eq_getElem hi⟩
  cases n <;> simp [occupant?, Vacant, hs]

/-- Slots are free or hold a live node. -/
theorem FreeExact.length_free_add (hf : d.FreeExact) :
    d.free.length + d.liveNodes.length = d.slots.size := by
  have hempty : d.free.Perm ((List.range d.slots.size).filter fun i => d.occupant? i = none) := by
    refine (List.perm_ext_iff_of_nodup hf.nodup (List.nodup_range.filter _)).mpr fun i => ?_
    rw [hf.mem_iff, List.mem_filter, List.mem_range, decide_eq_true_iff]
    constructor
    · rintro ⟨g, hg⟩
      have hi := (Array.getElem?_eq_some_iff.mp hg).1
      exact ⟨hi, (occupant?_eq_none_iff hi).mpr ⟨g, hg⟩⟩
    · exact fun ⟨hi, h⟩ => (occupant?_eq_none_iff hi).mp h
  rw [hempty.length_eq, ← List.countP_eq_length_filter, liveNodes,
    List.length_filterMap_eq_countP, Nat.add_comm]
  have := List.length_eq_countP_add_countP (fun i => (d.occupant? i).isSome)
    (l := List.range d.slots.size)
  simpa using this.symm

theorem nodeCount_eq (hf : d.FreeExact) : d.nodeCount = d.liveNodes.length := by
  have := hf.length_free_add
  unfold nodeCount
  omega

/-- After any run of operations, with whatever handles, the document is a well-formed forest, and
its node count counts the live nodes. -/
theorem forest_runAll (os : List Operation) :
    let d := Operation.runAll os new
    -- the free list
    (d.free.Nodup ∧ (∀ i, i ∈ d.free ↔ d.Vacant i) ∧ d.free.length ≤ d.slots.size ∧
      d.nodeCount = d.liveNodes.length) ∧
    -- parents and child lists
    (∀ c p, d.contains c →
      (d.parent? c = some p ↔ (d.element? p).isSome ∧ c ∈ d.children p)) ∧
    (∀ c p, c ∈ d.children p → d.contains c ∧ (d.children p).count c = 1) ∧
    (∀ id k, d.kind? id = some k → k.element? = none → d.children id = []) ∧
    -- no cycles
    (∀ n, ¬ d.Above n n) ∧
    -- listeners and data
    (∀ l ∈ d.listeners, d.contains l.1) ∧
    (∀ id e, d.element? id = some e →
      e.classes.Nodup ∧ (e.attributes.map Prod.fst).Nodup) := by
  intro d
  have hw : d.WellFormed := wellFormed_runAll wellFormed_new os
  refine ⟨⟨hw.free.nodup, hw.free.mem_iff, ?_, nodeCount_eq hw.free⟩, ?_, ?_, ?_, hw.acyclic,
    hw.listeners_live, fun id e he => ?_⟩
  · have := hw.free.length_free_add
    omega
  · intro c p _
    rw [hw.parent_iff]
    exact ⟨fun hc => ⟨hw.element_of_child c p hc, hc⟩, And.right⟩
  · intro c p hc
    exact ⟨hw.contains_of_child hc, List.count_eq_one_of_mem (hw.children_nodup p) hc⟩
  · intro id k hk hke
    refine List.eq_nil_iff_forall_not_mem.mpr fun c hc => ?_
    have := hw.element_of_child c id hc
    simp [element?, hk, hke] at this
  · exact ⟨(hw.no_repeats id e he).classes, (hw.no_repeats id e he).attributes⟩

/-! ## §3 How long a handle names its node -/

theorem run_keeps_or_empties (hw : d.WellFormed) (o : Operation) (i : Nat) :
    Keeps i d (o.run d) ∨ Empties i d (o.run d) := by
  by_cases ho : o.OnNodes
  · exact (makes_run hw o ho).keeps_or_empties hw i
  · have hs := (sameArena_run d ho).slots
    refine .inl (keeps_of_kind? ?_ (lookups_congr hs).2.1)
    funext j
    simp only [generation?, hs]

/-- How many operations of a run empty a slot. -/
def timesEmptied (i : Nat) : List Operation → Document → Nat
  | [], _ => 0
  | o :: os, d =>
    (if (o.run d).generation? i = d.generation? i then 0 else 1) + timesEmptied i os (o.run d)

theorem timesEmptied_runAll_append (i : Nat) (os os' : List Operation) (d : Document) :
    timesEmptied i (os ++ os') d =
      timesEmptied i os d + timesEmptied i os' (Operation.runAll os d) := by
  induction os generalizing d with
  | nil => simp [timesEmptied, Operation.runAll]
  | cons o os ih =>
    rw [List.cons_append, timesEmptied, ih, timesEmptied, Nat.add_assoc]
    rfl

/-- A slot's generation counts how often it has been emptied. -/
theorem generation?_runAll (hw : d.WellFormed) (os : List Operation) {i : Nat} {g : UInt32}
    (hg : d.generation? i = some g) :
    (Operation.runAll os d).generation? i = some (g + .ofNat (timesEmptied i os d)) := by
  induction os generalizing d g with
  | nil => simp [Operation.runAll, timesEmptied, hg]
  | cons o os ih =>
    have hw' := wellFormed_run hw o
    rcases run_keeps_or_empties hw o i with h | h
    · have hg' := h.generation g hg
      have := ih hw' hg'
      simpa [Operation.runAll_cons, timesEmptied, hg, hg'] using this
    · have hg' := h g hg
      have hne : g + 1 ≠ g := by simp
      have := ih hw' hg'
      simpa [Operation.runAll_cons, timesEmptied, hg, hg', hne, UInt32.add_assoc] using this

/-- While its slot is not emptied, a handle names its node, and the node has its tag. -/
theorem tag?_runAll_of_not_emptied (hw : d.WellFormed) {os : List Operation} {x : NodeId}
    (hx : d.contains x) (h : timesEmptied x.index os d = 0) :
    (Operation.runAll os d).tag? x = d.tag? x := by
  induction os generalizing d with
  | nil => rfl
  | cons o os ih =>
    rw [timesEmptied, Nat.add_eq_zero_iff] at h
    rcases run_keeps_or_empties hw o x.index with hk | hk
    · obtain ⟨hx', ht⟩ := hk.node x rfl hx
      exact (ih (wellFormed_run hw o) hx' h.2).trans ht
    · have hg := generation?_of_contains hx
      simp [hg, hk _ hg] at h

/-- A handle that still names a node after its slot was emptied fewer than `2 ^ 32` times names
the node it was issued for. -/
theorem tag?_runAll (hw : d.WellFormed) {os : List Operation} {x : NodeId} (hx : d.contains x)
    (h : timesEmptied x.index os d < UInt32.size) (hx' : (Operation.runAll os d).contains x) :
    (Operation.runAll os d).tag? x = d.tag? x := by
  have hg := generation?_runAll hw os (generation?_of_contains hx)
  rw [generation?_of_contains hx', Option.some.injEq, UInt32.left_eq_add, ← UInt32.toNat_inj,
    UInt32.toNat_ofNat', Nat.mod_eq_of_lt h] at hg
  exact tag?_runAll_of_not_emptied hw hx hg

/-! ## §4 Programs of operations -/

/-- Whatever comes of it, the operation does to a document only what changes do. -/
def OnlyChanges {α : Type} (e : Edit α) : Prop :=
  ∀ d : Document, d.WellFormed → Changes d (e.apply d).2

section OnlyChanges
variable {α β : Type}

theorem onlyChanges_pure (a : α) : OnlyChanges (pure a) :=
  fun _ _ => .refl

theorem onlyChanges_get : OnlyChanges (get : Edit Document) :=
  fun _ _ => .refl

theorem OnlyChanges.bind {e : Edit α} {f : α → Edit β} (he : OnlyChanges e)
    (hf : ∀ a, OnlyChanges (f a)) : OnlyChanges (e >>= f) := by
  intro d hw
  have h := he d hw
  rw [apply_bind]
  cases hr : e.apply d with
  | mk r d' =>
    rw [hr] at h
    cases r with
    | error x => exact h
    | ok a => exact h.trans (hf a d' (h.wellFormed hw))

theorem OnlyChanges.anchors_eq {e : Edit α} (he : OnlyChanges e) (hw : d.WellFormed)
    {r : Except DocumentError α} (h : e.apply d = (r, d')) : d'.anchors = d.anchors := by
  have := (he d hw).anchors_eq
  rwa [h] at this

theorem onlyChanges_replaceChildren (p : NodeId) (cs : List NodeId) :
    OnlyChanges (replaceChildren p cs) :=
  fun _ _ => (makes_replaceChildren p cs).changes

theorem onlyChanges_setText (id : NodeId) (s : String) : OnlyChanges (setText id s) :=
  fun _ hw => (makes_setText hw id s).changes

end OnlyChanges

end Document

end CopyControl
