import CopyControl.Proofs.Document.Operations

/-!
Who gets listeners, and who keeps them.

Nodes lose their listeners when they are freed, and only one operation gives a node a listener. So
the listeners that another operation leaves are those of the nodes that it leaves
(`keepsListeners_run`).

* §1 the listeners of what stays
* §2 freeing
* §3 operations
-/

namespace CopyControl

/-- The listeners that an operation gives a live node. -/
def Operation.listenersFor (x : NodeId) : Operation → List Listener
  | .addClickListener y l => if y = x then [l] else []
  | _ => []

namespace Document

open Edit

/-! ## §1 The listeners of what stays -/

/-- The listeners left are those of the nodes that are left. -/
def KeepsListeners (d d' : Document) : Prop :=
  d'.listeners = d.listeners.filter fun l => d'.contains l.1

variable {d d' d'' : Document} {x : NodeId}

namespace KeepsListeners

theorem subset (h : d.KeepsListeners d') : d'.listeners ⊆ d.listeners := by
  rw [h]
  exact List.filter_subset_self _

theorem clickListeners (h : d.KeepsListeners d') (hx : d'.contains x) :
    d'.clickListeners x = d.clickListeners x := by
  rw [Document.clickListeners, h, List.filter_filter, Document.clickListeners]
  refine congrArg (List.map _) (List.filter_congr fun l _ => ?_)
  by_cases hl : l.1 = x
  · simp [hl, hx]
  · simp [hl]

/-- Nothing comes back in the second step. -/
theorem trans (h : d.KeepsListeners d') (h' : d'.KeepsListeners d'')
    (hlive : ∀ x, d''.contains x → d'.contains x) : d.KeepsListeners d'' := by
  rw [KeepsListeners, h', h, List.filter_filter]
  refine List.filter_congr fun l _ => ?_
  by_cases hl : d''.contains l.1
  · simp [hl, hlive l.1 hl]
  · simp [hl]

end KeepsListeners

theorem keepsListeners_of_eq (hw' : d'.WellFormed) (h : d'.listeners = d.listeners) :
    d.KeepsListeners d' := by
  rw [KeepsListeners, h]
  exact (List.filter_eq_self.mpr fun l hl => hw'.listeners_live l (h ▸ hl)).symm

theorem keepsListeners_of_fails (hw : d.WellFormed) {α : Type} {e : Edit α} (h : e.Fails d) :
    d.KeepsListeners (e.apply d).2 := by
  obtain ⟨x, hx⟩ := h
  rw [hx]
  exact keepsListeners_of_eq hw rfl

/-! ### Changes that free nothing -/

theorem listeners_detach (d : Document) (p c : NodeId) :
    (d.detach p c).listeners = d.listeners := by
  simp [detach]

theorem listeners_regrouped (d : Document) (p : NodeId) (cs : List NodeId) :
    (d.regrouped p cs).listeners = d.listeners := by
  rw [regrouped, (foldl_adopt_rest _ p cs).1, cleared, (foldl_orphan_rest _ _).1,
    listeners_updateNode]

theorem listeners_updateElement (d : Document) (x : NodeId) (f : Element → Element) :
    ((updateElement x f).apply d).2.listeners = d.listeners := by
  by_cases h : d.IsElement x
  · rw [updateElement_ok f h, listeners_updateNode]
  · obtain ⟨e, he⟩ := updateElement_fails f h
    rw [he]

theorem listeners_insertBefore (d : Document) (p c : NodeId) (r : Option NodeId) :
    ((insertBefore p c r).apply d).2.listeners = d.listeners := by
  by_cases h : d.Insertable p c r
  · rw [insertBefore_ok h]
    split
    · rfl
    · exact listeners_move ..
  · obtain ⟨e, he⟩ := insertBefore_fails h
    rw [he]

/-! ## §2 Freeing -/

section freeing
variable (hw : d.WellFormed)
include hw

theorem keepsListeners_releaseSubtree (x : NodeId) : d.KeepsListeners (d.releaseSubtree x) := by
  rw [KeepsListeners, releaseSubtree, listeners_foldl_vacate]
  refine List.filter_congr fun l hl => ?_
  rw [Bool.eq_iff_iff, decide_eq_true_iff]
  exact ((contains_releaseSubtree hw x l.1).trans
    (and_iff_right (hw.listeners_live l hl))).symm

theorem keepsListeners_foldl_releaseIfOrphan (l : List NodeId) :
    d.KeepsListeners (l.foldl releaseIfOrphan d) := by
  induction l generalizing d with
  | nil => exact keepsListeners_of_eq hw rfl
  | cons x l ih =>
    obtain ⟨hw', -⟩ := releaseIfOrphan_spec hw x
    have hx : d.KeepsListeners (d.releaseIfOrphan x) := by
      unfold releaseIfOrphan
      split
      · exact keepsListeners_releaseSubtree hw x
      · exact keepsListeners_of_eq hw rfl
    refine hx.trans (ih hw') fun y hy => ?_
    rwa [contains, ← (foldl_releaseIfOrphan_spec hw' l).2.node? hy]

theorem keepsListeners_swapChildren {p : NodeId} {cs : List NodeId} (hp : d.IsElement p)
    (hcs : ∀ c ∈ cs, d.MayHold p c) : d.KeepsListeners (d.swapChildren p cs) := by
  have hw' := wellFormed_notify (regrouped_spec hw hp hcs).1 ⟨p, cs, d.children p⟩
  have hfree := keepsListeners_foldl_releaseIfOrphan hw' (d.children p)
  rw [← swapChildren_eq] at hfree
  rwa [KeepsListeners, listeners_notify, listeners_regrouped] at hfree

theorem keepsListeners_replaceChildren (p : NodeId) (cs : List NodeId) :
    d.KeepsListeners ((replaceChildren p cs).apply d).2 := by
  by_cases h : d.IsElement p ∧ ∀ c ∈ cs, d.MayHold p c
  · rw [replaceChildren_ok h.1 h.2]
    exact keepsListeners_swapChildren hw h.1 h.2
  · exact keepsListeners_of_fails hw (replaceChildren_fails h)

theorem keepsListeners_release (x : NodeId) : d.KeepsListeners ((release x).apply d).2 := by
  by_cases h : d.contains x ∧ x ≠ d.root
  swap
  · exact keepsListeners_of_fails hw (release_fails h)
  rw [release_ok h.1 h.2, cutLoose]
  cases hp : d.parent? x with
  | none => exact keepsListeners_releaseSubtree hw x
  | some p =>
    have hfree := keepsListeners_releaseSubtree
      (wellFormed_notify (wellFormed_detach hw hp) (.ofRemoved p x)) x
    rwa [KeepsListeners, listeners_notify, listeners_detach] at hfree

theorem keepsListeners_setTextContent (x : NodeId) (s : String) :
    d.KeepsListeners ((setTextContent x s).apply d).2 := by
  by_cases hx : d.IsElement x
  · have hw' : (d.newText s).2.WellFormed := wellFormed_createNode hw (by simp)
    have hswap := keepsListeners_swapChildren hw' (isElement_newText hw s hx)
      (mayHold_newText hw s hx)
    rw [setTextContent_ok hw s hx]
    rwa [KeepsListeners, newText, listeners_createNode] at hswap
  · exact keepsListeners_of_fails hw (setTextContent_fails s hx)

theorem keepsListeners_setText (x : NodeId) (s : String) :
    d.KeepsListeners ((setText x s).apply d).2 := by
  have hw' := wellFormed_run hw (.setText x s)
  rw [Operation.run] at hw'
  cases h : d.soleText? x with
  | none =>
    rw [setText_of_not_sole s h]
    exact keepsListeners_setTextContent hw x s
  | some only =>
    rw [setText_of_sole s h] at hw' ⊢
    exact keepsListeners_of_eq hw' (listeners_updateNode ..)

end freeing

/-! ## §3 Operations -/

section run
variable (hw : d.WellFormed)
include hw

theorem keepsListeners_run {o : Operation} (ho : ∀ x l, o ≠ .addClickListener x l) :
    d.KeepsListeners (o.run d) := by
  have hw' := wellFormed_run hw o
  by_cases hn : o.OnNodes
  swap
  · exact keepsListeners_of_eq hw' (sameArena_run d hn).listeners
  cases o with
  | createElement _ | createText _ | createRaw _ =>
    exact keepsListeners_of_eq hw' (listeners_createNode ..)
  | appendChild p c => exact keepsListeners_of_eq hw' (listeners_insertBefore d p c none)
  | insertBefore p c r => exact keepsListeners_of_eq hw' (listeners_insertBefore d p c r)
  | removeChild p c =>
    by_cases h : d.parent? c = some p
    · refine keepsListeners_of_eq hw' ?_
      rw [Operation.run, removeChild_ok h, listeners_notify, listeners_detach]
    · exact keepsListeners_of_fails hw (removeChild_fails h)
  | replaceChildren p cs => exact keepsListeners_replaceChildren hw p cs
  | release x => exact keepsListeners_release hw x
  | setText x s => exact keepsListeners_setText hw x s
  | setTextContent x s => exact keepsListeners_setTextContent hw x s
  | appendText x s =>
    by_cases h : d.IsElement x
    · refine keepsListeners_of_eq hw' ?_
      rw [Operation.run, appendText_ok hw s h, listeners_move, newText, listeners_createNode]
    · exact keepsListeners_of_fails hw (appendText_fails s h)
  | addClass x _ | setAttribute x _ _ =>
    exact keepsListeners_of_eq hw' (listeners_updateElement d x _)
  | addClickListener x l => exact absurd rfl (ho x l)
  | observe | disconnect | takeRecords | nextBatch | dropSubscription | markReady => exact hn.elim

/-- A listener was there before the operation, or the operation has added it. -/
theorem listeners_run (o : Operation) {l : NodeId × Listener} (hl : l ∈ (o.run d).listeners) :
    l ∈ d.listeners ∨ o = .addClickListener l.1 l.2 := by
  by_cases ho : ∃ x new, o = .addClickListener x new
  · obtain ⟨x, new, rfl⟩ := ho
    by_cases hx : d.contains x
    · rw [Operation.run, addClickListener_ok new hx, List.mem_append, List.mem_singleton] at hl
      exact hl.imp id fun h => by rw [h]
    · obtain ⟨e, he⟩ := addClickListener_fails new hx
      rw [Operation.run, he] at hl
      exact .inl hl
  · exact .inl ((keepsListeners_run hw fun x new h => ho ⟨x, new, h⟩).subset hl)

/-- A node that stays has the listeners it had, and after them the one that it is given. -/
theorem clickListeners_run (o : Operation) (hx : (o.run d).contains x) :
    (o.run d).clickListeners x = d.clickListeners x ++ o.listenersFor x := by
  by_cases ho : ∃ y l, o = .addClickListener y l
  · obtain ⟨y, l, rfl⟩ := ho
    by_cases hy : d.contains y
    · rw [Operation.run, addClickListener_ok l hy]
      by_cases hyx : y = x <;> simp [clickListeners, Operation.listenersFor, hyx]
    · obtain ⟨e, he⟩ := addClickListener_fails l hy
      rw [Operation.run, he] at hx ⊢
      have hyx : y ≠ x := fun h => hy (h ▸ hx)
      simp [Operation.listenersFor, hyx]
  · have hadd : ∀ y l, o ≠ .addClickListener y l := fun y l h => ho ⟨y, l, h⟩
    rw [(keepsListeners_run hw hadd).clickListeners hx, Operation.listenersFor, List.append_nil]
    exact hadd

end run

end Document

end CopyControl
