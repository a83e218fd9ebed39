import CopyControl.Proofs.Document.Delivery

/-!
Who is registered.

Work on nodes tells observers of changes and does nothing else to them: nobody registers, and who
goes had stopped listening (`Tended`). Everything else that is done to observers is an operation
that names one, or one that registers a new observer under an identity that has not been there
(`mem_observers_run`, `size_run`).

* §1 work on nodes
* §2 operations on observers
* §3 identities
-/

namespace CopyControl

/-! ## §1 Work on nodes -/

namespace Document

variable {d d' d'' : Document} {o : ObserverId}

/-- Observers may have been told of something. Nobody has registered; who has gone did not listen
any more. -/
structure OnlyTold (d d' : Document) : Prop where
  kept : ∀ o, d.isListening o → d'.registrationsOf o = d.registrationsOf o
  fewer : ∀ g ∈ d'.observers, g ∈ d.observers
  size : d'.mailboxes.size = d.mailboxes.size
  listening : ∀ o, d'.isListening o = d.isListening o

theorem OnlyTold.trans (h : d.OnlyTold d') (h' : d'.OnlyTold d'') : d.OnlyTold d'' where
  kept o ho := (h'.kept o (h.listening o ▸ ho)).trans (h.kept o ho)
  fewer g hg := h.fewer g (h'.fewer g hg)
  size := h'.size.trans h.size
  listening o := (h'.listening o).trans (h.listening o)

theorem SameObservers.onlyTold (h : d.SameObservers d') : d.OnlyTold d' where
  kept _ _ := registrationsOf_congr h
  fewer _ hg := h.1 ▸ hg
  size := congrArg Array.size h.2
  listening _ := isListening_congr h

theorem size_foldl_post (r : MutationRecord) (boxes : Array Mailbox) (ids : List ObserverId) :
    (ids.foldl (post r) boxes).size = boxes.size := by
  induction ids generalizing boxes with
  | nil => rfl
  | cons o ids ih => exact (ih _).trans Array.size_modify

theorem onlyTold_notify (d : Document) (r : MutationRecord) : d.OnlyTold (d.notify r) where
  kept o ho := by simp [registrationsOf_notify, ho]
  fewer g hg := by
    unfold notify at hg
    split at hg
    · exact hg
    · exact List.mem_of_mem_filter hg
  size := by
    rw [mailboxes_notify, size_foldl_post]
  listening := isListening_notify d r

theorem Tells.onlyTold (h : Tells d d') : d.OnlyTold d' := by
  induction h with
  | same hs => exact hs.onlyTold
  | notify _ r hs ih => exact (ih.trans (onlyTold_notify _ r)).trans hs.onlyTold

/-- Work on nodes, as observers see it; and nothing but nodes has changed. -/
structure Tended (d d' : Document) : Prop extends d.OnlyTold d' where
  shell : d'.shell = d.shell

theorem Tended.refl (d : Document) : d.Tended d :=
  ⟨SameObservers.onlyTold ⟨rfl, rfl⟩, rfl⟩

theorem Tended.trans (h : d.Tended d') (h' : d'.Tended d'') : d.Tended d'' :=
  ⟨h.toOnlyTold.trans h'.toOnlyTold, h'.shell.trans h.shell⟩

theorem Tended.body (h : d.Tended d') : d'.body = d.body :=
  congrArg (·.1.2) (anchors_congr h.shell)

theorem Changes.tended (h : Changes d d') : d.Tended d' := by
  induction h with
  | refl => exact .refl d
  | tail _ hc ih => exact ih.trans ⟨hc.tells.onlyTold, hc.shell_eq⟩

/-- Whoever takes records away leaves the registrations as they are. -/
theorem tended_takeRecords (d : Document) (o : ObserverId) : d.Tended (d.takeRecords o).2 where
  kept _ _ := rfl
  fewer _ hg := hg
  size := Array.size_modify
  listening p := by
    simp only [isListening, takeRecords, Array.getElem?_modify]
    split
    · cases d.mailboxes[p]? <;> rfl
    · rfl
  shell := rfl

theorem tended_nextBatch (d : Document) (o : ObserverId) : d.Tended (d.nextBatch o).2 := by
  rw [nextBatch_eq]
  dsimp only
  split
  · exact .refl d
  · exact tended_takeRecords d o

end Document

/-! ## §2 Operations on observers -/

/-- The identity that an operation answers for a new observer. -/
def Operation.subscribes : Operation → Document → List ObserverId
  | observe _ _, d => [d.mailboxes.size]
  | _, _ => []

theorem Operation.subscribes_of_onNodes {op : Operation} (ho : op.OnNodes) (d : Document) :
    op.subscribes d = [] := by
  cases op with
  | observe _ _ => exact ho.elim
  | _ => rfl

namespace Document

variable {d : Document} {o p : ObserverId}

theorem size_observe (d : Document) (target : NodeId) (subtree : Bool) :
    (d.observe target subtree).2.mailboxes.size = d.mailboxes.size + 1 :=
  Array.size_push _

theorem registrationsOf_observe_of_lt (target : NodeId) (subtree : Bool)
    (ho : o < d.mailboxes.size) :
    (d.observe target subtree).2.registrationsOf o = d.registrationsOf o := by
  have hne : d.mailboxes.size ≠ o := (Nat.ne_of_lt ho).symm
  simp [observe, registrationsOf, hne]

theorem isListening_observe_of_lt (target : NodeId) (subtree : Bool)
    (ho : o < d.mailboxes.size) :
    (d.observe target subtree).2.isListening o = d.isListening o := by
  rw [isListening, observe, Array.getElem?_push, if_neg (Nat.ne_of_lt ho), isListening]

theorem registrationsOf_disconnect (h : o ≠ p) :
    (d.disconnect p).registrationsOf o = d.registrationsOf o := by
  rw [registrationsOf, disconnect, List.filter_filter]
  refine List.filter_congr fun g _ => ?_
  by_cases hg : g.id = o <;> simp [hg, h]

/-- Nobody registers but by an operation that observes, and under a new identity. -/
theorem mem_observers_run {op : Operation} (ho : ¬ op.OnNodes) {g : Registration}
    (hg : g ∈ (op.run d).observers) : g ∈ d.observers ∨ g.id ∈ op.subscribes d := by
  cases op with
  | observe target subtree =>
    rcases List.mem_append.mp hg with hg | hg
    · exact .inl hg
    · obtain rfl := List.mem_singleton.mp hg
      exact .inr (List.mem_singleton.mpr rfl)
  | disconnect p => exact .inl (List.mem_of_mem_filter hg)
  | nextBatch p => exact .inl ((tended_nextBatch d p).fewer g hg)
  | takeRecords _ | dropSubscription _ | markReady => exact .inl hg
  | _ => exact absurd trivial ho

theorem size_run {op : Operation} (ho : ¬ op.OnNodes) :
    (op.run d).mailboxes.size = d.mailboxes.size + (op.subscribes d).length := by
  cases op with
  | observe target subtree => exact size_observe d target subtree
  | nextBatch p => exact (tended_nextBatch d p).size
  | takeRecords _ | dropSubscription _ => exact Array.size_modify
  | disconnect _ | markReady => rfl
  | _ => exact absurd trivial ho

theorem eq_size_of_mem_subscribes {op : Operation} (ho : o ∈ op.subscribes d) :
    o = d.mailboxes.size ∧ 0 < (op.subscribes d).length := by
  cases op with
  | observe _ _ => exact ⟨List.mem_singleton.mp ho, Nat.one_pos⟩
  | _ => simp [Operation.subscribes] at ho

/-! ## §3 Identities -/

/-- Every registration has an identity of its own, and one that has been given out. -/
structure Numbered (d : Document) : Prop where
  issued : ∀ g ∈ d.observers, g.id < d.mailboxes.size
  unique : ∀ g ∈ d.observers, ∀ g' ∈ d.observers, g.id = g'.id → g = g'

namespace Numbered

theorem tended {d' : Document} (hn : d.Numbered) (ht : d.Tended d') : d'.Numbered where
  issued g hg := ht.size.symm ▸ hn.issued g (ht.fewer g hg)
  unique g hg g' hg' := hn.unique g (ht.fewer g hg) g' (ht.fewer g' hg')

theorem observe (hn : d.Numbered) (target : NodeId) (subtree : Bool) :
    (d.observe target subtree).2.Numbered where
  issued g hg := by
    rw [size_observe]
    rcases List.mem_append.mp hg with hg | hg
    · exact Nat.lt_succ_of_lt (hn.issued g hg)
    · rw [List.mem_singleton.mp hg]
      exact Nat.lt_succ_self _
  unique g hg g' hg' h := by
    rcases List.mem_append.mp hg with hg | hg <;> rcases List.mem_append.mp hg' with hg' | hg'
    · exact hn.unique g hg g' hg' h
    · have hlt := hn.issued g hg
      rw [h, List.mem_singleton.mp hg'] at hlt
      exact absurd hlt (Nat.lt_irrefl _)
    · have hlt := hn.issued g' hg'
      rw [← h, List.mem_singleton.mp hg] at hlt
      exact absurd hlt (Nat.lt_irrefl _)
    · rw [List.mem_singleton.mp hg, List.mem_singleton.mp hg']

theorem disconnect (hn : d.Numbered) (o : ObserverId) : (d.disconnect o).Numbered where
  issued g hg := hn.issued g (List.mem_of_mem_filter hg)
  unique g hg g' hg' := hn.unique g (List.mem_of_mem_filter hg) g' (List.mem_of_mem_filter hg')

theorem run (hn : d.Numbered) (hw : d.WellFormed) (op : Operation) : (op.run d).Numbered := by
  by_cases ho : op.OnNodes
  · exact hn.tended (makes_run hw op ho).changes.tended
  cases op with
  | observe target subtree => exact hn.observe target subtree
  | disconnect o => exact hn.disconnect o
  | takeRecords o => exact hn.tended (tended_takeRecords d o)
  | nextBatch o => exact hn.tended (tended_nextBatch d o)
  | dropSubscription o =>
    refine ⟨fun g hg => ?_, hn.unique⟩
    rw [Operation.run, dropSubscription, Array.size_modify]
    exact hn.issued g hg
  | markReady => exact ⟨hn.issued, hn.unique⟩
  | _ => exact absurd trivial ho

theorem runAll (hn : d.Numbered) (hw : d.WellFormed) (ops : List Operation) :
    (Operation.runAll ops d).Numbered := by
  induction ops generalizing d with
  | nil => exact hn
  | cons op ops ih => exact ih (hn.run hw op) (wellFormed_run hw op)

/-- Of an observer there is no registration but the one. -/
theorem eq_of_mem_registrationsOf (hn : d.Numbered) {g g' : Registration} (hg : g ∈ d.observers)
    (hg' : g' ∈ d.registrationsOf g.id) : g' = g := by
  obtain ⟨hmem, hid⟩ := List.mem_filter.mp hg'
  exact hn.unique g' hmem g hg (of_decide_eq_true hid)

end Numbered

theorem numbered_new : new.Numbered := by
  constructor <;> simp [new]

end Document

end CopyControl
