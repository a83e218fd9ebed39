import CopyControl.Proofs.Document.Operations

/-!
Observers, and what they are told.

A change does nothing to observers but tell them of something (`Change.tells`): an observer that
listens stays registered, and nothing is taken from its mailbox. What is told of a node at or below
its target reaches it (`told_notify`).
-/

namespace CopyControl.Document

open Relation

variable {d d' : Document} {o : ObserverId} {top : NodeId}

/-- The observer is registered for all that is at or below `top`, and its subscriber listens. -/
structure Attends (d : Document) (o : ObserverId) (top : NodeId) : Prop where
  registered : ⟨o, top, true⟩ ∈ d.observers
  listening : d.isListening o

/-- Something is queued for the observer. -/
def Told (d : Document) (o : ObserverId) : Prop :=
  d.queued o ≠ []

/-! ## §1 Mailboxes -/

theorem isListening_iff : d.isListening o ↔ ∃ m, d.mailboxes[o]? = some m ∧ m.listening := by
  cases h : d.mailboxes[o]? <;> simp [isListening, h]

theorem told_iff : d.Told o ↔ ∃ m, d.mailboxes[o]? = some m ∧ m.queue ≠ [] := by
  cases h : d.mailboxes[o]? <;> simp [Told, queued, h]

theorem lt_size_of_isListening (h : d.isListening o) : o < d.mailboxes.size := by
  obtain ⟨m, hm, -⟩ := isListening_iff.mp h
  exact (Array.getElem?_eq_some_iff.mp hm).1

theorem wellFormed_of_notify {r : MutationRecord} (hw : (d.notify r).WellFormed) : d.WellFormed :=
  hw.congr (slots_notify d r).symm (free_notify d r).symm (listeners_notify d r).symm

/-- A record put into some mailboxes closes none and empties none. -/
theorem getElem?_foldl_post (r : MutationRecord) (boxes : Array Mailbox) (ids : List ObserverId)
    {m : Mailbox} (h : boxes[o]? = some m) :
    ∃ m', (ids.foldl (post r) boxes)[o]? = some m' ∧ m'.listening = m.listening ∧
      (m.queue ≠ [] → m'.queue ≠ []) ∧ (m.listening → o ∈ ids → m'.queue ≠ []) := by
  induction ids generalizing boxes m with
  | nil => exact ⟨m, h, rfl, id, by simp⟩
  | cons i ids ih =>
    obtain ⟨m₁, h₁, hl, hq, hi⟩ : ∃ m₁, (post r boxes i)[o]? = some m₁ ∧
        m₁.listening = m.listening ∧ (m.queue ≠ [] → m₁.queue ≠ []) ∧
        (m.listening → o = i → m₁.queue ≠ []) := by
      rw [post, Array.getElem?_modify]
      by_cases hio : i = o
      · refine ⟨_, by rw [if_pos hio, h]; rfl, ?_⟩
        dsimp only
        split <;> simp_all
      · exact ⟨m, by rw [if_neg hio, h], rfl, id, fun _ h => absurd h.symm hio⟩
    obtain ⟨m₂, h₂, hl₂, hq₂, hi₂⟩ := ih (post r boxes i) h₁
    refine ⟨m₂, h₂, hl₂.trans hl, hq₂ ∘ hq, fun hm ho => ?_⟩
    rcases List.mem_cons.mp ho with ho | ho
    · exact hq₂ (hi hm ho)
    · exact hi₂ (hl ▸ hm) ho

theorem mailboxes_notify (d : Document) (r : MutationRecord) :
    (d.notify r).mailboxes = ((d.observers.filter (d.watches · r.target)).map (·.id)).foldl
      (post r) d.mailboxes := by
  unfold notify
  split
  · rename_i h
    rw [List.isEmpty_iff.mp h]
    rfl
  · rfl

theorem Told.notify (h : d.Told o) (r : MutationRecord) : (d.notify r).Told o := by
  obtain ⟨m, hm, hq⟩ := told_iff.mp h
  obtain ⟨m', hm', -, hq', -⟩ := getElem?_foldl_post r d.mailboxes
    ((d.observers.filter (d.watches · r.target)).map (·.id)) hm
  exact told_iff.mpr ⟨m', by rw [mailboxes_notify, hm'], hq' hq⟩

/-- Only observers whose subscriber is gone are removed on the way. -/
theorem Attends.notify (h : d.Attends o top) (r : MutationRecord) : (d.notify r).Attends o top := by
  obtain ⟨m, hm, hl⟩ := isListening_iff.mp h.listening
  obtain ⟨m', hm', hl', -, -⟩ := getElem?_foldl_post r d.mailboxes
    ((d.observers.filter (d.watches · r.target)).map (·.id)) hm
  refine ⟨?_, isListening_iff.mpr ⟨m', by rw [mailboxes_notify, hm'], hl'.trans hl⟩⟩
  unfold Document.notify
  split
  · exact h.registered
  · refine List.mem_filter.mpr ⟨h.registered, ?_⟩
    simp [h.listening]

/-- An observer is told of every change below its target. -/
theorem told_notify (h : d.Attends o top) {r : MutationRecord}
    (ht : d.isInclusiveAncestor top r.target) : (d.notify r).Told o := by
  obtain ⟨m, hm, hl⟩ := isListening_iff.mp h.listening
  obtain ⟨m', hm', -, -, hq⟩ := getElem?_foldl_post r d.mailboxes
    ((d.observers.filter (d.watches · r.target)).map (·.id)) hm
  refine told_iff.mpr ⟨m', by rw [mailboxes_notify, hm'], hq hl ?_⟩
  refine List.mem_map.mpr ⟨_, List.mem_filter.mpr ⟨h.registered, ?_⟩, rfl⟩
  simp [watches, ht]

/-! ## §2 Changes -/

/-- Neither the registrations nor the mailboxes have changed. -/
def SameObservers (d d' : Document) : Prop :=
  d'.observers = d.observers ∧ d'.mailboxes = d.mailboxes

theorem Attends.congr (h : d.Attends o top) (hs : d.SameObservers d') : d'.Attends o top :=
  ⟨hs.1 ▸ h.registered, by rw [isListening, hs.2]; exact h.listening⟩

theorem Told.congr (h : d.Told o) (hs : d.SameObservers d') : d'.Told o := by
  rw [Told, queued, hs.2]
  exact h

theorem sameObservers_updateNode (d : Document) (id : NodeId) (f : Node → Node) :
    d.SameObservers (d.updateNode id f) :=
  ⟨observers_updateNode d id f, mailboxes_updateNode d id f⟩

theorem SameObservers.trans {d'' : Document} (h : d.SameObservers d') (h' : d'.SameObservers d'') :
    d.SameObservers d'' :=
  ⟨h'.1.trans h.1, h'.2.trans h.2⟩

theorem sameObservers_attach (d : Document) (p c : NodeId) (r : Option NodeId) :
    d.SameObservers (d.attach p c r) :=
  (sameObservers_updateNode ..).trans (sameObservers_updateNode ..)

theorem sameObservers_detach (d : Document) (p c : NodeId) : d.SameObservers (d.detach p c) :=
  (sameObservers_updateNode ..).trans (sameObservers_updateNode ..)

theorem sameObservers_releaseSubtree (d : Document) (id : NodeId) :
    d.SameObservers (d.releaseSubtree id) :=
  foldl_vacate_rest d _

theorem sameObservers_regrouped (d : Document) (p : NodeId) (cs : List NodeId) :
    d.SameObservers (d.regrouped p cs) := by
  obtain ⟨-, ho, hm, -⟩ := foldl_adopt_rest (d.cleared p) p cs
  obtain ⟨-, ho', hm', -⟩ :=
    foldl_orphan_rest (d.updateNode p fun n => { n with children := [] }) (d.children p)
  exact (sameObservers_updateNode d p _).trans ⟨ho.trans ho', hm.trans hm'⟩

/-- What a change does to observers: they may be told of something. -/
inductive Tells (d : Document) : Document → Prop
  | same {d' : Document} (h : d.SameObservers d') : Tells d d'
  | notify {d' d'' : Document} (h : Tells d d') (r : MutationRecord)
      (h' : (d'.notify r).SameObservers d'') : Tells d d''

/-- An observer that listens stays registered. -/
theorem Tells.attends (h : Tells d d') (ha : d.Attends o top) : d'.Attends o top := by
  induction h with
  | same hs => exact ha.congr hs
  | notify _ r hs ih => exact (ih.notify r).congr hs

/-- Nothing is taken from a mailbox. -/
theorem Tells.told (h : Tells d d') (ht : d.Told o) : d'.Told o := by
  induction h with
  | same hs => exact ht.congr hs
  | notify _ r hs ih => exact (ih.notify r).congr hs

theorem tells_cutLoose (d : Document) (c : NodeId) : Tells d (d.cutLoose c) := by
  unfold Document.cutLoose
  split
  · exact .notify (.same (sameObservers_detach ..)) _ ⟨rfl, rfl⟩
  · exact .same ⟨rfl, rfl⟩

theorem Tells.trans_same {d'' : Document} (h : Tells d d') (hs : d'.SameObservers d'') :
    Tells d d'' := by
  cases h with
  | same h => exact .same (h.trans hs)
  | notify h r h' => exact .notify h r (h'.trans hs)

theorem Change.tells (h : d.Change d') : Tells d d' := by
  cases h with
  | create k hk => exact .same ⟨observers_createNode d k, mailboxes_createNode d k⟩
  | data id f g hf hg => exact .same (sameObservers_updateNode ..)
  | listen id l hid => exact .same ⟨rfl, rfl⟩
  | move p c r hp hc =>
    rw [move_eq]
    exact .notify ((tells_cutLoose d c).trans_same (sameObservers_attach ..)) _ ⟨rfl, rfl⟩
  | cut p c h => exact .notify (.same (sameObservers_detach ..)) _ ⟨rfl, rfl⟩
  | swap p cs hp hcs =>
    rw [swapChildren_eq]
    exact .notify (.same (sameObservers_regrouped d p cs)) _ (foldl_releaseIfOrphan_rest ..)
  | free id h => exact .same (sameObservers_releaseSubtree d id)

end CopyControl.Document
