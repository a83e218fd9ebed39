import CopyControl.Proofs.Document.Notice

/-!
The records that an operation puts out, each with the document at that moment.

`Operation.emissions` says which they are, from the document before the operation alone. What comes
of an operation is said once, together with them (`emits_run`), and the rest is read off there:

* §1 what comes of an operation on nodes
* §2 observers are told of just these records, in this order (`Emits.reports`)
* §3 each of them is put out while the document is a well-formed forest
-/

namespace CopyControl

/-- A record and the document at the moment it is put out. -/
structure Emission where
  document : Document
  record : MutationRecord
deriving DecidableEq, Repr, Inhabited

/-- Whether a record is one for an observer of `target`, or of all that is at or below it. -/
def Emission.isFor (e : Emission) (target : NodeId) (subtree : Bool) : Bool :=
  e.record.target = target ||
    (subtree && e.document.isInclusiveAncestor target e.record.target)

namespace Edit

variable {α : Type} {e : Edit α} {d : Document}

/-- Whether the operation goes through on a document. -/
def accepts (e : Edit α) (d : Document) : Bool :=
  (e.apply d).1.isOk

theorem accepts_of_ok {a : α} {d' : Document} (h : e.apply d = (.ok a, d')) : e.accepts d := by
  rw [accepts, h]
  rfl

theorem Fails.accepts_eq_false (h : e.Fails d) : e.accepts d = false := by
  obtain ⟨x, hx⟩ := h
  rw [accepts, hx]
  rfl

theorem Fails.apply_snd (h : e.Fails d) : (e.apply d).2 = d := by
  obtain ⟨x, hx⟩ := h
  rw [hx]

end Edit

namespace Document

/-- What is put out when a node is taken out of its parent, if it has one. -/
def unlinkReports (d : Document) (c : NodeId) : List Emission :=
  match d.parent? c with
  | some p => [⟨d.detach p c, .ofRemoved p c⟩]
  | none => []

/-- What is put out when a node is moved. -/
def moveReports (d : Document) (p c : NodeId) (r : Option NodeId) : List Emission :=
  d.unlinkReports c ++ [⟨(d.cutLoose c).attach p c r, .ofAdded p c⟩]

/-- What is put out when the children of a node are swapped. -/
def swapReports (d : Document) (p : NodeId) (cs : List NodeId) : List Emission :=
  [⟨d.regrouped p cs, ⟨p, cs, d.children p⟩⟩]

end Document

/-- The records an operation puts out, if it goes through. -/
def Operation.emissions : Operation → Document → List Emission
  | appendChild p c, d =>
    if (Document.appendChild p c).accepts d then d.moveReports p c none else []
  | insertBefore p c r, d =>
    if (Document.insertBefore p c r).accepts d then
      if r = some c then [] else d.moveReports p c r
    else []
  | removeChild p c, d => if (Document.removeChild p c).accepts d then d.unlinkReports c else []
  | replaceChildren p cs, d =>
    if (Document.replaceChildren p cs).accepts d then d.swapReports p cs else []
  | release id, d => if (Document.release id).accepts d then d.unlinkReports id else []
  | setTextContent id s, d =>
    if (Document.setTextContent id s).accepts d then
      (d.newText s).2.swapReports id [(d.newText s).1]
    else []
  | setText id s, d =>
    if (d.soleText? id).isNone && (Document.setText id s).accepts d then
      (d.newText s).2.swapReports id [(d.newText s).1]
    else []
  | appendText id s, d =>
    if (Document.appendText id s).accepts d then
      (d.newText s).2.moveReports id (d.newText s).1 none
    else []
  | _, _ => []

namespace Document

open Edit

variable {d d' : Document} {es es' : List Emission}

/-! ## §1 What comes of an operation -/

/-- What can come of an operation on nodes: the records it puts out and the document afterwards. -/
inductive Emits : Document → List Emission → Document → Prop
  /-- No child list changes, and nothing is put out. -/
  | quiet {d d' : Document} (hs : d.SameObservers d') (hc : d'.children = d.children) :
      Emits d [] d'
  | unlink {d : Document} (c : NodeId) : Emits d (d.unlinkReports c) (d.cutLoose c)
  | move {d : Document} (p c : NodeId) (r : Option NodeId) (hp : d.IsElement p)
      (hc : d.MayHold p c) : Emits d (d.moveReports p c r) (d.move p c r)
  | swap {d : Document} (p : NodeId) (cs : List NodeId) (hp : d.IsElement p)
      (hcs : ∀ c ∈ cs, d.MayHold p c) : Emits d (d.swapReports p cs) (d.swapChildren p cs)
  | release {d : Document} (id : NodeId) :
      Emits d (d.unlinkReports id) ((d.cutLoose id).releaseSubtree id)
  /-- A text node is made first. -/
  | text {d d' : Document} {es : List Emission} (s : String) (h : Emits (d.newText s).2 es d') :
      Emits d es d'

theorem emits_refl (d : Document) : Emits d [] d :=
  .quiet ⟨rfl, rfl⟩ rfl

theorem emits_of_fails {α : Type} {e : Edit α} (h : e.Fails d) (es : List Emission) :
    Emits d (if e.accepts d then es else []) (e.apply d).2 := by
  rw [h.accepts_eq_false, h.apply_snd]
  exact emits_refl d

theorem emits_of_ok {α : Type} {e : Edit α} {a : α} (h : e.apply d = (.ok a, d'))
    (he : Emits d es d') : Emits d (if e.accepts d then es else []) (e.apply d).2 := by
  rw [if_pos (accepts_of_ok h), h]
  exact he

theorem emits_insertBefore (p c : NodeId) (r : Option NodeId) :
    Emits d ((Operation.insertBefore p c r).emissions d) ((insertBefore p c r).apply d).2 := by
  by_cases h : d.Insertable p c r
  · refine emits_of_ok (insertBefore_ok h) ?_
    split
    · exact emits_refl d
    · exact .move p c r h.element h.mayHold
  · exact emits_of_fails (insertBefore_fails h) _

theorem emits_appendChild (p c : NodeId) :
    Emits d ((Operation.appendChild p c).emissions d) ((appendChild p c).apply d).2 := by
  have := emits_insertBefore (d := d) p c none
  simp only [Operation.emissions, reduceCtorEq, if_false] at this
  exact this

theorem emits_removeChild (p c : NodeId) :
    Emits d ((Operation.removeChild p c).emissions d) ((removeChild p c).apply d).2 := by
  by_cases h : d.parent? c = some p
  · refine emits_of_ok (removeChild_ok h) ?_
    have := Emits.unlink (d := d) c
    rwa [cutLoose, h] at this
  · exact emits_of_fails (removeChild_fails h) _

theorem emits_replaceChildren (p : NodeId) (cs : List NodeId) :
    Emits d ((Operation.replaceChildren p cs).emissions d) ((replaceChildren p cs).apply d).2 := by
  by_cases h : d.IsElement p ∧ ∀ c ∈ cs, d.MayHold p c
  · exact emits_of_ok (replaceChildren_ok h.1 h.2) (.swap p cs h.1 h.2)
  · exact emits_of_fails (replaceChildren_fails h) _

theorem emits_release (id : NodeId) :
    Emits d ((Operation.release id).emissions d) ((release id).apply d).2 := by
  by_cases h : d.contains id ∧ id ≠ d.root
  · exact emits_of_ok (release_ok h.1 h.2) (.release id)
  · exact emits_of_fails (release_fails h) _

/-- A change of what a node is, not of what it holds. -/
theorem emits_updateNode (id : NodeId) {f : Node → Node}
    (hf : ∀ n, (f n).children = n.children) : Emits d [] (d.updateNode id f) :=
  .quiet (sameObservers_updateNode d id f) (children_updateNode_of_keeps d id hf)

theorem emits_updateElement (id : NodeId) (f : Element → Element) :
    Emits d [] ((updateElement id f).apply d).2 := by
  by_cases h : d.IsElement id
  · rw [updateElement_ok f h]
    refine emits_updateNode id fun n => ?_
    rw [onElement_eq]
  · rw [(updateElement_fails f h).apply_snd]
    exact emits_refl d

section
variable (hw : d.WellFormed)
include hw

theorem emits_createNode (k : NodeKind) : Emits d [] (d.createNode k).2 :=
  .quiet ⟨observers_createNode d k, mailboxes_createNode d k⟩ (children_createNode hw.free k)

theorem emits_setTextContent (id : NodeId) (s : String) :
    Emits d ((Operation.setTextContent id s).emissions d) ((setTextContent id s).apply d).2 := by
  by_cases h : d.IsElement id
  · refine emits_of_ok (setTextContent_ok hw s h) (.text s (.swap id _ ?_ ?_))
    · exact isElement_newText hw s h
    · exact mayHold_newText hw s h
  · exact emits_of_fails (setTextContent_fails s h) _

/-- Text that is rewritten in place is not reported. -/
theorem emits_setText (id : NodeId) (s : String) :
    Emits d ((Operation.setText id s).emissions d) ((setText id s).apply d).2 := by
  cases hsole : d.soleText? id with
  | some only =>
    rw [setText_of_sole s hsole]
    simpa [Operation.emissions, hsole] using
      emits_updateNode (d := d) only (f := fun n => { n with kind := .text s }) fun n => rfl
  | none =>
    have hsame : (setText id s).accepts d = (setTextContent id s).accepts d := by
      unfold accepts
      rw [setText_of_not_sole s hsole]
    have := emits_setTextContent hw id s
    simpa only [Operation.emissions, hsole, hsame, Option.isNone_none, Bool.true_and,
      setText_of_not_sole s hsole] using this

theorem emits_appendText (id : NodeId) (s : String) :
    Emits d ((Operation.appendText id s).emissions d) ((appendText id s).apply d).2 := by
  by_cases h : d.IsElement id
  · refine emits_of_ok (appendText_ok hw s h) (.text s (.move id _ none ?_ ?_))
    · exact isElement_newText hw s h
    · exact mayHold_newText hw s h _ (List.mem_singleton.mpr rfl)
  · exact emits_of_fails (appendText_fails s h) _

/-- What comes of an operation on nodes, with the records listed for it. -/
theorem emits_run (o : Operation) (ho : o.OnNodes) : Emits d (o.emissions d) (o.run d) := by
  cases o with
  | createElement | createText | createRaw => exact emits_createNode hw _
  | appendChild p c => exact emits_appendChild p c
  | insertBefore p c r => exact emits_insertBefore p c r
  | removeChild p c => exact emits_removeChild p c
  | replaceChildren p cs => exact emits_replaceChildren p cs
  | release id => exact emits_release id
  | setText id s => exact emits_setText hw id s
  | setTextContent id s => exact emits_setTextContent hw id s
  | appendText id s => exact emits_appendText hw id s
  | addClass id c => exact emits_updateElement id _
  | setAttribute id name value => exact emits_updateElement id _
  | addClickListener id l =>
    by_cases h : d.contains id
    · rw [Operation.run, addClickListener_ok l h]
      exact .quiet ⟨rfl, rfl⟩ rfl
    · rw [Operation.run, (addClickListener_fails l h).apply_snd]
      exact emits_refl d
  | observe | disconnect | takeRecords | nextBatch | dropSubscription | markReady => exact ho.elim

end

/-- The others put nothing out. -/
theorem emissions_of_not_onNodes {o : Operation} (ho : ¬ o.OnNodes) (d : Document) :
    o.emissions d = [] := by
  cases o with
  | observe | disconnect | takeRecords | nextBatch | dropSubscription | markReady => rfl
  | _ => exact absurd trivial ho

/-! ## §2 Being told -/

/-- From `d` to `d'` observers are told of these records, in this order and of each while the
document is as listed. Nothing else happens to observers. -/
inductive Reports : Document → List Emission → Document → Prop
  | same {d d' : Document} (h : d.SameObservers d') : Reports d [] d'
  | tell {d d' : Document} {e : Emission} {es : List Emission} (h : d.SameObservers e.document)
      (h' : Reports (e.document.notify e.record) es d') : Reports d (e :: es) d'

theorem Reports.after_same {d₀ : Document} (hs : d₀.SameObservers d) (h : Reports d es d') :
    Reports d₀ es d' := by
  cases h with
  | same h => exact .same (hs.trans h)
  | tell h h' => exact .tell (hs.trans h) h'

theorem Reports.append {d'' : Document} (h : Reports d es d') (h' : Reports d' es' d'') :
    Reports d (es ++ es') d'' := by
  induction h with
  | same hs => exact h'.after_same hs
  | tell hs _ ih => exact .tell hs (ih h')

/-- One record. -/
theorem reports_notify (e : Emission) (h : d.SameObservers e.document)
    (h' : (e.document.notify e.record).SameObservers d') : Reports d [e] d' :=
  .tell h (.same h')

theorem reports_cutLoose (d : Document) (c : NodeId) :
    Reports d (d.unlinkReports c) (d.cutLoose c) := by
  unfold unlinkReports cutLoose
  cases d.parent? c with
  | some p => exact reports_notify _ (sameObservers_detach ..) ⟨rfl, rfl⟩
  | none => exact .same ⟨rfl, rfl⟩

theorem Emits.reports (h : Emits d es d') : Reports d es d' := by
  induction h with
  | quiet hs hc => exact .same hs
  | @unlink d c => exact reports_cutLoose d c
  | @move d p c r hp hc =>
    rw [move_eq]
    exact (reports_cutLoose d c).append (reports_notify _ (sameObservers_attach ..) ⟨rfl, rfl⟩)
  | @swap d p cs hp hcs =>
    rw [swapChildren_eq]
    exact reports_notify _ (sameObservers_regrouped d p cs) (foldl_releaseIfOrphan_rest ..)
  | @release d id =>
    have := (reports_cutLoose d id).append (.same (sameObservers_releaseSubtree _ id))
    rwa [List.append_nil] at this
  | @text d _ _ s h ih => exact ih.after_same ⟨observers_createNode .., mailboxes_createNode ..⟩

/-! ## §3 When a record is put out -/

theorem wellFormed_of_mem_unlinkReports (hw : d.WellFormed) {c : NodeId} {e : Emission}
    (he : e ∈ d.unlinkReports c) : e.document.WellFormed := by
  unfold unlinkReports at he
  split at he
  · obtain rfl := List.mem_singleton.mp he
    exact wellFormed_detach hw ‹_›
  · simp at he

theorem Emits.wellFormed_of_mem (hw : d.WellFormed) (h : Emits d es d') {e : Emission}
    (he : e ∈ es) : e.document.WellFormed := by
  induction h with
  | quiet => simp at he
  | unlink | release => exact wellFormed_of_mem_unlinkReports hw he
  | move p c r hp hc =>
    rcases List.mem_append.mp he with he | he
    · exact wellFormed_of_mem_unlinkReports hw he
    · obtain rfl := List.mem_singleton.mp he
      have := wellFormed_move hw r hp hc
      rw [move_eq] at this
      exact wellFormed_of_notify this
  | swap p cs hp hcs =>
    obtain rfl := List.mem_singleton.mp he
    exact (regrouped_spec hw hp hcs).1
  | text s h ih => exact ih (wellFormed_createNode hw (by simp)) he

end Document

/-- A record is for the observers of its target, and for those of all that is at or below a node
at or above it when the record is put out. -/
theorem Emission.isFor_iff {e : Emission} (hw : e.document.WellFormed) {target : NodeId}
    {subtree : Bool} :
    e.isFor target subtree ↔
      e.record.target = target ∨ subtree ∧ e.document.AtOrAbove target e.record.target := by
  simp [isFor, hw.isInclusiveAncestor_iff]

end CopyControl
