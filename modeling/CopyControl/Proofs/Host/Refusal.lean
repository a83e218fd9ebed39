import CopyControl.Proofs.Host.Handles

/-!
An operation that fails has changed nothing.

Programs on a document keep what they have written when they fail, so this is a statement about
where each of them can fail. All of them check first: a program that is refused says which check
did not hold (`Operation.refusal?`, read off the document without running anything), and behind its
checks it cannot fail. Behind the checks is where the argument has to look twice: two operations
make a node and then call one that checks again, and one rewrites a text without any check at all.
There the forest decides, since a new node holds nothing and only elements have children.

* §1 programs that check
* §2 the causes of a refusal
* §3 operations
-/

namespace CopyControl

open Document

/-! ## §1 Programs that check -/

namespace Edit

variable {α : Type} {d : Document}

/-- The program leaves the document alone, and fails exactly if there is a cause, with that. -/
def Checks (e : Edit Unit) (d : Document) (cause : Option DocumentError) : Prop :=
  e.apply d = ((cause.map .error).getD (.ok ()), d)

/-- The program fails exactly if there is a cause, with that, and leaves the document as it was
if it fails. -/
def Refuses (e : Edit α) (d : Document) : Option DocumentError → Prop
  | some x => e.apply d = (.error x, d)
  | none => ∃ a d', e.apply d = (.ok a, d')

theorem Checks.bind {e : Edit Unit} {f : Unit → Edit Unit} {r r' : Option DocumentError}
    (he : e.Checks d r) (hf : (f ()).Checks d r') : (e >>= f).Checks d (r.or r') := by
  cases r with
  | none => exact (apply_bind_ok he).trans hf
  | some x => exact apply_bind_error he

/-- What comes after a check counts only if the check holds. -/
theorem Refuses.bind {e : Edit Unit} {f : Unit → Edit α} {r r' : Option DocumentError}
    (he : e.Checks d r) (hf : r = none → (f ()).Refuses d r') : (e >>= f).Refuses d (r.or r') := by
  cases r with
  | some x => exact apply_bind_error he
  | none =>
    have hok := apply_bind_ok (f := f) he
    cases r' with
    | some x => exact hok.trans (hf rfl)
    | none =>
      obtain ⟨a, d', h⟩ := hf rfl
      exact ⟨a, d', hok.trans h⟩

/-- Behind the check nothing fails. -/
theorem Refuses.bind_ok {e : Edit Unit} {f : Unit → Edit α} {r : Option DocumentError}
    (he : e.Checks d r) (hf : r = none → ∃ a d', (f ()).apply d = (.ok a, d')) :
    (e >>= f).Refuses d r := by
  rw [← Option.or_none (o := r)]
  exact .bind he hf

theorem Refuses.congr {e e' : Edit α} {r : Option DocumentError} (h : e.Refuses d r)
    (he : e'.apply d = e.apply d) : e'.Refuses d r := by
  cases r <;> simpa only [Refuses, he] using h

theorem Refuses.failure? {e : Edit α} {r : Option DocumentError} (h : e.Refuses d r) :
    e.failure? d = r := by
  cases r with
  | some x => rw [Edit.failure?, show e.apply d = (.error x, d) from h]
  | none =>
    obtain ⟨a, d', ha⟩ := h
    rw [Edit.failure?, ha]

theorem Refuses.unchanged {e : Edit α} {r : Option DocumentError} (h : e.Refuses d r)
    (hr : r.isSome) : (e.apply d).2 = d := by
  obtain ⟨x, rfl⟩ := Option.isSome_iff_exists.mp hr
  exact congrArg Prod.snd (show e.apply d = (.error x, d) from h)

end Edit

/-! ## §2 The causes -/

namespace Document

open Edit

variable {d : Document}

/-- There is no such node. -/
def missing? (d : Document) (x : NodeId) : Option DocumentError :=
  if d.contains x then none else some (.unknownNode x)

/-- There is no such node, or it is text. -/
def noElement? (d : Document) (x : NodeId) : Option DocumentError :=
  (d.missing? x).or (if (d.element? x).isSome then none else some (.notAnElement x))

/-- There is no such node, or it is at or above the one that is to hold it. -/
def unfit? (d : Document) (parent child : NodeId) : Option DocumentError :=
  (d.missing? child).or
    (if d.isInclusiveAncestor child parent then some (.hierarchyCycle parent child) else none)

/-- The node is elsewhere, or nowhere. -/
def noChild? (d : Document) (parent child : NodeId) : Option DocumentError :=
  if d.parent? child = some parent then none else some (.notAChild parent child)

/-- There is no such node, or it is the root. -/
def kept? (d : Document) (x : NodeId) : Option DocumentError :=
  (d.missing? x).or (if x = d.root then some .rootNode else none)

theorem missing?_eq_none_iff {x : NodeId} : d.missing? x = none ↔ d.contains x := by
  simp [missing?]

theorem noElement?_eq_none_iff {x : NodeId} : d.noElement? x = none ↔ d.IsElement x := by
  have hlive : d.IsElement x → d.contains x := contains_of_isElement
  simp only [noElement?, Option.or_eq_none_iff, missing?_eq_none_iff]
  constructor
  · rintro ⟨-, h⟩
    simpa [IsElement, Option.isSome_iff_ne_none] using h
  · exact fun h => ⟨hlive h, if_pos h⟩

theorem checks_ensureLive (x : NodeId) : (ensureLive x).Checks d (d.missing? x) := by
  by_cases h : d.contains x
  · rw [missing?, if_pos h]
    exact ensureLive_ok h
  · simp [Checks, missing?, h, ensureLive, apply_get_bind]

theorem checks_ensureElement (x : NodeId) : (ensureElement x).Checks d (d.noElement? x) := by
  rw [Checks, ensureElement, apply_get_bind]
  cases hk : d.kind? x with
  | none => simp [noElement?, missing?, kind?_eq_none_iff.mp hk]
  | some k =>
    have hlive : d.contains x := by
      rw [kind?, Option.map_eq_some_iff] at hk
      obtain ⟨n, hn, -⟩ := hk
      exact Option.isSome_of_mem hn
    cases k with
    | element e => simp [noElement?, missing?, hlive, element?, hk, NodeKind.element?]
    | text s => simp [noElement?, missing?, hlive, element?, hk, NodeKind.element?]
    | raw s => simp [noElement?, missing?, hlive, element?, hk, NodeKind.element?]

theorem checks_ensureInsertable (p c : NodeId) :
    (ensureInsertable p c).Checks d (d.unfit? p c) := by
  refine (checks_ensureLive c).bind ?_
  rw [Checks, apply_get_bind]
  by_cases h : d.isInclusiveAncestor c p
  · simp [h]
  · simp [h]

/-- A list of new children is gone through before the first of them is linked. -/
theorem checks_forM_ensureInsertable (p : NodeId) (cs : List NodeId) :
    (cs.forM (ensureInsertable p)).Checks d (cs.findSome? (d.unfit? p)) := by
  induction cs with
  | nil => rfl
  | cons c cs ih =>
    have hfirst : (c :: cs).findSome? (d.unfit? p) =
        (d.unfit? p c).or (cs.findSome? (d.unfit? p)) := by
      rw [List.findSome?_cons]
      cases d.unfit? p c <;> rfl
    rw [hfirst]
    exact (checks_ensureInsertable p c).bind ih

theorem refuses_updateElement (x : NodeId) (f : Element → Element) :
    (updateElement x f).Refuses d (d.noElement? x) :=
  .bind_ok (checks_ensureElement x) fun _ => ⟨(), _, rfl⟩

theorem refuses_addClickListener (x : NodeId) (l : Listener) :
    (addClickListener x l).Refuses d (d.missing? x) :=
  .bind_ok (checks_ensureLive x) fun _ => ⟨(), _, rfl⟩

theorem refuses_insertBefore (p c : NodeId) (r : Option NodeId) :
    (insertBefore p c r).Refuses d
      ((d.noElement? p).or ((d.unfit? p c).or (r.bind (d.noChild? p)))) := by
  refine .bind (checks_ensureElement p) fun _ => .bind (checks_ensureInsertable p c) fun _ => ?_
  cases r with
  | none => exact ⟨(), _, rfl⟩
  | some s =>
    rw [Option.bind_some, noChild?]
    by_cases hs : d.parent? s = some p
    · rw [if_pos hs]
      by_cases hsc : s = c
      · subst hsc
        exact ⟨(), d, by rw [apply_get_bind]; simp [hs]⟩
      · exact ⟨(), d.move p c (some s), by rw [apply_get_bind]; simp [hs, hsc]⟩
    · rw [if_neg hs, Refuses, apply_get_bind]
      simp [hs]

theorem refuses_removeChild (p c : NodeId) : (removeChild p c).Refuses d (d.noChild? p c) := by
  rw [noChild?]
  split
  · exact ⟨(), _, removeChild_ok ‹_›⟩
  · rename_i h
    rw [Refuses, removeChild, apply_get_bind]
    simp [h]

theorem refuses_replaceChildren (p : NodeId) (cs : List NodeId) :
    (replaceChildren p cs).Refuses d ((d.noElement? p).or (cs.findSome? (d.unfit? p))) :=
  .bind (checks_ensureElement p) fun _ =>
    .bind_ok (checks_forM_ensureInsertable p cs) fun _ => ⟨(), _, rfl⟩

theorem refuses_release (x : NodeId) : (release x).Refuses d (d.kept? x) := by
  refine .bind (checks_ensureLive x) fun hx => ?_
  by_cases hr : x = d.root
  · rw [if_pos hr, Refuses, apply_get_bind]
    simp [hr]
  · rw [if_neg hr]
    have hlive := missing?_eq_none_iff.mp hx
    -- behind the checks the node is unlinked by an operation that checks for its parent again
    have hok := release_ok hlive hr
    rw [release, apply_bind_ok (ensureLive_ok hlive)] at hok
    exact ⟨(), _, hok⟩

section
variable (hw : d.WellFormed)
include hw

theorem refuses_setTextContent (x : NodeId) (s : String) :
    (setTextContent x s).Refuses d (d.noElement? x) := by
  refine .bind_ok (checks_ensureElement x) fun hx => ?_
  have hel := noElement?_eq_none_iff.mp hx
  have hok := setTextContent_ok hw s hel
  rw [setTextContent, apply_bind_ok (ensureElement_ok hel)] at hok
  exact ⟨(), _, hok⟩

theorem refuses_appendText (x : NodeId) (s : String) :
    (appendText x s).Refuses d (d.noElement? x) := by
  refine .bind_ok (checks_ensureElement x) fun hx => ?_
  have hel := noElement?_eq_none_iff.mp hx
  have hok := appendText_ok hw s hel
  rw [appendText, apply_bind_ok (ensureElement_ok hel)] at hok
  exact ⟨_, _, hok⟩

/-- Where the text is rewritten in place nothing is checked, and nothing need be: what has a child
is an element. -/
theorem refuses_setText (x : NodeId) (s : String) : (setText x s).Refuses d (d.noElement? x) := by
  cases hsole : d.soleText? x with
  | none => exact (refuses_setTextContent hw x s).congr (setText_of_not_sole s hsole)
  | some only =>
    have hchild : only ∈ d.children x := by
      unfold soleText? at hsole
      split at hsole
      · rename_i c hc
        split at hsole
        · obtain rfl := Option.some.inj hsole
          simp [hc]
        · simp at hsole
      · simp at hsole
    rw [noElement?_eq_none_iff.mpr (hw.element_of_child only x hchild)]
    exact ⟨(), _, setText_of_sole s hsole⟩

end

end Document

/-- Why a document refuses an operation, if it does: the first check that does not hold. -/
def Operation.refusal? : Operation → Document → Option DocumentError
  | appendChild p c, d => (d.noElement? p).or (d.unfit? p c)
  | insertBefore p c r, d => (d.noElement? p).or ((d.unfit? p c).or (r.bind (d.noChild? p)))
  | removeChild p c, d => d.noChild? p c
  | replaceChildren p cs, d => (d.noElement? p).or (cs.findSome? (d.unfit? p))
  | release x, d => d.kept? x
  | setText x _, d | setTextContent x _, d | appendText x _, d | addClass x _, d
  | setAttribute x _ _, d => d.noElement? x
  | addClickListener x _, d => d.missing? x
  | createElement _, _ | createText _, _ | createRaw _, _ | observe _ _, _ | disconnect _, _
  | takeRecords _, _ | nextBatch _, _ | dropSubscription _, _ | markReady, _ => none

/-! ## §3 Operations -/

namespace Operation

variable {d : Document}

/-- What an operation answers is read off the document, and one that is refused leaves the document
as it was. -/
theorem refused_run (hw : d.WellFormed) (o : Operation) :
    o.failure? d = o.refusal? d ∧ ((o.refusal? d).isSome → o.run d = d) := by
  have hspec : ∀ {α : Type} {e : Edit α} {r : Option DocumentError}, e.Refuses d r →
      e.failure? d = r ∧ (r.isSome → (e.apply d).2 = d) := fun h => ⟨h.failure?, h.unchanged⟩
  cases o with
  | appendChild p c =>
    have h := refuses_insertBefore (d := d) p c none
    rw [Option.bind_none, Option.or_none] at h
    exact hspec h
  | insertBefore p c r => exact hspec (refuses_insertBefore p c r)
  | removeChild p c => exact hspec (refuses_removeChild p c)
  | replaceChildren p cs => exact hspec (refuses_replaceChildren p cs)
  | release x => exact hspec (refuses_release x)
  | setText x s => exact hspec (refuses_setText hw x s)
  | setTextContent x s => exact hspec (refuses_setTextContent hw x s)
  | appendText x s => exact hspec (refuses_appendText hw x s)
  | addClass x c => exact hspec (refuses_updateElement x _)
  | setAttribute x name value => exact hspec (refuses_updateElement x _)
  | addClickListener x l => exact hspec (refuses_addClickListener x l)
  | createElement _ | createText _ | createRaw _ | observe _ _ | disconnect _ | takeRecords _
  | nextBatch _ | dropSubscription _ | markReady => simp [failure?, refusal?]

end Operation

namespace Document

/-- A document that operations have made of a new one, with whatever a host then did with it. -/
def Reachable (d : Document) : Prop :=
  ∃ os as, d = (Action.performAll as (.start (Operation.runAll os new))).document

theorem reachable_runAll (os : List Operation) : (Operation.runAll os new).Reachable :=
  ⟨os, [], rfl⟩

theorem Reachable.wellFormed {d : Document} (h : d.Reachable) : d.WellFormed := by
  obtain ⟨os, as, rfl⟩ := h
  exact Host.wellFormed_performAll (wellFormed_runAll wellFormed_new os) as

/-- Whatever handles an operation is given, it fails exactly if one of its checks does not hold,
with that cause, and then the document is in every component what it was, the mailboxes of all
observers included. -/
theorem run_eq_of_failure? {d : Document} (hd : d.Reachable) (o : Operation) :
    o.failure? d = o.refusal? d ∧ ((o.failure? d).isSome → o.run d = d) := by
  obtain ⟨hf, hr⟩ := Operation.refused_run hd.wellFormed o
  exact ⟨hf, fun h => hr (hf ▸ h)⟩

/-- An element with a text, observed, and another element that is to get new children. -/
def watched : List Operation :=
  [.createElement "p", .appendChild new.body ⟨3, 0⟩, .appendText ⟨3, 0⟩ "a", .createText "b",
    .observe new.body true]

/-- The first of the new children is fit and would be linked, the second is above the parent. -/
theorem run_eq_of_failure?_replaceChildren :
    (Operation.runAll watched new).Reachable ∧
      (Operation.replaceChildren ⟨3, 0⟩ [⟨5, 0⟩, new.body]).failure?
        (Operation.runAll watched new) = some (.hierarchyCycle ⟨3, 0⟩ new.body) ∧
      (Operation.replaceChildren ⟨3, 0⟩ [⟨5, 0⟩, new.body]).run (Operation.runAll watched new) =
        Operation.runAll watched new := by
  have hd := reachable_runAll watched
  have hcause : (Operation.replaceChildren ⟨3, 0⟩ [⟨5, 0⟩, new.body]).failure?
      (Operation.runAll watched new) = some (.hierarchyCycle ⟨3, 0⟩ new.body) := by
    decide +kernel
  exact ⟨hd, hcause, (run_eq_of_failure? hd _).2 (hcause ▸ rfl)⟩

end Document

end CopyControl
