import CopyControl.Document.Html
import CopyControl.Proofs.Document.Shape
import CopyControl.Proofs.Host.Effects
import Mathlib.Data.List.Induction

/-!
Handles do not come back to life.

Slots are used again, so a handle can only be told from a later one by its generation, and that
counts modulo `2 ^ 32`. As long as no slot is emptied that often, no handle is given out twice, and
a handle whose node has gone is refused by everything that could change a node (`handles_last`).

* §1 what a dead handle is good for: nothing
* §2 the handles that are given out
* §3 whole runs
-/

namespace CopyControl

open Document

/-! ## §1 Dead handles -/

namespace Edit

/-- Why the program fails, if it does. -/
def failure? {α : Type} (e : Edit α) (d : Document) : Option DocumentError :=
  match (e.apply d).1 with
  | .ok _ => none
  | .error x => some x

theorem Fails.failure {α : Type} {e : Edit α} {d : Document} (h : e.Fails d) :
    (e.failure? d).isSome ∧ (e.apply d).2 = d := by
  obtain ⟨x, hx⟩ := h
  simp [failure?, hx]

end Edit

namespace Operation

/-- The handles that an operation is given as parent, node, child or reference. The operations that
cannot fail are given none of these. -/
def handles : Operation → List NodeId
  | appendChild p c => [p, c]
  | insertBefore p c r => p :: c :: r.toList
  | removeChild p c => [p, c]
  | replaceChildren p cs => p :: cs
  | release x => [x]
  | setText x _ => [x]
  | setTextContent x _ => [x]
  | appendText x _ => [x]
  | addClass x _ => [x]
  | setAttribute x _ _ => [x]
  | addClickListener x _ => [x]
  | createElement _ | createText _ | createRaw _ | observe _ _ | disconnect _ | takeRecords _
  | nextBatch _ | dropSubscription _ | markReady => []

/-- Why the operation fails, if it does. -/
def failure? : Operation → Document → Option DocumentError
  | appendChild p c, d => (Document.appendChild p c).failure? d
  | insertBefore p c r, d => (Document.insertBefore p c r).failure? d
  | removeChild p c, d => (Document.removeChild p c).failure? d
  | replaceChildren p cs, d => (Document.replaceChildren p cs).failure? d
  | release x, d => (Document.release x).failure? d
  | setText x s, d => (Document.setText x s).failure? d
  | setTextContent x s, d => (Document.setTextContent x s).failure? d
  | appendText x s, d => (Document.appendText x s).failure? d
  | addClass x c, d => (Document.addClass x c).failure? d
  | setAttribute x name value, d => (Document.setAttribute x name value).failure? d
  | addClickListener x l, d => (Document.addClickListener x l).failure? d
  | createElement _, _ | createText _, _ | createRaw _, _ | observe _ _, _ | disconnect _, _
  | takeRecords _, _ | nextBatch _, _ | dropSubscription _, _ | markReady, _ => none

end Operation

namespace Document

variable {d : Document} {x : NodeId}

/-- The handle resolves to nothing: no lookup finds anything, and every operation that it is given
to fails and leaves the document as it is. -/
structure Dead (d : Document) (x : NodeId) : Prop where
  contains : d.contains x = false
  node? : d.kind? x = none ∧ d.element? x = none ∧ d.tag? x = none
  data : (∀ c, d.hasClass x c = false) ∧ ∀ name, d.attribute? x name = none
  links : d.parent? x = none ∧ d.children x = [] ∧ d.descendants x = [] ∧
    d.isConnected x = false ∧ d.controlFor? x = none
  /-- It is nobody's parent, and nobody's child. -/
  unlinked : ∀ y, d.parent? y ≠ some x ∧ x ∉ d.children y
  text : d.textContent x = "" ∧ d.innerText x = "" ∧ d.outerHtml x = ""
  listeners : d.clickListeners x = []
  refused : ∀ o : Operation, x ∈ o.handles → (o.failure? d).isSome ∧ o.run d = d
  observe : ∀ subtree, d.SameArena (d.observe x subtree).2

theorem refused_of_dead (hw : d.WellFormed) (hx : d.contains x = false) (o : Operation)
    (ho : x ∈ o.handles) : (o.failure? d).isSome ∧ o.run d = d := by
  have hlive : ¬ d.contains x := by simp [hx]
  have hel := not_isElement_of_dead hx
  have hpar : ∀ c, d.parent? c ≠ some x := fun c hc => hlive (hw.contains_of_link hc)
  have horphan : ∀ p, d.parent? x ≠ some p := by simp [parent?_eq_none_of_dead hx]
  have hinsert : ∀ p c r, x ∈ p :: c :: Option.toList r → (insertBefore p c r).Fails d := by
    intro p c r hm
    refine insertBefore_fails fun hi => ?_
    rcases List.mem_cons.mp hm with rfl | hm
    · exact hel hi.element
    rcases List.mem_cons.mp hm with rfl | hm
    · exact hlive hi.mayHold.1
    · exact horphan p (hi.reference x (Option.mem_toList.mp hm))
  cases o with
  | appendChild p c => exact (hinsert p c none (by simpa [Operation.handles] using ho)).failure
  | insertBefore p c r => exact (hinsert p c r ho).failure
  | removeChild p c =>
    refine (removeChild_fails fun hp => ?_).failure
    rcases List.mem_pair.mp ho with rfl | rfl
    · exact hpar c hp
    · exact horphan p hp
  | replaceChildren p cs =>
    refine (replaceChildren_fails fun hp => ?_).failure
    rcases List.mem_cons.mp ho with rfl | ho
    · exact hel hp.1
    · exact hlive (hp.2 x ho).1
  | release y =>
    obtain rfl := List.mem_singleton.mp ho
    exact (release_fails fun h => hlive h.1).failure
  | setText y s =>
    obtain rfl := List.mem_singleton.mp ho
    exact (setText_fails s hx).failure
  | setTextContent y s =>
    obtain rfl := List.mem_singleton.mp ho
    exact (setTextContent_fails s hel).failure
  | appendText y s =>
    obtain rfl := List.mem_singleton.mp ho
    exact (appendText_fails s hel).failure
  | addClass y c =>
    obtain rfl := List.mem_singleton.mp ho
    exact (updateElement_fails _ hel).failure
  | setAttribute y name value =>
    obtain rfl := List.mem_singleton.mp ho
    exact (updateElement_fails _ hel).failure
  | addClickListener y l =>
    obtain rfl := List.mem_singleton.mp ho
    exact (addClickListener_fails l hlive).failure
  | createElement _ | createText _ | createRaw _ | observe _ _ | disconnect _ | takeRecords _
  | nextBatch _ | dropSubscription _ | markReady => simp [Operation.handles] at ho

theorem dead_of_not_contains (hw : d.WellFormed) (hx : d.contains x = false) : d.Dead x := by
  have hkind : d.kind? x = none := kind?_eq_none_iff.mpr hx
  have hel : d.element? x = none := by simp [element?, hkind]
  have htree : d.tree? x = none := tree?_of_dead hx
  have hpar := parent?_eq_none_of_dead hx
  have hlisten : d.listeners.filter (·.1 = x) = [] := by
    rw [List.filter_eq_nil_iff]
    intro l hl hlx
    rw [decide_eq_true_iff] at hlx
    simp [← hlx, hw.listeners_live l hl] at hx
  constructor
  case contains => exact hx
  case node? => exact ⟨hkind, hel, by simp [tag?, hel]⟩
  case data => exact ⟨fun c => by simp [hasClass, hel], fun name => by simp [attribute?, hel]⟩
  case links =>
    refine ⟨hpar, children_eq_nil_of_dead hx, ?_, ?_, ?_⟩
    · simp [descendants, hx]
    · simp [isConnected, hx]
    · simp [controlFor?, hpar]
  case unlinked =>
    intro y
    refine ⟨fun hy => ?_, fun hy => ?_⟩
    · simp [hw.contains_of_link hy] at hx
    · simp [hw.contains_of_child hy] at hx
  case text => exact ⟨by simp [textContent, htree], by simp [innerText, htree],
    by simp [outerHtml, htree]⟩
  case listeners => simp [clickListeners, hlisten]
  case refused => exact refused_of_dead hw hx
  case observe => exact fun _ => ⟨rfl, rfl, rfl, rfl⟩

end Document

namespace Host

variable {h : Host} {x : NodeId} {as : List Action}

/-- Nobody can reach anything by the handle: the document resolves it to nothing, a click on it does
nothing, and work that is still aimed at it as a control leaves the document as it is. -/
structure Stale (h : Host) (x : NodeId) : Prop where
  dead : h.document.Dead x
  click : (h.dispatchClick x).1 = 0 ∧ (h.dispatchClick x).2.queue = h.queue
  aim : ∀ a : Action, a.aim? h = some x → (a.perform h).document = h.document

theorem stale_of_not_contains (hw : h.document.WellFormed) (hx : h.document.contains x = false) :
    h.Stale x := by
  have hdead := dead_of_not_contains hw hx
  refine ⟨hdead, ?_, fun a ha => ?_⟩
  · simp [dispatchClick, hdead.listeners]
  · rcases document_of_aim ha with hd | ⟨l, hd⟩
    · exact hd
    · rw [hd, setLabel]
      exact (setText_fails l.text hx).failure.2

end Host

/-! ## §2 The handles that are given out -/

/-- The handle that the operation answers, if it makes a node and succeeds. -/
def Operation.created? : Operation → Document → Option NodeId
  | createElement tag, d => ((Document.createElement tag).apply d).1.toOption
  | createText s, d => ((Document.createText s).apply d).1.toOption
  | createRaw markup, d => ((Document.createRaw markup).apply d).1.toOption
  | appendText x s, d => ((Document.appendText x s).apply d).1.toOption
  | _, _ => none

namespace Action

/-- The handles of the nodes that are live after the action and were not before it. -/
def created (a : Action) (h : Host) : List NodeId :=
  (a.perform h).document.liveNodes.filter (!h.document.contains ·)

/-- The handles of all nodes that a run makes, in the order of the actions that make them. -/
def allCreated : List Action → Host → List NodeId
  | [], _ => []
  | a :: as, h => a.created h ++ allCreated as (a.perform h)

theorem mem_created {a : Action} {h : Host} {x : NodeId} :
    x ∈ a.created h ↔ (a.perform h).document.contains x ∧ h.document.contains x = false := by
  simp [created, mem_liveNodes_iff]

theorem allCreated_append (as bs : List Action) (h : Host) :
    allCreated (as ++ bs) h = allCreated as h ++ allCreated bs (performAll as h) := by
  induction as generalizing h with
  | nil => rfl
  | cons a as ih => rw [List.cons_append, allCreated, ih, allCreated, List.append_assoc]; rfl

/-- What is made in a run is live right after an action of the run. -/
theorem live_of_mem_allCreated {as : List Action} {h : Host} {x : NodeId}
    (hx : x ∈ allCreated as h) :
    ∃ bs cs, as = bs ++ cs ∧ (performAll bs h).document.contains x := by
  induction as generalizing h with
  | nil => simp [allCreated] at hx
  | cons a as ih =>
    rcases List.mem_append.mp hx with hx | hx
    · exact ⟨[a], as, rfl, (mem_created.mp hx).1⟩
    · obtain ⟨bs, cs, rfl, hlive⟩ := ih hx
      exact ⟨a :: bs, cs, rfl, hlive⟩

theorem timesEmptied_le_length (i : Nat) (as : List Action) (h : Host) :
    timesEmptied i as h ≤ as.length := by
  induction as generalizing h with
  | nil => simp [timesEmptied]
  | cons a as ih =>
    have := ih (a.perform h)
    have := Bool.toNat_le (a.empties i h)
    rw [timesEmptied, List.length_cons]
    omega

end Action

/-- An operation that answers a handle has made the node. -/
theorem Document.live_of_created {d : Document} (hw : d.WellFormed) {o : Operation} {x : NodeId}
    (h : o.created? d = some x) : d.contains x = false ∧ (o.run d).contains x := by
  have hnew : ∀ k : NodeKind, d.contains (d.createNode k).1 = false ∧
      (d.createNode k).2.contains (d.createNode k).1 := fun k =>
    ⟨contains_createNode_fst hw.free k, by simp [contains_createNode hw.free]⟩
  cases o with
  | createElement tag =>
    obtain rfl := Option.some.inj h
    exact hnew _
  | createText s =>
    obtain rfl := Option.some.inj h
    exact hnew _
  | createRaw markup =>
    obtain rfl := Option.some.inj h
    exact hnew _
  | appendText p s =>
    by_cases hp : d.IsElement p
    · have hok := appendText_ok hw s hp
      rw [Operation.created?, hok] at h
      obtain rfl := Option.some.inj h
      rw [Operation.run, hok]
      refine ⟨(hnew (.text s)).1, ?_⟩
      have hk := kind?_move (d.newText s).2 p (d.newText s).1 none
      rw [contains_eq_of_kind? (congrFun hk _)]
      exact (hnew (.text s)).2
    · obtain ⟨e, he⟩ := appendText_fails s hp
      simp [Operation.created?, he, Except.toOption] at h
  | appendChild _ _ | insertBefore _ _ _ | removeChild _ _ | replaceChildren _ _ | release _
  | setText _ _ | setTextContent _ _ | addClass _ _ | setAttribute _ _ _ | addClickListener _ _
  | observe _ _ | disconnect _ | takeRecords _ | nextBatch _ | dropSubscription _ | markReady =>
    simp [Operation.created?] at h

/-! ## §3 Whole runs -/

namespace Host

open CopyControl.Action

variable {h : Host} {as : List Action}

theorem nodup_allCreated (hw : h.document.WellFormed)
    (hn : ∀ i, timesEmptied i as h < UInt32.size) :
    (h.document.liveNodes ++ allCreated as h).Nodup := by
  induction as using List.reverseRecOn with
  | nil => simpa [allCreated] using nodup_liveNodes h.document
  | append_singleton as a ih =>
    have hle : ∀ i, timesEmptied i as h ≤ timesEmptied i (as ++ [a]) h := fun i => by
      rw [timesEmptied_append]
      omega
    rw [allCreated_append, ← List.append_assoc]
    refine List.nodup_append.mpr
      ⟨ih fun i => Nat.lt_of_le_of_lt (hle i) (hn i), ?_, fun x hx y hy hxy => ?_⟩
    · simpa [allCreated, created] using (nodup_liveNodes _).filter _
    -- a handle that was there before and has gone is not the handle of a new node
    subst hxy
    have hnew : x ∈ a.created (performAll as h) := by simpa [allCreated] using hy
    obtain ⟨hlive, hdead⟩ := mem_created.mp hnew
    obtain ⟨bs, cs, rfl, hbs⟩ : ∃ bs cs, as = bs ++ cs ∧ (performAll bs h).document.contains x := by
      rcases List.mem_append.mp hx with hx | hx
      · exact ⟨[], as, rfl, mem_liveNodes_iff.mp hx⟩
      · exact live_of_mem_allCreated hx
    have hgone := dead_of_dead hw hbs hdead (hn x.index)
    rw [performAll_append] at hgone
    exact absurd hlive (Bool.eq_false_iff.mp hgone)

/-- What is claimed of the handles that a run gives out. -/
structure HandlesLast (h : Host) (as : List Action) : Prop where
  /-- All nodes that have ever been there have handles of their own. -/
  distinct : (h.document.liveNodes ++ allCreated as h).Nodup
  /-- Two operations that make nodes answer different handles. -/
  answers : ∀ bs o cs o' ds, as = bs ++ .operate o :: cs ++ .operate o' :: ds → ∀ x y,
    o.created? (performAll bs h).document = some x →
    o'.created? (performAll (bs ++ .operate o :: cs) h).document = some y → x ≠ y
  /-- A handle whose node has gone, in whatever way, stays stale. -/
  stale : ∀ bs cs ds, as = bs ++ cs ++ ds → ∀ x, (performAll bs h).document.contains x →
    (performAll (bs ++ cs) h).document.contains x = false → (performAll as h).Stale x

theorem handlesLast_of_timesEmptied (hw : h.document.WellFormed)
    (hn : ∀ i, timesEmptied i as h < UInt32.size) : h.HandlesLast as := by
  constructor
  case distinct => exact nodup_allCreated hw hn
  case stale =>
    rintro bs cs ds rfl x hx hdead
    exact stale_of_not_contains (wellFormed_performAll hw _) (dead_of_dead hw hx hdead (hn x.index))
  case answers =>
    rintro bs o cs o' ds rfl x y hx hy rfl
    -- the node is live after the first operation, not before the second, and then live again
    have hw₁ := wellFormed_performAll hw bs
    have hw₂ := wellFormed_performAll hw (bs ++ .operate o :: cs)
    have hlive : (performAll (bs ++ [.operate o]) h).document.contains x := by
      rw [performAll_append]
      show (Host.wake _).document.contains x
      rw [(wake_spec _).1]
      exact (live_of_created hw₁ hx).2
    obtain ⟨hdead, hagain⟩ := live_of_created hw₂ hy
    have heq : bs ++ .operate o :: cs = bs ++ [.operate o] ++ cs := by simp
    have hcount : timesEmptied x.index (bs ++ [.operate o] ++ cs ++ [.operate o']) h
        < UInt32.size := by
      have := hn x.index
      rw [← heq]
      rw [List.append_cons (bs ++ .operate o :: cs), timesEmptied_append] at this
      omega
    have hgone := dead_of_dead hw hlive (heq ▸ hdead) hcount
    rw [← heq, performAll_append] at hgone
    change (Host.wake _).document.contains x = false at hgone
    rw [(wake_spec _).1] at hgone
    exact absurd hagain (Bool.eq_false_iff.mp hgone)

/-- On a new document, in every run in which no slot is emptied `2 ^ 32` times, whatever the run is
made of. -/
theorem handles_last (as : List Action)
    (hn : ∀ i, timesEmptied i as (start new) < UInt32.size) : (start new).HandlesLast as :=
  handlesLast_of_timesEmptied wellFormed_new hn

/-- A node is made, freed, and its slot used again. -/
def reused : List Action :=
  [.operate (.createElement "p"), .operate (.release ⟨3, 0⟩), .operate (.createElement "p")]

theorem handles_last_reused :
    (∀ i, timesEmptied i reused (start new) < UInt32.size) ∧
      (start new).HandlesLast reused ∧
      (performAll reused (start new)).document.contains ⟨3, 1⟩ ∧
      (performAll reused (start new)).Stale ⟨3, 0⟩ := by
  have hn : ∀ i, timesEmptied i reused (start new) < UInt32.size := fun i =>
    Nat.lt_of_le_of_lt (timesEmptied_le_length i reused _) (by decide)
  have hl := handles_last reused hn
  exact ⟨hn, hl, by decide +kernel, hl.stale [.operate (.createElement "p")]
    [.operate (.release ⟨3, 0⟩)] [.operate (.createElement "p")] rfl ⟨3, 0⟩
    (by decide +kernel) (by decide +kernel)⟩

end Host

end CopyControl
