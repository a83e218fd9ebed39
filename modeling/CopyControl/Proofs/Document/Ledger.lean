import Mathlib.Data.Finset.Dedup
import Mathlib.Data.Finset.SDiff
import Mathlib.Data.Finset.Basic
import CopyControl.Proofs.Document.Reports
import CopyControl.Proofs.Document.Swap

/-!
The records as a ledger of the child lists.

Whoever takes out of the sets of children what a record says was removed, and puts in what it says
was added, ends with the sets of children of all live nodes, if every node that is put in somewhere
is also reported as taken out of where it was (`Covers`). One operation may not report that: a swap
of children takes the new ones out of their old parents and reports to the new parent alone. That
this is all that goes unreported is `accounts_iff`.

* §1 the sets of children that records leave
* §2 what comes of an operation
* §3 which operations report all they do
-/

namespace CopyControl

/-- What a record makes of the sets of children: `removed` is taken out, `added` is put in. -/
def MutationRecord.applyTo (r : MutationRecord) (s : NodeId → Finset NodeId) (x : NodeId) :
    Finset NodeId :=
  if x = r.target then (s x \ r.removed.toFinset) ∪ r.added.toFinset else s x

namespace Document

variable {d d' : Document} {es : List Emission} {p c x : NodeId}

/-! ## §1 Sets of children -/

/-- The set of children of each node. -/
def childSets (d : Document) (x : NodeId) : Finset NodeId :=
  (d.children x).toFinset

/-- The sets of children that records leave, applied in order. -/
def applyAll (es : List Emission) (s : NodeId → Finset NodeId) : NodeId → Finset NodeId :=
  es.foldl (fun s e => e.record.applyTo s) s

theorem mem_childSets : c ∈ d.childSets x ↔ c ∈ d.children x :=
  List.mem_toFinset

theorem childSets_congr (h : d'.children = d.children) : d'.childSets = d.childSets := by
  unfold childSets
  rw [h]

/-- A node that is not reported as taken out of `x` is not put in anywhere else. -/
def Covers (d : Document) (es : List Emission) (x : NodeId) : Prop :=
  ∀ e ∈ es, e.record.target ≠ x → ∀ c ∈ e.record.added, d.parent? c = some x →
    ∃ e' ∈ es, e'.record.target = x ∧ c ∈ e'.record.removed

theorem applyAll_unlinkReports (hw : d.WellFormed) (c : NodeId) :
    applyAll (d.unlinkReports c) d.childSets = fun x => d.childSets x \ {c} := by
  funext x
  have hself (h : d.parent? c ≠ some x) : d.childSets x \ {c} = d.childSets x := by
    rw [Finset.sdiff_singleton_eq_erase, Finset.erase_eq_of_notMem fun hc => h ?_]
    exact (hw.parent_iff c x).mpr (mem_childSets.mp hc)
  unfold unlinkReports
  cases hp : d.parent? c with
  | none => exact (hself (by simp [hp])).symm
  | some q =>
    simp only [applyAll, List.foldl_cons, List.foldl_nil, MutationRecord.applyTo,
      MutationRecord.ofRemoved]
    split
    · simp
    · rename_i hx
      exact (hself fun h => hx (Option.some.inj (hp ▸ h)).symm).symm

theorem applyAll_moveReports (hw : d.WellFormed) (p c : NodeId) (r : Option NodeId) :
    applyAll (d.moveReports p c r) d.childSets =
      fun x => if x = p then insert c (d.childSets x) else d.childSets x \ {c} := by
  funext x
  have := applyAll_unlinkReports hw c
  simp only [applyAll, moveReports, List.foldl_append] at this ⊢
  rw [this]
  simp only [List.foldl_cons, List.foldl_nil, MutationRecord.applyTo, MutationRecord.ofAdded]
  split
  · ext y
    by_cases hy : y = c <;> simp [hy]
  · rfl

theorem applyAll_swapReports (d : Document) (p : NodeId) (cs : List NodeId) :
    applyAll (d.swapReports p cs) d.childSets =
      fun x => if x = p then cs.toFinset else d.childSets x := by
  funext x
  simp only [applyAll, swapReports, List.foldl_cons, List.foldl_nil, MutationRecord.applyTo]
  split
  · rename_i hx
    simp [hx, childSets]
  · rfl

/-! ## §2 What comes of an operation -/

theorem children_cutLoose (hw : d.WellFormed) (c x : NodeId) :
    (d.cutLoose c).children x = (d.children x).filter (· ≠ c) := by
  rw [(lookups_congr (slots_cutLoose d c)).2.2.2, children_unlink hw]

theorem children_of_onlyFrees (h : d.OnlyFrees d') (hx : d'.contains x) :
    d'.children x = d.children x := by
  rw [children, h.node? hx, children]

theorem parent?_newText (hw : d.WellFormed) (s : String) :
    (d.newText s).2.parent? = d.parent? :=
  parent?_createNode hw.free (.text s)

theorem children_newText (hw : d.WellFormed) (s : String) :
    (d.newText s).2.children = d.children :=
  children_createNode hw.free (.text s)

/-- A node that is taken out of its parent is reported to the parent. -/
theorem filter_of_not_target (hw : d.WellFormed)
    (hno : ∀ e ∈ d.unlinkReports c, e.record.target ≠ x) :
    (d.children x).filter (· ≠ c) = d.children x := by
  refine List.filter_eq_self.mpr fun y hy => decide_eq_true ?_
  rintro rfl
  have hp := (hw.parent_iff y x).mpr hy
  simp [unlinkReports, hp, MutationRecord.ofRemoved] at hno

section swap
variable {cs : List NodeId} (hw : d.WellFormed) (hp : d.IsElement p)
  (hcs : ∀ c ∈ cs, d.MayHold p c)
include hw hp hcs

/-- A swap takes the new children out of wherever they were. -/
theorem children_swapChildren_of_ne (hx : (d.swapChildren p cs).contains x) (hxp : x ≠ p) :
    (d.swapChildren p cs).children x = (d.children x).filter (· ∉ cs) := by
  rw [children_of_onlyFrees (swapChildren_spec hw hp hcs).2 hx, (regrouped_spec hw hp hcs).2 x hxp]

theorem childSets_swapChildren : (d.swapChildren p cs).childSets p = cs.toFinset := by
  ext c
  rw [mem_childSets, children_swapChildren hw hp hcs, List.mem_dedup, List.mem_toFinset]

/-- Where none of the new children was, nothing changes. -/
theorem children_swapChildren_of_covers (hx : (d.swapChildren p cs).contains x) (hxp : x ≠ p)
    (hc : d.Covers (d.swapReports p cs) x) :
    (d.swapChildren p cs).children x = d.children x := by
  rw [children_swapChildren_of_ne hw hp hcs hx hxp]
  refine List.filter_eq_self.mpr fun c hcx => decide_eq_true fun hcc => ?_
  obtain ⟨e, he, hex, -⟩ := hc _ (List.mem_singleton.mpr rfl) (Ne.symm hxp) c hcc
    ((hw.parent_iff c x).mpr hcx)
  obtain rfl := List.mem_singleton.mp he
  exact hxp hex.symm

end swap

theorem Covers.newText (hw : d.WellFormed) (s : String) (hc : d.Covers es x) :
    (d.newText s).2.Covers es x := by
  unfold Covers
  rw [parent?_newText hw]
  exact hc

/-- The sets of children of a live node are those that the records leave. -/
theorem Emits.childSets_eq (h : Emits d es d') (hw : d.WellFormed) (hx : d'.contains x)
    (hc : d.Covers es x) : d'.childSets x = applyAll es d.childSets x := by
  induction h with
  | quiet hs hch => rw [childSets_congr hch]; rfl
  | unlink c =>
    rw [applyAll_unlinkReports hw]
    ext y
    simp [mem_childSets, children_cutLoose hw]
  | @release d id =>
    rw [applyAll_unlinkReports hw, childSets,
      children_of_onlyFrees (onlyFrees_releaseSubtree (wellFormed_cutLoose hw id) id) hx]
    ext y
    simp [mem_childSets, children_cutLoose hw]
  | @move d p c r hp hcp =>
    rw [applyAll_moveReports hw]
    ext y
    rw [mem_childSets, children_move hw (contains_of_isElement hp)]
    dsimp only
    split
    · rename_i hxp
      by_cases hy : y = c <;> simp [mem_insertSibling, mem_childSets, hxp, hy]
    · simp [mem_childSets]
  | swap p cs hp hcs =>
    rw [applyAll_swapReports]
    dsimp only
    split
    · rename_i hxp
      subst hxp
      exact childSets_swapChildren hw hp hcs
    · rename_i hxp
      rw [childSets, children_swapChildren_of_covers hw hp hcs hx hxp hc, childSets]
  | text s h ih =>
    rw [ih (wellFormed_createNode hw (by simp)) hx (hc.newText hw s),
      childSets_congr (children_newText hw s)]

/-- The child list of a node that is the target of no record is what it was. -/
theorem Emits.children_eq (h : Emits d es d') (hw : d.WellFormed) (hx : d'.contains x)
    (hc : d.Covers es x) (hno : ∀ e ∈ es, e.record.target ≠ x) :
    d'.children x = d.children x := by
  induction h with
  | quiet hs hch => rw [hch]
  | unlink c => rw [children_cutLoose hw, filter_of_not_target hw hno]
  | @release d id =>
    rw [children_of_onlyFrees (onlyFrees_releaseSubtree (wellFormed_cutLoose hw id) id) hx,
      children_cutLoose hw, filter_of_not_target hw hno]
  | @move d p c r hp hcp =>
    obtain ⟨hno, hxp⟩ := List.forall_mem_append.mp hno
    have hxp : x ≠ p := Ne.symm (hxp _ (List.mem_singleton.mpr rfl))
    rw [children_move hw (contains_of_isElement hp), if_neg hxp, filter_of_not_target hw hno]
  | swap p cs hp hcs =>
    have hxp : x ≠ p := Ne.symm (hno _ (List.mem_singleton.mpr rfl))
    exact children_swapChildren_of_covers hw hp hcs hx hxp hc
  | text s h ih =>
    rw [ih (wellFormed_createNode hw (by simp)) hx (hc.newText hw s) hno, children_newText hw]

/-! ## §3 Which operations report all they do -/

theorem covers_nil (d : Document) (x : NodeId) : d.Covers [] x := by
  simp [Covers]

theorem covers_unlinkReports (d : Document) (c x : NodeId) : d.Covers (d.unlinkReports c) x := by
  intro e he _ y hy
  unfold unlinkReports at he
  split at he
  · obtain rfl := List.mem_singleton.mp he
    simp [MutationRecord.ofRemoved] at hy
  · simp at he

/-- A node that is moved is first reported as taken out of its parent. -/
theorem covers_moveReports (d : Document) (p c : NodeId) (r : Option NodeId) (x : NodeId) :
    d.Covers (d.moveReports p c r) x := by
  intro e he hne y hy hyx
  rcases List.mem_append.mp he with he | he
  · obtain ⟨e', he', h⟩ := covers_unlinkReports d c x e he hne y hy hyx
    exact ⟨e', List.mem_append_left _ he', h⟩
  · obtain rfl := List.mem_singleton.mp he
    obtain rfl : y = c := by simpa [MutationRecord.ofAdded] using hy
    refine ⟨⟨d.detach x y, .ofRemoved x y⟩, List.mem_append_left _ ?_, rfl, ?_⟩
    · rw [unlinkReports, hyx]
      exact List.mem_singleton.mpr rfl
    · simp [MutationRecord.ofRemoved]

/-- A node that has just been made is nowhere else. -/
theorem covers_newText (hw : d.WellFormed) (s : String) (x : NodeId)
    (hes : ∀ e ∈ es, ∀ y ∈ e.record.added, y = (d.newText s).1) : d.Covers es x := by
  intro e he _ y hy hyx
  obtain rfl := hes e he y hy
  have := contains_createNode_fst hw.free (.text s)
  rw [← newText, contains_of_parent? hyx] at this
  simp at this

theorem added_of_mem_moveReports {r : Option NodeId} {e : Emission}
    (he : e ∈ d.moveReports p c r) {y : NodeId} (hy : y ∈ e.record.added) : y = c := by
  rcases List.mem_append.mp he with he | he
  · unfold unlinkReports at he
    split at he
    · obtain rfl := List.mem_singleton.mp he
      simp [MutationRecord.ofRemoved] at hy
    · simp at he
  · obtain rfl := List.mem_singleton.mp he
    simpa [MutationRecord.ofAdded] using hy

theorem added_of_mem_swapReports {e : Emission} (he : e ∈ d.swapReports p [c]) {y : NodeId}
    (hy : y ∈ e.record.added) : y = c := by
  obtain rfl := List.mem_singleton.mp he
  exact List.mem_singleton.mp hy

theorem covers_ite {a : Prop} [Decidable a] (h : d.Covers es x) :
    d.Covers (if a then es else []) x := by
  split
  · exact h
  · exact covers_nil d x

/-- Every operation but `replaceChildren` reports all it does. -/
theorem covers_emissions (hw : d.WellFormed) {o : Operation}
    (ho : ∀ p cs, o ≠ .replaceChildren p cs) (x : NodeId) : d.Covers (o.emissions d) x := by
  cases o with
  | appendChild p c => exact covers_ite (covers_moveReports d p c none x)
  | insertBefore p c r =>
    refine covers_ite ?_
    split
    · exact covers_nil d x
    · exact covers_moveReports d p c r x
  | removeChild p c => exact covers_ite (covers_unlinkReports d c x)
  | replaceChildren p cs => exact absurd rfl (ho p cs)
  | release id => exact covers_ite (covers_unlinkReports d id x)
  | setText id s | setTextContent id s =>
    exact covers_ite (covers_newText hw s x fun e he y => added_of_mem_swapReports he)
  | appendText id s =>
    exact covers_ite (covers_newText hw s x fun e he y => added_of_mem_moveReports he)
  | _ => exact covers_nil d x

/-- What `replaceChildren` does not report: that the new children are taken out of other nodes. -/
theorem covers_replaceChildren_iff {cs : List NodeId}
    (ha : (replaceChildren p cs).accepts d) :
    d.Covers ((Operation.replaceChildren p cs).emissions d) x ↔
      x = p ∨ ∀ c ∈ cs, d.parent? c ≠ some x := by
  simp only [Operation.emissions, ha, if_true, swapReports, Covers, List.mem_singleton,
    forall_eq, exists_eq_left]
  constructor
  · intro h
    refine or_iff_not_imp_left.mpr fun hxp c hc hcx => ?_
    exact hxp (h (Ne.symm hxp) c hc hcx).1.symm
  · rintro (rfl | h) hne c hc hcx
    · exact absurd rfl hne
    · exact absurd hcx (h c hc)

/-- The records of an operation account for all that it does to child lists: they lead from the
sets of children before it to those after it, and a node whose child list it changes is the target
of one. -/
structure Accounts (d : Document) (es : List Emission) (d' : Document) : Prop where
  sets : ∀ x, d'.contains x → d'.childSets x = applyAll es d.childSets x
  targets : ∀ x, d.contains x → d'.contains x → d'.children x ≠ d.children x →
    ∃ e ∈ es, e.record.target = x

theorem Emits.accounts (h : Emits d es d') (hw : d.WellFormed)
    (hc : ∀ x, d'.contains x → d.Covers es x) : d.Accounts es d' where
  sets x hx := h.childSets_eq hw hx (hc x hx)
  targets x _ hx hne := by
    by_contra hno
    push Not at hno
    exact hne (h.children_eq hw hx (hc x hx) hno)

theorem accounts_of_not_onNodes {o : Operation} (ho : ¬ o.OnNodes) (d : Document) :
    d.Accounts (o.emissions d) (o.run d) := by
  have hch : (o.run d).children = d.children := (lookups_congr (sameArena_run d ho).slots).2.2.2
  rw [emissions_of_not_onNodes ho]
  exact ⟨fun x _ => by rw [childSets_congr hch]; rfl, fun x _ _ hne => absurd (by rw [hch]) hne⟩

theorem of_accepts_replaceChildren {cs : List NodeId} (ha : (replaceChildren p cs).accepts d) :
    d.IsElement p ∧ ∀ c ∈ cs, d.MayHold p c := by
  by_contra h
  simp [(replaceChildren_fails h).accepts_eq_false] at ha

/-- **The ledger.** After any run of operations, the records of the next one account for all it does
to child lists, unless it puts a child of some other node that is not freed in the place of the
children of a node. -/
theorem accounts_iff (os : List Operation) (o : Operation) :
    let d := Operation.runAll os new
    d.Accounts (o.emissions d) (o.run d) ↔
      ∀ p cs, o = .replaceChildren p cs → (replaceChildren p cs).accepts d →
        ∀ c ∈ cs, ∀ q, d.parent? c = some q → q = p ∨ (o.run d).contains q = false := by
  intro d
  have hw : d.WellFormed := wellFormed_runAll wellFormed_new os
  constructor
  · rintro h p cs rfl ha c hc q hq
    obtain ⟨hp, hcs⟩ := of_accepts_replaceChildren ha
    by_contra hno
    obtain ⟨hqp, hlive⟩ := not_or.mp hno
    rw [Bool.not_eq_false] at hlive
    have hsets := h.sets q hlive
    -- by the records `c` is still below `q`, but it is not
    simp only [Operation.emissions, ha, if_true, applyAll_swapReports, if_neg hqp] at hsets
    rw [Operation.run, replaceChildren_ok hp hcs] at hsets hlive
    have hmem : c ∈ (d.swapChildren p cs).childSets q := by
      rw [hsets, mem_childSets]
      exact (hw.parent_iff c q).mp hq
    rw [mem_childSets, children_swapChildren_of_ne hw hp hcs hlive hqp] at hmem
    simp [hc] at hmem
  · intro h
    by_cases ho : o.OnNodes
    swap
    · exact accounts_of_not_onNodes ho d
    refine (emits_run hw o ho).accounts hw fun x hx => ?_
    by_cases hr : ∃ p cs, o = .replaceChildren p cs
    · obtain ⟨p, cs, rfl⟩ := hr
      cases ha : (replaceChildren p cs).accepts d with
      | false =>
        simp only [Operation.emissions, ha]
        exact covers_nil d x
      | true =>
        refine (covers_replaceChildren_iff ha).mpr (or_iff_not_imp_left.mpr fun hxp c hc hcx => ?_)
        rcases h p cs rfl ha c hc x hcx with hx' | hx'
        · exact hxp hx'
        · simp [hx'] at hx
    · exact covers_emissions hw (fun p cs he => hr ⟨p, cs, he⟩) x

/-- A paragraph below one `div` is put below another: the first `div` is live before and after and
has lost its child, and the only record is for the second. -/
theorem not_accounts_takenChild :
    let d := Operation.runAll
      [.createElement "div", .createElement "div", .createElement "p",
        .appendChild new.body ⟨3, 0⟩, .appendChild new.body ⟨4, 0⟩, .appendChild ⟨3, 0⟩ ⟨5, 0⟩] new
    let o : Operation := .replaceChildren ⟨4, 0⟩ [⟨5, 0⟩]
    (replaceChildren ⟨4, 0⟩ [⟨5, 0⟩]).accepts d ∧
    d.children ⟨3, 0⟩ = [⟨5, 0⟩] ∧ (o.run d).contains ⟨3, 0⟩ ∧ (o.run d).children ⟨3, 0⟩ = [] ∧
    (o.emissions d).map (·.record) = [⟨⟨4, 0⟩, [⟨5, 0⟩], []⟩] ∧
    ¬ d.Accounts (o.emissions d) (o.run d) := by
  intro d o
  refine ⟨by decide +kernel, by decide +kernel, by decide +kernel, by decide +kernel,
    by decide +kernel, fun h => ?_⟩
  have hno : ¬ ∃ e ∈ o.emissions d, e.record.target = ⟨3, 0⟩ := by decide +kernel
  exact hno (h.targets ⟨3, 0⟩ (by decide +kernel) (by decide +kernel) (by decide +kernel))

end Document

end CopyControl
