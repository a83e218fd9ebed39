import Mathlib.Data.List.Induction
import CopyControl.Proofs.Document.Reports
import CopyControl.Proofs.Document.Swap

/-!
What an operation frees, and how the root can be freed.

Two sorts of operations free nodes: a release, and a swap of children. Both take some nodes out of
their places, and then free what is at or below one of these, except what a swap has put in its
place (`Operation.Drops`). This is all that is freed, and all of it is (`contains_run_iff`).

A release refuses the root, but it does not look for it below the node that it frees, and neither
does a swap. So what keeps the root alive is that it stands below nothing
(`root_lives_iff`), and an insertion that puts it below another node is not refused
(`root_released_belowDiv`).

* §1 what a release frees
* §2 what a swap frees
* §3 what an operation frees
* §4 the root
-/

namespace CopyControl

/-- The nodes that an operation takes out of their places to free them, if it goes through. A swap
takes out all children, also those it then puts back. -/
def Operation.takenOut : Operation → Document → List NodeId
  | release id, d => if (Document.release id).accepts d then [id] else []
  | replaceChildren p cs, d =>
    if (Document.replaceChildren p cs).accepts d then d.children p else []
  | setTextContent id s, d => if (Document.setTextContent id s).accepts d then d.children id else []
  | setText id s, d =>
    if (d.soleText? id).isNone && (Document.setText id s).accepts d then d.children id else []
  | _, _ => []

/-- The nodes that were there before and that a swap puts in the place of the children. -/
def Operation.putIn : Operation → List NodeId
  | replaceChildren _ cs => cs
  | _ => []

/-- An operation drops what is at or below a node that it takes out, unless it is at or below one
that it puts in. -/
def Operation.Drops (o : Operation) (d : Document) (x : NodeId) : Prop :=
  (∃ a ∈ o.takenOut d, d.AtOrAbove a x) ∧ ∀ c ∈ o.putIn, ¬ d.AtOrAbove c x

namespace Document

open Edit Relation

variable {d d' : Document} {p x y : NodeId} {cs l : List NodeId}

/-! ## §1 Releases -/

/-- A way up is there if each of its links is. -/
theorem atOrAbove_of_links {a : NodeId} (h : d.AtOrAbove a x)
    (hl : ∀ y z, d.AtOrAbove y x → d.Link y z → d.AtOrAbove a z → d'.Link y z) :
    d'.AtOrAbove a x := by
  induction h using ReflTransGen.head_induction_on with
  | refl => exact .refl
  | head hxz hza ih =>
    exact (ih fun u v hu huv hv => hl u v (hu.head hxz) huv hv).head (hl _ _ .refl hxz hza)

/-- The way up from a node is a matter of the parents of what is on it. -/
theorem atOrAbove_iff_of_parent?_eq (h : ∀ y, d.AtOrAbove y x → d'.parent? y = d.parent? y)
    {a : NodeId} : d'.AtOrAbove a x ↔ d.AtOrAbove a x := by
  constructor
  · intro ha
    induction ha using ReflTransGen.head_induction_on with
    | refl => exact .refl
    | @head x z hxz _ ih =>
      rw [Link, h x .refl] at hxz
      exact (ih fun y hy => h y (hy.head hxz)).head hxz
  · exact fun ha => atOrAbove_of_links ha fun y z hy hyz _ => by rwa [Link, h y hy]

/-- Below a node that is cut loose nothing changes. -/
theorem atOrAbove_cutLoose (hw : d.WellFormed) (a x : NodeId) :
    (d.cutLoose a).AtOrAbove a x ↔ d.AtOrAbove a x := by
  have hpar := (lookups_congr (slots_cutLoose d a)).2.2.1
  constructor
  · refine atOrAbove_mono fun y z h => ?_
    rw [Link, hpar] at h
    exact link_of_unlink h
  · refine fun h => atOrAbove_of_links h fun y z _ hyz hz => ?_
    have hy : y ≠ a := by
      rintro rfl
      exact hw.not_atOrAbove_of_link hyz hz
    rw [Link, hpar, parent?_unlink, if_neg hy]
    exact hyz

theorem contains_releaseSubtree_iff (hw : d.WellFormed) (a : NodeId) (hx : d.contains x) :
    (d.releaseSubtree a).contains x ↔ ¬ d.AtOrAbove a x := by
  have hmem : x ∈ d.descendants a ↔ d.AtOrAbove a x := by
    rw [hw.mem_descendants_iff]
    exact and_iff_right_of_imp fun h => hw.contains_of_atOrAbove h hx
  simp [contains_releaseSubtree hw, hmem, hx]

theorem contains_release_iff (hw : d.WellFormed) (a : NodeId) (hx : d.contains x) :
    ((d.cutLoose a).releaseSubtree a).contains x ↔ ¬ d.AtOrAbove a x := by
  rw [contains_releaseSubtree_iff (wellFormed_cutLoose hw a), atOrAbove_cutLoose hw]
  rwa [(lookups_congr (slots_cutLoose d a)).1, contains_unlink]

/-! ## §2 Swaps -/

/-- Of some nodes, those that hang on nothing are freed with all below them, and nothing else is. -/
theorem contains_foldl_releaseIfOrphan_iff (hw : d.WellFormed) (hx : d.contains x)
    (l : List NodeId) :
    (l.foldl releaseIfOrphan d).contains x ↔
      ∀ r ∈ l, d.parent? r = none → ¬ d.AtOrAbove r x := by
  constructor
  · induction l generalizing d with
    | nil => simp
    | cons r l ih =>
      intro h
      obtain ⟨hw', -⟩ := releaseIfOrphan_spec hw r
      have hx' : (d.releaseIfOrphan r).contains x := by
        rw [List.foldl_cons, contains] at h
        rwa [contains, ← (foldl_releaseIfOrphan_spec hw' l).2.node? h]
      have hr : d.parent? r = none → ¬ d.AtOrAbove r x := by
        intro hroot
        rw [releaseIfOrphan, hroot] at hx'
        exact (contains_releaseSubtree_iff hw r hx).mp hx'
      -- the way from `x` up to another node in the list is still there
      have hway (y : NodeId) (hy : d.AtOrAbove y x) :
          (d.releaseIfOrphan r).parent? y = d.parent? y := by
        rw [parent?, node?_releaseIfOrphan hw fun h' hry => hr h' (hy.trans hry), parent?]
      refine List.forall_mem_cons.mpr ⟨hr, fun s hs hroot ha => ?_⟩
      have ha' : (d.releaseIfOrphan r).AtOrAbove s x :=
        atOrAbove_of_links ha fun y z hy hyz _ => by rwa [Link, hway y hy]
      exact ih hw' hx' h s hs ((hway s ha).trans hroot) ha'
  · intro h
    rw [contains, node?_foldl_releaseIfOrphan hw hx l h]
    exact hx

section swap
variable (hw : d.WellFormed) (hp : d.IsElement p) (hcs : ∀ c ∈ cs, d.MayHold p c)
include hw hcs

/-- After a regrouping, a child that was let go stands above what it stood above, except what was
put below `p`. -/
theorem regrouped_atOrAbove_iff {a : NodeId} (ha : a ∈ d.children p) (hac : a ∉ cs) :
    (d.regrouped p cs).AtOrAbove a x ↔ d.AtOrAbove a x ∧ ∀ c ∈ cs, ¬ d.AtOrAbove c x := by
  have hap : d.Link a p := (hw.parent_iff a p).mpr ha
  have hpar := parent?_regrouped (p := p) fun c hc => (hcs c hc).1
  constructor
  · intro h
    induction h using ReflTransGen.head_induction_on with
    | refl =>
      refine ⟨.refl, fun c hc hca => ?_⟩
      -- `c` is `a`, or it is above `p`
      rcases ReflTransGen.cases_head hca with rfl | ⟨q, hq, hcq⟩
      · exact hac hc
      · obtain rfl : q = p := Option.some.inj (hq.symm.trans hap)
        exact ((mayHold_iff hw).mp (hcs c hc)).2 hcq
    | @head y z hyz hza ih =>
      rw [Link, hpar] at hyz
      split at hyz
      · -- then `a` would be above its parent
        obtain rfl := Option.some.inj hyz
        exact absurd (atOrAbove_regrouped hw hcs hza) (hw.not_atOrAbove_of_link hap)
      · rename_i hyc
        split at hyz
        · simp at hyz
        · refine ⟨ih.1.head hyz, fun c hc hcy => ?_⟩
          rcases ReflTransGen.cases_head hcy with rfl | ⟨q, hq, hcq⟩
          · exact hyc hc
          · obtain rfl : q = z := Option.some.inj (hq.symm.trans hyz)
            exact ih.2 c hc hcq
  · rintro ⟨h, hno⟩
    refine atOrAbove_of_links h fun y z hy hyz hz => ?_
    have hyp : y ∉ d.children p := fun hm => by
      obtain rfl : z = p := Option.some.inj (hyz.symm.trans ((hw.parent_iff y p).mpr hm))
      exact hw.not_atOrAbove_of_link hap hz
    rw [Link, hpar, if_neg fun hc => hno y hc hy, if_neg hyp]
    exact hyz

include hp

theorem contains_swapChildren_iff (hx : d.contains x) :
    (d.swapChildren p cs).contains x ↔
      ¬ ((∃ a ∈ d.children p, d.AtOrAbove a x) ∧ ∀ c ∈ cs, ¬ d.AtOrAbove c x) := by
  obtain ⟨hwr, -⟩ := regrouped_spec hw hp hcs
  have hnotify := lookups_congr (slots_notify (d.regrouped p cs) ⟨p, cs, d.children p⟩)
  have hlive : (d.regrouped p cs).contains x := by
    rw [← kind?_isSome, kind?_regrouped, kind?_isSome]
    exact hx
  rw [swapChildren_eq, contains_foldl_releaseIfOrphan_iff (wellFormed_notify hwr _)
    (by rwa [hnotify.1]), hnotify.2.2.1, atOrAbove_congr hnotify.2.2.1]
  have hroot {a : NodeId} (ha : a ∈ d.children p) :
      (d.regrouped p cs).parent? a = none ↔ a ∉ cs := by
    rw [parent?_regrouped fun c hc => (hcs c hc).1]
    by_cases hac : a ∈ cs <;> simp [ha, hac]
  constructor
  · rintro h ⟨⟨a, ha, hax⟩, hno⟩
    have hac : a ∉ cs := fun hac => hno a hac hax
    exact h a ha ((hroot ha).mpr hac) ((regrouped_atOrAbove_iff hw hcs ha hac).mpr ⟨hax, hno⟩)
  · intro h a ha hnone hax
    obtain ⟨hax, hno⟩ := (regrouped_atOrAbove_iff hw hcs ha ((hroot ha).mp hnone)).mp hax
    exact h ⟨⟨a, ha, hax⟩, hno⟩

end swap

/-! ## §3 Operations -/

theorem contains_of_fails {α : Type} {e : Edit α} (h : e.Fails d) :
    (e.apply d).2.contains x = d.contains x := by
  rw [h.apply_snd]

/-- Operations that neither release nodes nor swap children keep every node. -/
theorem contains_run_of_ne (hw : d.WellFormed) {o : Operation} (hx : d.contains x)
    (hrelease : ∀ id, o ≠ .release id) (hreplace : ∀ p cs, o ≠ .replaceChildren p cs)
    (hset : ∀ id s, o ≠ .setText id s) (hset' : ∀ id s, o ≠ .setTextContent id s) :
    (o.run d).contains x := by
  have hinsert (p c : NodeId) (r : Option NodeId) :
      ((insertBefore p c r).apply d).2.contains x := by
    by_cases h : d.Insertable p c r
    · rw [insertBefore_ok h]
      split
      · exact hx
      · rwa [← kind?_isSome, kind?_move, kind?_isSome]
    · rwa [contains_of_fails (insertBefore_fails h)]
  have hupdate (id : NodeId) (f : Element → Element) :
      ((updateElement id f).apply d).2.contains x := by
    by_cases h : d.IsElement id
    · rwa [updateElement_ok f h, contains_updateNode]
    · rwa [contains_of_fails (updateElement_fails f h)]
  have hcreate (k : NodeKind) : (d.createNode k).2.contains x :=
    (keeps_createNode hw.free k).node x rfl hx |>.1
  cases o with
  | createElement tag => exact hcreate _
  | createText s => exact hcreate _
  | createRaw markup => exact hcreate _
  | appendChild p c => exact hinsert p c none
  | insertBefore p c r => exact hinsert p c r
  | removeChild p c =>
    by_cases h : d.parent? c = some p
    · rw [Operation.run, removeChild_ok h]
      exact ((keeps_cut p c).node x rfl hx).1
    · rwa [Operation.run, contains_of_fails (removeChild_fails h)]
  | replaceChildren p cs => exact absurd rfl (hreplace p cs)
  | release id => exact absurd rfl (hrelease id)
  | setText id s => exact absurd rfl (hset id s)
  | setTextContent id s => exact absurd rfl (hset' id s)
  | appendText id s =>
    by_cases h : d.IsElement id
    · rw [Operation.run, appendText_ok hw s h, ← kind?_isSome, kind?_move, kind?_isSome]
      exact hcreate _
    · rwa [Operation.run, contains_of_fails (appendText_fails s h)]
  | addClass id c => exact hupdate id _
  | setAttribute id name value => exact hupdate id _
  | addClickListener id l =>
    by_cases h : d.contains id
    · rwa [Operation.run, addClickListener_ok l h]
    · rwa [Operation.run, contains_of_fails (addClickListener_fails l h)]
  | observe | disconnect | takeRecords | nextBatch | dropSubscription | markReady =>
    rwa [(lookups_congr (sameArena_run d id).slots).1]

section
variable (hw : d.WellFormed) (hx : d.contains x)
include hw hx

theorem contains_run_release_iff (id : NodeId) :
    ((Operation.release id).run d).contains x ↔ ¬ (Operation.release id).Drops d x := by
  by_cases h : d.contains id ∧ id ≠ d.root
  · have hok := release_ok h.1 h.2
    rw [Operation.run, hok, contains_release_iff hw id hx]
    simp [Operation.Drops, Operation.takenOut, Operation.putIn, accepts_of_ok hok]
  · have hf := release_fails h
    rw [Operation.run, contains_of_fails hf]
    simp [Operation.Drops, Operation.takenOut, hf.accepts_eq_false, hx]

theorem contains_run_replaceChildren_iff (p : NodeId) (cs : List NodeId) :
    ((Operation.replaceChildren p cs).run d).contains x ↔
      ¬ (Operation.replaceChildren p cs).Drops d x := by
  by_cases h : d.IsElement p ∧ ∀ c ∈ cs, d.MayHold p c
  · have hok := replaceChildren_ok h.1 h.2
    rw [Operation.run, hok, contains_swapChildren_iff hw h.1 h.2 hx]
    simp [Operation.Drops, Operation.takenOut, Operation.putIn, accepts_of_ok hok]
  · have hf := replaceChildren_fails h
    rw [Operation.run, contains_of_fails hf]
    simp [Operation.Drops, Operation.takenOut, hf.accepts_eq_false, hx]

/-- The new text is put in, but nothing that was there before. -/
theorem contains_setTextContent_iff (id : NodeId) (s : String) :
    ((setTextContent id s).apply d).2.contains x ↔
      ¬ ((setTextContent id s).accepts d ∧ ∃ a ∈ d.children id, d.AtOrAbove a x) := by
  by_cases h : d.IsElement id
  · have hok := setTextContent_ok hw s h
    have hw' : (d.newText s).2.WellFormed := wellFormed_createNode hw (by simp)
    have hx' : (d.newText s).2.contains x := ((keeps_createNode hw.free _).node x rfl hx).1
    have hpar : (d.newText s).2.parent? = d.parent? := parent?_createNode hw.free _
    have hnew : ¬ d.AtOrAbove (d.newText s).1 x := fun ha => by
      have := hw.contains_of_atOrAbove ha hx
      rw [newText, contains_createNode_fst hw.free] at this
      simp at this
    have hch : (d.newText s).2.children id = d.children id := by
      rw [newText, children_createNode hw.free]
    rw [hok, contains_swapChildren_iff hw' (isElement_newText hw s h) (mayHold_newText hw s h) hx',
      atOrAbove_congr hpar, hch]
    simp [hnew, accepts_of_ok hok]
  · have hf := setTextContent_fails s h
    rw [contains_of_fails hf]
    simp [hf.accepts_eq_false, hx]

theorem contains_run_setText_iff (id : NodeId) (s : String) :
    ((Operation.setText id s).run d).contains x ↔ ¬ (Operation.setText id s).Drops d x := by
  cases hsole : d.soleText? id with
  | some only =>
    rw [Operation.run, setText_of_sole s hsole, contains_updateNode]
    simp [Operation.Drops, Operation.takenOut, hsole, hx]
  | none =>
    have hacc : (setText id s).accepts d = (setTextContent id s).accepts d := by
      rw [accepts, setText_of_not_sole s hsole, accepts]
    rw [Operation.run, setText_of_not_sole s hsole, contains_setTextContent_iff hw hx]
    cases h : (setTextContent id s).accepts d <;>
      simp [Operation.Drops, Operation.takenOut, Operation.putIn, hsole, hacc, h]

/-- **What an operation frees.** A live node is freed just if it is dropped. -/
theorem contains_run_iff (o : Operation) : (o.run d).contains x ↔ ¬ o.Drops d x := by
  have hrest (hrelease : ∀ id, o ≠ .release id) (hreplace : ∀ p cs, o ≠ .replaceChildren p cs)
      (hset : ∀ id s, o ≠ .setText id s) (hset' : ∀ id s, o ≠ .setTextContent id s)
      (hno : o.takenOut d = []) : (o.run d).contains x ↔ ¬ o.Drops d x := by
    simp [contains_run_of_ne hw hx hrelease hreplace hset hset', Operation.Drops, hno]
  cases o with
  | release id => exact contains_run_release_iff hw hx id
  | replaceChildren p cs => exact contains_run_replaceChildren_iff hw hx p cs
  | setText id s => exact contains_run_setText_iff hw hx id s
  | setTextContent id s =>
    rw [Operation.run, contains_setTextContent_iff hw hx]
    cases h : (setTextContent id s).accepts d <;>
      simp [Operation.Drops, Operation.takenOut, Operation.putIn, h]
  | _ => exact hrest (by simp) (by simp) (by simp) (by simp) rfl

end

/-! ## §4 The root -/

theorem root_runAll (os : List Operation) : (Operation.runAll os new).root = new.root :=
  congrArg Prod.fst (landmarks_runAll wellFormed_new os)

/-- A node that is not freed keeps its tag. -/
theorem tag?_run (hw : d.WellFormed) {o : Operation} (hx : d.contains x)
    (hx' : (o.run d).contains x) : (o.run d).tag? x = d.tag? x := by
  rcases run_keeps_or_empties hw o x.index with h | h
  · exact (h.node x rfl hx).2
  · have hg := h _ (generation?_of_contains hx)
    rw [generation?_of_contains hx', Option.some.injEq] at hg
    simp at hg

/-- A release is not of the root, and a swap takes out children. -/
theorem parent?_isSome_of_takenOut (hw : d.WellFormed) {o : Operation}
    (h : d.root ∈ o.takenOut d) : (d.parent? d.root).isSome := by
  have hchild {p : NodeId} (hm : d.root ∈ d.children p) : (d.parent? d.root).isSome := by
    rw [(hw.parent_iff _ p).mpr hm]
    rfl
  cases o with
  | release id =>
    obtain ⟨hacc, hid⟩ := List.mem_ite_nil_right.mp h
    obtain rfl := List.mem_singleton.mp hid
    have hf : (release d.root).Fails d := release_fails (by simp)
    simp [hf.accepts_eq_false] at hacc
  | replaceChildren p cs => exact hchild (List.mem_ite_nil_right.mp h).2
  | setText id s => exact hchild (List.mem_ite_nil_right.mp h).2
  | setTextContent id s => exact hchild (List.mem_ite_nil_right.mp h).2
  | _ => simp [Operation.takenOut] at h

theorem parent?_isSome_of_drops_root (hw : d.WellFormed) {o : Operation}
    (h : o.Drops d d.root) : (d.parent? d.root).isSome := by
  obtain ⟨⟨a, ha, hax⟩, -⟩ := h
  rcases ReflTransGen.cases_head hax with rfl | ⟨q, hq, -⟩
  · exact parent?_isSome_of_takenOut hw ha
  · exact Option.isSome_of_mem hq

/-- **The root.** However a document is changed, its root is the element it was made with. It lives
through a run just if no operation of the run drops it, and one that does finds it below some other
node. -/
theorem root_lives_iff (os : List Operation) :
    (Operation.runAll os new).root = new.root ∧
    ((∀ pre, pre <+: os → (Operation.runAll pre new).contains new.root ∧
        (Operation.runAll pre new).tag? new.root = some "html") ↔
      ∀ pre o, pre ++ [o] <+: os → ¬ o.Drops (Operation.runAll pre new) new.root) ∧
    ∀ pre o, pre ++ [o] <+: os → o.Drops (Operation.runAll pre new) new.root →
      ((Operation.runAll pre new).parent? new.root).isSome := by
  have hrun (pre : List Operation) (o : Operation) :
      Operation.runAll (pre ++ [o]) new = o.run (Operation.runAll pre new) := by
    simp [Operation.runAll]
  have hwf (pre : List Operation) : (Operation.runAll pre new).WellFormed :=
    wellFormed_runAll wellFormed_new pre
  refine ⟨root_runAll os, ⟨fun h pre o hpre => ?_, fun h pre hpre => ?_⟩, fun pre o _ hdrop => ?_⟩
  · obtain ⟨hlive, -⟩ := h pre ((List.prefix_append _ _).trans hpre)
    obtain ⟨hlive', -⟩ := h _ hpre
    rw [hrun] at hlive'
    exact (contains_run_iff (hwf pre) hlive o).mp hlive'
  · induction pre using List.reverseRecOn with
    | nil => decide +kernel
    | append_singleton pre o ih =>
      obtain ⟨hlive, htag⟩ := ih ((List.prefix_append _ _).trans hpre)
      have hlive' := (contains_run_iff (hwf pre) hlive o).mpr (h pre o hpre)
      rw [hrun, tag?_run (hwf pre) hlive hlive', htag]
      exact ⟨hlive', rfl⟩
  · rw [← root_runAll pre] at hdrop ⊢
    exact parent?_isSome_of_drops_root (hwf pre) hdrop

/-- The root is put below a `div` that stands alone, which is not refused; then the `div` is
released, and the root is freed with it, and so are head and body. -/
theorem root_released_belowDiv :
    let os : List Operation :=
      [.createElement "div", .appendChild ⟨3, 0⟩ new.root, .release ⟨3, 0⟩]
    let d := Operation.runAll os new
    (release ⟨3, 0⟩).accepts (Operation.runAll (os.take 2) new) ∧
    d.root = new.root ∧ d.contains d.root = false ∧
    d.contains new.head = false ∧ d.contains new.body = false := by
  decide +kernel

end Document

end CopyControl
