import CopyControl.Proofs.Document.Forest

/-!
The steps an operation is made of keep the forest well-formed.

A link may be cut at any time (`wellFormed_detach`, `wellFormed_cleared`); a link may be made from
a node without parent to an element that is not below it (`wellFormed_attach`); and a tree may be
freed as a whole when nothing holds its top (`wellFormed_releaseSubtree`). While slots are being
emptied one by one the invariant does not hold, so the loop is described by what it empties
altogether (`node?_foldl_vacate`) before anything is said of the forest.
-/

namespace CopyControl.Document

open Relation

variable {d d' : Document}

/-! ## §1 What the invariant depends on -/

theorem freeExact_congr (hs : d'.slots = d.slots) (hf : d'.free = d.free) (h : d.FreeExact) :
    d'.FreeExact where
  nodup := hf ▸ h.nodup
  mem_iff i := by
    rw [hf, h.mem_iff]
    simp [Vacant, hs]

theorem freeExact_updateNode (h : d.FreeExact) (id : NodeId) (f : Node → Node) :
    (d.updateNode id f).FreeExact where
  nodup := by simpa using h.nodup
  mem_iff i := by rw [free_updateNode, vacant_updateNode, h.mem_iff]

/-- Observers, mailboxes and the rest have no part in the invariant. -/
theorem WellFormed.congr (hw : d.WellFormed) (hs : d'.slots = d.slots) (hf : d'.free = d.free)
    (hl : d'.listeners = d.listeners) : d'.WellFormed := by
  obtain ⟨hc, hk, hp, hch⟩ := lookups_congr hs
  have he : d'.element? = d.element? := by
    funext x
    simp only [element?, hk]
  have hlink : d'.Link = d.Link := by
    funext x y
    simp only [Link, hp]
  refine ⟨freeExact_congr hs hf hw.free, ?_, ?_, ?_, ?_, ?_, ?_⟩
  · rw [hp, hch]
    exact hw.parent_iff
  · rw [hch]
    exact hw.children_nodup
  · rw [he, hch]
    exact hw.element_of_child
  · simp only [Above, hlink]
    exact hw.acyclic
  · rw [hl, hc]
    exact hw.listeners_live
  · rw [he]
    exact hw.no_repeats

theorem wellFormed_notify (hw : d.WellFormed) (r : MutationRecord) : (d.notify r).WellFormed :=
  hw.congr (slots_notify d r) (free_notify d r) (listeners_notify d r)

/-- Fewer links, no new cycle. -/
theorem acyclic_of_link_le (hw : d.WellFormed) (h : ∀ x y, d'.Link x y → d.Link x y)
    (n : NodeId) : ¬ d'.Above n n :=
  fun hn => hw.acyclic n (TransGen.mono h n n hn)

/-! ## §2 New nodes and new data -/

theorem wellFormed_createNode (hw : d.WellFormed) {k : NodeKind}
    (hk : ∀ e, k = .element e → e.NoRepeats) : (d.createNode k).2.WellFormed := by
  have hfresh := contains_createNode_fst hw.free k
  have hpar := parent?_createNode hw.free k
  have hch := children_createNode hw.free k
  have hlink : (d.createNode k).2.Link = d.Link := by
    funext x y
    simp only [Link, hpar]
  refine ⟨freeExact_createNode hw.free k, ?_, ?_, ?_, ?_, ?_, ?_⟩
  · rw [hpar, hch]
    exact hw.parent_iff
  · rw [hch]
    exact hw.children_nodup
  · intro c p hc
    rw [hch] at hc
    have hne : p ≠ (d.createNode k).1 := by
      rintro rfl
      simp [contains_of_mem_children hc] at hfresh
    simpa [element?, kind?_createNode hw.free, hne] using hw.element_of_child c p hc
  · simp only [Above, hlink]
    exact hw.acyclic
  · intro l hl
    rw [listeners_createNode] at hl
    rw [contains_createNode hw.free, hw.listeners_live l hl, Bool.or_true]
  · intro id e he
    rw [element?_eq_some_iff, kind?_createNode hw.free] at he
    split at he
    · exact hk e (Option.some.inj he)
    · exact hw.no_repeats id e (element?_eq_some_iff.mpr he)

/-- A node may get other data of the same sort. -/
theorem wellFormed_updateKind (hw : d.WellFormed) (id : NodeId) {f : Node → Node}
    {g : NodeKind → NodeKind} (hf : ∀ n, f n = { n with kind := g n.kind })
    (hg : ∀ k, d.kind? id = some k → (g k).element?.isSome = k.element?.isSome)
    (hr : ∀ k e, d.kind? id = some k → g k = .element e → e.NoRepeats) :
    (d.updateNode id f).WellFormed := by
  have hpar := parent?_updateNode_of_keeps d id (f := f) (by intro n; rw [hf])
  have hch := children_updateNode_of_keeps d id (f := f) (by intro n; rw [hf])
  have hkind := kind?_updateNode d id (f := f) (g := g) (by intro n; rw [hf])
  have hlink : (d.updateNode id f).Link = d.Link := by
    funext x y
    simp only [Link, hpar]
  refine ⟨freeExact_updateNode hw.free id f, ?_, ?_, ?_, ?_, ?_, ?_⟩
  · rw [hpar, hch]
    exact hw.parent_iff
  · rw [hch]
    exact hw.children_nodup
  · intro c p hc
    rw [hch] at hc
    have := hw.element_of_child c p hc
    simp only [element?, hkind] at this ⊢
    split
    · rename_i hp
      subst hp
      cases hk : d.kind? p with
      | none => simp [hk] at this
      | some k => simpa [hk, hg k hk] using this
    · exact this
  · simp only [Above, hlink]
    exact hw.acyclic
  · rw [listeners_updateNode, contains_updateNode]
    exact hw.listeners_live
  · intro x e he
    rw [element?_eq_some_iff, hkind] at he
    split at he
    · rename_i hx
      subst hx
      obtain ⟨k, hk, hke⟩ := Option.map_eq_some_iff.mp he
      exact hr k e hk hke
    · exact hw.no_repeats x e (element?_eq_some_iff.mpr he)

theorem wellFormed_addListener (hw : d.WellFormed) {id : NodeId} (hid : d.contains id)
    (l : Listener) : { d with listeners := d.listeners ++ [(id, l)] }.WellFormed := by
  refine { hw with listeners_live := fun x hx => ?_, free := ⟨hw.free.nodup, hw.free.mem_iff⟩ }
  rcases List.mem_append.mp hx with hx | hx
  · exact hw.listeners_live x hx
  · obtain rfl := List.mem_singleton.mp hx
    exact hid

/-! ## §3 Making and cutting links -/

/-- A relation without cycles has none after a pair `c → p` is added, if `p` does not lead
to `c`. -/
theorem acyclic_insert {r s : NodeId → NodeId → Prop} {c p : NodeId}
    (hs : ∀ x y, s x y → r x y ∨ x = c ∧ y = p) (hr : ∀ n, ¬ TransGen r n n)
    (hpc : ¬ ReflTransGen r p c) (n : NodeId) : ¬ TransGen s n n := by
  have key : ∀ {x y}, TransGen s x y →
      TransGen r x y ∨ ReflTransGen r x c ∧ ReflTransGen r p y := by
    intro x y h
    induction h with
    | single h =>
      rcases hs _ _ h with h | ⟨rfl, rfl⟩
      · exact .inl (TransGen.single h)
      · exact .inr ⟨ReflTransGen.refl, ReflTransGen.refl⟩
    | tail _ h ih =>
      rcases hs _ _ h with h | ⟨rfl, rfl⟩ <;> rcases ih with ih | ⟨ih, ih'⟩
      · exact .inl (TransGen.tail ih h)
      · exact .inr ⟨ih, ReflTransGen.tail ih' h⟩
      · exact .inr ⟨ih.to_reflTransGen, ReflTransGen.refl⟩
      · exact .inr ⟨ih, ReflTransGen.refl⟩
  intro hn
  rcases key hn with h | ⟨hc, hp⟩
  · exact hr n h
  · exact hpc (hp.trans hc)

theorem insertSibling_perm (c : NodeId) (r : Option NodeId) (l : List NodeId) :
    (insertSibling c r l).Perm (c :: l) := by
  induction l with
  | nil => exact List.Perm.refl _
  | cons s l ih =>
    unfold insertSibling
    split
    · exact List.Perm.refl _
    · exact (ih.cons s).trans (List.Perm.swap c s l)

theorem mem_insertSibling {c x : NodeId} {r : Option NodeId} {l : List NodeId} :
    x ∈ insertSibling c r l ↔ x = c ∨ x ∈ l := by
  rw [(insertSibling_perm c r l).mem_iff, List.mem_cons]

theorem wellFormed_attach (hw : d.WellFormed) {p c : NodeId} (r : Option NodeId)
    (hp : (d.element? p).isSome) (hc : d.contains c) (hpar : d.parent? c = none)
    (hcp : ¬ d.AtOrAbove c p) : (d.attach p c r).WellFormed := by
  obtain ⟨e, he⟩ := Option.isSome_iff_exists.mp hp
  have hparent := parent?_attach (p := p) r hc
  have hch := children_attach c r (contains_of_element? he)
  have hfree : (d.attach p c r).FreeExact :=
    freeExact_updateNode (freeExact_updateNode hw.free _ _) _ _
  have helem : (d.attach p c r).element? = d.element? := by
    funext x
    simp only [element?, kind?_attach]
  have hout : ∀ y, c ∉ d.children y := by
    intro y hy
    rw [← hw.parent_iff, hpar] at hy
    simp at hy
  refine ⟨hfree, ?_, ?_, ?_, ?_, ?_, ?_⟩
  · intro x y
    rw [hparent, hch]
    by_cases hy : y = p <;> by_cases hx : x = c
    · simp [hx, hy, mem_insertSibling]
    · simp [hx, hy, mem_insertSibling, hw.parent_iff]
    · simp [hx, hy, hout y, Ne.symm hy]
    · simp [hx, hy, hw.parent_iff]
  · intro y
    rw [hch]
    split
    · exact (insertSibling_perm c r _).nodup_iff.mpr
        (List.nodup_cons.mpr ⟨hout p, hw.children_nodup p⟩)
    · exact hw.children_nodup y
  · intro x y hx
    rw [hch] at hx
    rw [helem]
    split at hx
    · rename_i hy
      exact hy ▸ hp
    · exact hw.element_of_child x y hx
  · refine acyclic_insert (c := c) (p := p) (fun x y h => ?_) hw.acyclic hcp
    rw [Link, hparent] at h
    split at h
    · rename_i hx
      exact .inr ⟨hx, (Option.some.inj h).symm⟩
    · exact .inl h
  · simpa [attach, contains_updateNode] using hw.listeners_live
  · rw [helem]
    exact hw.no_repeats

theorem wellFormed_detach (hw : d.WellFormed) {p c : NodeId} (h : d.parent? c = some p) :
    (d.detach p c).WellFormed := by
  have hparent := parent?_detach d p c
  have hch := children_detach d p c
  have helem : (d.detach p c).element? = d.element? := by
    funext x
    simp only [element?, kind?_detach]
  refine ⟨freeExact_updateNode (freeExact_updateNode hw.free _ _) _ _, ?_, ?_, ?_, ?_, ?_, ?_⟩
  · intro x y
    rw [hparent, hch]
    by_cases hx : x = c
    · subst hx
      by_cases hy : y = p
      · simp [hy]
      · simp [hy, ← hw.parent_iff, h, Ne.symm hy]
    · by_cases hy : y = p
      · simp [hx, hy, hw.parent_iff]
      · simp [hx, hy, hw.parent_iff]
  · intro y
    rw [hch]
    split
    · exact (hw.children_nodup p).filter _
    · exact hw.children_nodup y
  · intro x y hx
    rw [hch] at hx
    rw [helem]
    split at hx
    · rename_i hy
      exact hw.element_of_child x y (hy ▸ (List.mem_filter.mp hx).1)
    · exact hw.element_of_child x y hx
  · refine acyclic_of_link_le hw fun x y hl => ?_
    rw [Link, hparent] at hl
    split at hl
    · simp at hl
    · exact hl
  · simpa [detach, contains_updateNode] using hw.listeners_live
  · rw [helem]
    exact hw.no_repeats

/-! ### Cutting all links of a node to its children -/

/-- The document without the links between `p` and its children. -/
def cleared (d : Document) (p : NodeId) : Document :=
  (d.children p).foldl orphan (d.updateNode p fun n => { n with children := [] })

theorem contains_foldl_orphan (d : Document) (l : List NodeId) :
    (l.foldl orphan d).contains = d.contains := by
  induction l generalizing d with
  | nil => rfl
  | cons c l ih => rw [List.foldl_cons, ih, contains_orphan]

theorem kind?_foldl_orphan (d : Document) (l : List NodeId) :
    (l.foldl orphan d).kind? = d.kind? := by
  induction l generalizing d with
  | nil => rfl
  | cons c l ih => rw [List.foldl_cons, ih, kind?_orphan]

theorem children_foldl_orphan (d : Document) (l : List NodeId) :
    (l.foldl orphan d).children = d.children := by
  induction l generalizing d with
  | nil => rfl
  | cons c l ih => rw [List.foldl_cons, ih, children_orphan]

theorem parent?_foldl_orphan (d : Document) (l : List NodeId) (x : NodeId) :
    (l.foldl orphan d).parent? x = if x ∈ l then none else d.parent? x := by
  induction l generalizing d with
  | nil => simp
  | cons c l ih =>
    rw [List.foldl_cons, ih, parent?_orphan]
    by_cases hx : x = c <;> by_cases hl : x ∈ l <;> simp [hx, hl]

/-- What only updates nodes leaves all but the slots. -/
theorem foldl_orphan_rest (d : Document) (l : List NodeId) :
    (l.foldl orphan d).listeners = d.listeners ∧ (l.foldl orphan d).observers = d.observers ∧
      (l.foldl orphan d).mailboxes = d.mailboxes ∧
      (l.foldl orphan d).generation? = d.generation? ∧
      (d.FreeExact → (l.foldl orphan d).FreeExact) := by
  induction l generalizing d with
  | nil => exact ⟨rfl, rfl, rfl, rfl, id⟩
  | cons c l ih =>
    obtain ⟨h1, h2, h3, h4, h5⟩ := ih (d.orphan c)
    refine ⟨h1.trans ?_, h2.trans ?_, h3.trans ?_, h4.trans ?_, fun h => h5 ?_⟩
    · simp [orphan]
    · simp [orphan]
    · simp [orphan]
    · exact generation?_updateNode ..
    · exact freeExact_updateNode h ..

theorem contains_cleared (d : Document) (p : NodeId) : (d.cleared p).contains = d.contains := by
  rw [cleared, contains_foldl_orphan, contains_updateNode]

theorem kind?_cleared (d : Document) (p : NodeId) : (d.cleared p).kind? = d.kind? := by
  rw [cleared, kind?_foldl_orphan, kind?_updateNode_of_keeps _ _ (by intro; rfl)]

theorem children_cleared (d : Document) (p x : NodeId) :
    (d.cleared p).children x = if x = p then [] else d.children x := by
  rw [cleared, children_foldl_orphan]
  simp only [children, node?_updateNode]
  split
  · cases d.node? x <;> rfl
  · rfl

theorem parent?_cleared (d : Document) (p x : NodeId) :
    (d.cleared p).parent? x = if x ∈ d.children p then none else d.parent? x := by
  rw [cleared, parent?_foldl_orphan, parent?_updateNode_of_keeps _ _ (by intro; rfl)]

theorem wellFormed_cleared (hw : d.WellFormed) (p : NodeId) : (d.cleared p).WellFormed := by
  have helem : (d.cleared p).element? = d.element? := by
    funext x
    simp only [element?, kind?_cleared]
  obtain ⟨hlis, -, -, -, hfree⟩ :=
    foldl_orphan_rest (d.updateNode p fun n => { n with children := [] }) (d.children p)
  refine ⟨hfree (freeExact_updateNode hw.free _ _), ?_, ?_, ?_, ?_, ?_, ?_⟩
  · intro x y
    rw [parent?_cleared, children_cleared]
    by_cases hx : x ∈ d.children p
    · by_cases hy : y = p
      · simp [hx, hy]
      · have : x ∉ d.children y := by
          intro h
          rw [← hw.parent_iff] at h hx
          exact hy (Option.some.inj (h.symm.trans hx))
        simp [hx, hy, this]
    · by_cases hy : y = p
      · subst hy
        simp [hx, hw.parent_iff]
      · simp [hx, hy, hw.parent_iff]
  · intro y
    rw [children_cleared]
    split
    · exact List.nodup_nil
    · exact hw.children_nodup y
  · intro x y hx
    rw [children_cleared] at hx
    rw [helem]
    split at hx
    · simp at hx
    · exact hw.element_of_child x y hx
  · refine acyclic_of_link_le hw fun x y hl => ?_
    rw [Link, parent?_cleared] at hl
    split at hl
    · simp at hl
    · exact hl
  · rw [contains_cleared, cleared, hlis, listeners_updateNode]
    exact hw.listeners_live
  · rw [helem]
    exact hw.no_repeats

/-! ## §4 Freeing a tree -/

section foldl_vacate
variable {l : List NodeId}

/-- Emptying slots one by one, as a whole. -/
theorem node?_foldl_vacate (hn : l.Nodup) (hl : ∀ x ∈ l, d.contains x) (x : NodeId) :
    (l.foldl vacate d).node? x = if x ∈ l then none else d.node? x := by
  induction l generalizing d with
  | nil => simp
  | cons a l ih =>
    obtain ⟨ha, hn⟩ := List.nodup_cons.mp hn
    have hlive := hl a List.mem_cons_self
    have hv := node?_vacate_of_live hlive
    rw [List.foldl_cons, ih hn, hv]
    · by_cases hx : x = a <;> by_cases hxl : x ∈ l <;> simp [hx, hxl]
    · intro y hy
      have hya : y ≠ a := fun h => ha (h ▸ hy)
      simpa [contains, hv, hya] using hl y (List.mem_cons_of_mem _ hy)

theorem freeExact_vacate (hf : d.FreeExact) {a : NodeId} (ha : d.contains a) :
    (d.vacate a).FreeExact where
  nodup := by
    refine List.nodup_cons.mpr ⟨?_, hf.nodup⟩
    rw [hf.mem_iff]
    rintro ⟨g, hg⟩
    obtain ⟨n, hn⟩ := contains_iff.mp ha
    simp [node?_eq_some_iff.mp hn] at hg
  mem_iff i := by rw [vacant_vacate ha, ← hf.mem_iff]; exact List.mem_cons

theorem freeExact_foldl_vacate (hf : d.FreeExact) (hn : l.Nodup) (hl : ∀ x ∈ l, d.contains x) :
    (l.foldl vacate d).FreeExact := by
  induction l generalizing d with
  | nil => exact hf
  | cons a l ih =>
    obtain ⟨ha, hn⟩ := List.nodup_cons.mp hn
    have hlive := hl a List.mem_cons_self
    refine ih (freeExact_vacate hf hlive) hn fun y hy => ?_
    have hya : y ≠ a := fun h => ha (h ▸ hy)
    simpa [contains, node?_vacate_of_live hlive, hya] using hl y (List.mem_cons_of_mem _ hy)

theorem listeners_foldl_vacate (d : Document) (l : List NodeId) :
    (l.foldl vacate d).listeners = d.listeners.filter fun x => x.1 ∉ l := by
  induction l generalizing d with
  | nil => simp
  | cons a l ih =>
    rw [List.foldl_cons, ih]
    simp only [vacate, List.filter_filter]
    congr 1
    funext x
    simp [Bool.and_comm]

theorem generation?_foldl_vacate (hn : l.Nodup) (hl : ∀ x ∈ l, d.contains x) (i : Nat) :
    (l.foldl vacate d).generation? i =
      if i ∈ l.map (·.index) then (d.generation? i).map (· + 1) else d.generation? i := by
  induction l generalizing d with
  | nil => simp
  | cons a l ih =>
    obtain ⟨ha, hn⟩ := List.nodup_cons.mp hn
    have hlive := hl a List.mem_cons_self
    rw [List.foldl_cons, ih hn, generation?_vacate]
    · by_cases hi : i = a.index
      · have : i ∉ l.map (·.index) := by
          intro h
          obtain ⟨y, hy, hyi⟩ := List.mem_map.mp h
          exact ha (eq_of_index_eq (hl y (List.mem_cons_of_mem _ hy)) hlive (hyi.trans hi) ▸ hy)
        simp [hi, hi ▸ this]
      · simp [hi]
    · intro y hy
      have hya : y ≠ a := fun h => ha (h ▸ hy)
      simpa [contains, node?_vacate_of_live hlive, hya] using hl y (List.mem_cons_of_mem _ hy)

theorem foldl_vacate_rest (d : Document) (l : List NodeId) :
    (l.foldl vacate d).observers = d.observers ∧ (l.foldl vacate d).mailboxes = d.mailboxes := by
  induction l generalizing d with
  | nil => exact ⟨rfl, rfl⟩
  | cons a l ih => exact ih (d.vacate a)

end foldl_vacate

/-- Freeing a tree takes away exactly what is at or below its top. -/
theorem node?_releaseSubtree (hw : d.WellFormed) (id x : NodeId) :
    (d.releaseSubtree id).node? x = if x ∈ d.descendants id then none else d.node? x :=
  node?_foldl_vacate (hw.nodup_descendants id) (fun _ h => hw.contains_of_mem_descendants h) x

section releaseSubtree
variable (hw : d.WellFormed) (id : NodeId)
include hw

theorem contains_releaseSubtree (x : NodeId) :
    (d.releaseSubtree id).contains x ↔ d.contains x ∧ x ∉ d.descendants id := by
  rw [contains, node?_releaseSubtree hw]
  split <;> simp_all [contains]

theorem kind?_releaseSubtree (x : NodeId) :
    (d.releaseSubtree id).kind? x = if x ∈ d.descendants id then none else d.kind? x := by
  rw [kind?, node?_releaseSubtree hw]
  split <;> rfl

theorem parent?_releaseSubtree (x : NodeId) :
    (d.releaseSubtree id).parent? x = if x ∈ d.descendants id then none else d.parent? x := by
  rw [parent?, node?_releaseSubtree hw]
  split <;> rfl

theorem children_releaseSubtree (x : NodeId) :
    (d.releaseSubtree id).children x = if x ∈ d.descendants id then [] else d.children x := by
  rw [children, node?_releaseSubtree hw]
  split <;> rfl

/-- With its top free, a tree holds all children of its members, and none of others. -/
theorem mem_descendants_of_link {c p : NodeId} (htop : d.parent? id = none) (h : d.Link c p) :
    c ∈ d.descendants id ↔ p ∈ d.descendants id := by
  simp only [hw.mem_descendants_iff]
  refine and_congr_right fun _ => ⟨fun hc => ?_, fun hp => ReflTransGen.head h hp⟩
  rcases ReflTransGen.cases_head hc with rfl | ⟨q, hq, hc⟩
  · simp [Link, htop] at h
  · rw [Link] at h hq
    rw [h] at hq
    exact Option.some.inj hq ▸ hc

theorem wellFormed_releaseSubtree (htop : d.parent? id = none) :
    (d.releaseSubtree id).WellFormed := by
  have hmem := fun {c p} => mem_descendants_of_link hw id (c := c) (p := p) htop
  have hpar := parent?_releaseSubtree hw id
  have hch := children_releaseSubtree hw id
  refine ⟨freeExact_foldl_vacate hw.free (hw.nodup_descendants id) fun _ h =>
    hw.contains_of_mem_descendants h, ?_, ?_, ?_, ?_, ?_, ?_⟩
  · intro c p
    rw [hpar, hch]
    by_cases hp : p ∈ d.descendants id <;> by_cases hc : c ∈ d.descendants id
    · simp [hp, hc]
    · have : d.parent? c ≠ some p := fun h => hc ((hmem h).mpr hp)
      simp [hp, hc, this]
    · have : c ∉ d.children p := fun h => hp ((hmem ((hw.parent_iff c p).mpr h)).mp hc)
      simp [hp, hc, this]
    · simp [hp, hc, hw.parent_iff]
  · intro p
    rw [hch]
    split
    · exact List.nodup_nil
    · exact hw.children_nodup p
  · intro c p hc
    rw [hch] at hc
    split at hc
    · simp at hc
    · rename_i hp
      simpa [element?, kind?_releaseSubtree hw, hp] using hw.element_of_child c p hc
  · refine acyclic_of_link_le hw fun x y hl => ?_
    rw [Link, hpar] at hl
    split at hl
    · simp at hl
    · exact hl
  · intro l hl
    rw [releaseSubtree, listeners_foldl_vacate, List.mem_filter] at hl
    exact (contains_releaseSubtree hw id l.1).mpr ⟨hw.listeners_live l hl.1, by simpa using hl.2⟩
  · intro x e he
    rw [element?_eq_some_iff, kind?_releaseSubtree hw] at he
    split at he
    · simp at he
    · exact hw.no_repeats x e (element?_eq_some_iff.mpr he)

end releaseSubtree

end CopyControl.Document
