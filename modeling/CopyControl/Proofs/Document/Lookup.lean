import CopyControl.Document.Text

/-!
What each step on a document does to its lookups.

A document is seen through four lookups: what a node is (`kind?`), its parent, its children, and
the slots that stand behind a handle. Every change is made of a few steps — `updateNode`,
`createNode`, `vacate`, `notify` — and the lemmas here say once what each step, and each of the
links made with it, leaves and changes. No later proof opens a slot.

* §1 lookups through one slot
* §2 `updateNode`, and the links made with it: `attach`, `detach`, `orphan`
* §3 `createNode` and `vacate`
* §4 what observers are told changes no lookup
-/

namespace CopyControl.Document

/-! ## §1 Lookups through one slot -/

theorem node?_eq_some_iff {d : Document} {id : NodeId} {n : Node} :
    d.node? id = some n ↔ d.slots[id.index]? = some ⟨id.generation, some n⟩ := by
  unfold node?
  split
  · rename_i s hs
    rw [hs]
    obtain ⟨g, m⟩ := s
    by_cases hg : g = id.generation <;> simp [hg]
  · rename_i hs
    simp [hs]

theorem contains_iff {d : Document} {id : NodeId} :
    d.contains id = true ↔ ∃ n, d.node? id = some n :=
  Option.isSome_iff_exists

theorem contains_eq_false_iff {d : Document} {id : NodeId} :
    d.contains id = false ↔ d.node? id = none := by
  simp [contains]

/-- Two live handles with one slot number are one handle. -/
theorem eq_of_index_eq {d : Document} {x y : NodeId} (hx : d.contains x) (hy : d.contains y)
    (h : x.index = y.index) : x = y := by
  obtain ⟨n, hn⟩ := contains_iff.mp hx
  obtain ⟨m, hm⟩ := contains_iff.mp hy
  rw [node?_eq_some_iff] at hn hm
  rw [h, hm] at hn
  cases x
  cases y
  simp_all

theorem index_lt_of_contains {d : Document} {x : NodeId} (hx : d.contains x) :
    x.index < d.slots.size := by
  obtain ⟨n, hn⟩ := contains_iff.mp hx
  exact (Array.getElem?_eq_some_iff.mp (node?_eq_some_iff.mp hn)).1

theorem kind?_isSome (d : Document) (id : NodeId) : (d.kind? id).isSome = d.contains id := by
  simp [kind?, contains]

theorem kind?_eq_none_iff {d : Document} {id : NodeId} :
    d.kind? id = none ↔ d.contains id = false := by
  rw [← kind?_isSome]
  simp

theorem contains_of_kind? {d : Document} {id : NodeId} {k : NodeKind} (h : d.kind? id = some k) :
    d.contains id := by
  rw [← kind?_isSome, h]
  rfl

theorem contains_of_element? {d : Document} {id : NodeId} {e : Element}
    (h : d.element? id = some e) : d.contains id := by
  obtain ⟨k, hk, -⟩ := Option.bind_eq_some_iff.mp h
  exact contains_of_kind? hk

theorem contains_of_parent? {d : Document} {c p : NodeId} (h : d.parent? c = some p) :
    d.contains c := by
  obtain ⟨n, hn, -⟩ := Option.bind_eq_some_iff.mp h
  exact contains_iff.mpr ⟨n, hn⟩

theorem parent?_eq_none_of_dead {d : Document} {c : NodeId} (h : d.contains c = false) :
    d.parent? c = none := by
  simp [parent?, contains_eq_false_iff.mp h]

theorem contains_of_mem_children {d : Document} {c p : NodeId} (h : c ∈ d.children p) :
    d.contains p := by
  cases hp : d.node? p with
  | none => simp [children, hp] at h
  | some n => exact contains_iff.mpr ⟨n, hp⟩

theorem element?_eq_some_iff {d : Document} {id : NodeId} {e : Element} :
    d.element? id = some e ↔ d.kind? id = some (.element e) := by
  unfold element?
  cases d.kind? id with
  | none => simp
  | some k => cases k <;> simp [NodeKind.element?]

theorem tag?_eq_some_iff {d : Document} {id : NodeId} {t : String} :
    d.tag? id = some t ↔ ∃ e, d.element? id = some e ∧ e.tag = t :=
  Option.map_eq_some_iff

theorem contains_of_tag? {d : Document} {id : NodeId} {t : String} (h : d.tag? id = some t) :
    d.contains id := by
  obtain ⟨e, he, -⟩ := tag?_eq_some_iff.mp h
  exact contains_of_element? he

/-- A live node is its kind, its parent and its children. -/
theorem node?_eq_of_lookups {d d' : Document} {x : NodeId}
    (hk : d'.kind? x = d.kind? x) (hp : d'.parent? x = d.parent? x)
    (hc : d'.children x = d.children x) : d'.node? x = d.node? x := by
  rw [kind?, kind?] at hk
  rw [parent?, parent?] at hp
  rw [children, children] at hc
  cases h : d'.node? x with
  | none =>
    rw [h, Option.map_none, eq_comm, Option.map_eq_none_iff] at hk
    exact hk.symm
  | some n =>
    rw [h, Option.map_some, eq_comm, Option.map_eq_some_iff] at hk
    obtain ⟨m, hm, hkind⟩ := hk
    rw [h, hm] at hp hc
    obtain ⟨k, q, l⟩ := n
    obtain ⟨k', q', l'⟩ := m
    simp only [Option.bind_some, Option.map_some, Option.getD_some] at hkind hp hc
    rw [hm, hkind, hp, hc]

/-! ## §2 Changing a node in place -/

theorem node?_updateNode (d : Document) (id : NodeId) (f : Node → Node) (x : NodeId) :
    (d.updateNode id f).node? x = if x = id then (d.node? x).map f else d.node? x := by
  by_cases hc : d.contains id
  · obtain ⟨n, hn⟩ := contains_iff.mp hc
    have hs := node?_eq_some_iff.mp hn
    have hu : d.updateNode id f =
        { d with slots := d.slots.modify id.index fun s => { s with node := s.node.map f } } := by
      simp [updateNode, hc]
    rw [hu]
    unfold node?
    simp only [Array.getElem?_modify]
    by_cases hi : id.index = x.index
    · rw [hi] at hs
      simp only [hi, hs, Option.map_some, if_true]
      by_cases hx : x = id
      · simp [hx]
      · have hg : id.generation ≠ x.generation := by
          intro hg
          apply hx
          cases x
          cases id
          simp_all
        simp [hx, hg]
    · have hx : x ≠ id := fun h => hi (h ▸ rfl)
      simp [hi, hx]
  · have hn : d.node? id = none := by simpa [contains] using hc
    have hu : d.updateNode id f = d := by simp [updateNode, hc]
    rw [hu]
    split
    · rename_i hx
      simp [hx, hn]
    · rfl

theorem contains_updateNode (d : Document) (id : NodeId) (f : Node → Node) :
    (d.updateNode id f).contains = d.contains := by
  funext x
  simp only [contains, node?_updateNode]
  split <;> simp

theorem kind?_updateNode_of_keeps (d : Document) (id : NodeId) {f : Node → Node}
    (hf : ∀ n, (f n).kind = n.kind) : (d.updateNode id f).kind? = d.kind? := by
  funext x
  simp only [kind?, node?_updateNode]
  split
  · cases d.node? x <;> simp [hf]
  · rfl

theorem parent?_updateNode_of_keeps (d : Document) (id : NodeId) {f : Node → Node}
    (hf : ∀ n, (f n).parent = n.parent) : (d.updateNode id f).parent? = d.parent? := by
  funext x
  simp only [parent?, node?_updateNode]
  split
  · cases d.node? x <;> simp [hf]
  · rfl

theorem children_updateNode_of_keeps (d : Document) (id : NodeId) {f : Node → Node}
    (hf : ∀ n, (f n).children = n.children) : (d.updateNode id f).children = d.children := by
  funext x
  simp only [children, node?_updateNode]
  split
  · cases d.node? x <;> simp [hf]
  · rfl

theorem kind?_updateNode (d : Document) (id : NodeId) {f : Node → Node} {g : NodeKind → NodeKind}
    (hf : ∀ n, (f n).kind = g n.kind) (x : NodeId) :
    (d.updateNode id f).kind? x = if x = id then (d.kind? x).map g else d.kind? x := by
  simp only [kind?, node?_updateNode]
  split
  · cases d.node? x <;> simp [hf]
  · rfl

@[simp] theorem free_updateNode (d : Document) (id : NodeId) (f : Node → Node) :
    (d.updateNode id f).free = d.free := by
  unfold updateNode
  split <;> rfl

@[simp] theorem listeners_updateNode (d : Document) (id : NodeId) (f : Node → Node) :
    (d.updateNode id f).listeners = d.listeners := by
  unfold updateNode
  split <;> rfl

@[simp] theorem observers_updateNode (d : Document) (id : NodeId) (f : Node → Node) :
    (d.updateNode id f).observers = d.observers := by
  unfold updateNode
  split <;> rfl

@[simp] theorem mailboxes_updateNode (d : Document) (id : NodeId) (f : Node → Node) :
    (d.updateNode id f).mailboxes = d.mailboxes := by
  unfold updateNode
  split <;> rfl

/-! ### Empty slots and generations -/

/-- The slot stands empty. -/
def Vacant (d : Document) (i : Nat) : Prop :=
  ∃ g, d.slots[i]? = some ⟨g, none⟩

/-- The generation a slot has reached, if there is such a slot. -/
def generation? (d : Document) (i : Nat) : Option UInt32 :=
  (d.slots[i]?).map (·.generation)

/-- A live node's slot is of the generation of its handle. -/
theorem generation?_of_contains {d : Document} {x : NodeId} (hx : d.contains x) :
    d.generation? x.index = some x.generation := by
  obtain ⟨n, hn⟩ := contains_iff.mp hx
  simp [generation?, node?_eq_some_iff.mp hn]

/-- The handle has been issued, and its node has gone. -/
def Spent (d : Document) (k : NodeId) : Prop :=
  ∃ g, d.generation? k.index = some g ∧ g ≠ k.generation

theorem Spent.dead {d : Document} {k : NodeId} (h : d.Spent k) : d.contains k = false := by
  obtain ⟨g, hg, hne⟩ := h
  rw [Bool.eq_false_iff]
  intro hlive
  rw [generation?_of_contains hlive, Option.some.injEq] at hg
  exact hne hg.symm

theorem Spent.mono {d d' : Document} {k : NodeId} (h : d.Spent k)
    (hk : ∀ g, d.generation? k.index = some g → d'.generation? k.index = some g) : d'.Spent k := by
  obtain ⟨g, hg, hne⟩ := h
  exact ⟨g, hk g hg, hne⟩

theorem slots_updateNode (d : Document) (id : NodeId) (f : Node → Node) (i : Nat) :
    (d.updateNode id f).slots[i]? = d.slots[i]? ∨
      ∃ g n, d.slots[i]? = some ⟨g, some n⟩ ∧
        (d.updateNode id f).slots[i]? = some ⟨g, some (f n)⟩ := by
  by_cases hc : d.contains id
  · obtain ⟨n, hn⟩ := contains_iff.mp hc
    have hs := node?_eq_some_iff.mp hn
    simp only [updateNode, hc, if_true, Array.getElem?_modify]
    by_cases hi : id.index = i
    · subst hi
      exact .inr ⟨_, n, hs, by simp [hs]⟩
    · exact .inl (by simp [hi])
  · exact .inl (by simp [updateNode, hc])

theorem vacant_updateNode (d : Document) (id : NodeId) (f : Node → Node) (i : Nat) :
    (d.updateNode id f).Vacant i ↔ d.Vacant i := by
  rcases slots_updateNode d id f i with h | ⟨g, n, h, h'⟩
  · simp [Vacant, h]
  · simp [Vacant, h, h']

theorem generation?_updateNode (d : Document) (id : NodeId) (f : Node → Node) :
    (d.updateNode id f).generation? = d.generation? := by
  funext i
  rcases slots_updateNode d id f i with h | ⟨g, n, h, h'⟩
  · simp [generation?, h]
  · simp [generation?, h, h']

/-! ### Links -/

theorem contains_attach (d : Document) (p c : NodeId) (r : Option NodeId) :
    (d.attach p c r).contains = d.contains := by
  simp only [attach, contains_updateNode]

theorem kind?_attach (d : Document) (p c : NodeId) (r : Option NodeId) :
    (d.attach p c r).kind? = d.kind? := by
  simp only [attach]
  rw [kind?_updateNode_of_keeps _ _ (by intro; rfl),
      kind?_updateNode_of_keeps _ _ (by intro; rfl)]

theorem parent?_attach {d : Document} {p c : NodeId} (r : Option NodeId) (hc : d.contains c)
    (x : NodeId) : (d.attach p c r).parent? x = if x = c then some p else d.parent? x := by
  obtain ⟨n, hn⟩ := contains_iff.mp hc
  simp only [attach, parent?, node?_updateNode]
  by_cases hx : x = c
  · subst hx
    by_cases hp : x = p
    · simp [← hp, hn]
    · simp [hp, hn]
  · by_cases hp : x = p
    · subst hp
      simp only [hx, if_true, if_false]
      cases d.node? x <;> rfl
    · simp [hx, hp]

theorem children_attach {d : Document} {p : NodeId} (c : NodeId) (r : Option NodeId)
    (hp : d.contains p) (x : NodeId) :
    (d.attach p c r).children x =
      if x = p then insertSibling c r (d.children p) else d.children x := by
  obtain ⟨n, hn⟩ := contains_iff.mp hp
  simp only [attach]
  rw [children_updateNode_of_keeps _ _ (by intro; rfl)]
  simp only [children, node?_updateNode]
  by_cases hx : x = p
  · subst hx
    simp [hn]
  · simp [hx]

theorem contains_detach (d : Document) (p c : NodeId) :
    (d.detach p c).contains = d.contains := by
  simp only [detach, contains_updateNode]

theorem kind?_detach (d : Document) (p c : NodeId) : (d.detach p c).kind? = d.kind? := by
  simp only [detach]
  rw [kind?_updateNode_of_keeps _ _ (by intro; rfl),
      kind?_updateNode_of_keeps _ _ (by intro; rfl)]

theorem parent?_detach (d : Document) (p c x : NodeId) :
    (d.detach p c).parent? x = if x = c then none else d.parent? x := by
  simp only [detach, parent?, node?_updateNode]
  by_cases hx : x = c
  · subst hx
    by_cases hp : x = p <;> simp [hp]
  · by_cases hp : x = p
    · subst hp
      simp only [hx, if_true, if_false]
      cases d.node? x <;> rfl
    · simp [hx, hp]

theorem children_detach (d : Document) (p c x : NodeId) :
    (d.detach p c).children x =
      if x = p then (d.children p).filter (· ≠ c) else d.children x := by
  simp only [detach]
  rw [children_updateNode_of_keeps _ _ (by intro; rfl)]
  simp only [children, node?_updateNode]
  by_cases hx : x = p
  · subst hx
    cases d.node? x <;> simp
  · simp [hx]

theorem contains_orphan (d : Document) (c : NodeId) : (d.orphan c).contains = d.contains :=
  contains_updateNode ..

theorem kind?_orphan (d : Document) (c : NodeId) : (d.orphan c).kind? = d.kind? :=
  kind?_updateNode_of_keeps _ _ (by intro; rfl)

theorem children_orphan (d : Document) (c : NodeId) : (d.orphan c).children = d.children :=
  children_updateNode_of_keeps _ _ (by intro; rfl)

theorem parent?_orphan (d : Document) (c x : NodeId) :
    (d.orphan c).parent? x = if x = c then none else d.parent? x := by
  simp only [orphan, parent?, node?_updateNode]
  by_cases hx : x = c
  · subst hx
    cases d.node? x <;> simp
  · simp [hx]

/-! ## §3 New nodes and emptied slots -/

theorem node?_vacate (d : Document) (a x : NodeId) :
    (d.vacate a).node? x = if x.index = a.index then none else d.node? x := by
  unfold node? vacate
  simp only [Array.getElem?_modify]
  by_cases h : x.index = a.index
  · simp only [h, if_true]
    cases d.slots[a.index]? <;> simp
  · simp [h, Ne.symm h]

theorem node?_vacate_of_live {d : Document} {a : NodeId} (ha : d.contains a) (x : NodeId) :
    (d.vacate a).node? x = if x = a then none else d.node? x := by
  rw [node?_vacate]
  by_cases hx : x = a
  · simp [hx]
  · by_cases hi : x.index = a.index
    · cases hn : d.node? x with
      | none => simp
      | some n => exact absurd (eq_of_index_eq (contains_iff.mpr ⟨n, hn⟩) ha hi) hx
    · simp [hx, hi]

theorem vacant_vacate {d : Document} {a : NodeId} (ha : d.contains a) (i : Nat) :
    (d.vacate a).Vacant i ↔ i = a.index ∨ d.Vacant i := by
  obtain ⟨n, hn⟩ := contains_iff.mp ha
  have hs := node?_eq_some_iff.mp hn
  simp only [Vacant, vacate, Array.getElem?_modify]
  by_cases hi : a.index = i
  · subst hi
    simp [hs]
  · simp [hi, Ne.symm hi]

theorem generation?_vacate (d : Document) (a : NodeId) (i : Nat) :
    (d.vacate a).generation? i =
      if i = a.index then (d.generation? i).map (· + 1) else d.generation? i := by
  simp only [generation?, vacate, Array.getElem?_modify]
  by_cases hi : a.index = i
  · subst hi
    cases d.slots[a.index]? <;> simp
  · simp [hi, Ne.symm hi]

/-- The free list names the empty slots, each once. -/
structure FreeExact (d : Document) : Prop where
  nodup : d.free.Nodup
  mem_iff : ∀ i, i ∈ d.free ↔ d.Vacant i

section createNode
variable {d : Document} (hf : d.FreeExact) (k : NodeKind)
include hf

theorem contains_createNode_fst : d.contains (d.createNode k).1 = false := by
  rw [contains_eq_false_iff]
  unfold createNode
  split
  · rename_i index rest hfree
    obtain ⟨g, hg⟩ := (hf.mem_iff index).mp (by simp [hfree])
    simp [node?, hg]
  · simp [node?]

theorem node?_createNode (x : NodeId) :
    (d.createNode k).2.node? x =
      if x = (d.createNode k).1 then some (.detached k) else d.node? x := by
  unfold createNode
  split
  · rename_i index rest hfree
    obtain ⟨g, hg⟩ := (hf.mem_iff index).mp (by simp [hfree])
    simp only [node?, Array.getElem?_modify, hg, Option.map_some, Option.getD_some]
    obtain ⟨i, h⟩ := x
    by_cases hi : index = i
    · subst hi
      by_cases hh : g = h
      · simp [hg, hh]
      · simp [hg, hh, Ne.symm hh]
    · simp [hi, Ne.symm hi]
  · simp only [node?, Array.getElem?_push]
    obtain ⟨i, h⟩ := x
    by_cases hi : i = d.slots.size
    · subst hi
      by_cases hh : h = 0
      · simp [hh]
      · simp [hh, Ne.symm hh]
    · simp [hi]

theorem vacant_createNode (i : Nat) :
    (d.createNode k).2.Vacant i ↔ d.Vacant i ∧ i ≠ (d.createNode k).1.index := by
  unfold createNode
  split
  · rename_i index rest hfree
    obtain ⟨g, hg⟩ := (hf.mem_iff index).mp (by simp [hfree])
    simp only [Vacant, Array.getElem?_modify]
    by_cases hi : index = i
    · subst hi
      simp [hg]
    · simp [hi, Ne.symm hi]
  · simp only [Vacant, Array.getElem?_push]
    by_cases hi : i = d.slots.size
    · subst hi
      simp
    · simp [hi]

theorem freeExact_createNode : (d.createNode k).2.FreeExact where
  nodup := by
    have := hf.nodup
    unfold createNode
    split
    · rename_i index rest hfree
      rw [hfree] at this
      exact this.of_cons
    · assumption
  mem_iff i := by
    rw [vacant_createNode hf, ← hf.mem_iff]
    have hn := hf.nodup
    unfold createNode
    split
    · rename_i index rest hfree
      rw [hfree] at hn ⊢
      have hni := (List.nodup_cons.mp hn).1
      simp only [List.mem_cons]
      constructor
      · intro hi
        exact ⟨.inr hi, fun h => hni (h ▸ hi)⟩
      · rintro ⟨rfl | hi, hne⟩
        · exact absurd rfl hne
        · exact hi
    · rename_i hfree
      simp [hfree]

theorem contains_createNode (x : NodeId) :
    (d.createNode k).2.contains x = (decide (x = (d.createNode k).1) || d.contains x) := by
  simp only [contains, node?_createNode hf]
  split <;> simp_all

theorem kind?_createNode (x : NodeId) :
    (d.createNode k).2.kind? x = if x = (d.createNode k).1 then some k else d.kind? x := by
  simp only [kind?, node?_createNode hf]
  split <;> rfl

theorem parent?_createNode : (d.createNode k).2.parent? = d.parent? := by
  funext x
  simp only [parent?, node?_createNode hf]
  split
  · rename_i hx
    have := contains_eq_false_iff.mp (contains_createNode_fst hf k)
    simp [hx, this, Node.detached]
  · rfl

theorem children_createNode : (d.createNode k).2.children = d.children := by
  funext x
  simp only [children, node?_createNode hf]
  split
  · rename_i hx
    have := contains_eq_false_iff.mp (contains_createNode_fst hf k)
    simp [hx, this, Node.detached]
  · rfl

end createNode

theorem generation?_createNode (d : Document) (k : NodeKind) {i : Nat} (hi : i < d.slots.size) :
    (d.createNode k).2.generation? i = d.generation? i := by
  unfold createNode
  split
  · simp only [generation?, Array.getElem?_modify]
    split
    · cases d.slots[i]? <;> simp
    · rfl
  · simp [generation?, Array.getElem?_push, Nat.ne_of_lt hi]

@[simp] theorem listeners_createNode (d : Document) (k : NodeKind) :
    (d.createNode k).2.listeners = d.listeners := by
  unfold createNode
  split <;> rfl

@[simp] theorem observers_createNode (d : Document) (k : NodeKind) :
    (d.createNode k).2.observers = d.observers := by
  unfold createNode
  split <;> rfl

@[simp] theorem mailboxes_createNode (d : Document) (k : NodeKind) :
    (d.createNode k).2.mailboxes = d.mailboxes := by
  unfold createNode
  split <;> rfl

/-! ## §4 Notices -/

section notify
variable (d : Document) (r : MutationRecord)

@[simp] theorem slots_notify : (d.notify r).slots = d.slots := by
  unfold notify
  split <;> rfl

@[simp] theorem free_notify : (d.notify r).free = d.free := by
  unfold notify
  split <;> rfl

@[simp] theorem listeners_notify : (d.notify r).listeners = d.listeners := by
  unfold notify
  split <;> rfl

end notify

theorem node?_congr {d d' : Document} (h : d'.slots = d.slots) : d'.node? = d.node? := by
  funext x
  simp only [node?, h]

/-- Two documents with the same slots have the same lookups. -/
theorem lookups_congr {d d' : Document} (h : d'.slots = d.slots) :
    d'.contains = d.contains ∧ d'.kind? = d.kind? ∧ d'.parent? = d.parent? ∧
      d'.children = d.children := by
  have hn := node?_congr h
  refine ⟨?_, ?_, ?_, ?_⟩ <;> funext x <;> simp only [contains, kind?, parent?, children, hn]

section notify
variable (d : Document) (r : MutationRecord)

theorem contains_notify : (d.notify r).contains = d.contains :=
  (lookups_congr (slots_notify d r)).1

theorem kind?_notify : (d.notify r).kind? = d.kind? :=
  (lookups_congr (slots_notify d r)).2.1

theorem parent?_notify : (d.notify r).parent? = d.parent? :=
  (lookups_congr (slots_notify d r)).2.2.1

theorem children_notify : (d.notify r).children = d.children :=
  (lookups_congr (slots_notify d r)).2.2.2

end notify

end CopyControl.Document
