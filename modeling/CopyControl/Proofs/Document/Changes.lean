import CopyControl.Proofs.Document.Moves

/-!
Changes: what operations on nodes do to a document, in seven sorts.

Each sort carries the conditions under which operations make it. What is shown here for one
change holds after any number of them: the forest stays well-formed (`Change.wellFormed`), the
marks of a document stay where they are, and a slot keeps its node, with its tag, or is emptied
(`Change.keeps_or_empties`).

* §1 data of nodes
* §2 changes and the forest
* §3 changes and the slots
* §4 what no change touches
-/

namespace CopyControl

/-! ## §1 Data of nodes -/

/-- The data of a node may become other data of the same sort: an element keeps its tag and its
classes. -/
def NodeKind.MayBecome : NodeKind → NodeKind → Prop
  | .element e, .element e' =>
    e'.tag = e.tag ∧ (∀ c, e.hasClass c → e'.hasClass c) ∧ (e.NoRepeats → e'.NoRepeats)
  | .text _, .text _ => True
  | _, _ => False

/-- The change of a kind that changes its element. -/
def NodeKind.onElement (f : Element → Element) : NodeKind → NodeKind
  | .element e => .element (f e)
  | k => k

namespace Element

theorem noRepeats_ofTag (tag : String) : (ofTag tag).NoRepeats :=
  ⟨List.nodup_nil, List.nodup_nil⟩

@[simp] theorem tag_addClass (e : Element) (c : String) : (e.addClass c).tag = e.tag := by
  unfold addClass
  split <;> rfl

@[simp] theorem attributes_addClass (e : Element) (c : String) :
    (e.addClass c).attributes = e.attributes := by
  unfold addClass
  split <;> rfl

theorem mem_classes_addClass {e : Element} {c x : String} :
    x ∈ (e.addClass c).classes ↔ x ∈ e.classes ∨ x = c := by
  unfold addClass
  split
  · rename_i h
    rw [hasClass, List.contains_iff_mem] at h
    exact ⟨.inl, fun h' => h'.elim id fun hx => hx ▸ h⟩
  · simp

theorem hasClass_addClass {e : Element} {c x : String} :
    (e.addClass c).hasClass x ↔ e.hasClass x ∨ x = c := by
  simp only [hasClass, List.contains_iff_mem, mem_classes_addClass]

theorem noRepeats_addClass {e : Element} (h : e.NoRepeats) (c : String) :
    (e.addClass c).NoRepeats where
  classes := by
    unfold addClass
    split
    · exact h.classes
    · rename_i hc
      rw [hasClass, List.contains_iff_mem] at hc
      exact List.nodup_append.mpr ⟨h.classes, List.nodup_singleton c,
        by simpa using fun x hx (hxc : x = c) => hc (hxc ▸ hx)⟩
  attributes := by
    rw [attributes_addClass]
    exact h.attributes

/-- Setting a pair keeps the names in place and adds a new name last. -/
theorem map_fst_setPair (name value : String) (l : List (String × String)) :
    (setPair name value l).map Prod.fst =
      if name ∈ l.map Prod.fst then l.map Prod.fst else l.map Prod.fst ++ [name] := by
  induction l with
  | nil => rfl
  | cons x l ih =>
    obtain ⟨k, v⟩ := x
    rw [setPair]
    by_cases hk : k = name
    · simp [hk]
    · rw [if_neg hk, List.map_cons, ih]
      by_cases hl : name ∈ l.map Prod.fst
      · simp [hl, Ne.symm hk]
      · simp [hl, Ne.symm hk]

theorem noRepeats_setAttribute {e : Element} (h : e.NoRepeats) (name value : String) :
    (e.setAttribute name value).NoRepeats where
  classes := h.classes
  attributes := by
    rw [setAttribute, map_fst_setPair]
    split
    · exact h.attributes
    · rename_i hn
      exact List.nodup_append.mpr ⟨h.attributes, List.nodup_singleton name,
        by simpa using fun x y hx hxn => hn (List.mem_map.mpr ⟨(x, y), hx, hxn⟩)⟩

end Element

namespace Document

open Relation

variable {d d' : Document}

theorem onElement_eq (f : Element → Element) (n : Node) :
    onElement f n = { n with kind := n.kind.onElement f } := by
  obtain ⟨kind, _, _⟩ := n
  cases kind <;> rfl

/-! ## §2 Changes -/

/-- What an operation on nodes does to a document is done in changes of these seven sorts. -/
inductive Change (d : Document) : Document → Prop
  /-- A node is made that stands alone. -/
  | create (k : NodeKind) (hk : ∀ e, k = .element e → e.NoRepeats) :
      Change d (d.createNode k).2
  /-- A node gets other data. -/
  | data (id : NodeId) (f : Node → Node) (g : NodeKind → NodeKind)
      (hf : ∀ n, f n = { n with kind := g n.kind })
      (hg : ∀ k, d.kind? id = some k → k.MayBecome (g k)) : Change d (d.updateNode id f)
  /-- A live node gets a listener. -/
  | listen (id : NodeId) (l : Listener) (hid : d.contains id) :
      Change d { d with listeners := d.listeners ++ [(id, l)] }
  /-- A node is put below an element that is not below the node. -/
  | move (p c : NodeId) (r : Option NodeId) (hp : d.IsElement p) (hc : d.MayHold p c) :
      Change d (d.move p c r)
  /-- A node is taken out of its parent. -/
  | cut (p c : NodeId) (h : d.parent? c = some p) :
      Change d ((d.detach p c).notify (.ofRemoved p c))
  /-- The children of an element are swapped for others. -/
  | swap (p : NodeId) (cs : List NodeId) (hp : d.IsElement p) (hcs : ∀ c ∈ cs, d.MayHold p c) :
      Change d (d.swapChildren p cs)
  /-- A tree that hangs on nothing is freed. -/
  | free (id : NodeId) (h : d.parent? id = none) : Change d (d.releaseSubtree id)

theorem NodeKind.element?_isSome_of_mayBecome {k k' : NodeKind} (h : k.MayBecome k') :
    k'.element?.isSome = k.element?.isSome := by
  cases k <;> cases k' <;> first | rfl | exact h.elim

theorem Change.wellFormed (hw : d.WellFormed) (h : d.Change d') : d'.WellFormed := by
  cases h with
  | create k hk => exact wellFormed_createNode hw hk
  | data id f g hf hg =>
    refine wellFormed_updateKind hw id hf
      (fun k hk => NodeKind.element?_isSome_of_mayBecome (hg k hk)) fun k e' hk he => ?_
    have hke := hg k hk
    rw [he] at hke
    cases k with
    | element e => exact hke.2.2 (hw.no_repeats id e (element?_eq_some_iff.mpr hk))
    | text s => exact hke.elim
    | raw s => exact hke.elim
  | listen id l hid => exact wellFormed_addListener hw hid l
  | move p c r hp hc => exact wellFormed_move hw r hp hc
  | cut p c h => exact wellFormed_notify (wellFormed_detach hw h) _
  | swap p cs hp hcs => exact (swapChildren_spec hw hp hcs).1
  | free id h => exact wellFormed_releaseSubtree hw id h

/-! ## §3 Slots -/

section slots
variable {i : Nat}

/-- The slot, if there is one, has the generation it had, and its node, if there was one, is
still there and has its tag. -/
structure Keeps (i : Nat) (d d' : Document) : Prop where
  generation : ∀ g, d.generation? i = some g → d'.generation? i = some g
  node : ∀ x, x.index = i → d.contains x → d'.contains x ∧ d'.tag? x = d.tag? x

/-- The slot, if there is one, has the next generation. -/
def Empties (i : Nat) (d d' : Document) : Prop :=
  ∀ g, d.generation? i = some g → d'.generation? i = some (g + 1)

theorem Keeps.refl (i : Nat) (d : Document) : Keeps i d d :=
  ⟨fun _ h => h, fun _ _ h => ⟨h, rfl⟩⟩

theorem Keeps.trans {d'' : Document} (h : Keeps i d d') (h' : Keeps i d' d'') : Keeps i d d'' where
  generation g hg := h'.generation g (h.generation g hg)
  node x hx hc := by
    obtain ⟨hc', ht⟩ := h.node x hx hc
    obtain ⟨hc'', ht'⟩ := h'.node x hx hc'
    exact ⟨hc'', ht'.trans ht⟩

theorem Keeps.empties {d'' : Document} (h : Keeps i d d') (h' : Empties i d' d'') :
    Empties i d d'' :=
  fun g hg => h' g (h.generation g hg)

theorem tag?_eq_of_kind? {x : NodeId} (h : d'.kind? x = d.kind? x) : d'.tag? x = d.tag? x := by
  simp only [tag?, element?, h]

theorem keeps_of_kind? (hg : d'.generation? = d.generation?) (hk : d'.kind? = d.kind?) :
    Keeps i d d' := by
  refine ⟨fun g h => by rw [hg, h], fun x _ hc => ?_⟩
  rw [← kind?_isSome] at hc ⊢
  rw [hk]
  exact ⟨hc, tag?_eq_of_kind? (by rw [hk])⟩

theorem keeps_createNode (hf : d.FreeExact) (k : NodeKind) : Keeps i d (d.createNode k).2 := by
  refine ⟨fun g hg => ?_, fun x _ hc => ?_⟩
  · obtain ⟨s, hs, -⟩ := Option.map_eq_some_iff.mp hg
    rw [generation?_createNode d k (Array.getElem?_eq_some_iff.mp hs).1, hg]
  · have hne : x ≠ (d.createNode k).1 := by
      rintro rfl
      simp [contains_createNode_fst hf k] at hc
    refine ⟨by simp [contains_createNode hf, hc], tag?_eq_of_kind? ?_⟩
    rw [kind?_createNode hf, if_neg hne]

theorem keeps_updateNode (id : NodeId) {f : Node → Node} {g : NodeKind → NodeKind}
    (hf : ∀ n, f n = { n with kind := g n.kind })
    (hg : ∀ k, d.kind? id = some k → k.MayBecome (g k)) : Keeps i d (d.updateNode id f) := by
  refine ⟨fun n hn => by rw [generation?_updateNode, hn], fun x _ hc => ?_⟩
  rw [contains_updateNode]
  refine ⟨hc, ?_⟩
  have hk := kind?_updateNode d id (f := f) (g := g) (by intro n; rw [hf]) x
  split at hk
  · rename_i hx
    subst hx
    obtain ⟨k, hkx⟩ := Option.isSome_iff_exists.mp (kind?_isSome d x ▸ hc)
    have hb := hg k hkx
    simp only [tag?, element?, hk, hkx]
    -- an element becomes an element with its tag, anything else becomes no element
    cases k <;> cases hgk : g _ <;> rw [hgk] at hb <;> simp_all [NodeKind.MayBecome,
      NodeKind.element?]
  · exact tag?_eq_of_kind? hk

theorem generation?_cutLoose (d : Document) (c : NodeId) :
    (d.cutLoose c).generation? = d.generation? := by
  rw [← (unlink_rest d c).2.2.2]
  funext i
  simp only [generation?, slots_cutLoose]

theorem generation?_notify (d : Document) (r : MutationRecord) :
    (d.notify r).generation? = d.generation? := by
  funext i
  simp only [generation?, slots_notify]

theorem generation?_move (d : Document) (p c : NodeId) (r : Option NodeId) :
    (d.move p c r).generation? = d.generation? := by
  rw [move_eq, generation?_notify, attach, generation?_updateNode, generation?_updateNode,
    generation?_cutLoose]

theorem generation?_regrouped (d : Document) (p : NodeId) (cs : List NodeId) :
    (d.regrouped p cs).generation? = d.generation? := by
  obtain ⟨-, -, -, hg, -⟩ :=
    foldl_orphan_rest (d.updateNode p fun n => { n with children := [] }) (d.children p)
  rw [regrouped, (foldl_adopt_rest _ p cs).2.2.2, cleared, hg, generation?_updateNode]

theorem keeps_cut (p c : NodeId) : Keeps i d ((d.detach p c).notify (.ofRemoved p c)) := by
  refine keeps_of_kind? ?_ ?_
  · rw [generation?_notify, detach, generation?_updateNode, generation?_updateNode]
  · rw [kind?_notify, kind?_detach]

theorem OnlyFrees.keeps_or_empties (h : d.OnlyFrees d') (i : Nat) :
    Keeps i d d' ∨ Empties i d d' := by
  rcases h i with ⟨hg, hn⟩ | ⟨hg, -, -⟩
  · refine .inl ⟨fun g hd => by rw [hg, hd], fun x hx hc => ?_⟩
    rw [contains, hn x hx]
    exact ⟨hc, tag?_eq_of_kind? (by simp only [kind?, hn x hx])⟩
  · exact .inr fun g hd => by rw [hg, hd]; rfl

theorem Change.keeps_or_empties (hw : d.WellFormed) (h : d.Change d') (i : Nat) :
    Keeps i d d' ∨ Empties i d d' := by
  cases h with
  | create k hk => exact .inl (keeps_createNode hw.free k)
  | data id f g hf hg => exact .inl (keeps_updateNode id hf hg)
  | listen id l hid => exact .inl (keeps_of_kind? rfl rfl)
  | move p c r hp hc => exact .inl (keeps_of_kind? (generation?_move ..) (kind?_move ..))
  | cut p c h => exact .inl (keeps_cut p c)
  | swap p cs hp hcs =>
    have hk := keeps_of_kind? (i := i) (generation?_regrouped d p cs) (kind?_regrouped d p cs)
    rcases (swapChildren_spec hw hp hcs).2.keeps_or_empties i with h | h
    · exact .inl (hk.trans h)
    · exact .inr (hk.empties h)
  | free id h => exact (onlyFrees_releaseSubtree hw id).keeps_or_empties i

end slots

/-! ## §4 What no change touches -/

/-- The handles a document was made with. -/
def landmarks (d : Document) : NodeId × NodeId :=
  (d.root, d.body)

/-- These, and that of the head. -/
def anchors (d : Document) : (NodeId × NodeId) × NodeId :=
  (d.landmarks, d.head)

/-- What no change of nodes, listeners or observers touches: these, and whether the document is
ready. -/
def shell (d : Document) : Document :=
  { d with slots := #[], free := [], listeners := [], observers := [], mailboxes := #[] }

theorem shell_updateNode (d : Document) (id : NodeId) (f : Node → Node) :
    (d.updateNode id f).shell = d.shell := by
  unfold updateNode
  split <;> rfl

theorem shell_createNode (d : Document) (k : NodeKind) :
    (d.createNode k).2.shell = d.shell := by
  unfold createNode
  split <;> rfl

theorem shell_notify (d : Document) (r : MutationRecord) :
    (d.notify r).shell = d.shell := by
  unfold notify
  split <;> rfl

theorem shell_attach (d : Document) (p c : NodeId) (r : Option NodeId) :
    (d.attach p c r).shell = d.shell := by
  simp only [attach, shell_updateNode]

theorem shell_detach (d : Document) (p c : NodeId) :
    (d.detach p c).shell = d.shell := by
  simp only [detach, shell_updateNode]

theorem shell_foldl {α : Type} {f : Document → α → Document}
    (h : ∀ d a, (f d a).shell = d.shell) (l : List α) (d : Document) :
    (l.foldl f d).shell = d.shell := by
  induction l generalizing d with
  | nil => rfl
  | cons a l ih => exact (ih (f d a)).trans (h d a)

theorem shell_releaseSubtree (d : Document) (id : NodeId) :
    (d.releaseSubtree id).shell = d.shell :=
  shell_foldl (f := vacate) (fun _ _ => rfl) _ d

theorem shell_regrouped (d : Document) (p : NodeId) (cs : List NodeId) :
    (d.regrouped p cs).shell = d.shell := by
  have horphan : ∀ (d : Document) (a : NodeId), (d.orphan a).shell = d.shell :=
    fun d a => shell_updateNode d a _
  have hadopt : ∀ (d : Document) (a : NodeId), (adopt p d a).shell = d.shell := by
    intro d a
    rw [adopt_eq, shell_attach, unlink]
    split
    · exact shell_detach ..
    · rfl
  rw [regrouped, shell_foldl hadopt, cleared, shell_foldl horphan, shell_updateNode]

theorem shell_swapChildren (d : Document) (p : NodeId) (cs : List NodeId) :
    (d.swapChildren p cs).shell = d.shell := by
  have hrelease : ∀ (d : Document) (a : NodeId), (d.releaseIfOrphan a).shell = d.shell := by
    intro d a
    unfold releaseIfOrphan
    split
    · exact shell_releaseSubtree d a
    · rfl
  rw [swapChildren_eq, shell_foldl hrelease, shell_notify, shell_regrouped]

theorem Change.shell_eq (h : d.Change d') : d'.shell = d.shell := by
  cases h with
  | create k hk => exact shell_createNode d k
  | data id f g hf hg => exact shell_updateNode d id f
  | listen id l hid => rfl
  | move p c r hp hc =>
    rw [move_eq, shell_notify, shell_attach, cutLoose]
    split
    · rw [shell_notify, shell_detach]
    · rfl
  | cut p c h => rw [shell_notify, shell_detach]
  | swap p cs hp hcs => exact shell_swapChildren d p cs
  | free id h => exact shell_releaseSubtree d id

theorem anchors_congr (h : d'.shell = d.shell) : d'.anchors = d.anchors := by
  change d'.shell.anchors = d.shell.anchors
  rw [h]

theorem ready_congr (h : d'.shell = d.shell) : d'.ready = d.ready := by
  change d'.shell.ready = d.shell.ready
  rw [h]

theorem anchors_createNode (d : Document) (k : NodeKind) :
    (d.createNode k).2.anchors = d.anchors :=
  anchors_congr (shell_createNode d k)

theorem anchors_regrouped (d : Document) (p : NodeId) (cs : List NodeId) :
    (d.regrouped p cs).anchors = d.anchors :=
  anchors_congr (shell_regrouped d p cs)

theorem anchors_swapChildren (d : Document) (p : NodeId) (cs : List NodeId) :
    (d.swapChildren p cs).anchors = d.anchors :=
  anchors_congr (shell_swapChildren d p cs)

theorem Change.anchors_eq (h : d.Change d') : d'.anchors = d.anchors :=
  anchors_congr h.shell_eq

theorem Change.landmarks_eq (h : d.Change d') : d'.landmarks = d.landmarks :=
  congrArg Prod.fst h.anchors_eq

end Document

end CopyControl
