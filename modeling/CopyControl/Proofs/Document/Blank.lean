import CopyControl.Proofs.Document.Outcome

/-!
# Documents without some of their texts

`d.blanked S` is `d` with the text taken out of every text node in `S`. Nothing that finds its way
through a document looks at a text, so all lookups but `kind?` are the same in both
(`parent?_blanked` and so on), and edits of the tree commute with the blanking
(`swapChildren_blanked`). An `Edit` is `Blind` if what it answers and what it does, apart from those
texts, does not depend on them; programs of such edits are such edits again (`Blind.bind`).

* §1 the documents without texts
* §2 lookups and walks
* §3 edits of the tree
* §4 blind programs
-/

namespace CopyControl

/-- The kind of a node, for a text without the text if `b` says so. -/
def NodeKind.blankIf (b : Bool) : NodeKind → NodeKind
  | .text s => .text (if b then "" else s)
  | k => k

theorem NodeKind.element?_blankIf (b : Bool) (k : NodeKind) :
    (k.blankIf b).element? = k.element? := by
  cases k <;> rfl

theorem NodeKind.blankIf_blankIf (b : Bool) (k : NodeKind) :
    (k.blankIf b).blankIf b = k.blankIf b := by
  cases k <;> cases b <;> rfl

def Node.blankIf (b : Bool) (n : Node) : Node :=
  { n with kind := n.kind.blankIf b }

/-- A slot, its node's text taken out if `S` has the node. -/
def Slot.blankIn (S : NodeId → Bool) (i : Nat) (s : Slot) : Slot :=
  { s with node := s.node.map (·.blankIf (S ⟨i, s.generation⟩)) }

namespace Document

/-! ## §1 The documents without texts -/

/-- The document without the texts of the text nodes in `S`. -/
def blanked (S : NodeId → Bool) (d : Document) : Document :=
  { d with slots := d.slots.mapIdx fun i s => s.blankIn S i }

variable {S : NodeId → Bool} {d : Document}

theorem getElem?_slots_blanked (S : NodeId → Bool) (d : Document) (i : Nat) :
    (d.blanked S).slots[i]? = (d.slots[i]?).map (·.blankIn S i) := by
  simp [blanked]

theorem size_slots_blanked (S : NodeId → Bool) (d : Document) :
    (d.blanked S).slots.size = d.slots.size := by
  simp [blanked]

/-- Two documents with the same slots that agree in the rest are one document. -/
theorem eq_of_slots {d d' : Document} (hs : ∀ i : Nat, d.slots[i]? = d'.slots[i]?)
    (hr : { d with slots := d'.slots } = d') : d = d' := by
  obtain ⟨slots, _⟩ := d
  have h : slots = d'.slots := Array.ext_getElem? hs
  subst h
  exact hr

theorem blanked_blanked (S : NodeId → Bool) (d : Document) :
    (d.blanked S).blanked S = d.blanked S := by
  refine eq_of_slots (fun i => ?_) rfl
  simp only [getElem?_slots_blanked, Option.map_map]
  congr 1
  funext s
  cases hs : s.node <;> simp [Slot.blankIn, Node.blankIf, hs, NodeKind.blankIf_blankIf]

/-! ## §2 Lookups and walks -/

theorem node?_blanked (S : NodeId → Bool) (d : Document) (x : NodeId) :
    (d.blanked S).node? x = (d.node? x).map (·.blankIf (S x)) := by
  unfold node?
  rw [getElem?_slots_blanked]
  cases d.slots[x.index]? with
  | none => rfl
  | some s =>
    by_cases hg : s.generation = x.generation
    · obtain ⟨i, g⟩ := x
      obtain rfl : s.generation = g := hg
      simp [Slot.blankIn]
    · simp [Slot.blankIn, hg]

theorem kind?_blanked (S : NodeId → Bool) (d : Document) (x : NodeId) :
    (d.blanked S).kind? x = (d.kind? x).map (·.blankIf (S x)) := by
  simp only [kind?, node?_blanked, Option.map_map]
  rfl

section lookups

variable (S : NodeId → Bool) (d : Document)

@[simp] theorem contains_blanked : (d.blanked S).contains = d.contains := by
  funext x
  simp [contains, node?_blanked]

@[simp] theorem parent?_blanked : (d.blanked S).parent? = d.parent? := by
  funext x
  simp only [parent?, node?_blanked]
  cases d.node? x <;> rfl

@[simp] theorem children_blanked : (d.blanked S).children = d.children := by
  funext x
  simp only [children, node?_blanked]
  cases d.node? x <;> rfl

@[simp] theorem element?_blanked : (d.blanked S).element? = d.element? := by
  funext x
  simp only [element?, kind?_blanked]
  cases d.kind? x with
  | none => rfl
  | some k => exact NodeKind.element?_blankIf _ k

@[simp] theorem tag?_blanked : (d.blanked S).tag? = d.tag? := by
  funext x
  simp [tag?]

@[simp] theorem hasClass_blanked : (d.blanked S).hasClass = d.hasClass := by
  funext x c
  simp [hasClass]

@[simp] theorem attribute?_blanked : (d.blanked S).attribute? = d.attribute? := by
  funext x name
  simp [attribute?]

@[simp] theorem climb_blanked : (d.blanked S).climb = d.climb := by
  funext n
  induction n with
  | zero => rfl
  | succ n ih =>
    funext x
    simp only [climb, ih, parent?_blanked]

@[simp] theorem isInclusiveAncestor_blanked :
    (d.blanked S).isInclusiveAncestor = d.isInclusiveAncestor := by
  funext a x
  simp [isInclusiveAncestor, inclusiveAncestors, size_slots_blanked]

@[simp] theorem unstack_blanked : (d.blanked S).unstack = d.unstack := by
  funext n
  induction n with
  | zero => rfl
  | succ n ih =>
    funext stack
    cases stack with
    | nil => rfl
    | cons x stack => simp only [unstack, ih, children_blanked]

@[simp] theorem descendants_blanked : (d.blanked S).descendants = d.descendants := by
  funext x
  simp [descendants, size_slots_blanked]

@[simp] theorem watches_blanked : (d.blanked S).watches = d.watches := by
  funext r target
  simp [watches]

/-- A text node stays one without its text. -/
@[simp] theorem soleText?_blanked : (d.blanked S).soleText? = d.soleText? := by
  funext x
  simp only [soleText?, children_blanked]
  split
  · rename_i only _
    rw [kind?_blanked]
    cases d.kind? only with
    | none => rfl
    | some k => cases k <;> rfl
  · rfl

end lookups

/-! ## §3 Edits of the tree -/

/-- A change of a node that goes along with the blanking goes along with it in a document. -/
theorem updateNode_blanked {f : Node → Node} (hf : ∀ b n, f (n.blankIf b) = (f n).blankIf b)
    (S : NodeId → Bool) (d : Document) (id : NodeId) :
    (d.blanked S).updateNode id f = (d.updateNode id f).blanked S := by
  unfold updateNode
  rw [contains_blanked]
  split
  · refine eq_of_slots (fun i => ?_) rfl
    rw [getElem?_slots_blanked]
    simp only [Array.getElem?_modify, getElem?_slots_blanked]
    cases hs : d.slots[i]? with
    | none => simp
    | some s =>
      obtain ⟨g, n⟩ := s
      split <;> cases n <;> simp [Slot.blankIn, hf]
  · rfl

/-- The text that a node of `S` is given makes no difference either. -/
theorem updateNode_text_blanked (S : NodeId → Bool) (d : Document) (id : NodeId) (text : String) :
    ((d.blanked S).updateNode id fun n => { n with kind := .text text }).blanked S =
      (d.updateNode id fun n => { n with kind := .text text }).blanked S := by
  unfold updateNode
  rw [contains_blanked]
  split
  · refine eq_of_slots (fun i => ?_) rfl
    simp only [getElem?_slots_blanked, Array.getElem?_modify]
    cases hs : d.slots[i]? with
    | none => simp
    | some s =>
      obtain ⟨g, n⟩ := s
      split <;> cases n <;>
        simp [Slot.blankIn, Node.blankIf, NodeKind.blankIf_blankIf]
  · exact blanked_blanked S d

/-- A new node is put into the same slot. -/
theorem createNode_blanked (S : NodeId → Bool) (d : Document) (k : NodeKind) :
    ((d.blanked S).createNode k).1 = (d.createNode k).1 ∧
      ((d.blanked S).createNode k).2.blanked S = (d.createNode k).2.blanked S := by
  unfold createNode
  cases hf : d.free with
  | nil =>
    have hf' : (d.blanked S).free = [] := hf
    rw [hf']
    refine ⟨by simp [size_slots_blanked], eq_of_slots (fun i => ?_) rfl⟩
    simp only [getElem?_slots_blanked, Array.getElem?_push, size_slots_blanked]
    split
    · rfl
    · cases d.slots[i]? with
      | none => rfl
      | some s =>
        obtain ⟨g, n⟩ := s
        cases n <;> simp [Slot.blankIn, Node.blankIf, NodeKind.blankIf_blankIf]
  | cons j rest =>
    have hf' : (d.blanked S).free = j :: rest := hf
    rw [hf']
    refine ⟨?_, eq_of_slots (fun i => ?_) rfl⟩
    · simp only [getElem?_slots_blanked, Option.map_map]
      rfl
    · simp only [getElem?_slots_blanked, Array.getElem?_modify]
      cases d.slots[i]? with
      | none => simp
      | some s =>
        obtain ⟨g, n⟩ := s
        split <;> cases n <;>
          simp [Slot.blankIn, Node.blankIf, NodeKind.blankIf_blankIf]

section edits

variable (S : NodeId → Bool) (d : Document)

theorem attach_blanked (p c : NodeId) (r : Option NodeId) :
    (d.blanked S).attach p c r = (d.attach p c r).blanked S := by
  simp only [attach]
  rw [updateNode_blanked (fun _ _ => rfl), updateNode_blanked (fun _ _ => rfl)]

theorem detach_blanked (p c : NodeId) : (d.blanked S).detach p c = (d.detach p c).blanked S := by
  simp only [detach]
  rw [updateNode_blanked (fun _ _ => rfl), updateNode_blanked (fun _ _ => rfl)]

theorem orphan_blanked (c : NodeId) : (d.blanked S).orphan c = (d.orphan c).blanked S :=
  updateNode_blanked (fun _ _ => rfl) S d c

theorem vacate_blanked (x : NodeId) : (d.blanked S).vacate x = (d.vacate x).blanked S := by
  refine eq_of_slots (fun i => ?_) rfl
  simp only [vacate, getElem?_slots_blanked, Array.getElem?_modify]
  cases d.slots[i]? with
  | none => simp
  | some s => split <;> simp [Slot.blankIn]

theorem notify_blanked (r : MutationRecord) : (d.blanked S).notify r = (d.notify r).blanked S := by
  unfold notify
  rw [show (d.blanked S).observers = d.observers from rfl, watches_blanked]
  split <;> rfl

/-- What goes along with the blanking one node at a time goes along with it over a list. -/
theorem foldl_blanked {α : Type} {f : Document → α → Document}
    (hf : ∀ d a, f (d.blanked S) a = (f d a).blanked S) (l : List α) (d : Document) :
    l.foldl f (d.blanked S) = (l.foldl f d).blanked S := by
  induction l generalizing d with
  | nil => rfl
  | cons a l ih => rw [List.foldl_cons, List.foldl_cons, hf, ih]

theorem releaseSubtree_blanked (x : NodeId) :
    (d.blanked S).releaseSubtree x = (d.releaseSubtree x).blanked S := by
  rw [releaseSubtree, descendants_blanked, foldl_blanked S (vacate_blanked S)]
  rfl

theorem releaseIfOrphan_blanked (x : NodeId) :
    (d.blanked S).releaseIfOrphan x = (d.releaseIfOrphan x).blanked S := by
  unfold releaseIfOrphan
  rw [parent?_blanked, releaseSubtree_blanked]
  split <;> rfl

theorem adopt_blanked (p c : NodeId) : adopt p (d.blanked S) c = (adopt p d c).blanked S := by
  unfold adopt
  rw [parent?_blanked]
  cases d.parent? c with
  | none => exact attach_blanked S d p c none
  | some old =>
    simp only [detach_blanked]
    exact attach_blanked S _ p c none

theorem move_blanked (p c : NodeId) (r : Option NodeId) :
    (d.blanked S).move p c r = (d.move p c r).blanked S := by
  unfold move
  rw [parent?_blanked]
  cases d.parent? c with
  | none => simp only [attach_blanked, notify_blanked]
  | some old => simp only [detach_blanked, attach_blanked, notify_blanked]

theorem swapChildren_blanked (p : NodeId) (cs : List NodeId) :
    (d.blanked S).swapChildren p cs = (d.swapChildren p cs).blanked S := by
  simp only [swapChildren, children_blanked]
  rw [updateNode_blanked (fun _ _ => rfl), foldl_blanked S (orphan_blanked S),
    foldl_blanked S (fun d c => adopt_blanked S d p c), notify_blanked,
    foldl_blanked S (releaseIfOrphan_blanked S)]

end edits

/-! ## §4 Blind programs -/

open Edit

/-- What the program answers, and what it does apart from the texts in `S`, does not depend on the
texts in `S`. -/
def Blind {α : Type} (S : NodeId → Bool) (e : Edit α) : Prop :=
  ∀ d : Document, (e.apply (d.blanked S)).1 = (e.apply d).1 ∧
    (e.apply (d.blanked S)).2.blanked S = (e.apply d).2.blanked S

section Blind
variable {α β : Type} {e : Edit α}

/-- A blind program cannot tell two documents apart that differ in texts of `S` only. -/
theorem Blind.apply_eq (h : Blind S e) {d d' : Document} (hd : d'.blanked S = d.blanked S) :
    (e.apply d').1 = (e.apply d).1 ∧ (e.apply d').2.blanked S = (e.apply d).2.blanked S := by
  obtain ⟨h₁, h₂⟩ := h d
  obtain ⟨h₁', h₂'⟩ := h d'
  rw [hd] at h₁' h₂'
  exact ⟨h₁'.symm.trans h₁, h₂'.symm.trans h₂⟩

theorem blind_pure (a : α) : Blind S (pure a : Edit α) :=
  fun d => ⟨rfl, blanked_blanked S d⟩

theorem blind_throw (x : DocumentError) : Blind S (throw x : Edit α) :=
  fun d => ⟨rfl, blanked_blanked S d⟩

theorem blind_modify {f : Document → Document}
    (hf : ∀ d : Document, (f (d.blanked S)).blanked S = (f d).blanked S) :
    Blind S (modify f : Edit Unit) :=
  fun d => ⟨rfl, hf d⟩

theorem Blind.bind {f : α → Edit β} (he : Blind S e) (hf : ∀ a, Blind S (f a)) :
    Blind S (e >>= f) := by
  intro d
  obtain ⟨hr, hd⟩ := he d
  rw [apply_bind, apply_bind]
  cases h : e.apply d with
  | mk r d₁ =>
    cases h' : e.apply (d.blanked S) with
    | mk r' d₂ =>
      rw [h, h'] at hr hd
      obtain rfl : r' = r := hr
      cases r' with
      | error x => exact ⟨rfl, hd⟩
      | ok a => exact (hf a).apply_eq hd

/-- A program may look at a document as far as it looks past the texts. -/
theorem Blind.read {f : Document → Edit β} (hf : ∀ d, Blind S (f d))
    (hs : ∀ d : Document, f (d.blanked S) = f d) : Blind S ((get : Edit Document) >>= f) := by
  intro d
  rw [apply_get_bind, apply_get_bind, hs]
  exact hf d d

theorem blind_ite {p : Prop} [Decidable p] {e e' : Edit α} (h : Blind S e) (h' : Blind S e') :
    Blind S (if p then e else e') := by
  split
  · exact h
  · exact h'

/-- A check in front of a program. -/
theorem Blind.check {p : Prop} [Decidable p] {x : DocumentError} {f : Unit → Edit β}
    (hf : ∀ u, Blind S (f u)) : Blind S (if p then throw x >>= f else f ()) :=
  blind_ite ((blind_throw x).bind hf) (hf ())

theorem blind_ensureLive (x : NodeId) : Blind S (ensureLive x) :=
  .read (fun _ => blind_ite (blind_throw _) (blind_pure _)) fun d => by rw [contains_blanked]

theorem blind_ensureElement (x : NodeId) : Blind S (ensureElement x) := by
  refine .read (fun d => ?_) fun d => ?_
  · split
    · exact blind_pure _
    · exact blind_throw _
    · exact blind_throw _
  · rw [kind?_blanked]
    cases d.kind? x with
    | none => rfl
    | some k => cases k <;> rfl

theorem blind_ensureInsertable (p c : NodeId) : Blind S (ensureInsertable p c) :=
  (blind_ensureLive c).bind fun _ =>
    .read (fun _ => blind_ite (blind_throw _) (blind_pure _)) fun d => by
      rw [isInclusiveAncestor_blanked]

theorem blind_createNode (k : NodeKind) :
    Blind S (modifyGet fun d => d.createNode k : Edit NodeId) :=
  fun d => ⟨congrArg Except.ok (createNode_blanked S d k).1, (createNode_blanked S d k).2⟩

theorem blind_createElement (tag : String) : Blind S (createElement tag) :=
  blind_createNode _

theorem blind_createText (s : String) : Blind S (createText s) :=
  blind_createNode _

theorem blind_createRaw (markup : String) : Blind S (createRaw markup) :=
  blind_createNode _

theorem blind_updateElement (x : NodeId) (f : Element → Element) :
    Blind S (updateElement x f) := by
  refine (blind_ensureElement x).bind fun _ => blind_modify fun d => ?_
  rw [updateNode_blanked, blanked_blanked]
  intro b n
  obtain ⟨kind, _, _⟩ := n
  cases kind <;> rfl

theorem blind_addClickListener (x : NodeId) (l : Listener) : Blind S (addClickListener x l) :=
  (blind_ensureLive x).bind fun _ => blind_modify fun d =>
    blanked_blanked S { d with listeners := d.listeners ++ [(x, l)] }

theorem blind_insertBefore (p c : NodeId) (r : Option NodeId) : Blind S (insertBefore p c r) := by
  have hmove : ∀ r, Blind S (modify (·.move p c r) : Edit Unit) := fun r =>
    blind_modify fun d => by rw [move_blanked, blanked_blanked]
  refine (blind_ensureElement p).bind fun _ => (blind_ensureInsertable p c).bind fun _ => ?_
  cases r with
  | none => exact hmove none
  | some r =>
    refine .read (fun d => .check fun _ => ?_) fun d => by rw [parent?_blanked]
    exact blind_ite (hmove (some r)) (blind_pure _)

theorem blind_removeChild (p c : NodeId) : Blind S (removeChild p c) := by
  refine .read (fun d => .check fun _ => blind_modify fun d => ?_) fun d => by
    rw [parent?_blanked]
  rw [detach_blanked, notify_blanked, blanked_blanked]

theorem blind_forM {l : List α} {f : α → Edit Unit} (hf : ∀ a, Blind S (f a)) :
    Blind S (l.forM f) := by
  induction l with
  | nil => exact blind_pure ()
  | cons a l ih => exact (hf a).bind fun _ => ih

theorem blind_replaceChildren (p : NodeId) (cs : List NodeId) :
    Blind S (replaceChildren p cs) := by
  refine (blind_ensureElement p).bind fun _ => ?_
  refine (blind_forM (blind_ensureInsertable p)).bind fun _ => blind_modify fun d => ?_
  rw [swapChildren_blanked, blanked_blanked]

theorem blind_release (x : NodeId) : Blind S (release x) := by
  have hfree : Blind S (modify (·.releaseSubtree x) : Edit Unit) :=
    blind_modify fun d => by rw [releaseSubtree_blanked, blanked_blanked]
  refine (blind_ensureLive x).bind fun _ => .read (fun d => .check fun _ => ?_) fun d => rfl
  refine .read (fun d => ?_) fun d => by rw [parent?_blanked]
  cases d.parent? x with
  | none => exact (blind_pure ()).bind fun _ => hfree
  | some p => exact (blind_removeChild p x).bind fun _ => hfree

theorem blind_setTextContent (x : NodeId) (s : String) : Blind S (setTextContent x s) :=
  (blind_ensureElement x).bind fun _ => (blind_createText s).bind fun _ =>
    blind_replaceChildren _ _

theorem blind_setText (x : NodeId) (s : String) : Blind S (setText x s) := by
  refine .read (fun d => ?_) fun d => by rw [soleText?_blanked]
  cases d.soleText? x with
  | none => exact blind_setTextContent x s
  | some only => exact blind_modify fun d => updateNode_text_blanked S d only s

theorem blind_appendText (x : NodeId) (s : String) : Blind S (appendText x s) :=
  (blind_ensureElement x).bind fun _ => (blind_createText s).bind fun _ =>
    (blind_insertBefore _ _ _).bind fun _ => blind_pure _

end Blind

end Document

end CopyControl
