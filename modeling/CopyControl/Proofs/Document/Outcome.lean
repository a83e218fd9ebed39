import CopyControl.Proofs.Document.Growth

/-!
What an operation on a document can come to.

Each operation first checks and then acts. For each of them there is one lemma for the case that
its checks fail, and then it fails and leaves the document as it was, and one for the case that
they do not, which names the document it ends in. Two operations make a node between their checks
and their action; that the action cannot fail any more needs a well-formed document.
-/

namespace CopyControl

namespace Edit

variable {α β : Type}

theorem apply_bind (e : Edit α) (f : α → Edit β) (d : Document) :
    (e >>= f).apply d =
      match e.apply d with
      | (.ok a, d') => (f a).apply d'
      | (.error x, d') => (.error x, d') := by
  show (StateT.bind e (ExceptT.bindCont f)) d = _
  simp only [StateT.bind, apply, ExceptT.run, bind]
  rcases e d with ⟨_ | a, d'⟩ <;> rfl

theorem apply_bind_ok {e : Edit α} {f : α → Edit β} {d d' : Document} {a : α}
    (h : e.apply d = (.ok a, d')) : (e >>= f).apply d = (f a).apply d' := by
  rw [apply_bind, h]

theorem apply_bind_error {e : Edit α} {f : α → Edit β} {d d' : Document} {x : DocumentError}
    (h : e.apply d = (.error x, d')) : (e >>= f).apply d = (.error x, d') := by
  rw [apply_bind, h]

@[simp] theorem apply_pure (a : α) (d : Document) : (pure a : Edit α).apply d = (.ok a, d) := rfl

@[simp] theorem apply_throw (x : DocumentError) (d : Document) :
    (throw x : Edit α).apply d = (.error x, d) := rfl

@[simp] theorem apply_get (d : Document) : (get : Edit Document).apply d = (.ok d, d) := rfl

@[simp] theorem apply_modify (f : Document → Document) (d : Document) :
    (modify f : Edit Unit).apply d = (.ok (), f d) := rfl

@[simp] theorem apply_modifyGet (f : Document → α × Document) (d : Document) :
    (modifyGet f : Edit α).apply d = (.ok (f d).1, (f d).2) := rfl

theorem apply_get_bind (f : Document → Edit β) (d : Document) :
    ((get : Edit Document) >>= f).apply d = (f d).apply d :=
  apply_bind_ok (apply_get d)

/-- The operation fails and leaves the document as it was. -/
def Fails (e : Edit α) (d : Document) : Prop :=
  ∃ x, e.apply d = (.error x, d)

theorem Fails.bind {e : Edit α} {d : Document} (h : e.Fails d) (f : α → Edit β) :
    (e >>= f).Fails d := by
  obtain ⟨x, hx⟩ := h
  exact ⟨x, apply_bind_error hx⟩

theorem fails_bind_of_ok {e : Edit α} {f : α → Edit β} {d : Document} {a : α}
    (h : e.apply d = (.ok a, d)) (hf : (f a).Fails d) : (e >>= f).Fails d := by
  obtain ⟨x, hx⟩ := hf
  exact ⟨x, by rw [apply_bind_ok h, hx]⟩

/-- The operation succeeds, and `P` holds of its result and of the document afterwards. -/
def Gives (e : Edit α) (d : Document) (P : α → Document → Prop) : Prop :=
  ∃ a d', e.apply d = (.ok a, d') ∧ P a d'

theorem gives_of_ok {e : Edit α} {a : α} {d d' : Document} (h : e.apply d = (.ok a, d')) :
    e.Gives d fun b d'' => b = a ∧ d'' = d' :=
  ⟨a, d', h, rfl, rfl⟩

theorem gives_pure {a : α} {d : Document} {P : α → Document → Prop} (h : P a d) :
    (pure a : Edit α).Gives d P :=
  ⟨a, d, rfl, h⟩

theorem Gives.imp {e : Edit α} {d : Document} {P Q : α → Document → Prop} (h : e.Gives d P)
    (hpq : ∀ a d', P a d' → Q a d') : e.Gives d Q := by
  obtain ⟨a, d', ha, hp⟩ := h
  exact ⟨a, d', ha, hpq a d' hp⟩

theorem Gives.and {e : Edit α} {d : Document} {P Q : α → Document → Prop} (h : e.Gives d P)
    (h' : e.Gives d Q) : e.Gives d fun a d' => P a d' ∧ Q a d' := by
  obtain ⟨a, d', ha, hp⟩ := h
  obtain ⟨b, d'', hb, hq⟩ := h'
  rw [ha] at hb
  obtain ⟨⟨rfl⟩, rfl⟩ := Prod.mk.inj hb
  exact ⟨a, d', ha, hp, hq⟩

theorem Gives.bind {e : Edit α} {f : α → Edit β} {d : Document} {P : α → Document → Prop}
    {Q : β → Document → Prop} (h : e.Gives d P) (hf : ∀ a d', P a d' → (f a).Gives d' Q) :
    (e >>= f).Gives d Q := by
  obtain ⟨a, d', ha, hp⟩ := h
  obtain ⟨b, d'', hb, hq⟩ := hf a d' hp
  exact ⟨b, d'', (apply_bind_ok ha).trans hb, hq⟩

end Edit

namespace Document

open Edit Relation

variable {d : Document} {id p c : NodeId}

/-! ## §1 Checks -/

/-- The handle names an element. -/
def IsElement (d : Document) (id : NodeId) : Prop :=
  (d.element? id).isSome

theorem contains_of_isElement {d : Document} {id : NodeId} (h : d.IsElement id) :
    d.contains id := by
  obtain ⟨e, he⟩ := Option.isSome_iff_exists.mp h
  exact contains_of_element? he

/-- `c` is alive and may go below `p`. -/
def MayHold (d : Document) (p c : NodeId) : Prop :=
  d.contains c ∧ d.isInclusiveAncestor c p = false

theorem ensureLive_ok (h : d.contains id) : (ensureLive id).apply d = (.ok (), d) := by
  simp [ensureLive, apply_get_bind, h]

theorem ensureLive_fails (h : ¬ d.contains id) : (ensureLive id).Fails d :=
  ⟨.unknownNode id, by simp [ensureLive, apply_get_bind, h]⟩

theorem ensureElement_ok (h : d.IsElement id) : (ensureElement id).apply d = (.ok (), d) := by
  obtain ⟨e, he⟩ := Option.isSome_iff_exists.mp h
  simp [ensureElement, apply_get_bind, element?_eq_some_iff.mp he]

theorem ensureElement_fails (h : ¬ d.IsElement id) : (ensureElement id).Fails d := by
  rw [Fails, ensureElement, apply_get_bind]
  cases hk : d.kind? id with
  | none => exact ⟨_, rfl⟩
  | some k =>
    cases k with
    | element e => exact absurd (Option.isSome_of_mem (element?_eq_some_iff.mpr hk)) h
    | text s => exact ⟨_, rfl⟩
    | raw s => exact ⟨_, rfl⟩

theorem ensureInsertable_ok (h : d.MayHold p c) :
    (ensureInsertable p c).apply d = (.ok (), d) := by
  rw [ensureInsertable, apply_bind_ok (ensureLive_ok h.1), apply_get_bind]
  simp [h.2]

theorem ensureInsertable_fails (h : ¬ d.MayHold p c) : (ensureInsertable p c).Fails d := by
  by_cases hc : d.contains c
  · refine fails_bind_of_ok (ensureLive_ok hc) (fails_bind_of_ok (apply_get d) ?_)
    have ha : d.isInclusiveAncestor c p = true := by simpa [MayHold, hc] using h
    exact ⟨.hierarchyCycle p c, by simp [ha]⟩
  · exact (ensureLive_fails hc).bind _

theorem forM_ensureInsertable_ok {cs : List NodeId} (h : ∀ c ∈ cs, d.MayHold p c) :
    (cs.forM (ensureInsertable p)).apply d = (.ok (), d) := by
  induction cs with
  | nil => rfl
  | cons c cs ih =>
    have hcons : (c :: cs).forM (ensureInsertable p) =
        (ensureInsertable p c >>= fun _ => cs.forM (ensureInsertable p)) := rfl
    rw [hcons, apply_bind_ok (ensureInsertable_ok (h c List.mem_cons_self))]
    exact ih fun x hx => h x (List.mem_cons_of_mem _ hx)

theorem forM_ensureInsertable_fails {cs : List NodeId} (h : ¬ ∀ c ∈ cs, d.MayHold p c) :
    (cs.forM (ensureInsertable p)).Fails d := by
  induction cs with
  | nil => simp at h
  | cons c cs ih =>
    have hcons : (c :: cs).forM (ensureInsertable p) =
        (ensureInsertable p c >>= fun _ => cs.forM (ensureInsertable p)) := rfl
    rw [hcons]
    by_cases hc : d.MayHold p c
    · refine fails_bind_of_ok (ensureInsertable_ok hc) (ih fun hcs => h ?_)
      exact List.forall_mem_cons.mpr ⟨hc, hcs⟩
    · exact (ensureInsertable_fails hc).bind _

/-! ## §2 Operations that make no node -/

/-- The change of a node that changes its element part. -/
def onElement (f : Element → Element) (n : Node) : Node :=
  match n.kind with
  | .element e => { n with kind := .element (f e) }
  | _ => n

theorem updateElement_ok (f : Element → Element) (h : d.IsElement id) :
    (updateElement id f).apply d = (.ok (), d.updateNode id (onElement f)) := by
  rw [updateElement, apply_bind_ok (ensureElement_ok h)]
  rfl

theorem updateElement_fails (f : Element → Element) (h : ¬ d.IsElement id) :
    (updateElement id f).Fails d :=
  (ensureElement_fails h).bind _

theorem addClickListener_ok (l : Listener) (h : d.contains id) :
    (addClickListener id l).apply d =
      (.ok (), { d with listeners := d.listeners ++ [(id, l)] }) := by
  rw [addClickListener, apply_bind_ok (ensureLive_ok h)]
  rfl

theorem addClickListener_fails (l : Listener) (h : ¬ d.contains id) :
    (addClickListener id l).Fails d :=
  (ensureLive_fails h).bind _

/-- The checks of an insertion: `p` is an element, `c` may go below it, and `r` is a child of
`p`, if there is an `r`. -/
structure Insertable (d : Document) (p c : NodeId) (r : Option NodeId) : Prop where
  element : d.IsElement p
  mayHold : d.MayHold p c
  reference : ∀ s, r = some s → d.parent? s = some p

theorem insertBefore_ok {r : Option NodeId} (h : d.Insertable p c r) :
    (insertBefore p c r).apply d = (.ok (), if r = some c then d else d.move p c r) := by
  unfold insertBefore
  rw [apply_bind_ok (ensureElement_ok h.element), apply_bind_ok (ensureInsertable_ok h.mayHold)]
  cases r with
  | none => rfl
  | some s =>
    have hp := h.reference s rfl
    rw [apply_get_bind]
    by_cases hs : s = c
    · subst hs
      simp [hp]
    · simp [hp, hs]

theorem insertBefore_fails {r : Option NodeId} (h : ¬ d.Insertable p c r) :
    (insertBefore p c r).Fails d := by
  by_cases hp : d.IsElement p
  swap
  · exact (ensureElement_fails hp).bind _
  refine fails_bind_of_ok (ensureElement_ok hp) ?_
  by_cases hc : d.MayHold p c
  swap
  · exact (ensureInsertable_fails hc).bind _
  refine fails_bind_of_ok (ensureInsertable_ok hc) ?_
  cases r with
  | none => exact absurd ⟨hp, hc, by simp⟩ h
  | some s =>
    have hs : d.parent? s ≠ some p := fun hs => h ⟨hp, hc, by simpa using hs⟩
    exact ⟨.notAChild p s, by rw [apply_get_bind]; simp [hs]⟩

theorem removeChild_ok (h : d.parent? c = some p) :
    (removeChild p c).apply d = (.ok (), (d.detach p c).notify (.ofRemoved p c)) := by
  rw [removeChild, apply_get_bind]
  simp [h]

theorem removeChild_fails (h : d.parent? c ≠ some p) : (removeChild p c).Fails d :=
  ⟨.notAChild p c, by rw [removeChild, apply_get_bind]; simp [h]⟩

theorem replaceChildren_ok {cs : List NodeId} (hp : d.IsElement p)
    (hcs : ∀ c ∈ cs, d.MayHold p c) :
    (replaceChildren p cs).apply d = (.ok (), d.swapChildren p cs) := by
  rw [replaceChildren, apply_bind_ok (ensureElement_ok hp),
    apply_bind_ok (forM_ensureInsertable_ok hcs)]
  rfl

theorem replaceChildren_fails {cs : List NodeId}
    (h : ¬ (d.IsElement p ∧ ∀ c ∈ cs, d.MayHold p c)) : (replaceChildren p cs).Fails d := by
  by_cases hp : d.IsElement p
  · refine fails_bind_of_ok (ensureElement_ok hp) ?_
    exact (forM_ensureInsertable_fails fun hcs => h ⟨hp, hcs⟩).bind _
  · exact (ensureElement_fails hp).bind _

/-- A node without the link to its parent; observers of the parent have been told. -/
def cutLoose (d : Document) (id : NodeId) : Document :=
  match d.parent? id with
  | some p => (d.detach p id).notify (.ofRemoved p id)
  | none => d

theorem release_ok (h : d.contains id) (hr : id ≠ d.root) :
    (release id).apply d = (.ok (), (d.cutLoose id).releaseSubtree id) := by
  rw [release, apply_bind_ok (ensureLive_ok h), apply_get_bind, if_neg hr, apply_get_bind,
    cutLoose]
  cases hp : d.parent? id with
  | none => rfl
  | some p => rw [apply_bind_ok (removeChild_ok hp)]; rfl

theorem release_fails (h : ¬ (d.contains id ∧ id ≠ d.root)) : (release id).Fails d := by
  by_cases hid : d.contains id
  · refine fails_bind_of_ok (ensureLive_ok hid) (fails_bind_of_ok (apply_get d) ?_)
    have hr : id = d.root := by simpa [hid] using h
    exact ⟨.rootNode, by simp [hr]⟩
  · exact (ensureLive_fails hid).bind _

/-! ## §3 Operations that make a node -/

/-- A new node holds nothing, so it may go below any other. -/
theorem mayHold_createNode (hw : d.WellFormed) (k : NodeKind) (hp : d.contains p)
    (hk : ∀ e, k = .element e → e.NoRepeats) :
    (d.createNode k).2.MayHold p (d.createNode k).1 := by
  have hfresh := contains_createNode_fst hw.free k
  have hw' := wellFormed_createNode hw hk
  refine ⟨by simp [contains_createNode hw.free], ?_⟩
  rw [Bool.eq_false_iff]
  intro h
  rcases ReflTransGen.cases_tail (hw'.isInclusiveAncestor_iff.mp h) with h | ⟨x, -, hx⟩
  · simp [h, hp] at hfresh
  · rw [Link, parent?_createNode hw.free] at hx
    simp [hw.contains_of_link hx] at hfresh

theorem isElement_createNode (hw : d.WellFormed) (k : NodeKind) (hp : d.IsElement p) :
    (d.createNode k).2.IsElement p := by
  obtain ⟨e, he⟩ := Option.isSome_iff_exists.mp hp
  have hne : p ≠ (d.createNode k).1 := by
    rintro rfl
    simpa [contains_of_element? he] using contains_createNode_fst hw.free k
  simpa [IsElement, element?, kind?_createNode hw.free, hne] using hp

/-- A new text node, and the document with it. -/
def newText (d : Document) (s : String) : NodeId × Document :=
  d.createNode (.text s)

theorem isElement_newText (hw : d.WellFormed) (s : String) (h : d.IsElement id) :
    (d.newText s).2.IsElement id :=
  isElement_createNode hw (.text s) h

theorem mayHold_newText (hw : d.WellFormed) (s : String) (h : d.IsElement id) :
    ∀ c ∈ [(d.newText s).1], (d.newText s).2.MayHold id c := by
  intro c hc
  obtain rfl := List.mem_singleton.mp hc
  exact mayHold_createNode hw (.text s) (contains_of_isElement h) (by simp)

theorem setTextContent_ok (hw : d.WellFormed) (s : String) (h : d.IsElement id) :
    (setTextContent id s).apply d =
      (.ok (), (d.newText s).2.swapChildren id [(d.newText s).1]) := by
  rw [setTextContent, apply_bind_ok (ensureElement_ok h), createText,
    apply_bind_ok (apply_modifyGet _ d)]
  exact replaceChildren_ok (isElement_newText hw s h) (mayHold_newText hw s h)

theorem setTextContent_fails (s : String) (h : ¬ d.IsElement id) :
    (setTextContent id s).Fails d :=
  (ensureElement_fails h).bind _

theorem kind?_of_soleText? {only : NodeId} (h : d.soleText? id = some only) :
    ∃ t, d.kind? only = some (.text t) := by
  unfold soleText? at h
  split at h
  · split at h
    · obtain rfl := Option.some.inj h
      exact ⟨_, ‹_›⟩
    · simp at h
  · simp at h

theorem setText_of_sole {only : NodeId} (s : String) (h : d.soleText? id = some only) :
    (setText id s).apply d =
      (.ok (), d.updateNode only fun n => { n with kind := .text s }) := by
  rw [setText, apply_get_bind]
  simp [h]

theorem setText_of_not_sole (s : String) (h : d.soleText? id = none) :
    (setText id s).apply d = (setTextContent id s).apply d := by
  rw [setText, apply_get_bind]
  simp [h]

theorem not_isElement_of_dead (hx : d.contains id = false) : ¬ d.IsElement id := by
  intro h
  simp [contains_of_isElement h] at hx

/-- A node that is not there takes no text. -/
theorem setText_fails (s : String) (hx : d.contains id = false) : (setText id s).Fails d := by
  have hsole : d.soleText? id = none := by simp [soleText?, children, contains_eq_false_iff.mp hx]
  obtain ⟨e, he⟩ := setTextContent_fails s (not_isElement_of_dead hx)
  exact ⟨e, (setText_of_not_sole s hsole).trans he⟩

theorem appendText_ok (hw : d.WellFormed) (s : String) (h : d.IsElement id) :
    (appendText id s).apply d =
      (.ok (d.newText s).1, (d.newText s).2.move id (d.newText s).1 none) := by
  have hi : (d.newText s).2.Insertable id (d.newText s).1 none :=
    ⟨isElement_newText hw s h, mayHold_newText hw s h _ (List.mem_singleton.mpr rfl), by simp⟩
  rw [newText] at hi ⊢
  rw [appendText, apply_bind_ok (ensureElement_ok h), createText,
    apply_bind_ok (apply_modifyGet _ d), appendChild, apply_bind_ok (insertBefore_ok hi)]
  rfl

theorem appendText_fails (s : String) (h : ¬ d.IsElement id) : (appendText id s).Fails d :=
  (ensureElement_fails h).bind _

end Document

end CopyControl
