import CopyControl.Proofs.Document.Blank
import CopyControl.Proofs.Document.Operations

/-!
# How far one action can go

Passes and the building of Markdown only add to a document: whatever was live stays live, under its
handle (`Grows.keeps`). All that the host does at once is of the form `Works`: a document grows, and
then changes once at most. So no slot is emptied twice in one action, and none is filled again
after it was emptied in the same action (`Works.keeps_or_empties`).

* §1 growing
* §2 growing and one change
* §3 programs that only add
-/

namespace CopyControl.Document

open Relation Edit

variable {d d' d'' : Document}

/-! ## §1 Growing -/

/-- A change under which no node dies. -/
structure Adds (d d' : Document) : Prop where
  change : d.Change d'
  keeps : ∀ i, Keeps i d d'

/-- A step that takes nothing away: a change under which no node dies, or a step that leaves the
arena as it is. -/
inductive Growth (d : Document) : Document → Prop
  | adds {d' : Document} (h : d.Adds d') : Growth d d'
  | same {d' : Document} (h : d.SameArena d') : Growth d d'

abbrev Grows : Document → Document → Prop :=
  ReflTransGen Growth

theorem SameArena.keeps (h : d.SameArena d') (i : Nat) : Keeps i d d' := by
  refine keeps_of_kind? ?_ (lookups_congr h.slots).2.1
  funext j
  simp only [generation?, h.slots]

theorem Growth.wellFormed (hw : d.WellFormed) (h : d.Growth d') : d'.WellFormed := by
  cases h with
  | adds h => exact h.change.wellFormed hw
  | same h => exact h.wellFormed hw

theorem Growth.keeps (h : d.Growth d') (i : Nat) : Keeps i d d' := by
  cases h with
  | adds h => exact h.keeps i
  | same h => exact h.keeps i

theorem Growth.anchors_eq (h : d.Growth d') : d'.anchors = d.anchors := by
  cases h with
  | adds h => exact h.change.anchors_eq
  | same h => exact h.anchors

theorem Grows.wellFormed (hw : d.WellFormed) (h : Grows d d') : d'.WellFormed := by
  induction h with
  | refl => exact hw
  | tail _ h ih => exact h.wellFormed ih

theorem Grows.keeps (h : Grows d d') (i : Nat) : Keeps i d d' := by
  induction h with
  | refl => exact .refl i d
  | tail _ h ih => exact ih.trans (h.keeps i)

theorem Grows.anchors_eq (h : Grows d d') : d'.anchors = d.anchors := by
  induction h with
  | refl => rfl
  | tail _ h ih => exact h.anchors_eq.trans ih

theorem Grows.live (h : Grows d d') {x : NodeId} (hx : d.contains x) : d'.contains x :=
  ((h.keeps x.index).node x rfl hx).1

theorem SameArena.grows (h : d.SameArena d') : Grows d d' :=
  .single (.same h)

/-! ## §2 Growing and one change -/

/-- A document that grows, and then changes once at most. -/
inductive Works (d : Document) : Document → Prop
  | grow {d' : Document} (h : Grows d d') : Works d d'
  | change {d' d'' : Document} (h : Grows d d') (h' : d'.Change d'') : Works d d''

theorem Works.wellFormed (hw : d.WellFormed) (h : d.Works d') : d'.WellFormed := by
  cases h with
  | grow h => exact h.wellFormed hw
  | change h h' => exact h'.wellFormed (h.wellFormed hw)

theorem Works.anchors_eq (h : d.Works d') : d'.anchors = d.anchors := by
  cases h with
  | grow h => exact h.anchors_eq
  | change h h' => exact h'.anchors_eq.trans h.anchors_eq

theorem Works.keeps_or_empties (hw : d.WellFormed) (h : d.Works d') (i : Nat) :
    Keeps i d d' ∨ Empties i d d' := by
  cases h with
  | grow h => exact .inl (h.keeps i)
  | change h h' =>
    rcases h'.keeps_or_empties (h.wellFormed hw) i with hk | he
    · exact .inl ((h.keeps i).trans hk)
    · exact .inr ((h.keeps i).empties he)

theorem Grows.works (h : Grows d d') (h' : d'.Works d'') : d.Works d'' := by
  cases h' with
  | grow h' => exact .grow (h.trans h')
  | change h' h'' => exact .change (h.trans h') h''

theorem Makes.works (h : d.Makes d') : d.Works d' := by
  cases h with
  | none => exact .grow .refl
  | one h => exact .change .refl h
  | two hk h h' => exact .change (.single (.adds ⟨h, hk⟩)) h'

theorem works_run (hw : d.WellFormed) (o : Operation) : d.Works (o.run d) := by
  by_cases ho : o.OnNodes
  · exact (makes_run hw o ho).works
  · exact .grow (sameArena_run d ho).grows

/-! ## §3 Programs that only add -/

/-- A program that takes nothing away, whatever comes of it, and that looks at no text. -/
structure Constructive {α : Type} (e : Edit α) : Prop where
  adds : ∀ d : Document, d.WellFormed → ReflTransGen Adds d (e.apply d).2
  blind : ∀ S, Blind S e

section Constructive
variable {α β : Type} {e : Edit α}

theorem adds_wellFormed (hw : d.WellFormed) (h : ReflTransGen Adds d d') : d'.WellFormed :=
  Changes.wellFormed hw (h.lift id fun _ _ h => h.change)

theorem Constructive.grows (he : Constructive e) (hw : d.WellFormed) :
    Grows d (e.apply d).2 :=
  (he.adds d hw).lift id fun _ _ => .adds

theorem Constructive.onlyChanges (he : Constructive e) : OnlyChanges e :=
  fun d hw => (he.adds d hw).lift id fun _ _ h => h.change

theorem constructive_pure (a : α) : Constructive (pure a : Edit α) :=
  ⟨fun _ _ => .refl, fun _ => blind_pure a⟩

theorem constructive_throw (x : DocumentError) : Constructive (throw x : Edit α) :=
  ⟨fun _ _ => .refl, fun _ => blind_throw x⟩

/-- What comes after a program that only adds here need only add anywhere. -/
theorem adds_bind {f : α → Edit β} (hw : d.WellFormed) (h : ReflTransGen Adds d (e.apply d).2)
    (hf : ∀ a, Constructive (f a)) : ReflTransGen Adds d ((e >>= f).apply d).2 := by
  rw [apply_bind]
  cases hr : e.apply d with
  | mk r d' =>
    rw [hr] at h
    cases r with
    | error x => exact h
    | ok a => exact h.trans ((hf a).adds d' (adds_wellFormed hw h))

theorem Constructive.bind {f : α → Edit β} (he : Constructive e)
    (hf : ∀ a, Constructive (f a)) : Constructive (e >>= f) where
  adds d hw := adds_bind hw (he.adds d hw) hf
  blind S := (he.blind S).bind fun a => (hf a).blind S

theorem Constructive.read {f : Document → Edit β} (hf : ∀ d, Constructive (f d))
    (hs : ∀ S (d : Document), f (d.blanked S) = f d) :
    Constructive ((get : Edit Document) >>= f) where
  adds d hw := by
    rw [apply_get_bind]
    exact (hf d).adds d hw
  blind S := .read (fun d => (hf d).blind S) (hs S)

theorem constructive_ite {p : Prop} [Decidable p] {e e' : Edit α} (h : Constructive e)
    (h' : Constructive e') : Constructive (if p then e else e') := by
  split
  · exact h
  · exact h'

theorem adds_of_fails (h : e.Fails d) : ReflTransGen Adds d (e.apply d).2 := by
  obtain ⟨x, hx⟩ := h
  rw [hx]

theorem adds_createNode (hw : d.WellFormed) {k : NodeKind}
    (hk : ∀ e, k = .element e → e.NoRepeats) : ReflTransGen Adds d (d.createNode k).2 :=
  .single ⟨.create k hk, fun _ => keeps_createNode hw.free k⟩

theorem constructive_createElement (tag : String) : Constructive (createElement tag) where
  adds _ hw := adds_createNode hw fun e he => by
    obtain rfl := NodeKind.element.inj he
    exact Element.noRepeats_ofTag tag
  blind _ := blind_createElement tag

theorem constructive_createText (s : String) : Constructive (createText s) :=
  ⟨fun _ hw => adds_createNode hw (by simp), fun _ => blind_createText s⟩

theorem constructive_createRaw (markup : String) : Constructive (createRaw markup) :=
  ⟨fun _ hw => adds_createNode hw (by simp), fun _ => blind_createRaw markup⟩

theorem adds_move (p c : NodeId) (r : Option NodeId) (hp : d.IsElement p)
    (hc : d.MayHold p c) : ReflTransGen Adds d (d.move p c r) :=
  .single ⟨.move p c r hp hc, fun _ =>
    keeps_of_kind? (generation?_move d p c r) (kind?_move d p c r)⟩

theorem constructive_insertBefore (p c : NodeId) (r : Option NodeId) :
    Constructive (insertBefore p c r) where
  adds d hw := by
    by_cases h : d.Insertable p c r
    · rw [insertBefore_ok h]
      split
      · exact .refl
      · exact adds_move p c r h.element h.mayHold
    · exact adds_of_fails (insertBefore_fails h)
  blind _ := blind_insertBefore p c r

theorem constructive_updateElement (x : NodeId) {f : Element → Element}
    (hf : ∀ e, (NodeKind.element e).MayBecome (.element (f e))) :
    Constructive (updateElement x f) where
  adds d hw := by
    by_cases h : d.IsElement x
    swap
    · exact adds_of_fails (updateElement_fails f h)
    obtain ⟨e, he⟩ := Option.isSome_iff_exists.mp h
    have hg : ∀ k, d.kind? x = some k → k.MayBecome (k.onElement f) := by
      intro k hk
      rw [element?_eq_some_iff.mp he] at hk
      obtain rfl := Option.some.inj hk
      exact hf e
    rw [updateElement_ok f h]
    exact .single ⟨.data x _ _ (onElement_eq f) hg, fun _ =>
      keeps_updateNode x (onElement_eq f) hg⟩
  blind _ := blind_updateElement x f

theorem constructive_addClass (x : NodeId) (c : String) : Constructive (addClass x c) :=
  constructive_updateElement x fun e =>
    ⟨e.tag_addClass c, fun _ h => Element.hasClass_addClass.mpr (.inl h),
      fun h => Element.noRepeats_addClass h c⟩

theorem constructive_setAttribute (x : NodeId) (name value : String) :
    Constructive (setAttribute x name value) :=
  constructive_updateElement x fun _ =>
    ⟨rfl, fun _ h => h, fun h => Element.noRepeats_setAttribute h name value⟩

theorem constructive_addClickListener (x : NodeId) (l : Listener) :
    Constructive (addClickListener x l) where
  adds d hw := by
    by_cases h : d.contains x
    · rw [addClickListener_ok l h]
      exact .single ⟨.listen x l h, fun _ => keeps_of_kind? rfl rfl⟩
    · exact adds_of_fails (addClickListener_fails l h)
  blind _ := blind_addClickListener x l

theorem constructive_appendText (x : NodeId) (s : String) : Constructive (appendText x s) where
  adds d hw := by
    by_cases h : d.IsElement x
    · rw [appendText_ok hw s h]
      exact (adds_createNode hw (by simp)).trans
        (adds_move x _ none (isElement_newText hw s h)
          (mayHold_newText hw s h _ (List.mem_singleton.mpr rfl)))
    · exact adds_of_fails (appendText_fails s h)
  blind _ := blind_appendText x s

end Constructive

end CopyControl.Document
