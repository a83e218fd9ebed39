import CopyControl.Proofs.Host.Once

/-!
What a control is for.

A pass makes a control for the first block of a `pre`, and gives it one listener, which copies that
block to the clipboard of the injector that runs the pass (`madeFor_of_newControl`). A control keeps
this listener as long as it is there, and unless somebody gives it another one that copies, there is
no other (`serves_performAll`).

* §1 what passes do to listeners
* §2 the controls that an action makes
* §3 controls that stay
-/

namespace CopyControl

open Relation Document Enhance

/-- Whether a click sets off a copy. -/
def Listener.copies : Listener → Bool
  | .copyBlock _ _ _ => true
  | .note _ => false

/-- The listeners that an action gives a node. -/
def Action.listenersFor (x : NodeId) : Action → List Listener
  | .operate o => o.listenersFor x
  | _ => []

/-! ## §1 What passes do to listeners -/

namespace Document

variable {d d' : Document} {x : NodeId}

theorem SameArena.clickListeners (h : d.SameArena d') (x : NodeId) :
    d'.clickListeners x = d.clickListeners x := by
  rw [Document.clickListeners, h.listeners, Document.clickListeners]

theorem SameArena.codeBlocks (h : d.SameArena d') : d'.codeBlocks = d.codeBlocks := by
  obtain ⟨hlive, hkind, hparent, hchildren⟩ := lookups_congr h.slots
  have htag : d'.tag? = d.tag? := funext fun x => tag?_eq_of_kind? (congrFun hkind x)
  have hwalk : ∀ n stack, d'.unstack n stack = d.unstack n stack := by
    intro n
    induction n with
    | zero => exact fun _ => rfl
    | succ n ih =>
      rintro (_ | ⟨x, stack⟩)
      · rfl
      · rw [unstack, unstack, ih, hchildren]
  have hroot : d'.root = d.root := congrArg Prod.fst h.landmarks
  simp only [Document.codeBlocks, selectDirectChildren, elementsByTag, descendants, hwalk, h.slots,
    hlive, htag, hparent, hroot]

/-- Passes give no listeners to the nodes that are there already. -/
theorem Passes.clickListeners (hw : d.WellFormed) (h : Passes d d') (hx : d.contains x) :
    d'.clickListeners x = d.clickListeners x := by
  induction h with
  | refl => rfl
  | @tail d₁ d₂ h hstep ih =>
    have hw₁ := (Passes.grows hw h).wellFormed hw
    have hx₁ := (Passes.grows hw h).live hx
    rw [← ih]
    cases hstep with
    | same hs => exact hs.clickListeners x
    | pass clipboard =>
      obtain ⟨os, hpr⟩ := enhance_progress hw₁ clipboard
      have hnone : (os.map fun o => (o.button, Listener.copyBlock o.code o.button clipboard)).filter
          (·.1 = x) = [] := by
        refine List.filter_eq_nil_iff.mpr fun l hl hlx => ?_
        obtain ⟨o, ho, rfl⟩ := List.mem_map.mp hl
        obtain rfl : o.button = x := of_decide_eq_true hlx
        simp [hpr.enhanced.made_fresh o ho o.button (by simp [Outfit.made])] at hx₁
      rw [Document.clickListeners, hpr.enhanced.listeners, List.filter_append, hnone,
        List.append_nil, Document.clickListeners]

end Document

/-! ## §2 The controls that an action makes -/

/-- From `d` to `d'` the control has been made for the block: the first one of its `pre`, next to
which the control stands alone. -/
structure Document.MadeFor (d d' : Document) (block pre control : NodeId) : Prop where
  first : (d.codeBlocks.filter (d.parent? · = some pre)).head? = some block
  link : d'.parent? block = some pre
  beside : ∃ wrapper actions, d'.children wrapper = [pre, actions] ∧
    d'.children actions = [control]
  element : d'.element? control = some controlElement

/-- Of what a click on the control sets off, one thing is a copy: the block is copied to the
clipboard, and the control shows what came of it. -/
structure Document.Serves (d : Document) (control block : NodeId) (clipboard : String) : Prop where
  isElement : d.IsElement control
  listeners : (d.clickListeners control).filter Listener.copies =
    [.copyBlock block control clipboard]

namespace Host

variable {h : Host} {a : Action} {x block : NodeId} {clipboard : String}

theorem madeFor_of_newControl (hw : h.document.WellFormed) (hx : x ∈ a.newControls h) :
    ∃ block pre, ∃ clipboard ∈ a.injector? h,
      h.document.MadeFor (a.perform h).document block pre x ∧
        (a.perform h).document.Serves x block clipboard := by
  have hp : a.runsPasses h := by
    by_contra hp
    simp [Action.newControls, hp] at hx
  rcases (passesFor_perform hp).once hw with hs | ⟨clipboard, hc, d, h₁, h₂⟩
  · simp [newControls_of_same hw hp hs] at hx
  have hw₁ := h₁.wellFormed hw
  obtain ⟨os, hpr⟩ := enhance_progress hw₁ clipboard
  obtain ⟨hlive₂, hkind₂, hparent₂, hchildren₂⟩ := lookups_congr h₂.slots
  rw [newControls_of_pass hw hp h₁ hpr h₂] at hx
  obtain ⟨o, ho, rfl⟩ := List.mem_map.mp hx
  have he := hpr.enhanced
  obtain ⟨hmem, hpar⟩ := List.mem_filter.mp (List.mem_of_mem_head? (hpr.bare o ho).2.2)
  obtain ⟨pre, hb⟩ := block_of_isBlock ((mem_codeBlocks_iff hw₁).mp hmem)
  obtain rfl := Option.some.inj ((of_decide_eq_true hpar).symm.trans hb.link)
  obtain ⟨hwa, hwb, -, hab, -, -⟩ :=
    Outfit.distinct ((List.nodup_flatMap.mp he.made_nodup).1 o ho)
  have hchildren := he.children_made o ho
  have helement : (a.perform h).document.element? o.button = some controlElement := by
    rw [element?_eq_some_iff, hkind₂, he.kind?_made o ho o.button (by simp [Outfit.made]),
      Outfit.madeKind, if_neg hwb.symm, if_neg hab.symm, if_pos rfl]
  refine ⟨o.code, o.pre, clipboard, hc, ⟨?_, ?_, ⟨o.wrapper, o.actions, ?_, ?_⟩, helement⟩, ?_, ?_⟩
  · rw [← h₁.codeBlocks]
    simpa only [(lookups_congr h₁.slots).2.2.1] using (hpr.bare o ho).2.2
  · rw [hparent₂]
    exact hpr.link hb
  · rw [hchildren₂, hchildren o.wrapper (by simp [Outfit.made]), Outfit.madeChildren, if_pos rfl]
  · rw [hchildren₂, hchildren o.actions (by simp [Outfit.made]), Outfit.madeChildren,
      if_neg hwa.symm, if_pos rfl]
  · exact Option.isSome_of_mem helement
  · rw [h₂.clickListeners, he.clickListeners_button hw₁ ho]
    rfl

/-! ## §3 Controls that stay -/

/-- A node that stays has the listeners it had, and after them those that it is given. -/
theorem clickListeners_perform (hw : h.document.WellFormed) (a : Action)
    (hx : h.document.contains x) (hx' : (a.perform h).document.contains x) :
    (a.perform h).document.clickListeners x =
      h.document.clickListeners x ++ a.listenersFor x := by
  by_cases ho : ∃ o, a = .operate o
  · obtain ⟨o, rfl⟩ := ho
    have hdoc : ((Action.operate o).perform h).document = o.run h.document := (wake_spec _).1
    rw [hdoc] at hx' ⊢
    exact clickListeners_run hw o hx'
  have hnone : a.listenersFor x = [] := by
    rw [Action.listenersFor]
    exact fun o h => ho ⟨o, h⟩
  have hacts := h.acts_perform a
  rw [hnone, List.append_nil]
  generalize (a.perform h).document = d at hacts hx' ⊢
  cases hacts with
  | operate o => exact absurd ⟨o, rfl⟩ ho
  | reload events => exact (Markdown.keepsListeners_replaceBody hw events).clickListeners hx'
  | label _ l => exact (keepsListeners_setText hw _ l.text).clickListeners hx'
  | passes _ hp => exact Passes.clickListeners hw hp hx
  | same hs => exact hs.clickListeners x

/-- An element stays one. -/
theorem isElement_of_keeps {d d' : Document} (hk : Keeps x.index d d') (hx : d.IsElement x) :
    d'.IsElement x := by
  have htag := (hk.node x rfl (contains_of_isElement hx)).2
  have hiff : ∀ d : Document, d.IsElement x ↔ (d.tag? x).isSome := fun d => by
    rw [IsElement, tag?, Option.isSome_map]
  rwa [hiff, htag, ← hiff]

theorem serves_perform (hs : h.document.Serves x block clipboard) (hw : h.document.WellFormed)
    (hkeep : a.empties x.index h = false) (ha : ∀ l ∈ a.listenersFor x, l.copies = false) :
    (a.perform h).document.Serves x block clipboard := by
  have hk := keeps_of_not_empties hw hkeep
  have hx := contains_of_isElement hs.isElement
  refine ⟨isElement_of_keeps hk hs.isElement, ?_⟩
  rw [clickListeners_perform hw a hx (hk.node x rfl hx).1, List.filter_append, hs.listeners,
    List.filter_eq_nil_iff.mpr fun l hl => by simp [ha l hl], List.append_nil]

/-- A control goes on serving its block as long as it is there and is given no listener that
copies. -/
theorem serves_performAll {as : List Action} (hs : h.document.Serves x block clipboard)
    (hw : h.document.WellFormed) (hkeep : Action.timesEmptied x.index as h = 0)
    (ha : ∀ a ∈ as, ∀ l ∈ a.listenersFor x, l.copies = false) :
    (Action.performAll as h).document.Serves x block clipboard := by
  induction as generalizing h with
  | nil => exact hs
  | cons a as ih =>
    rw [Action.timesEmptied, Nat.add_eq_zero_iff, Bool.toNat_eq_zero] at hkeep
    obtain ⟨ha, has⟩ := List.forall_mem_cons.mp ha
    exact ih (serves_perform hs hw hkeep.1 ha) (wellFormed_perform hw a) hkeep.2 has

end Host

end CopyControl
