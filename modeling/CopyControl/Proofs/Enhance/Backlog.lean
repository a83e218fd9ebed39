import CopyControl.Proofs.Document.Notice
import CopyControl.Proofs.Enhance.Result

/-!
Blocks without a control, and how they can come to be.

A change can bring a block without a mark below a node only by a new link, and a new link is
reported. So whoever attends to the node is told (`Change.vigilant`). A pass leaves no such block
behind (`not_backlog_enhance`).
-/

namespace CopyControl.Document

open Relation Enhance

variable {d d' : Document} {o : ObserverId} {top : NodeId}

/-- A block somewhere below `top` has no mark. -/
def Backlog (d : Document) (top : NodeId) : Prop :=
  ∃ c pre, d.Block c pre ∧ d.hasClass pre enhancedClass = false ∧ d.AtOrAbove top pre

/-! ## §1 What is passed on -/

/-- What `d'` has it has from `d`: elements keep their tags and marks, and links are old, or go to
a node in `P`. -/
structure Inherits (d d' : Document) (P : NodeId → Prop) : Prop where
  element : ∀ x e', d.contains x → d'.element? x = some e' →
    ∃ e, d.element? x = some e ∧ e.tag = e'.tag ∧ ∀ c, e.hasClass c → e'.hasClass c
  link : ∀ x y, d'.Link x y → d.contains x ∧ d.contains y ∧ (d.Link x y ∨ P y)

namespace Inherits

variable {P : NodeId → Prop} (h : d.Inherits d' P)
include h

theorem tag? {x : NodeId} {t : String} (hx : d.contains x) (ht : d'.tag? x = some t) :
    d.tag? x = some t := by
  obtain ⟨e', he', rfl⟩ := tag?_eq_some_iff.mp ht
  obtain ⟨e, he, htag, -⟩ := h.element x e' hx he'
  exact tag?_eq_some_iff.mpr ⟨e, he, htag⟩

theorem hasClass {x : NodeId} {t c : String} (hx : d.contains x) (ht : d'.tag? x = some t)
    (hc : d'.hasClass x c = false) : d.hasClass x c = false := by
  obtain ⟨e', he', -⟩ := tag?_eq_some_iff.mp ht
  obtain ⟨e, he, -, hcl⟩ := h.element x e' hx he'
  rw [hasClass_of_element? he'] at hc
  rw [hasClass_of_element? he, ← Bool.not_eq_true]
  exact fun hec => by simp [hcl c hec] at hc

/-- A chain of ancestors is an old one, or goes through a new link. -/
theorem atOrAbove {a x : NodeId} (ha : d'.AtOrAbove a x) :
    d.AtOrAbove a x ∨ ∃ y, P y ∧ d'.AtOrAbove a y := by
  induction ha using ReflTransGen.head_induction_on with
  | refl => exact .inl .refl
  | @head x y hl hrest ih =>
    rcases ih with ih | ih
    · rcases (h.link x y hl).2.2 with hd | hP
      · exact .inl (.head hd ih)
      · exact .inr ⟨y, hP, hrest⟩
    · exact .inr ih

theorem backlog (hb : d'.Backlog top) : d.Backlog top ∨ ∃ y, P y ∧ d'.AtOrAbove top y := by
  obtain ⟨c, pre, hb, hm, ha⟩ := hb
  obtain ⟨hc, hp, hl⟩ := h.link c pre hb.link
  rcases hl with hl | hP
  · refine (h.atOrAbove ha).imp (fun ha => ?_) id
    exact ⟨c, pre, ⟨h.tag? hc hb.tag_code, hl, h.tag? hp hb.tag_pre⟩,
      h.hasClass hp hb.tag_pre hm, ha⟩
  · exact .inr ⟨pre, hP, ha⟩

end Inherits

theorem inherits_of_kind? {P : NodeId → Prop}
    (hk : ∀ x, d'.kind? x = d.kind? x ∨ d'.kind? x = none)
    (hl : ∀ x y, d'.Link x y → d.contains x ∧ d.contains y ∧ (d.Link x y ∨ P y)) :
    d.Inherits d' P := by
  refine ⟨fun x e' _ he' => ?_, hl⟩
  rw [element?_eq_some_iff] at he'
  rcases hk x with hx | hx
  · exact ⟨e', element?_eq_some_iff.mpr (hx ▸ he'), rfl, fun _ => id⟩
  · simp [hx] at he'

theorem WellFormed.live_of_link (hw : d.WellFormed) {x y : NodeId} (h : d.Link x y) :
    d.contains x ∧ d.contains y :=
  ⟨contains_of_parent? h, hw.contains_of_link h⟩

theorem inherits_of_link (hw : d.WellFormed) {P : NodeId → Prop}
    (hk : ∀ x, d'.kind? x = d.kind? x ∨ d'.kind? x = none)
    (hl : ∀ x y, d'.Link x y → d.Link x y) : d.Inherits d' P :=
  inherits_of_kind? hk fun x y h =>
    ⟨(hw.live_of_link (hl x y h)).1, (hw.live_of_link (hl x y h)).2, .inl (hl x y h)⟩

/-! ## §2 Changes -/

theorem inherits_createNode (hw : d.WellFormed) (k : NodeKind) :
    d.Inherits (d.createNode k).2 fun _ => False := by
  refine ⟨fun x e' hx he' => ?_, fun x y hl => ?_⟩
  · have hne : x ≠ (d.createNode k).1 := ne_of_live_of_dead hx (contains_createNode_fst hw.free k)
    rw [element?_eq_some_iff, kind?_createNode hw.free, if_neg hne] at he'
    exact ⟨e', element?_eq_some_iff.mpr he', rfl, fun _ => id⟩
  · rw [Link, parent?_createNode hw.free] at hl
    exact ⟨(hw.live_of_link hl).1, (hw.live_of_link hl).2, .inl hl⟩

theorem inherits_updateNode (hw : d.WellFormed) (id : NodeId) {f : Node → Node}
    {g : NodeKind → NodeKind} (hf : ∀ n, f n = { n with kind := g n.kind })
    (hg : ∀ k, d.kind? id = some k → k.MayBecome (g k)) :
    d.Inherits (d.updateNode id f) fun _ => False := by
  refine ⟨fun x e' hx he' => ?_, fun x y hl => ?_⟩
  · rw [element?_eq_some_iff, kind?_updateNode d id (by intro n; rw [hf])] at he'
    split at he'
    · rename_i hxid
      subst hxid
      obtain ⟨k, hk, hke⟩ := Option.map_eq_some_iff.mp he'
      have hb := hg k hk
      rw [hke] at hb
      cases k with
      | element e => exact ⟨e, element?_eq_some_iff.mpr hk, hb.1.symm, hb.2.1⟩
      | text s => exact hb.elim
      | raw s => exact hb.elim
    · exact ⟨e', element?_eq_some_iff.mpr he', rfl, fun _ h => h⟩
  · rw [Link, parent?_updateNode_of_keeps d id (by intro n; rw [hf])] at hl
    exact ⟨(hw.live_of_link hl).1, (hw.live_of_link hl).2, .inl hl⟩

theorem atOrAbove_notify {r : MutationRecord} {a x : NodeId} :
    (d.notify r).AtOrAbove a x ↔ d.AtOrAbove a x := by
  have : (d.notify r).Link = d.Link := by
    funext x y
    simp only [Link, parent?_notify]
  simp only [AtOrAbove, this]

/-- What is reported of a node at or below `top` reaches whoever attends to `top`. -/
theorem told_notify_of_atOrAbove (hw : d.WellFormed) (ha : d.Attends o top) {r : MutationRecord}
    (ht : (d.notify r).AtOrAbove top r.target) : (d.notify r).Told o :=
  told_notify ha (hw.isInclusiveAncestor_iff.mpr (atOrAbove_notify.mp ht))

theorem OnlyFrees.link (h : d.OnlyFrees d') {x y : NodeId} (hl : d'.Link x y) : d.Link x y := by
  have hn := h.node? (contains_of_parent? hl)
  rw [Link, parent?, hn] at hl
  exact hl

theorem OnlyFrees.kind?_or (h : d.OnlyFrees d') (x : NodeId) :
    d'.kind? x = d.kind? x ∨ d'.kind? x = none := by
  rcases h.node?_or x with hn | hn <;> simp [kind?, hn]

/-- New links go to nodes of which something is reported. -/
theorem Change.inherits (hw : d.WellFormed) (h : d.Change d') :
    ∃ P : NodeId → Prop, d.Inherits d' P ∧
      ∀ y o top, P y → d'.AtOrAbove top y → d.Attends o top → d'.Told o := by
  have hw' := h.wellFormed hw
  cases h with
  | create k hk => exact ⟨_, inherits_createNode hw k, fun _ _ _ h => h.elim⟩
  | data id f g hf hg => exact ⟨_, inherits_updateNode hw id hf hg, fun _ _ _ h => h.elim⟩
  | listen id l hid =>
    exact ⟨fun _ => False, inherits_of_link hw (fun _ => .inl rfl) fun _ _ h => h,
      fun _ _ _ h => h.elim⟩
  | move p c r hp hc =>
    refine ⟨(· = p), inherits_of_kind? (fun x => .inl (by rw [kind?_move])) fun x y hl => ?_, ?_⟩
    · rw [Link, parent?_move r hc.1] at hl
      split at hl
      · rename_i hx
        obtain rfl := Option.some.inj hl
        exact ⟨hx ▸ hc.1, contains_of_isElement hp, .inr rfl⟩
      · exact ⟨(hw.live_of_link hl).1, (hw.live_of_link hl).2, .inl hl⟩
    · rintro y o top rfl ht ha
      rw [move_eq] at ht hw' ⊢
      exact told_notify_of_atOrAbove (wellFormed_of_notify hw')
        (((tells_cutLoose d c).trans_same (sameObservers_attach ..)).attends ha) ht
  | cut p c h =>
    refine ⟨fun _ => False, inherits_of_link hw (fun x => .inl ?_) fun x y hl => ?_,
      fun _ _ _ h => h.elim⟩
    · rw [kind?_notify, kind?_detach]
    · rw [Link, parent?_notify, parent?_detach] at hl
      split at hl
      · simp at hl
      · exact hl
  | swap p cs hp hcs =>
    obtain ⟨-, hfree⟩ := swapChildren_spec hw hp hcs
    have hwr := (regrouped_spec hw hp hcs).1
    refine ⟨(· = p), inherits_of_kind? (fun x => ?_) fun x y hl => ?_, ?_⟩
    · rw [← kind?_regrouped d p cs]
      exact hfree.kind?_or x
    · have hl := hfree.link hl
      rw [Link, parent?_regrouped fun c hc => (hcs c hc).1] at hl
      split at hl
      · rename_i hx
        obtain rfl := Option.some.inj hl
        exact ⟨(hcs x hx).1, contains_of_isElement hp, .inr rfl⟩
      · split at hl
        · simp at hl
        · exact ⟨(hw.live_of_link hl).1, (hw.live_of_link hl).2, .inl hl⟩
    · rintro y o top rfl ht ha
      have ht' := atOrAbove_mono (fun _ _ => hfree.link) ht
      rw [swapChildren_eq]
      exact (told_notify ((Tells.same (sameObservers_regrouped d y cs)).attends ha)
        (hwr.isInclusiveAncestor_iff.mpr ht')).congr (foldl_releaseIfOrphan_rest ..)
  | free id h =>
    have hfree := onlyFrees_releaseSubtree hw id
    exact ⟨fun _ => False, inherits_of_link hw hfree.kind?_or fun _ _ => hfree.link,
      fun _ _ _ h => h.elim⟩

/-! ## §3 Nothing is forgotten -/

/-- The observer attends to `top`, and if a block below `top` has no mark, it has been told of
something it has not yet handled. -/
structure Vigilant (d : Document) (o : ObserverId) (top : NodeId) : Prop where
  attends : d.Attends o top
  told : d.Backlog top → d.Told o

theorem Change.vigilant (hw : d.WellFormed) (h : d.Change d') (hv : d.Vigilant o top) :
    d'.Vigilant o top := by
  obtain ⟨P, hi, hP⟩ := h.inherits hw
  refine ⟨h.tells.attends hv.attends, fun hb => ?_⟩
  rcases hi.backlog hb with hb | ⟨y, hy, ha⟩
  · exact h.tells.told (hv.told hb)
  · exact hP y o top hy ha hv.attends

theorem Changes.attends (h : Changes d d') (ha : d.Attends o top) : d'.Attends o top := by
  induction h with
  | refl => exact ha
  | tail _ hc ih => exact hc.tells.attends ih

theorem Changes.vigilant (hw : d.WellFormed) (h : Changes d d') (hv : d.Vigilant o top) :
    d'.Vigilant o top := by
  induction h with
  | refl => exact hv
  | tail hd hc ih => exact hc.vigilant (Changes.wellFormed hw hd) ih

/-! ## §4 After a pass -/

/-- The root is the element it was made as, and the body is somewhere below it. -/
structure InPlace (d : Document) : Prop where
  root : d.tag? d.root = some "html"
  body : d.isConnected d.body

theorem InPlace.rootApart (h : d.InPlace) : d.RootApart := by
  intro t ht
  rw [h.root] at ht
  obtain rfl := Option.some.inj ht
  decide

/-- What was below a node before a pass is below it afterwards, maybe with a wrapper between. -/
theorem Enhanced.atOrAbove_of {clipboard : String} {os : List Outfit}
    (h : d.Enhanced d' os clipboard) {a x : NodeId} (ha : d.AtOrAbove a x) :
    d'.AtOrAbove a x := by
  induction ha using ReflTransGen.head_induction_on with
  | refl => exact .refl
  | @head x y hl _ ih =>
    by_cases hp : x ∈ os.map Outfit.pre
    · obtain ⟨o, ho, rfl⟩ := List.mem_map.mp hp
      obtain ⟨container, hc, hm⟩ := h.parent?_made o ho
      obtain rfl := Option.some.inj (hc.symm.trans hl)
      have hw := hm o.wrapper (by simp [Outfit.made])
      rw [Outfit.madeParent, if_pos rfl] at hw
      exact .head (h.parent?_pre o ho) (.head hw ih)
    · refine .head ?_ ih
      rw [Link, h.parent?_rest x (h.not_made_of_live (contains_of_parent? hl)) hp]
      exact hl

/-- A pass leaves the root and the body where they are. -/
theorem InPlace.enhance (hw : d.WellFormed) (h : d.InPlace) (clipboard : String) :
    (d.enhance clipboard).document.InPlace := by
  obtain ⟨os, hp⟩ := enhance_progress hw clipboard
  have he := hp.enhanced
  have hland := (changes_enhance hw clipboard).landmarks_eq
  have hroot : (d.enhance clipboard).document.root = d.root := congrArg Prod.fst hland
  have hbody : (d.enhance clipboard).document.body = d.body := congrArg Prod.snd hland
  obtain ⟨hlive, habove⟩ := hw.isConnected_iff.mp h.body
  refine ⟨?_, he.wellFormed.isConnected_iff.mpr ⟨?_, ?_⟩⟩
  · rw [hroot, he.tag? (hp.not_made (contains_of_tag? h.root)), h.root]
  · rw [hbody]
    exact he.contains_iff.mpr (.inr hlive)
  · rw [hroot, hbody]
    exact he.atOrAbove_of habove

/-- A pass leaves no block below the body without its mark. -/
theorem not_backlog_enhance (hw : d.WellFormed) (h : d.InPlace) (clipboard : String) :
    ¬ (d.enhance clipboard).document.Backlog d.body := by
  rintro ⟨c, pre, hb, hm, ha⟩
  have hc := changes_enhance hw clipboard
  have hw' := hc.wellFormed hw
  have hland := hc.landmarks_eq
  obtain ⟨-, hplace⟩ := hw'.isConnected_iff.mp (h.enhance hw clipboard).body
  have hbody : (d.enhance clipboard).document.body = d.body := congrArg Prod.snd hland
  rw [hbody] at hplace
  have hconn : (d.enhance clipboard).document.isConnected pre :=
    hw'.isConnected_iff.mpr ⟨contains_of_tag? hb.tag_pre, ha.trans hplace⟩
  have hblock := isBlock_of_child hw' hconn hb
  rw [(passCorrect_enhance hw h.rootApart clipboard).marked c pre hblock hb.link] at hm
  simp at hm

end CopyControl.Document
