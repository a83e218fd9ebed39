import CopyControl.Proofs.Enhance.Tally
import CopyControl.Proofs.Host.Reload
import CopyControl.Proofs.Markdown.Whole

/-!
A page that lives for long does not grow.

Whatever happens to a page but operations — passes, sessions, clicks, reverts, new bodies — all that
is live hangs on the root, and there is one listener for each control and one control for each mark
(`Tidy`). So nothing is counted that is not on the page, and what is counted after a new body and a
pass depends on the new body only (`counts_performAll`).

* §1 parts that stay
* §2 the nodes of a page
* §3 tidy pages
* §4 whole runs
-/

namespace CopyControl

open Relation Document Markdown Enhance

/-! ## §1 Parts that stay -/

namespace Document

variable {d d' d'' d₀ : Document} {x y head : NodeId} {clipboard : String}

/-- At and below `x` there are the same elements in the same places. -/
def SameBelow (d d' : Document) (x : NodeId) : Prop :=
  ∀ y, d.AtOrAbove x y → d'.element? y = d.element? y ∧ d'.children y = d.children y

theorem sameBelow_of_eq (hel : d'.element? = d.element?) (hch : d'.children = d.children)
    (x : NodeId) : d.SameBelow d' x := fun _ _ => ⟨by rw [hel], by rw [hch]⟩

theorem SameBelow.atOrAbove_iff (h : d.SameBelow d' x) (hw : d.WellFormed)
    (hw' : d'.WellFormed) : d'.AtOrAbove x y ↔ d.AtOrAbove x y := by
  constructor
  · intro ha
    induction ha using ReflTransGen.head_induction_on with
    | refl => exact .refl
    | @head c p hl _ ih =>
      have hmem := (hw'.parent_iff c p).mp hl
      rw [(h p ih).2] at hmem
      exact .head ((hw.parent_iff c p).mpr hmem) ih
  · intro ha
    induction ha using ReflTransGen.head_induction_on with
    | refl => exact .refl
    | @head c p hl hp ih =>
      have hmem := (hw.parent_iff c p).mp hl
      rw [← (h p hp).2] at hmem
      exact .head ((hw'.parent_iff c p).mpr hmem) ih

theorem SameBelow.trans (h : d.SameBelow d' x) (h' : d'.SameBelow d'' x) (hw : d.WellFormed)
    (hw' : d'.WellFormed) : d.SameBelow d'' x := fun y hy => by
  obtain ⟨hel, hch⟩ := h y hy
  obtain ⟨hel', hch'⟩ := h' y ((h.atOrAbove_iff hw hw').mpr hy)
  exact ⟨hel'.trans hel, hch'.trans hch⟩

theorem SameArena.shape? (h : d.SameArena d') (hw : d.WellFormed) (x : NodeId) :
    d'.shape? x = d.shape? x := by
  obtain ⟨-, hkind, -, hchildren⟩ := lookups_congr h.slots
  exact shape?_congr hw (h.wellFormed hw) fun y _ => ⟨congrFun hkind y, congrFun hchildren y⟩

namespace IsPage

variable (h : d.IsPage head)
include h

/-- A pass finds nothing in the head. -/
theorem sameBelow_enhance (clipboard : String) :
    d.SameBelow (d.enhance clipboard).document head := fun y hy => by
  obtain ⟨os, hp⟩ := enhance_progress h.wellFormed clipboard
  have he := hp.enhanced
  have hpre : ∀ z, d.AtOrAbove head z → z ∉ os.map Outfit.pre := fun z hz hm => by
    obtain ⟨o, ho, rfl⟩ := List.mem_map.mp hm
    exact h.noPre _ hz (hp.bare o ho).1
  have hmade := he.not_made_of_live (h.contains_of_atOrAbove_head hy)
  refine ⟨he.element?_rest hmade (hpre y hy), ?_⟩
  rw [he.children_rest y hmade]
  refine (List.map_congr_left fun c hc => wrapperOf_rest (hpre c ?_)).trans (List.map_id' _)
  exact .head ((h.wellFormed.parent_iff c y).mpr hc) hy

theorem shape?_head_enhance (clipboard : String) :
    (d.enhance clipboard).document.shape? head = d.shape? head := by
  obtain ⟨os, hp⟩ := enhance_progress h.wellFormed clipboard
  refine shape?_congr h.wellFormed hp.enhanced.wellFormed fun y hy => ⟨?_, ?_⟩
  · refine hp.enhanced.kind?_rest y (hp.not_made (h.contains_of_atOrAbove_head hy)) fun hm => ?_
    obtain ⟨o, ho, rfl⟩ := List.mem_map.mp hm
    exact h.noPre _ hy (hp.bare o ho).1
  · exact (h.sameBelow_enhance clipboard y hy).2

/-- A new body leaves the head as it is. -/
theorem sameBelow_swapChildren {cs : List NodeId} (hcs : ∀ c ∈ cs, d.MayHold d.body c)
    (hroots : ∀ c ∈ cs, d.parent? c = none) : d.SameBelow (d.swapChildren d.body cs) head := by
  have hw := h.wellFormed
  have hbody : d.IsElement d.body := Option.isSome_of_mem (element?_eq_some_iff.mpr h.body)
  have hr := h.regrouped hcs hroots
  have hb : (d.regrouped d.body cs).body = d.body :=
    congrArg (·.1.2) (anchors_regrouped d d.body cs)
  have hregroup : d.SameBelow (d.regrouped d.body cs) head := fun y hy => by
    have hne : y ≠ d.body := fun heq => h.not_atOrAbove_body (heq ▸ hy)
    obtain ⟨hk, hc⟩ := touches_regrouped hw hbody hcs hroots y hne
    exact ⟨by rw [element?, hk, element?], hc⟩
  refine hregroup.trans (fun y hy => ?_) hw hr.wellFormed
  have hlink := hr.link_body
  rw [hb] at hlink
  have hnode := node?_swapChildren hw hbody hcs (.single hlink) (hy.tail hr.link_head)
  exact ⟨by rw [element?, kind?, hnode, element?, kind?], by rw [children, hnode, children]⟩

end IsPage

/-! ## §2 The nodes of a page -/

namespace IsPage

variable (h : d.IsPage head)
include h

/-- All that is live is the root, or in the head, or in the body. -/
theorem cases_of_rooted (hr : d.Rooted) (hx : d.contains x) :
    x = d.root ∨ d.AtOrAbove head x ∨ d.AtOrAbove d.body x := by
  obtain ⟨-, hax⟩ := h.wellFormed.isConnected_iff.mp (hr.isConnected h.wellFormed hx)
  rcases hax.cases_tail with heq | ⟨p, hp, hl⟩
  · exact .inl heq.symm
  · have hmem := (h.wellFormed.parent_iff p d.root).mp hl
    rw [h.parts] at hmem
    rcases List.mem_pair.mp hmem with rfl | rfl
    · exact .inr (.inl hp)
    · exact .inr (.inr hp)

theorem descendants_root :
    d.descendants d.root = d.root :: (d.descendants head ++ d.descendants d.body) := by
  rw [h.wellFormed.descendants_eq (contains_of_kind? h.root), h.parts, List.flatMap_cons,
    List.flatMap_singleton]

/-- If nothing in the head and in the body has a class that is not from Markdown, then nothing on
the page has. -/
theorem unadorned (hr : d.Rooted)
    (hhead : ∀ y e, d.AtOrAbove head y → d.element? y = some e → e.Unadorned) {ts : List Tree}
    (hbody : d.shape? d.body = some (.node default (.element (.ofTag "body")) ts))
    (hts : ∀ t ∈ ts, t.Unadorned) {e : Element} (he : d.element? x = some e) : e.Unadorned := by
  rcases h.cases_of_rooted hr (contains_of_element? he) with rfl | hx | hx
  · rw [element?_eq_some_iff, h.root] at he
    obtain ⟨⟩ := he
    exact Element.unadorned_ofTag "html"
  · exact hhead x e hx he
  · have hmem : some (.element e) ∈
        (Tree.node default (.element (.ofTag "body")) ts).kinds.map some := by
      rw [← map_kind?_descendants h.wellFormed hbody, ← element?_eq_some_iff.mp he]
      exact List.mem_map_of_mem
        (h.wellFormed.mem_descendants_iff.mpr ⟨contains_of_kind? h.body, hx⟩)
    obtain ⟨k, hk, heq⟩ := List.mem_map.mp hmem
    have hwhole := unadorned_node (unadorned_element (Element.unadorned_ofTag "body")) hts
      (n := default) k hk
    exact hwhole e (Option.some.inj heq)

end IsPage

/-- No class that comes from Markdown starts as those of controls and marks do. -/
theorem hasClass_of_unadorned {e : Element} (h : e.Unadorned) {c : String}
    (hc : c.toList.head? ≠ some 'l') : e.hasClass c = false := by
  rw [Bool.eq_false_iff]
  intro hmem
  obtain ⟨info, hinfo⟩ := h c (List.contains_iff_mem.mp hmem)
  obtain ⟨s, -, rfl⟩ := Option.map_eq_some_iff.mp hinfo
  simp [String.toList_append] at hc

theorem any_wears_of_unadorned (h : ∀ e, d.element? x = some e → e.Unadorned) (tag : String)
    {c : String} (hc : c.toList.head? ≠ some 'l') :
    (d.element? x).any (·.wears tag c) = false := by
  rw [Bool.eq_false_iff]
  intro hw
  obtain ⟨e, he, hw⟩ := (Option.any_eq_true ..).mp hw
  simp [Element.wears, hasClass_of_unadorned (h e he) hc] at hw

theorem tally_of_unadorned (hl : d.listeners = [])
    (h : ∀ x e, d.element? x = some e → e.Unadorned) : d.Tally :=
  tally_of_plain hl (fun x => any_wears_of_unadorned (h x) _ (by decide))
    fun x => any_wears_of_unadorned (h x) _ (by decide)

/-- How many controls there are at and below a node is seen in its shape. -/
theorem countP_isControl (hw : d.WellFormed) {t : Tree} (ht : d.shape? x = some t) :
    (d.descendants x).countP d.isControl =
      t.kinds.countP (·.element?.any Element.isControl) := by
  have heq : d.isControl =
      (fun k? => (k?.bind NodeKind.element?).any Element.isControl) ∘ d.kind? := rfl
  rw [heq, ← List.countP_map, map_kind?_descendants hw ht, List.countP_map]
  rfl

/-! ## §3 Tidy pages -/

/-- A page that has come from the page `d₀`: nothing is loose, the listeners tally with the controls
and the marks, and the head is as it was. -/
structure Tidy (d₀ d : Document) : Prop where
  page : d.IsPage d₀.head
  rooted : d.Rooted
  tally : d.Tally
  head : d₀.SameBelow d d₀.head

namespace Tidy

theorem isConnected (h : Tidy d₀ d) (hx : d.contains x) : d.isConnected x :=
  h.rooted.isConnected h.page.wellFormed hx

/-- All that is counted can be told from the head, as it always was, and the shape of the body. -/
theorem counts (h : Tidy d₀ d) (h₀ : d₀.IsPage d₀.head) {t : Tree}
    (ht : d.shape? d.body = some t) :
    d.nodeCount = (d₀.descendants d₀.head).length + t.kinds.length + 1 ∧
      d.listenerCount = (d₀.descendants d₀.head).countP d₀.isControl +
        t.kinds.countP (·.element?.any Element.isControl) := by
  have hw := h.page.wellFormed
  have hhead : d.descendants d₀.head = d₀.descendants d₀.head :=
    descendants_congr h₀.wellFormed hw h₀.contains_head h.page.contains_head fun y hy =>
      (h.head y hy).2
  constructor
  · have hbody := congrArg List.length (map_kind?_descendants hw ht)
    rw [List.length_map, List.length_map] at hbody
    rw [h.rooted.nodeCount_eq hw, h.page.descendants_root, List.length_cons, List.length_append,
      hhead, hbody]
  · have hroot : ¬ d.isControl d.root := by
      rw [isControl, element?, h.page.root, ofTag_eq (by decide)]
      simp [NodeKind.element?, Element.isControl, Element.wears]
    have hsame : (d₀.descendants d₀.head).countP d.isControl =
        (d₀.descendants d₀.head).countP d₀.isControl := by
      refine List.countP_congr fun y hy => ?_
      rw [isControl, (h.head y (h₀.wellFormed.mem_descendants_iff.mp hy).2).1, isControl]
    rw [(h.tally.listenerCount_eq h.rooted hw).1, controls_eq, ← List.countP_eq_length_filter,
      h.page.descendants_root, List.countP_cons_of_neg hroot, List.countP_append, hhead, hsame,
      countP_isControl hw ht]

/-! ### What keeps a page tidy -/

/-- A change of texts, or of what is no part of the tree. -/
theorem congr (h : Tidy d₀ d) (h₀ : d₀.WellFormed) (hpage : d'.IsPage d₀.head)
    (hlive : d'.contains = d.contains) (hparent : d'.parent? = d.parent?)
    (hch : d'.children = d.children) (hel : d'.element? = d.element?)
    (hl : d'.listeners = d.listeners) (hroot : d'.root = d.root) : Tidy d₀ d' where
  page := hpage
  rooted := h.rooted.congr (fun _ hx => hlive ▸ hx) hparent hroot
  tally := h.tally.congr hel hl
  head := h.head.trans (sameBelow_of_eq hel hch _) h₀ h.page.wellFormed

theorem sameArena (h : Tidy d₀ d) (h₀ : d₀.WellFormed) (hs : d.SameArena d') : Tidy d₀ d' := by
  obtain ⟨hcontains, hkind, hparent, hchildren⟩ := lookups_congr hs.slots
  refine h.congr h₀ (h.page.sameArena hs) hcontains hparent hchildren ?_ hs.listeners
    (congrArg Prod.fst hs.landmarks)
  funext x
  rw [element?, hkind, element?]

theorem setLabel {c : NodeId} (h : Tidy d₀ d) (h₀ : d₀.WellFormed) (hl : d.Labelled c)
    (l : ControlLabel) : Tidy d₀ ((setLabel c l).apply d).2 := by
  have hpage := h.page.setLabel hl l
  have hroot := congrArg Prod.fst
    (onlyChanges_setText c l.text d h.page.wellFormed : Changes _ _).landmarks_eq
  obtain ⟨hquiet, -⟩ := setLabel_quiet h.page.wellFormed hl (List.mem_singleton_self c) l
  obtain ⟨hparent, hchildren, helement⟩ := lookups_eq_of_unlabelled hquiet
  have hcontains := congrArg contains hquiet
  simp only [unlabelled, contains_blanked] at hcontains
  have hlisteners : ((Document.setLabel c l).apply d).2.listeners = d.listeners :=
    (congrArg Document.listeners hquiet :)
  exact h.congr h₀ hpage hcontains hparent hchildren helement hlisteners hroot

theorem enhance (h : Tidy d₀ d) (h₀ : d₀.WellFormed) (clipboard : String) :
    Tidy d₀ (d.enhance clipboard).document where
  page := h.page.enhance clipboard
  rooted := h.rooted.enhance h.page.wellFormed clipboard
  tally := h.tally.enhance h.page.wellFormed clipboard
  head := h.head.trans (h.page.sameBelow_enhance clipboard) h₀ h.page.wellFormed

theorem passes (h : Tidy d₀ d) (h₀ : d₀.WellFormed) (hp : Passes d d') : Tidy d₀ d' := by
  induction hp with
  | refl => exact h
  | tail _ hs ih =>
    cases hs with
    | same hs => exact ih.sameArena h₀ hs
    | pass clipboard => exact ih.enhance h₀ clipboard

end Tidy

/-! ### A new body -/

namespace Prepares

variable {d₁ : Document} {nodes : List NodeId} (hp : d.Prepares d₁ head nodes)
include hp

/-- What is live before and after a new body is what it was. -/
theorem kind?_swapChildren (hx : d.contains x)
    (hlive : (d₁.swapChildren d₁.body nodes).contains x) :
    (d₁.swapChildren d₁.body nodes).kind? x = d.kind? x := by
  obtain ⟨-, hfree⟩ := swapChildren_spec hp.beside.wellFormed hp.isElement_body hp.mayHold
  rw [kind?, hfree.node? hlive, ← kind?, kind?_regrouped, hp.beside.kind? x hx]

theorem rooted (hr : d.Rooted) : (d₁.swapChildren d₁.body nodes).Rooted :=
  rooted_swapChildren (hr.beside hp.beside (congrArg Prod.fst hp.landmarks)) hp.beside.wellFormed
    hp.isElement_body hp.mayHold

theorem sameBelow (h : d.IsPage head) : d.SameBelow (d₁.swapChildren d₁.body nodes) head := by
  have hbeside : d.SameBelow d₁ head := fun y hy => by
    have hlive := h.contains_of_atOrAbove_head hy
    exact ⟨by rw [element?, hp.beside.kind? y hlive, element?], hp.beside.children y hlive⟩
  exact hbeside.trans (hp.page.sameBelow_swapChildren hp.mayHold hp.roots) h.wellFormed
    hp.beside.wellFormed

theorem shape?_head (h : d.IsPage head) :
    (d₁.swapChildren d₁.body nodes).shape? head = d.shape? head := by
  have hpage := hp.page.swapChildren hp.mayHold hp.roots
  refine shape?_congr h.wellFormed hpage.wellFormed fun y hy => ⟨?_, (hp.sameBelow h y hy).2⟩
  refine hp.kind?_swapChildren (h.contains_of_atOrAbove_head hy) ?_
  exact hpage.contains_of_atOrAbove_head
    (((hp.sameBelow h).atOrAbove_iff h.wellFormed hpage.wellFormed).mpr hy)

/-- If no control is live any more, then nothing listens any more. -/
theorem listeners_eq_nil (ht : d.Tally)
    (hsub : (d₁.swapChildren d₁.body nodes).listeners ⊆ d.listeners)
    (hplain : ∀ x, (d₁.swapChildren d₁.body nodes).isControl x = false) :
    (d₁.swapChildren d₁.body nodes).listeners = [] := by
  have hw' := (hp.page.swapChildren hp.mayHold hp.roots).wellFormed
  refine List.eq_nil_iff_forall_not_mem.mpr fun l hl => ?_
  have hcontrol := (ht.controls l.1).mp (List.mem_map_of_mem (hsub hl))
  have hkind := hp.kind?_swapChildren (contains_of_isControl hcontrol) (hw'.listeners_live l hl)
  have hnone := hplain l.1
  rw [isControl, element?, hkind, ← element?, ← isControl, hcontrol] at hnone
  simp at hnone

end Prepares

/-- If the head is as it was on `d₀` and the body is drawn from events, all there is on a page comes
from Markdown. -/
theorem IsPage.unadorned_of_sameBelow (h₀ : d₀.WellFormed)
    (hplain : ∀ y e, d₀.element? y = some e → e.Unadorned) (h : d.IsPage d₀.head) (hr : d.Rooted)
    (hhead : d₀.SameBelow d d₀.head) {events : List Event}
    (hbody : d.shape? d.body =
      some (.node default (.element (.ofTag "body")) (sketch events))) :
    ∀ x e, d.element? x = some e → e.Unadorned := fun x e he => by
  refine h.unadorned hr (fun y e hy he => hplain y e ?_) hbody (unadorned_sketch events) he
  rw [← (hhead y ((hhead.atOrAbove_iff h₀ h.wellFormed).mp hy)).1, he]

theorem Tidy.replaceBody (h : Tidy d₀ d) (h₀ : d₀.WellFormed)
    (hplain : ∀ y e, d₀.element? y = some e → e.Unadorned) (events : List Event) :
    (Markdown.replaceBody events).Gives d fun _ d' => Tidy d₀ d' := by
  obtain ⟨nodes, d₁, hp, hsketch, heq⟩ := h.page.replaceBody_eq events
  have hpage := hp.page.swapChildren hp.mayHold hp.roots
  have hrooted := hp.rooted h.rooted
  have hhead := h.head.trans (hp.sameBelow h.page) h₀ h.page.wellFormed
  have hshape : (d₁.swapChildren d₁.body nodes).shape? (d₁.swapChildren d₁.body nodes).body =
      some (.node default (.element (.ofTag "body")) (sketch events)) := by
    obtain ⟨_, _, heq', -, hshape⟩ := h.page.replaceBody events
    obtain ⟨-, rfl⟩ := Prod.mk.inj (heq.symm.trans heq')
    exact hshape
  have hsub := (Markdown.keepsListeners_replaceBody h.page.wellFormed events).subset
  rw [heq] at hsub
  have hunadorned := hpage.unadorned_of_sameBelow h₀ hplain hrooted hhead hshape
  refine ⟨_, _, heq, hpage, hrooted, tally_of_unadorned ?_ hunadorned, hhead⟩
  exact hp.listeners_eq_nil h.tally hsub fun x =>
    any_wears_of_unadorned (hunadorned x) _ (by decide)

end Document

/-! ## §4 Whole runs -/

namespace Host

open CopyControl.Action

variable {h : Host} {a : Action} {controls : List NodeId} {d₀ : Document}

theorem tidy_perform (hd : Tidy d₀ h.document) (h₀ : d₀.WellFormed)
    (hplain : ∀ y e, d₀.element? y = some e → e.Unadorned) (hm : h.Mannered controls)
    (ha : a.Respectful h controls) (ho : a.isOperation = false) :
    Tidy d₀ (a.perform h).document := by
  obtain ⟨d, hd'⟩ : ∃ d, (a.perform h).document = d := ⟨_, rfl⟩
  have hacts := h.acts_perform a
  rw [hd'] at hacts ⊢
  cases hacts with
  | operate o => simp [isOperation] at ho
  | reload events =>
    obtain ⟨n, d', heq, htidy⟩ := hd.replaceBody h₀ hplain events
    rw [heq]
    exact htidy
  | label haim l => exact hd.setLabel h₀ (hm.labelled _ (aim_mem hm.targets ha haim)) l
  | passes _ hp => exact hd.passes h₀ hp
  | same he => exact hd.sameArena h₀ he

/-- A run of the page `d` in which nobody operates on it from outside, no click is handled but on a
control, and no slot is emptied so often that a handle comes again. -/
structure Lives (d : Document) (as : List Action) : Prop where
  undisturbed : ∀ a ∈ as, a.isOperation = false
  respectful : AllRespectful as (start d) []
  slots : ∀ i, timesEmptied i as (start d) < UInt32.size

variable {d : Document} {source : List Event} {options : PageOptions} {as : List Action}

/-- A page as it is built is tidy, and all there is on it comes from Markdown. -/
theorem tidy_buildPage (hd : buildPage source options = .ok d) :
    Tidy d d ∧ ∀ y e, d.element? y = some e → e.Unadorned := by
  obtain ⟨d', hd', hdraft⟩ := buildPage_spec source options
  obtain rfl := Except.ok.inj (hd.symm.trans hd')
  have hraised := buildPage_whole hd
  have hplain : ∀ y e, d.element? y = some e → e.Unadorned := fun y e he =>
    hraised.unadorned y _ (element?_eq_some_iff.mp he) e rfl
  exact ⟨⟨hdraft.page, rooted_iff_loose_nil.mpr hraised.loose,
    tally_of_unadorned hdraft.listeners hplain, sameBelow_of_eq rfl rfl _⟩, hplain⟩

theorem tidy_performAll (hd : buildPage source options = .ok d) (hl : Lives d as) :
    Tidy d (performAll as (start d)).document ∧ d.IsPage d.head := by
  obtain ⟨d', hd', hdraft⟩ := buildPage_spec source options
  obtain rfl := Except.ok.inj (hd.symm.trans hd')
  obtain ⟨hstart, hplain⟩ := tidy_buildPage hd
  refine ⟨?_, hdraft.page⟩
  exact performAll_induction (P := fun h => Tidy d h.document) hdraft.page.wellFormed
    (contains_of_kind? hdraft.page.body) (by simp [hdraft.listeners]) hstart
    (fun _ _ _ h hm ha ho => tidy_perform h hdraft.page.wellFormed hplain hm ha ho)
    hl.undisturbed hl.respectful hl.slots

theorem Lives.of_append {bs : List Action} (h : Lives d (as ++ bs)) : Lives d as where
  undisturbed a ha := h.undisturbed a (List.mem_append_left _ ha)
  respectful := (allRespectful_append.mp h.respectful).1
  slots i := by
    have := h.slots i
    rw [timesEmptied_append] at this
    omega

/-- After a new body and a pass, all that is counted is known. -/
theorem counts_reloaded (hd : buildPage source options = .ok d) {events : List Event}
    {clipboard : String} (hl : Lives d (as ++ [.reload events, .enhance clipboard])) :
    let d' := (performAll (as ++ [.reload events, .enhance clipboard]) (start d)).document
    let body := (Tree.node default (.element (.ofTag "body")) (sketch events)).enhanced
    d'.nodeCount = (d.descendants d.head).length + body.kinds.length + 1 ∧
      d'.listenerCount = (d.descendants d.head).countP d.isControl +
        body.kinds.countP (·.element?.any Element.isControl) := by
  intro d' body
  obtain ⟨hbefore, -⟩ := tidy_performAll hd hl.of_append
  obtain ⟨htidy, hpage⟩ := tidy_performAll hd hl
  obtain ⟨n, reloaded, heq, hreloaded, hshape⟩ := hbefore.page.replaceBody events
  have hd' : d' = (reloaded.enhance clipboard).document := by
    have hdoc : ((performAll as (start d)).edit (replaceBody events)).2.document = reloaded := by
      rw [(edit_spec _ _).1, heq]
    rw [← hdoc, ← enhance_document]
    exact congrArg Host.document (performAll_append ..)
  refine htidy.counts hpage ?_
  show d'.shape? d'.body = some body
  rw [hd']
  exact hreloaded.shape?_enhance clipboard hshape

/-- Whatever has happened to a page that was built from Markdown, nothing is left of what has gone.
All that is live hangs on the root, so that the nodes that are counted are those on the page; and
there are as many listeners as controls, and as marks. So two runs that end with the same new body
and a pass end with the same counts. -/
theorem counts_performAll (hd : buildPage source options = .ok d) :
    (∀ as, Lives d as →
      let d' := (performAll as (start d)).document
      (∀ x, d'.contains x → d'.isConnected x) ∧
        d'.nodeCount = (d'.descendants d'.root).length ∧
        d'.listenerCount = d'.controls.length ∧ d'.listenerCount = d'.markedPres.length) ∧
    ∀ events as as' clipboard clipboard',
      Lives d (as ++ [.reload events, .enhance clipboard]) →
      Lives d (as' ++ [.reload events, .enhance clipboard']) →
      let d₁ := (performAll (as ++ [.reload events, .enhance clipboard]) (start d)).document
      let d₂ := (performAll (as' ++ [.reload events, .enhance clipboard']) (start d)).document
      d₁.nodeCount = d₂.nodeCount ∧ d₁.listenerCount = d₂.listenerCount := by
  constructor
  · intro as hl
    obtain ⟨h, -⟩ := tidy_performAll hd hl
    have hw := h.page.wellFormed
    obtain ⟨hcontrols, hmarks⟩ := h.tally.listenerCount_eq h.rooted hw
    exact ⟨fun x hx => h.isConnected hx, h.rooted.nodeCount_eq hw, hcontrols, hmarks⟩
  · intro events as as' clipboard clipboard' hl hl'
    obtain ⟨hnodes, hlisteners⟩ := counts_reloaded hd hl
    obtain ⟨hnodes', hlisteners'⟩ := counts_reloaded hd hl'
    exact ⟨hnodes.trans hnodes'.symm, hlisteners.trans hlisteners'.symm⟩

/-- The page has been reloaded, and a revert is due for a control that has gone. Another reload
makes of it what it makes of the page as it was at first. -/
theorem counts_performAll_lateRevert :
    let reload : List Action := [.reload blockSource, .enhance ""]
    let d₁ := (performAll (reloadedWhileCopying ++ reload) (start blockPage)).document
    let d₂ := (performAll ([] ++ reload) (start blockPage)).document
    Lives blockPage (reloadedWhileCopying ++ reload) ∧ Lives blockPage ([] ++ reload) ∧
      d₁.listenerCount = 1 ∧ d₁.listenerCount = d₁.controls.length ∧
      d₁.nodeCount = d₂.nodeCount ∧ d₁.listenerCount = d₂.listenerCount := by
  intro reload d₁ d₂
  have lives : ∀ as : List Action, as.length < 100 → (∀ a ∈ as, a.isOperation = false) →
      AllRespectful as (start blockPage) [] → Lives blockPage as := fun as hlen ho hr =>
    ⟨ho, hr, fun i => Nat.lt_of_le_of_lt (timesEmptied_le_length i as _)
      (Nat.lt_trans hlen (by decide))⟩
  have hl₁ : Lives blockPage (reloadedWhileCopying ++ reload) :=
    lives _ (by decide) (by decide) (by decide +kernel)
  have hl₂ : Lives blockPage ([] ++ reload) :=
    lives _ (by decide) (by decide) (by decide +kernel)
  obtain ⟨hcounts, hsame⟩ := counts_performAll buildPage_blockSource
  obtain ⟨-, -, hcontrols, -⟩ := hcounts _ hl₁
  exact ⟨hl₁, hl₂, by decide +kernel, hcontrols, hsame blockSource _ _ "" "" hl₁ hl₂⟩

end Host

end CopyControl
