import CopyControl.Proofs.Document.Swap
import CopyControl.Proofs.Enhance.Shape
import CopyControl.Proofs.Enhance.Unlabelled
import CopyControl.Proofs.Markdown.Fragment

/-!
Pages: documents with a head and a body, as they are built from Markdown and kept by passes, clicks
and new bodies.

No block is outside of the body, so what the blocks of a page look like is in the shape of its body
(`IsPage.depicts_codeBlocks`). A page stays a page through passes (`IsPage.enhance`) and labels
(`IsPage.setLabel`), and takes every new body; the body then looks as the sketch of its events does
(`IsPage.replaceBody`).

* §1 pages
* §2 what keeps a page a page
* §3 a new body
-/

namespace CopyControl.Document

open Relation Edit Enhance Markdown

variable {d d' d'' : Document} {head x n : NodeId}

/-! ## §1 Pages -/

/-- The root holds a head, with no `pre` at or below it, and the body. -/
structure IsPage (d : Document) (head : NodeId) : Prop where
  wellFormed : d.WellFormed
  root : d.kind? d.root = some (.element (.ofTag "html"))
  top : d.parent? d.root = none
  parts : d.children d.root = [head, d.body]
  body : d.kind? d.body = some (.element (.ofTag "body"))
  noPre : ∀ x, d.AtOrAbove head x → d.tag? x ≠ some "pre"

namespace IsPage

variable (h : d.IsPage head)
include h

theorem link_head : d.Link head d.root :=
  (h.wellFormed.parent_iff _ _).mpr (by simp [h.parts])

theorem link_body : d.Link d.body d.root :=
  (h.wellFormed.parent_iff _ _).mpr (by simp [h.parts])

theorem contains_head : d.contains head :=
  contains_of_parent? h.link_head

/-- What is in the head is live. -/
theorem contains_of_atOrAbove_head (hx : d.AtOrAbove head x) : d.contains x := by
  by_contra hdead
  have heq := eq_of_atOrAbove_of_dead hx (Bool.eq_false_iff.mpr hdead)
  exact hdead (heq ▸ h.contains_head)

theorem body_ne_head : d.body ≠ head := by
  have hn := h.wellFormed.children_nodup d.root
  rw [h.parts] at hn
  exact fun heq => by simp [heq] at hn

/-- The body is not in the head. -/
theorem not_atOrAbove_body : ¬ d.AtOrAbove head d.body := fun ha =>
  h.body_ne_head (h.wellFormed.eq_of_atOrAbove_siblings h.link_head h.link_body ha .refl).symm

theorem tag?_root : d.tag? d.root = some "html" := by
  rw [tag?, element?, h.root, ofTag_eq (by decide)]
  rfl

theorem tag?_body : d.tag? d.body = some "body" := by
  rw [tag?, element?, h.body, ofTag_eq (by decide)]
  rfl

theorem rootApart : d.RootApart := fun t ht => by
  rw [h.tag?_root] at ht
  obtain rfl := Option.some.inj ht
  decide

theorem isConnected_body : d.isConnected d.body :=
  h.wellFormed.isConnected_iff.mpr ⟨contains_of_kind? h.body, .single h.link_body⟩

omit h in
theorem not_isCodeInPre {c p : NodeId} (hl : d.parent? c = some p) (hp : d.tag? p ≠ some "pre") :
    d.isCodeInPre c = false := by
  simp [isCodeInPre, hl, hp]

theorem root_ne_body : d.root ≠ d.body := fun heq => by
  have := h.link_body
  rw [Link, ← heq, h.top] at this
  simp at this

/-- Of the nodes without a parent, only the root is above the body. -/
theorem not_atOrAbove_of_orphan (hx : d.parent? x = none) (hne : x ≠ d.root) :
    ¬ d.AtOrAbove x d.body := fun ha => by
  rcases atOrAbove_total ha (.single h.link_body) with hxr | hrx
  · exact hne (eq_of_atOrAbove_of_parent?_none hxr h.top)
  · exact hne (eq_of_atOrAbove_of_parent?_none hrx hx).symm

/-- The blocks of a page are those below its body. -/
theorem codeBlocks_eq : d.codeBlocks = d.blocksBelow d.body := by
  have hw := h.wellFormed
  have htop : ∀ c, d.parent? c = some d.root → d.isCodeInPre c = false := fun c hl =>
    not_isCodeInPre hl (by simp [h.tag?_root])
  have hhead : (d.descendants head).filter d.isCodeInPre = [] := by
    refine List.filter_eq_nil_iff.mpr fun c hc => ?_
    have ha : d.AtOrAbove head c := (hw.mem_descendants_iff.mp hc).2
    rw [Bool.not_eq_true]
    rcases ha.cases_head with rfl | ⟨p, hl, hp⟩
    · exact htop c h.link_head
    · exact not_isCodeInPre hl (h.noPre p hp)
  rw [Document.codeBlocks_eq hw (contains_of_kind? h.root) h.top, blocksBelow, h.parts,
    List.flatMap_cons, List.flatMap_singleton, List.filter_append, hhead, List.nil_append,
    hw.descendants_eq (contains_of_kind? h.body), List.filter_cons_of_neg, blocksBelow]
  simp [htop d.body h.link_body]

/-- What they look like is in the shape of the body. -/
theorem depicts_codeBlocks {t : Tree} (ht : d.shape? d.body = some t) :
    d.Depicts d.codeBlocks t.blocks :=
  h.codeBlocks_eq ▸ depicts_blocksBelow h.wellFormed ht

/-! ## §2 What keeps a page a page -/

/-- A change is not seen in the head as long as nothing new is put into it. -/
theorem of_links (hw' : d'.WellFormed) (hm : d'.landmarks = d.landmarks)
    (hroot : d'.kind? d.root = d.kind? d.root) (htop : d'.parent? d.root = none)
    (hparts : d'.children d.root = d.children d.root) (hbody : d'.kind? d.body = d.kind? d.body)
    (hlinks : ∀ x y, d'.Link x y → d.AtOrAbove head y → d.Link x y)
    (htags : ∀ x, d.AtOrAbove head x → d'.tag? x = d.tag? x) : d'.IsPage head := by
  have hr : d'.root = d.root := congrArg Prod.fst hm
  have hb : d'.body = d.body := congrArg Prod.snd hm
  refine ⟨hw', ?_, ?_, ?_, ?_, fun x hx => ?_⟩
  · rw [hr, hroot, h.root]
  · rw [hr, htop]
  · rw [hr, hb, hparts, h.parts]
  · rw [hb, hbody, h.body]
  · have hxd : d.AtOrAbove head x := by
      induction hx using ReflTransGen.head_induction_on with
      | refl => exact .refl
      | head hl _ ih => exact .head (hlinks _ _ hl ih) ih
    rw [htags x hxd]
    exact h.noPre x hxd

/-- A pass leaves a page a page, since there is nothing for it in the head. -/
theorem enhance (clipboard : String) : (d.enhance clipboard).document.IsPage head := by
  have hw := h.wellFormed
  obtain ⟨os, hp⟩ := enhance_progress hw clipboard
  have he := hp.enhanced
  have hm := (changes_enhance hw clipboard).landmarks_eq
  have hr : (d.enhance clipboard).document.root = d.root := congrArg Prod.fst hm
  have hb : (d.enhance clipboard).document.body = d.body := congrArg Prod.snd hm
  have hpre : ∀ y, d.tag? y ≠ some "pre" → y ∉ os.map Outfit.pre := fun y hy hm => by
    obtain ⟨o, ho, rfl⟩ := List.mem_map.mp hm
    exact hy (hp.bare o ho).1
  have hroot := hpre d.root (by simp [h.tag?_root])
  have hbody := hpre d.body (by simp [h.tag?_body])
  have hlive := he.not_made_of_live (contains_of_kind? h.root)
  refine ⟨he.wellFormed, ?_, ?_, ?_, ?_, fun x hx => ?_⟩
  · rw [hr, he.kind?_eq h.root, if_neg hroot]
  · rw [hr, he.parent?_rest _ hlive hroot, h.top]
  · rw [hr, hb, he.children_rest _ hlive, h.parts, List.map_cons, List.map_singleton,
      wrapperOf_rest (hpre head (h.noPre head .refl)), wrapperOf_rest hbody]
  · rw [hb, he.kind?_eq h.body, if_neg hbody]
  · by_cases hmade : x ∈ os.flatMap Outfit.made
    · exact (tag?_made he hmade).2
    · have hhead := contains_of_parent? h.link_head
      have hxd : d.AtOrAbove head x := by
        by_cases hxl : d.contains x
        · exact he.atOrAbove hw hhead hxl hx
        · -- nothing is above a handle that names nothing but itself
          have hdead : (d.enhance clipboard).document.contains x = false := by
            rw [Bool.eq_false_iff]
            exact fun hlive => (he.contains_iff.mp hlive).elim hmade hxl
          rw [eq_of_atOrAbove_of_dead hx hdead]
          exact .refl
      rw [he.tag? hmade]
      exact h.noPre x hxd

/-- So does a label. -/
theorem setLabel {c : NodeId} (hl : d.Labelled c) (l : ControlLabel) :
    ((setLabel c l).apply d).2.IsPage head := by
  have hchanges := onlyChanges_setText c l.text d h.wellFormed
  obtain ⟨hquiet, -⟩ := setLabel_quiet h.wellFormed hl (List.mem_singleton_self c) l
  change Changes d ((Document.setLabel c l).apply d).2 at hchanges
  generalize ((Document.setLabel c l).apply d).2 = d' at hchanges hquiet
  obtain ⟨hparent, hchildren, helement⟩ := lookups_eq_of_unlabelled hquiet
  have hkind : ∀ {x e}, d.kind? x = some (.element e) → d'.kind? x = d.kind? x := fun {x e} hk => by
    rw [hk, ← element?_eq_some_iff, helement, element?_eq_some_iff, hk]
  refine h.of_links (hchanges.wellFormed h.wellFormed) hchanges.landmarks_eq (hkind h.root) ?_ ?_
    (hkind h.body) (fun x y hl _ => ?_) fun x _ => ?_
  · rw [hparent, h.top]
  · rw [hchildren]
  · rwa [link_congr hparent] at hl
  · rw [tag?, helement, tag?]

theorem sameArena (hs : d.SameArena d') : d'.IsPage head := by
  obtain ⟨-, hkind, hparent, hchildren⟩ := lookups_congr hs.slots
  refine h.of_links (hs.wellFormed h.wellFormed) hs.landmarks ?_ ?_ ?_ ?_ (fun x y hl _ => ?_)
    fun x _ => tag?_eq_of_kind? (congrFun hkind x)
  · rw [hkind]
  · rw [hparent, h.top]
  · rw [hchildren]
  · rw [hkind]
  · rwa [link_congr hparent] at hl

/-! ## §3 A new body -/

/-- So do trees beside the page. -/
theorem beside {ts : List NodeId} (hb : d.Beside d' ts) (hm : d'.landmarks = d.landmarks) :
    d'.IsPage head := by
  have hw := h.wellFormed
  have hroot := contains_of_kind? h.root
  refine h.of_links hb.wellFormed hm (hb.kind? _ hroot) ?_ (hb.children _ hroot)
    (hb.kind? _ (contains_of_kind? h.body)) (fun x y hl ha => ?_)
    fun x ha => tag?_eq_of_kind? (hb.kind? x (h.contains_of_atOrAbove_head ha))
  · rw [hb.parent? _ hroot, h.top]
  · have hmem := (hb.wellFormed.parent_iff x y).mp hl
    rw [hb.children y (h.contains_of_atOrAbove_head ha)] at hmem
    exact (hw.parent_iff x y).mpr hmem

section swap
variable {cs : List NodeId} (hcs : ∀ c ∈ cs, d.MayHold d.body c)
  (hroots : ∀ c ∈ cs, d.parent? c = none)
include hcs hroots

/-- And so do other children of the body, -/
theorem regrouped : (d.regrouped d.body cs).IsPage head := by
  have hw := h.wellFormed
  have hbody : d.IsElement d.body := Option.isSome_of_mem (element?_eq_some_iff.mpr h.body)
  have hparent := parent?_regrouped (p := d.body) fun c hc => (hcs c hc).1
  refine h.of_links (regrouped_spec hw hbody hcs).1 (congrArg Prod.fst (anchors_regrouped ..))
    (by rw [kind?_regrouped]) ?_ ((touches_regrouped hw hbody hcs hroots _ h.root_ne_body).2)
    (by rw [kind?_regrouped]) (fun x y hl ha => ?_)
    fun x _ => tag?_eq_of_kind? (by rw [kind?_regrouped])
  · have hnew : d.root ∉ cs := fun hc =>
      ((mayHold_iff hw).mp (hcs d.root hc)).2 (.single h.link_body)
    have hold : d.root ∉ d.children d.body := fun hc => by
      simpa [h.top] using (hw.parent_iff d.root d.body).mpr hc
    rw [hparent, if_neg hnew, if_neg hold, h.top]
  · rw [Link, hparent] at hl
    split at hl
    · exact absurd ((Option.some.inj hl).symm ▸ ha) h.not_atOrAbove_body
    · split at hl
      · simp at hl
      · exact hl

/-- whatever is freed then. -/
theorem swapChildren : (d.swapChildren d.body cs).IsPage head := by
  have hbody : d.IsElement d.body := Option.isSome_of_mem (element?_eq_some_iff.mpr h.body)
  obtain ⟨hw', hfree⟩ := swapChildren_spec h.wellFormed hbody hcs
  have hr := h.regrouped hcs hroots
  have hb : (d.regrouped d.body cs).body = d.body :=
    congrArg (·.1.2) (anchors_regrouped d d.body cs)
  have hlink := hr.link_body
  rw [hb] at hlink
  have hkeep := fun {y} => node?_swapChildren (y := y) h.wellFormed hbody hcs (.single hlink)
  have hm : (d.swapChildren d.body cs).landmarks = (d.regrouped d.body cs).landmarks :=
    congrArg Prod.fst ((anchors_swapChildren ..).trans (anchors_regrouped d d.body cs).symm)
  have hroot := hkeep .refl
  refine hr.of_links hw' hm ?_ ?_ ?_ ?_ (fun x y hl _ => ?_) fun x ha => tag?_eq_of_kind? ?_
  · rw [kind?, hroot, kind?]
  · rw [parent?, hroot, ← parent?, hr.top]
  · rw [children, hroot, children]
  · rw [kind?, hb, hkeep (.single hlink), kind?]
  · rwa [Link, parent?, hfree.node? (contains_of_parent? hl)] at hl
  · rw [kind?, hkeep (ha.tail hr.link_head), kind?]

end swap

end IsPage

/-- The trees in `nodes`, which are to be the body of the page, stand beside it as `d₁`. -/
structure Prepares (d d₁ : Document) (head : NodeId) (nodes : List NodeId) : Prop where
  page : d₁.IsPage head
  beside : d.Beside d₁ nodes
  landmarks : d₁.landmarks = d.landmarks
  mayHold : ∀ c ∈ nodes, d₁.MayHold d₁.body c

theorem Prepares.isElement_body {d₁ : Document} {nodes : List NodeId}
    (hp : d.Prepares d₁ head nodes) : d₁.IsElement d₁.body :=
  Option.isSome_of_mem (element?_eq_some_iff.mpr hp.page.body)

theorem Prepares.roots {d₁ : Document} {nodes : List NodeId} (hp : d.Prepares d₁ head nodes) :
    ∀ c ∈ nodes, d₁.parent? c = none := fun c hc =>
  (hp.beside.root c hc).2.2

/-- A new body is built beside the page and then put in place. -/
theorem IsPage.replaceBody_eq (h : d.IsPage head) (events : List Event) :
    ∃ nodes d₁, d.Prepares d₁ head nodes ∧ d₁.Depicts nodes (sketch events) ∧
      (Markdown.replaceBody events).apply d =
        (.ok nodes.length, d₁.swapChildren d₁.body nodes) := by
  have hbody : d.IsElement d.body := Option.isSome_of_mem (element?_eq_some_iff.mpr h.body)
  obtain ⟨nodes, d₁, hbeside, hsketch, hm, ⟨⟨-, hcs⟩, heq⟩ | ⟨hnot, -⟩⟩ :=
    replaceBody_spec h.wellFormed events
  swap
  · exact absurd hbody hnot
  have hb : d₁.body = d.body := congrArg Prod.snd hm
  rw [← hb] at heq hcs
  exact ⟨nodes, d₁, ⟨h.beside hbeside hm, hbeside, hm, hcs⟩, hsketch, heq⟩

/-- A page takes a new body, whatever the events are. It looks as they do and is all that is new. -/
theorem IsPage.replaceBody (h : d.IsPage head) (events : List Event) :
    (Markdown.replaceBody events).Gives d fun _ d' => d'.IsPage head ∧
      d'.shape? d'.body = some (.node default (.element (.ofTag "body")) (sketch events)) := by
  obtain ⟨nodes, d₁, hp, hsketch, heq⟩ := h.replaceBody_eq events
  refine ⟨_, _, heq, hp.page.swapChildren hp.mayHold hp.roots, ?_⟩
  have hb : (d₁.swapChildren d₁.body nodes).body = d₁.body :=
    congrArg (·.1.2) (anchors_swapChildren ..)
  rw [hb]
  exact shape?_swapChildren hp.beside.wellFormed hp.isElement_body hp.mayHold hp.roots
    hp.page.body hp.beside.nodup hsketch

end CopyControl.Document
