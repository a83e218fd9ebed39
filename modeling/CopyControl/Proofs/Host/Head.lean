import CopyControl.Proofs.Host.Bounded
import CopyControl.Proofs.Host.Texts

/-!
The head of a page, and the title in it.

The title is taken from the first `h1` once, when the page is built. A new body, a pass and a label
leave the head as it is, to the last node: a label is only shown on what a click listener copies
for, a control that some pass has made, and no handle of a control ever comes to name a node of the
head, since the nodes of the head are never freed. So in a run there is always the title that the
page was built with, and it is the one that a fresh page of a source would have just if the first
headings of the two sources say the same (`titles_performAll`).

* §1 what a text leaves alone
* §2 pages with the same head
* §3 actions and runs
-/

namespace CopyControl

open Relation Document Markdown Edit

/-! ## §1 What a text leaves alone -/

namespace Document

variable {d d' d₀ : Document} {c x y head : NodeId} {s : String}

/-- The node is what it was, where it was, and holds what it held. -/
structure StaysPut (d d' : Document) (y : NodeId) : Prop where
  kind? : d'.kind? y = d.kind? y
  parent? : d'.parent? y = d.parent? y
  children : d'.children y = d.children y

theorem staysPut_rewritten {only : NodeId} (s : String) (hy : y ≠ only) :
    d.StaysPut (d.rewritten only s) y := by
  have hparent : (d.rewritten only s).parent? = d.parent? :=
    parent?_updateNode_of_keeps d only fun _ => rfl
  refine ⟨?_, congrFun hparent y, congrFun (children_rewritten d only s) y⟩
  rw [kind?_rewritten, if_neg hy]

theorem staysPut_retold (hw : d.WellFormed) (hel : d.IsElement x) (s : String)
    (hy : d.contains y) (hxy : ¬ d.AtOrAbove x y) : d.StaysPut (d.retold x s) y := by
  have hex := exchanged_retold hw hel s
  have hne : y ≠ (d.newText s).1 := ne_of_live_of_dead hy (contains_newText_fst hw s)
  have hlive : (d.retold x s).contains y := by
    refine (hex.contains y).mpr ⟨?_, fun ⟨a, ha, hay, _⟩ => hxy ?_⟩
    · rw [newText, contains_createNode hw.free, hy, Bool.or_true]
    · rw [children_newText hw] at ha
      rw [atOrAbove_congr (parent?_newText hw s)] at hay
      exact hay.tail ((hw.parent_iff a x).mpr ha)
  refine ⟨?_, ?_, children_retold_of_ne hw hel hlive fun heq => hxy (heq ▸ .refl)⟩
  · rw [kind?_retold hw hel hlive, if_neg hne]
  · rw [hex.parent y hlive, if_neg (by simpa using hne), parent?_newText hw]

/-- When `x` gets a text, no node is touched but `x` and those below it. -/
theorem staysPut_setText (hw : d.WellFormed) (x : NodeId) (s : String) (hy : d.contains y)
    (hxy : ¬ d.AtOrAbove x y) : d.StaysPut ((setText x s).apply d).2 y := by
  cases hsole : d.soleText? x with
  | some only =>
    rw [setText_of_sole s hsole]
    refine staysPut_rewritten s fun heq => hxy ?_
    have hmem : only ∈ d.children x := by simp [(says_of_soleText? hsole).1]
    exact heq ▸ .single ((hw.parent_iff only x).mpr hmem)
  | none =>
    rw [setText_of_not_sole s hsole]
    by_cases hel : d.IsElement x
    · rw [setTextContent_ok hw s hel]
      exact staysPut_retold hw hel s hy hxy
    · obtain ⟨e, he⟩ := setTextContent_fails s hel
      rw [he]
      exact ⟨rfl, rfl, rfl⟩

/-! ## §2 Pages with the same head -/

/-- The root, the body, the head, and what is in the head. -/
def Frame (d : Document) (x : NodeId) : Prop :=
  x = d.root ∨ x = d.body ∨ d.AtOrAbove d.head x

/-- The page `d` has the frame of the page `d₀`: under the same handles there are the same nodes in
the same places, and the head looks as it did. -/
structure KeepsFrame (d₀ d : Document) : Prop where
  page : d.IsPage d₀.head
  anchors : d.anchors = d₀.anchors
  below : d₀.SameBelow d d₀.head
  shape : d.shape? d₀.head = d₀.shape? d₀.head

theorem IsPage.keepsFrame (h : d.IsPage d.head) : KeepsFrame d d :=
  ⟨h, rfl, sameBelow_of_eq rfl rfl _, rfl⟩

namespace KeepsFrame

variable (h : KeepsFrame d₀ d) (h₀ : d₀.WellFormed)
include h h₀

theorem atOrAbove_head_iff : d.AtOrAbove d₀.head x ↔ d₀.AtOrAbove d₀.head x :=
  h.below.atOrAbove_iff h₀ h.page.wellFormed

theorem contains (hx : d₀.Frame x) : d.contains x := by
  have hr : d.root = d₀.root := congrArg (·.1.1) h.anchors
  have hb : d.body = d₀.body := congrArg (·.1.2) h.anchors
  rcases hx with rfl | rfl | hx
  · exact hr ▸ contains_of_kind? h.page.root
  · exact hb ▸ contains_of_kind? h.page.body
  · exact h.page.contains_of_atOrAbove_head ((h.atOrAbove_head_iff h₀).mpr hx)

/-- No other node is above a node of the frame. -/
theorem not_atOrAbove (hx : ¬ d₀.Frame x) (hy : d₀.Frame y) : ¬ d.AtOrAbove x y := by
  have hr : d.root = d₀.root := congrArg (·.1.1) h.anchors
  have hb : d.body = d₀.body := congrArg (·.1.2) h.anchors
  have hroot : ¬ d.AtOrAbove x d.root := fun ha =>
    hx (.inl ((eq_of_atOrAbove_of_parent?_none ha h.page.top).trans hr))
  -- what is above a child of the root is the child itself, or above the root
  have hchild : ∀ z, d.Link z d.root → d.AtOrAbove x z → x = z := fun z hz ha => by
    rcases ha.cases_head with rfl | ⟨p, hp, hpx⟩
    · rfl
    · obtain rfl : p = d.root := Option.some.inj (hp.symm.trans hz)
      exact absurd hpx hroot
  intro ha
  rcases hy with rfl | rfl | hy
  · exact hroot (hr ▸ ha)
  · exact hx (.inr (.inl (hchild _ (hb ▸ h.page.link_body) ha)))
  · have hy := (h.atOrAbove_head_iff h₀).mpr hy
    rcases atOrAbove_total hy ha with hhx | hxh
    · exact hx (.inr (.inr ((h.atOrAbove_head_iff h₀).mp hhx)))
    · exact hx (.inr (.inr (hchild _ h.page.link_head hxh ▸ .refl)))

theorem sameArena (hs : d.SameArena d') : KeepsFrame d₀ d' where
  page := h.page.sameArena hs
  anchors := hs.anchors.trans h.anchors
  below := by
    obtain ⟨-, hkind, -, hchildren⟩ := lookups_congr hs.slots
    have hel : d'.element? = d.element? := by
      funext x
      rw [element?, hkind, element?]
    exact h.below.trans (sameBelow_of_eq hel hchildren _) h₀ h.page.wellFormed
  shape := (hs.shape? h.page.wellFormed _).trans h.shape

theorem enhance (clipboard : String) : KeepsFrame d₀ (d.enhance clipboard).document where
  page := h.page.enhance clipboard
  anchors := (changes_enhance h.page.wellFormed clipboard).anchors_eq.trans h.anchors
  below := h.below.trans (h.page.sameBelow_enhance clipboard) h₀ h.page.wellFormed
  shape := (h.page.shape?_head_enhance clipboard).trans h.shape

theorem passes (hp : Passes d d') : KeepsFrame d₀ d' := by
  induction hp with
  | refl => exact h
  | tail _ hs ih =>
    cases hs with
    | same hs => exact ih.sameArena h₀ hs
    | pass clipboard => exact ih.enhance h₀ clipboard

theorem replaceBody (events : List Event) :
    KeepsFrame d₀ ((Markdown.replaceBody events).apply d).2 := by
  obtain ⟨nodes, d₁, hp, -, heq⟩ := h.page.replaceBody_eq events
  have ha := (onlyChanges_replaceBody events).anchors_eq h.page.wellFormed heq
  rw [heq]
  exact ⟨hp.page.swapChildren hp.mayHold hp.roots, ha.trans h.anchors,
    h.below.trans (hp.sameBelow h.page) h₀ h.page.wellFormed,
    (hp.shape?_head h.page).trans h.shape⟩

/-- A text outside of the frame is nothing to it. -/
theorem setText (hx : ¬ d₀.Frame x) (s : String) :
    KeepsFrame d₀ ((Document.setText x s).apply d).2 := by
  have hw := h.page.wellFormed
  have hr : d.root = d₀.root := congrArg (·.1.1) h.anchors
  have hb : d.body = d₀.body := congrArg (·.1.2) h.anchors
  have hchanges : Changes d _ := onlyChanges_setText x s d hw
  have hw' := hchanges.wellFormed hw
  have hput : ∀ y, d₀.Frame y → d.StaysPut ((Document.setText x s).apply d).2 y := fun y hy =>
    staysPut_setText hw x s (h.contains h₀ hy) (h.not_atOrAbove h₀ hx hy)
  have hroot := hput d.root (.inl hr)
  have hhead : ∀ y, d.AtOrAbove d₀.head y → d.StaysPut ((Document.setText x s).apply d).2 y :=
    fun y hy => hput y (.inr (.inr ((h.atOrAbove_head_iff h₀).mp hy)))
  have hpage : ((Document.setText x s).apply d).2.IsPage d₀.head := by
    refine h.page.of_links hw' hchanges.landmarks_eq hroot.kind? (hroot.parent?.trans h.page.top)
      hroot.children (hput d.body (.inr (.inl hb))).kind? (fun y z hl hz => ?_)
      fun y hy => tag?_eq_of_kind? (hhead y hy).kind?
    have hmem := (hw'.parent_iff y z).mp hl
    rw [(hhead z hz).children] at hmem
    exact (hw.parent_iff y z).mpr hmem
  refine ⟨hpage, hchanges.anchors_eq.trans h.anchors, ?_, ?_⟩
  · refine h.below.trans (fun y hy => ⟨?_, (hhead y hy).children⟩) h₀ hw
    rw [element?, (hhead y hy).kind?, element?]
  · rw [shape?_congr hw hw' fun y hy => ⟨(hhead y hy).kind?, (hhead y hy).children⟩, h.shape]

omit h₀ in
theorem shape?_head : d.shape? d.head = d₀.shape? d₀.head := by
  have hh : d.head = d₀.head := congrArg (·.2) h.anchors
  rw [hh, h.shape]

/-- A new body is put in place, and has the headings of its source. -/
theorem gives_replaceBody {ts : List Tree} (hs : d₀.shape? d₀.head = some (headTree ts))
    (hts : Tree.captionsOf "h1" ts = []) (events : List Event) :
    (Markdown.replaceBody events).Gives d fun _ d' =>
      KeepsFrame d₀ d' ∧ d'.headingText? = firstHeading? events := by
  obtain ⟨n, d', heq, hpage, hbody⟩ := h.page.replaceBody events
  have hframe := h.replaceBody h₀ events
  rw [heq] at hframe
  exact ⟨n, d', heq, hframe, headingText?_of_shape? hpage (hframe.shape.trans hs) hts hbody⟩

end KeepsFrame

end Document

/-! ## §3 Actions and runs -/

namespace Host

open CopyControl.Action

variable {h : Host} {a : Action} {as : List Action} {controls : List NodeId} {d₀ : Document}
  {c : NodeId}

/-- The document of the host has the frame of the page `d₀`, and clicks are for controls that are no
part of it. -/
structure Framed (d₀ : Document) (h : Host) (controls : List NodeId) : Prop where
  frame : KeepsFrame d₀ h.document
  listeners : ∀ x block c clipboard,
    (x, .copyBlock block c clipboard) ∈ h.document.listeners → c ∈ controls
  targets : ∀ c, h.Targets c → c ∈ controls
  apart : ∀ c ∈ controls, ¬ d₀.Frame c

theorem framed_start (hpage : d₀.IsPage d₀.head) (hl : d₀.listeners = []) :
    Framed d₀ (start d₀) [] where
  frame := hpage.keepsFrame
  listeners := by simp [start, hl]
  targets c hc := by simp [Targets, start] at hc
  apart := by simp

/-- A control that is new was no node before. -/
theorem contains_of_mem_newControls (hc : c ∈ a.newControls h) : h.document.contains c = false := by
  unfold newControls at hc
  split at hc
  · simpa using (List.mem_filter.mp hc).2
  · simp at hc

theorem Framed.perform (hf : Framed d₀ h controls) (h₀ : d₀.WellFormed)
    (ha : a.Respectful h controls) (ho : a.isOperation = false) :
    Framed d₀ (a.perform h) (controls ++ a.newControls h) where
  frame := by
    obtain ⟨d, hd⟩ : ∃ d, (a.perform h).document = d := ⟨_, rfl⟩
    have hacts := h.acts_perform a
    rw [hd] at hacts ⊢
    cases hacts with
    | operate o => simp [isOperation] at ho
    | reload events => exact hf.frame.replaceBody h₀ events
    | label haim l => exact hf.frame.setText h₀ (hf.apart _ (aim_mem hf.targets ha haim)) l.text
    | passes _ hp => exact hf.frame.passes h₀ hp
    | same he => exact hf.frame.sameArena h₀ he
  listeners x block c clipboard hl :=
    listeners_perform hf.frame.page.wellFormed ha hf.listeners hl
  targets c hc := List.mem_append_left _ (targets_perform hf.targets ha hf.listeners hc)
  apart c hc := by
    rcases List.mem_append.mp hc with hc | hc
    · exact hf.apart c hc
    · -- what is in the frame is live, and a new control was not
      intro hframe
      have hlive := hf.frame.contains h₀ hframe
      rw [contains_of_mem_newControls hc] at hlive
      simp at hlive

/-- In a run in which nobody operates on the page from outside, the frame of the page stays. -/
theorem framed_performAll (hpage : d₀.IsPage d₀.head) (hl : d₀.listeners = [])
    (ho : ∀ a ∈ as, a.isOperation = false) (hr : AllRespectful as (start d₀) []) :
    Framed d₀ (performAll as (start d₀)) (allControls as (start d₀)) := by
  induction as using List.reverseRecOn with
  | nil => exact framed_start hpage hl
  | append_singleton as a ih =>
    obtain ⟨hos, hoa⟩ := List.forall_mem_append.mp ho
    obtain ⟨hrs, hra, -⟩ := allRespectful_append.mp hr
    rw [performAll_append, allControls_append]
    have hstep := (ih hos hrs).perform hpage.wellFormed hra (hoa a (List.mem_singleton_self a))
    simpa [allControls, performAll] using hstep

/-- **The title of a page.** The title is the first heading, as it was when the page was built:
whatever has happened to the page since, but for operations from outside, its head is the same to
the last node. So it is the first heading of the page just if that says what the first one said, and
it is the title of a fresh page just if the two pages were built with the same first heading. A new
body is put in place all the same, and has the headings of its source. -/
theorem titles_performAll {source : List Event} {options : PageOptions} {d : Document}
    (hd : buildPage source options = .ok d) (ho : ∀ a ∈ as, a.isOperation = false)
    (hr : AllRespectful as (start d) []) :
    let h := performAll as (start d)
    h.document.titles = d.headingText?.toList ∧
      (h.document.titles = h.document.headingText?.toList ↔
        h.document.headingText? = d.headingText?) ∧
      h.document.outerHtml h.document.head = d.outerHtml d.head ∧
      ∀ events options', ∃ n fresh, (h.edit (replaceBody events)).1 = .ok n ∧
        buildPage events options' = .ok fresh ∧ fresh.titles = fresh.headingText?.toList ∧
        (h.document.titles = fresh.titles ↔ d.headingText? = fresh.headingText?) ∧
        let reloaded := (h.edit (replaceBody events)).2.document
        reloaded.titles = h.document.titles ∧ reloaded.headingText? = fresh.headingText? := by
  obtain ⟨d', hd', hheaded⟩ := buildPage_headed source options
  obtain rfl := Except.ok.inj (hd.symm.trans hd')
  obtain ⟨-, hheading⟩ := titles_buildPage hd
  have hw := hheaded.page.wellFormed
  intro h
  have hframe : KeepsFrame d h.document :=
    (framed_performAll hheaded.page hheaded.listeners ho hr).frame
  have htitles : ∀ {d₁}, KeepsFrame d d₁ → d₁.titles = d.headingText?.toList := fun h₁ => by
    rw [hheading]
    exact titles_of_shape? h₁.page.wellFormed (h₁.shape?_head.trans hheaded.shape)
  have hinj : ∀ {t u : Option String}, t.toList = u.toList ↔ t = u := fun {t u} =>
    ⟨fun heq => by simpa using congrArg List.head? heq, congrArg Option.toList⟩
  refine ⟨htitles hframe, ?_, ?_, fun events options' => ?_⟩
  · rw [htitles hframe, hinj, eq_comm]
  · rw [outerHtml_eq, outerHtml_eq, hframe.shape?_head]
  obtain ⟨fresh, hfresh, -⟩ := buildPage_headed events options'
  obtain ⟨hfreshTitles, hfreshHeading⟩ := titles_buildPage hfresh
  obtain ⟨n, d₁, heq, hreloaded, hnew⟩ :=
    hframe.gives_replaceBody hw hheaded.shape (headings_headContent _ _) events
  have hdoc : (h.edit (replaceBody events)).2.document = d₁ := by
    rw [(edit_spec h _).1, heq]
  refine ⟨n, fresh, congrArg Prod.fst heq, hfresh, hfreshTitles, ?_, ?_, ?_⟩
  · rw [htitles hframe, hfreshTitles, hinj]
  · rw [hdoc, htitles hreloaded, htitles hframe]
  · rw [hdoc, hnew, hfreshHeading]

/-- The events of a page with a heading and a block. -/
def titledSource (heading : String) : List Event :=
  [.start (.heading .h1), .text heading, .stop .heading,
    .start (.codeBlock none), .text "x", .stop .codeBlock]

def titledPage : Document :=
  match buildPage (titledSource "a") ⟨none⟩ with
  | .ok d => d
  | .error _ => .new

theorem buildPage_titledSource : buildPage (titledSource "a") ⟨none⟩ = .ok titledPage := by
  obtain ⟨d, hd, -⟩ := buildPage_headed (titledSource "a") ⟨none⟩
  rw [titledPage, hd]

/-- A control is clicked, and before its label is shown the page gets another heading. -/
def retitledWhileCopying : List Action :=
  [.enhance "", .click ⟨11, 0⟩, .reload (titledSource "b"), .enhance "", .run 0, .run 0,
    .advance 1500, .run 0]

theorem titles_performAll_retitled :
    let d := (performAll retitledWhileCopying (start titledPage)).document
    AllRespectful retitledWhileCopying (start titledPage) [] ∧
      d.outerHtml d.head = titledPage.outerHtml titledPage.head ∧
      d.titles = ["a"] ∧ d.headingText? = some "b" ∧
      ∃ fresh, buildPage (titledSource "b") ⟨none⟩ = .ok fresh ∧ fresh.titles = ["b"] := by
  have hr : AllRespectful retitledWhileCopying (start titledPage) [] := by decide +kernel
  obtain ⟨htitles, -, hhead, hfresh⟩ := titles_performAll buildPage_titledSource (by decide) hr
  obtain ⟨n, fresh, -, hfresh, hfreshTitles, -, -, hheading⟩ := hfresh (titledSource "b") ⟨none⟩
  have ha : titledPage.headingText? = some "a" := by decide +kernel
  refine ⟨hr, hhead, by rw [htitles, ha]; rfl, by decide +kernel, fresh, hfresh, ?_⟩
  rw [hfreshTitles, ← hheading]
  decide +kernel

/-- After a reload the page may have the title of a heading that is gone. -/
theorem title_outlives_heading :
    ¬ ∀ (source : List Event) (options : PageOptions) (d : Document) (as : List Action),
      buildPage source options = .ok d → (∀ a ∈ as, a.isOperation = false) →
      AllRespectful as (start d) [] →
      let d' := (performAll as (start d)).document
      d'.titles = d'.headingText?.toList := by
  intro h
  have hsame := h (titledSource "a") ⟨none⟩ titledPage [.reload (titledSource "b")]
    buildPage_titledSource (by decide) (by decide +kernel)
  have hdiffer : let d' := (performAll [.reload (titledSource "b")] (start titledPage)).document
      d'.titles ≠ d'.headingText?.toList := by decide +kernel
  exact hdiffer hsame

end Host

end CopyControl
