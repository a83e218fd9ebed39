import CopyControl.Proofs.Host.Erasure
import CopyControl.Proofs.Markdown.Fresh

/-!
A new body is as good as a fresh page.

A page that is live is full of history: slots are in use for the second time, reverts are due for
controls that have gone, wrappers stand around old blocks. None of this is seen once it has got a
new body and a pass has run: the body and its blocks are what they are on a page that is built from
the same source (`reload_agrees`). The two bodies have no handle in common. What they have in common
is their shape, which the source and the pass determine.

* §1 what is seen of a page
* §2 live pages
* §3 reloads and fresh pages
-/

namespace CopyControl

open Relation Document Markdown

/-! ## §1 What is seen of a page -/

namespace Document

variable {d d' : Document} {head : NodeId} {t : Tree}

theorem IsPage.shape?_enhance (h : d.IsPage head) (clipboard : String)
    (ht : d.shape? d.body = some t) :
    (d.enhance clipboard).document.shape? (d.enhance clipboard).document.body =
      some t.enhanced := by
  have hb : (d.enhance clipboard).document.body = d.body :=
    congrArg Prod.snd (changes_enhance h.wellFormed clipboard).landmarks_eq
  rw [hb]
  exact Document.shape?_enhance h.wellFormed h.rootApart clipboard h.isConnected_body ht

/-- Pages whose bodies have the same shape have the same HTML there, and the same texts in their
blocks. -/
theorem IsPage.agree {head' : NodeId} (h : d.IsPage head) (h' : d'.IsPage head')
    (ht : d.shape? d.body = some t) (ht' : d'.shape? d'.body = some t) :
    d.outerHtml d.body = d'.outerHtml d'.body ∧
      d.codeBlocks.map d.innerText = d'.codeBlocks.map d'.innerText := by
  refine ⟨?_, ?_⟩
  · rw [outerHtml_eq, outerHtml_eq, ht, ht']
  · rw [(h.depicts_codeBlocks ht).map_innerText, (h'.depicts_codeBlocks ht').map_innerText]

/-! ## §2 Live pages -/

theorem IsPage.passes (h : d.IsPage head) (hp : Passes d d') : d'.IsPage head := by
  induction hp with
  | refl => exact h
  | tail _ hs ih =>
    cases hs with
    | same hs => exact ih.sameArena hs
    | pass clipboard => exact ih.enhance clipboard

end Document

/-- Whether the action is an operation on the document by somebody else. -/
def Action.isOperation : Action → Bool
  | operate _ => true
  | _ => false

namespace Host

open CopyControl.Action

variable {h : Host} {a : Action} {controls : List NodeId} {head : NodeId} {d : Document}

/-- Whatever else happens to a live page, it is still one afterwards. -/
theorem isPage_perform (hd : h.document.IsPage head) (hm : h.Mannered controls)
    (ha : a.Respectful h controls) (ho : a.isOperation = false) :
    (a.perform h).document.IsPage head := by
  obtain ⟨d, hd'⟩ : ∃ d, (a.perform h).document = d := ⟨_, rfl⟩
  have hacts := h.acts_perform a
  rw [hd'] at hacts ⊢
  cases hacts with
  | operate o => simp [isOperation] at ho
  | reload events =>
    obtain ⟨n, d', heq, hpage, -⟩ := hd.replaceBody events
    rw [heq]
    exact hpage
  | label haim l => exact hd.setLabel (hm.labelled _ (aim_mem hm.targets ha haim)) l
  | passes _ hp => exact hd.passes hp
  | same he => exact hd.sameArena he

/-- What is kept by every action but operations holds to the end of a respectful run. -/
theorem performAll_induction {P : Host → Prop} (hw : d.WellFormed) (hb : d.contains d.body)
    (hl : ∀ x block c clipboard, (x, .copyBlock block c clipboard) ∉ d.listeners)
    (hstart : P (start d))
    (hstep : ∀ (h : Host) (a : Action) (controls : List NodeId), P h → h.Mannered controls →
      a.Respectful h controls → a.isOperation = false → P (a.perform h))
    {as : List Action} (ho : ∀ a ∈ as, a.isOperation = false)
    (hr : AllRespectful as (start d) []) (hn : ∀ i, timesEmptied i as (start d) < UInt32.size) :
    P (performAll as (start d)) := by
  induction as using List.reverseRecOn with
  | nil => exact hstart
  | append_singleton as a ih =>
    obtain ⟨hos, hoa⟩ := List.forall_mem_append.mp ho
    obtain ⟨hrs, hra, -⟩ := allRespectful_append.mp hr
    have hns : ∀ i, timesEmptied i as (start d) < UInt32.size := fun i => by
      have := hn i
      rw [timesEmptied_append] at this
      omega
    obtain ⟨hm, -⟩ := echo_performAll hw hb hl hns hrs
    rw [performAll_append]
    exact hstep _ a _ (ih hos hrs hns) hm hra (hoa a (List.mem_singleton_self a))

theorem isPage_performAll (hd : d.IsPage head)
    (hl : ∀ x block c clipboard, (x, .copyBlock block c clipboard) ∉ d.listeners)
    {as : List Action} (ho : ∀ a ∈ as, a.isOperation = false)
    (hr : AllRespectful as (start d) []) (hn : ∀ i, timesEmptied i as (start d) < UInt32.size) :
    (performAll as (start d)).document.IsPage head :=
  performAll_induction (P := fun h => h.document.IsPage head) hd.wellFormed
    (contains_of_kind? hd.body) hl hd (fun _ _ _ => isPage_perform) ho hr hn

/-! ## §3 Reloads and fresh pages -/

/-- A page is built from some source and then lives: new bodies, passes, sessions, clicks, and all
that comes of clicks. If it then gets a new body and a pass, the body has the same HTML, and its
blocks the same texts, as after a pass on a page that is built from the same source. Neither can
fail. Without operations, a run is respectful as soon as every click that is handled at once is one
on a control. -/
theorem reload_agrees {source : List Event} {options : PageOptions}
    (hd : buildPage source options = .ok d) {as : List Action}
    (ho : ∀ a ∈ as, a.isOperation = false) (hr : AllRespectful as (start d) [])
    (hn : ∀ i, timesEmptied i as (start d) < UInt32.size) (events : List Event)
    (options' : PageOptions) (clipboard clipboard' : String) :
    let h := performAll as (start d)
    ∃ n fresh, (h.edit (replaceBody events)).1 = .ok n ∧ buildPage events options' = .ok fresh ∧
      let reloaded := ((h.edit (replaceBody events)).2.enhance clipboard).2.document
      let fresh := (fresh.enhance clipboard').document
      reloaded.outerHtml reloaded.body = fresh.outerHtml fresh.body ∧
        reloaded.codeBlocks.map reloaded.innerText = fresh.codeBlocks.map fresh.innerText := by
  intro h
  obtain ⟨d', hd', hdraft⟩ := buildPage_spec source options
  obtain rfl := Except.ok.inj (hd.symm.trans hd')
  have hpage : h.document.IsPage d.head :=
    isPage_performAll hdraft.page (by simp [hdraft.listeners]) ho hr hn
  obtain ⟨n, reloaded, heq, hreloaded, hshape⟩ := hpage.replaceBody events
  obtain ⟨fresh, hfresh, hdraft'⟩ := buildPage_spec events options'
  refine ⟨n, fresh, congrArg Prod.fst heq, hfresh, ?_⟩
  have hdoc : (h.edit (replaceBody events)).2.document = reloaded := by
    rw [(edit_spec h _).1, heq]
  intro reloaded' fresh'
  have hr' : reloaded' = (reloaded.enhance clipboard).document := by
    rw [← hdoc]
    exact enhance_document _ clipboard
  rw [hr']
  exact (hreloaded.enhance clipboard).agree (hdraft'.page.enhance clipboard')
    (hreloaded.shape?_enhance clipboard hshape)
    (hdraft'.page.shape?_enhance clipboard' hdraft'.body)

/-- The events of a page that is one block. -/
def blockSource : List Event :=
  [.start (.codeBlock none), .text "x", .stop .codeBlock]

def blockPage : Document :=
  match buildPage blockSource ⟨none⟩ with
  | .ok d => d
  | .error _ => .new

theorem buildPage_blockSource : buildPage blockSource ⟨none⟩ = .ok blockPage := by
  obtain ⟨d, hd, -⟩ := buildPage_spec blockSource ⟨none⟩
  rw [blockPage, hd]

/-- A control is clicked and goes with the old body. When its block's text is written, and again
when its revert is due, its slot is in use for the new body. -/
def reloadedWhileCopying : List Action :=
  [.enhance "", .click ⟨7, 0⟩, .reload blockSource, .enhance "", .run 0, .run 0, .advance 1500]

theorem reload_agrees_lateRevert :
    let h := performAll reloadedWhileCopying (start blockPage)
    AllRespectful reloadedWhileCopying (start blockPage) [] ∧
      h.queue = [.revert ⟨7, 0⟩] ∧ h.document.contains ⟨7, 1⟩ ∧
      ∃ n fresh, (h.edit (replaceBody blockSource)).1 = .ok n ∧
        buildPage blockSource ⟨some "page.css"⟩ = .ok fresh ∧
        let reloaded := ((h.edit (replaceBody blockSource)).2.enhance "").2.document
        let fresh := (fresh.enhance "").document
        reloaded.outerHtml reloaded.body = fresh.outerHtml fresh.body := by
  have hr : AllRespectful reloadedWhileCopying (start blockPage) [] := by decide +kernel
  have hn : ∀ i, timesEmptied i reloadedWhileCopying (start blockPage) < UInt32.size := fun i =>
    Nat.lt_of_le_of_lt (timesEmptied_le_length i reloadedWhileCopying _) (by decide)
  obtain ⟨n, fresh, heq, hfresh, hhtml, -⟩ :=
    reload_agrees buildPage_blockSource (by decide) hr hn blockSource ⟨some "page.css"⟩ "" ""
  exact ⟨hr, by decide +kernel, by decide +kernel, n, fresh, heq, hfresh, hhtml⟩

end Host

end CopyControl
