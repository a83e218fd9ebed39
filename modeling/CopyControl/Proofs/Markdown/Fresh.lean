import CopyControl.Proofs.Document.Rooted
import CopyControl.Proofs.Markdown.Title

/-!
Fresh pages.

A page can be built from every list of events (`buildPage_headed`). The head gets elements of its
own, none of them a `pre` (`Adorns`), and is known to the last node: a character set, a stylesheet
if one is asked for, and the text of the first `h1` of the source as the title, if it has an `h1`.
The body gets the nodes of the fragment one after the other, and so looks as the sketch of the
events does.

* §1 additions to the head
* §2 trees for the head
* §3 filling the body
* §4 pages under construction
* §5 the whole page
-/

namespace CopyControl.Document

open Relation Edit Markdown

variable {d d' d₁ : Document} {x : NodeId} {t : Tree} {ts : List Tree}

/-! ## §1 Additions to the head -/

/-- `d'` is `d` with new nodes, none of them a `pre`. What was live stands as it stood, except that
new nodes may be among the children of the head. -/
structure Adorns (d d' : Document) : Prop where
  wellFormed : d'.WellFormed
  kind? : ∀ x, d.contains x → d'.kind? x = d.kind? x
  parent? : ∀ x, d.contains x → d'.parent? x = d.parent? x
  children : ∀ x, d.contains x → x ≠ d.head → d'.children x = d.children x
  listeners : d'.listeners = d.listeners
  new : ∀ x, d.contains x = false → d'.tag? x ≠ some "pre"

/-- What is above a node that was live was above it before. -/
theorem Adorns.atOrAbove (h : d.Adorns d') (hw : d.WellFormed) {a : NodeId} (hx : d.contains x)
    (ha : d'.AtOrAbove a x) : d.AtOrAbove a x ∧ d.contains a := by
  induction ha with
  | refl => exact ⟨.refl, hx⟩
  | tail _ hl ih =>
    rw [Link, h.parent? _ ih.2] at hl
    exact ⟨.tail ih.1 hl, hw.contains_of_link hl⟩

/-- The page is still a page, and has the same body. -/
theorem IsPage.adorns (hd : d.IsPage d.head) (h : d.Adorns d') (ha : d'.anchors = d.anchors) :
    d'.IsPage d'.head ∧ d'.shape? d'.body = d.shape? d.body := by
  have hw := hd.wellFormed
  have hr : d'.root = d.root := congrArg (·.1.1) ha
  have hb : d'.body = d.body := congrArg (·.1.2) ha
  have hh : d'.head = d.head := congrArg (·.2) ha
  have hroot := contains_of_kind? hd.root
  have hbody := contains_of_kind? hd.body
  have hne : d.root ≠ d.head := fun heq => hw.not_link_self d.head (heq ▸ hd.link_head)
  refine ⟨⟨h.wellFormed, ?_, ?_, ?_, ?_, fun x hx => ?_⟩, ?_⟩
  · rw [hr, h.kind? _ hroot, hd.root]
  · rw [hr, h.parent? _ hroot, hd.top]
  · rw [hr, hh, hb, h.children _ hroot hne, hd.parts]
  · rw [hb, h.kind? _ hbody, hd.body]
  · by_cases hlive : d.contains x
    · rw [tag?_eq_of_kind? (h.kind? x hlive)]
      exact hd.noPre x (hh ▸ (h.atOrAbove hw hlive hx).1)
    · exact h.new x (Bool.eq_false_iff.mpr hlive)
  · rw [hb]
    refine shape?_congr hw h.wellFormed fun y hy => ?_
    have hlive : d.contains y := by
      by_contra hdead
      exact hdead (eq_of_atOrAbove_of_dead hy (Bool.eq_false_iff.mpr hdead) ▸ hbody)
    refine ⟨h.kind? y hlive, h.children y hlive ?_⟩
    rintro rfl
    exact hd.body_ne_head (hw.eq_of_atOrAbove_siblings hd.link_body hd.link_head hy .refl)

/-- If the shape of a node has no `pre`, there is none at or below the node. -/
theorem tag?_ne_pre_of_shape? (hw : d.WellFormed) (ht : d.shape? x = some t)
    (hpre : ∀ k ∈ t.kinds, k.hasTag "pre" = false) {y : NodeId} (ha : d.AtOrAbove x y) :
    d.tag? y ≠ some "pre" := by
  intro hy
  obtain ⟨n, kind, us⟩ := t
  have hx := contains_of_kind? (of_shape? hw ht).1
  obtain ⟨e, he, -⟩ := Option.map_eq_some_iff.mp hy
  have hk := element?_eq_some_iff.mp he
  have hmem : some (.element e) ∈ (Tree.node n kind us).kinds.map some := by
    rw [← map_kind?_descendants hw ht, ← hk]
    exact List.mem_map_of_mem (hw.mem_descendants_iff.mpr ⟨hx, ha⟩)
  obtain ⟨k, hmem, heq⟩ := List.mem_map.mp hmem
  obtain rfl := Option.some.inj heq
  rw [tag?_eq_iff hk, hpre _ hmem] at hy
  simp at hy

/-- A tree that stands beside a page is put into the head. -/
theorem Beside.adorns (hb : d.Beside d₁ [x]) (hm : d₁.Moves d' d.head x none)
    (ht : d₁.shape? x = some t) (hpre : ∀ k ∈ t.kinds, k.hasTag "pre" = false) : d.Adorns d' := by
  obtain ⟨hdead, -, hroot⟩ := hb.root x List.mem_cons_self
  refine ⟨hm.wellFormed, fun y hy => ?_, fun y hy => ?_, fun y hy hne => ?_,
    hm.listeners.trans hb.listeners, fun y hy => ?_⟩
  · rw [hm.kind?, hb.kind? y hy]
  · rw [hm.parent?, if_neg (ne_of_live_of_dead hy hdead), hb.parent? y hy]
  · rw [hm.children, if_neg hne, filter_children_of_orphan hb.wellFormed hroot, hb.children y hy]
  · rw [tag?_eq_of_kind? (congrFun hm.kind? y)]
    by_cases hlive : d₁.contains y
    · rcases hb.covered y hlive with h | ⟨n, hn, ha⟩
      · simp [hy] at h
      · obtain rfl := List.mem_singleton.mp hn
        exact tag?_ne_pre_of_shape? hb.wellFormed ht hpre ha
    · simp [tag?, element?, kind?_eq_none_iff.mpr (Bool.eq_false_iff.mpr hlive)]

/-! ## §2 Trees for the head -/

/-- Attributes that are set one after the other. -/
def withAttributes (e : Element) (attributes : List (String × String)) : Element :=
  attributes.foldl (fun e a => e.setAttribute a.1 a.2) e

theorem tag_withAttributes (e : Element) (attributes : List (String × String)) :
    (withAttributes e attributes).tag = e.tag := by
  induction attributes generalizing e with
  | nil => rfl
  | cons a attributes ih => exact ih (e.setAttribute a.1 a.2)

theorem setAttributes_setsKind {e : Element} (h : d.SetsKind d₁ x (.element e))
    (attributes : List (String × String)) :
    (attributes.forM fun (name, value) => setAttribute x name value).Gives d₁ fun _ d' =>
      d.SetsKind d' x (.element (withAttributes e attributes)) := by
  induction attributes generalizing d₁ e with
  | nil => exact gives_pure h
  | cons a attributes ih =>
    obtain ⟨d₂, heq, hs⟩ := updateElement_setsKind h.wellFormed h.element?
      (f := (·.setAttribute a.1 a.2)) fun hr => Element.noRepeats_setAttribute hr a.1 a.2
    exact Gives.bind (P := fun _ d' => d' = d₂) ⟨(), d₂, heq, rfl⟩ fun _ _ hd =>
      hd ▸ ih (h.trans hs)

/-- A new root without children has the shape of a leaf. -/
theorem SetsKind.shape?_new {k : NodeKind} (h : d.SetsKind d₁ x k) (hx : d.contains x = false) :
    d₁.shape? x = some (.node default k []) :=
  (shape?_eq_leaf_iff h.wellFormed).mpr
    ⟨by rw [h.kind?, if_pos rfl], by rw [h.children, children_eq_nil_of_dead hx]⟩

/-- An element without content. -/
def leafTree (tag : String) (attributes : List (String × String)) : Tree :=
  .node default (.element (withAttributes (.ofTag tag) attributes)) []

/-- An element with one text. -/
def textTree (tag text : String) : Tree :=
  .node default (.element (.ofTag tag)) [.node default (.text text) []]

theorem constructive_setAttributes (x : NodeId) (attributes : List (String × String)) :
    Constructive (attributes.forM fun (name, value) => setAttribute x name value) := by
  induction attributes with
  | nil => exact constructive_pure _
  | cons a attributes ih => exact (constructive_setAttribute x a.1 a.2).bind fun _ => ih

/-- A new element gets attributes while it stands beside a document. -/
theorem leafTree_beside (hw : d.WellFormed) (tag : String) (attributes : List (String × String)) :
    ∃ x d₁ d', (createElement tag).apply d = (.ok x, d₁) ∧
      (attributes.forM fun (name, value) => setAttribute x name value).apply d₁ = (.ok (), d') ∧
      d'.anchors = d.anchors ∧ d.Beside d' [x] ∧ d'.shape? x = some (leafTree tag attributes) := by
  obtain ⟨x, d₁, heq₁, hdead, hk₁⟩ := createElement_setsKind hw tag
  obtain ⟨_, d₂, heq₂, hk₂⟩ := setAttributes_setsKind hk₁ attributes
  have ha₁ := (constructive_createElement tag).onlyChanges.anchors_eq hw heq₁
  have ha₂ := (constructive_setAttributes x attributes).onlyChanges.anchors_eq hk₁.wellFormed heq₂
  exact ⟨x, d₁, d₂, heq₁, heq₂, ha₂.trans ha₁, (Beside.refl hw).add hk₂ hdead,
    hk₂.shape?_new hdead⟩

/-- A new element gets a text while it stands beside a document. -/
theorem textTree_beside (hw : d.WellFormed) (tag text : String) :
    ∃ x m d₁ d', (createElement tag).apply d = (.ok x, d₁) ∧
      (appendText x text).apply d₁ = (.ok m, d') ∧ d'.anchors = d.anchors ∧ d.Beside d' [x] ∧
      d'.shape? x = some (textTree tag text) := by
  obtain ⟨x, d₁, heq₁, hx, hk₁⟩ := createElement_setsKind hw tag
  have helement : d₁.IsElement x := Option.isSome_of_mem hk₁.element?
  obtain ⟨m, d₂, d₃, heq₃, hm, hk₂, hmoves⟩ := appendText_steps hk₁.wellFormed helement text
  have hxm : x ≠ m := ne_of_live_of_dead (contains_of_isElement helement) hm
  have hb₁ : d.Beside d₁ [x] := (Beside.refl hw).add hk₁ hx
  have hb₂ : d.Beside d₂ [m, x] := hb₁.add hk₂ hm
  have hmroot := (hb₂.root m List.mem_cons_self).2.2
  obtain ⟨-, hxlive, hxroot⟩ := hb₂.root x (List.mem_cons_of_mem _ List.mem_cons_self)
  have hnot : ¬ d₂.AtOrAbove m x := fun ha => hxm (eq_of_atOrAbove_of_parent?_none ha hxroot).symm
  have hb₃ : d.Beside d₃ [x] := by
    simpa using hb₂.move hw hmoves List.mem_cons_self hxlive hx hnot
  have htext : d₃.shape? m = some (.node default (.text text) []) :=
    ((hmoves.touches hb₂.wellFormed hmroot).shape? hb₂.wellFormed hmoves.wellFormed hnot).trans
      (hk₂.shape?_new hm)
  have ha₁ := (constructive_createElement tag).onlyChanges.anchors_eq hw heq₁
  have ha₃ := (constructive_appendText x text).onlyChanges.anchors_eq hk₁.wellFormed heq₃
  refine ⟨x, m, d₁, d₃, heq₁, heq₃, ha₃.trans ha₁, hb₃, shape?_of_depicts hb₃.wellFormed ?_ ?_⟩
  · rw [hmoves.kind?, hk₂.kind?, if_neg hxm, hk₁.kind?, if_pos rfl]
  · have hchildren : d₃.children x = [m] := by
      rw [hmoves.children, if_pos rfl, insertSibling_none,
        filter_children_of_orphan hb₂.wellFormed hmroot, hk₂.children, hk₁.children,
        children_eq_nil_of_dead hx, List.nil_append]
    rw [hchildren]
    exact depicts_cons.mpr ⟨htext, depicts_nil d₃⟩

/-- A tree that stands beside a page becomes the last one in the head. -/
theorem IsPage.appendToHead (h : d.IsPage d.head) (hb : d.Beside d₁ [x])
    (hm : d₁.Moves d' d.head x none) (ht : d₁.shape? x = some t) {k : NodeKind}
    (hs : d.shape? d.head = some (.node default k ts)) :
    d'.shape? d.head = some (.node default k (ts ++ [t])) := by
  have hw := h.wellFormed
  obtain ⟨hdead, -, hroot⟩ := hb.root x List.mem_cons_self
  have htouch := hm.touches hb.wellFormed hroot
  have hnot : ¬ d₁.AtOrAbove x d.head := fun hx => by
    simp [hb.live_of_atOrAbove hw h.contains_head hx] at hdead
  obtain ⟨hk, hts⟩ := of_shape? hw hs
  have hbelow : ∀ c ∈ d.children d.head, d₁.shape? c = d.shape? c := fun c hc =>
    shape?_congr hw hb.wellFormed fun y hy =>
      have hylive := h.contains_of_atOrAbove_head (.tail hy ((hw.parent_iff c d.head).mpr hc))
      ⟨hb.kind? y hylive, hb.children y hylive⟩
  have hch : d₁.children d.head = d.children d.head := hb.children _ h.contains_head
  have hold : d'.Depicts (d.children d.head) ts :=
    htouch.depicts_children hb.wellFormed hm.wellFormed (fun c hc => hch ▸ hc) (hts.congr hbelow)
  have hnew : d'.Depicts [x] [t] :=
    depicts_cons.mpr ⟨(htouch.shape? hb.wellFormed hm.wellFormed hnot).trans ht, depicts_nil d'⟩
  refine shape?_of_depicts hm.wellFormed ?_ ?_
  · rw [hm.kind?, hb.kind? _ h.contains_head, hk]
  · rw [hm.children, if_pos rfl, insertSibling_none,
      filter_children_of_orphan hb.wellFormed hroot, hch]
    exact hold.append hnew

end CopyControl.Document

namespace CopyControl.Markdown

open Document Edit

variable {d d' d₁ : Document} {head x : NodeId} {t : Tree} {content ts : List Tree} {tag : String}

/-! ## §3 Filling the body -/

/-- A live root that is not the page's. -/
structure Spare (d : Document) (n : NodeId) : Prop where
  live : d.contains n
  top : d.parent? n = none
  apart : n ≠ d.root

theorem Spare.not_atOrAbove_body {n : NodeId} (hn : Spare d n) (hd : d.IsPage head) :
    ¬ d.AtOrAbove n d.body :=
  hd.not_atOrAbove_of_orphan hn.top hn.apart

/-- A root that stands beside the page becomes the last child of the body. -/
theorem appendToBody_spec (hd : d.IsPage head) {n : NodeId} (hn : Spare d n) :
    ∃ d', (appendChild d.body n).apply d = (.ok (), d') ∧ d.Moves d' d.body n none ∧
      d'.IsPage head ∧ d'.anchors = d.anchors := by
  have hw := hd.wellFormed
  have hbody : d.IsElement d.body := Option.isSome_of_mem (element?_eq_some_iff.mpr hd.body)
  obtain ⟨d', heq, hm⟩ :=
    insertBefore_moves hw (r := none) hbody hn.live (hn.not_atOrAbove_body hd) (by simp)
  have ha := (constructive_insertBefore d.body n none).onlyChanges.anchors_eq hw heq
  have hkind := congrFun hm.kind?
  refine ⟨d', heq, hm, hd.of_links hm.wellFormed (congrArg Prod.fst ha) (hkind _) ?_
    (hm.touches hw hn.top _ hd.root_ne_body).2 (hkind _) (fun x y hl hy => ?_)
    fun x _ => tag?_eq_of_kind? (hkind x), ha⟩
  · rw [hm.parent?, if_neg hn.apart.symm, hd.top]
  · rw [Link, hm.parent?] at hl
    split at hl
    · exact absurd ((Option.some.inj hl).symm ▸ hy) hd.not_atOrAbove_body
    · exact hl

/-- The body gets roots that stand beside the page, one after the other. The head is left alone. -/
theorem fillBody_spec (hd : d.IsPage head) {nodes : List NodeId} {ts us : List Tree}
    (hn : nodes.Nodup) (hspare : ∀ n ∈ nodes, Spare d n)
    (hts : d.Depicts (d.children d.body) ts) (hus : d.Depicts nodes us) :
    (fillBody nodes).Gives d fun _ d' => d'.IsPage head ∧ d'.anchors = d.anchors ∧
      d'.kind? = d.kind? ∧ d'.listeners = d.listeners ∧ d'.shape? head = d.shape? head ∧
      d'.Depicts (d'.children d'.body) (ts ++ us) := by
  induction nodes generalizing d ts us with
  | nil =>
    obtain rfl : us = [] := List.map_eq_nil_iff.mp hus.symm
    exact gives_pure ⟨hd, rfl, rfl, rfl, rfl, by rwa [List.append_nil]⟩
  | cons n nodes ih =>
    cases us with
    | nil => simp [Depicts] at hus
    | cons u us =>
      have hw := hd.wellFormed
      obtain ⟨hone, hspare⟩ := List.forall_mem_cons.mp hspare
      obtain ⟨hnn, hn⟩ := List.nodup_cons.mp hn
      obtain ⟨hu, hus⟩ := depicts_cons.mp hus
      obtain ⟨d₁, heq, hm, hd₁, ha⟩ := appendToBody_spec hd hone
      have ht := hm.touches hw hone.top
      have hb : d₁.body = d.body := congrArg (·.1.2) ha
      have hr : d₁.root = d.root := congrArg (·.1.1) ha
      have hchildren : d₁.children d₁.body = d.children d.body ++ [n] := by
        rw [hb, hm.children, if_pos rfl, insertSibling_none, filter_children_of_orphan hw hone.top]
      have hold : d₁.Depicts (d.children d.body) ts :=
        ht.depicts_children hw hm.wellFormed (fun _ => id) hts
      have hnew : d₁.Depicts [n] [u] := depicts_cons.mpr
        ⟨(ht.shape? hw hm.wellFormed (hone.not_atOrAbove_body hd)).trans hu, depicts_nil d₁⟩
      have hts₁ : d₁.Depicts (d₁.children d₁.body) (ts ++ [u]) := hchildren ▸ hold.append hnew
      have hus₁ : d₁.Depicts nodes us := hus.congr fun x hx =>
        ht.shape? hw hm.wellFormed ((hspare x hx).not_atOrAbove_body hd)
      have hspare₁ : ∀ x ∈ nodes, Spare d₁ x := fun x hx => by
        have hx' := hspare x hx
        refine ⟨(contains_eq_of_kind? (congrFun hm.kind? x)).trans hx'.live, ?_, hr ▸ hx'.apart⟩
        rw [hm.parent?, if_neg (ne_of_mem_of_not_mem hx hnn), hx'.top]
      refine Gives.bind (P := fun _ d' => d' = d₁) ⟨(), d₁, heq, rfl⟩ ?_
      rintro _ _ rfl
      refine (ih hd₁ hn hspare₁ hts₁ hus₁).imp ?_
      rintro _ d' ⟨hd', ha', hk', hl', hs', hts'⟩
      exact ⟨hd', ha'.trans ha, hk'.trans hm.kind?, hl'.trans hm.listeners,
        hs'.trans (ht.shape? hw hm.wellFormed hd.not_atOrAbove_body), by simpa using hts'⟩

/-! ## §4 Pages under construction -/

/-- A page on which nothing listens yet, with the given content. -/
structure Draft (d : Document) (content : List Tree) : Prop where
  page : d.IsPage d.head
  head : d.IsElement d.head
  body : d.shape? d.body = some (.node default (.element (.ofTag "body")) content)
  listeners : d.listeners = []

theorem noPre_new (x : NodeId) : new.tag? x ≠ some "pre" := by
  have hparts : ∀ tag ∈ ["html", "head", "body"], (Element.ofTag tag).tag ≠ "pre" := by
    decide +kernel
  rw [tag?, element?, kind?, node?_new]
  split_ifs
  all_goals simp [NodeKind.element?, hparts]

theorem draft_new : Draft new [] where
  page :=
    { wellFormed := wellFormed_new
      root := rfl
      top := rfl
      parts := rfl
      body := rfl
      noPre := fun x _ => noPre_new x }
  head := rfl
  body := (shape?_eq_leaf_iff wellFormed_new).mpr ⟨rfl, rfl⟩
  listeners := rfl

theorem Draft.adorns {content : List Tree} (h : Draft d content) (hadorns : d.Adorns d')
    (ha : d'.anchors = d.anchors) : Draft d' content := by
  obtain ⟨hpage, hshape⟩ := h.page.adorns hadorns ha
  have hh : d'.head = d.head := congrArg (·.2) ha
  refine ⟨hpage, ?_, hshape.trans h.body, hadorns.listeners.trans h.listeners⟩
  rw [IsElement, element?, hh, hadorns.kind? _ (contains_of_isElement h.head)]
  exact h.head

/-- The fragment is built beside an empty page and put into its body. -/
theorem Draft.fillWith (h : Draft d []) (events : List Event) :
    Gives (do fillBody (← buildFragment events)) d fun _ d' =>
      Draft d' (sketch events) ∧ d'.shape? d'.head = d.shape? d.head := by
  have hw := h.page.wellFormed
  obtain ⟨nodes, d₁, heq, hbeside, hsketch⟩ := buildFragment_sketch hw events
  have ha := (constructive_buildFragment events).onlyChanges.anchors_eq hw heq
  have hb : d₁.body = d.body := congrArg (·.1.2) ha
  have hr : d₁.root = d.root := congrArg (·.1.1) ha
  have hpage := h.page.beside hbeside (congrArg Prod.fst ha)
  have hspare : ∀ n ∈ nodes, Spare d₁ n := fun n hn => by
    obtain ⟨hdead, hlive, hroot⟩ := hbeside.root n hn
    refine ⟨hlive, hroot, fun hne => ?_⟩
    rw [hne, hr, contains_of_kind? h.page.root] at hdead
    simp at hdead
  have hempty : d₁.Depicts (d₁.children d₁.body) [] := by
    obtain ⟨hk, hc⟩ := (shape?_eq_leaf_iff hw).mp h.body
    rw [hb, hbeside.children _ (contains_of_kind? hk), hc]
    exact depicts_nil d₁
  have hbefore : d₁.shape? d.head = d.shape? d.head :=
    shape?_congr hw hbeside.wellFormed fun y hy =>
      have hlive := h.page.contains_of_atOrAbove_head hy
      ⟨hbeside.kind? y hlive, hbeside.children y hlive⟩
  refine Gives.bind (P := fun a d' => a = nodes ∧ d' = d₁) ⟨nodes, d₁, heq, rfl, rfl⟩ ?_
  rintro _ _ ⟨rfl, rfl⟩
  refine (fillBody_spec hpage hbeside.nodup hspare hempty hsketch).imp ?_
  rintro _ d₂ ⟨hpage₂, ha₂, hk₂, hl₂, hs₂, hts₂⟩
  have hh : d₂.head = d.head := congrArg (·.2) (ha₂.trans ha)
  refine ⟨⟨hh ▸ hpage₂, ?_, ?_, hl₂.trans (hbeside.listeners.trans h.listeners)⟩, ?_⟩
  · rw [IsElement, element?, hk₂, hh]
    exact hbeside.isElement h.head
  · exact shape?_of_depicts hpage₂.wellFormed hpage₂.body hts₂
  · rw [hh, hs₂, hbefore]

/-- A head with the given content. -/
def headTree (ts : List Tree) : Tree :=
  .node default (.element (.ofTag "head")) ts

/-- A page under construction whose head holds the given trees. -/
structure Headed (d : Document) (content ts : List Tree) : Prop extends Draft d content where
  shape : d.shape? d.head = some (headTree ts)

theorem headed_new : Headed new [] [] where
  toDraft := draft_new
  shape := (shape?_eq_leaf_iff wellFormed_new).mpr ⟨rfl, rfl⟩

/-- The head gets one more tree. -/
theorem Headed.add (h : Headed d content ts) (hb : d.Beside d₁ [x]) (ha : d₁.anchors = d.anchors)
    (ht : d₁.shape? x = some t) (hpre : ∀ k ∈ t.kinds, k.hasTag "pre" = false) :
    (appendChild d.head x).Gives d₁ fun _ d' => Headed d' content (ts ++ [t]) := by
  have hw := h.page.wellFormed
  obtain ⟨hdead, hlive, -⟩ := hb.root x List.mem_cons_self
  have hnot : ¬ d₁.AtOrAbove x d.head := fun hx => by
    simp [hb.live_of_atOrAbove hw h.page.contains_head hx] at hdead
  obtain ⟨d', heq, hm⟩ :=
    insertBefore_moves hb.wellFormed (r := none) (hb.isElement h.head) hlive hnot (by simp)
  have ha' := ((constructive_insertBefore d.head x none).onlyChanges.anchors_eq
    hb.wellFormed heq).trans ha
  have hh : d'.head = d.head := congrArg (·.2) ha'
  refine ⟨(), d', heq, h.toDraft.adorns (hb.adorns hm ht hpre) ha', ?_⟩
  rw [hh]
  exact h.page.appendToHead hb hm ht h.shape

theorem Headed.addToHead (h : Headed d content ts) (htag : (Element.ofTag tag).tag ≠ "pre")
    (attributes : List (String × String)) :
    (addToHead tag attributes).Gives d fun _ d' =>
      Headed d' content (ts ++ [leafTree tag attributes]) := by
  obtain ⟨x, d₁, d₂, heq₁, heq₂, ha, hb, ht⟩ :=
    leafTree_beside h.page.wellFormed tag attributes
  have hpre : ∀ k ∈ (leafTree tag attributes).kinds, k.hasTag "pre" = false := by
    simpa [leafTree, Tree.kinds, Tree.kindsOf, NodeKind.hasTag, NodeKind.element?,
      tag_withAttributes] using htag
  obtain ⟨u, d₃, heq₃, h₃⟩ := h.add hb ha ht hpre
  have hh : d₂.head = d.head := congrArg (·.2) ha
  refine ⟨u, d₃, ?_, h₃⟩
  rw [Markdown.addToHead, apply_bind_ok heq₁, apply_bind_ok heq₂, apply_get_bind, hh, heq₃]

theorem Headed.addTitle (h : Headed d content ts) :
    addTitle.Gives d fun _ d' =>
      Headed d' content (ts ++ d.headingText?.toList.map (textTree "title")) := by
  refine (gives_of_ok (apply_get d)).bind ?_
  rintro _ d ⟨rfl, rfl⟩
  rw [headingText?]
  split
  · rename_i heading hheading
    obtain ⟨x, m, d₁, d₂, heq₁, heq₂, ha, hb, ht⟩ :=
      textTree_beside h.page.wellFormed "title" (d.textContent heading)
    have hpre : ∀ k ∈ (textTree "title" (d.textContent heading)).kinds,
        k.hasTag "pre" = false := by
      have htag : (Element.ofTag "title").tag ≠ "pre" := by decide +kernel
      simpa [textTree, Tree.kinds, Tree.kindsOf, NodeKind.hasTag, NodeKind.element?] using htag
    obtain ⟨u, d₃, heq₃, h₃⟩ := h.add hb ha ht hpre
    refine ⟨u, d₃, ?_, ?_⟩
    · rw [apply_bind_ok heq₁, apply_bind_ok heq₂, heq₃]
    · rw [hheading]
      exact h₃
  · rename_i hnone
    rw [hnone]
    exact gives_pure (by simpa using h)

/-! ## §5 The whole page -/

/-- What stands in the head in front of the title. -/
def headLinks (options : PageOptions) : List Tree :=
  leafTree "meta" [("charset", "utf-8")] ::
    options.stylesheet.toList.map fun href =>
      leafTree "link" [("rel", "stylesheet"), ("href", href)]

/-- What the head of a page holds. -/
def headContent (options : PageOptions) (title : Option String) : List Tree :=
  headLinks options ++ title.toList.map (textTree "title")

/-- An element of another tag has the captions of what is below it. -/
theorem captions_of_ne {e : Element} (h : e.tag ≠ tag) (ts : List Tree) :
    (Tree.node default (.element e) ts).captions tag = Tree.captionsOf tag ts := by
  rw [Tree.captions_element, if_neg h, List.nil_append]

theorem captions_leafTree {name : String} (h : (Element.ofTag name).tag ≠ tag)
    (attributes : List (String × String)) : (leafTree name attributes).captions tag = [] := by
  refine captions_of_ne ?_ []
  rwa [tag_withAttributes]

theorem captionsOf_headLinks (hmeta : (Element.ofTag "meta").tag ≠ tag)
    (hlink : (Element.ofTag "link").tag ≠ tag) (options : PageOptions) :
    Tree.captionsOf tag (headLinks options) = [] := by
  rw [headLinks, Tree.captionsOf, captions_leafTree hmeta, List.nil_append]
  cases options.stylesheet with
  | none => rfl
  | some href =>
    show (leafTree "link" _).captions tag ++ [] = []
    rw [captions_leafTree hlink, List.append_nil]

theorem captions_textTree (name text : String) :
    (textTree name text).captions tag =
      if (Element.ofTag name).tag = tag then [text] else [] := by
  rw [textTree, Tree.captions_element]
  simp [Tree.textContent, Tree.textContents, Tree.captionsOf, Tree.captions, NodeKind.hasTag,
    NodeKind.element?]

/-- Of what the head holds only the title has a text. -/
theorem captionsOf_headContent (hmeta : (Element.ofTag "meta").tag ≠ tag)
    (hlink : (Element.ofTag "link").tag ≠ tag) (options : PageOptions) (title : Option String) :
    Tree.captionsOf tag (headContent options title) =
      if (Element.ofTag "title").tag = tag then title.toList else [] := by
  rw [headContent, Tree.captionsOf_append, captionsOf_headLinks hmeta hlink, List.nil_append]
  cases title with
  | none => simp [Tree.captionsOf]
  | some text => simp [Tree.captionsOf, captions_textTree]

theorem headings_headContent (options : PageOptions) (title : Option String) :
    Tree.captionsOf "h1" (headContent options title) = [] := by
  rw [captionsOf_headContent (by decide +kernel) (by decide +kernel), if_neg (by decide +kernel)]

/-- A page has the headings of its source, as long as its head has none. -/
theorem headingText?_of_shape? {head : NodeId} {events : List Event} (h : d.IsPage head)
    (hhead : d.shape? head = some (headTree ts)) (hts : Tree.captionsOf "h1" ts = [])
    (hbody : d.shape? d.body = some (.node default (.element (.ofTag "body")) (sketch events))) :
    d.headingText? = firstHeading? events := by
  rw [h.headingText?_eq hhead hbody, headTree, captions_of_ne (by decide +kernel),
    captions_of_ne (by decide +kernel), hts, List.nil_append]
  rfl

theorem titles_of_shape? (hw : d.WellFormed) {options : PageOptions} {title : Option String}
    (h : d.shape? d.head = some (headTree (headContent options title))) :
    d.titles = title.toList := by
  rw [titles, captions_eq hw h, headTree, captions_of_ne (by decide +kernel),
    captionsOf_headContent (by decide +kernel) (by decide +kernel), if_pos (by decide +kernel)]

/-- The body is filled, and then the title is taken from it. -/
theorem Headed.fill (h : Headed d [] ts) (events : List Event)
    (hts : Tree.captionsOf "h1" ts = []) :
    Gives (do fillBody (← buildFragment events); Markdown.addTitle) d fun _ d' =>
      Headed d' (sketch events) (ts ++ (firstHeading? events).toList.map (textTree "title")) := by
  have hfill : Gives ((do fillBody (← buildFragment events)) >>= fun _ => Markdown.addTitle) d
      fun _ d' =>
        Headed d' (sketch events) (ts ++ (firstHeading? events).toList.map (textTree "title")) := by
    refine (h.toDraft.fillWith events).bind ?_
    rintro _ d₁ ⟨hfilled, hsame⟩
    have hheaded : Headed d₁ (sketch events) ts := ⟨hfilled, hsame.trans h.shape⟩
    rw [← headingText?_of_shape? hheaded.page hheaded.shape hts hheaded.body]
    exact hheaded.addTitle
  rwa [bind_assoc] at hfill

/-- A page can be built from all events, and its head is known: the character set, the stylesheet,
if there is one, and the first heading as the title, if there is one. -/
theorem buildPage_headed (events : List Event) (options : PageOptions) :
    ∃ d, buildPage events options = .ok d ∧
      Headed d (sketch events) (headContent options (firstHeading? events)) := by
  have hgives : (fillPage events options).Gives .new fun _ d =>
      Headed d (sketch events) (headContent options (firstHeading? events)) := by
    have hlinks : Tree.captionsOf "h1" (headLinks options) = [] :=
      captionsOf_headLinks (by decide +kernel) (by decide +kernel) options
    refine (headed_new.addToHead (by decide +kernel) _).bind fun _ d₁ h₁ => ?_
    rcases options with ⟨_ | href⟩
    · exact h₁.fill events hlinks
    · exact (h₁.addToHead (by decide +kernel) _).bind fun _ d₂ h₂ => h₂.fill events hlinks
  obtain ⟨_, d, heq, h⟩ := hgives
  refine ⟨d, ?_, h⟩
  rw [buildPage, heq]

/-- The title of a page that is built is its first heading, and that is the first of the source. -/
theorem titles_buildPage {events : List Event} {options : PageOptions}
    (hd : buildPage events options = .ok d) :
    d.titles = d.headingText?.toList ∧ d.headingText? = firstHeading? events := by
  obtain ⟨d', hd', h⟩ := buildPage_headed events options
  obtain rfl := Except.ok.inj (hd.symm.trans hd')
  have hheading := headingText?_of_shape? h.page h.shape (headings_headContent _ _) h.body
  exact ⟨hheading ▸ titles_of_shape? h.page.wellFormed h.shape, hheading⟩

/-- A fresh page can be built from all events. Its body looks as they do, and nothing on it listens
yet. -/
theorem buildPage_spec (events : List Event) (options : PageOptions) :
    ∃ d, buildPage events options = .ok d ∧ Draft d (sketch events) := by
  obtain ⟨d, heq, h⟩ := buildPage_headed events options
  exact ⟨d, heq, h.toDraft⟩

end CopyControl.Markdown
