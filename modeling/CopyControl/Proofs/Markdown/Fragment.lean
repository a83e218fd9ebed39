import CopyControl.Markdown.Page
import CopyControl.Proofs.Document.Listeners
import CopyControl.Proofs.Document.Steps
import CopyControl.Proofs.Document.Works
import CopyControl.Proofs.Markdown.Sketch

/-!
What building from Markdown does to a document.

Whatever the events are, and however badly they are nested, the builder only adds to a document and
looks at no text (`constructive_buildFragment`). It does not fail either: all that it puts anywhere
is a root it has just made, and it puts it into another tree that it grows beside the document. The
trees look as the sketch of the events does, whichever document they are built in
(`buildFragment_sketch`).

* §1 only additions
* §2 nodes that are not placed yet
* §3 building a fragment
* §4 a new body
-/

namespace CopyControl.Markdown

open CopyControl.Document

/-! ## §1 Only additions -/

namespace Builder

theorem constructive_place (b : Builder) (node : NodeId) : Constructive (b.place node) := by
  unfold place
  split
  · exact (constructive_insertBefore _ _ _).bind fun _ => constructive_pure _
  · exact constructive_pure _

theorem constructive_push (b : Builder) (element : NodeId) : Constructive (b.push element) :=
  (b.constructive_place element).bind fun _ => constructive_pure _

theorem constructive_openElement (b : Builder) (tag : String) : Constructive (b.openElement tag) :=
  (constructive_createElement tag).bind fun _ => constructive_push _ _

theorem constructive_setTitle (element : NodeId) (title : String) :
    Constructive (setTitle element title) :=
  constructive_ite (constructive_pure _) (constructive_setAttribute _ _ _)

theorem constructive_openTag (b : Builder) (tag : Tag) : Constructive (b.openTag tag) := by
  have single : ∀ name, Constructive (do return (← b.openElement name, 1)) := fun name =>
    (b.constructive_openElement name).bind fun _ => constructive_pure _
  have last : ∀ (b : Builder) (element : NodeId) (n : Nat),
      Constructive (do return (← b.push element, n)) := fun b element n =>
    (b.constructive_push element).bind fun _ => constructive_pure _
  cases tag with
  | codeBlock info =>
    refine (b.constructive_openElement "pre").bind fun b => ?_
    refine (constructive_createElement "code").bind fun code => ?_
    cases languageClass? info with
    | some c => exact (constructive_addClass code c).bind fun _ => last b code 2
    | none => exact last b code 2
  | list start =>
    cases start with
    | none => exact single "ul"
    | some n =>
      refine (constructive_createElement "ol").bind fun list => ?_
      exact constructive_ite ((constructive_setAttribute _ _ _).bind fun _ => last b list 1)
        (last b list 1)
  | link destination title =>
    refine (constructive_createElement "a").bind fun link => ?_
    refine (constructive_setAttribute _ _ _).bind fun _ => ?_
    exact (constructive_setTitle link title).bind fun _ => last b link 1
  | image destination title =>
    refine (constructive_createElement "img").bind fun image => ?_
    refine (constructive_setAttribute _ _ _).bind fun _ => ?_
    refine (constructive_setAttribute _ _ _).bind fun _ => ?_
    exact (constructive_setTitle image title).bind fun _ => last b image 1
  | tableHead =>
    refine (constructive_openElement _ "thead").bind fun b => ?_
    exact (b.constructive_openElement "tr").bind fun _ => constructive_pure _
  | htmlBlock => exact constructive_pure _
  | _ => exact single _

theorem constructive_addText (b : Builder) (s : String) : Constructive (b.addText s) := by
  refine .read (fun d => ?_) fun S d => by simp [currentImage?]
  split
  · exact (constructive_setAttribute _ _ _).bind fun _ => constructive_pure _
  · exact (constructive_createText s).bind fun _ => constructive_place _ _

theorem constructive_createCheckbox (checked : Bool) : Constructive (createCheckbox checked) := by
  refine (constructive_createElement "input").bind fun input => ?_
  refine (constructive_setAttribute _ _ _).bind fun _ => ?_
  refine (constructive_setAttribute _ _ _).bind fun _ => ?_
  exact constructive_ite ((constructive_setAttribute _ _ _).bind fun _ => constructive_pure _)
    (constructive_pure _)

theorem constructive_handle (b : Builder) (e : Event) : Constructive (b.handle e) := by
  cases e with
  | start tag => exact (b.constructive_openTag tag).bind fun _ => constructive_pure _
  | stop tag => exact constructive_pure _
  | text s => exact b.constructive_addText s
  | code s =>
    refine (constructive_createElement "code").bind fun code => ?_
    exact (constructive_appendText code s).bind fun _ => b.constructive_place code
  | html markup | inlineHtml markup =>
    exact (constructive_createRaw markup).bind fun _ => b.constructive_place _
  | softBreak => exact (constructive_createText _).bind fun _ => b.constructive_place _
  | hardBreak | rule => exact (constructive_createElement _).bind fun _ => b.constructive_place _
  | taskMarker checked =>
    exact (constructive_createCheckbox checked).bind fun _ => b.constructive_place _
  | unsupported => exact constructive_pure _

theorem constructive_handleAll (b : Builder) (events : List Event) :
    Constructive (b.handleAll events) := by
  induction events generalizing b with
  | nil => exact constructive_pure _
  | cons e events ih =>
    rw [handleAll, List.foldlM_cons]
    exact (b.constructive_handle e).bind ih

end Builder

theorem constructive_buildFragment (events : List Event) : Constructive (buildFragment events) :=
  (Builder.start.constructive_handleAll events).bind fun _ => constructive_pure _

theorem onlyChanges_replaceBody (events : List Event) : OnlyChanges (replaceBody events) :=
  (constructive_buildFragment events).onlyChanges.bind fun nodes => onlyChanges_get.bind fun d =>
    (onlyChanges_replaceChildren d.body nodes).bind fun _ => onlyChanges_pure _

/-! ## §2 Nodes that are not placed yet -/

namespace Builder

open Edit

variable {d d' d'' : Document} {b : Builder} {s : Sketch} {n : NodeId} {ps : List NodeId}
  {e : Element} {t : Tree}

/-- The builder has grown trees beside `d`, and they look as in the sketch. The roots `ps` are not
placed yet. -/
structure Grown (b : Builder) (s : Sketch) (d d' : Document) (ps : List NodeId) : Prop where
  beside : d.Beside d' (ps ++ b.topLevel)
  draws : b.Draws s d' []

/-- The builder has made a tree and not placed it yet. -/
structure Holds (b : Builder) (s : Sketch) (d d' : Document) (n : NodeId) (t : Tree) : Prop where
  grown : b.Grown s d d' [n]
  shape : d'.shape? n = some t

/-- An element that has nothing in it. -/
abbrev Empty (e : Element) : Tree :=
  .node default (.element e) []

theorem Grown.open_in (hg : b.Grown s d d' ps) {x : NodeId} (hx : x ∈ b.stack) :
    d'.IsElement x ∧ ∃ t ∈ b.topLevel, d'.AtOrAbove t x :=
  hg.draws.trace.open_in hg.beside.wellFormed x hx

theorem Grown.open_new (hg : b.Grown s d d' ps) (hw : d.WellFormed) {x : NodeId}
    (hx : x ∈ b.stack) : d.contains x = false := by
  obtain ⟨-, t, ht, htx⟩ := hg.open_in hx
  exact hg.beside.dead_of_atOrAbove hw (List.mem_append_right _ ht) htx

/-- A root that is not placed is not at the top level. -/
theorem Grown.not_placed (hg : b.Grown s d d' (n :: ps)) : n ∉ b.topLevel := fun hn =>
  (List.nodup_cons.mp hg.beside.nodup).1 (List.mem_append_right _ hn)

theorem Grown.touch {ps' : List NodeId} (hg : b.Grown s d d' ps)
    (hb : d.Beside d'' (ps' ++ b.topLevel)) (ht : d'.Touches d'' n) (hn : d'.parent? n = none)
    (hnt : n ∉ b.topLevel) : b.Grown s d d'' ps' where
  beside := hb
  draws := { hg.draws with
    trace := hg.draws.trace.touch hg.beside.wellFormed hb.wellFormed ht hn hnt }

/-- A new node is one more root, and does not show in any other shape. -/
theorem Grown.add (hg : b.Grown s d d' ps) {k : NodeKind} (hk : d'.SetsKind d'' n k)
    (hn : d'.contains n = false) :
    b.Grown s d d'' (n :: ps) ∧ d''.shape? n = some (.node default k []) ∧
      ∀ x, d'.contains x → d''.shape? x = d'.shape? x := by
  have hroot := parent?_eq_none_of_dead hn
  refine ⟨hg.touch (hg.beside.add hk hn) hk.touches hroot fun hnt => ?_,
    (shape?_eq_leaf_iff hk.wellFormed).mpr ⟨?_, ?_⟩, fun x hx => ?_⟩
  · simp [(hg.beside.root n (List.mem_append_right _ hnt)).2.1] at hn
  · rw [hk.kind?, if_pos rfl]
  · rw [hk.children, children_eq_nil_of_dead hn]
  · exact hk.touches.shape? hg.beside.wellFormed hk.wellFormed fun ha =>
      ne_of_live_of_dead hx hn (eq_of_atOrAbove_of_parent?_none ha hroot)

theorem Grown.createElement (hg : b.Grown s d d' []) (tag : String) :
    (createElement tag).Gives d' fun n d'' => b.Holds s d d'' n (Empty (.ofTag tag)) := by
  obtain ⟨n, d'', heq, hn, hk⟩ := createElement_setsKind hg.beside.wellFormed tag
  obtain ⟨hg', hs, -⟩ := hg.add hk hn
  exact ⟨n, d'', heq, hg', hs⟩

theorem Grown.createText (hg : b.Grown s d d' []) (text : String) :
    (createText text).Gives d' fun n d'' => b.Holds s d d'' n (.node default (.text text) []) := by
  have hw := hg.beside.wellFormed
  obtain ⟨hg', hs, -⟩ :=
    hg.add (setsKind_createNode hw (k := .text text) (by simp)) (contains_createNode_fst hw.free _)
  exact ⟨_, _, rfl, hg', hs⟩

theorem Grown.createRaw (hg : b.Grown s d d' []) (markup : String) :
    (createRaw markup).Gives d' fun n d'' =>
      b.Holds s d d'' n (.node default (.raw markup) []) := by
  have hw := hg.beside.wellFormed
  obtain ⟨hg', hs, -⟩ :=
    hg.add (setsKind_createNode hw (k := .raw markup) (by simp)) (contains_createNode_fst hw.free _)
  exact ⟨_, _, rfl, hg', hs⟩

/-- A root is put below a new element that is not below it. -/
theorem Grown.appendChild {p c : NodeId} (hg : b.Grown s d d' (c :: ps)) (hw : d.WellFormed)
    (hp : d'.IsElement p) (hpn : d.contains p = false) (hcp : ¬ d'.AtOrAbove c p) :
    (appendChild p c).Gives d' fun _ d'' =>
      d.Beside d'' (ps ++ b.topLevel) ∧ d'.Moves d'' p c none ∧ d'.Touches d'' p := by
  have hc : c ∈ c :: ps ++ b.topLevel := List.mem_cons_self
  have hw' := hg.beside.wellFormed
  obtain ⟨-, hlive, hroot⟩ := hg.beside.root c hc
  obtain ⟨d'', heq, hm⟩ := insertBefore_moves hw' (r := none) hp hlive hcp (by simp)
  refine ⟨(), d'', heq, ?_, hm, hm.touches hw' hroot⟩
  have := hg.beside.move hw hm hc (contains_of_isElement hp) hpn hcp
  rwa [List.cons_append, List.erase_cons_head] at this

theorem Holds.new (hh : b.Holds s d d' n t) : d.contains n = false :=
  (hh.grown.beside.root n List.mem_cons_self).1

theorem Holds.root (hh : b.Holds s d d' n t) : d'.parent? n = none :=
  (hh.grown.beside.root n List.mem_cons_self).2.2

theorem Holds.element (hh : b.Holds s d d' n (Empty e)) : d'.element? n = some e :=
  element?_eq_some_iff.mpr (of_shape? hh.grown.beside.wellFormed hh.shape).1

/-- A new element gets other data. -/
theorem Holds.updateElement (hh : b.Holds s d d' n (Empty e)) {f : Element → Element}
    (hf : e.NoRepeats → (f e).NoRepeats) :
    (updateElement n f).Gives d' fun _ d'' => b.Holds s d d'' n (Empty (f e)) := by
  have hw' := hh.grown.beside.wellFormed
  obtain ⟨-, hnil⟩ := (shape?_eq_leaf_iff hw').mp hh.shape
  obtain ⟨d'', heq, hk⟩ := updateElement_setsKind hw' hh.element hf
  refine ⟨(), d'', heq, ?_, (shape?_eq_leaf_iff hk.wellFormed).mpr ⟨?_, ?_⟩⟩
  · exact hh.grown.touch (hh.grown.beside.set hk hh.new (contains_of_element? hh.element))
      hk.touches hh.root hh.grown.not_placed
  · rw [hk.kind?, if_pos rfl]
  · rw [hk.children, hnil]

theorem Holds.addClass (hh : b.Holds s d d' n (Empty e)) (c : String) :
    (addClass n c).Gives d' fun _ d'' => b.Holds s d d'' n (Empty (e.addClass c)) :=
  hh.updateElement fun he => Element.noRepeats_addClass he c

theorem Holds.setAttribute (hh : b.Holds s d d' n (Empty e)) (name value : String) :
    (setAttribute n name value).Gives d' fun _ d'' =>
      b.Holds s d d'' n (Empty (e.setAttribute name value)) :=
  hh.updateElement fun he => Element.noRepeats_setAttribute he name value

theorem Holds.setTitle (hh : b.Holds s d d' n (Empty e)) (title : String) :
    (setTitle n title).Gives d' fun _ d'' => b.Holds s d d'' n (Empty (titled title e)) := by
  unfold Builder.setTitle titled
  split
  · exact gives_pure hh
  · exact hh.setAttribute "title" title

theorem Holds.appendText (hh : b.Holds s d d' n (Empty e)) (hw : d.WellFormed) (text : String) :
    (appendText n text).Gives d' fun _ d'' =>
      b.Holds s d d'' n (.node default (.element e) [.node default (.text text) []]) := by
  have hel : d'.IsElement n := Option.isSome_of_mem hh.element
  obtain ⟨m, d₁, d₂, heq, hdead, hset, hmove⟩ :=
    appendText_steps hh.grown.beside.wellFormed hel text
  obtain ⟨hg, hm, hrest⟩ := hh.grown.add hset hdead
  have hw₁ := hset.wellFormed
  obtain ⟨-, -, hroot⟩ := hg.beside.root n (by simp)
  obtain ⟨hk, hc⟩ :=
    (shape?_eq_leaf_iff hw₁).mp ((hrest n (contains_of_isElement hel)).trans hh.shape)
  have hmn : m ≠ n := fun h => by simp [h, contains_of_isElement hel] at hdead
  have hnot : ¬ d₁.AtOrAbove m n := fun h => hmn (eq_of_atOrAbove_of_parent?_none h hroot)
  have ht := hmove.touches hw₁ (hg.beside.root m List.mem_cons_self).2.2
  have hb := hg.beside.move hw hmove List.mem_cons_self (contains_of_kind? hk) hh.new hnot
  rw [List.cons_append, List.erase_cons_head] at hb
  refine ⟨m, d₂, heq, hg.touch hb ht hroot hh.grown.not_placed, ?_⟩
  refine shape?_of_depicts hb.wellFormed (by rw [hmove.kind?, hk]) ?_
  rw [hmove.children, if_pos rfl, hc]
  exact depicts_cons.mpr ⟨(ht.shape? hw₁ hb.wellFormed hnot).trans hm, depicts_nil d₂⟩

/-- A node that is not placed yet is put where it belongs. -/
theorem Holds.settle (hh : b.Holds s d d' n t) (hw : d.WellFormed) :
    (b.place n).Gives d' fun b' d'' =>
      d.Beside d'' b'.topLevel ∧ b'.Draws s d'' [n] ∧ d''.shape? n = some t := by
  obtain ⟨trace, hopened, hhead⟩ := hh.grown.draws
  obtain ⟨fs, _, drawn, _⟩ := s
  have hopen := fun {x} => hh.grown.open_in (x := x)
  have hnew := fun {x} => hh.grown.open_new hw (x := x)
  unfold Builder.place
  cases hs : b.stack with
  | nil =>
    rw [hs] at trace
    refine gives_pure ⟨hh.grown.beside, ⟨?_, hopened, hhead⟩, hh.shape⟩
    cases trace with
    | top htop hd => exact .top (congrArg (n :: ·) htop) hd
  | cons p rest =>
    have hp : p ∈ b.stack := by simp [hs]
    obtain ⟨hpe, u, hu, hup⟩ := hopen hp
    have hnp : ¬ d'.AtOrAbove n p := fun h => by
      have heq :=
        hh.grown.beside.eq_of_atOrAbove List.mem_cons_self (List.mem_cons_of_mem _ hu) h hup
      exact hh.grown.not_placed (heq ▸ hu)
    refine (hh.grown.appendChild hw hpe (hnew hp) hnp).bind fun _ d'' ⟨hb, hmove, ht⟩ => ?_
    have hw' := hh.grown.beside.wellFormed
    refine gives_pure ⟨hb, ⟨?_, hopened, hhead⟩, (ht.shape? hw' hb.wellFormed hnp).trans hh.shape⟩
    rw [hs] at trace ⊢
    cases fs with
    | nil => cases trace
    | cons f fs =>
      refine trace.touch_innermost hw' hb.wellFormed ht (fun t ht => ?_) ?_ ?_ rfl ?_
      · exact (hh.grown.beside.root t (List.mem_cons_of_mem _ ht)).2.2
      · exact (List.nodup_cons.mp hh.grown.beside.nodup).2
      · rw [element?, hmove.kind?]
        exact trace.element
      · rw [hmove.children, if_pos rfl, filter_children_of_orphan hw' hh.root, insertSibling_none]
        rfl

theorem Holds.place (hh : b.Holds s d d' n t) (hw : d.WellFormed) :
    (b.place n).Gives d' fun b' d'' => b'.Grown (s.place t) d d'' [] :=
  (hh.settle hw).imp fun _ _ ⟨hb, hd, hn⟩ => ⟨hb, hd.place hn⟩

theorem Holds.push (hh : b.Holds s d d' n (Empty e)) (hw : d.WellFormed) :
    (b.push n).Gives d' fun b' d'' => b'.Grown (s.push e) d d'' [] :=
  (hh.settle hw).bind fun _ _ ⟨hb, hd, hn⟩ => gives_pure ⟨hb, hd.push hb.wellFormed hn⟩

theorem Grown.openElement (hg : b.Grown s d d' []) (hw : d.WellFormed) (tag : String) :
    (b.openElement tag).Gives d' fun b' d'' => b'.Grown (s.push (.ofTag tag)) d d'' [] :=
  (hg.createElement tag).bind fun _ _ hh => hh.push hw

/-! ## §3 Building a fragment -/

theorem Grown.openTag (hg : b.Grown s d d' []) (hw : d.WellFormed) (tag : Tag) :
    (b.openTag tag).Gives d' fun r d'' =>
      r.1.Grown (s.enter tag) d d'' [] ∧ r.2 = (tag.elements s.inTableHead).length := by
  have single : ∀ name, Gives (do return (← b.openElement name, 1)) d'
      fun r d'' => r.1.Grown (s.push (.ofTag name)) d d'' [] ∧ r.2 = 1 := fun name =>
    (hg.openElement hw name).bind fun _ _ hg => gives_pure ⟨hg, rfl⟩
  have last : ∀ {b : Builder} {s : Sketch} {d' : Document} {x : NodeId} {e : Element} (n : Nat),
      b.Holds s d d' x (Empty e) → Gives (do return (← b.push x, n)) d'
        fun r d'' => r.1.Grown (s.push e) d d'' [] ∧ r.2 = n := fun n hh =>
    (hh.push hw).bind fun _ _ hg => gives_pure ⟨hg, rfl⟩
  cases tag with
  | codeBlock info =>
    refine (hg.openElement hw "pre").bind fun b d₁ hg => ?_
    refine (hg.createElement "code").bind fun code d₂ hh => ?_
    simp only [Sketch.enter, Tag.elements, codeElement]
    cases languageClass? info with
    | some c => exact (hh.addClass c).bind fun _ _ hh => last 2 hh
    | none => exact last 2 hh
  | list start =>
    cases start with
    | none => exact single "ul"
    | some n =>
      refine (hg.createElement "ol").bind fun list d₁ hh => ?_
      simp only [Sketch.enter, Tag.elements, orderedElement]
      split
      · exact (hh.setAttribute _ _).bind fun _ _ hh => last 1 hh
      · exact last 1 hh
  | link destination title =>
    refine (hg.createElement "a").bind fun link d₁ hh => ?_
    refine (hh.setAttribute _ _).bind fun _ _ hh => ?_
    exact (hh.setTitle title).bind fun _ _ hh => last 1 hh
  | image destination title =>
    refine (hg.createElement "img").bind fun image d₁ hh => ?_
    refine (hh.setAttribute _ _).bind fun _ _ hh => ?_
    refine (hh.setAttribute _ _).bind fun _ _ hh => ?_
    exact (hh.setTitle title).bind fun _ _ hh => last 1 hh
  | tableHead =>
    have hg' : Grown { b with inTableHead := true } { s with inTableHead := true } d d' [] :=
      ⟨hg.beside, hg.draws.trace, hg.draws.opened, rfl⟩
    refine (hg'.openElement hw "thead").bind fun b d₁ hg => ?_
    exact (hg.openElement hw "tr").bind fun _ _ hg => gives_pure ⟨hg, rfl⟩
  | htmlBlock => exact gives_pure ⟨hg, rfl⟩
  | tableCell =>
    unfold Builder.openTag
    rw [hg.draws.inTableHead]
    exact single _
  | _ => exact single _

/-- The innermost open element gets other data. -/
theorem Grown.updateInnermost {x : NodeId} {stack top : List NodeId} {opened opened' : List Nat}
    {f : OpenElement} {fs : List OpenElement} {drawn : List Tree} {head head' : Bool}
    (hg : Grown ⟨x :: stack, opened, top, head⟩ ⟨f :: fs, opened', drawn, head'⟩ d d' [])
    (hw : d.WellFormed) {g : Element → Element}
    (hr : ∀ e : Element, e.NoRepeats → (g e).NoRepeats) :
    (updateElement x g).Gives d' fun _ d'' => Grown ⟨x :: stack, opened, top, head⟩
      ⟨{ f with element := g f.element } :: fs, opened', drawn, head'⟩ d d'' [] := by
  obtain ⟨trace, hopened, hhead⟩ := hg.draws
  have hw' := hg.beside.wellFormed
  obtain ⟨d'', heq, hk⟩ := updateElement_setsKind hw' trace.element (hr f.element)
  have hb := hg.beside.set hk (hg.open_new hw List.mem_cons_self)
    (contains_of_element? trace.element)
  refine ⟨(), d'', heq, hb, ?_, hopened, hhead⟩
  refine Trace.touch_innermost (f := f) hw' hk.wellFormed hk.touches (fun t ht => ?_)
    hg.beside.nodup hk.element? rfl ?_ trace
  · exact (hg.beside.root t ht).2.2
  · rw [hk.children, List.reverse_nil, List.append_nil]

/-- Text is added to an open image, or is a node of its own. -/
theorem Grown.addText (hg : b.Grown s d d' []) (hw : d.WellFormed) (text : String) :
    (b.addText text).Gives d' fun b' d'' => b'.Grown (s.addText text) d d'' [] := by
  have place : Gives (do b.place (← Document.createText text)) d' fun b' d'' =>
      b'.Grown (s.place (.node default (.text text) [])) d d'' [] :=
    (hg.createText text).bind fun _ _ hh => hh.place hw
  obtain ⟨stack, opened, top, head⟩ := b
  obtain ⟨fs, opened', drawn, head'⟩ := s
  refine (gives_of_ok (apply_get d')).bind ?_
  rintro d₀ d₁ ⟨h₀, h₁⟩
  rw [h₀, h₁]
  have trace := hg.draws.trace
  cases trace with
  | top htop hd => exact place
  | @up _ cs stack x f fs he hc hd rest =>
    have hcurrent : currentImage? ⟨x :: stack, opened, top, head⟩ d' =
        if f.element.tag = "img" then some x else none := by
      simp [currentImage?, tag?, he, Option.filter]
    unfold Sketch.addText
    by_cases himg : f.element.tag = "img"
    · have halt : d'.attribute? x "alt" = f.element.attribute? "alt" := by
        rw [attribute?, he, Option.bind_some]
      simp only [hcurrent, if_pos himg, halt]
      exact (hg.updateInnermost hw (g := (·.setAttribute "alt" _))
        fun e he => Element.noRepeats_setAttribute he "alt" _).bind fun _ _ hg => gives_pure hg
    · simp only [hcurrent, if_neg himg]
      exact place

theorem Grown.createCheckbox (hg : b.Grown s d d' []) (checked : Bool) :
    (createCheckbox checked).Gives d' fun n d'' =>
      b.Holds s d d'' n (Empty (checkboxElement checked)) := by
  refine (hg.createElement "input").bind fun input d₁ hh => ?_
  refine (hh.setAttribute _ _).bind fun _ _ hh => ?_
  refine (hh.setAttribute _ _).bind fun _ _ hh => ?_
  cases checked with
  | true => exact (hh.setAttribute _ _).bind fun _ _ hh => gives_pure hh
  | false => exact gives_pure hh

theorem Grown.close (hg : b.Grown s d d' []) : b.close.Grown s.close d d' [] :=
  ⟨hg.beside, hg.draws.close hg.beside.wellFormed⟩

/-- No event makes the builder fail, and each does what the sketch says. -/
theorem Grown.handle (hg : b.Grown s d d' []) (hw : d.WellFormed) (e : Event) :
    (b.handle e).Gives d' fun b' d'' => b'.Grown (s.handle e) d d'' [] := by
  cases e with
  | start tag =>
    refine (hg.openTag hw tag).bind fun r d'' ⟨hg', hn⟩ => gives_pure ⟨hg'.beside, ?_⟩
    exact { hg'.draws with opened := congrArg₂ List.cons hn hg'.draws.opened }
  | stop tag =>
    have hg' : Grown { b with inTableHead := b.inTableHead && tag != .tableHead }
        { s with inTableHead := s.inTableHead && tag != .tableHead } d d' [] :=
      ⟨hg.beside, hg.draws.trace, hg.draws.opened, by rw [hg.draws.inTableHead]⟩
    exact gives_pure hg'.close
  | text text => exact hg.addText hw text
  | code text =>
    refine (hg.createElement "code").bind fun code _ hh => ?_
    exact (hh.appendText hw text).bind fun _ _ hh => hh.place hw
  | html markup | inlineHtml markup => exact (hg.createRaw markup).bind fun _ _ hh => hh.place hw
  | softBreak => exact (hg.createText _).bind fun _ _ hh => hh.place hw
  | hardBreak | rule => exact (hg.createElement _).bind fun _ _ hh => hh.place hw
  | taskMarker checked => exact (hg.createCheckbox checked).bind fun _ _ hh => hh.place hw
  | unsupported => exact gives_pure hg

theorem Grown.handleAll (hg : b.Grown s d d' []) (hw : d.WellFormed) (events : List Event) :
    (b.handleAll events).Gives d' fun b' d'' =>
      b'.Grown (events.foldl Sketch.handle s) d d'' [] := by
  induction events generalizing b s d' with
  | nil => exact gives_pure hg
  | cons e events ih =>
    rw [Builder.handleAll, List.foldlM_cons]
    exact (hg.handle hw e).bind fun _ _ hg => ih hg

end Builder

/-- Whatever the events are, the fragment is built, beside what there was, and looks as in the
sketch. -/
theorem buildFragment_sketch {d : Document} (hw : d.WellFormed) (events : List Event) :
    (buildFragment events).Gives d fun nodes d' =>
      d.Beside d' nodes ∧ d'.Depicts nodes (sketch events) := by
  have hg : Builder.start.Grown .start d d [] := ⟨.refl hw, Builder.draws_start d⟩
  exact (hg.handleAll hw events).bind fun _ _ hg =>
    Edit.gives_pure ⟨hg.beside.reverse, hg.draws.finish hg.beside.wellFormed⟩

/-! ## §4 A new body -/

section replaceBody
variable {d : Document} (hw : d.WellFormed) (events : List Event)
include hw

/-- A new body is built beside the document and then put in place, unless it cannot be. -/
theorem replaceBody_spec :
    ∃ nodes d₁, d.Beside d₁ nodes ∧ d₁.Depicts nodes (sketch events) ∧ d₁.landmarks = d.landmarks ∧
      (((d₁.IsElement d.body ∧ ∀ c ∈ nodes, d₁.MayHold d.body c) ∧
          (replaceBody events).apply d = (.ok nodes.length, d₁.swapChildren d.body nodes)) ∨
        (¬ d.IsElement d.body ∧ ((replaceBody events).apply d).2 = d₁)) := by
  obtain ⟨nodes, d₁, heq, hbeside, hsketch⟩ := buildFragment_sketch hw events
  have hmarks : d₁.landmarks = d.landmarks := by
    have := ((constructive_buildFragment events).onlyChanges d hw).landmarks_eq
    rwa [heq] at this
  have hbody : d₁.body = d.body := congrArg Prod.snd hmarks
  refine ⟨nodes, d₁, hbeside, hsketch, hmarks, ?_⟩
  rw [replaceBody, Edit.apply_bind_ok heq, Edit.apply_get_bind, hbody]
  by_cases h : d₁.IsElement d.body ∧ ∀ c ∈ nodes, d₁.MayHold d.body c
  · rw [Edit.apply_bind_ok (replaceChildren_ok h.1 h.2)]
    exact .inl ⟨h, rfl⟩
  · obtain ⟨x, hx⟩ := (replaceChildren_fails h).bind fun _ => pure nodes.length
    rw [hx]
    refine .inr ⟨fun hel => h ?_, rfl⟩
    exact ⟨hbeside.isElement hel, fun c hc => hbeside.mayHold hw (contains_of_isElement hel) hc⟩

theorem keepsListeners_replaceBody :
    d.KeepsListeners ((replaceBody events).apply d).2 := by
  obtain ⟨nodes, d₁, hbeside, -, -, ⟨⟨hb, hcs⟩, heq⟩ | ⟨-, heq⟩⟩ := replaceBody_spec hw events
  · rw [heq, KeepsListeners, ← hbeside.listeners]
    exact keepsListeners_swapChildren hbeside.wellFormed hb hcs
  · rw [heq]
    exact keepsListeners_of_eq hbeside.wellFormed hbeside.listeners

/-- What is still there, and was not directly inside the body, is still where it was. -/
theorem parent?_replaceBody {x p : NodeId} (hx : d.parent? x = some p) (hp : p ≠ d.body)
    (hlive : ((replaceBody events).apply d).2.contains x) :
    ((replaceBody events).apply d).2.parent? x = some p := by
  obtain ⟨nodes, d₁, hbeside, -, -, h⟩ := replaceBody_spec hw events
  have hxd := contains_of_parent? hx
  have hx₁ : d₁.parent? x = some p := (hbeside.parent? x hxd).trans hx
  rcases h with ⟨⟨hb, hcs⟩, heq⟩ | ⟨-, heq⟩
  · rw [heq] at hlive ⊢
    have hfree := (swapChildren_spec hbeside.wellFormed hb hcs).2
    have hnew : x ∉ nodes := fun hm => by simp [(hbeside.root x hm).1] at hxd
    have hold : x ∉ d₁.children d.body := fun hm =>
      hp (Option.some.inj (hx₁.symm.trans ((hbeside.wellFormed.parent_iff x d.body).mpr hm)))
    rw [Document.parent?, hfree.node? hlive, ← Document.parent?,
      parent?_regrouped fun c hc => (hcs c hc).1, if_neg hnew, if_neg hold, hx₁]
  · rw [heq, hx₁]

end replaceBody

end CopyControl.Markdown
