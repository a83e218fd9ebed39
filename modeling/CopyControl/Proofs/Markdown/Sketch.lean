import CopyControl.Markdown.Fragment
import CopyControl.Proofs.Document.Shape

/-!
What events build, drawn without a document.

A sketch has what a builder has, with trees in place of handles: the elements that are open, each
with what is in it so far, and the trees of the top level that are finished. Where the builder makes
nodes and puts them below others, the sketch adds to the innermost open element, and an element
becomes a tree when it is closed. `Draws` says that a builder and a sketch have come to the same. A
change of a node outside of the trees does not matter to it (`Trace.touch`), and one of the
innermost open element shows there only (`Trace.touch_innermost`).

* §1 the elements of a container
* §2 sketches
* §3 the way up from the innermost element
* §4 a builder and its sketch
-/

namespace CopyControl.Markdown

/-! ## §1 The elements of a container -/

/-- The element with a `title` attribute, unless the title is empty. -/
def titled (title : String) (e : Element) : Element :=
  if title.isEmpty then e else e.setAttribute "title" title

/-- The `code` element of a code block. -/
def codeElement (info : Option String) : Element :=
  match languageClass? info with
  | some c => (Element.ofTag "code").addClass c
  | none => .ofTag "code"

/-- The element of an ordered list. -/
def orderedElement (start : Nat) : Element :=
  if start ≠ 1 then (Element.ofTag "ol").setAttribute "start" (toString start) else .ofTag "ol"

/-- The element of a check box. -/
def checkboxElement (checked : Bool) : Element :=
  let input := ((Element.ofTag "input").setAttribute "type" "checkbox").setAttribute "disabled" ""
  if checked then input.setAttribute "checked" "" else input

/-- The elements that a container opens, outermost first. -/
def Tag.elements (tag : Tag) (inTableHead : Bool) : List Element :=
  match tag with
  | .paragraph => [.ofTag "p"]
  | .heading level => [.ofTag level.elementName]
  | .blockQuote => [.ofTag "blockquote"]
  | .codeBlock info => [.ofTag "pre", codeElement info]
  | .list (some start) => [orderedElement start]
  | .list none => [.ofTag "ul"]
  | .item => [.ofTag "li"]
  | .emphasis => [.ofTag "em"]
  | .strong => [.ofTag "strong"]
  | .strikethrough => [.ofTag "del"]
  | .link destination title => [titled title ((Element.ofTag "a").setAttribute "href" destination)]
  | .image destination title =>
    [titled title (((Element.ofTag "img").setAttribute "src" destination).setAttribute "alt" "")]
  | .table => [.ofTag "table"]
  | .tableHead => [.ofTag "thead", .ofTag "tr"]
  | .tableRow => [.ofTag "tr"]
  | .tableCell => [.ofTag (if inTableHead then "th" else "td")]
  | .htmlBlock => []
  | .generic => [.ofTag "div"]

/-! ## §2 Sketches -/

/-- An open element, and the trees that are finished below it, latest first. -/
structure OpenElement where
  element : Element
  done : List Tree

namespace OpenElement

/-- The tree of the element if it is closed now. -/
def tree (f : OpenElement) : Tree :=
  .node default (.element f.element) f.done.reverse

def add (f : OpenElement) (t : Tree) : OpenElement :=
  { f with done := t :: f.done }

/-- The element with some text more in its `alt`. -/
def describe (f : OpenElement) (s : String) : OpenElement :=
  { f with element := f.element.setAttribute "alt" ((f.element.attribute? "alt").getD "" ++ s) }

end OpenElement

/-- What a builder has built between two events. -/
structure Sketch where
  /-- Open elements, innermost first. -/
  stack : List OpenElement
  /-- How many elements each open container has opened, innermost first. -/
  opened : List Nat
  /-- Finished trees of the top level, latest first. -/
  topLevel : List Tree
  inTableHead : Bool

namespace Sketch

def start : Sketch where
  stack := []
  opened := []
  topLevel := []
  inTableHead := false

/-- Puts a tree into the innermost open element, or at the top level. -/
def place (s : Sketch) (t : Tree) : Sketch :=
  match s.stack with
  | f :: rest => { s with stack := f.add t :: rest }
  | [] => { s with topLevel := t :: s.topLevel }

/-- Opens an element. -/
def push (s : Sketch) (e : Element) : Sketch :=
  { s with stack := ⟨e, []⟩ :: s.stack }

/-- Closes the innermost open element. -/
def pop (s : Sketch) : Sketch :=
  match s.stack with
  | f :: rest => { s with stack := rest }.place f.tree
  | [] => s

/-- Closes a number of open elements, or as many as there are. -/
def popMany : Nat → Sketch → Sketch
  | 0, s => s
  | n + 1, s => popMany n s.pop

/-- Opens the elements of a container. -/
def enter (s : Sketch) (tag : Tag) : Sketch :=
  { (tag.elements s.inTableHead).foldl push s with
    inTableHead := match tag with
      | .tableHead => true
      | _ => s.inTableHead }

def openTag (s : Sketch) (tag : Tag) : Sketch :=
  { s.enter tag with opened := (tag.elements s.inTableHead).length :: (s.enter tag).opened }

/-- Closes as many elements as the innermost open container opened. -/
def close (s : Sketch) : Sketch :=
  { s.popMany (s.opened.headD 0) with opened := s.opened.tail }

/-- Adds text: to the `alt` of the current image, or as a tree of its own. -/
def addText (s : Sketch) (text : String) : Sketch :=
  match s.stack with
  | f :: rest =>
    if f.element.tag = "img" then { s with stack := f.describe text :: rest }
    else s.place (.node default (.text text) [])
  | [] => s.place (.node default (.text text) [])

/-- Takes one event. -/
def handle (s : Sketch) : Event → Sketch
  | .start tag => s.openTag tag
  | .stop tag => { s with inTableHead := s.inTableHead && tag != TagEnd.tableHead }.close
  | .text text => s.addText text
  | .code text =>
    s.place (.node default (.element (.ofTag "code")) [.node default (.text text) []])
  | .html markup | .inlineHtml markup => s.place (.node default (.raw markup) [])
  | .softBreak => s.place (.node default (.text "\n") [])
  | .hardBreak => s.place (.node default (.element (.ofTag "br")) [])
  | .rule => s.place (.node default (.element (.ofTag "hr")) [])
  | .taskMarker checked => s.place (.node default (.element (checkboxElement checked)) [])
  | .unsupported => s

/-- The trees of the top level, in order, once all that is open is closed. -/
def finish (s : Sketch) : List Tree :=
  (popMany s.stack.length s).topLevel.reverse

end Sketch

/-- The forest that events build. -/
def sketch (events : List Event) : List Tree :=
  (events.foldl Sketch.handle .start).finish

/-! ## §3 The way up from the innermost element -/

open Document

/-- The open elements, innermost first, as they are drawn: below each is what is finished and,
last, the open element before it, or `inner` below the innermost one. The outermost one, or `inner`
if none is open, is the latest of the nodes `top` of the top level; the others have the shapes
`drawn`. -/
inductive Trace (d : Document) (top : List NodeId) (drawn : List Tree) :
    List NodeId → List NodeId → List OpenElement → Prop
  | top {inner cs : List NodeId} (htop : top = inner ++ cs) (hd : d.Depicts cs drawn) :
      Trace d top drawn inner [] []
  | up {inner cs stack : List NodeId} {x : NodeId} {f : OpenElement} {fs : List OpenElement}
      (he : d.element? x = some f.element) (hc : d.children x = (inner ++ cs).reverse)
      (hd : d.Depicts cs f.done) (rest : Trace d top drawn [x] stack fs) :
      Trace d top drawn inner (x :: stack) (f :: fs)

namespace Trace

variable {d d' : Document} {top inner stack : List NodeId} {drawn : List Tree}
  {fs : List OpenElement} {f f' : OpenElement} {t : Tree} {q x : NodeId}

theorem mem_children {cs : List NodeId} (hc : d.children x = (inner ++ cs).reverse) {c : NodeId} :
    c ∈ d.children x ↔ c ∈ inner ∨ c ∈ cs := by
  rw [hc, List.mem_reverse, List.mem_append]

theorem element (h : Trace d top drawn inner (x :: stack) (f :: fs)) :
    d.element? x = some f.element := by
  cases h with
  | up he => exact he

theorem length_eq (h : Trace d top drawn inner stack fs) : stack.length = fs.length := by
  induction h with
  | top htop hd => rfl
  | up he hc hd rest ih => rw [List.length_cons, List.length_cons, ih]

/-- What is open is below the top level. -/
theorem below_top (hw : d.WellFormed) (h : Trace d top drawn inner stack fs) :
    ∀ x ∈ inner, ∃ t ∈ top, d.AtOrAbove t x := by
  induction h with
  | top htop hd => exact fun x hx => ⟨x, htop ▸ List.mem_append_left _ hx, .refl⟩
  | up he hc hd rest ih =>
    intro x hx
    obtain ⟨t, ht, ha⟩ := ih _ List.mem_cons_self
    exact ⟨t, ht, .head ((hw.parent_iff _ _).mpr ((mem_children hc).mpr (.inl hx))) ha⟩

theorem open_in (hw : d.WellFormed) (h : Trace d top drawn inner stack fs) :
    ∀ x ∈ stack, d.IsElement x ∧ ∃ t ∈ top, d.AtOrAbove t x := by
  induction h with
  | top htop hd => simp
  | up he hc hd rest ih =>
    exact List.forall_mem_cons.mpr
      ⟨⟨Option.isSome_of_mem he, rest.below_top hw _ List.mem_cons_self⟩, ih⟩

section touch
variable (hw : d.WellFormed) (hw' : d'.WellFormed) (ht : d.Touches d' q)
include hw hw' ht

/-- A root that is not at the top level is not in the trees. -/
theorem touch (hq : d.parent? q = none) (hqt : q ∉ top)
    (h : Trace d top drawn inner stack fs) : Trace d' top drawn inner stack fs := by
  have hroot : ∀ c, c ≠ q → ¬ d.AtOrAbove c q := fun c hne ha =>
    hne (eq_of_atOrAbove_of_parent?_none ha hq)
  induction h with
  | top htop hd =>
    refine .top htop (hd.congr fun c hc => ht.shape? hw hw' (hroot c ?_))
    rintro rfl
    exact hqt (htop ▸ List.mem_append_right _ hc)
  | @up inner cs stack x f fs he hc hd rest ih =>
    have hx : x ≠ q := by
      rintro rfl
      obtain ⟨t, htop, ha⟩ := rest.below_top hw x List.mem_cons_self
      exact hqt (eq_of_atOrAbove_of_parent?_none ha hq ▸ htop)
    obtain ⟨hkind, hch⟩ := ht x hx
    refine .up ?_ (hch.trans hc) (hd.congr fun c hcs => ht.shape? hw hw' (hroot c ?_)) ih
    · rw [element?, hkind]
      exact he
    · rintro rfl
      simpa [hq] using (hw.parent_iff c x).mpr ((mem_children hc).mpr (.inr hcs))

variable (hroots : ∀ t ∈ top, d.parent? t = none) (hn : top.Nodup)
include hroots hn

/-- A change at or below an open element does not show above it. -/
theorem touch_inside {i : NodeId} (hi : d.AtOrAbove i q)
    (h : Trace d top drawn [i] stack fs) : Trace d' top drawn [i] stack fs := by
  obtain ⟨inner, hinner⟩ : ∃ inner, inner = [i] := ⟨_, rfl⟩
  rw [← hinner] at h ⊢
  induction h generalizing i with
  | @top inner cs htop hd =>
    subst hinner
    refine .top htop (hd.congr fun c hc => ht.shape? hw hw' fun ha => ?_)
    have hci : c = i := by
      rcases atOrAbove_total ha hi with h | h
      · exact eq_of_atOrAbove_of_parent?_none h (hroots i (htop ▸ List.mem_cons_self))
      · exact (eq_of_atOrAbove_of_parent?_none h (hroots c (htop ▸ List.mem_cons_of_mem _ hc))).symm
    rw [htop] at hn
    exact (List.nodup_cons.mp hn).1 (hci ▸ hc)
  | @up inner cs stack x f fs he hc hd rest ih =>
    subst hinner
    have hix : d.Link i x :=
      (hw.parent_iff i x).mpr ((mem_children hc).mpr (.inl List.mem_cons_self))
    have hx : x ≠ q := by
      rintro rfl
      exact hw.not_atOrAbove_of_link hix hi
    obtain ⟨hkind, hch⟩ := ht x hx
    refine .up ?_ (hch.trans hc) (hd.congr fun c hcs => ht.shape? hw hw' fun ha => ?_)
      (ih (.tail hi hix) rfl)
    · rw [element?, hkind]
      exact he
    · -- only one of two siblings is above `q`
      have hcx : d.Link c x := (hw.parent_iff c x).mpr ((mem_children hc).mpr (.inr hcs))
      have hci := hw.eq_of_atOrAbove_siblings hcx hix ha hi
      have hnodup := hw.children_nodup x
      rw [hc, List.nodup_reverse] at hnodup
      exact (List.nodup_cons.mp hnodup).1 (hci ▸ hcs)

/-- The innermost element gets other data, or one child more. -/
theorem touch_innermost (hq : d'.element? q = some f'.element) (hf : f'.done = f.done)
    (hc' : d'.children q = d.children q ++ inner.reverse)
    (h : Trace d top drawn [] (q :: stack) (f :: fs)) :
    Trace d' top drawn inner (q :: stack) (f' :: fs) := by
  cases h with
  | @up _ cs _ _ _ _ he hc hd rest =>
    have hchildren : d'.children q = (inner ++ cs).reverse := by
      rw [hc', hc, List.nil_append, List.reverse_append]
    refine .up hq hchildren ?_ (rest.touch_inside hw hw' ht hroots hn .refl)
    rw [hf]
    exact ht.depicts_children hw hw' (fun c hcs => (mem_children hc).mpr (.inr hcs)) hd

end touch

/-- The node below the innermost element is finished. -/
theorem add (ht : d.shape? x = some t) (h : Trace d top drawn [x] (q :: stack) (f :: fs)) :
    Trace d top drawn [] (q :: stack) (f.add t :: fs) := by
  cases h with
  | up he hc hd rest => exact .up he hc (depicts_cons.mpr ⟨ht, hd⟩) rest

/-- The shape of the innermost element is what it is drawn as. -/
theorem shape? (hw : d.WellFormed) (h : Trace d top drawn [] (q :: stack) (f :: fs)) :
    d.shape? q = some f.tree := by
  cases h with
  | up he hc hd rest =>
    refine shape?_of_depicts hw (element?_eq_some_iff.mp he) ?_
    rw [hc]
    exact hd.reverse

end Trace

/-! ## §4 A builder and its sketch -/

namespace Builder

variable {b : Builder} {s : Sketch} {d : Document} {n : NodeId} {t : Tree} {e : Element}

/-- The builder has built what the sketch shows. A node of `inner` is the latest below the innermost
open element, or at the top level, and is not in the sketch yet. -/
structure Draws (b : Builder) (s : Sketch) (d : Document) (inner : List NodeId) : Prop where
  trace : Trace d b.topLevel s.topLevel inner b.stack s.stack
  opened : b.opened = s.opened
  inTableHead : b.inTableHead = s.inTableHead

theorem draws_start (d : Document) : Builder.start.Draws .start d [] :=
  ⟨.top rfl (depicts_nil d), rfl, rfl⟩

/-- The latest node is drawn as a finished tree, -/
theorem Draws.place (h : b.Draws s d [n]) (ht : d.shape? n = some t) :
    b.Draws (s.place t) d [] := by
  obtain ⟨stack, _, top, _⟩ := b
  obtain ⟨fs, _, drawn, _⟩ := s
  obtain ⟨trace, hopened, hhead⟩ := h
  cases trace with
  | top htop hd => exact ⟨.top htop (depicts_cons.mpr ⟨ht, hd⟩), hopened, hhead⟩
  | up he hc hd rest => exact ⟨.add ht (.up he hc hd rest), hopened, hhead⟩

/-- or as an open element. -/
theorem Draws.push (h : b.Draws s d [n]) (hw : d.WellFormed)
    (hn : d.shape? n = some (.node default (.element e) [])) :
    Draws { b with stack := n :: b.stack } (s.push e) d [] := by
  obtain ⟨hk, hc⟩ := (shape?_eq_leaf_iff hw).mp hn
  have hnone : d.children n = ([] ++ [] : List NodeId).reverse := hc
  exact ⟨.up (element?_eq_some_iff.mpr hk) hnone (depicts_nil d) h.trace, h.opened, h.inTableHead⟩

/-- An element that is closed is one more finished tree. -/
theorem Draws.pop (h : b.Draws s d []) (hw : d.WellFormed) :
    Draws { b with stack := b.stack.tail } s.pop d [] := by
  obtain ⟨stack, opened, top, head⟩ := b
  obtain ⟨fs, opened', drawn, head'⟩ := s
  obtain ⟨trace, hopened, hhead⟩ := h
  cases trace with
  | top htop hd => exact ⟨.top htop hd, hopened, hhead⟩
  | @up _ _ stack x f fs he hc hd rest =>
    have hx : d.shape? x = some f.tree := Trace.shape? hw (.up he hc hd rest)
    exact Draws.place (b := ⟨stack, opened, top, head⟩) (s := ⟨fs, opened', drawn, head'⟩)
      ⟨rest, hopened, hhead⟩ hx

theorem Draws.popMany (h : b.Draws s d []) (hw : d.WellFormed) (n : Nat) :
    Draws { b with stack := b.stack.drop n } (s.popMany n) d [] := by
  induction n generalizing b s with
  | zero => exact h
  | succ n ih =>
    have := ih (h.pop hw)
    rwa [List.drop_tail] at this

theorem Draws.close (h : b.Draws s d []) (hw : d.WellFormed) : b.close.Draws s.close d [] := by
  obtain ⟨trace, -, hhead⟩ := h.popMany hw (b.opened.headD 0)
  unfold Builder.close Sketch.close
  rw [← h.opened]
  exact ⟨trace, rfl, hhead⟩

/-- Once everything is closed, the shapes of the top level are the trees. -/
theorem Draws.finish (h : b.Draws s d []) (hw : d.WellFormed) :
    d.Depicts b.topLevel.reverse s.finish := by
  obtain ⟨trace, -, -⟩ := h.popMany hw s.stack.length
  rw [← h.trace.length_eq, List.drop_length, h.trace.length_eq] at trace
  rw [Sketch.finish]
  generalize s.popMany s.stack.length = s' at trace ⊢
  obtain ⟨fs, _, drawn, _⟩ := s'
  cases trace with
  | top htop hd => exact htop ▸ hd.reverse

end Builder

end CopyControl.Markdown
