import Mathlib.Data.List.Induction
import CopyControl.Proofs.Markdown.Fragment

/-!
The builder as a recursion over the tree of containers.

A stream of events in which every start is matched by its end is a forest: a `Branch` is a container
with the branches inside it, or what a single event stands for. `eventTree?` finds the forest of a
stream (`eventTree?_eq_some_iff`), and `forest` translates it by structural recursion, branch by
branch: no stack, no count of open elements, and no flag that is set and cleared.

`handleAll_eventTree` says that the builder comes to the same. The step from the recursion to the
machine is made on sketches: the events of some branches do nothing to a sketch but add the trees of
the branches, and the texts among them, to the innermost open element (`Sketch.foldl_handle`).

That needs table heads to be apart, since the end of one clears the flag that the start of another
has set. The flag only says whether a cell is a `th`. What does not depend on that can be shown of
all streams, by induction over `DrawnAs`, which leaves it open (`drawnAs_sketch`).

* §1 branches and their events
* §2 the tree of a stream of events
* §3 the translation of branches
* §4 what trees and texts add to a sketch
* §5 the events of branches
* §6 drawings in which table heads do not matter
* §7 the builder
-/

namespace CopyControl.Markdown

open CopyControl.Document

/-! ## §1 Branches and their events -/

/-- A container with what is inside it, or what one event stands for. -/
inductive Branch where
  | container (tag : Tag) (content : List Branch)
  | text (s : String)
  | code (s : String)
  | html (markup : String)
  | inlineHtml (markup : String)
  | softBreak
  | hardBreak
  | rule
  | taskMarker (checked : Bool)
  | unsupported
deriving Repr, Inhabited

mutual

def Branch.events : Branch → List Event
  | .container tag content => .start tag :: eventsOf content ++ [.stop tag.toEnd]
  | .text s => [.text s]
  | .code s => [.code s]
  | .html markup => [.html markup]
  | .inlineHtml markup => [.inlineHtml markup]
  | .softBreak => [.softBreak]
  | .hardBreak => [.hardBreak]
  | .rule => [.rule]
  | .taskMarker checked => [.taskMarker checked]
  | .unsupported => [.unsupported]

/-- The events of branches, one branch after the other. -/
def eventsOf : List Branch → List Event
  | [] => []
  | p :: ps => p.events ++ eventsOf ps

end

/-! ## §2 The tree of a stream of events -/

/-- Reads events into branches. `outer` has the containers that are open, innermost first, each with
the branches in front of it, latest first; `done` has the branches since the innermost start. -/
def nest : List (Tag × List Branch) → List Branch → List Event → Option (List Branch)
  | [], done, [] => some done.reverse
  | _ :: _, _, [] => none
  | outer, done, .start tag :: es => nest ((tag, done) :: outer) [] es
  | [], _, .stop _ :: _ => none
  | (tag, before) :: outer, done, .stop stop :: es =>
    if tag.toEnd = stop then nest outer (.container tag done.reverse :: before) es else none
  | outer, done, .text s :: es => nest outer (.text s :: done) es
  | outer, done, .code s :: es => nest outer (.code s :: done) es
  | outer, done, .html markup :: es => nest outer (.html markup :: done) es
  | outer, done, .inlineHtml markup :: es => nest outer (.inlineHtml markup :: done) es
  | outer, done, .softBreak :: es => nest outer (.softBreak :: done) es
  | outer, done, .hardBreak :: es => nest outer (.hardBreak :: done) es
  | outer, done, .rule :: es => nest outer (.rule :: done) es
  | outer, done, .taskMarker checked :: es => nest outer (.taskMarker checked :: done) es
  | outer, done, .unsupported :: es => nest outer (.unsupported :: done) es

/-- The branches that a stream of events is, if every start is matched by its end. -/
def eventTree? (events : List Event) : Option (List Branch) :=
  nest [] [] events

theorem eventsOf_append (ps qs : List Branch) :
    eventsOf (ps ++ qs) = eventsOf ps ++ eventsOf qs := by
  induction ps with
  | nil => rfl
  | cons p ps ih => rw [List.cons_append, eventsOf, eventsOf, ih, List.append_assoc]

mutual

theorem nest_events : (p : Branch) → ∀ outer done es,
    nest outer done (p.events ++ es) = nest outer (p :: done) es
  | .container tag content => fun outer done es => by
    rw [Branch.events, List.cons_append, List.cons_append, List.append_assoc, nest,
      nest_eventsOf content, List.append_nil]
    simp [nest]
  | .text _ | .code _ | .html _ | .inlineHtml _ | .softBreak | .hardBreak | .rule | .taskMarker _
  | .unsupported => fun outer done es => by simp [Branch.events, nest]

theorem nest_eventsOf : (ps : List Branch) → ∀ outer done es,
    nest outer done (eventsOf ps ++ es) = nest outer (ps.reverse ++ done) es
  | [] => fun _ _ _ => rfl
  | p :: ps => fun outer done es => by
    rw [eventsOf, List.append_assoc, nest_events p, nest_eventsOf ps, List.reverse_cons,
      List.append_assoc, List.singleton_append]

end

/-- The events of the open containers and of what is in front of them. -/
def pendingEvents : List (Tag × List Branch) → List Event
  | [] => []
  | (tag, before) :: outer => pendingEvents outer ++ eventsOf before.reverse ++ [.start tag]

theorem events_of_nest {outer : List (Tag × List Branch)} {done ps : List Branch} {es : List Event}
    (h : nest outer done es = some ps) :
    pendingEvents outer ++ eventsOf done.reverse ++ es = eventsOf ps := by
  fun_induction nest outer done es with
  | case1 done =>
    obtain rfl := Option.some.inj h
    simp [pendingEvents]
  | case2 | case4 | case6 => simp at h
  | case3 outer done tag es ih =>
    rw [← ih h]
    simp [pendingEvents, eventsOf]
  | case5 tag before outer done es ih =>
    rw [← ih h]
    simp [pendingEvents, eventsOf_append, eventsOf, Branch.events]
  | _ =>
    -- a branch of one event
    rename_i ih
    rw [← ih h]
    simp [eventsOf_append, eventsOf, Branch.events]

/-- A stream of events is the forest that it is read as, and no other. -/
theorem eventTree?_eq_some_iff {events : List Event} {ps : List Branch} :
    eventTree? events = some ps ↔ eventsOf ps = events := by
  constructor
  · intro h
    simpa [pendingEvents, eventsOf] using (events_of_nest h).symm
  · rintro rfl
    have := nest_eventsOf ps [] [] []
    simpa [eventTree?, nest] using this

/-! ## §3 The translation of branches -/

/-- The texts of a container that are directly inside what is around it: all of those directly
inside an HTML block, which has no element, and none inside an element. -/
def Tag.textsAround (tag : Tag) (texts : List String) : List String :=
  match tag with
  | .htmlBlock => texts
  | _ => []

mutual

/-- The texts of a branch that are directly inside what is around it. -/
def Branch.texts : Branch → List String
  | .text s => [s]
  | .container tag content => tag.textsAround (textsOf content)
  | _ => []

def textsOf : List Branch → List String
  | [] => []
  | p :: ps => p.texts ++ textsOf ps

end

/-- The element of an image with an `alt`. -/
def imageElement (destination title alt : String) : Element :=
  titled title (((Element.ofTag "img").setAttribute "src" destination).setAttribute "alt" alt)

/-- The elements of a container, outermost first. An image is described by the texts in it. -/
def Tag.elementsAround (tag : Tag) (inTableHead : Bool) (texts : List String) : List Element :=
  match tag with
  | .image destination title => [imageElement destination title (String.join texts)]
  | tag => tag.elements inTableHead

/-- The tags of these elements. -/
def Tag.elementNames (tag : Tag) (inTableHead : Bool) : List String :=
  match tag with
  | .paragraph => ["p"]
  | .heading level => [level.elementName]
  | .blockQuote => ["blockquote"]
  | .codeBlock _ => ["pre", "code"]
  | .list (some _) => ["ol"]
  | .list none => ["ul"]
  | .item => ["li"]
  | .emphasis => ["em"]
  | .strong => ["strong"]
  | .strikethrough => ["del"]
  | .link _ _ => ["a"]
  | .image _ _ => ["img"]
  | .table => ["table"]
  | .tableHead => ["thead", "tr"]
  | .tableRow => ["tr"]
  | .tableCell => [if inTableHead then "th" else "td"]
  | .htmlBlock => []
  | .generic => ["div"]

/-- Elements, each inside the one before it, around some trees. -/
def wrapAll : List Element → List Tree → List Tree
  | [], ts => ts
  | e :: es, ts => [.node default (.element e) (wrapAll es ts)]

/-- Whether the innermost element around the content of a container is an image, given whether the
one around the container is. -/
def Tag.holdsImage (tag : Tag) (outside : Bool) : Bool :=
  match tag with
  | .image _ _ => true
  | .htmlBlock => outside
  | _ => false

def Tag.isTableHead (tag : Tag) : Bool :=
  tag.toEnd == .tableHead

mutual

/-- The trees of a branch, given whether it is inside a table head, and whether the innermost
element around it is an image. -/
def Branch.trees (inTableHead inImage : Bool) : Branch → List Tree
  | .container tag content =>
    wrapAll (tag.elementsAround inTableHead (textsOf content))
      (forest (inTableHead || tag.isTableHead) (tag.holdsImage inImage) content)
  | .text s => if inImage then [] else [.node default (.text s) []]
  | .code s => [.node default (.element (.ofTag "code")) [.node default (.text s) []]]
  | .html markup => [.node default (.raw markup) []]
  | .inlineHtml markup => [.node default (.raw markup) []]
  | .softBreak => [.node default (.text "\n") []]
  | .hardBreak => [.node default (.element (.ofTag "br")) []]
  | .rule => [.node default (.element (.ofTag "hr")) []]
  | .taskMarker checked => [.node default (.element (checkboxElement checked)) []]
  | .unsupported => []

/-- The trees of branches, in order. -/
def forest (inTableHead inImage : Bool) : List Branch → List Tree
  | [] => []
  | p :: ps => p.trees inTableHead inImage ++ forest inTableHead inImage ps

end

mutual

/-- No table head is inside another one. -/
def Branch.headsApart (inTableHead : Bool) : Branch → Bool
  | .container tag content =>
    !(inTableHead && tag.isTableHead) && allHeadsApart (inTableHead || tag.isTableHead) content
  | _ => true

def allHeadsApart (inTableHead : Bool) : List Branch → Bool
  | [] => true
  | p :: ps => p.headsApart inTableHead && allHeadsApart inTableHead ps

end

/-! ## §4 What trees and texts add to a sketch -/

namespace OpenElement

/-- An image with some texts added to its `alt`; another element as it is. -/
def describeAll (f : OpenElement) (texts : List String) : OpenElement :=
  if f.element.tag = "img" then texts.foldl describe f else f

/-- The element with some trees more. -/
def addAll (f : OpenElement) (ts : List Tree) : OpenElement :=
  { f with done := ts.reverse ++ f.done }

variable {f : OpenElement}

theorem foldl_describe_addAll (ts : List Tree) (texts : List String) :
    texts.foldl describe (f.addAll ts) = (texts.foldl describe f).addAll ts := by
  induction texts generalizing f with
  | nil => rfl
  | cons s texts ih => exact ih (f := f.describe s)

theorem tag_foldl_describe (texts : List String) :
    (texts.foldl describe f).element.tag = f.element.tag := by
  induction texts generalizing f with
  | nil => rfl
  | cons s texts ih => exact ih (f := f.describe s)

@[simp] theorem tag_describeAll (texts : List String) :
    (f.describeAll texts).element.tag = f.element.tag := by
  unfold describeAll
  split
  · exact tag_foldl_describe texts
  · rfl

@[simp] theorem describeAll_nil : f.describeAll [] = f := by
  simp [describeAll]

theorem describeAll_describeAll (ts : List Tree) (texts more : List String) :
    ((f.describeAll texts).addAll ts).describeAll more =
      (f.describeAll (texts ++ more)).addAll ts := by
  unfold describeAll
  split
  · next h =>
    have himg : ((texts.foldl describe f).addAll ts).element.tag = "img" :=
      (tag_foldl_describe texts).trans h
    rw [if_pos himg, foldl_describe_addAll, List.foldl_append]
  · next h =>
    have hne : ¬ (f.addAll ts).element.tag = "img" := h
    rw [if_neg hne]

theorem addAll_addAll (ts us : List Tree) : (f.addAll ts).addAll us = f.addAll (ts ++ us) := by
  simp [addAll]

end OpenElement

section image
variable (destination title alt : String)

theorem attribute?_imageElement :
    (imageElement destination title alt).attribute? "alt" = some alt := by
  unfold imageElement titled
  split <;>
    simp [Element.attribute?, Element.setAttribute, Element.setPair, Element.ofTag,
      List.lookup_cons]

theorem setAttribute_imageElement (value : String) :
    (imageElement destination title alt).setAttribute "alt" value =
      imageElement destination title value := by
  unfold imageElement titled
  split <;> simp [Element.setAttribute, Element.setPair, Element.ofTag]

theorem tag_imageElement : (imageElement destination title alt).tag = "img" := by
  have himg : (Element.ofTag "img").tag = "img" := by decide +kernel
  unfold imageElement titled
  split <;> exact himg

/-- Each text goes to the end of the `alt`. -/
theorem foldl_describe_imageElement (done : List Tree) (texts : List String) :
    texts.foldl OpenElement.describe ⟨imageElement destination title alt, done⟩ =
      ⟨imageElement destination title (texts.foldl (· ++ ·) alt), done⟩ := by
  induction texts generalizing alt with
  | nil => rfl
  | cons s texts ih =>
    rw [List.foldl_cons, List.foldl_cons, ← ih, OpenElement.describe, attribute?_imageElement,
      Option.getD_some, setAttribute_imageElement]

end image

theorem describeAll_imageElement (destination title : String) (texts : List String) :
    OpenElement.describeAll ⟨imageElement destination title "", []⟩ texts =
      ⟨imageElement destination title (String.join texts), []⟩ := by
  rw [OpenElement.describeAll, if_pos (tag_imageElement destination title ""),
    foldl_describe_imageElement]
  rfl

namespace Sketch

/-- Whether the innermost open element is an image. -/
def inImage (s : Sketch) : Bool :=
  s.stack.head?.any fun f => f.element.tag = "img"

/-- Trees and texts go to the innermost open element, or trees to the top level. -/
def absorb (s : Sketch) (ts : List Tree) (texts : List String) : Sketch :=
  match s.stack with
  | f :: rest => { s with stack := (f.describeAll texts).addAll ts :: rest }
  | [] => { s with topLevel := ts.reverse ++ s.topLevel }

variable {s : Sketch}

@[simp] theorem inTableHead_absorb (ts : List Tree) (texts : List String) :
    (s.absorb ts texts).inTableHead = s.inTableHead := by
  unfold absorb
  split <;> rfl

@[simp] theorem opened_absorb (ts : List Tree) (texts : List String) :
    (s.absorb ts texts).opened = s.opened := by
  unfold absorb
  split <;> rfl

theorem opened_absorb_set (opened : List Nat) (ts : List Tree) (texts : List String) :
    { s.absorb ts texts with opened := opened } = { s with opened := opened }.absorb ts texts := by
  obtain ⟨stack, _, top, head⟩ := s
  cases stack <;> rfl

theorem inTableHead_absorb_set (head : Bool) (ts : List Tree) (texts : List String) :
    { s.absorb ts texts with inTableHead := head } =
      { s with inTableHead := head }.absorb ts texts := by
  obtain ⟨stack, opened, top, _⟩ := s
  cases stack <;> rfl

@[simp] theorem inImage_absorb (ts : List Tree) (texts : List String) :
    (s.absorb ts texts).inImage = s.inImage := by
  obtain ⟨stack, opened, top, head⟩ := s
  cases stack with
  | nil => rfl
  | cons f stack => simp [absorb, inImage, OpenElement.addAll]

theorem absorb_nil : s.absorb [] [] = s := by
  obtain ⟨stack, opened, top, head⟩ := s
  cases stack with
  | nil => rfl
  | cons f stack => simp [absorb, OpenElement.addAll]

theorem absorb_absorb (ts us : List Tree) (texts more : List String) :
    (s.absorb ts texts).absorb us more = s.absorb (ts ++ us) (texts ++ more) := by
  obtain ⟨stack, opened, top, head⟩ := s
  cases stack with
  | nil => simp [absorb]
  | cons f stack =>
    simp only [absorb, OpenElement.describeAll_describeAll, OpenElement.addAll_addAll]

theorem place_eq_absorb (t : Tree) : s.place t = s.absorb [t] [] := by
  obtain ⟨stack, opened, top, head⟩ := s
  cases stack with
  | nil => rfl
  | cons f stack => simp [absorb, place, OpenElement.addAll, OpenElement.add]

theorem addText_eq_absorb (text : String) :
    s.addText text =
      s.absorb (if s.inImage then [] else [.node default (.text text) []]) [text] := by
  obtain ⟨stack, opened, top, head⟩ := s
  cases stack with
  | nil => rfl
  | cons f stack =>
    by_cases h : f.element.tag = "img" <;>
      simp [addText, inImage, absorb, place, h, OpenElement.describeAll, OpenElement.addAll,
        OpenElement.add, OpenElement.describe]

/-- Only an image takes texts. -/
theorem absorb_of_not_inImage (h : s.inImage = false) (ts : List Tree) (texts : List String) :
    s.absorb ts texts = s.absorb ts [] := by
  obtain ⟨stack, opened, top, head⟩ := s
  cases stack with
  | nil => rfl
  | cons f stack =>
    have hf : f.element.tag ≠ "img" := by simpa [inImage] using h
    simp [absorb, OpenElement.describeAll, hf]

/-- What an element has taken is inside it when it is closed. -/
theorem pop_push (e : Element) (ts : List Tree) (texts : List String) :
    ((s.push e).absorb ts texts).pop =
      s.absorb [((OpenElement.describeAll ⟨e, []⟩ texts).addAll ts).tree] [] :=
  place_eq_absorb _

theorem popMany_succ (n : Nat) (s : Sketch) : popMany (n + 1) s = (popMany n s).pop := by
  induction n generalizing s with
  | zero => rfl
  | succ n ih => rw [popMany, ih, popMany]

/-- Elements opened one inside the other enclose what the innermost one takes. -/
theorem popMany_foldl_push (es : List Element) (ts : List Tree) :
    popMany es.length ((es.foldl push s).absorb ts []) = s.absorb (wrapAll es ts) [] := by
  induction es generalizing s with
  | nil => rfl
  | cons e es ih =>
    rw [List.length_cons, popMany_succ, List.foldl_cons, ih, pop_push]
    simp [OpenElement.tree, OpenElement.addAll, wrapAll]

end Sketch

/-! ## §5 The events of branches -/

theorem elements_image (destination title : String) (inTableHead : Bool) :
    (Tag.image destination title).elements inTableHead = [imageElement destination title ""] := rfl

theorem tag_titled (title : String) (e : Element) : (titled title e).tag = e.tag := by
  unfold titled
  split <;> rfl

theorem tag_codeElement (info : Option String) : (codeElement info).tag = "code" := by
  have hcode : (Element.ofTag "code").tag = "code" := by decide +kernel
  unfold codeElement
  split
  · unfold Element.addClass
    split <;> exact hcode
  · exact hcode

theorem tag_orderedElement (start : Nat) : (orderedElement start).tag = "ol" := by
  have hol : (Element.ofTag "ol").tag = "ol" := by decide +kernel
  unfold orderedElement
  split <;> exact hol

theorem map_tag_elements (tag : Tag) (inTableHead : Bool) :
    (tag.elements inTableHead).map (·.tag) = tag.elementNames inTableHead := by
  have single : ∀ name ∈ ["p", "h1", "h2", "h3", "h4", "h5", "h6", "blockquote", "pre", "ul", "li",
      "em", "strong", "del", "a", "table", "thead", "tr", "th", "td", "div"],
      [(Element.ofTag name).tag] = [name] := by decide +kernel
  cases tag with
  | heading level => cases level <;> exact single _ (by simp [HeadingLevel.elementName])
  | codeBlock info =>
    exact congrArg₂ (· ++ [·]) (single "pre" (by simp)) (tag_codeElement info)
  | list start =>
    cases start with
    | none => exact single _ (by simp)
    | some n => exact congrArg ([·]) (tag_orderedElement n)
  | link destination title =>
    exact (congrArg ([·]) (tag_titled title _)).trans (single "a" (by simp))
  | image destination title => exact congrArg ([·]) (tag_imageElement destination title "")
  | tableHead => exact congrArg₂ (· ++ ·) (single "thead" (by simp)) (single "tr" (by simp))
  | tableCell => cases inTableHead <;> exact single _ (by simp)
  | htmlBlock => rfl
  | _ => exact single _ (by simp)

theorem map_tag_elementsAround (tag : Tag) (inTableHead : Bool) (texts : List String) :
    (tag.elementsAround inTableHead texts).map (·.tag) = tag.elementNames inTableHead := by
  have helements := map_tag_elements tag inTableHead
  cases tag with
  | image destination title => exact congrArg ([·]) (tag_imageElement destination title _)
  | _ => exact helements

namespace Sketch

variable {s : Sketch}

theorem foldl_push (es : List Element) (s : Sketch) :
    es.foldl push s = { s with stack := (es.map (⟨·, []⟩)).reverse ++ s.stack } := by
  induction es generalizing s with
  | nil => rfl
  | cons e es ih => simp [ih, push]

theorem foldl_push_inTableHead (es : List Element) (s : Sketch) :
    (es.foldl push s).inTableHead = s.inTableHead := by
  rw [foldl_push]

theorem foldl_push_set (es : List Element) (s : Sketch) (head : Bool) :
    { es.foldl push s with inTableHead := head } =
      es.foldl push { s with inTableHead := head } := by
  rw [foldl_push, foldl_push]

theorem openTag_eq (s : Sketch) (tag : Tag) :
    s.openTag tag = (tag.elements s.inTableHead).foldl push
      { s with
        opened := (tag.elements s.inTableHead).length :: s.opened
        inTableHead := s.inTableHead || tag.isTableHead } := by
  cases tag <;> simp [openTag, enter, foldl_push, Tag.isTableHead, Tag.toEnd]

/-- Whether the innermost open element is an image is a matter of the one opened last. -/
theorem inImage_foldl_push_eq (es : List Element) (s : Sketch) :
    (es.foldl push s).inImage =
      ((es.map (·.tag)).getLast?.map fun name => decide (name = "img")).getD s.inImage := by
  rw [foldl_push]
  cases es using List.reverseRecOn with
  | nil => rfl
  | append_singleton es e => simp [inImage]

/-- Inside the elements of a container. -/
theorem inImage_foldl_push (tag : Tag) (inTableHead : Bool) (s : Sketch) :
    ((tag.elements inTableHead).foldl push s).inImage = tag.holdsImage s.inImage := by
  rw [inImage_foldl_push_eq, map_tag_elements]
  cases tag with
  | heading level => cases level <;> rfl
  | list start => cases start <;> rfl
  | tableCell => cases inTableHead <;> rfl
  | _ => rfl

/-- The end of a container: its elements are closed around what has been added since its start. -/
theorem close_foldl_push (tag : Tag) (inTableHead : Bool) {opened : List Nat}
    (h : s.opened = (tag.elements inTableHead).length :: opened) (ts : List Tree)
    (texts : List String) :
    (((tag.elements inTableHead).foldl push s).absorb ts texts).close =
      { s with opened := opened }.absorb (wrapAll (tag.elementsAround inTableHead texts) ts)
        (tag.textsAround texts) := by
  have hclose : ∀ us more,
      popMany (tag.elements inTableHead).length
        (((tag.elements inTableHead).foldl push s).absorb ts texts) = s.absorb us more →
      (((tag.elements inTableHead).foldl push s).absorb ts texts).close =
        { s with opened := opened }.absorb us more := by
    intro us more hpop
    have hopened : (((tag.elements inTableHead).foldl push s).absorb ts texts).opened =
        (tag.elements inTableHead).length :: opened := by
      rw [opened_absorb, foldl_push, h]
    rw [close, hopened, List.headD_cons, List.tail_cons, hpop, opened_absorb_set]
  apply hclose
  have plain : tag.holdsImage s.inImage = false →
      popMany (tag.elements inTableHead).length
        (((tag.elements inTableHead).foldl push s).absorb ts texts) =
      s.absorb (wrapAll (tag.elements inTableHead) ts) [] := fun himg => by
    rw [absorb_of_not_inImage ((inImage_foldl_push tag inTableHead s).trans himg),
      popMany_foldl_push]
  cases tag with
  | image destination title =>
    rw [elements_image]
    refine (pop_push _ ts texts).trans ?_
    rw [describeAll_imageElement]
    simp [Tag.elementsAround, Tag.textsAround, wrapAll, OpenElement.tree, OpenElement.addAll]
  | htmlBlock => rfl
  | _ => exact plain rfl

/-- The events of a container, if those of its content add some trees and texts and leave the flag
for table heads as `head`. -/
theorem foldl_handle_container {tag : Tag} {content : List Branch} {ts : List Tree}
    {texts : List String} (head : Bool)
    (h : (eventsOf content).foldl handle (s.openTag tag) =
      { s.openTag tag with inTableHead := head }.absorb ts texts) :
    (Branch.container tag content).events.foldl handle s =
      { s with inTableHead := head && tag.toEnd != TagEnd.tableHead }.absorb
        (wrapAll (tag.elementsAround s.inTableHead texts) ts) (tag.textsAround texts) :=
  calc (Branch.container tag content).events.foldl handle s
      = handle ((eventsOf content).foldl handle (s.openTag tag)) (.stop tag.toEnd) := by
        rw [Branch.events, List.foldl_append]
        rfl
    _ = (((tag.elements s.inTableHead).foldl push
          { s with
            opened := (tag.elements s.inTableHead).length :: s.opened
            inTableHead := head && tag.toEnd != TagEnd.tableHead }).absorb ts texts).close := by
        rw [h, handle, inTableHead_absorb, inTableHead_absorb_set, openTag_eq, foldl_push_set,
          foldl_push_set, foldl_push_inTableHead]
    _ = _ := close_foldl_push tag s.inTableHead rfl _ _

mutual

theorem foldl_handle_events : (p : Branch) → ∀ s : Sketch, p.headsApart s.inTableHead = true →
    p.events.foldl handle s = s.absorb (p.trees s.inTableHead s.inImage) p.texts
  | .container tag content => fun s h => by
    obtain ⟨hapart, hcontent⟩ : (s.inTableHead = false ∨ tag.isTableHead = false) ∧
        allHeadsApart (s.inTableHead || tag.isTableHead) content = true := by
      simpa [Branch.headsApart] using h
    have hopen : (s.openTag tag).inTableHead = (s.inTableHead || tag.isTableHead) := by
      rw [openTag_eq, foldl_push_inTableHead]
    have himage : (s.openTag tag).inImage = tag.holdsImage s.inImage := by
      rw [openTag_eq, inImage_foldl_push]
      rfl
    have hinside := foldl_handle content (s.openTag tag) (hopen ▸ hcontent)
    -- what the start sets, the end clears, since it was not set before
    have hhead :
        ((s.openTag tag).inTableHead && tag.toEnd != .tableHead) = s.inTableHead := by
      have hend : (tag.toEnd != .tableHead) = !tag.isTableHead := rfl
      rw [hopen, hend]
      rcases hapart with h | h <;> simp [h]
    rw [foldl_handle_container (s.openTag tag).inTableHead hinside, hhead, hopen, himage]
    rfl
  | .text text => fun s _ => addText_eq_absorb text
  | .unsupported => fun s _ => absorb_nil.symm
  | .code _ | .html _ | .inlineHtml _ | .softBreak | .hardBreak | .rule | .taskMarker _ =>
    fun s _ => place_eq_absorb _

/-- The events of branches add the trees of the branches. -/
theorem foldl_handle : (ps : List Branch) → ∀ s : Sketch, allHeadsApart s.inTableHead ps = true →
    (eventsOf ps).foldl handle s = s.absorb (forest s.inTableHead s.inImage ps) (textsOf ps)
  | [] => fun s _ => absorb_nil.symm
  | p :: ps => fun s h => by
    obtain ⟨hp, hps⟩ :
        p.headsApart s.inTableHead = true ∧ allHeadsApart s.inTableHead ps = true := by
      simpa [allHeadsApart] using h
    rw [eventsOf, List.foldl_append, foldl_handle_events p s hp,
      foldl_handle ps _ (by simpa using hps), absorb_absorb]
    simp [forest, textsOf]

end

end Sketch

/-! ## §6 Drawings in which table heads do not matter -/

def Branch.isContainer : Branch → Bool
  | .container _ _ => true
  | _ => false

/-- Trees that branches can be drawn as, given whether the innermost element around them is an
image: those of `forest`, but each part may or may not be taken to be inside a table head. -/
inductive DrawnAs : Bool → List Branch → List Tree → Prop
  | nil {inImage : Bool} : DrawnAs inImage [] []
  | single {inImage : Bool} {p : Branch} {ps : List Branch} {us : List Tree} (head : Bool)
      (hp : p.isContainer = false) (hps : DrawnAs inImage ps us) :
      DrawnAs inImage (p :: ps) (p.trees head inImage ++ us)
  | container {inImage : Bool} {tag : Tag} {content ps : List Branch} {ts us : List Tree}
      (head : Bool) (hcontent : DrawnAs (tag.holdsImage inImage) content ts)
      (hps : DrawnAs inImage ps us) :
      DrawnAs inImage (.container tag content :: ps)
        (wrapAll (tag.elementsAround head (textsOf content)) ts ++ us)

/-- The events of branches add a drawing of the branches, whatever becomes of the flag for table
heads. -/
theorem Sketch.foldl_handle_drawnAs (ps : List Branch) (s : Sketch) : ∃ head ts,
    (eventsOf ps).foldl handle s = { s with inTableHead := head }.absorb ts (textsOf ps) ∧
      DrawnAs s.inImage ps ts := by
  match ps with
  | [] => exact ⟨s.inTableHead, [], absorb_nil.symm, .nil⟩
  | p :: ps =>
    have hfirst : ∃ head ts, p.events.foldl handle s =
        { s with inTableHead := head }.absorb ts p.texts ∧
        ∀ {us}, DrawnAs s.inImage ps us → DrawnAs s.inImage (p :: ps) (ts ++ us) := by
      cases hp : p.isContainer with
      | false =>
        have hapart : p.headsApart s.inTableHead = true := by
          cases p with
          | container => simp [Branch.isContainer] at hp
          | _ => rfl
        exact ⟨_, _, foldl_handle_events p s hapart, .single _ hp⟩
      | true =>
        obtain ⟨tag, content, rfl⟩ : ∃ tag content, p = .container tag content := by
          cases p <;> simp_all [Branch.isContainer]
        obtain ⟨head, ts, hinside, hcontent⟩ := foldl_handle_drawnAs content (s.openTag tag)
        have himage : (s.openTag tag).inImage = tag.holdsImage s.inImage := by
          rw [openTag_eq, inImage_foldl_push]
          rfl
        exact ⟨_, _, foldl_handle_container head hinside, .container _ (himage ▸ hcontent)⟩
    obtain ⟨head, ts, heq, hdrawn⟩ := hfirst
    obtain ⟨head', us, heq', hps⟩ :=
      foldl_handle_drawnAs ps ({ s with inTableHead := head }.absorb ts p.texts)
    rw [inImage_absorb] at hps
    refine ⟨head', ts ++ us, ?_, hdrawn hps⟩
    rw [eventsOf, List.foldl_append, heq, heq', inTableHead_absorb_set, absorb_absorb, textsOf]
termination_by sizeOf ps

/-- A well-nested stream of events is drawn as its branches can be. -/
theorem drawnAs_sketch {events : List Event} {ps : List Branch}
    (hp : eventTree? events = some ps) : DrawnAs false ps (sketch events) := by
  obtain ⟨head, ts, heq, hdrawn⟩ := Sketch.foldl_handle_drawnAs ps .start
  have hsketch : sketch events = ts := by
    rw [sketch, ← eventTree?_eq_some_iff.mp hp, heq]
    simp [Sketch.absorb, Sketch.start, Sketch.finish, Sketch.popMany]
  exact hsketch ▸ hdrawn

/-! ## §7 The builder -/

/-- On a stream of events in which every start is matched by its end, and no table head is inside
another one, the builder never fails, closes all that it opens, and makes the translation of the
stream's branches. -/
theorem handleAll_eventTree {d : Document} (hw : d.WellFormed) {events : List Event}
    {ps : List Branch} (hp : eventTree? events = some ps) (ha : allHeadsApart false ps = true) :
    (Builder.start.handleAll events).Gives d fun b d' =>
      b.stack = [] ∧ b.opened = [] ∧ d'.Depicts b.topLevel.reverse (forest false false ps) := by
  have hg : Builder.start.Grown .start d d [] := ⟨.refl hw, Builder.draws_start d⟩
  have hsketch : events.foldl Sketch.handle .start =
      { Sketch.start with topLevel := (forest false false ps).reverse } := by
    rw [← eventTree?_eq_some_iff.mp hp, Sketch.foldl_handle ps .start ha]
    simp [Sketch.absorb, Sketch.start, Sketch.inImage]
  refine (hg.handleAll hw events).imp fun b d' hg => ?_
  rw [hsketch] at hg
  refine ⟨?_, hg.draws.opened, ?_⟩
  · exact List.eq_nil_of_length_eq_zero hg.draws.trace.length_eq
  · have hfinish := hg.draws.finish hg.beside.wellFormed
    rwa [Sketch.finish, Sketch.start, List.length_nil, Sketch.popMany,
      List.reverse_reverse] at hfinish

/-- A table with an image in its head, and a code block after it. -/
def tablePieces : List Branch :=
  [.container .table
    [.container .tableHead
      [.container .tableCell [.container (.image "a.png" "") [.text "a", .softBreak, .text " b"]]],
      .container .tableRow [.container .tableCell [.text "1"]]],
    .container .htmlBlock [.html "<hr>"],
    .container (.codeBlock (some " rust,ignore x")) [.text "fn main() {}"]]

theorem handleAll_tableEvents :
    Document.new.WellFormed ∧ eventTree? (eventsOf tablePieces) = some tablePieces ∧
      allHeadsApart false tablePieces = true ∧
      (Builder.start.handleAll (eventsOf tablePieces)).Gives .new fun b d' =>
        b.stack = [] ∧ b.opened = [] ∧
          d'.Depicts b.topLevel.reverse (forest false false tablePieces) :=
  ⟨wellFormed_new, rfl, by decide, handleAll_eventTree wellFormed_new rfl (by decide)⟩

end CopyControl.Markdown
