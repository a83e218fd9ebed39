import CopyControl.Proofs.Markdown.Page

/-!
What the elements of one tag say, and the titles and headings of a page.

The texts of the elements of one tag, in document order, are told by shapes alone (`captions_eq`).
So the headings of a page are those of its head and those of its body, whatever the handles are
(`IsPage.headingText?_eq`).
-/

namespace CopyControl

open Document Markdown

mutual

/-- The texts of the elements of a tree that have the tag, in document order. -/
def Tree.captions (tag : String) : Tree → List String
  | .node id kind children =>
    (if kind.hasTag tag then [.ofList (Tree.node id kind children).textContent] else []) ++
      Tree.captionsOf tag children

def Tree.captionsOf (tag : String) : List Tree → List String
  | [] => []
  | t :: ts => t.captions tag ++ Tree.captionsOf tag ts

end

theorem Tree.captionsOf_append (tag : String) (ts us : List Tree) :
    captionsOf tag (ts ++ us) = captionsOf tag ts ++ captionsOf tag us := by
  induction ts with
  | nil => rfl
  | cons t ts ih => rw [List.cons_append, captionsOf, ih, captionsOf, List.append_assoc]

theorem Tree.captions_element (tag : String) (e : Element) (ts : List Tree) :
    (Tree.node default (.element e) ts).captions tag =
      (if e.tag = tag then [.ofList (Tree.node default (.element e) ts).textContent] else []) ++
        captionsOf tag ts := by
  simp [captions, NodeKind.hasTag, NodeKind.element?]

/-- The text of the first heading of a source. -/
def Markdown.firstHeading? (events : List Event) : Option String :=
  (Tree.captionsOf "h1" (sketch events)).head?

namespace Document

variable {d : Document} {head x : NodeId} {t u : Tree} {ts : List Tree} {tag : String}

/-- The texts of the elements at and below a node that have the tag, in document order. -/
def captions (d : Document) (tag : String) (x : NodeId) : List String :=
  ((d.descendants x).filter (d.tag? · = some tag)).map d.textContent

/-- The text of the first `h1` of a document, if there is one. -/
def headingText? (d : Document) : Option String :=
  ((d.elementsByTag "h1").head?).map d.textContent

/-- The texts of the title elements in the head. -/
def titles (d : Document) : List String :=
  d.captions "title" d.head

theorem textContent_of_shape? (h : d.shape? x = some t) :
    d.textContent x = .ofList t.textContent := by
  rw [textContent_eq, h, Option.map_some, Option.getD_some]

/-- An element comes before the elements below it. -/
theorem captions_eq_append (hw : d.WellFormed) (hx : d.contains x) :
    d.captions tag x = (if d.tag? x = some tag then [d.textContent x] else []) ++
      (d.children x).flatMap (d.captions tag) := by
  have hbelow : (d.children x).flatMap (d.captions tag) =
      (((d.children x).flatMap d.descendants).filter (d.tag? · = some tag)).map
        d.textContent := by
    rw [List.filter_flatMap, List.map_flatMap]
    rfl
  rw [hbelow, captions, hw.descendants_eq hx, List.filter_cons]
  by_cases h : d.tag? x = some tag <;> simp [h]

/-- If each of some nodes has the captions of its shape, together they have the captions of all the
shapes. -/
theorem flatMap_captions {xs : List NodeId} (hts : d.Depicts xs ts)
    (h : ∀ x ∈ xs, ∀ t, d.shape? x = some t → d.captions tag x = t.captions tag) :
    xs.flatMap (d.captions tag) = Tree.captionsOf tag ts := by
  induction xs generalizing ts with
  | nil =>
    obtain rfl : ts = [] := List.map_eq_nil_iff.mp hts.symm
    rfl
  | cons x xs ih =>
    cases ts with
    | nil => simp [Depicts] at hts
    | cons t ts =>
      obtain ⟨ht, hts⟩ := depicts_cons.mp hts
      obtain ⟨hx, hxs⟩ := List.forall_mem_cons.mp h
      rw [List.flatMap_cons, hx t ht, ih hts hxs, Tree.captionsOf]

/-- The captions at and below a node are those of its shape. -/
theorem captions_eq (hw : d.WellFormed) (ht : d.shape? x = some t) :
    d.captions tag x = t.captions tag := by
  induction x using hw.children_induction generalizing t with
  | h x ih =>
    obtain ⟨n, k, ts⟩ := t
    obtain ⟨hk, hts⟩ := of_shape? hw ht
    have hbelow := flatMap_captions hts fun c hc u hu => ih c hc hu
    rw [captions_eq_append hw (contains_of_kind? hk), hbelow, textContent_of_shape? ht,
      Tree.captions]
    simp only [tag?_eq_iff hk]

theorem headingText?_eq_head? (d : Document) :
    d.headingText? = (d.captions "h1" d.root).head? := by
  rw [captions, List.head?_map]
  rfl

/-- The headings of a page are those of its head, if it has any, and those of its body. -/
theorem IsPage.headingText?_eq (h : d.IsPage head) (ht : d.shape? head = some t)
    (hu : d.shape? d.body = some u) :
    d.headingText? = (t.captions "h1" ++ u.captions "h1").head? := by
  have hw := h.wellFormed
  rw [headingText?_eq_head?, captions_eq_append hw (contains_of_kind? h.root), h.parts]
  simp [h.tag?_root, captions_eq hw ht, captions_eq hw hu]

end Document

end CopyControl
