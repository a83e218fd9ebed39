import CopyControl.Proofs.Document.Markup
import CopyControl.Proofs.Document.Rooted

/-!
What is spoken of a document where its images are not seen.

That is the text in its HTML, and for an image its `alt`. Raw markup is not looked into. Nothing
below a void element is in the HTML, so nothing there is spoken, although it is in the document.

* §1 the `alt`s of a document
* §2 what is spoken of HTML
* §3 what is spoken of trees
-/

namespace CopyControl

open Html

/-! ## §1 The `alt`s of a document -/

/-- The `alt` of an image, if the node is one and has one. -/
def NodeKind.alts : NodeKind → List (Option String)
  | .element e => if e.tag = "img" then [e.attribute? "alt"] else []
  | _ => []

/-- The `alt`s of the images in some trees, in document order. -/
def Tree.alts (ts : List Tree) : List (Option String) :=
  (Tree.kindsOf ts).flatMap NodeKind.alts

/-- The `alt`s of the images at and below a node, in document order. -/
def Document.alts (d : Document) (x : NodeId) : List (Option String) :=
  ((d.descendants x).filter fun y => d.tag? y = some "img").map (d.attribute? · "alt")

namespace Tree

theorem kindsOf_append (ts us : List Tree) : kindsOf (ts ++ us) = kindsOf ts ++ kindsOf us := by
  induction ts with
  | nil => rfl
  | cons t ts ih => rw [List.cons_append, kindsOf, kindsOf, ih, List.append_assoc]

theorem kindsOf_eq_nil_iff {ts : List Tree} : kindsOf ts = [] ↔ ts = [] := by
  cases ts with
  | nil => simp [kindsOf]
  | cons t ts =>
    cases t
    simp [kindsOf, kinds]

@[simp] theorem alts_nil : alts [] = [] := rfl

@[simp] theorem alts_append (ts us : List Tree) : alts (ts ++ us) = alts ts ++ alts us := by
  rw [alts, kindsOf_append, List.flatMap_append, alts, alts]

@[simp] theorem alts_node (n : NodeId) (k : NodeKind) (ts : List Tree) :
    alts [.node n k ts] = k.alts ++ alts ts := by
  simp [alts, kindsOf, kinds]

end Tree

namespace Document

variable {d : Document} {x : NodeId}

theorem alts_eq_flatMap (d : Document) (l : List NodeId) :
    (l.filter fun y => d.tag? y = some "img").map (d.attribute? · "alt") =
      (l.map d.kind?).flatMap fun k => (k.map NodeKind.alts).getD [] := by
  induction l with
  | nil => rfl
  | cons y l ih =>
    have hy : (if d.tag? y = some "img" then [d.attribute? y "alt"] else []) =
        ((d.kind? y).map NodeKind.alts).getD [] := by
      rw [tag?, attribute?, element?]
      cases d.kind? y with
      | none => rfl
      | some k => cases k <;> simp [NodeKind.alts, NodeKind.element?]
    rw [List.map_cons, List.flatMap_cons, ← ih, ← hy]
    by_cases h : d.tag? y = some "img" <;> simp [h]

/-- The `alt`s below a node are those of its shape. -/
theorem alts_eq (hw : d.WellFormed) {t : Tree} (ht : d.shape? x = some t) :
    d.alts x = Tree.alts [t] := by
  rw [Document.alts, alts_eq_flatMap, map_kind?_descendants hw ht, List.flatMap_map, Tree.alts,
    Tree.kindsOf, Tree.kindsOf, List.append_nil]
  rfl

end Document

/-! ## §2 What is spoken of HTML -/

mutual

/-- The text of markup, and for an image its `alt`. -/
def Markup.spoken : Markup → List Char
  | .text s => s.toList
  | .raw _ => []
  | .element tag attributes content =>
    (if tag = "img" then ((attributes.lookup "alt").getD "").toList else []) ++
      Markup.spokenAll content

def Markup.spokenAll : List Markup → List Char
  | [] => []
  | m :: ms => m.spoken ++ Markup.spokenAll ms

end

/-- What is spoken of the HTML at and below a node, which is that of the normal form
(`outerHtml_eq_htmls`). -/
def Document.spoken (d : Document) (x : NodeId) : String :=
  .ofList (Markup.spokenAll (d.normalForm x))

/-! ## §3 What is spoken of trees -/

namespace Markup

theorem spokenAll_prepend (m : Markup) (ms : List Markup) :
    spokenAll (m.prepend ms) = m.spoken ++ spokenAll ms := by
  cases m with
  | raw markup => rfl
  | element tag attributes content => rfl
  | text s =>
    rcases eq_or_ne s "" with rfl | hs
    · rfl
    · cases ms with
      | nil => simp [prepend, hs, spokenAll]
      | cons m ms => cases m <;> simp [prepend, hs, spokenAll, spoken]

end Markup

namespace Tree

/-- What is spoken of trees, one after the other. -/
def spoken (ts : List Tree) : List Char :=
  ts.flatMap fun t => t.markup.spoken

theorem spokenAll_normalForms (ts : List Tree) :
    Markup.spokenAll (normalForms ts) = spoken ts := by
  induction ts with
  | nil => rfl
  | cons t ts ih =>
    rw [normalForms, Markup.spokenAll_prepend, ih]
    rfl

@[simp] theorem spoken_append (ts us : List Tree) : spoken (ts ++ us) = spoken ts ++ spoken us :=
  List.flatMap_append

@[simp] theorem spoken_text (n : NodeId) (s : String) (ts : List Tree) :
    spoken [.node n (.text s) ts] = s.toList := by
  simp [spoken, markup, Markup.spoken]

@[simp] theorem spoken_raw (n : NodeId) (s : String) (ts : List Tree) :
    spoken [.node n (.raw s) ts] = [] := by
  simp [spoken, markup, Markup.spoken]

/-- Around what it holds an element adds nothing that is spoken, -/
theorem spoken_element {e : Element} (he : e.tag ∉ voidElements) (n : NodeId) (ts : List Tree) :
    spoken [.node n (.element e) ts] = spoken ts := by
  have himg : e.tag ≠ "img" := by
    rintro h
    exact he (h ▸ by decide)
  have hvoid : voidElements.contains e.tag = false := by simpa using he
  rw [spoken, List.flatMap_singleton, markup, Markup.spoken, if_neg himg, hvoid,
    ← spokenAll_normalForms]
  rfl

/-- and of a void one nothing is spoken but the `alt`, if it is an image. -/
theorem spoken_void {e : Element} (he : e.tag ∈ voidElements) (n : NodeId) (ts : List Tree) :
    spoken [.node n (.element e) ts] =
      if e.tag = "img" then (((writtenAttributes e).lookup "alt").getD "").toList else [] := by
  simp [spoken, markup, Markup.spoken, he, Markup.spokenAll]

mutual

theorem markup_unnamed : (t : Tree) → t.unnamed.markup = t.markup
  | .node _ kind children => by
    cases kind <;> simp [unnamed, markup, normalForms_unnamedAll children]

theorem normalForms_unnamedAll : (ts : List Tree) → normalForms (unnamedAll ts) = normalForms ts
  | [] => rfl
  | t :: ts => by
    rw [unnamedAll, normalForms, markup_unnamed t, normalForms_unnamedAll ts, normalForms]

end

end Tree

/-- What is spoken of a node is what is spoken of its shape. -/
theorem Document.spoken_eq {d : Document} {x : NodeId} {t : Tree} (ht : d.shape? x = some t) :
    d.spoken x = .ofList (Tree.spoken [t]) := by
  obtain ⟨u, hu, rfl⟩ := Option.map_eq_some_iff.mp ht
  have hunnamed : Tree.spoken [u.unnamed] = Tree.spoken [u] := by
    simp [Tree.spoken, Tree.markup_unnamed]
  rw [Document.spoken, normalForm, hu, Option.map_some, Option.getD_some, Tree.normalForm,
    Tree.spokenAll_normalForms, hunnamed]

end CopyControl
