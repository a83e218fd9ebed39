import CopyControl.Markdown.Fragment

/-!
Whole pages from Markdown events: a fresh page, and a new body for a page that is already live.
-/

namespace CopyControl.Markdown

open CopyControl.Document

/-- What a page links to besides its content. -/
structure PageOptions where
  stylesheet : Option String
deriving DecidableEq, Repr, Inhabited

/-- Adds an element with the given attributes to the head. -/
def addToHead (tag : String) (attributes : List (String × String)) : Edit Unit := do
  let element ← createElement tag
  attributes.forM fun (name, value) => setAttribute element name value
  appendChild (← get).head element

/-- Appends the nodes to the body, in order. -/
def fillBody (nodes : List NodeId) : Edit Unit :=
  nodes.forM fun node => do appendChild (← get).body node

/-- Gives the page the text of its first `h1` as title, if it has one. -/
def addTitle : Edit Unit := do
  let d ← get
  match (d.elementsByTag "h1").head? with
  | some heading =>
    let title ← createElement "title"
    let _ ← appendText title (d.textContent heading)
    appendChild d.head title
  | none => pure ()

/-- Fills an empty document with a page. -/
def fillPage (events : List Event) (options : PageOptions) : Edit Unit := do
  addToHead "meta" [("charset", "utf-8")]
  match options.stylesheet with
  | some href => addToHead "link" [("rel", "stylesheet"), ("href", href)]
  | none => pure ()
  fillBody (← buildFragment events)
  addTitle

/-- A fresh page, still loading. -/
def buildPage (events : List Event) (options : PageOptions) : Except DocumentError Document :=
  match (fillPage events options).apply .new with
  | (.ok _, d) => .ok d
  | (.error e, _) => .error e

/-- Replaces the body of a live page; answers how many top-level nodes it then has. The head,
the title included, stays as it is. -/
def replaceBody (events : List Event) : Edit Nat := do
  let nodes ← buildFragment events
  replaceChildren (← get).body nodes
  return nodes.length

end CopyControl.Markdown
