import CopyControl.Document.Text

/-!
HTML text of a document.

Text and attribute values are escaped, raw markup is written as it stands, and the children of
a void element are not written.
-/

namespace CopyControl.Html

/-- Elements written without content and without an end tag. -/
def voidElements : List String :=
  ["br", "hr", "img", "input", "link", "meta"]

def escapeTextChar : Char → List Char
  | '&' => "&amp;".toList
  | '<' => "&lt;".toList
  | '>' => "&gt;".toList
  | c => [c]

def escapeAttributeChar : Char → List Char
  | '&' => "&amp;".toList
  | '"' => "&quot;".toList
  | '<' => "&lt;".toList
  | c => [c]

def escapeText (s : List Char) : List Char :=
  s.flatMap escapeTextChar

def escapeAttribute (s : List Char) : List Char :=
  s.flatMap escapeAttributeChar

/-- One attribute with the blank in front of it. -/
def writtenPair (name value : String) : List Char :=
  ' ' :: name.toList ++ "=\"".toList ++ escapeAttribute value.toList ++ ['"']

/-- The attributes as written: the classes first, joined by blanks, when there are any. -/
def writtenAttributes (e : Element) : List (String × String) :=
  (if e.classes.isEmpty then [] else [("class", " ".intercalate e.classes)]) ++ e.attributes

def startTag (e : Element) : List Char :=
  '<' :: e.tag.toList ++ (writtenAttributes e).flatMap (fun (n, v) => writtenPair n v) ++ ['>']

def endTag (tag : String) : List Char :=
  "</".toList ++ tag.toList ++ ['>']

end CopyControl.Html

namespace CopyControl

open Html

mutual

/-- HTML of a subtree. -/
def Tree.html : Tree → List Char
  | .node _ kind children =>
    match kind with
    | .text s => escapeText s.toList
    | .raw markup => markup.toList
    | .element e =>
      if voidElements.contains e.tag then startTag e
      else startTag e ++ Tree.htmls children ++ endTag e.tag

/-- HTML of a list of subtrees. -/
def Tree.htmls : List Tree → List Char
  | [] => []
  | t :: ts => t.html ++ Tree.htmls ts

end

namespace Document

/-- HTML at and below a node; empty for a handle that names none. -/
def outerHtml (d : Document) (id : NodeId) : String :=
  .ofList (((d.tree? id).map Tree.html).getD [])

/-- HTML of the whole document with its doctype. -/
def pageHtml (d : Document) : String :=
  "<!DOCTYPE html>\n" ++ d.outerHtml d.root ++ "\n"

end Document

end CopyControl
