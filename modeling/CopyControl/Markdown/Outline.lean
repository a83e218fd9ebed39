import CopyControl.Markdown.Leaf

/-!
Reading the block structure of a page.

The reader goes from block to block. It first finds which open containers the line is still in
and closes the others, then opens new ones, and hands what is left of the line to the reader of a
leaf block. Every step uses at least one line.

A list is loose if a blank line stands between two blocks of an item or between two items. That
is known only when the block behind the blank line begins, so the reader remembers that a line
was blank until it sees what comes.
-/

namespace CopyControl.Markdown

/-- An open container with the blocks it has so far, latest first. -/
structure Frame where
  container : Container
  blocks : List Block
deriving Repr, Inhabited

/-- What the block reader knows between two lines. -/
structure Outline where
  /-- Open containers, innermost first. -/
  frames : List Frame
  /-- Blocks outside of all containers, latest first. -/
  top : List Block
  /-- Whether the innermost item has had nothing but its marker so far. -/
  fresh : Bool
  /-- Whether the last line was blank. -/
  afterBlank : Bool
  /-- Definitions, latest first. -/
  definitions : List Definition
deriving Repr, Inhabited

namespace Outline

def start : Outline where
  frames := []
  top := []
  fresh := false
  afterBlank := false
  definitions := []

/-- The open containers, outermost first. -/
def containers (o : Outline) : List Container :=
  (o.frames.map (·.container)).reverse

def innermost? (o : Outline) : Option Container :=
  o.frames.head?.map (·.container)

/-- Whether the innermost container is an item. -/
def isInItem (o : Outline) : Bool :=
  (o.innermost?.map Container.isItem).getD false

/-- Adds a block to the innermost container. -/
def add (o : Outline) (b : Block) : Outline :=
  match o.frames with
  | f :: outer => { o with frames := { f with blocks := b :: f.blocks } :: outer }
  | [] => { o with top := b :: o.top }

/-- Opens a container inside the innermost one. -/
def openContainer (o : Outline) (c : Container) : Outline :=
  { o with frames := ⟨c, []⟩ :: o.frames }

/-- Closes the innermost container. -/
def close (o : Outline) : Outline :=
  match o.frames with
  | f :: outer =>
    { o with frames := outer, fresh := false }.add (f.container.toBlock f.blocks.reverse)
  | [] => o

/-- Closes the innermost `n` containers. -/
def closeMany (o : Outline) : Nat → Outline
  | 0 => o
  | n + 1 => o.close.closeMany n

/-- Changes the `n`-th container from the inside. -/
def modifyContainer (o : Outline) (n : Nat) (f : Container → Container) : Outline :=
  { o with frames := o.frames.modify n fun frame => { frame with container := f frame.container } }

/-! ## Lists -/

/-- Closes an item that has only its marker in front of a blank line. -/
def closeEmptyItem (o : Outline) : Outline :=
  let o := if o.fresh && o.afterBlank && o.isInItem then o.close else o
  { o with fresh := false }

/-- Leaves the list that has just been left by its last item, as a block other than an item
begins. Behind a blank line, the list around that block is loose. -/
def leaveList (o : Outline) : Outline :=
  let o := o.closeEmptyItem
  let o := if (o.innermost?.map Container.isList).getD false then o.close else o
  if o.afterBlank then { o.modifyContainer 1 .loosen with afterBlank := false } else o

/-- Goes on with the list that an item belongs to, or begins one. -/
def continueList (o : Outline) (m : ListMarker) : Outline :=
  let o := o.closeEmptyItem
  match o.innermost? with
  | some (.list sign _ _) =>
    if sign = m.sign then
      if o.afterBlank then { o.modifyContainer 0 .loosen with afterBlank := false } else o
    else { o.leaveList.openContainer (.list m.sign m.number true) with afterBlank := false }
  | _ => { o.leaveList.openContainer (.list m.sign m.number true) with afterBlank := false }

/-! ## Lines -/

/-- What the line holds behind the containers that it opens. -/
inductive Remainder where
  /-- Nothing more: it begins an empty item. -/
  | nothing
  /-- The text of an item with a check box. -/
  | task (checked : Bool) (text : List Char)
  | content (c : Cursor)
deriving Repr, Inhabited

/-- Opens the containers that begin on the line, at most `fuel` of them. -/
def openContainers (o : Outline) : Nat → Cursor → Outline × Remainder
  | 0, c => (o, .content c)
  | fuel + 1, c =>
    let (outer, inner) := c.columnsUpTo 4
    if 4 ≤ outer then (o, .content c)
    else
      match listMarker? inner outer, inner.char? '>' with
      | some (m, behind), _ =>
        let o := (o.continueList m).openContainer (.item m.indent)
        if behind.isBlank then ({ o with fresh := true }, .nothing)
        else
          match taskMark? behind with
          | some (checked, behind) =>
            if behind.isBlank then ({ o.add (.task checked) with fresh := true }, .nothing)
            else (o, .task checked (behind.rest.dropWhile Text.isLineBlank))
          | none => openContainers o fuel behind
      | none, some behind =>
        openContainers (o.leaveList.openContainer .quote) fuel (behind.columns 1).2
      | none, none => (o, .content c)

/-- Takes a blank line. An item with only its marker has no content behind it. -/
def blankLine (o : Outline) : Outline :=
  match o.innermost? with
  | some .quote => o
  | some (.item _) =>
    let o := if o.fresh then o.modifyContainer 0 (fun _ => .item 0) else o
    { o with afterBlank := true }
  | _ => { o with afterBlank := true }

/-- The HTML block that a line starts where no paragraph is open. -/
def startingHtml? (s : List Char) : Option HtmlEnd :=
  match interruptingHtml? s with
  | some e => some e
  | none => if isTagLine s then some .blankLine else none

/-- Reads a block that is neither indented code nor a container, from where the indentation of
`indent` columns ends. -/
def readLeaf (o : Outline) (indent : Nat) (first : Line) (rest : List Line) :
    Outline × List Line :=
  let containers := o.containers
  let added (r : Block × List Line) : Outline × List Line := (o.add r.1, r.2)
  match startingHtml? first.text with
  | some e => added (readHtml containers e indent first rest)
  | none =>
    if isThematicBreak first.text then (o.add .rule, rest)
    else
      match headingMark? first.text with
      | some (level, s) =>
        let content := headingContent (s.dropWhile Text.isLineBlank)
        (o.add (.heading level none (Glyph.ofChars content)), rest)
      | none =>
        let (verbatim, left) := joinCarriage first rest
        match fence? verbatim.text with
        | some fence => added (readFencedCode containers fence indent left)
        | none =>
          match readDefinition? containers first rest with
          | some (definition, left) =>
            ({ o with definitions := definition :: o.definitions }, left)
          | none =>
            match tableColumns? containers first.text rest with
            | some columns => added (readTable containers columns first rest)
            | none => added (readParagraph containers none first rest)

/-- Reads what a line holds behind its containers, and the lines that belong to it. -/
def readContent (o : Outline) (l : Line) (c : Cursor) (rest : List Line) : Outline × List Line :=
  if c.isBlank then (o.blankLine, rest)
  else
    let o := o.leaveList
    let (indent, inner) := c.columnsUpTo 4
    if indent = 4 then
      let (block, endsBlank, left) := readIndentedCode o.containers l inner rest
      ({ o.add block with afterBlank := endsBlank }, left)
    else o.readLeaf indent { l with text := inner.rest } rest

/-- Reads one line and those that belong to the same block. -/
def readLine (o : Outline) (l : Line) (rest : List Line) : Outline × List Line :=
  let f := l.footing o.containers
  let o := o.closeMany (o.frames.length - f.matched)
  match o.openContainers (l.text.length + 1) f.cursor with
  | (o, .nothing) => (o, rest)
  | (o, .task checked text) =>
    let (block, left) := readParagraph o.containers (some checked) { l with text } rest
    (o.add block, left)
  | (o, .content c) => o.readContent l c rest

/-- Reads lines, block by block. -/
def readLines : Nat → Outline → List Line → Outline
  | 0, o, _ => o
  | _, o, [] => o
  | fuel + 1, o, l :: rest =>
    let (o, left) := o.readLine l rest
    readLines fuel o left

end Outline

/-- The blocks of a page, and the link definitions in it, earliest first. -/
def outline (text : List Char) : List Block × List Definition :=
  let lines := splitLines text
  let o := Outline.readLines lines.length .start lines
  let o := o.closeMany o.frames.length
  (o.top.reverse, o.definitions.reverse)

end CopyControl.Markdown
