import CopyControl.Markdown.Angle
import CopyControl.Markdown.Emphasis

/-!
Reading inline content.

The content of a leaf block is read once from left to right. Code spans, autolinks and markup are
taken where they begin; an opening bracket is remembered until a closing one shows whether the
two enclose the text of a link. Delimiter runs are paired when the content they are in, a link's
text or the whole, is complete.
-/

namespace CopyControl.Markdown

/-- What inline content is read with: the link definitions of the page, and whether the content
is that of a table cell. -/
structure InlineContext where
  definitions : List Definition
  inTable : Bool

/-- The target that a label stands for: the first definition counts. -/
def InlineContext.target? (ctx : InlineContext) (label : List Char) : Option LinkTarget :=
  ctx.definitions.lookup label

/-! ## Code spans -/

def isBacktick (c : Char) : Bool :=
  c = Char.ofNat 96

/-- The backticks at the start. -/
def backtickRun (gs : List Glyph) : Nat :=
  (gs.takeWhile fun g => isBacktick g.char).length

/-- The content in front of the next run of exactly `n` backticks, and what follows the run. -/
def behindBackticks? (n : Nat) : Nat → List Glyph → Option (List Glyph × List Glyph)
  | 0, _ => none
  | _, [] => none
  | fuel + 1, g :: rest =>
    let run := backtickRun (g :: rest)
    let rest := (g :: rest).drop (max run 1)
    if run = n then some ([], rest)
    else
      (behindBackticks? n fuel rest).map fun (content, behind) =>
        (if run = 0 then g :: content else List.replicate run g ++ content, behind)

/-- The text of a code span: a line end is a space, margins are left out, and in a table a
backslash in front of a pipe is left out. -/
def codeText (inTable : Bool) : Nat → List Glyph → List Char
  | 0, _ => []
  | _, [] => []
  | fuel + 1, g :: rest =>
    match lineEnd? (g :: rest) with
    | some rest => ' ' :: codeText inTable fuel (rest.dropWhile (·.margin))
    | none =>
      if inTable && g.char = '\\' && rest.head?.map (·.char) = some '|' then
        '|' :: codeText inTable fuel rest.tail
      else g.char :: codeText inTable fuel rest

/-- Drops a space at each end when both are there and there is more than spaces. -/
def stripCode (s : List Char) : List Char :=
  if s.head? = some ' ' && s.getLast? = some ' ' && !s.all (· = ' ') then s.tail.dropLast else s

/-- Reads a code span behind its opening run of `n` backticks. -/
def codeSpan? (inTable : Bool) (n : Nat) (gs : List Glyph) : Option (List Char × List Glyph) :=
  (behindBackticks? n gs.length gs).map fun (content, rest) =>
    (stripCode (codeText inTable content.length content), rest)

/-! ## The reader -/

/-- An opening bracket that has not been closed. -/
structure Bracket where
  image : Bool
  /-- Whether it can still open a link: not when there is a link behind it already. -/
  active : Bool
  /-- The pieces in front of the bracket, latest first. -/
  outer : List Piece
  /-- What follows the bracket. -/
  behind : List Glyph
deriving Repr, Inhabited

/-- What the inline reader has read. -/
structure InlineState where
  /-- Pieces since the innermost open bracket, latest first. -/
  pieces : List Piece
  /-- Plain text that is not a piece yet, latest character first. -/
  plain : List Char
  /-- Innermost first. -/
  brackets : List Bracket
  /-- The closing brackets whose label has been found to stand for nothing, by the number of
  characters behind them. -/
  spent : List Nat
deriving Repr, Inhabited

namespace InlineState

def start : InlineState where
  pieces := []
  plain := []
  brackets := []
  spent := []

/-- Makes the plain text a piece, if there is any. -/
def flush (s : InlineState) : InlineState :=
  if s.plain.isEmpty then s
  else { s with pieces := .inline (.text s.plain.reverse) :: s.pieces, plain := [] }

/-- Adds a piece behind the plain text. -/
def push (s : InlineState) (p : Piece) : InlineState :=
  let s := s.flush
  { s with pieces := p :: s.pieces }

def pushText (s : InlineState) (text : List Char) : InlineState :=
  s.push (.inline (.text text))

/-- Drops the blanks at the end of the plain text. -/
def trimPlain (s : InlineState) : InlineState :=
  { s with plain := s.plain.dropWhile Text.isLineBlank }

/-- Ends a line: with two or more blanks before it, the end is a hard break. -/
def breakLine (s : InlineState) : InlineState :=
  let blanks := (s.plain.takeWhile Text.isLineBlank).length
  s.trimPlain.push (.inline (if 2 ≤ blanks then .hardBreak else .softBreak))

/-! ### Brackets -/

/-- The text of an opening bracket that opens nothing. -/
def Bracket.text (b : Bracket) : List Char :=
  if b.image then ['!', '['] else ['[']

def openBracket (s : InlineState) (image : Bool) (behind : List Glyph) : InlineState :=
  let s := s.flush
  { s with pieces := [], brackets := ⟨image, true, s.pieces, behind⟩ :: s.brackets }

/-- Gives up the innermost open bracket. -/
def dropBracket (s : InlineState) : InlineState :=
  match s.brackets with
  | b :: outer =>
    { s with
      pieces := s.pieces ++ .inline (.text (Bracket.text b)) :: b.outer
      brackets := outer }
  | [] => s

/-- Makes a link or an image of what is behind the innermost open bracket. A link has no link
around it. -/
def closeLink (s : InlineState) (target : LinkTarget) : InlineState :=
  match s.brackets with
  | b :: outer =>
    let content := pairRuns s.pieces.reverse
    let made := if b.image then Inline.image target content else .link target content
    { s with
      pieces := .inline made :: b.outer
      brackets :=
        if b.image then outer
        else outer.map fun b => if b.image then b else { b with active := false } }
  | [] => s

/-- What follows the link that a closing bracket completes, and its target. `rest` follows the
bracket. Answers also which closing bracket cannot be that of a reference any more. -/
def linkBehind? (ctx : InlineContext) (s : InlineState) (b : Bracket) (rest : List Glyph) :
    Option (LinkTarget × List Glyph) × Option Nat :=
  match inlineTarget? ctx.inTable rest with
  | some found => (some found, none)
  | none =>
    let own (behind : List Glyph) : Option (LinkTarget × List Glyph) :=
      if s.spent.contains rest.length then none
      else
        match label? ctx.inTable b.behind with
        | some (label, left) =>
          if left.length = rest.length then (ctx.target? label).map (·, behind) else none
        | none => none
    match rest with
    | ⟨'[', _⟩ :: ⟨']', _⟩ :: behind => (own behind, none)
    | ⟨'[', _⟩ :: inner =>
      match label? ctx.inTable inner with
      | some (label, behind) => ((ctx.target? label).map (·, behind), some behind.length)
      | none => (own rest, none)
    | _ => (own rest, none)

/-- Takes a closing bracket; answers also what follows what it closes. -/
def closeBracket (ctx : InlineContext) (s : InlineState) (rest : List Glyph) :
    InlineState × List Glyph :=
  let s := s.flush
  match s.brackets with
  | [] => (s.pushText [']'], rest)
  | b :: _ =>
    if !b.active then (s.dropBracket.pushText [']'], rest)
    else
      let (found, spent) := linkBehind? ctx s b rest
      let s := { s with spent := spent.toList ++ s.spent }
      match found with
      | some (target, behind) => (s.closeLink target, behind)
      | none => (s.dropBracket.pushText [']'], rest)

/-! ### Characters -/

/-- Takes a run of backticks and, if it opens a code span, the span. Behind a backslash the first
backtick stands for itself. -/
def takeBackticks (ctx : InlineContext) (s : InlineState) (escaped : Bool) (gs : List Glyph) :
    InlineState × List Glyph :=
  let run := backtickRun gs
  let n := if escaped then run - 1 else run
  let rest := gs.drop run
  let tick := Char.ofNat 96
  match if n = 0 then none else codeSpan? ctx.inTable n rest with
  | some (code, behind) =>
    ((if escaped then s.pushText [tick] else s).push (.inline (.code code)), behind)
  | none => (s.pushText (List.replicate run tick), rest)

/-- Takes a backslash. In front of punctuation it is an escape, and at the end of a line a hard
break. -/
def takeBackslash (ctx : InlineContext) (s : InlineState) (rest : List Glyph) :
    InlineState × List Glyph :=
  match lineEnd? rest with
  | some behind => (s.push (.inline .hardBreak), behind)
  | none =>
    match (rest.take 2).map (·.char), rest with
    | x :: more, _ :: behind =>
      if isBacktick x then takeBackticks ctx s true rest
      else if ctx.inTable && x = '\\' && more = ['|'] then
        ({ s.flush with plain := ['|'] }, behind.tail)
      else if Text.isAsciiPunctuation x then ({ s.flush with plain := [x] }, behind)
      else ({ s with plain := '\\' :: s.plain }, rest)
    | _, _ => ({ s with plain := '\\' :: s.plain }, rest)

/-- Takes an opening angle bracket and what it begins. -/
def takeAngle (s : InlineState) (rest : List Glyph) : InlineState × List Glyph :=
  if rest.head?.map (·.char) = some '\\' then ({ s with plain := '<' :: s.plain }, rest)
  else
    match autolink? rest with
    | some (address, behind) =>
      (s.push (.inline (.link ⟨.ofList address, ""⟩ [.text address])), behind)
    | none =>
      match inlineMarkup? rest with
      | some (markup, behind) => (s.push (.inline (.markup markup)), behind)
      | none => (s.pushText ['<'], rest)

/-- The longest character reference. -/
def referenceLimit : Nat := 40

/-- Takes an ampersand and the character reference that it begins. `gs` begins with it. -/
def takeAmpersand (s : InlineState) (gs : List Glyph) : InlineState × List Glyph :=
  let window := Glyph.chars (gs.take referenceLimit)
  match reference? window with
  | some (text, left) => (s.pushText text, gs.drop (window.length - left.length))
  | none => ({ s with plain := '&' :: s.plain }, gs.tail)

/-- Takes a run of a delimiter. `gs` begins with it, and `before` is in front of it. -/
def takeRun (s : InlineState) (mark : Char) (before : Option Char) (gs : List Glyph) :
    InlineState × List Glyph :=
  let length := (gs.takeWhile (·.char = mark)).length
  let rest := gs.drop length
  let after := rest.head?.map (·.char)
  let canOpen := canOpenBetween mark length before after
  let canClose := canCloseBetween mark length before after
  if (canOpen || canClose) && (mark != '~' || length ≤ 2) then
    (s.push (.run ⟨mark, length, canOpen, canClose⟩), rest)
  else ({ s with plain := List.replicate length mark ++ s.plain }, rest)

/-- Characters that can begin something other than plain text. -/
def isSpecial (c : Char) : Bool :=
  c = '\\' || isBacktick c || c = '<' || c = '&' || c = '[' || c = '!' || c = ']' || c = '*' ||
    c = '_' || c = '~'

/-- Takes a special character and what it begins. -/
def takeSpecial (ctx : InlineContext) (s : InlineState) (before : Option Char) (c : Char)
    (rest : List Glyph) : InlineState × List Glyph :=
  if c = '\\' then s.takeBackslash ctx rest
  else if isBacktick c then s.takeBackticks ctx false (⟨c, false⟩ :: rest)
  else if c = '<' then s.takeAngle rest
  else if c = '&' then s.takeAmpersand (⟨c, false⟩ :: rest)
  else if c = '[' then (s.openBracket false rest, rest)
  else if c = ']' then s.closeBracket ctx rest
  else if c = '!' then
    if rest.head?.map (·.char) = some '[' then (s.openBracket true rest.tail, rest.tail)
    else ({ s with plain := c :: s.plain }, rest)
  else s.takeRun c before (⟨c, false⟩ :: rest)

/-- The last character of `gs` in front of `rest`, unless that is a line end. -/
def lastBefore? (gs rest : List Glyph) : Option Char :=
  match (gs.drop (gs.length - rest.length - 1)).head? with
  | some g => if g.char = '\n' || g.char = '\r' then none else some g.char
  | none => none

/-- Reads content. `before` is the character in front of it on the line. -/
def read (ctx : InlineContext) : Nat → InlineState → Option Char → List Glyph → InlineState
  | 0, s, _, _ => s
  | _, s, _, [] => s
  | fuel + 1, s, before, g :: rest =>
    match lineEnd? (g :: rest) with
    | some behind => read ctx fuel s.breakLine none (dropIndent behind)
    | none =>
      if isSpecial g.char then
        let (s, behind) := s.takeSpecial ctx before g.char rest
        let before := lastBefore? (g :: rest) behind
        read ctx fuel s before (if before.isNone then dropIndent behind else behind)
      else if g.margin then read ctx fuel s before rest
      else read ctx fuel { s with plain := g.char :: s.plain } (some g.char) rest

/-- Gives up all open brackets. -/
def dropBrackets (s : InlineState) : Nat → InlineState
  | 0 => s
  | n + 1 => s.dropBracket.dropBrackets n

/-- The content that was read. -/
def finish (s : InlineState) : List Inline :=
  let s := s.trimPlain.flush
  pairRuns (s.dropBrackets s.brackets.length).pieces.reverse

end InlineState

/-- Reads the content of a leaf block. -/
def readInline (ctx : InlineContext) (gs : List Glyph) : List Inline :=
  (InlineState.read ctx gs.length .start none gs).finish

end CopyControl.Markdown
