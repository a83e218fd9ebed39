import CopyControl.Markdown.Link
import CopyControl.Text.Blank
import CopyControl.Text.Punctuation

/-!
Inline content, and how runs of stars, underscores and tildes become emphasis.

A run opens or closes emphasis by what stands on either side of it. Pieces are taken from left to
right; runs that can open are kept, innermost first, each with what has followed it. A run that
can close looks for the innermost opener that it goes with, and takes what followed that as its
content.
-/

namespace CopyControl.Markdown

inductive Inline where
  | text (s : List Char)
  | code (s : List Char)
  | markup (s : List Char)
  | softBreak
  | hardBreak
  | emphasis (content : List Inline)
  | strong (content : List Inline)
  | strikethrough (content : List Inline)
  | link (target : LinkTarget) (content : List Inline)
  | image (target : LinkTarget) (content : List Inline)
deriving Repr, Inhabited

/-- A run of one delimiter. -/
structure DelimiterRun where
  mark : Char
  length : Nat
  canOpen : Bool
  canClose : Bool
deriving DecidableEq, Repr, Inhabited

/-- Inline content with its delimiter runs still to be paired. -/
inductive Piece where
  | inline (i : Inline)
  | run (r : DelimiterRun)
deriving Repr, Inhabited

/-! ## What a run can do -/

/-- Whether a run can open emphasis, given the characters before and after it on the line. -/
def canOpenBetween (mark : Char) (length : Nat) (before after : Option Char) : Bool :=
  match after with
  | none => false
  | some a =>
    !Text.isWhiteSpace a &&
      match before with
      | none => true
      | some b =>
        mark = '*' && !Text.isPunctuation a || mark = '~' && 1 < length ||
          mark = '~' && b = '~' && !Text.isPunctuation a ||
          Text.isWhiteSpace b || Text.isPunctuation b

/-- Whether a run can close emphasis, given the characters before and after it on the line. -/
def canCloseBetween (mark : Char) (length : Nat) (before after : Option Char) : Bool :=
  match before with
  | none => false
  | some b =>
    !Text.isWhiteSpace b &&
      match after with
      | none => true
      | some a =>
        (mark = '*' || mark = '~' && 1 < length) && !Text.isPunctuation b ||
          mark = '~' && b = '~' || Text.isWhiteSpace a || Text.isPunctuation a

/-! ## Pairing -/

/-- A run that can open emphasis, with what followed it so far, latest first. -/
structure Opener where
  run : DelimiterRun
  /-- Marks not used yet. -/
  count : Nat
  content : List Inline
deriving Repr, Inhabited

/-- What is known while runs are paired. -/
structure Pairing where
  /-- Innermost first. -/
  openers : List Opener
  /-- Content outside of all openers, latest first. -/
  base : List Inline
  /-- How many of the outermost openers no tilde looks at any more. -/
  tildeFloor : Nat
deriving Repr, Inhabited

namespace Pairing

def start : Pairing where
  openers := []
  base := []
  tildeFloor := 0

/-- Adds content, latest first, behind everything else. -/
def add (p : Pairing) (content : List Inline) : Pairing :=
  match p.openers with
  | o :: outer => { p with openers := { o with content := content ++ o.content } :: outer }
  | [] => { p with base := content ++ p.base }

/-- Marks that stand for themselves. -/
def plainMarks (mark : Char) (count : Nat) : List Inline :=
  List.replicate count (.text [mark])

/-- An opener that pairs with nothing, and its content, latest first. -/
def flatten (o : Opener) : List Inline :=
  o.content ++ plainMarks o.run.mark o.count

/-- Whether a closing run goes with an opener. Tildes go with runs of their own length. Where one
of two runs could both open and close, the lengths must not add up to a multiple of three unless
each is one. -/
def goesWith (r : DelimiterRun) (o : Opener) : Bool :=
  o.run.mark = r.mark && (r.mark != '~' || o.run.length = r.length) &&
    (!(r.canOpen && r.canClose) && !(o.run.canOpen && o.run.canClose) ||
      (r.length + o.run.length) % 3 != 0 || r.length % 3 = 0)

/-- Content wrapped in `n` marks, pairs of them innermost. -/
def wrap (mark : Char) : Nat → List Inline → List Inline
  | 0, content => content
  | 1, content => if mark = '~' then [.strikethrough content] else [.emphasis content]
  | n + 2, content =>
    wrap mark n [if mark = '~' then .strikethrough content else .strong content]

/-- Pairs what it can of a closing run with `count` marks left; answers how many are left then. -/
def closeRun (r : DelimiterRun) : Nat → Nat → Pairing → Nat × Pairing
  | 0, count, p => (count, p)
  | fuel + 1, count, p =>
    let floor := if r.mark = '~' then p.tildeFloor else 0
    let inner := p.openers.takeWhile (!goesWith r ·)
    match p.openers.drop inner.length with
    | o :: outer =>
      if outer.length < floor then (count, { p with tildeFloor := p.openers.length })
      else
        let used := min count o.count
        let content := (inner.flatMap flatten ++ o.content).reverse
        let wrapped := wrap r.mark used content
        let floor := min p.tildeFloor outer.length
        let p :=
          if used < o.count then
            { p with
              openers := { o with count := o.count - used, content := wrapped } :: outer
              tildeFloor := floor }
          else { p with openers := outer, tildeFloor := floor }.add wrapped
        if count = used then (0, p) else closeRun r fuel (count - used) p
    | [] =>
      (count, if r.mark = '~' then { p with tildeFloor := p.openers.length } else p)

/-- Takes a run: it closes what it can, and what is left of it opens or stands for itself. -/
def takeRun (p : Pairing) (r : DelimiterRun) : Pairing :=
  let (left, p) := if r.canClose then closeRun r (r.length + 1) r.length p else (r.length, p)
  if left = 0 then p
  else if r.canOpen then { p with openers := ⟨r, left, []⟩ :: p.openers }
  else p.add (plainMarks r.mark left)

def take (p : Pairing) : Piece → Pairing
  | .inline i => p.add [i]
  | .run r => p.takeRun r

/-- The content, with openers that pair with nothing standing for themselves. -/
def finish (p : Pairing) : List Inline :=
  (p.openers.flatMap flatten ++ p.base).reverse

end Pairing

/-- Pairs the runs among pieces. -/
def pairRuns (pieces : List Piece) : List Inline :=
  (pieces.foldl Pairing.take .start).finish

end CopyControl.Markdown
