import CopyControl.Markdown.Line
import CopyControl.Markdown.Link

/-!
What an opening angle bracket can begin: an autolink, or markup that is kept as it is.

Each reader starts behind the bracket and answers what follows the closing one.
-/

namespace CopyControl.Markdown

/-! ## Tags -/

def isNameChar (c : Char) : Bool :=
  c.isAlphanum || c = '-'

def isAttributeStart (c : Char) : Bool :=
  c.isAlpha || c = '_' || c = ':'

def isAttributeChar (c : Char) : Bool :=
  c.isAlphanum || c = '_' || c = '.' || c = ':' || c = '-'

/-- Characters of an attribute value without quotes. -/
def isBareValueChar (c : Char) : Bool :=
  !(c = '\'' || c = '"' || c = ' ' || c = '=' || c = '>' || c = '<' || c = Char.ofNat 96 ||
    c = '\n' || c = '\r')

/-- What follows the first `c`. -/
def behindChar? (c : Char) (gs : List Glyph) : Option (List Glyph) :=
  match gs.dropWhile (·.char != c) with
  | _ :: rest => some rest
  | [] => none

/-- What follows an attribute value. -/
def attributeValue? : List Glyph → Option (List Glyph)
  | [] => none
  | g :: rest =>
    if g.char = '"' || g.char = '\'' then behindChar? g.char rest
    else if isBareValueChar g.char then some (rest.dropWhile fun g => isBareValueChar g.char)
    else none

/-- What follows an attribute, its value included if it has one. -/
def attribute? : List Glyph → Option (List Glyph)
  | [] => none
  | g :: rest =>
    if isAttributeStart g.char then
      let rest := rest.dropWhile fun g => isAttributeChar g.char
      match dropSpace rest with
      | ⟨'=', _⟩ :: value => attributeValue? (dropSpace value)
      | _ => some rest
    else none

/-- What follows the attributes of a start tag and its end, with at most `fuel` attributes. Blanks
stand in front of each attribute. -/
def attributes? : Nat → List Glyph → Option (List Glyph)
  | 0, _ => none
  | fuel + 1, gs =>
    match dropSpace gs with
    | ⟨'>', _⟩ :: rest => some rest
    | ⟨'/', _⟩ :: ⟨'>', _⟩ :: rest => some rest
    | ⟨'/', _⟩ :: _ => none
    | next =>
      if next.length = gs.length then none
      else (attribute? next).bind (attributes? fuel)

/-- A start tag or an end tag. -/
def tag? : List Glyph → Option (List Glyph)
  | ⟨'/', _⟩ :: g :: rest =>
    if g.char.isAlpha then
      match dropBlanks (rest.dropWhile fun g => isNameChar g.char) with
      | ⟨'>', _⟩ :: rest => some rest
      | _ => none
    else none
  | g :: rest =>
    if g.char.isAlpha then
      let rest := rest.dropWhile fun g => isNameChar g.char
      attributes? (rest.length + 1) rest
    else none
  | [] => none

/-! ## Other markup -/

/-- What follows the first occurrence of a text. -/
def behindText? (s : List Char) : List Glyph → Option (List Glyph)
  | [] => none
  | g :: rest =>
    if Glyph.chars ((g :: rest).take s.length) = s then some ((g :: rest).drop s.length)
    else behindText? s rest

/-- What follows closing square brackets, if any, and an angle bracket. -/
def behindBrackets? (gs : List Glyph) : Option (List Glyph) :=
  match gs.dropWhile (·.char = ']') with
  | ⟨'>', _⟩ :: rest => some rest
  | _ => none

/-- What follows a comment, a processing instruction, a declaration or a character data section.
The arrow that closes a comment may share hyphens with the opening mark; the first run of closing
brackets in character data has to be the one that closes it. -/
def verbatim? : List Glyph → Option (List Glyph)
  | ⟨'!', _⟩ :: ⟨'-', i⟩ :: ⟨'-', j⟩ :: rest =>
    behindText? ['-', '-', '>'] (⟨'-', i⟩ :: ⟨'-', j⟩ :: rest)
  | ⟨'?', _⟩ :: rest => behindText? ['?', '>'] rest
  | ⟨'!', _⟩ :: g :: rest =>
    if g.char.isAlpha then behindChar? '>' rest
    else if g.char = '[' && "CDATA[".toList.isPrefixOf (Glyph.chars rest) then
      (behindChar? ']' (rest.drop 6)).bind behindBrackets?
    else none
  | _ => none

/-- Inline markup: its text, and what follows. A tag is written without the margins of the lines
it runs over, anything else with them. -/
def inlineMarkup? (gs : List Glyph) : Option (List Char × List Glyph) :=
  match tag? gs with
  | some rest => some ('<' :: Glyph.visible (gs.take (gs.length - rest.length)), rest)
  | none => (verbatim? gs).map fun rest =>
      ('<' :: Glyph.chars (gs.take (gs.length - rest.length)), rest)

/-- Whether a line, from its first bracket on, is one complete tag and nothing else. -/
def isTagLine : List Char → Bool
  | '<' :: s =>
    match tag? (Glyph.ofChars s) with
    | some rest => isBlankRest (Glyph.chars rest)
    | none => false
  | _ => false

/-! ## Autolinks -/

/-- The part of an address up to the closing bracket, if no blank or other bracket comes first. -/
def addressRest? : List Glyph → Option (List Char × List Glyph)
  | [] => none
  | g :: rest =>
    if g.char = '>' then some ([], rest)
    else if g.char.toNat ≤ 0x20 || g.char = '<' then none
    else (addressRest? rest).map fun (s, rest) => (g.char :: s, rest)

def isSchemeChar (c : Char) : Bool :=
  c.isAlphanum || c = '.' || c = '-' || c = '+'

/-- An absolute address: a scheme of 2 to 32 characters, a colon, and anything without blanks. -/
def absoluteAddress? (gs : List Glyph) : Option (List Char × List Glyph) :=
  let scheme := Glyph.chars (gs.takeWhile fun g => isSchemeChar g.char)
  match gs.drop scheme.length with
  | ⟨':', _⟩ :: _ =>
    if (scheme.head?.map Char.isAlpha).getD false && 2 ≤ scheme.length && scheme.length ≤ 32 then
      addressRest? gs
    else none
  | _ => none

def isMailboxChar (c : Char) : Bool :=
  c.isAlphanum || (".!#$%&'*+/=?^_" ++ "\x7b|\x7d~-").contains c || c = Char.ofNat 96

/-- The labels of a domain, with dots between them, up to the closing bracket. Each label has 1 to
63 letters, digits and hyphens, with no hyphen at either end. -/
def domain? : Nat → List Glyph → Option (List Glyph)
  | 0, _ => none
  | fuel + 1, gs =>
    let label := Glyph.chars (gs.takeWhile fun g => isNameChar g.char)
    if label.isEmpty || 63 < label.length || label.head? = some '-' || label.getLast? = some '-'
    then none
    else
      match gs.drop label.length with
      | ⟨'.', _⟩ :: rest => domain? fuel rest
      | ⟨'>', _⟩ :: rest => some rest
      | _ => none

/-- A mail address. -/
def mailAddress? (gs : List Glyph) : Option (List Char × List Glyph) :=
  match gs.dropWhile fun g => isMailboxChar g.char with
  | ⟨'@', _⟩ :: behind =>
    if behind.length + 1 = gs.length then none
    else (domain? (behind.length + 1) behind).map fun rest =>
      (Glyph.chars (gs.take (gs.length - rest.length - 1)), rest)
  | _ => none

/-- An address between angle brackets. -/
def autolink? (gs : List Glyph) : Option (List Char × List Glyph) :=
  absoluteAddress? gs <|> mailAddress? gs

end CopyControl.Markdown
