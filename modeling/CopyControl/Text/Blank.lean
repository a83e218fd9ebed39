/-!
Blank characters, by two rules: the Unicode `White_Space` property, and the few ASCII characters
that separate words in markup.
-/

namespace CopyControl.Text

/-- The characters with the Unicode property `White_Space`. -/
def isWhiteSpace (c : Char) : Bool :=
  let n := c.toNat
  (9 ≤ n && n ≤ 13) || n = 0x20 || n = 0x85 || n = 0xA0 || n = 0x1680 ||
    (0x2000 ≤ n && n ≤ 0x200A) || n = 0x2028 || n = 0x2029 || n = 0x202F || n = 0x205F ||
    n = 0x3000

/-- Blanks within a line of markup: space, tab, vertical tab and form feed. -/
def isLineBlank (c : Char) : Bool :=
  c = ' ' || c = '\t' || c = '\x0b' || c = '\x0c'

/-- Blanks and line ends of markup. -/
def isMarkupBlank (c : Char) : Bool :=
  isLineBlank c || c = '\n' || c = '\r'

/-- A text without its leading and trailing blanks, by a given notion of blank. -/
def trim (blank : Char → Bool) (s : List Char) : List Char :=
  ((s.dropWhile blank).reverse.dropWhile blank).reverse

/-- A text without its trailing blanks. -/
def trimEnd (blank : Char → Bool) (s : List Char) : List Char :=
  (s.reverse.dropWhile blank).reverse

end CopyControl.Text
