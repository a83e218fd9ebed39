/-!
Digits and the numbers written with them.
-/

namespace CopyControl.Text

/-- The value of a character as a digit to a base of at most 36, letters of either case counting
from 10. -/
def digit? (base : Nat) (c : Char) : Option Nat :=
  let value :=
    if c.isDigit then c.toNat - 48
    else if c.isLower then c.toNat - 87
    else if c.isUpper then c.toNat - 55
    else base
  if value < base then some value else none

def isDigitTo (base : Nat) (c : Char) : Bool :=
  (digit? base c).isSome

/-- The number that digits to a base write; other characters count as zeros. -/
def number (base : Nat) (digits : List Char) : Nat :=
  digits.foldl (fun n c => base * n + (digit? base c).getD 0) 0

end CopyControl.Text
