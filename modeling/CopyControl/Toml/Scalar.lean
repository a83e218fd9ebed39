import CopyControl.Text.Digit
import CopyControl.Toml.Value

/-!
TOML values that are written without quotes or brackets: numbers, truth values, dates and times.
-/

namespace CopyControl.Toml

/-- Digits to a base with single underscores between them; answers the digits. -/
def digits? (base : Nat) : List Char → Option (List Char)
  | [] => none
  | [c] => if Text.isDigitTo base c then some [c] else none
  | c :: '_' :: rest =>
    if Text.isDigitTo base c then (digits? base rest).map (c :: ·) else none
  | c :: rest => if Text.isDigitTo base c then (digits? base rest).map (c :: ·) else none

/-! ## Integers -/

/-- A sign in front of a number, and the rest. -/
def splitSign : List Char → Bool × List Char
  | '-' :: rest => (true, rest)
  | '+' :: rest => (false, rest)
  | s => (false, s)

/-- Decimal digits without a zero in front. -/
def decimalDigits? (s : List Char) : Option (List Char) :=
  (digits? 10 s).filter fun digits => digits.head? != some '0' || s.length = 1

/-- Whether a number fits into 128 bits, signed or not. -/
def isInRange : Int → Bool
  | .ofNat n => n < Nat.pow 2 128
  | .negSucc n => n < Nat.pow 2 127

/-- An integer: decimal with a sign, or to a base of 16, 8 or 2 without one. -/
def integer? (s : List Char) : Option Int :=
  let magnitude : Option Int :=
    match s with
    | '0' :: 'x' :: rest => (digits? 16 rest).map fun d => (Text.number 16 d : Nat)
    | '0' :: 'o' :: rest => (digits? 8 rest).map fun d => (Text.number 8 d : Nat)
    | '0' :: 'b' :: rest => (digits? 2 rest).map fun d => (Text.number 2 d : Nat)
    | _ =>
      let (negative, rest) := splitSign s
      (decimalDigits? rest).map fun d =>
        let n : Int := (Text.number 10 d : Nat)
        if negative then -n else n
  magnitude.filter isInRange

/-! ## Floats -/

/-- The least number that no binary floating-point number of 64 bits is nearest to. -/
def floatLimit : Nat := Nat.pow 2 1024 - Nat.pow 2 970

/-- Whether `digits · 10 ^ exponent` is within the range of floats. -/
def isFloatInRange (digits : List Char) (exponent : Int) : Bool :=
  let digits := digits.dropWhile (· = '0')
  let magnitude := digits.length + exponent
  if digits.isEmpty || magnitude < 300 then true
  else if 320 < magnitude then false
  else if 0 ≤ exponent then Text.number 10 digits * Nat.pow 10 exponent.toNat < floatLimit
  else Text.number 10 digits < floatLimit * Nat.pow 10 (-exponent).toNat

/-- The exponent of a float behind its mark. -/
def exponent? (s : List Char) : Option Int :=
  let (negative, rest) := splitSign s
  (digits? 10 rest).map fun d =>
    let n : Int := (Text.number 10 d : Nat)
    if negative then -n else n

/-- Whether a text is a float that is not out of range. -/
def isFloat (s : List Char) : Bool :=
  let (_, s) := splitSign s
  if s = ['i', 'n', 'f'] || s = ['n', 'a', 'n'] then true
  else
    let mantissa := s.takeWhile fun c => c != 'e' && c != 'E'
    let whole := mantissa.takeWhile (· != '.')
    let fraction := match mantissa.drop whole.length with
      | '.' :: rest => (digits? 10 rest).map some
      | _ => some none
    let exponent := match s.drop mantissa.length with
      | _ :: rest => (exponent? rest).map some
      | [] => some none
    match decimalDigits? whole, fraction, exponent with
    | some _, some none, some none => false
    | some w, some f, some e =>
      let f := f.getD []
      isFloatInRange (w ++ f) (e.getD 0 - f.length)
    | _, _, _ => false

/-! ## Dates and times -/

/-- Exactly `n` digits, and the rest. -/
def fixed? (n : Nat) (s : List Char) : Option (Nat × List Char) :=
  let digits := s.take n
  if digits.length = n && digits.all Char.isDigit then some (Text.number 10 digits, s.drop n)
  else none

/-- The rest of a text behind a character. -/
def behind? (c : Char) : List Char → Option (List Char)
  | x :: rest => if x = c then some rest else none
  | [] => none

def daysIn (year month : Nat) : Nat :=
  if month = 2 then
    if year % 4 = 0 && (year % 100 != 0 || year % 400 = 0) then 29 else 28
  else if month = 4 || month = 6 || month = 9 || month = 11 then 30
  else 31

/-- A date; answers the rest. -/
def date? (s : List Char) : Option (List Char) := do
  let (year, s) ← fixed? 4 s
  let (month, s) ← fixed? 2 (← behind? '-' s)
  let (day, s) ← fixed? 2 (← behind? '-' s)
  if 1 ≤ month && month ≤ 12 && 1 ≤ day && day ≤ daysIn year month then some s else none

/-- The fraction of a second, if there is one. -/
def fraction? : List Char → Option (List Char)
  | '.' :: rest =>
    let digits := rest.takeWhile Char.isDigit
    if digits.isEmpty then none else some (rest.drop digits.length)
  | s => some s

/-- A time of day, with or without seconds; answers the rest. -/
def time? (s : List Char) : Option (List Char) := do
  let (hour, s) ← fixed? 2 s
  let (minute, s) ← fixed? 2 (← behind? ':' s)
  let (second, s) ← match s with
    | ':' :: rest => do
      let (second, rest) ← fixed? 2 rest
      let rest ← fraction? rest
      pure (second, rest)
    | _ => pure (0, s)
  if hour ≤ 23 && minute ≤ 59 && second ≤ 60 then some s else none

/-- Whether a text is nothing, or the offset of a time from universal time. -/
def isOffset : List Char → Bool
  | [] => true
  | ['Z'] => true
  | ['z'] => true
  | c :: rest =>
    (c = '+' || c = '-') &&
      match (do
        let (hour, s) ← fixed? 2 rest
        let (minute, s) ← fixed? 2 (← behind? ':' s)
        pure (hour, minute, s) : Option (Nat × Nat × List Char)) with
      | some (hour, minute, []) => hour ≤ 23 && minute ≤ 59
      | _ => false

/-- Whether a text is a date, a time, or both. -/
def isDateTime (s : List Char) : Bool :=
  match date? s with
  | some [] => true
  | some (c :: rest) =>
    (c = 'T' || c = 't' || c = ' ') && ((time? rest).map isOffset).getD false
  | none => time? s = some []

/-! ## Any of them -/

/-- The value that a text without quotes or brackets writes. -/
def scalar? (s : List Char) : Option Value :=
  if s = "true".toList then some (.boolean true)
  else if s = "false".toList then some (.boolean false)
  else
    match integer? s with
    | some n => some (.integer n)
    | none =>
      if isFloat s then some .float
      else if isDateTime s then some .dateTime
      else none

end CopyControl.Toml
