import TagTemplate.Binary64

/-!
Reading numbers from text.

`int32?` reads an optionally signed run of digits in the 32-bit range.  `real?` reads decimal
text with an optional point and an optional exponent, as the nearest finite number.  Neither
skips blanks.
-/

namespace TagTemplate.Numeral

def splitSign : List Char → Bool × List Char
  | '-' :: rest => (true, rest)
  | '+' :: rest => (false, rest)
  | text => (false, text)

def digitsValue (digits : List Char) : Nat := Nat.ofDigitChars 10 digits 0

/-! ## Integers -/

def isDigits (text : List Char) : Bool := !text.isEmpty && text.all Char.isDigit

def integer? (text : List Char) : Option Int :=
  let (negative, digits) := splitSign text
  if isDigits digits then
    some (if negative then -(digitsValue digits : Int) else digitsValue digits)
  else none

def int32? (text : List Char) : Option Int32 := do
  let n ← integer? text
  if Int32.minValue.toInt ≤ n ∧ n ≤ Int32.maxValue.toInt then some (Int32.ofInt n) else none

/-! ## Reals -/

/-- A digit no longer counts once the exponent has reached `2 ^ 16`. -/
def exponentValue (digits : List Char) : Nat :=
  digits.foldl (fun n c => if n < 65536 then 10 * n + (c.toNat - '0'.toNat) else n) 0

/-- Nothing at all, or `e` with an optionally signed run of digits. -/
def exponent? : List Char → Option Int
  | [] => some 0
  | mark :: rest =>
      if mark = 'e' ∨ mark = 'E' then
        let (negative, digits) := splitSign rest
        if isDigits digits then
          some (if negative then -(exponentValue digits : Int) else exponentValue digits)
        else none
      else none

/-- Digits before the point, digits after it, and what follows. -/
def splitPoint (text : List Char) : List Char × List Char × List Char :=
  let whole := text.takeWhile Char.isDigit
  match text.dropWhile Char.isDigit with
  | '.' :: rest => (whole, rest.takeWhile Char.isDigit, rest.dropWhile Char.isDigit)
  | rest => (whole, [], rest)

def decimal? (text : List Char) : Option Decimal :=
  let (whole, fraction, rest) := splitPoint text
  if whole.isEmpty && fraction.isEmpty then none
  else
    (exponent? rest).map fun exponent =>
      Decimal.ofScaled (digitsValue (whole ++ fraction)) (exponent - fraction.length)

def real? (text : List Char) : Option Binary64 := do
  let (negative, unsigned) := splitSign text
  let magnitude := Binary64.nearestDecimal (← decimal? unsigned)
  if magnitude < Binary64.infiniteMagnitude then
    some (Binary64.ofMagnitude negative magnitude)
  else none

end TagTemplate.Numeral
