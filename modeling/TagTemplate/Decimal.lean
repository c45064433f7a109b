/-!
Nonnegative decimal fractions and their positional text.

A decimal is a coefficient together with a number of places; its value is
`coefficient / 10 ^ places`.
-/

namespace TagTemplate

-- Powers are the built-in ones, whatever else is imported.
attribute [local instance (high)] instPowNat

structure Decimal where
  coefficient : Nat
  places : Nat
  deriving DecidableEq, Repr

namespace Decimal

def ofScaled (coefficient : Nat) (exponent : Int) : Decimal :=
  ⟨coefficient * 10 ^ exponent.toNat, (-exponent).toNat⟩

def paddedDigits (width n : Nat) : List Char :=
  let digits := Nat.toDigits 10 n
  List.replicate (width - digits.length) '0' ++ digits

def wholeDigits (d : Decimal) : List Char :=
  Nat.toDigits 10 (d.coefficient / 10 ^ d.places)

/-- Exactly `places` digits. -/
def fractionDigits (d : Decimal) : List Char :=
  if d.places = 0 then [] else paddedDigits d.places (d.coefficient % 10 ^ d.places)

/-- Positional text; the point stands only before a fraction. -/
def spelling (d : Decimal) : List Char :=
  if d.places = 0 then d.wholeDigits else d.wholeDigits ++ '.' :: d.fractionDigits

end Decimal

/-- The integer nearest to `n / d`; a tie goes to the even neighbour. -/
def roundHalfEven (n d : Nat) : Nat :=
  let quotient := n / d
  let remainder := n % d
  if 2 * remainder < d ∨ 2 * remainder = d ∧ quotient % 2 = 0 then quotient else quotient + 1

end TagTemplate
