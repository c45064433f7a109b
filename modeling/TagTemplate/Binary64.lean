import TagTemplate.Decimal

/-!
Double-precision numbers, known by their 64-bit interchange encoding.

The encoding without its sign is the *magnitude*.  Finite magnitudes are read exactly, as a
natural number of units of `2 ^ (-1074)`, the smallest positive number: a larger magnitude has
more units.  Conversion to the nearest number, the decimal texts and the total order are all
defined on magnitudes and units; only the arithmetic operations use the machine's.
-/

namespace TagTemplate

-- Powers are the built-in ones, whatever else is imported.
attribute [local instance (high)] instPowNat

structure Binary64 where
  bits : UInt64
  deriving DecidableEq, Repr

namespace Binary64

/-! ## Encoding -/

def magnitude (x : Binary64) : Nat := x.bits.toNat % 2 ^ (63 : Nat)

def isNegative (x : Binary64) : Bool := 2 ^ (63 : Nat) ≤ x.bits.toNat

def ofMagnitude (negative : Bool) (magnitude : Nat) : Binary64 :=
  ⟨((if negative then 2 ^ (63 : Nat) else 0) + magnitude).toUInt64⟩

/-- Magnitude of the infinities; the magnitudes above it are not numbers. -/
def infiniteMagnitude : Nat := 2047 * 2 ^ (52 : Nat)

def isFinite (x : Binary64) : Bool := x.magnitude < infiniteMagnitude

def isNaN (x : Binary64) : Bool := infiniteMagnitude < x.magnitude

/-! ## Exact values -/

/-- The number one, in units. -/
def one : Nat := 2 ^ (1074 : Nat)

/-- Power of two by which the significand of a magnitude is scaled. -/
def shift (magnitude : Nat) : Nat := magnitude / 2 ^ (52 : Nat) - 1

def significand (magnitude : Nat) : Nat := magnitude - shift magnitude * 2 ^ (52 : Nat)

/-- A finite magnitude stands for `units magnitude / one`. -/
def units (magnitude : Nat) : Nat := significand magnitude * 2 ^ shift magnitude

/--
Magnitude nearest to `n / d` units, a tie going to the even significand.  Values beyond the
largest finite number give `infiniteMagnitude` or more.
-/
def nearest (n d : Nat) : Nat :=
  let scale := (n / d).log2 - 52
  scale * 2 ^ (52 : Nat) + roundHalfEven n (d * 2 ^ scale)

def nearestDecimal (d : Decimal) : Nat := nearest (d.coefficient * one) (10 ^ d.places)

/-- Magnitude of a natural number below `2 ^ 53`, which is represented exactly. -/
def magnitudeOfNat (n : Nat) : Nat :=
  if n = 0 then 0 else (n.log2 + 1022) * 2 ^ (52 : Nat) + n * 2 ^ (52 - n.log2)

def ofInt32 (n : Int32) : Binary64 :=
  ofMagnitude (n.toInt < 0) (magnitudeOfNat n.toInt.natAbs)

/-! ## Total order -/

/-- Orders by sign, then magnitude: negative zero comes before zero, infinity before NaN. -/
def orderKey (x : Binary64) : Int :=
  if x.isNegative then -x.magnitude - 1 else x.magnitude

def order (x y : Binary64) : Ordering := compare x.orderKey y.orderKey

/-! ## Arithmetic -/

def toFloat (x : Binary64) : Float := Float.ofBits x.bits

def ofFloat (x : Float) : Binary64 := ⟨x.toBits⟩

def add (x y : Binary64) : Binary64 := ofFloat (x.toFloat + y.toFloat)

def sub (x y : Binary64) : Binary64 := ofFloat (x.toFloat - y.toFloat)

def mul (x y : Binary64) : Binary64 := ofFloat (x.toFloat * y.toFloat)

def div (x y : Binary64) : Binary64 := ofFloat (x.toFloat / y.toFloat)

def pow (x y : Binary64) : Binary64 := ofFloat (x.toFloat.pow y.toFloat)

/-- The number nearest to the quotient of the nearest number to π by 180. -/
def radiansPerDegree : Binary64 := ⟨0x3F91DF46A2529D39⟩

def sinDegrees (x : Binary64) : Binary64 :=
  ofFloat (x.mul radiansPerDegree).toFloat.sin

end Binary64

end TagTemplate
