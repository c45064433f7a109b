import TagTemplate.Binary64

/-!
Decimal texts of double-precision numbers.

`shortest` is the decimal with the fewest digits that reads back as the same number, the nearest
of those to it; `fixed` is the decimal nearest to the exact value with a given number of places.
Both are written without an exponent.
-/

namespace TagTemplate.Binary64

-- Powers are the built-in ones, whatever else is imported.
attribute [local instance (high)] instPowNat

/-! ## Fewest digits -/

/-- The value itself: one unit is `5 ^ 1074 / 10 ^ 1074`. -/
def exactDecimal (magnitude : Nat) : Decimal := ⟨units magnitude * 5 ^ (1074 : Nat), 1074⟩

def isBelowPower (magnitude : Nat) (exponent : Int) : Bool :=
  units magnitude * 10 ^ (-exponent).toNat < one * 10 ^ exponent.toNat

/--
The smallest exponent whose power of ten exceeds the value, for a positive magnitude.  The
number of binary digits gives it up to one, since `78913 / 2 ^ 18` is `log 2 / log 10` to six
digits.
-/
def leadingExponent (magnitude : Nat) : Int :=
  let guess := (((units magnitude).log2 : Int) - 1074) * 78913 / 262144 + 1
  if isBelowPower magnitude guess then guess else guess + 1

def readsBack (magnitude : Nat) (d : Decimal) : Bool := nearestDecimal d == magnitude

/--
The multiple of `10 ^ exponent` that reads back, of the two neighbours of the value; if both do,
the nearer one, and the upper one in a tie.
-/
def gridDecimal? (magnitude : Nat) (exponent : Int) : Option Decimal :=
  let n := units magnitude * 10 ^ (-exponent).toNat
  let d := one * 10 ^ exponent.toNat
  let below := Decimal.ofScaled (n / d) exponent
  let above := Decimal.ofScaled (n / d + 1) exponent
  let candidates := if 2 * (n % d) < d then [below, above] else [above, below]
  candidates.find? (readsBack magnitude)

/-- Seventeen digits always suffice, so the exact decimal is never reached. -/
def shortest (magnitude : Nat) : Decimal :=
  if magnitude = 0 then ⟨0, 0⟩
  else
    let exponent := leadingExponent magnitude
    let found := (List.range 18).findSome? fun (count : Nat) =>
      gridDecimal? magnitude (exponent - count)
    found.getD (exactDecimal magnitude)

/-! ## Fixed number of places -/

def fixed (magnitude places : Nat) : Decimal :=
  ⟨roundHalfEven (units magnitude * 10 ^ places) one, places⟩

/-! ## Text -/

def isWhole (x : Binary64) : Bool := units x.magnitude % one = 0

def signSpelling (x : Binary64) : List Char := if x.isNegative then ['-'] else []

def spelling (x : Binary64) : List Char :=
  if x.isNaN then ['N', 'a', 'N']
  else if x.isFinite then x.signSpelling ++ (shortest x.magnitude).spelling
  else x.signSpelling ++ ['i', 'n', 'f']

def fixedSpelling (x : Binary64) (places : Nat) : List Char :=
  x.signSpelling ++ (fixed x.magnitude places).spelling

def text (x : Binary64) : String := String.ofList x.spelling

end TagTemplate.Binary64
