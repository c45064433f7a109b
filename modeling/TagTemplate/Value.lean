import TagTemplate.Element
import TagTemplate.Numeral

/-!
Values and their arithmetic.

A value is absent, a text, a 32-bit integer or a real.  Arithmetic and comparison first reduce
both operands to numbers: an absent value is the integer zero, a text is the number that it
spells.  Integers stay integers, wrapping at 32 bits, unless a real takes part, the operation is
a division, or the exponent of a power is negative.
-/

namespace TagTemplate

-- Powers are the built-in ones, whatever else is imported.
attribute [local instance (high)] instPowNat

inductive Value where
  | null
  | str (content : String)
  | int (value : Int32)
  | real (value : Binary64)
  deriving DecidableEq

/-- A text that spells no number was used as one. -/
inductive ValueError where
  | notNumeric (text : String)
  deriving DecidableEq, Repr

def ValueError.message : ValueError → String
  | notNumeric text => "cannot use `" ++ text ++ "` as a number"

/-! ## Numbers -/

inductive Number where
  | int (value : Int32)
  | real (value : Binary64)
  deriving DecidableEq

/-- Powers by repeated squaring, wrapping at 32 bits. -/
def wrappingPow (base : Int32) (exponent : Nat) : Int32 :=
  if exponent = 0 then 1
  else
    let rest := wrappingPow (base * base) (exponent / 2)
    if exponent % 2 = 1 then base * rest else rest
termination_by exponent
decreasing_by omega

namespace Number

def toReal : Number → Binary64
  | int n => .ofInt32 n
  | real x => x

def order : Number → Number → Ordering
  | int m, int n => compare m.toInt n.toInt
  | a, b => a.toReal.order b.toReal

def applyReals (op : Operator) (x y : Binary64) : Binary64 :=
  match op with
  | .add => x.add y
  | .sub => x.sub y
  | .mul => x.mul y
  | .div => x.div y
  | .pow => x.pow y

def applyInts (op : Operator) (m n : Int32) : Number :=
  match op with
  | .add => int (m + n)
  | .sub => int (m - n)
  | .mul => int (m * n)
  | .div => real (applyReals .div (.ofInt32 m) (.ofInt32 n))
  | .pow =>
      if 0 ≤ n then int (wrappingPow m n.toInt.toNat)
      else real (applyReals .pow (.ofInt32 m) (.ofInt32 n))

def apply (op : Operator) : Number → Number → Number
  | int m, int n => applyInts op m n
  | a, b => real (applyReals op a.toReal b.toReal)

end Number

/-! ## Values -/

namespace Value

def isNull : Value → Bool
  | null => true
  | _ => false

def typeName : Value → String
  | null => "absent"
  | str _ => "string"
  | int _ => "integer"
  | real _ => "real"

/-- Whole reals below this bound are written with one place. -/
def wholeRealBound : Nat := 10 ^ (15 : Nat)

/-- A real is written so that it does not read as an integer, up to `wholeRealBound`. -/
def realSpelling (x : Binary64) : List Char :=
  if x.isFinite ∧ x.isWhole ∧ Binary64.units x.magnitude < wholeRealBound * Binary64.one then
    x.fixedSpelling 1
  else x.spelling

def spelling : Value → List Char
  | null => []
  | str content => content.toList
  | int n => intSpelling n.toInt
  | real x => realSpelling x

def text : Value → String
  | str content => content
  | value => String.ofList value.spelling

/-! ## Arithmetic -/

def toNumber : Value → Except ValueError Number
  | null => .ok (.int 0)
  | int n => .ok (.int n)
  | real x => .ok (.real x)
  | str content =>
      match Numeral.int32? content.toList with
      | some n => .ok (.int n)
      | none =>
          match Numeral.real? content.toList with
          | some x => .ok (.real x)
          | none => .error (.notNumeric content)

def toReal (value : Value) : Except ValueError Binary64 := do
  .ok (← value.toNumber).toReal

def ofNumber : Number → Value
  | .int n => int n
  | .real x => real x

@[simp] theorem toNumber_ofNumber (a : Number) : (ofNumber a).toNumber = .ok a := by
  cases a <;> rfl

/-- The left operand is reduced to a number first. -/
def apply (op : Operator) (lhs rhs : Value) : Except ValueError Value := do
  let a ← lhs.toNumber
  let b ← rhs.toNumber
  .ok (ofNumber (Number.apply op a b))

/-- The cell takes the result of the operation; a failure leaves it as it was. -/
def update (op : Operator) (cell rhs : Value) : Except ValueError Unit × Value :=
  match apply op cell rhs with
  | .ok result => (.ok (), result)
  | .error e => (.error e, cell)

def order (lhs rhs : Value) : Except ValueError Ordering := do
  let a ← lhs.toNumber
  let b ← rhs.toNumber
  .ok (a.order b)

end Value

end TagTemplate
