/-!
Flat configuration tables: keys with scalar values, in the TOML format.

Strings have four written forms.  Basic forms know escapes and stand between double quotes;
literal forms are verbatim and stand between single quotes.  Multi-line forms triple the quotes.
-/

namespace TagTemplate.Toml

-- Powers are the built-in ones, whatever else is imported.
attribute [local instance (high)] instPowNat

inductive Scalar where
  | string (content : String)
  | integer (value : Int)
  | boolean (value : Bool)
  deriving DecidableEq

structure Entry where
  key : String
  value : Scalar
  deriving DecidableEq

/-- No key occurs twice in a table. -/
structure Table where
  entries : List Entry
  nodup : (entries.map Entry.key).Nodup
  deriving DecidableEq

/-- Integers are signed and have 64 bits. -/
def integerBound : Nat := 2 ^ (63 : Nat)

def Scalar.InRange : Scalar → Prop
  | .integer n => -(integerBound : Int) ≤ n ∧ n < integerBound
  | _ => True

instance : (value : Scalar) → Decidable value.InRange
  | .integer n =>
      inferInstanceAs (Decidable (-(integerBound : Int) ≤ n ∧ n < integerBound))
  | .string _ | .boolean _ => inferInstanceAs (Decidable True)

def booleanText : Bool → List Char
  | true => ['t', 'r', 'u', 'e']
  | false => ['f', 'a', 'l', 's', 'e']

/-! ## Characters -/

def isSpace (c : Char) : Bool := c == ' ' || c == '\t'

/-- The characters of comments and, quotes and backslashes apart, of one-line strings. -/
def isInlineChar (c : Char) : Bool := c == '\t' || 0x20 ≤ c.toNat && c.toNat != 0x7F

def isLiteralChar (c : Char) : Bool := isInlineChar c && c != '\''

def isBareKeyChar (c : Char) : Bool := c.isAlphanum || c == '_' || c == '-'

/-! ## Digits -/

def hexDigit? (c : Char) : Option Nat :=
  if '0' ≤ c ∧ c ≤ '9' then some (c.toNat - '0'.toNat)
  else if 'a' ≤ c ∧ c ≤ 'f' then some (c.toNat - 'a'.toNat + 10)
  else if 'A' ≤ c ∧ c ≤ 'F' then some (c.toNat - 'A'.toNat + 10)
  else none

def hexValue? (digits : List Char) : Option Nat :=
  digits.foldlM (fun n c => (hexDigit? c).map (16 * n + ·)) 0

def isBaseDigit (base : Nat) (c : Char) : Bool :=
  match hexDigit? c with
  | some value => decide (value < base)
  | none => false

def digitsValue (base : Nat) (digits : List Char) : Nat :=
  digits.foldl (fun n c => base * n + (hexDigit? c).getD 0) 0

/-- The letter behind the zero that starts a numeral of a base other than ten. -/
def baseOfLetter? : Char → Option Nat
  | 'x' => some 16
  | 'o' => some 8
  | 'b' => some 2
  | _ => none

/-! ## Escapes -/

def escapeMeaning? : Char → Option Char
  | 'b' => some '\x08'
  | 't' => some '\t'
  | 'n' => some '\n'
  | 'f' => some '\x0c'
  | 'r' => some '\r'
  | '"' => some '"'
  | '\\' => some '\\'
  | _ => none

def charOfCode? (n : Nat) : Option Char :=
  if n.isValidChar then some (Char.ofNat n) else none

def charOfHex? (digits : List Char) : Option Char := (hexValue? digits).bind charOfCode?

end TagTemplate.Toml
