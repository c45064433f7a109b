import TagTemplate.Token

/-!
Elements: the items of an echo tag and the bounds of a loop.

`Element.spelling` writes an element as it stands in a tag.  A real always has a point, so that
it is not taken for an integer.
-/

namespace TagTemplate

inductive Element where
  | var (name : String)
  | function (name : String)
  | operator (op : Operator)
  | str (content : String)
  | int (value : Int32)
  | real (value : Binary64)
  deriving DecidableEq

/-! ## Source form -/

def escapedStringChar (c : Char) : List Char :=
  if c = '"' then ['\\', '"']
  else if c = '\\' then ['\\', '\\']
  else if c = '\n' then ['\\', 'n']
  else if c = '\r' then ['\\', 'r']
  else if c = '\t' then ['\\', 't']
  else [c]

def stringLiteral (content : String) : List Char :=
  '"' :: content.toList.flatMap escapedStringChar ++ ['"']

def intSpelling (n : Int) : List Char :=
  if n < 0 then '-' :: Nat.toDigits 10 n.natAbs else Nat.toDigits 10 n.natAbs

def realLiteral (x : Binary64) : List Char :=
  if '.' ∈ x.spelling then x.spelling else x.spelling ++ ['.', '0']

namespace Element

def spelling : Element → List Char
  | var name => name.toList
  | function name => '@' :: name.toList
  | operator op => [op.symbol]
  | str content => stringLiteral content
  | int value => intSpelling value.toInt
  | real value => realLiteral value

def source (e : Element) : String := String.ofList e.spelling

/-! ## Tokens -/

def token : Element → Token
  | var name => .ident name
  | function name => .function name
  | operator op => .operator op
  | str content => .str content
  | int value => .int value
  | real value => .real value

def ofToken? : Token → Option Element
  | .ident name => some (var name)
  | .function name => some (function name)
  | .operator op => some (operator op)
  | .str content => some (str content)
  | .int value => some (int value)
  | .real value => some (real value)
  | _ => none

@[simp] theorem ofToken?_token (e : Element) : ofToken? e.token = some e := by
  cases e <;> rfl

/-- Loop bounds are variables, integers and strings. -/
def boundOfToken? : Token → Option Element
  | .ident name => some (var name)
  | .int value => some (int value)
  | .str content => some (str content)
  | _ => none

end Element

end TagTemplate
