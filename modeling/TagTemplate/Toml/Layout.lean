import TagTemplate.Toml.Scalar

/-!
The layout of written tables.

Each entry takes a line, or several if its string is written in a multi-line form.  The form of a
string is the first that shows it plainly (`StringForm.choose`).  Basic forms have escapes for what
cannot stand in them, literal forms are verbatim.
-/

namespace TagTemplate.Toml

/-! ## Choosing a form -/

inductive StringForm where
  | basic
  | literal
  | multilineBasic
  | multilineLiteral
  deriving DecidableEq, Repr

/-- Controls other than the tab and the newline never stand in a string as themselves. -/
def isControl (c : Char) : Bool :=
  c.toNat < 0x20 && c != '\t' && c != '\n' || c.toNat == 0x7F

/-- Whether `quote` occurs three times in a row; `count` is the length of the run before. -/
def hasTripleFrom (quote : Char) (count : Nat) : List Char → Bool
  | [] => false
  | c :: rest =>
      if c = quote then count == 2 || hasTripleFrom quote (count + 1) rest
      else hasTripleFrom quote 0 rest

def hasTriple (quote : Char) (content : List Char) : Bool := hasTripleFrom quote 0 content

/--
The first form in which the string stands as it is: basic, literal, and the multi-line ones.  With
controls or runs of both quotes, only a basic form is left, for its escapes.
-/
def StringForm.choose (content : List Char) : StringForm :=
  let isPlain := !content.any isControl
  let has := fun c : Char => content.contains c
  if isPlain && !has '\\' && !has '"' && !has '\n' then .basic
  else if isPlain && !has '\'' && !has '\n' then .literal
  else if isPlain && !has '\\' && !hasTriple '"' content then .multilineBasic
  else if isPlain && !hasTriple '\'' content then .multilineLiteral
  else if has '\n' then .multilineBasic
  else .basic

/-! ## Escapes -/

def upperHexDigit (n : Nat) : Char := "0123456789ABCDEF".toList.getD n '0'

def codePointEscape (c : Char) : List Char :=
  ['\\', 'u', upperHexDigit (c.toNat / 4096 % 16), upperHexDigit (c.toNat / 256 % 16),
    upperHexDigit (c.toNat / 16 % 16), upperHexDigit (c.toNat % 16)]

def escapedChar (c : Char) : List Char :=
  if c = '\\' then ['\\', '\\']
  else if c = '\t' then ['\\', 't']
  else if c = '\x08' then ['\\', 'b']
  else if c = '\x0c' then ['\\', 'f']
  else if c = '\r' then ['\\', 'r']
  else if isControl c then codePointEscape c
  else [c]

def basicChar (c : Char) : List Char :=
  if c = '"' then ['\\', '"']
  else if c = '\n' then ['\\', 'n']
  else escapedChar c

/--
The third quote of a run is escaped, so that the run does not end the string; `count` is the
number of quotes in a row before.
-/
def multilineBasicBody (count : Nat) : List Char → List Char
  | [] => []
  | c :: rest =>
      if c = '"' then
        if count = 2 then '\\' :: '"' :: multilineBasicBody 0 rest
        else '"' :: multilineBasicBody (count + 1) rest
      else escapedChar c ++ multilineBasicBody 0 rest

/-! ## Values and entries -/

/-- A text with a newline starts on a line of its own. -/
def leadingNewline (content : List Char) : List Char :=
  if content.contains '\n' then ['\n'] else []

def stringLayout (content : List Char) : List Char :=
  match StringForm.choose content with
  | .basic => '"' :: (content.flatMap basicChar ++ ['"'])
  | .literal => '\'' :: (content ++ ['\''])
  | .multilineBasic =>
      ['"', '"', '"'] ++ leadingNewline content ++ multilineBasicBody 0 content ++ ['"', '"', '"']
  | .multilineLiteral =>
      ['\'', '\'', '\''] ++ leadingNewline content ++ content ++ ['\'', '\'', '\'']

def integerLayout (n : Int) : List Char :=
  if n < 0 then '-' :: Nat.toDigits 10 n.natAbs else Nat.toDigits 10 n.natAbs

def scalarLayout : Scalar → List Char
  | .string content => stringLayout content.toList
  | .integer n => integerLayout n
  | .boolean value => booleanText value

/-- Keys are written bare. -/
def entryLayout (entry : Entry) : List Char :=
  entry.key.toList ++ [' ', '=', ' '] ++ scalarLayout entry.value ++ ['\n']

namespace Table

def layout (table : Table) : String := String.ofList (table.entries.flatMap entryLayout)

def HasBareKeys (table : Table) : Prop :=
  ∀ entry ∈ table.entries, entry.key.toList ≠ [] ∧ entry.key.toList.all isBareKeyChar = true

/-- Integers that do not fit in 64 bits cannot be written. -/
def InRange (table : Table) : Prop := ∀ entry ∈ table.entries, entry.value.InRange

instance (table : Table) : Decidable table.InRange :=
  inferInstanceAs (Decidable (∀ entry ∈ table.entries, entry.value.InRange))

end Table

end TagTemplate.Toml
