import TagTemplate.Toml.Scalar

/-!
The grammar of flat configuration tables, as TOML 1.0 has it.

Each relation holds between a text and what it spells.  A table is a list of lines, each of which
is blank or holds a key with a string, an integer or a boolean, and may end in a comment.  Of a
carriage return inside a string the grammar says nothing, as the format leaves its meaning to
readers.
-/

namespace TagTemplate.Toml

/-- Spaces and tabs. -/
def IsSpaces (text : List Char) : Prop := ∀ c ∈ text, isSpace c = true

inductive IsNewline : List Char → Prop
  | lineFeed : IsNewline ['\n']
  | carriageReturn : IsNewline ['\r', '\n']

/-- Spaces and line breaks. -/
inductive IsGap : List Char → Prop
  | nil : IsGap []
  | space {c : Char} {rest : List Char} (hspace : isSpace c = true) (hrest : IsGap rest) :
      IsGap (c :: rest)
  | newline {newline rest : List Char} (hnewline : IsNewline newline) (hrest : IsGap rest) :
      IsGap (newline ++ rest)

inductive IsComment : List Char → Prop
  | absent : IsComment []
  | present {text : List Char} (h : ∀ c ∈ text, isInlineChar c = true) : IsComment ('#' :: text)

/-! ## Strings -/

/-- What stands behind a backslash, and the character that it means. -/
inductive Escape : List Char → Char → Prop
  | letter {c meant : Char} (hmeaning : escapeMeaning? c = some meant) : Escape [c] meant
  | short {a b c d meant : Char} (hcode : charOfHex? [a, b, c, d] = some meant) :
      Escape ['u', a, b, c, d] meant
  | long {a b c d e f g h meant : Char}
      (hcode : charOfHex? [a, b, c, d, e, f, g, h] = some meant) :
      Escape ['U', a, b, c, d, e, f, g, h] meant

/-- The inside of a one-line basic string. -/
inductive SpellsBasic : List Char → List Char → Prop
  | nil : SpellsBasic [] []
  | plain {c : Char} {text content : List Char} (hquote : c ≠ '"') (hslash : c ≠ '\\')
      (hinline : isInlineChar c = true) (h : SpellsBasic text content) :
      SpellsBasic (c :: text) (c :: content)
  | escape {code text content : List Char} {meant : Char} (hcode : Escape code meant)
      (h : SpellsBasic text content) : SpellsBasic ('\\' :: (code ++ text)) (meant :: content)

/-- The inside of a one-line literal string, which spells itself. -/
def IsLiteral (text : List Char) : Prop := ∀ c ∈ text, isLiteralChar c = true

/--
The inside of a multi-line basic string.  No more than two quotes stand in a row.  A backslash at
the end of a line drops what follows up to the next character.
-/
inductive SpellsMultilineBasic : List Char → List Char → Prop
  | nil : SpellsMultilineBasic [] []
  | plain {c : Char} {text content : List Char} (hquote : c ≠ '"') (hslash : c ≠ '\\')
      (hinline : c = '\n' ∨ isInlineChar c = true) (h : SpellsMultilineBasic text content) :
      SpellsMultilineBasic (c :: text) (c :: content)
  | escape {code text content : List Char} {meant : Char} (hcode : Escape code meant)
      (h : SpellsMultilineBasic text content) :
      SpellsMultilineBasic ('\\' :: (code ++ text)) (meant :: content)
  | quotes {more : Nat} {text content : List Char} (hmore : more ≤ 1)
      (hnext : text.head? ≠ some '"') (h : SpellsMultilineBasic text content) :
      SpellsMultilineBasic ('"' :: (List.replicate more '"' ++ text))
        ('"' :: (List.replicate more '"' ++ content))
  | lineEnd {spaces newline gap text content : List Char} (hspaces : IsSpaces spaces)
      (hnewline : IsNewline newline) (hgap : IsGap gap)
      (hnext : ∀ c ∈ text.head?, isSpace c = false ∧ c ≠ '\n' ∧ c ≠ '\r')
      (h : SpellsMultilineBasic text content) :
      SpellsMultilineBasic ('\\' :: (spaces ++ newline ++ gap ++ text)) content

/-- The inside of a multi-line literal string, which spells itself. -/
inductive IsMultilineLiteral : List Char → Prop
  | nil : IsMultilineLiteral []
  | plain {c : Char} {text : List Char} (hquote : c ≠ '\'')
      (hinline : c = '\n' ∨ isInlineChar c = true) (h : IsMultilineLiteral text) :
      IsMultilineLiteral (c :: text)
  | quotes {more : Nat} {text : List Char} (hmore : more ≤ 1)
      (hnext : text.head? ≠ some '\'') (h : IsMultilineLiteral text) :
      IsMultilineLiteral ('\'' :: (List.replicate more '\'' ++ text))

/-- A line break right behind the opening quotes of a multi-line form does not belong to it. -/
inductive Opens : List Char → List Char → Prop
  | newline {newline text : List Char} (hnewline : IsNewline newline) : Opens newline text
  | direct {text : List Char} (hnext : text.head? ≠ some '\n') : Opens [] text

inductive SpellsString : List Char → List Char → Prop
  | basic {text content : List Char} (h : SpellsBasic text content) :
      SpellsString ('"' :: (text ++ ['"'])) content
  | literal {text : List Char} (h : IsLiteral text) : SpellsString ('\'' :: (text ++ ['\''])) text
  | multilineBasic {opening text content : List Char} (hopening : Opens opening text)
      (h : SpellsMultilineBasic text content) :
      SpellsString (['"', '"', '"'] ++ opening ++ text ++ ['"', '"', '"']) content
  | multilineLiteral {opening text : List Char} (hopening : Opens opening text)
      (h : IsMultilineLiteral text) :
      SpellsString (['\'', '\'', '\''] ++ opening ++ text ++ ['\'', '\'', '\'']) text

/-! ## Integers -/

/-- Digits of a base, with single underscores between some of them. -/
inductive SpellsDigits (base : Nat) : List Char → List Char → Prop
  | last {c : Char} (hdigit : isBaseDigit base c = true) : SpellsDigits base [c] [c]
  | next {c : Char} {text digits : List Char} (hdigit : isBaseDigit base c = true)
      (h : SpellsDigits base text digits) : SpellsDigits base (c :: text) (c :: digits)
  | underscore {c : Char} {text digits : List Char} (hdigit : isBaseDigit base c = true)
      (h : SpellsDigits base text digits) : SpellsDigits base (c :: '_' :: text) (c :: digits)

/-- Decimal numerals have no leading zero. -/
inductive SpellsDecimal : List Char → Nat → Prop
  | intro {text digits : List Char} (h : SpellsDigits 10 text digits)
      (hlead : digits.length = 1 ∨ digits.head? ≠ some '0') :
      SpellsDecimal text (digitsValue 10 digits)

/-- Only decimal numerals have a sign. -/
inductive SpellsInteger : List Char → Int → Prop
  | unsigned {text : List Char} {n : Nat} (h : SpellsDecimal text n) : SpellsInteger text n
  | plus {text : List Char} {n : Nat} (h : SpellsDecimal text n) : SpellsInteger ('+' :: text) n
  | minus {text : List Char} {n : Nat} (h : SpellsDecimal text n) :
      SpellsInteger ('-' :: text) (-n)
  | based {letter : Char} {base : Nat} {text digits : List Char}
      (hbase : baseOfLetter? letter = some base) (h : SpellsDigits base text digits) :
      SpellsInteger ('0' :: letter :: text) (digitsValue base digits)

/-! ## Tables -/

inductive SpellsScalar : List Char → Scalar → Prop
  | string {text content : List Char} (h : SpellsString text content) :
      SpellsScalar text (.string (String.ofList content))
  | integer {text : List Char} {n : Int} (h : SpellsInteger text n)
      (hrange : (Scalar.integer n).InRange) : SpellsScalar text (.integer n)
  | boolean {value : Bool} : SpellsScalar (booleanText value) (.boolean value)

/-- Keys are bare or one-line strings. -/
inductive SpellsKey : List Char → List Char → Prop
  | bare {text : List Char} (hne : text ≠ []) (h : ∀ c ∈ text, isBareKeyChar c = true) :
      SpellsKey text text
  | basic {text content : List Char} (h : SpellsBasic text content) :
      SpellsKey ('"' :: (text ++ ['"'])) content
  | literal {text : List Char} (h : IsLiteral text) : SpellsKey ('\'' :: (text ++ ['\''])) text

inductive SpellsEntry : List Char → Entry → Prop
  | intro {keyText key before behind valueText : List Char} {value : Scalar}
      (hkey : SpellsKey keyText key) (hbefore : IsSpaces before) (hbehind : IsSpaces behind)
      (hvalue : SpellsScalar valueText value) :
      SpellsEntry (keyText ++ before ++ '=' :: (behind ++ valueText)) ⟨String.ofList key, value⟩

inductive SpellsLine : List Char → Option Entry → Prop
  | blank {spaces comment : List Char} (hspaces : IsSpaces spaces) (hcomment : IsComment comment) :
      SpellsLine (spaces ++ comment) none
  | entry {spaces text behind comment : List Char} {entry : Entry} (hspaces : IsSpaces spaces)
      (h : SpellsEntry text entry) (hbehind : IsSpaces behind) (hcomment : IsComment comment) :
      SpellsLine (spaces ++ text ++ behind ++ comment) (some entry)

inductive SpellsLines : List Char → List Entry → Prop
  | last {text : List Char} {entry : Option Entry} (h : SpellsLine text entry) :
      SpellsLines text entry.toList
  | next {line newline text : List Char} {entry : Option Entry} {entries : List Entry}
      (hline : SpellsLine line entry) (hnewline : IsNewline newline)
      (h : SpellsLines text entries) :
      SpellsLines (line ++ newline ++ text) (entry.toList ++ entries)

/-- The text is a table in the format. -/
def Table.SpelledBy (table : Table) (text : String) : Prop :=
  SpellsLines text.toList table.entries

end TagTemplate.Toml
