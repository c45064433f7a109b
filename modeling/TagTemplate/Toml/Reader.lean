import TagTemplate.Toml.Scalar

/-!
Reading flat configuration tables.

A table is a list of lines, each of which is blank or holds a key with a scalar value, and may
end in a comment.  Tables inside tables, dotted keys and values that are not strings, integers or
booleans are refused, as is everything that the format does not allow.  Functions that read a
part of the input give it together with what follows it.
-/

namespace TagTemplate.Toml

/-! ## Blanks, comments and ends of lines -/

def skipSpaces (text : List Char) : List Char := text.dropWhile isSpace

def newline? : List Char → Option (List Char)
  | '\n' :: rest => some rest
  | '\r' :: '\n' :: rest => some rest
  | _ => none

/-- The rest of the input after the end of a line, which may be the end of the input. -/
def endOfLine? : List Char → Option (List Char)
  | [] => some []
  | text => newline? text

def skipComment : List Char → List Char
  | '#' :: rest => rest.dropWhile isInlineChar
  | text => text

/-! ## Strings -/

/-- Reads the rest of a one-line basic string; `read` holds its characters so far, last first. -/
def readBasic (read : List Char) : List Char → Option (List Char × List Char)
  | [] => none
  | c :: rest =>
      if c = '"' then some (read.reverse, rest)
      else if c = '\\' then
        match rest with
        | 'u' :: a :: b :: c :: d :: rest =>
            match charOfHex? [a, b, c, d] with
            | some meant => readBasic (meant :: read) rest
            | none => none
        | 'U' :: a :: b :: c :: d :: e :: f :: g :: h :: rest =>
            match charOfHex? [a, b, c, d, e, f, g, h] with
            | some meant => readBasic (meant :: read) rest
            | none => none
        | letter :: rest =>
            match escapeMeaning? letter with
            | some meant => readBasic (meant :: read) rest
            | none => none
        | [] => none
      else if isInlineChar c then readBasic (c :: read) rest
      else none

def readLiteral (text : List Char) : Option (List Char × List Char) :=
  match text.dropWhile isLiteralChar with
  | '\'' :: rest => some (text.takeWhile isLiteralChar, rest)
  | _ => none

/-- After three closing quotes, up to two more belong to the string. -/
def closeMultiline (quote : Char) (read : List Char) : List Char → Option (List Char × List Char)
  | a :: b :: rest =>
      if a = quote ∧ b = quote then some ((quote :: quote :: read).reverse, rest)
      else if a = quote then some ((quote :: read).reverse, b :: rest)
      else some (read.reverse, a :: b :: rest)
  | [a] => if a = quote then some ((quote :: read).reverse, []) else some (read.reverse, [a])
  | [] => some (read.reverse, [])

/-- Whether only blanks stand before the next line break. -/
def endsLine (text : List Char) : Bool := (newline? (skipSpaces text)).isSome

/--
Reads the rest of a multi-line basic string.  A backslash at the end of a line drops the blanks
and line breaks up to the next character; `trimming` holds while they are dropped.
-/
def readMultilineBasic (trimming : Bool) (read : List Char) :
    List Char → Option (List Char × List Char)
  | [] => none
  | c :: rest =>
      if c = '\n' then
        readMultilineBasic trimming (if trimming then read else '\n' :: read) rest
      else if c = '\r' then
        match rest with
        | '\n' :: rest =>
            readMultilineBasic trimming (if trimming then read else '\n' :: read) rest
        | _ => none
      else if trimming && isSpace c then readMultilineBasic true read rest
      else if c = '"' then
        match rest with
        | '"' :: '"' :: rest => closeMultiline '"' read rest
        | _ => readMultilineBasic false ('"' :: read) rest
      else if c = '\\' then
        if endsLine rest then readMultilineBasic true read rest
        else
          match rest with
          | 'u' :: a :: b :: c :: d :: rest =>
              match charOfHex? [a, b, c, d] with
              | some meant => readMultilineBasic false (meant :: read) rest
              | none => none
          | 'U' :: a :: b :: c :: d :: e :: f :: g :: h :: rest =>
              match charOfHex? [a, b, c, d, e, f, g, h] with
              | some meant => readMultilineBasic false (meant :: read) rest
              | none => none
          | letter :: rest =>
              match escapeMeaning? letter with
              | some meant => readMultilineBasic false (meant :: read) rest
              | none => none
          | [] => none
      else if isInlineChar c then readMultilineBasic false (c :: read) rest
      else none

def readMultilineLiteral (read : List Char) : List Char → Option (List Char × List Char)
  | [] => none
  | c :: rest =>
      if c = '\n' then readMultilineLiteral ('\n' :: read) rest
      else if c = '\r' then
        match rest with
        | '\n' :: rest => readMultilineLiteral ('\n' :: read) rest
        | _ => none
      else if c = '\'' then
        match rest with
        | '\'' :: '\'' :: rest => closeMultiline '\'' read rest
        | _ => readMultilineLiteral ('\'' :: read) rest
      else if isInlineChar c then readMultilineLiteral (c :: read) rest
      else none

/-- A line break right after the opening quotes is not part of the string. -/
def skipFirstNewline (text : List Char) : List Char := (newline? text).getD text

def readString : List Char → Option (List Char × List Char)
  | '"' :: '"' :: '"' :: rest => readMultilineBasic false [] (skipFirstNewline rest)
  | '"' :: rest => readBasic [] rest
  | '\'' :: '\'' :: '\'' :: rest => readMultilineLiteral [] (skipFirstNewline rest)
  | '\'' :: rest => readLiteral rest
  | _ => none

/-! ## Integers -/

/-- Digits of a base without their underscores, each of which stands between two digits. -/
def ungroupDigits? (isDigit : Char → Bool) : List Char → Option (List Char)
  | [] => none
  | c :: rest =>
      if isDigit c then
        match rest with
        | [] => some [c]
        | '_' :: rest => (ungroupDigits? isDigit rest).map (c :: ·)
        | rest => (ungroupDigits? isDigit rest).map (c :: ·)
      else none

/-- The digits of a numeral and what follows it. -/
def readDigits (base : Nat) (text : List Char) : Option (List Char × List Char) :=
  let isPart := fun c => isBaseDigit base c || c == '_'
  (ungroupDigits? (isBaseDigit base) (text.takeWhile isPart)).map fun digits =>
    (digits, text.dropWhile isPart)

/-- Decimal numerals have no leading zero. -/
def readDecimal (text : List Char) : Option (Nat × List Char) := do
  let (digits, rest) ← readDigits 10 text
  if digits.length = 1 ∨ digits.head? ≠ some '0' then some (digitsValue 10 digits, rest)
  else none

def readBased (base : Nat) (text : List Char) : Option (Nat × List Char) := do
  let (digits, rest) ← readDigits base text
  some (digitsValue base digits, rest)

/-- Only decimal numerals have a sign. -/
def readUnbounded : List Char → Option (Int × List Char)
  | '-' :: rest => (readDecimal rest).map fun (n, rest) => (-(n : Int), rest)
  | '+' :: rest => (readDecimal rest).map fun (n, rest) => ((n : Int), rest)
  | '0' :: 'x' :: rest => (readBased 16 rest).map fun (n, rest) => ((n : Int), rest)
  | '0' :: 'o' :: rest => (readBased 8 rest).map fun (n, rest) => ((n : Int), rest)
  | '0' :: 'b' :: rest => (readBased 2 rest).map fun (n, rest) => ((n : Int), rest)
  | text => (readDecimal text).map fun (n, rest) => ((n : Int), rest)

def readInteger (text : List Char) : Option (Int × List Char) := do
  let (n, rest) ← readUnbounded text
  if -(integerBound : Int) ≤ n ∧ n < integerBound then some (n, rest) else none

/-! ## Entries -/

def readScalar : List Char → Option (Scalar × List Char)
  | 't' :: 'r' :: 'u' :: 'e' :: rest => some (.boolean true, rest)
  | 'f' :: 'a' :: 'l' :: 's' :: 'e' :: rest => some (.boolean false, rest)
  | '"' :: rest =>
      (readString ('"' :: rest)).map fun (content, rest) =>
        (.string (String.ofList content), rest)
  | '\'' :: rest =>
      (readString ('\'' :: rest)).map fun (content, rest) =>
        (.string (String.ofList content), rest)
  | text => (readInteger text).map fun (n, rest) => (.integer n, rest)

/-- Keys are bare or one-line strings. -/
def readKey : List Char → Option (List Char × List Char)
  | '"' :: rest => readBasic [] rest
  | '\'' :: rest => readLiteral rest
  | text =>
      if (text.takeWhile isBareKeyChar).isEmpty then none
      else some (text.takeWhile isBareKeyChar, text.dropWhile isBareKeyChar)

def readEntry (text : List Char) : Option (Entry × List Char) := do
  let (key, rest) ← readKey text
  match skipSpaces rest with
  | '=' :: rest =>
      let (value, rest) ← readScalar (skipSpaces rest)
      some (⟨String.ofList key, value⟩, rest)
  | _ => none

def readLine (text : List Char) : Option (Option Entry × List Char) :=
  match skipSpaces text with
  | [] => some (none, [])
  | c :: rest =>
      if c = '#' ∨ c = '\n' ∨ c = '\r' then
        (endOfLine? (skipComment (c :: rest))).map fun rest => (none, rest)
      else do
        let (entry, rest) ← readEntry (c :: rest)
        let rest ← endOfLine? (skipComment (skipSpaces rest))
        some (some entry, rest)

def readLines : Nat → List Char → Option (List Entry)
  | _, [] => some []
  | 0, _ :: _ => none
  | fuel + 1, c :: rest => do
      let (entry, rest) ← readLine (c :: rest)
      let entries ← readLines fuel rest
      some (entry.toList ++ entries)

/-- A mark of the byte order at the very start is skipped. -/
def skipByteOrderMark : List Char → List Char
  | '\uFEFF' :: rest => rest
  | text => text

/-- Each line takes at least one character, so the length of the text is fuel enough. -/
def readEntries? (text : List Char) : Option (List Entry) :=
  readLines text.length (skipByteOrderMark text)

/-- No key may be given twice. -/
def readTable? (text : String) : Option Table :=
  (readEntries? text.toList).bind fun entries =>
    if h : (entries.map Entry.key).Nodup then some ⟨entries, h⟩ else none

end TagTemplate.Toml
