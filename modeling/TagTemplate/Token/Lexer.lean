import TagTemplate.Numeral
import TagTemplate.Text.Alphabetic
import TagTemplate.Text.Blank
import TagTemplate.Text.Numeric
import TagTemplate.Token

/-!
Reading tokens from template source.

Outside tags everything up to the next tag is one text token, in which a backslash makes a brace
or a backslash literal.  Inside a tag blanks are skipped and each call gives one token of the tag
body.  The caller chooses the mode; `Lexer.tokens` switches it at the tag delimiters.  A failed
call leaves the lexer where reading stopped, and the next call goes on from there.
-/

namespace TagTemplate

/-! ## Failures -/

/-- Offsets count bytes from the start of the source. -/
inductive LexError where
  | invalidTextEscape (offset : Nat) (found : Char)
  | danglingEscape (offset : Nat)
  | invalidStringEscape (offset : Nat) (found : Char)
  | unterminatedString (offset : Nat)
  | invalidFunctionName (offset : Nat)
  | numberOutOfRange (offset : Nat) (literal : String)
  | unexpectedChar (offset : Nat) (found : Char)
  deriving DecidableEq, Repr

def LexError.message : LexError → String
  | invalidTextEscape offset found =>
      "invalid escape `\\" ++ found.toString ++ "` in text at offset " ++ toString offset
  | danglingEscape offset => "backslash at end of input (offset " ++ toString offset ++ ")"
  | invalidStringEscape offset found =>
      "invalid escape `\\" ++ found.toString ++ "` in string literal at offset " ++
        toString offset
  | unterminatedString offset =>
      "unterminated string literal starting at offset " ++ toString offset
  | invalidFunctionName offset =>
      "`@` at offset " ++ toString offset ++ " must be followed by a letter"
  | numberOutOfRange offset literal =>
      "number `" ++ literal ++ "` at offset " ++ toString offset ++ " is out of range"
  | unexpectedChar offset found =>
      "unexpected character `" ++ found.toString ++ "` at offset " ++ toString offset

/-! ## Cursors -/

def byteLength (text : List Char) : Nat :=
  text.foldl (fun length c => length + c.utf8Size) 0

/-- The unread input and the byte offset at which it starts. -/
structure Cursor where
  rest : List Char
  offset : Nat
  deriving DecidableEq, Repr

/-- The longest run of characters that satisfy `p`, and the cursor behind it. -/
def Cursor.span (cursor : Cursor) (p : Char → Bool) : List Char × Cursor :=
  let taken := cursor.rest.takeWhile p
  (taken, ⟨cursor.rest.dropWhile p, cursor.offset + byteLength taken⟩)

abbrev Reading := Except LexError Token × Cursor

/-! ## Text -/

def opensTag : List Char → Bool
  | '{' :: '$' :: _ => true
  | _ => false

def textToken (content : List Char) : Token :=
  if content.isEmpty then .eof else .text (String.ofList content)

/-- Reads up to the next tag; `read` holds the characters read so far, last first. -/
def scanText (read : List Char) : List Char → Nat → Reading
  | [], offset => (.ok (textToken read.reverse), ⟨[], offset⟩)
  | c :: rest, offset =>
      if c = '\\' then
        match rest with
        | [] => (.error (.danglingEscape offset), ⟨[], offset + 1⟩)
        | escaped :: rest =>
            if escaped = '{' ∨ escaped = '\\' then scanText (escaped :: read) rest (offset + 2)
            else
              (.error (.invalidTextEscape offset escaped),
                ⟨rest, offset + 1 + escaped.utf8Size⟩)
      else if opensTag (c :: rest) then (.ok (textToken read.reverse), ⟨c :: rest, offset⟩)
      else scanText (c :: read) rest (offset + c.utf8Size)

/-! ## Tags -/

def closesTag : List Char → Bool
  | '$' :: '}' :: _ => true
  | _ => false

def isWordChar (c : Char) : Bool := Text.isAlphabetic c || Text.isNumeric c || c == '_'

def startsWith (p : Char → Bool) : List Char → Bool
  | c :: _ => p c
  | [] => false

/-- A word that starts a tag is a tag name if it is `for` or `end`, in any case. -/
def tagWord (word : List Char) : Token :=
  let lower := String.ofList (word.map Char.toLower)
  if lower = "for" ∨ lower = "end" then .tagName lower else .ident (String.ofList word)

def stringEscape? : Char → Option Char
  | '"' => some '"'
  | '\\' => some '\\'
  | 'n' => some '\n'
  | 'r' => some '\r'
  | 't' => some '\t'
  | _ => none

/-- Reads the rest of the string literal that was opened at `start`. -/
def scanString (start : Nat) (read : List Char) : List Char → Nat → Reading
  | [], offset => (.error (.unterminatedString start), ⟨[], offset⟩)
  | c :: rest, offset =>
      if c = '"' then (.ok (.str (String.ofList read.reverse)), ⟨rest, offset + 1⟩)
      else if c = '\\' then
        match rest with
        | [] => (.error (.unterminatedString start), ⟨[], offset + 1⟩)
        | escaped :: rest =>
            match stringEscape? escaped with
            | some meant => scanString start (meant :: read) rest (offset + 2)
            | none =>
                (.error (.invalidStringEscape offset escaped),
                  ⟨rest, offset + 1 + escaped.utf8Size⟩)
      else scanString start (c :: read) rest (offset + c.utf8Size)

/-- A numeral: its characters, whether it has a fraction, and what follows it. -/
structure NumeralSpan where
  literal : List Char
  hasFraction : Bool
  rest : List Char

/-- A point belongs to the numeral only if a digit follows it. -/
def spanUnsigned (text : List Char) : NumeralSpan :=
  let whole := text.takeWhile Char.isDigit
  match text.dropWhile Char.isDigit with
  | '.' :: rest =>
      if startsWith Char.isDigit rest then
        ⟨whole ++ '.' :: rest.takeWhile Char.isDigit, true, rest.dropWhile Char.isDigit⟩
      else ⟨whole, false, '.' :: rest⟩
  | rest => ⟨whole, false, rest⟩

def spanNumeral : List Char → NumeralSpan
  | '-' :: rest =>
      let span := spanUnsigned rest
      { span with literal := '-' :: span.literal }
  | text => spanUnsigned text

def numeralToken? (span : NumeralSpan) : Option Token :=
  if span.hasFraction then (Numeral.real? span.literal).map .real
  else (Numeral.int32? span.literal).map .int

def scanNumeral (cursor : Cursor) : Reading :=
  let span := spanNumeral cursor.rest
  let behind : Cursor := ⟨span.rest, cursor.offset + byteLength span.literal⟩
  match numeralToken? span with
  | some token => (.ok token, behind)
  | none => (.error (.numberOutOfRange cursor.offset (String.ofList span.literal)), behind)

def startsNumeral : List Char → Bool
  | '-' :: rest => startsWith Char.isDigit rest
  | text => startsWith Char.isDigit text

/-- Reads a token of a tag body from the character `c`, which is not a blank. -/
def scanTagBody (c : Char) (rest : List Char) (offset : Nat) : Reading :=
  let here : Cursor := ⟨c :: rest, offset⟩
  if closesTag (c :: rest) then (.ok .tagClose, ⟨rest.tail, offset + 2⟩)
  else if c = '"' then scanString offset [] rest (offset + 1)
  else if c = '@' then
    let behind : Cursor := ⟨rest, offset + 1⟩
    if startsWith Text.isAlphabetic rest then
      let (name, cursor) := behind.span isWordChar
      (.ok (.function (String.ofList name)), cursor)
    else (.error (.invalidFunctionName offset), behind)
  else if startsNumeral (c :: rest) then scanNumeral here
  else if Text.isAlphabetic c then
    let (name, cursor) := here.span isWordChar
    (.ok (.ident (String.ofList name)), cursor)
  else
    match Operator.ofChar? c with
    | some op => (.ok (.operator op), ⟨rest, offset + c.utf8Size⟩)
    | none => (.error (.unexpectedChar offset c), here)

/-- Like `scanTagBody`, for the first token of a tag. -/
def scanTagStart (c : Char) (rest : List Char) (offset : Nat) : Reading :=
  if c = '=' then (.ok (.tagName "="), ⟨rest, offset + 1⟩)
  else if Text.isAlphabetic c then
    let (word, cursor) := Cursor.span ⟨c :: rest, offset⟩ isWordChar
    (.ok (tagWord word), cursor)
  else scanTagBody c rest offset

/-! ## Lexers -/

inductive Mode where
  | text
  | tag
  deriving DecidableEq, Repr

/-- `atTagStart` holds from the opening of a tag to the next character read inside a tag. -/
structure Lexer where
  cursor : Cursor
  mode : Mode
  atTagStart : Bool
  last : Option Token

namespace Lexer

def ofSource (source : String) : Lexer := ⟨⟨source.toList, 0⟩, .text, false, none⟩

def setMode (lexer : Lexer) (mode : Mode) : Lexer := { lexer with mode }

def readText (lexer : Lexer) : Reading :=
  let cursor := lexer.cursor
  if opensTag cursor.rest then (.ok .tagOpen, ⟨cursor.rest.drop 2, cursor.offset + 2⟩)
  else scanText [] cursor.rest cursor.offset

def readTag (lexer : Lexer) : Reading :=
  let cursor := (lexer.cursor.span Text.isBlank).2
  match cursor.rest with
  | [] => (.ok .eof, cursor)
  | c :: rest =>
      if lexer.atTagStart then scanTagStart c rest cursor.offset
      else scanTagBody c rest cursor.offset

def read (lexer : Lexer) : Reading :=
  match lexer.mode with
  | .text => lexer.readText
  | .tag => lexer.readTag

/-- Whether the next tag token will be the first of its tag, after a call that gave `result`. -/
def tagStartAfter (lexer : Lexer) (result : Except LexError Token) : Bool :=
  match lexer.mode, result with
  | .text, .ok .tagOpen => true
  | .text, _ => lexer.atTagStart
  | .tag, .ok .eof => lexer.atTagStart
  | .tag, _ => false

/-- The next token in the current mode; at the end of the input it is `Token.eof`, for ever. -/
def next (lexer : Lexer) : Except LexError Token × Lexer :=
  let (result, cursor) := lexer.read
  let last := match result with
    | .ok token => some token
    | .error _ => lexer.last
  (result, ⟨cursor, lexer.mode, lexer.tagStartAfter result, last⟩)

end Lexer

end TagTemplate
