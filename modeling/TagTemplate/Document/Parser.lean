import TagTemplate.Document
import TagTemplate.Token.Stream

/-!
Reading documents from template source.

The parser is an automaton that takes one token at a time.  Its phase says what the current tag
still needs; its builder holds the nodes read so far, with one frame for each loop that is still
open.  Parsing pulls the tokens from a lexer one by one, which the phase keeps in its mode, so the
first token that does not fit decides the error, before any later failure to read a token.
-/

namespace TagTemplate

/-! ## Failures -/

inductive Expectation where
  | textOrTag
  | tagName
  | loopVariable
  | echoElement
  | tagClose
  deriving DecidableEq, Repr

def Expectation.text : Expectation → String
  | textOrTag => "text or `\x7b$`"
  | tagName => "tag name"
  | loopVariable => "loop variable name"
  | echoElement => "echo element or `$\x7d`"
  | tagClose => "`$\x7d`"

inductive BoundPosition where
  | start
  | stop
  | step
  deriving DecidableEq, Repr

def BoundPosition.text : BoundPosition → String
  | start => "start"
  | stop => "end"
  | step => "step"

inductive ParseError where
  | lex (e : LexError)
  | unknownTag (name : String)
  | unexpected (expected : Expectation) (found : Token)
  | invalidBound (position : BoundPosition) (found : Token)
  | emptyEcho
  | unmatchedEnd
  | unclosedFor (count : Nat)
  deriving DecidableEq

def ParseError.message : ParseError → String
  | lex e => "lex error: " ++ e.message
  | unknownTag name => "unknown tag `" ++ name ++ "`"
  | unexpected expected found =>
      "expected " ++ expected.text ++ ", found " ++ found.description
  | invalidBound position found =>
      "`FOR` " ++ position.text ++ " must be a variable, integer or string, found " ++
        found.description
  | emptyEcho => "echo tag has no elements"
  | unmatchedEnd => "`END` tag without a matching `FOR`"
  | unclosedFor count =>
      toString count ++ " `FOR` tag(s) not closed by `END` at end of input"

/-! ## Building the tree -/

/-- An open loop and the nodes before it at its own level, last first. -/
structure Frame where
  header : LoopHeader
  before : List Node

/-- The nodes of the innermost open level, last first, and the loops around it. -/
structure Builder where
  siblings : List Node
  enclosing : List Frame

namespace Builder

def empty : Builder := ⟨[], []⟩

def append (builder : Builder) (node : Node) : Builder :=
  { builder with siblings := node :: builder.siblings }

def openLoop (builder : Builder) (header : LoopHeader) : Builder :=
  ⟨[], ⟨header, builder.siblings⟩ :: builder.enclosing⟩

def closeLoop? (builder : Builder) : Option Builder :=
  match builder.enclosing with
  | [] => none
  | frame :: outer =>
      some ⟨.forLoop frame.header builder.siblings.reverse :: frame.before, outer⟩

end Builder

/-! ## The automaton -/

inductive Phase where
  | outside
  | tagName
  | loopVariable
  | loopStart (counter : String)
  | loopStop (counter : String) (start : Element)
  | loopStep (counter : String) (start stop : Element)
  | loopClose (header : LoopHeader)
  | endClose
  /-- The elements read so far, last first. -/
  | echo (elements : List Element)

/-- The mode in which the next token is read. -/
def Phase.mode : Phase → Mode
  | .outside => .text
  | _ => .tag

structure Parser where
  builder : Builder
  phase : Phase

namespace Parser

def initial : Parser := ⟨.empty, .outside⟩

def stepOutside (builder : Builder) : Token → Except ParseError Parser
  | .eof => .ok ⟨builder, .outside⟩
  | .text content => .ok ⟨builder.append (.text content), .outside⟩
  | .tagOpen => .ok ⟨builder, .tagName⟩
  | token => .error (.unexpected .textOrTag token)

def stepTagName (builder : Builder) : Token → Except ParseError Parser
  | .tagName name =>
      if name = "for" then .ok ⟨builder, .loopVariable⟩
      else if name = "=" then .ok ⟨builder, .echo []⟩
      else if name = "end" then .ok ⟨builder, .endClose⟩
      else .error (.unknownTag name)
  | .ident name => .error (.unknownTag name)
  | .eof => .error (.unexpected .tagName .eof)
  | .tagClose => .error (.unexpected .tagName .tagClose)
  | token => .error (.unknownTag token.description)

def stepLoopVariable (builder : Builder) : Token → Except ParseError Parser
  | .ident name => .ok ⟨builder, .loopStart name⟩
  | token => .error (.unexpected .loopVariable token)

def bound (position : BoundPosition) (token : Token) : Except ParseError Element :=
  match Element.boundOfToken? token with
  | some e => .ok e
  | none => .error (.invalidBound position token)

def stepLoopStep (builder : Builder) (counter : String) (start stop : Element) (token : Token) :
    Except ParseError Parser :=
  if token = .tagClose then .ok ⟨builder.openLoop ⟨counter, start, stop, none⟩, .outside⟩
  else do
    let step ← bound .step token
    .ok ⟨builder, .loopClose ⟨counter, start, stop, some step⟩⟩

def stepEndClose (builder : Builder) (token : Token) : Except ParseError Parser :=
  if token = .tagClose then
    match builder.closeLoop? with
    | some closed => .ok ⟨closed, .outside⟩
    | none => .error .unmatchedEnd
  else .error (.unexpected .tagClose token)

def stepEcho (builder : Builder) (elements : List Element) (token : Token) :
    Except ParseError Parser :=
  if token = .tagClose then
    if elements.isEmpty then .error .emptyEcho
    else .ok ⟨builder.append (.echo elements.reverse), .outside⟩
  else
    match Element.ofToken? token with
    | some e => .ok ⟨builder, .echo (e :: elements)⟩
    | none => .error (.unexpected .echoElement token)

def step (parser : Parser) (token : Token) : Except ParseError Parser :=
  let builder := parser.builder
  match parser.phase with
  | .outside => stepOutside builder token
  | .tagName => stepTagName builder token
  | .loopVariable => stepLoopVariable builder token
  | .loopStart counter => do
      let start ← bound .start token
      .ok ⟨builder, .loopStop counter start⟩
  | .loopStop counter start => do
      let stop ← bound .stop token
      .ok ⟨builder, .loopStep counter start stop⟩
  | .loopStep counter start stop => stepLoopStep builder counter start stop token
  | .loopClose header =>
      if token = .tagClose then .ok ⟨builder.openLoop header, .outside⟩
      else .error (.unexpected .tagClose token)
  | .endClose => stepEndClose builder token
  | .echo elements => stepEcho builder elements token

/-- The document read, once the input has ended outside of all tags. -/
def finish (parser : Parser) : Except ParseError Document :=
  if parser.builder.enclosing.isEmpty then .ok ⟨parser.builder.siblings.reverse⟩
  else .error (.unclosedFor parser.builder.enclosing.length)

/-- Takes tokens from the lexer up to the end of the input, and switches it as the phase asks. -/
def drive (parser : Parser) (lexer : Lexer) : Except ParseError Document :=
  match h : lexer.next with
  | (.error e, _) => .error (.lex e)
  | (.ok token, after) =>
      match parser.step token with
      | .error e => .error e
      | .ok next =>
          if heof : token = .eof then next.finish
          else
            have : after.cursor.rest.length < lexer.cursor.rest.length :=
              Lexer.length_next_lt h heof
            drive next (after.setMode next.phase.mode)
termination_by lexer.cursor.rest.length

end Parser

def Document.parse (source : String) : Except ParseError Document :=
  Parser.initial.drive (Lexer.ofSource source)

end TagTemplate
