import TagTemplate.Binary64.Text
import TagTemplate.Operator
import TagTemplate.Text.Quoted

/-!
Tokens of template source.

A tag name is the word right after the opening of a tag: `for`, `end` or `=`.
-/

namespace TagTemplate

inductive Token where
  | eof
  | text (content : String)
  | tagOpen
  | tagClose
  | tagName (name : String)
  | ident (name : String)
  | int (value : Int32)
  | real (value : Binary64)
  | str (content : String)
  | function (name : String)
  | operator (op : Operator)
  deriving DecidableEq

inductive TokenKind where
  | eof
  | text
  | tagOpen
  | tagClose
  | tagName
  | ident
  | int
  | real
  | str
  | function
  | operator
  deriving DecidableEq, Repr

namespace Token

def kind : Token → TokenKind
  | eof => .eof
  | text _ => .text
  | tagOpen => .tagOpen
  | tagClose => .tagClose
  | tagName _ => .tagName
  | ident _ => .ident
  | int _ => .int
  | real _ => .real
  | str _ => .str
  | function _ => .function
  | operator _ => .operator

def description : Token → String
  | eof => "end of input"
  | text content => "text " ++ Text.quoted content
  | tagOpen => "`\x7b$`"
  | tagClose => "`$\x7d`"
  | tagName name => "tag name `" ++ name ++ "`"
  | ident name => "identifier `" ++ name ++ "`"
  | int value => "integer " ++ toString value.toInt
  | real value => "real " ++ value.text
  | str content => "string " ++ Text.quoted content
  | function name => "function `@" ++ name ++ "`"
  | operator op => "operator `" ++ op.text ++ "`"

end Token

end TagTemplate
