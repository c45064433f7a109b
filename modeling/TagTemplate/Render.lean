import TagTemplate.Document.Parser
import TagTemplate.Interpreter

/-!
Rendering template source in one go.
-/

namespace TagTemplate

inductive RenderError where
  | parse (e : ParseError)
  | exec (e : ExecError)
  deriving DecidableEq

def RenderError.message : RenderError → String
  | parse e => "parse error: " ++ e.message
  | exec e => "execution error: " ++ e.message

def Interpreter.render (interpreter : Interpreter) (source : String) (context : Context) :
    Except RenderError Unit × Context :=
  match Document.parse source with
  | .error e => (.error (.parse e), context)
  | .ok document =>
      match interpreter.execute document context with
      | (.ok (), context) => (.ok (), context)
      | (.error e, context) => (.error (.exec e), context)

/-- Nothing is written if the source does not parse. -/
def render (source : String) (context : Context) : Except RenderError Unit × Context :=
  Interpreter.standard.render source context

end TagTemplate
