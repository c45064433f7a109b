import TagTemplate.Settings

/-!
Sessions: an interpreter and a context that serve one request after another, with the document
run last.
-/

namespace TagTemplate

structure Session where
  interpreter : Interpreter
  context : Context
  document : Document

namespace Session

def start (context : Context) : Session := ⟨.standard, context, ⟨[]⟩⟩

def rerun (session : Session) : Except ExecError Unit × Session :=
  match session.interpreter.execute session.document session.context with
  | (result, context) => (result, { session with context })

/-- Takes up a new document and runs it; a source that does not parse changes nothing. -/
def run (session : Session) (source : String) : Except RenderError Unit × Session :=
  match Document.parse source with
  | .error e => (.error (.parse e), session)
  | .ok document =>
      match { session with document }.rerun with
      | (.ok (), after) => (.ok (), after)
      | (.error e, after) => (.error (.exec e), after)

/-- Renders with a standard interpreter, leaving the document at hand. -/
def render (session : Session) (source : String) : Except RenderError Unit × Session :=
  match TagTemplate.render source session.context with
  | (result, context) => (result, { session with context })

def write (session : Session) (text : String) : Except WriteError Unit × Session :=
  match session.context.write text with
  | (result, context) => (result, { session with context })

/-- Starts over with the interpreter and the context of the settings. -/
def configure (session : Session) (settings : Settings) : Session :=
  { session with interpreter := settings.interpreter, context := settings.requestContext }

def nextRequest (session : Session) : Session :=
  { session with context := session.context.nextRequest }

def modifyContext (session : Session) (f : Context → Context) : Session :=
  { session with context := f session.context }

def setLimit (session : Session) (limit : UInt64) : Session :=
  { session with interpreter := { session.interpreter with maxLoopIterations := limit } }

/-- Also tells whether a function of that name was replaced. -/
def register (session : Session) (name : String) (f : Builtin) : Bool × Session :=
  let functions := session.interpreter.functions
  (functions.contains name,
    { session with
      interpreter := { session.interpreter with functions := functions.register name f } })

end Session

end TagTemplate
