import TagTemplate.NameMap
import TagTemplate.Sink

/-!
Request contexts: all that a running template can observe or affect outside itself.

Request parameters are only read.  Persistent parameters can be carried over to a later request,
temporary ones live as long as the context.
-/

namespace TagTemplate

structure Context where
  sink : Sink
  mimeType : String
  parameters : NameMap String
  persistent : NameMap String
  temporary : NameMap String

namespace Context

def defaultMimeType : String := "text/html"

def ofSink (sink : Sink) : Context := ⟨sink, defaultMimeType, .empty, .empty, .empty⟩

def buffered : Context := ofSink .unbounded

def write (context : Context) (text : String) : Except WriteError Unit × Context :=
  match context with
  | ⟨sink, mimeType, parameters, persistent, temporary⟩ =>
      let (result, sink) := sink.write text
      (result, ⟨sink, mimeType, parameters, persistent, temporary⟩)

def setMimeType (context : Context) (mimeType : String) : Context :=
  { context with mimeType }

def parameter? (context : Context) (name : String) : Option String :=
  context.parameters.find? name

def setParameter (context : Context) (name value : String) : Context :=
  { context with parameters := context.parameters.insert name value }

def persistent? (context : Context) (name : String) : Option String :=
  context.persistent.find? name

def setPersistent (context : Context) (name value : String) : Context :=
  { context with persistent := context.persistent.insert name value }

def removePersistent (context : Context) (name : String) : Context :=
  { context with persistent := context.persistent.erase name }

def temporary? (context : Context) (name : String) : Option String :=
  context.temporary.find? name

def setTemporary (context : Context) (name value : String) : Context :=
  { context with temporary := context.temporary.insert name value }

def removeTemporary (context : Context) (name : String) : Context :=
  { context with temporary := context.temporary.erase name }

/-- A fresh context for a later request, which keeps only the persistent parameters. -/
def nextRequest (context : Context) : Context :=
  { buffered with persistent := context.persistent }

end Context

end TagTemplate
