import TagTemplate.DecimalPattern
import TagTemplate.Evaluation

/-!
The standard functions.

A function takes its arguments from the operand stack, the last one first, and leaves its
results there.  Functions that only affect the context leave an absent value, which shows as
nothing.
-/

namespace TagTemplate

/-- What a function name in an echo tag stands for. -/
abbrev Builtin := Eval Unit

inductive StandardFunction where
  | sin
  | decfmt
  | dup
  | swap
  | setMimeType
  | paramGet
  | persistentGet
  | persistentSet
  | persistentDel
  | temporaryGet
  | temporarySet
  | temporaryDel
  deriving DecidableEq, Repr

namespace StandardFunction

def all : List StandardFunction :=
  [sin, decfmt, dup, swap, setMimeType, paramGet, persistentGet, persistentSet, persistentDel,
    temporaryGet, temporarySet, temporaryDel]

def name : StandardFunction → String
  | sin => "sin"
  | decfmt => "decfmt"
  | dup => "dup"
  | swap => "swap"
  | setMimeType => "setMimeType"
  | paramGet => "paramGet"
  | persistentGet => "pparamGet"
  | persistentSet => "pparamSet"
  | persistentDel => "pparamDel"
  | temporaryGet => "tparamGet"
  | temporarySet => "tparamSet"
  | temporaryDel => "tparamDel"

def argument (f : StandardFunction) : Eval Value := Eval.pop ("@" ++ f.name)

/-! ## Families -/

/-- Name, default: leaves the text found under the name, or else the default as it is. -/
def getWithDefault (f : StandardFunction) (find? : Context → String → Option String) :
    Builtin := do
  let default ← f.argument
  let name := (← f.argument).text
  match find? (← get).context name with
  | some text => Eval.push (.str text)
  | none => Eval.push default

/-- Value, name: stores the text of the value under the name. -/
def store (f : StandardFunction) (set : Context → String → String → Context) : Builtin := do
  let name := (← f.argument).text
  let value := (← f.argument).text
  Eval.modifyContext fun context => set context name value
  Eval.push .null

/-- Text: lets it change the context. -/
def change (f : StandardFunction) (change : Context → String → Context) : Builtin := do
  let text := (← f.argument).text
  Eval.modifyContext fun context => change context text
  Eval.push .null

/-! ## Functions -/

/-- Angle in degrees: leaves its sine. -/
def runSin : Builtin := do
  let x ← Eval.number (← sin.argument)
  Eval.push (.real x.sinDegrees)

/-- Number, pattern: leaves the number as the pattern formats it. -/
def runDecfmt : Builtin := do
  let pattern := (← decfmt.argument).text
  let x ← Eval.number (← decfmt.argument)
  match DecimalPattern.parse? pattern.toList with
  | some format => Eval.push (.str (format.format x))
  | none => throw (.function decfmt.name ("invalid decimal pattern `" ++ pattern ++ "`"))

def runDup : Builtin := do
  let x ← dup.argument
  Eval.push x
  Eval.push x

def runSwap : Builtin := do
  let b ← swap.argument
  let a ← swap.argument
  Eval.push b
  Eval.push a

def run : StandardFunction → Builtin
  | sin => runSin
  | decfmt => runDecfmt
  | dup => runDup
  | swap => runSwap
  | setMimeType => setMimeType.change Context.setMimeType
  | paramGet => paramGet.getWithDefault Context.parameter?
  | persistentGet => persistentGet.getWithDefault Context.persistent?
  | persistentSet => persistentSet.store Context.setPersistent
  | persistentDel => persistentDel.change Context.removePersistent
  | temporaryGet => temporaryGet.getWithDefault Context.temporary?
  | temporarySet => temporarySet.store Context.setTemporary
  | temporaryDel => temporaryDel.change Context.removeTemporary

end StandardFunction

end TagTemplate
