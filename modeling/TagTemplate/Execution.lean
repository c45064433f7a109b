import TagTemplate.Evaluation

/-!
Running the nodes of a document: the state of a run, and the computations that change it.

Computations keep the state in which they fail, so a run that fails keeps what it has written.
-/

namespace TagTemplate

structure Machine where
  scope : NamedStacks
  context : Context

abbrev Exec := ExceptT ExecError (StateM Machine)

/-! ## Variables and output -/

/-- Loop variables first, then request parameters. -/
def resolve (scope : NamedStacks) (context : Context) (name : String) :
    Except ExecError Value :=
  match scope.lookup name with
  | some value => .ok value
  | none =>
      match context.parameter? name with
      | some text => .ok (.str text)
      | none => .error (.unknownVariable name)

namespace Exec

def write (text : String) : Exec Unit := fun
  | ⟨scope, context⟩ =>
      match context.write text with
      | (.ok (), context) => (.ok (), ⟨scope, context⟩)
      | (.error e, context) => (.error (.output e), ⟨scope, context⟩)

/-- Evaluates with an operand stack of its own. -/
def evaluate (evaluation : NamedStacks → Eval Unit) : Exec Unit := fun
  | ⟨scope, context⟩ =>
      match evaluation scope ⟨[], context⟩ with
      | (result, ⟨_, context⟩) => (result, ⟨scope, context⟩)

def orStackError {α : Type} : Except StackError α → Exec α
  | .ok a => pure a
  | .error e => throw (.stack e)

def orValueError {α : Type} : Except ValueError α → Exec α
  | .ok a => pure a
  | .error e => throw (.value e)

def pushVariable (name : String) (value : Value) : Exec Unit :=
  modify fun | ⟨scope, context⟩ => ⟨scope.push name value, context⟩

def peekVariable (name : String) : Exec Value := do
  orStackError ((← get).scope.peek name)

def peekNumber (name : String) : Exec Number := do
  orValueError (← peekVariable name).toNumber

def setVariable (name : String) (value : Value) : Exec Unit := do
  let scope ← orStackError ((← get).scope.setTop name value)
  modify fun | ⟨_, context⟩ => ⟨scope, context⟩

def popVariable (name : String) : Exec Unit := do
  let (_, scope) ← orStackError ((← get).scope.pop name)
  modify fun | ⟨_, context⟩ => ⟨scope, context⟩

end Exec

end TagTemplate
