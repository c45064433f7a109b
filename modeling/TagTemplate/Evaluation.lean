import TagTemplate.Context
import TagTemplate.ExecError

/-!
Evaluation of one echo tag: a stack of operands, and the context around it.

Evaluation steps are computations that keep the state in which they fail, so that operands taken
before a failure stay taken.
-/

namespace TagTemplate

/-- The operands are listed from the top of the stack. -/
structure Evaluation where
  operands : List Value
  context : Context

abbrev Eval := ExceptT ExecError (StateM Evaluation)

namespace Eval

def push (value : Value) : Eval Unit :=
  modify fun | ⟨operands, context⟩ => ⟨value :: operands, context⟩

/-- Takes the top operand; `neededBy` names the consumer in case there is none. -/
def pop (neededBy : String) : Eval Value := fun
  | ⟨[], context⟩ => (.error (.stackUnderflow neededBy), ⟨[], context⟩)
  | ⟨value :: operands, context⟩ => (.ok value, ⟨operands, context⟩)

def write (text : String) : Eval Unit := fun
  | ⟨operands, context⟩ =>
      match context.write text with
      | (.ok (), context) => (.ok (), ⟨operands, context⟩)
      | (.error e, context) => (.error (.output e), ⟨operands, context⟩)

def modifyContext (f : Context → Context) : Eval Unit :=
  modify fun | ⟨operands, context⟩ => ⟨operands, f context⟩

def number (value : Value) : Eval Binary64 :=
  match value.toReal with
  | .ok x => pure x
  | .error e => throw (.value e)

/-- Replaces the two top operands by the result of the operator; the top one is on its right. -/
def applyOperator (op : Operator) : Eval Unit := do
  let rhs ← pop op.text
  let lhs ← pop op.text
  match Value.apply op lhs rhs with
  | .ok value => push value
  | .error e => throw (.value e)

end Eval

end TagTemplate
