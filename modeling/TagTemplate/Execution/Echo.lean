import TagTemplate.Execution
import TagTemplate.FunctionTable

/-!
Echo tags: postfix expressions over an operand stack of their own.

Elements are evaluated in order.  The tag writes the only operand that they leave.
-/

namespace TagTemplate

namespace Eval

def resolveVariable (scope : NamedStacks) (name : String) : Eval Value := do
  match resolve scope (← get).context name with
  | .ok value => pure value
  | .error e => throw e

def call (functions : FunctionTable) (name : String) : Eval Unit :=
  match functions.find? name with
  | some f => f
  | none => throw (.unknownFunction name)

def element (functions : FunctionTable) (scope : NamedStacks) : Element → Eval Unit
  | .var name => do push (← resolveVariable scope name)
  | .str content => push (.str content)
  | .int value => push (.int value)
  | .real value => push (.real value)
  | .operator op => applyOperator op
  | .function name => call functions name

def elements (functions : FunctionTable) (scope : NamedStacks) : List Element → Eval Unit
  | [] => pure ()
  | e :: rest => do
      element functions scope e
      elements functions scope rest

def writeResult : Eval Unit := do
  match (← get).operands with
  | [result] => write result.text
  | operands => throw (.echoImbalance operands.length)

def echo (functions : FunctionTable) (es : List Element) (scope : NamedStacks) : Eval Unit := do
  elements functions scope es
  writeResult

end Eval

def Exec.echo (functions : FunctionTable) (es : List Element) : Exec Unit :=
  evaluate (Eval.echo functions es)

end TagTemplate
