import TagTemplate.Execution.Echo
import TagTemplate.Execution.Loop

/-!
Interpreters: the functions that echo tags can call, and the iteration limit of loops.

Each run of a document starts with no loop variables.
-/

namespace TagTemplate

structure Interpreter where
  functions : FunctionTable
  /-- Iterations allowed in one run of a loop; zero means any number. -/
  maxLoopIterations : UInt64

namespace Interpreter

def defaultMaxLoopIterations : UInt64 := 1000000

def standard : Interpreter := ⟨.standard, defaultMaxLoopIterations⟩

/-- A loop without a limit may use up the range of a 64-bit count. -/
def loopBudget (interpreter : Interpreter) : Nat :=
  if interpreter.maxLoopIterations = 0 then UInt64.size else interpreter.maxLoopIterations.toNat

def loopExhausted (interpreter : Interpreter) (counter : String) : ExecError :=
  if interpreter.maxLoopIterations = 0 then .endlessLoop counter
  else .loopLimit counter interpreter.maxLoopIterations

/-- The step is reduced to a number first, then the start, then the end. -/
def forLoop (interpreter : Interpreter) (header : LoopHeader) (body : Exec Unit) :
    Exec Unit := do
  let start ← Exec.bound header.start
  let stop ← Exec.bound header.stop
  let step ← Exec.stepBound header.step
  let stepNumber ← Exec.orValueError step.toNumber
  Exec.pushVariable header.counter start
  let _ ← Exec.orValueError start.toNumber
  let stopNumber ← Exec.orValueError stop.toNumber
  let control : LoopControl := ⟨header.counter, stopNumber, stepNumber⟩
  control.iterate (interpreter.loopExhausted header.counter) body interpreter.loopBudget
  Exec.popVariable header.counter

mutual

def runNode (interpreter : Interpreter) : Node → Exec Unit
  | .text content => Exec.write content
  | .echo elements => Exec.echo interpreter.functions elements
  | .forLoop header body => interpreter.forLoop header (interpreter.runNodes body)

def runNodes (interpreter : Interpreter) : List Node → Exec Unit
  | [] => pure ()
  | node :: rest => do
      interpreter.runNode node
      interpreter.runNodes rest

end

def execute (interpreter : Interpreter) (document : Document) (context : Context) :
    Except ExecError Unit × Context :=
  match interpreter.runNodes document.children ⟨.empty, context⟩ with
  | (result, machine) => (result, machine.context)

end Interpreter

end TagTemplate
