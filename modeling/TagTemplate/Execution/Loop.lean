import TagTemplate.Document
import TagTemplate.Execution

/-!
Loops.

A loop compares its variable with the end before each iteration and adds the step after it.  It
is over once the variable has passed the end, or once adding the step would move it against the
direction of the loop, as wrapping does.
-/

namespace TagTemplate

/-! ## Bounds -/

namespace Exec

def bound (element : Element) : Exec Value :=
  match element with
  | .var name => do
      let machine ← get
      match resolve machine.scope machine.context name with
      | .ok value => pure value
      | .error e => throw e
  | .int value => pure (.int value)
  | .real value => pure (.real value)
  | .str content => pure (.str content)
  | .function _ => throw (.invalidLoopElement element)
  | .operator _ => throw (.invalidLoopElement element)

def stepBound : Option Element → Exec Value
  | some element => bound element
  | none => pure (.int 1)

end Exec

/-! ## Iterations -/

structure LoopControl where
  counter : String
  stop : Number
  step : Number

namespace LoopControl

/--
How the variable compares with the end once the loop is over: loops with a negative step count
down, all others up.
-/
def past (control : LoopControl) : Ordering :=
  if control.step.order (.int 0) = .lt then .lt else .gt

def isOver (control : LoopControl) : Exec Bool := do
  let current ← Exec.peekNumber control.counter
  pure (current.order control.stop == control.past)

/-- Adds the step, unless that would move the variable against the direction of the loop. -/
def advance (control : LoopControl) : Exec Bool := do
  let current ← Exec.peekNumber control.counter
  let next := Number.apply .add current control.step
  if next.order current = control.past.swap then pure false
  else do
    Exec.setVariable control.counter (.ofNumber next)
    pure true

/-- Runs the body until the loop is over, `budget` times at most. -/
def iterate (control : LoopControl) (exhausted : ExecError) (body : Exec Unit) : Nat → Exec Unit
  | 0 => do
      if ← control.isOver then pure () else throw exhausted
  | budget + 1 => do
      if ← control.isOver then pure ()
      else do
        body
        if ← control.advance then iterate control exhausted body budget else pure ()

end LoopControl

end TagTemplate
