import TagTemplate.NamedStacks
import TagTemplate.Sink

/-!
Failures of running a template.
-/

namespace TagTemplate

inductive ExecError where
  | stack (e : StackError)
  | value (e : ValueError)
  | unknownVariable (name : String)
  | unknownFunction (name : String)
  | stackUnderflow (neededBy : String)
  | echoImbalance (count : Nat)
  | invalidLoopElement (element : Element)
  | loopLimit (counter : String) (limit : UInt64)
  /-- A loop without a limit ran through all values of a 64-bit iteration count. -/
  | endlessLoop (counter : String)
  | function (name : String) (reason : String)
  | output (e : WriteError)
  deriving DecidableEq

def ExecError.message : ExecError → String
  | stack e => e.message
  | value e => e.message
  | unknownVariable name => "unknown variable `" ++ name ++ "`"
  | unknownFunction name => "unknown function `@" ++ name ++ "`"
  | stackUnderflow neededBy => "not enough operands for `" ++ neededBy ++ "`"
  | echoImbalance count =>
      "echo tag left " ++ toString count ++ " values on the stack, expected exactly 1"
  | invalidLoopElement element => "`" ++ element.source ++ "` cannot be used as a loop bound"
  | loopLimit counter limit =>
      "loop over `" ++ counter ++ "` exceeded " ++ toString limit.toNat ++ " iterations"
  | endlessLoop counter => "loop over `" ++ counter ++ "` does not end"
  | function name reason => "@" ++ name ++ ": " ++ reason
  | output e => "write failed: " ++ e.message

end TagTemplate
