import TagTemplate.NameMap
import TagTemplate.Value

/-!
Named stacks: for each name an independent stack of values.

A name is known from its first push on.  Looking at or popping a stack fails in two ways: the
name is unknown, or all its values have been popped.
-/

namespace TagTemplate

inductive StackError where
  | unknown (name : String)
  | empty (name : String)
  deriving DecidableEq, Repr

def StackError.message : StackError → String
  | unknown name => "no stack named `" ++ name ++ "`"
  | empty name => "stack `" ++ name ++ "` is empty"

/-- Each stack lists its values from the top. -/
structure NamedStacks where
  byName : NameMap (List Value)

namespace NamedStacks

def empty : NamedStacks := ⟨.empty⟩

/-- The values under a name, from the top; none for an unknown name. -/
def values (store : NamedStacks) (name : String) : List Value :=
  (store.byName.find? name).getD []

def push (store : NamedStacks) (name : String) (value : Value) : NamedStacks :=
  ⟨store.byName.insert name (value :: store.values name)⟩

def stack (store : NamedStacks) (name : String) : Except StackError (List Value) :=
  match store.byName.find? name with
  | some values => .ok values
  | none => .error (.unknown name)

def split (store : NamedStacks) (name : String) : Except StackError (Value × List Value) := do
  match ← store.stack name with
  | top :: below => .ok (top, below)
  | [] => .error (.empty name)

def peek (store : NamedStacks) (name : String) : Except StackError Value := do
  let (top, _) ← store.split name
  .ok top

def pop (store : NamedStacks) (name : String) : Except StackError (Value × NamedStacks) := do
  let (top, below) ← store.split name
  .ok (top, ⟨store.byName.insert name below⟩)

def setTop (store : NamedStacks) (name : String) (value : Value) :
    Except StackError NamedStacks := do
  let (_, below) ← store.split name
  .ok ⟨store.byName.insert name (value :: below)⟩

def isEmpty (store : NamedStacks) (name : String) : Except StackError Bool := do
  .ok (← store.stack name).isEmpty

def lookup (store : NamedStacks) (name : String) : Option Value :=
  (store.values name).head?

def depth (store : NamedStacks) (name : String) : Nat := (store.values name).length

/-! ## The values after a push -/

theorem values_push (store : NamedStacks) (name other : String) (value : Value) :
    (store.push name value).values other =
      if other = name then value :: store.values name else store.values other := by
  by_cases h : other = name <;> simp [push, values, NameMap.find?_insert, h]

end NamedStacks

end TagTemplate
