import TagTemplate.StandardFunction

/-!
Function tables: the functions that echo tags can call, by name.
-/

namespace TagTemplate

structure FunctionTable where
  functions : NameMap Builtin

namespace FunctionTable

def empty : FunctionTable := ⟨.empty⟩

/-- Adds a function, or replaces the one of that name. -/
def register (table : FunctionTable) (name : String) (f : Builtin) : FunctionTable :=
  ⟨table.functions.insert name f⟩

def find? (table : FunctionTable) (name : String) : Option Builtin :=
  table.functions.find? name

def contains (table : FunctionTable) (name : String) : Bool := table.functions.contains name

def size (table : FunctionTable) : Nat := table.functions.names.length

def standard : FunctionTable :=
  StandardFunction.all.foldl (fun table f => table.register f.name f.run) empty

/-- Names in increasing order of their code points. -/
def sortedNames (table : FunctionTable) : List String :=
  table.functions.names.mergeSort fun a b => decide (a ≤ b)

def description (table : FunctionTable) : String :=
  "FunctionTable \x7b functions: [" ++
    String.intercalate ", " (table.sortedNames.map Text.quoted) ++ "] \x7d"

end FunctionTable

end TagTemplate
