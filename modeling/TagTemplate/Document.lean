import TagTemplate.Element

/-!
Documents: lists of nodes, in which only loops have nodes below them.

`Document.source` writes a document as template source.
-/

namespace TagTemplate

structure LoopHeader where
  counter : String
  start : Element
  stop : Element
  step : Option Element
  deriving DecidableEq

inductive Node where
  | text (content : String)
  | echo (elements : List Element)
  | forLoop (header : LoopHeader) (body : List Node)

/-! ## Equality -/

mutual

def Node.beq : Node → Node → Bool
  | .text a, .text b => a == b
  | .echo a, .echo b => a == b
  | .forLoop header body, .forLoop header' body' => header == header' && Node.beqAll body body'
  | _, _ => false

def Node.beqAll : List Node → List Node → Bool
  | [], [] => true
  | a :: as, b :: bs => Node.beq a b && Node.beqAll as bs
  | _, _ => false

end

mutual

theorem Node.beq_iff_eq : ∀ a b : Node, Node.beq a b = true ↔ a = b
  | .text a, .text b => by simp [Node.beq]
  | .echo a, .echo b => by simp [Node.beq]
  | .forLoop header body, .forLoop header' body' => by
      simp [Node.beq, Node.beqAll_iff_eq body body']
  | .text _, .echo _ => by simp [Node.beq]
  | .text _, .forLoop _ _ => by simp [Node.beq]
  | .echo _, .text _ => by simp [Node.beq]
  | .echo _, .forLoop _ _ => by simp [Node.beq]
  | .forLoop _ _, .text _ => by simp [Node.beq]
  | .forLoop _ _, .echo _ => by simp [Node.beq]

theorem Node.beqAll_iff_eq : ∀ as bs : List Node, Node.beqAll as bs = true ↔ as = bs
  | [], [] => by simp [Node.beqAll]
  | [], _ :: _ => by simp [Node.beqAll]
  | _ :: _, [] => by simp [Node.beqAll]
  | a :: as, b :: bs => by
      simp [Node.beqAll, Node.beq_iff_eq a b, Node.beqAll_iff_eq as bs]

end

instance : DecidableEq Node := fun a b => decidable_of_iff _ (Node.beq_iff_eq a b)

structure Document where
  children : List Node
  deriving DecidableEq

/-! ## Size -/

mutual

def Node.count : Node → Nat
  | .text _ => 1
  | .echo _ => 1
  | .forLoop _ body => 1 + Node.countAll body

def Node.countAll : List Node → Nat
  | [] => 0
  | node :: rest => node.count + Node.countAll rest

end

def Document.nodeCount (d : Document) : Nat := Node.countAll d.children

/-! ## Source form -/

def escapedTextChar (c : Char) : List Char :=
  if c = '\\' then ['\\', '\\']
  else if c = '{' then ['\\', '{']
  else [c]

def elementsSpelling (elements : List Element) : List Char :=
  elements.flatMap fun e => ' ' :: e.spelling

def LoopHeader.bounds (header : LoopHeader) : List Element :=
  header.start :: header.stop :: header.step.toList

def LoopHeader.spelling (header : LoopHeader) : List Char :=
  "\x7b$ FOR ".toList ++ header.counter.toList ++ elementsSpelling header.bounds ++
    " $\x7d".toList

mutual

def Node.spelling : Node → List Char
  | .text content => content.toList.flatMap escapedTextChar
  | .echo elements => "\x7b$=".toList ++ elementsSpelling elements ++ " $\x7d".toList
  | .forLoop header body =>
      header.spelling ++ Node.spellingAll body ++ "\x7b$END$\x7d".toList

def Node.spellingAll : List Node → List Char
  | [] => []
  | node :: rest => node.spelling ++ Node.spellingAll rest

end

def Document.source (d : Document) : String := String.ofList (Node.spellingAll d.children)

end TagTemplate
