import TagTemplate.Proofs.Execution.Agreement

/-!
Lexical scope of loop variables.

A value on top of the stack of a name does to a list of nodes what writing the value in place of
the name does, up to the bodies of loops with a counter of that name.  The views of the two runs
differ in the one name only, and in the body of such a loop not even there.
-/

namespace TagTemplate

/-! ## Substitution -/

/-- A value that can be written in a tag. -/
inductive Literal where
  | str (content : String)
  | int (value : Int32)
  | real (value : Binary64)

namespace Literal

def value : Literal → Value
  | str content => .str content
  | int n => .int n
  | real x => .real x

def element : Literal → Element
  | str content => .str content
  | int n => .int n
  | real x => .real x

end Literal

def Element.substitute (name : String) (literal : Literal) : Element → Element
  | .var other => if other = name then literal.element else .var other
  | element => element

def LoopHeader.substitute (name : String) (literal : Literal) (header : LoopHeader) :
    LoopHeader where
  counter := header.counter
  start := header.start.substitute name literal
  stop := header.stop.substitute name literal
  step := header.step.map (Element.substitute name literal)

mutual

def Node.substitute (name : String) (literal : Literal) : Node → Node
  | .text content => .text content
  | .echo elements => .echo (elements.map (Element.substitute name literal))
  | .forLoop header body =>
      .forLoop (header.substitute name literal)
        (if header.counter = name then body else Node.substituteAll name literal body)

/-- Writes the literal for the name, except in the bodies of loops over the name. -/
def Node.substituteAll (name : String) (literal : Literal) : List Node → List Node
  | [] => []
  | node :: rest => node.substitute name literal :: Node.substituteAll name literal rest

end

/-! ## Elements -/

/-- In the first view the name stands for the value, all others are as in the second. -/
def Binds (name : String) (value : Value) (f g : View) : Prop :=
  f = Function.update g name (some value)

section Elements

variable {name : String} {literal : Literal}

theorem resolve_of_binds {scope scope' : NamedStacks}
    (h : Binds name literal.value scope.lookup scope'.lookup) (context : Context)
    (other : String) :
    resolve scope context other =
      if other = name then .ok literal.value else resolve scope' context other := by
  by_cases hname : other = name
  · rw [if_pos hname, resolve, h, hname, Function.update_self]
  · rw [if_neg hname]
    refine resolve_of_lookup ?_ context
    rw [h, Function.update_of_ne hname]

theorem Eval.element_literal (functions : FunctionTable) (scope : NamedStacks) :
    element functions scope literal.element = push literal.value := by
  cases literal <;> rfl

theorem Eval.element_substitute (functions : FunctionTable) {scope scope' : NamedStacks}
    (h : Binds name literal.value scope.lookup scope'.lookup) (e : Element) :
    element functions scope' (e.substitute name literal) = element functions scope e := by
  cases e with
  | var other =>
      rw [Element.substitute]
      by_cases hname : other = name
      · rw [if_pos hname, element_literal]
        simp only [element, resolveVariable, resolve_of_binds h, if_pos hname]
        rfl
      · rw [if_neg hname]
        simp only [element, resolveVariable, resolve_of_binds h, if_neg hname]
  | _ => rfl

theorem Eval.elements_substitute (functions : FunctionTable) {scope scope' : NamedStacks}
    (h : Binds name literal.value scope.lookup scope'.lookup) (es : List Element) :
    elements functions scope' (es.map (Element.substitute name literal)) =
      elements functions scope es := by
  induction es with
  | nil => rfl
  | cons e es ih => rw [List.map_cons, elements, elements, ih, element_substitute functions h]

theorem Exec.bound_substitute {m n : Machine}
    (h : Binds name literal.value m.scope.lookup n.scope.lookup) (hcontext : m.context = n.context)
    (e : Element) : (bound e m).1 = (bound (e.substitute name literal) n).1 := by
  cases e with
  | var other =>
      rw [bound_var, resolve_of_binds h, Element.substitute]
      by_cases hname : other = name
      · rw [if_pos hname, if_pos hname]
        cases literal <;> rfl
      · rw [if_neg hname, if_neg hname, bound_var, hcontext]
  | _ => rfl

theorem LoopHeader.entry_substitute {m n : Machine}
    (h : Binds name literal.value m.scope.lookup n.scope.lookup) (hcontext : m.context = n.context)
    (header : LoopHeader) : header.entry m = (header.substitute name literal).entry n := by
  have hbound := Exec.bound_substitute h hcontext
  obtain ⟨counter, start, stop, step⟩ := header
  refine entry_congr rfl (hbound start) (hbound stop) ?_
  cases step with
  | none => rfl
  | some step => exact hbound step

end Elements

/-! ## Nodes -/

theorem Binds.of_rebound {name counter : String} {value : Value} {f g : View}
    (hne : counter ≠ name) (h : Rebound counter (Binds name value) f g) : Binds name value f g := by
  obtain ⟨_, g, new, rfl, rfl, rfl⟩ := h
  exact Function.update_comm hne.symm ..

theorem eq_of_rebound {name : String} {value : Value} {f g : View}
    (h : Rebound name (Binds name value) f g) : f = g := by
  obtain ⟨_, g, new, rfl, rfl, rfl⟩ := h
  exact Function.update_idem ..

namespace Interpreter

theorem agree_substituteAll (interpreter : Interpreter) (name : String) (literal : Literal)
    (nodes : List Node) :
    Exec.Agree (Binds name literal.value) Eq (fun _ => True) (interpreter.runNodes nodes)
      (interpreter.runNodes (Node.substituteAll name literal nodes)) := by
  induction nodes using Node.listInduction with
  | nil =>
      rw [Node.substituteAll, runNodes]
      exact Exec.agree_pure
  | text content rest ih =>
      have htext : Exec.Agree (Binds name literal.value) Eq (fun _ => True) (Exec.write content)
          (Exec.write content) := Exec.agree_write (fun _ => trivial) content
      rw [Node.substituteAll, Node.substitute, runNodes, runNodes, runNode]
      exact htext.bind ih (Exec.balanced_write content) (Exec.balanced_write content)
  | echo elements rest ih =>
      have hecho : Exec.Agree (Binds name literal.value) Eq (fun _ => True)
          (Exec.echo interpreter.functions elements)
          (Exec.echo interpreter.functions (elements.map (Element.substitute name literal))) := by
        refine Exec.agree_evaluate (fun scope scope' h => ?_) fun _ _ _ _ => trivial
        rw [Eval.echo, Eval.echo, Eval.elements_substitute interpreter.functions h]
      rw [Node.substituteAll, Node.substitute, runNodes, runNodes, runNode, runNode]
      exact hecho.bind ih (Exec.balanced_evaluate _) (Exec.balanced_evaluate _)
  | forLoop header body rest ihBody ihRest =>
      let body' := if header.counter = name then body else Node.substituteAll name literal body
      have hbody : Exec.Agree (Rebound header.counter (Binds name literal.value)) Eq
          (fun _ => True) (interpreter.runNodes body) (interpreter.runNodes body') := by
        intro m n hview hcontext
        by_cases hname : header.counter = name
        · -- the loop shadows the name, so the bodies are the same and see the same
          rw [hname] at hview
          simp only [body', if_pos hname]
          exact interpreter.agree_runNodes (fun _ _ _ _ _ => trivial) (fun _ _ => trivial) body m n
            (eq_of_rebound hview) hcontext
        · simp only [body', if_neg hname]
          exact ihBody m n (.of_rebound hname hview) hcontext
      have hbalanced := interpreter.balanced_runNodes body
      have hbalanced' := interpreter.balanced_runNodes body'
      have hloop : Exec.Agree (Binds name literal.value) Eq (fun _ => True)
          (interpreter.forLoop header (interpreter.runNodes body))
          (interpreter.forLoop (header.substitute name literal) (interpreter.runNodes body')) :=
        agree_forLoop hbalanced hbalanced' rfl
          (fun m n hview hcontext =>
            ⟨header.entry_substitute hview hcontext, fun _ _ => trivial⟩) trivial hbody
      rw [Node.substituteAll, Node.substitute, runNodes, runNodes, runNode, runNode]
      exact hloop.bind ihRest (balanced_forLoop interpreter header hbalanced)
        (balanced_forLoop interpreter _ hbalanced')

/--
Running nodes with a value on top of the stack of a name ends as running the nodes with the value
written for the name does.
-/
theorem runNodes_push_eq_substituteAll (interpreter : Interpreter) (nodes : List Node)
    (name : String) (literal : Literal) (scope : NamedStacks) (context : Context) :
    let bound := interpreter.runNodes nodes ⟨scope.push name literal.value, context⟩
    let written := interpreter.runNodes (Node.substituteAll name literal nodes) ⟨scope, context⟩
    bound.1 = written.1 ∧ bound.2.context = written.2.context := by
  have hview : Binds name literal.value (scope.push name literal.value).lookup scope.lookup :=
    scope.lookup_push name literal.value
  have halike := interpreter.agree_substituteAll name literal nodes
    ⟨scope.push name literal.value, context⟩ ⟨scope, context⟩ hview rfl
  exact ⟨halike.result, halike.context⟩

end Interpreter

end TagTemplate
