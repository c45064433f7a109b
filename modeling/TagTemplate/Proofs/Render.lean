import TagTemplate.Proofs.Document.Concatenation
import TagTemplate.Proofs.Execution.Agreement
import TagTemplate.Proofs.Sink
import TagTemplate.Render

/-!
Rendering sources one behind the other.

A text is written as its parts would be, whatever the sink holds, so running joined nodes is running
the ones and then the others.  The scope that the first run leaves cannot be told from an empty one,
since runs are balanced and see of their scope only the tops of the stacks.
-/

namespace TagTemplate

/-! ## Writing -/

theorem Context.write_append (context : Context) (text next : String) :
    context.write (text ++ next) =
      match context.write text with
      | (.ok (), after) => after.write next
      | (.error e, after) => (.error e, after) := by
  simp only [write, Sink.write_append]
  cases context.sink.write text with
  | mk result sink => cases result <;> rfl

namespace Exec

theorem write_append (text next : String) :
    write (text ++ next) = write text >>= fun _ => write next := by
  funext m
  cases hwrite : m.context.write text with
  | mk result context =>
      cases result with
      | ok _ =>
          have hrun : write text m = (.ok (), ⟨m.scope, context⟩) := by
            simp only [write, hwrite]
          rw [bind_of_ok hrun]
          simp only [write, Context.write_append, hwrite]
      | error e =>
          have hrun : write text m = (.error (.output e), ⟨m.scope, context⟩) := by
            simp only [write, hwrite]
          rw [bind_of_error hrun]
          simp only [write, Context.write_append, hwrite]

end Exec

/-! ## Running -/

namespace Interpreter

theorem runNodes_append (interpreter : Interpreter) (left right : List Node) :
    interpreter.runNodes (left ++ right) =
      interpreter.runNodes left >>= fun _ => interpreter.runNodes right := by
  induction left with
  | nil => rw [List.nil_append, runNodes, pure_bind]
  | cons node left ih => rw [List.cons_append, runNodes, runNodes, ih, bind_assoc]

theorem runNodes_appendJoined (interpreter : Interpreter) (left right : List Node) :
    interpreter.runNodes (Node.appendJoined left right) =
      interpreter.runNodes left >>= fun _ => interpreter.runNodes right := by
  unfold Node.appendJoined
  split
  · next content next rest hlast =>
      rw [← List.dropLast_append_getLast? _ hlast]
      simp only [List.dropLast_concat, runNodes_append, runNodes, runNode, Exec.write_append,
        bind_assoc, pure_bind]
  · exact interpreter.runNodes_append ..

/-- The second run may start afresh: it cannot tell the scope of the first from an empty one. -/
theorem execute_appendJoined (interpreter : Interpreter) (left right : List Node)
    (context : Context) :
    interpreter.execute ⟨Node.appendJoined left right⟩ context =
      match interpreter.execute ⟨left⟩ context with
      | (.ok (), after) => interpreter.execute ⟨right⟩ after
      | (.error e, after) => (.error e, after) := by
  simp only [execute, runNodes_appendJoined]
  cases hrun : interpreter.runNodes left ⟨.empty, context⟩ with
  | mk result m =>
      cases result with
      | error e => rw [Exec.bind_of_error hrun]
      | ok _ =>
          rw [Exec.bind_of_ok hrun]
          have hview := (interpreter.balanced_runNodes left).lookup_eq hrun
          have hagree := @agree_runNodes interpreter (fun _ => True)
            (fun _ _ _ _ _ => trivial) (fun _ _ => trivial) right
          have hends := hagree m ⟨.empty, m.context⟩ hview rfl
          exact Prod.ext hends.result hends.context

end Interpreter

/-! ## Rendering -/

/--
Two sources that parse, and do not form the opening of a tag between them, parse to the joined nodes
of both, and rendering them is rendering the one and then the other.
-/
theorem render_append {a b : String} {left right : Document}
    (hleft : Document.parse a = .ok left) (hright : Document.parse b = .ok right)
    (hseam : ¬(a.toList.getLast? = some '{' ∧ b.toList.head? = some '$')) (context : Context) :
    Document.parse (a ++ b) = .ok ⟨Node.appendJoined left.children right.children⟩ ∧
      render (a ++ b) context =
        match render a context with
        | (.ok (), after) => render b after
        | (.error e, after) => (.error e, after) := by
  have hparse := Document.parse_append hleft hright hseam
  refine ⟨hparse, ?_⟩
  simp only [render, Interpreter.render, hleft, hright, hparse, Interpreter.execute_appendJoined]
  cases Interpreter.standard.execute ⟨left.children⟩ context with
  | mk result after => cases result <;> rfl

theorem render_append_joins_texts :
    let a := "\x7b$=1$\x7d\\\x7bb"
    let b := "c\x7b$for i 1 2$\x7d\x7b$=i$\x7d\x7b$end$\x7d"
    let loop := Node.forLoop ⟨"i", .int 1, .int 2, none⟩ [.echo [.var "i"]]
    Document.parse a = .ok ⟨[.echo [.int 1], .text "\x7bb"]⟩ ∧
      Document.parse b = .ok ⟨[.text "c", loop]⟩ ∧
      ¬(a.toList.getLast? = some '{' ∧ b.toList.head? = some '$') ∧
      Document.parse (a ++ b) = .ok ⟨[.echo [.int 1], .text "\x7bbc", loop]⟩ ∧
      ∀ context, render (a ++ b) context =
        match render a context with
        | (.ok (), after) => render b after
        | (.error e, after) => (.error e, after) := by
  intro a b loop
  have hleft : Document.parse a = .ok ⟨[.echo [.int 1], .text "\x7bb"]⟩ := by decide +kernel
  have hright : Document.parse b = .ok ⟨[.text "c", loop]⟩ := by decide +kernel
  have hseam : ¬(a.toList.getLast? = some '{' ∧ b.toList.head? = some '$') := by decide
  have happend := render_append hleft hright hseam
  exact ⟨hleft, hright, hseam, (happend .buffered).1, fun context => (happend context).2⟩

end TagTemplate
