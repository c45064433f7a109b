import TagTemplate.Proofs.Execution.Agreement
import TagTemplate.Proofs.StandardFunction

/-!
The scope after a run.

A run that succeeds leaves the stacks as they were, though the counters of its loops are known
names afterwards.  A run that fails may leave values of its loops on the stacks, above those that
were there before.  No run looks at a stack that is not there, so it fails with a stack error only
if a function does.
-/

namespace TagTemplate

namespace NamedStacks

/-- The values of a known name are still there, at the bottom of its stack. -/
def Keeps (before after : NamedStacks) : Prop :=
  ∀ name values, before.byName.find? name = some values →
    ∃ above, after.byName.find? name = some (above ++ values)

/-- The same stacks, but for names that have become known and have no values. -/
def Restores (before after : NamedStacks) : Prop :=
  ∀ name, after.byName.find? name = before.byName.find? name ∨
    before.byName.find? name = none ∧ after.byName.find? name = some []

theorem Keeps.refl (store : NamedStacks) : Keeps store store :=
  fun _ values h => ⟨[], by rwa [List.nil_append]⟩

theorem Keeps.trans {first second third : NamedStacks} (h : Keeps first second)
    (h' : Keeps second third) : Keeps first third := by
  intro name values hvalues
  obtain ⟨above, habove⟩ := h name values hvalues
  obtain ⟨above', habove'⟩ := h' name _ habove
  exact ⟨above' ++ above, by rw [habove', List.append_assoc]⟩

theorem Keeps.insert {before after : NamedStacks} (h : Keeps before after) (name : String)
    (values : List Value) :
    Keeps ⟨before.byName.insert name values⟩ ⟨after.byName.insert name values⟩ := by
  intro other others hothers
  rw [NameMap.find?_insert] at hothers ⊢
  split
  · next hname =>
      rw [if_pos hname] at hothers
      cases hothers
      exact ⟨[], rfl⟩
  · next hname =>
      rw [if_neg hname] at hothers
      exact h other others hothers

theorem keeps_insert_values (store : NamedStacks) (name : String) :
    Keeps store ⟨store.byName.insert name (store.values name)⟩ := by
  intro other values hvalues
  rw [NameMap.find?_insert]
  split
  · next hname => exact ⟨[], by rw [NamedStacks.values, ← hname, hvalues]; rfl⟩
  · exact ⟨[], hvalues⟩

theorem keeps_of_values {store : NamedStacks} {name : String} {top : Value} {below : List Value}
    (h : store.values name = top :: below) : Keeps ⟨store.byName.insert name below⟩ store := by
  intro other values hvalues
  rw [NameMap.find?_insert] at hvalues
  split at hvalues
  · next hname =>
      cases hvalues
      exact ⟨[top], by rw [hname, find?_of_values h]; rfl⟩
  · exact ⟨[], hvalues⟩

theorem keeps_push (store : NamedStacks) (name : String) (value : Value) :
    Keeps store (store.push name value) := by
  have hbelow := keeps_of_values (store.values_push_self name value)
  rw [push, NameMap.insert_insert] at hbelow
  exact (store.keeps_insert_values name).trans hbelow

theorem Keeps.restores {before after : NamedStacks} (h : Keeps before after)
    (hvalues : ∀ name, after.values name = before.values name) : Restores before after := by
  intro name
  have hname := hvalues name
  unfold NamedStacks.values at hname
  cases hbefore : before.byName.find? name with
  | some values =>
      obtain ⟨above, habove⟩ := h name values hbefore
      rw [habove, hbefore] at hname
      left
      rw [habove, show above ++ values = values from hname]
  | none =>
      rw [hbefore] at hname
      cases hafter : after.byName.find? name with
      | none => exact .inl rfl
      | some values =>
          rw [hafter] at hname
          right
          exact ⟨rfl, congrArg some hname⟩

end NamedStacks

/-! ## Failed runs -/

/-- However the program ends, the values that were there are kept. -/
def Exec.Keeps (x : Exec Unit) : Prop := ∀ m : Machine, m.scope.Keeps (x m).2.scope

theorem Exec.Keeps.bind {x y : Exec Unit} (hx : Keeps x) (hy : Keeps y) :
    Keeps (x >>= fun _ => y) := by
  intro m
  have hfirst := hx m
  cases hrun : x m with
  | mk result m' =>
      rw [hrun] at hfirst
      cases result with
      | error e =>
          rw [bind_of_error hrun]
          exact hfirst
      | ok _ =>
          rw [bind_of_ok hrun]
          exact hfirst.trans (hy m')

theorem Exec.keeps_evaluate (evaluation : NamedStacks → Eval Unit) : Keeps (evaluate evaluation) :=
  fun m => .refl m.scope

/-- Iterations keep all that is below the entry of the counter. -/
theorem LoopControl.iterate_keeps {control : LoopControl} {exhausted : ExecError}
    {body : Exec Unit} (hbalanced : Exec.Balanced body) (hkeeps : Exec.Keeps body) (budget : Nat)
    {m : Machine} {top : Value} {below : List Value} {x : Number}
    (h : m.scope.values control.counter = top :: below) (hx : top.toNumber = .ok x) :
    NamedStacks.Keeps ⟨m.scope.byName.insert control.counter below⟩
      (control.iterate exhausted body budget m).2.scope := by
  induction budget generalizing m top x with
  | zero =>
      rw [iterate, Exec.bind_of_ok (isOver_of_values h hx)]
      split <;> exact NamedStacks.keeps_of_values h
  | succ budget ih =>
      rw [iterate, Exec.bind_of_ok (isOver_of_values h hx)]
      split
      · exact NamedStacks.keeps_of_values h
      have hrun := hkeeps m
      cases hbody : body m with
      | mk result m' =>
          rw [hbody] at hrun
          cases result with
          | error e =>
              rw [Exec.bind_of_error hbody]
              exact (NamedStacks.keeps_of_values h).trans hrun
          | ok _ =>
              have htop : m'.scope.values control.counter = top :: below := by
                rw [hbalanced m m' hbody, h]
              have hbelow := hrun.insert control.counter below
              have hadvance := advance_of_values htop hx
              rw [Exec.bind_of_ok hbody]
              split at hadvance
              · rw [Exec.bind_of_ok hadvance]
                exact hbelow.trans (NamedStacks.keeps_of_values htop)
              · rw [Exec.bind_of_ok hadvance]
                -- the new entry has the same values below it
                have hset := NamedStacks.values_insert_self m'.scope control.counter
                  (.ofNumber (Number.apply .add x control.step) :: below)
                have hrest := ih (m := ⟨_, m'.context⟩) hset (Value.toNumber_ofNumber _)
                rw [NameMap.insert_insert] at hrest
                exact hbelow.trans hrest

namespace Interpreter

theorem keeps_forLoop (interpreter : Interpreter) (header : LoopHeader) {body : Exec Unit}
    (hbalanced : Exec.Balanced body) (hkeeps : Exec.Keeps body) :
    Exec.Keeps (interpreter.forLoop header body) := by
  intro m
  cases hentry : header.entry m with
  | error e =>
      obtain ⟨scope, hrun, hscope⟩ := @forLoop_of_entry_error interpreter header body m e hentry
      rw [hrun]
      rcases hscope with rfl | ⟨start, rfl⟩
      · exact .refl m.scope
      · exact m.scope.keeps_push header.counter start
  | ok entered =>
      obtain ⟨start, control⟩ := entered
      obtain ⟨⟨hcounter, x, hx⟩, hrun⟩ := @forLoop_of_entry_ok interpreter header body m _ _ hentry
      rw [hrun, ← hcounter]
      have htop := m.scope.values_push_self control.counter start
      have hbelow := m.scope.keeps_insert_values control.counter
      have hiterate := @LoopControl.iterate_keeps control
        (interpreter.loopExhausted control.counter) body hbalanced hkeeps interpreter.loopBudget
        ⟨m.scope.push control.counter start, m.context⟩ start _ x htop hx
      rw [NamedStacks.push, NameMap.insert_insert, ← NamedStacks.push] at hiterate
      cases hloop : control.iterate (interpreter.loopExhausted control.counter) body
          interpreter.loopBudget ⟨m.scope.push control.counter start, m.context⟩ with
      | mk result m' =>
          rw [hloop] at hiterate
          cases result with
          | error e =>
              rw [Exec.bind_of_error hloop]
              exact hbelow.trans hiterate
          | ok _ =>
              obtain ⟨⟨last, hlast⟩, -⟩ := LoopControl.iterate_values hbalanced htop hx hloop
              have hpopped := hiterate.insert control.counter (m.scope.values control.counter)
              rw [NameMap.insert_insert] at hpopped
              rw [Exec.bind_of_ok hloop, Exec.popVariable_of_values hlast]
              exact hbelow.trans hpopped

theorem keeps_runNodes (interpreter : Interpreter) (nodes : List Node) :
    Exec.Keeps (interpreter.runNodes nodes) := by
  induction nodes using Node.listInduction with
  | nil =>
      rw [runNodes]
      exact fun m => .refl m.scope
  | text content rest ih =>
      rw [runNodes, runNode, Exec.write_eq_evaluate]
      exact (Exec.keeps_evaluate _).bind ih
  | echo elements rest ih =>
      rw [runNodes, runNode]
      exact (Exec.keeps_evaluate _).bind ih
  | forLoop header body rest ihBody ihRest =>
      rw [runNodes, runNode]
      exact (interpreter.keeps_forLoop header (interpreter.balanced_runNodes body) ihBody).bind
        ihRest

end Interpreter

/-! ## Stack errors -/

def ExecError.NotStack (e : ExecError) : Prop := ∀ reason, e ≠ .stack reason

/-- Every failure of a function of the table is in `P`. -/
def FunctionTable.Raises (P : ExecError → Prop) (functions : FunctionTable) : Prop :=
  ∀ name f, functions.find? name = some f → Eval.Raises P f

namespace Eval

variable {P : ExecError → Prop} {α β : Type}

theorem raises_pure (a : α) : Raises P (pure a : Eval α) := nofun

theorem raises_throw {e : ExecError} (he : P e) : Raises P (throw e : Eval α) := by
  rintro evaluation _ ⟨⟩
  exact he

theorem raises_get : Raises P (get : Eval Evaluation) := nofun

theorem raises_push (value : Value) : Raises P (push value) := nofun

theorem Raises.bind {x : Eval α} {f : α → Eval β} (hx : Raises P x) (hf : ∀ a, Raises P (f a)) :
    Raises P (x >>= f) := by
  intro evaluation e h
  cases hrun : x evaluation with
  | mk result evaluation' =>
      cases result with
      | error e' =>
          rw [Exec.bind_of_error hrun] at h
          cases h
          exact hx evaluation e (by rw [hrun])
      | ok a =>
          rw [Exec.bind_of_ok hrun] at h
          exact hf a evaluation' e h

theorem raises_notStack_of_outcome {effect : Effect} {x : Eval Unit}
    (h : ∀ before, Outcome effect StandardFunction.Failure before (x before)) :
    Raises ExecError.NotStack x := by
  intro before e he
  cases houtcome : x before with
  | mk result after =>
      have hx := h before
      rw [houtcome] at he hx
      cases hx with
      | success => cases he
      | failure hfailure =>
          cases he
          rcases hfailure with ⟨_, rfl⟩ | ⟨_, rfl⟩ <;> nofun
      | underflow =>
          cases he
          nofun

section Table

variable {functions : FunctionTable} (hfunctions : functions.Raises ExecError.NotStack)

include hfunctions

theorem raises_element (scope : NamedStacks) (e : Element) :
    Raises ExecError.NotStack (element functions scope e) := by
  cases e with
  | var name =>
      refine Raises.bind ?_ fun value => raises_push value
      refine Raises.bind raises_get fun evaluation => ?_
      cases h : resolve scope evaluation.context name with
      | ok value => exact raises_pure value
      | error e =>
          rw [(resolve_eq_error h).1]
          exact raises_throw (by simp [ExecError.NotStack])
  | str content => exact raises_push (.str content)
  | int value => exact raises_push (.int value)
  | real value => exact raises_push (.real value)
  | operator op => exact raises_notStack_of_outcome (applyOperator_outcome op)
  | function name =>
      rw [element, call]
      cases h : functions.find? name with
      | none => exact raises_throw (by simp [ExecError.NotStack])
      | some f => exact hfunctions name f h

theorem raises_echo (es : List Element) (scope : NamedStacks) :
    Raises ExecError.NotStack (echo functions es scope) := by
  refine Raises.bind ?_ fun _ => ?_
  · induction es with
    | nil => exact raises_pure ()
    | cons e es ih => exact (raises_element hfunctions scope e).bind fun _ => ih
  · refine Raises.bind raises_get fun evaluation => ?_
    split
    · exact raises_write (by simp [ExecError.NotStack])
    · exact raises_throw (by simp [ExecError.NotStack])

end Table

end Eval

theorem FunctionTable.standard_raises : standard.Raises ExecError.NotStack := by
  intro name builtin h
  obtain ⟨f, -, rfl⟩ := exists_of_find?_standard h
  exact Eval.raises_notStack_of_outcome f.run_outcome

namespace Interpreter

theorem execute_ne_stack {interpreter : Interpreter}
    (hfunctions : interpreter.functions.Raises ExecError.NotStack) (document : Document)
    (context : Context) (reason : StackError) :
    (interpreter.execute document context).1 ≠ .error (.stack reason) := by
  intro h
  have hrun := agree_runNodes (Eval.raises_echo hfunctions) (fun _ he => he) document.children
  exact (hrun ⟨.empty, context⟩ ⟨.empty, context⟩ rfl rfl).failure (.stack reason) h reason rfl

/-- Runs are balanced, so they never look at a stack that is not there. -/
theorem runNodes_restores_or_keeps (interpreter : Interpreter) :
    (∀ nodes m after, interpreter.runNodes nodes m = (.ok (), after) →
      m.scope.Restores after.scope) ∧
    (∀ nodes m e after, interpreter.runNodes nodes m = (.error e, after) →
      m.scope.Keeps after.scope) ∧
    (interpreter.functions.Raises ExecError.NotStack → ∀ document context reason,
      (interpreter.execute document context).1 ≠ .error (.stack reason)) ∧
    FunctionTable.standard.Raises ExecError.NotStack := by
  refine ⟨fun nodes m after h => ?_, fun nodes m e after h => ?_, execute_ne_stack,
    FunctionTable.standard_raises⟩
  · have hkeeps := interpreter.keeps_runNodes nodes m
    rw [h] at hkeeps
    exact hkeeps.restores (interpreter.balanced_runNodes nodes m after h)
  · have hkeeps := interpreter.keeps_runNodes nodes m
    rw [h] at hkeeps
    exact hkeeps

theorem runNodes_restores_or_keeps_of_loops :
    let fails : List Node := [.forLoop ⟨"i", .int 1, .int 3, none⟩ [.echo []]]
    let ends : List Node := [.forLoop ⟨"i", .int 1, .int 3, none⟩ [.echo [.var "i"]]]
    let m : Machine := ⟨NamedStacks.empty.push "i" (.int 7), .buffered⟩
    let fresh : Machine := ⟨.empty, .buffered⟩
    (standard.runNodes fails m).1 = .error (.echoImbalance 0) ∧
      m.scope.Keeps (standard.runNodes fails m).2.scope ∧
      (standard.runNodes fails m).2.scope.values "i" = [.int 1, .int 7] ∧
      (standard.runNodes ends fresh).1 = .ok () ∧
      fresh.scope.Restores (standard.runNodes ends fresh).2.scope ∧
      ∀ reason, (standard.execute ⟨fails⟩ .buffered).1 ≠ .error (.stack reason) := by
  intro fails ends m fresh
  obtain ⟨hok, herror, hstack, hstandard⟩ := standard.runNodes_restores_or_keeps
  have hfails : (standard.runNodes fails m).1 = .error (.echoImbalance 0) := by rfl
  have hends : (standard.runNodes ends fresh).1 = .ok () := by rfl
  exact ⟨hfails, herror fails m _ _ (Prod.ext hfails rfl), rfl, hends,
    hok ends fresh _ (Prod.ext hends rfl), hstack hstandard ⟨fails⟩ .buffered⟩

end Interpreter

end TagTemplate
