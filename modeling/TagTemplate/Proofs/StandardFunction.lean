import TagTemplate.FunctionTable
import TagTemplate.Proofs.Execution.Scope

/-!
Operand effects of the standard functions.

Each function needs a fixed number of operands, and leaves a fixed number in their place unless it
fails.  With fewer operands it always fails, and no function touches the request parameters
(`StandardFunction.run_outcome`).
-/

namespace TagTemplate

/-! ## Effects -/

/-- How many operands a step needs, and how many stand in their place after it. -/
structure Effect where
  needs : Nat
  leaves : Nat
  deriving DecidableEq

/-- What a step with a fixed effect comes to; its failures are in `P` as long as it has operands. -/
inductive Eval.Outcome (effect : Effect) (P : ExecError → Prop) (before : Evaluation) :
    Except ExecError Unit × Evaluation → Prop
  | success {after : Evaluation} (enough : effect.needs ≤ before.operands.length)
      (count : after.operands.length + effect.needs = before.operands.length + effect.leaves)
      (parameters : after.context.parameters = before.context.parameters) :
      Outcome effect P before (.ok (), after)
  | failure {e : ExecError} {after : Evaluation} (he : P e)
      (parameters : after.context.parameters = before.context.parameters) :
      Outcome effect P before (.error e, after)
  | underflow {neededBy : String} {after : Evaluation}
      (short : before.operands.length < effect.needs)
      (parameters : after.context.parameters = before.context.parameters) :
      Outcome effect P before (.error (.stackUnderflow neededBy), after)

namespace StandardFunction

def effect : StandardFunction → Effect
  | sin | setMimeType | persistentDel | temporaryDel => ⟨1, 1⟩
  | decfmt | paramGet | persistentGet | temporaryGet | persistentSet | temporarySet => ⟨2, 1⟩
  | dup => ⟨1, 2⟩
  | swap => ⟨2, 2⟩

/-- The failures of functions that have the operands they need. -/
def Failure (e : ExecError) : Prop :=
  (∃ reason, e = .value reason) ∨ ∃ reason, e = .function "decfmt" reason

/-! ## Families -/

variable (f : StandardFunction)

theorem argument_apply (operand : Value) (rest : List Value) (context : Context) :
    f.argument ⟨operand :: rest, context⟩ = (.ok operand, ⟨rest, context⟩) := rfl

theorem getWithDefault_apply (find? : Context → String → Option String) (default name : Value)
    (rest : List Value) (context : Context) :
    f.getWithDefault find? ⟨default :: name :: rest, context⟩ =
      (.ok (), ⟨(find? context name.text).elim default .str :: rest, context⟩) := by
  have hget : (get : Eval Evaluation) ⟨rest, context⟩ =
      (.ok ⟨rest, context⟩, ⟨rest, context⟩) := rfl
  unfold getWithDefault
  rw [Exec.bind_of_ok (f.argument_apply ..), Exec.bind_of_ok (f.argument_apply ..),
    Exec.bind_of_ok hget]
  cases find? context name.text <;> rfl

theorem getWithDefault_outcome (find? : Context → String → Option String) (before : Evaluation) :
    Eval.Outcome ⟨2, 1⟩ Failure before (f.getWithDefault find? before) := by
  obtain ⟨operands, context⟩ := before
  rcases operands with _ | ⟨default, _ | ⟨name, rest⟩⟩
  · exact .underflow (by simp) rfl
  · exact .underflow (by simp) rfl
  · rw [getWithDefault_apply]
    exact .success (by simp) (by simp) rfl

theorem store_outcome (set : Context → String → String → Context)
    (hset : ∀ context name value, (set context name value).parameters = context.parameters)
    (before : Evaluation) : Eval.Outcome ⟨2, 1⟩ Failure before (f.store set before) := by
  obtain ⟨operands, context⟩ := before
  rcases operands with _ | ⟨name, _ | ⟨value, rest⟩⟩
  · exact .underflow (by simp) rfl
  · exact .underflow (by simp) rfl
  · exact .success (by simp) (by simp) (hset context name.text value.text)

theorem change_outcome (set : Context → String → Context)
    (hset : ∀ context text, (set context text).parameters = context.parameters)
    (before : Evaluation) : Eval.Outcome ⟨1, 1⟩ Failure before (f.change set before) := by
  obtain ⟨operands, context⟩ := before
  rcases operands with _ | ⟨text, rest⟩
  · exact .underflow (by simp) rfl
  · exact .success (by simp) (by simp) (hset context text.text)

/-! ## Functions -/

theorem number_of_ok {value : Value} {x : Binary64} (h : value.toReal = .ok x)
    (evaluation : Evaluation) : Eval.number value evaluation = (.ok x, evaluation) := by
  rw [Eval.number, h]
  rfl

theorem number_of_error {value : Value} {reason : ValueError} (h : value.toReal = .error reason)
    (evaluation : Evaluation) :
    Eval.number value evaluation = (.error (.value reason), evaluation) := by
  rw [Eval.number, h]
  rfl

theorem runSin_outcome (before : Evaluation) :
    Eval.Outcome ⟨1, 1⟩ Failure before (runSin before) := by
  obtain ⟨operands, context⟩ := before
  rcases operands with _ | ⟨x, rest⟩
  · exact .underflow (by simp) rfl
  · unfold runSin
    rw [Exec.bind_of_ok (argument_apply ..)]
    cases hx : x.toReal with
    | error reason =>
        rw [Exec.bind_of_error (number_of_error hx _)]
        exact .failure (.inl ⟨reason, rfl⟩) rfl
    | ok y =>
        rw [Exec.bind_of_ok (number_of_ok hx _)]
        exact .success (by simp) (by simp) rfl

theorem runDecfmt_outcome (before : Evaluation) :
    Eval.Outcome ⟨2, 1⟩ Failure before (runDecfmt before) := by
  obtain ⟨operands, context⟩ := before
  rcases operands with _ | ⟨pattern, _ | ⟨x, rest⟩⟩
  · exact .underflow (by simp) rfl
  · exact .underflow (by simp) rfl
  · unfold runDecfmt
    rw [Exec.bind_of_ok (argument_apply ..), Exec.bind_of_ok (argument_apply ..)]
    cases hx : x.toReal with
    | error reason =>
        rw [Exec.bind_of_error (number_of_error hx _)]
        exact .failure (.inl ⟨reason, rfl⟩) rfl
    | ok y =>
        rw [Exec.bind_of_ok (number_of_ok hx _)]
        cases DecimalPattern.parse? pattern.text.toList with
        | none => exact .failure (.inr ⟨_, rfl⟩) rfl
        | some format => exact .success (by simp) (by simp) rfl

theorem runDup_outcome (before : Evaluation) :
    Eval.Outcome ⟨1, 2⟩ Failure before (runDup before) := by
  obtain ⟨operands, context⟩ := before
  rcases operands with _ | ⟨x, rest⟩
  · exact .underflow (by simp) rfl
  · exact .success (by simp) (by simp) rfl

theorem runSwap_outcome (before : Evaluation) :
    Eval.Outcome ⟨2, 2⟩ Failure before (runSwap before) := by
  obtain ⟨operands, context⟩ := before
  rcases operands with _ | ⟨b, _ | ⟨a, rest⟩⟩
  · exact .underflow (by simp) rfl
  · exact .underflow (by simp) rfl
  · exact .success (by simp) (by simp) rfl

theorem run_outcome (before : Evaluation) :
    Eval.Outcome f.effect Failure before (f.run before) := by
  cases f with
  | sin => exact runSin_outcome before
  | decfmt => exact runDecfmt_outcome before
  | dup => exact runDup_outcome before
  | swap => exact runSwap_outcome before
  | setMimeType => exact change_outcome _ Context.setMimeType (fun _ _ => rfl) before
  | paramGet => exact getWithDefault_outcome _ _ before
  | persistentGet => exact getWithDefault_outcome _ _ before
  | persistentSet => exact store_outcome _ Context.setPersistent (fun _ _ _ => rfl) before
  | persistentDel => exact change_outcome _ Context.removePersistent (fun _ _ => rfl) before
  | temporaryGet => exact getWithDefault_outcome _ _ before
  | temporarySet => exact store_outcome _ Context.setTemporary (fun _ _ _ => rfl) before
  | temporaryDel => exact change_outcome _ Context.removeTemporary (fun _ _ => rfl) before

def ofName? (name : String) : Option StandardFunction := all.find? fun f => f.name = name

theorem ofName?_name : ofName? f.name = some f := by
  cases f <;> decide

end StandardFunction

/-! ## The standard table -/

theorem FunctionTable.find?_register (table : FunctionTable) (name other : String) (f : Builtin) :
    (table.register name f).find? other = if other = name then some f else table.find? other :=
  NameMap.find?_insert table.functions name other f

private theorem exists_of_find?_foldl {fs : List StandardFunction} {table : FunctionTable}
    {name : String} {builtin : Builtin}
    (h : (fs.foldl (fun table f => table.register f.name f.run) table).find? name = some builtin) :
    (∃ f : StandardFunction, f.name = name ∧ builtin = f.run) ∨ table.find? name = some builtin := by
  induction fs generalizing table with
  | nil => exact .inr h
  | cons f fs ih =>
      rcases ih h with hfound | htable
      · exact .inl hfound
      rw [FunctionTable.find?_register] at htable
      split at htable
      · next hname =>
          cases htable
          exact .inl ⟨f, hname.symm, rfl⟩
      · exact .inr htable

theorem FunctionTable.exists_of_find?_standard {name : String} {builtin : Builtin}
    (h : standard.find? name = some builtin) :
    ∃ f : StandardFunction, f.name = name ∧ builtin = f.run := by
  rcases exists_of_find?_foldl h with hfound | hempty
  · exact hfound
  · cases hempty

/-! ## Elements -/

theorem Eval.applyOperator_apply (op : Operator) (lhs rhs : Value) (rest : List Value)
    (context : Context) :
    applyOperator op ⟨rhs :: lhs :: rest, context⟩ =
      match Value.apply op lhs rhs with
      | .ok value => (.ok (), ⟨value :: rest, context⟩)
      | .error e => (.error (.value e), ⟨rest, context⟩) := by
  have hrhs : pop op.text ⟨rhs :: lhs :: rest, context⟩ =
      (.ok rhs, ⟨lhs :: rest, context⟩) := rfl
  have hlhs : pop op.text ⟨lhs :: rest, context⟩ = (.ok lhs, ⟨rest, context⟩) := rfl
  unfold applyOperator
  rw [Exec.bind_of_ok hrhs, Exec.bind_of_ok hlhs]
  cases Value.apply op lhs rhs <;> rfl

theorem Eval.applyOperator_outcome (op : Operator) (before : Evaluation) :
    Outcome ⟨2, 1⟩ StandardFunction.Failure before (applyOperator op before) := by
  obtain ⟨operands, context⟩ := before
  rcases operands with _ | ⟨rhs, _ | ⟨lhs, rest⟩⟩
  · exact .underflow (by simp) rfl
  · exact .underflow (by simp) rfl
  · rw [applyOperator_apply]
    cases Value.apply op lhs rhs with
    | error reason => exact .failure (.inl ⟨reason, rfl⟩) rfl
    | ok value => exact .success (by simp) (by simp) rfl

end TagTemplate
