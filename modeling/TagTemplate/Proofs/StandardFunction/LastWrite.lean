import TagTemplate.Proofs.Evaluation

/-!
Parameters after any sequence of steps on one operand stack.

The only changes to a context are those that successful calls ask for, by the texts of the
operands they take (`OperandEvent.change?`).  So each parameter map holds under a name what the
last such change left there, and the mime type is the one set last
(`Evaluation.last_write_wins`).
-/

namespace TagTemplate

/-! ## Steps that keep the context -/

namespace Eval

variable {α β : Type}

def KeepsContext (x : Eval α) : Prop := ∀ e, (x e).2.context = e.context

theorem keepsContext_pure (a : α) : KeepsContext (pure a) := fun _ => rfl

theorem keepsContext_throw (e : ExecError) : KeepsContext (throw e : Eval α) := fun _ => rfl

theorem keepsContext_push (value : Value) : KeepsContext (push value) := fun _ => rfl

theorem keepsContext_pop (neededBy : String) : KeepsContext (pop neededBy) := by
  rintro ⟨_ | ⟨value, rest⟩, context⟩ <;> rfl

theorem keepsContext_number (value : Value) : KeepsContext (number value) := by
  unfold number
  cases value.toReal with
  | ok x => exact keepsContext_pure x
  | error e => exact keepsContext_throw (.value e)

theorem KeepsContext.bind {x : Eval α} {f : α → Eval β} (hx : KeepsContext x)
    (hf : ∀ a, KeepsContext (f a)) : KeepsContext (x >>= f) := by
  intro e
  have hcontext := hx e
  cases hrun : x e with
  | mk result after =>
      rw [hrun] at hcontext
      cases result with
      | error reason => rw [Exec.bind_of_error hrun, hcontext]
      | ok a => rw [Exec.bind_of_ok hrun, hf a after, hcontext]

end Eval

namespace StandardFunction

open Eval

variable (f : StandardFunction)

theorem keepsContext_argument : KeepsContext f.argument := keepsContext_pop _

theorem keepsContext_getWithDefault (find? : Context → String → Option String) :
    KeepsContext (f.getWithDefault find?) := by
  refine f.keepsContext_argument.bind fun default => f.keepsContext_argument.bind fun name => ?_
  have hget : KeepsContext (get : Eval Evaluation) := fun _ => rfl
  refine hget.bind fun e => ?_
  cases find? e.context name.text with
  | some text => exact keepsContext_push (.str text)
  | none => exact keepsContext_push default

theorem keepsContext_runSin : KeepsContext runSin :=
  (keepsContext_argument sin).bind fun value => (keepsContext_number value).bind fun _ =>
    keepsContext_push _

theorem keepsContext_runDecfmt : KeepsContext runDecfmt := by
  refine (keepsContext_argument decfmt).bind fun pattern =>
    (keepsContext_argument decfmt).bind fun value => (keepsContext_number value).bind fun x => ?_
  cases DecimalPattern.parse? pattern.text.toList with
  | some format => exact keepsContext_push _
  | none => exact keepsContext_throw _

theorem keepsContext_runDup : KeepsContext runDup :=
  (keepsContext_argument dup).bind fun x => (keepsContext_push x).bind fun _ => keepsContext_push x

theorem keepsContext_runSwap : KeepsContext runSwap :=
  (keepsContext_argument swap).bind fun b => (keepsContext_argument swap).bind fun a =>
    (keepsContext_push b).bind fun _ => keepsContext_push a

end StandardFunction

/-! ## Steps and their changes -/

/-- What can be done with one operand stack. -/
inductive OperandStep where
  | push (value : Value)
  | pop (neededBy : String)
  | call (f : StandardFunction)

def OperandStep.run : OperandStep → Eval Unit
  | push value => Eval.push value
  | pop neededBy => do
      let _ ← Eval.pop neededBy
  | call f => f.run

/-- A step that was made, with the operands before it. -/
structure OperandEvent where
  step : OperandStep
  operands : List Value
  result : Except ExecError Unit

/-- The change that a successful call asks for; the name is taken before the value. -/
def OperandEvent.change? : OperandEvent → Option Context.Change
  | ⟨.call .setMimeType, text :: _, .ok ()⟩ => some (.setMimeType text.text)
  | ⟨.call .persistentSet, name :: value :: _, .ok ()⟩ =>
      some (.setPersistent name.text value.text)
  | ⟨.call .persistentDel, name :: _, .ok ()⟩ => some (.removePersistent name.text)
  | ⟨.call .temporarySet, name :: value :: _, .ok ()⟩ => some (.setTemporary name.text value.text)
  | ⟨.call .temporaryDel, name :: _, .ok ()⟩ => some (.removeTemporary name.text)
  | _ => none

namespace Evaluation

def event (e : Evaluation) (step : OperandStep) : OperandEvent :=
  ⟨step, e.operands, (step.run e).1⟩

/-- A step changes the context as its event tells, and not at all if it fails. -/
theorem context_run (e : Evaluation) (step : OperandStep) :
    (step.run e).2.context = ((e.event step).change?).elim e.context e.context.change := by
  cases step with
  | push value => rfl
  | pop neededBy =>
      obtain ⟨_ | ⟨value, rest⟩, context⟩ := e <;> rfl
  | call f =>
      cases f with
      | sin => exact StandardFunction.keepsContext_runSin e
      | decfmt => exact StandardFunction.keepsContext_runDecfmt e
      | dup => exact StandardFunction.keepsContext_runDup e
      | swap => exact StandardFunction.keepsContext_runSwap e
      | paramGet => exact StandardFunction.keepsContext_getWithDefault _ _ e
      | persistentGet => exact StandardFunction.keepsContext_getWithDefault _ _ e
      | temporaryGet => exact StandardFunction.keepsContext_getWithDefault _ _ e
      | persistentSet | temporarySet =>
          obtain ⟨_ | ⟨name, _ | ⟨value, rest⟩⟩, context⟩ := e <;> rfl
      | setMimeType | persistentDel | temporaryDel =>
          obtain ⟨_ | ⟨text, rest⟩, context⟩ := e <;> rfl

def afterSteps (e : Evaluation) : List OperandStep → Evaluation
  | [] => e
  | step :: steps => (step.run e).2.afterSteps steps

/-- The changes that successful calls ask for, in order. -/
def changes (e : Evaluation) : List OperandStep → List Context.Change
  | [] => []
  | step :: steps => (e.event step).change?.toList ++ (step.run e).2.changes steps

theorem context_afterSteps (e : Evaluation) (steps : List OperandStep) :
    (e.afterSteps steps).context = (e.changes steps).foldl Context.change e.context := by
  induction steps generalizing e with
  | nil => rfl
  | cons step steps ih =>
      rw [afterSteps, ih, changes, List.foldl_append, context_run]
      cases (e.event step).change? <;> rfl

end Evaluation

/-! ## Maps -/

/-- The parameter maps that functions write. -/
inductive Lifetime where
  | persistent
  | temporary

namespace Lifetime

def find? : Lifetime → Context → String → Option String
  | persistent => Context.persistent?
  | temporary => Context.temporary?

def getter : Lifetime → StandardFunction
  | persistent => .persistentGet
  | temporary => .temporaryGet

theorem run_getter (lifetime : Lifetime) (default name : Value) (rest : List Value)
    (context : Context) :
    lifetime.getter.run ⟨default :: name :: rest, context⟩ =
      (.ok (), ⟨(lifetime.find? context name.text).elim default .str :: rest, context⟩) := by
  cases lifetime <;> exact StandardFunction.getWithDefault_apply ..

end Lifetime

namespace Context

/-- What a change leaves under a name of a map, a text or nothing, if it is about that name. -/
def Change.stored? (name : String) : Lifetime → Change → Option (Option String)
  | .persistent, setPersistent key value => if key = name then some (some value) else none
  | .persistent, removePersistent key => if key = name then some none else none
  | .temporary, setTemporary key value => if key = name then some (some value) else none
  | .temporary, removeTemporary key => if key = name then some none else none
  | _, _ => none

def Change.mimeType? : Change → Option String
  | setMimeType text => some text
  | _ => none

private theorem getD_ite {α : Type} (key name : String) (new old : α) :
    (if key = name then some new else none).getD old = if name = key then new else old := by
  by_cases h : key = name
  · simp [h]
  · simp [h, Ne.symm h]

theorem find?_change (context : Context) (change : Change) (lifetime : Lifetime) (name : String) :
    lifetime.find? (context.change change) name =
      (change.stored? name lifetime).getD (lifetime.find? context name) := by
  cases lifetime with
  | persistent =>
      cases change with
      | setPersistent key value =>
          exact (NameMap.find?_insert ..).trans (getD_ite ..).symm
      | removePersistent key => exact (NameMap.find?_erase ..).trans (getD_ite ..).symm
      | _ => rfl
  | temporary =>
      cases change with
      | setTemporary key value => exact (NameMap.find?_insert ..).trans (getD_ite ..).symm
      | removeTemporary key => exact (NameMap.find?_erase ..).trans (getD_ite ..).symm
      | _ => rfl

theorem mimeType_change (context : Context) (change : Change) :
    (context.change change).mimeType = change.mimeType?.getD context.mimeType := by
  cases change <;> rfl

theorem parameters_change (context : Context) (change : Change) :
    (context.change change).parameters = context.parameters := by
  cases change <;> rfl

/-- What can be seen of a context is what the last change wrote that touches it. -/
theorem view_foldl_change {α : Type} (view : Context → α) (written? : Change → Option α)
    (h : ∀ context change, view (context.change change) = (written? change).getD (view context))
    (changes : List Change) (context : Context) :
    view (changes.foldl Context.change context) =
      (changes.filterMap written?).getLast?.getD (view context) := by
  induction changes generalizing context with
  | nil => rfl
  | cons change changes ih =>
      rw [List.foldl_cons, ih, h]
      cases hwritten : written? change with
      | none => rw [List.filterMap_cons_none hwritten, Option.getD_none]
      | some a => rw [List.filterMap_cons_some hwritten, List.getLast?_cons, Option.getD_some,
          Option.getD_some]

end Context

theorem OperandEvent.change?_of_error {event : OperandEvent} {e : ExecError}
    (h : event.result = .error e) : event.change? = none := by
  unfold change?
  split <;> simp_all

namespace Evaluation

/--
Each map holds under a name what the last successful call about that name left there, or else
its initial entry; functions that read the map find that.  The mime type is the one set last, the
request parameters stay as they were, and a step that fails changes nothing of the context.
-/
theorem last_write_wins (initial : Evaluation) (steps : List OperandStep) :
    let final := initial.afterSteps steps
    let changes := initial.changes steps
    let entry := fun (lifetime : Lifetime) (name : String) =>
      (changes.filterMap (·.stored? name lifetime)).getLast?.getD
        (lifetime.find? initial.context name)
    (∀ lifetime name, lifetime.find? final.context name = entry lifetime name) ∧
      (∀ (lifetime : Lifetime) default name rest, final.operands = default :: name :: rest →
        lifetime.getter.run final =
          (.ok (), ⟨(entry lifetime name.text).elim default .str :: rest, final.context⟩)) ∧
      (∀ default name rest, final.operands = default :: name :: rest →
        StandardFunction.paramGet.run final =
          (.ok (), ⟨(initial.context.parameter? name.text).elim default .str :: rest,
            final.context⟩)) ∧
      final.context.mimeType =
        (changes.filterMap (·.mimeType?)).getLast?.getD initial.context.mimeType ∧
      ∀ (step : OperandStep) e after, step.run final = (.error e, after) →
        after.context = final.context := by
  intro final changes entry
  have hcontext : final.context = changes.foldl Context.change initial.context :=
    initial.context_afterSteps steps
  have hentry : ∀ lifetime name, lifetime.find? final.context name = entry lifetime name := by
    intro lifetime name
    rw [hcontext]
    exact Context.view_foldl_change (lifetime.find? · name) (·.stored? name lifetime)
      (fun context change => context.find?_change change lifetime name) changes initial.context
  have hparameters : final.context.parameters = initial.context.parameters := by
    rw [hcontext, Context.view_foldl_change Context.parameters (fun _ => none)
      Context.parameters_change]
    simp
  refine ⟨hentry, ?_, ?_, ?_, ?_⟩
  · intro lifetime default name rest hoperands
    have hfinal : final = ⟨default :: name :: rest, final.context⟩ := by rw [← hoperands]
    rw [hfinal, lifetime.run_getter, hentry]
  · intro default name rest hoperands
    have hfinal : final = ⟨default :: name :: rest, final.context⟩ := by rw [← hoperands]
    have hparameter :
        final.context.parameter? name.text = initial.context.parameter? name.text := by
      rw [Context.parameter?, hparameters, Context.parameter?]
    rw [hfinal, ← hparameter]
    exact StandardFunction.getWithDefault_apply ..
  · rw [hcontext]
    exact Context.view_foldl_change Context.mimeType Context.Change.mimeType?
      Context.mimeType_change changes initial.context
  · intro step e after hrun
    have hstep := final.context_run step
    rw [OperandEvent.change?_of_error (by rw [event, hrun])] at hstep
    rw [hrun] at hstep
    exact hstep

/-- An integer and its text are one name, and an absent value is the empty name. -/
theorem last_write_wins_by_text :
    let initial : Evaluation :=
      ⟨[], { Context.buffered with persistent := .ofList [("1", "old"), ("", "empty")] }⟩
    let steps : List OperandStep :=
      [.push (.str "new"), .push (.int 1), .call .persistentSet, .call .persistentDel,
        .call .temporarySet, .push (.str "1"), .push (.int 7)]
    let final := initial.afterSteps steps
    let short := initial.afterSteps (steps.take 4)
    final.context.persistent? "1" = some "new" ∧
      final.context.persistent? "" = none ∧
      final.operands = [.int 7, .str "1"] ∧
      StandardFunction.persistentGet.run final = (.ok (), ⟨[.str "new"], final.context⟩) ∧
      StandardFunction.paramGet.run final = (.ok (), ⟨[.int 7], final.context⟩) ∧
      ((OperandStep.call .temporarySet).run short).1 = .error (.stackUnderflow "@tparamSet") ∧
      ((OperandStep.call .temporarySet).run short).2.context = short.context := by
  intro initial steps final short
  have hoperands : final.operands = [.int 7, .str "1"] := by decide +kernel
  have hfails : ((OperandStep.call .temporarySet).run short).1 =
      .error (.stackUnderflow "@tparamSet") := by
    decide +kernel
  obtain ⟨hentry, hget, hparameter, -, -⟩ := last_write_wins initial steps
  obtain ⟨-, -, -, -, hshort⟩ := last_write_wins initial (steps.take 4)
  have hnew : final.context.persistent? "1" = some "new" :=
    (hentry .persistent "1").trans (by decide +kernel)
  refine ⟨hnew, (hentry .persistent "").trans (by decide +kernel), hoperands, ?_,
    hparameter _ _ _ hoperands, hfails, hshort (.call .temporarySet) _ _ (Prod.ext hfails rfl)⟩
  have hfound : Lifetime.persistent.find? final.context (Value.str "1").text = some "new" := hnew
  refine (hget .persistent _ _ _ hoperands).trans ?_
  rw [← hentry, hfound]
  rfl

end Evaluation

end TagTemplate
