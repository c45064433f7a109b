import TagTemplate.Proofs.Evaluation
import TagTemplate.Proofs.Execution.Agreement

/-!
Invariants of the context.

Most steps of a loop see the scope only.  What is left are the texts and results that are written
and the functions that are called: a property of contexts that these keep is kept by every run,
however it ends (`Interpreter.maintains_runNodes`).
-/

namespace TagTemplate

/-! ## The parts of a loop -/

namespace LoopControl

section Equations

variable {control : LoopControl} {m : Machine} (exhausted : ExecError) (body : Exec Unit)
  (budget : Nat)

theorem iterate_of_over (h : control.isOver m = (.ok true, m)) :
    control.iterate exhausted body budget m = (.ok (), m) := by
  cases budget <;> exact Exec.bind_of_ok h

theorem iterate_of_error {e : ExecError} (h : control.isOver m = (.error e, m)) :
    control.iterate exhausted body budget m = (.error e, m) := by
  cases budget <;> exact Exec.bind_of_error h

theorem iterate_zero_of_on (h : control.isOver m = (.ok false, m)) :
    control.iterate exhausted body 0 m = (.error exhausted, m) :=
  Exec.bind_of_ok h

theorem iterate_succ_of_on (h : control.isOver m = (.ok false, m)) :
    control.iterate exhausted body (budget + 1) m =
      (body >>= fun _ => control.advance >>= fun moved =>
        if moved then control.iterate exhausted body budget else pure ()) m :=
  Exec.bind_of_ok h

end Equations

end LoopControl

/-! ## Steps on the scope -/

namespace Exec

variable {α β : Type}

/-- Neither sees the context nor changes it. -/
def OnScope (x : Exec α) : Prop :=
  ∀ scope, ∃ result after, ∀ context, x ⟨scope, context⟩ = (result, ⟨after, context⟩)

theorem onScope_pure (a : α) : OnScope (pure a) := fun scope => ⟨.ok a, scope, fun _ => rfl⟩

theorem onScope_throw (e : ExecError) : OnScope (throw e : Exec α) :=
  fun scope => ⟨.error e, scope, fun _ => rfl⟩

theorem OnScope.bind {x : Exec α} {f : α → Exec β} (hx : OnScope x) (hf : ∀ a, OnScope (f a)) :
    OnScope (x >>= f) := by
  intro scope
  obtain ⟨result, mid, hrun⟩ := hx scope
  cases result with
  | error e => exact ⟨.error e, mid, fun context => bind_of_error (hrun context)⟩
  | ok a =>
      obtain ⟨last, after, hlast⟩ := hf a mid
      exact ⟨last, after, fun context => (bind_of_ok (hrun context)).trans (hlast context)⟩

theorem onScope_get {f : NamedStacks → Exec α} (hf : ∀ scope, OnScope (f scope)) :
    OnScope (get >>= fun m => f m.scope) :=
  fun scope => hf scope scope

theorem onScope_orStackError (result : Except StackError α) : OnScope (orStackError result) := by
  cases result with
  | ok a => exact onScope_pure a
  | error e => exact onScope_throw (.stack e)

theorem onScope_orValueError (result : Except ValueError α) : OnScope (orValueError result) := by
  cases result with
  | ok a => exact onScope_pure a
  | error e => exact onScope_throw (.value e)

theorem onScope_pushVariable (name : String) (value : Value) : OnScope (pushVariable name value) :=
  fun scope => ⟨.ok (), scope.push name value, fun _ => rfl⟩

theorem onScope_setScope (scope : NamedStacks) :
    OnScope (modify fun | ⟨_, context⟩ => ⟨scope, context⟩) :=
  fun _ => ⟨.ok (), scope, fun _ => rfl⟩

theorem peekNumber_apply (name : String) (scope : NamedStacks) :
    ∃ result, ∀ context, peekNumber name ⟨scope, context⟩ = (result, ⟨scope, context⟩) := by
  have hpeek : ∀ context, peekVariable name ⟨scope, context⟩ =
      orStackError (scope.peek name) ⟨scope, context⟩ := fun _ => rfl
  cases htop : scope.peek name with
  | error e =>
      rw [htop] at hpeek
      exact ⟨.error (.stack e), fun context => bind_of_error (hpeek context)⟩
  | ok value =>
      rw [htop] at hpeek
      refine ⟨value.toNumber.mapError .value, fun context => ?_⟩
      exact (bind_of_ok (hpeek context)).trans (orValueError_apply _ _)

theorem onScope_peekNumber (name : String) : OnScope (peekNumber name) := by
  intro scope
  obtain ⟨result, hrun⟩ := peekNumber_apply name scope
  exact ⟨result, scope, hrun⟩

theorem onScope_setVariable (name : String) (value : Value) : OnScope (setVariable name value) :=
  onScope_get fun scope => (onScope_orStackError (scope.setTop name value)).bind onScope_setScope

theorem onScope_popVariable (name : String) : OnScope (popVariable name) :=
  onScope_get fun scope =>
    (onScope_orStackError (scope.pop name)).bind fun popped => onScope_setScope popped.2

end Exec

namespace LoopControl

variable (control : LoopControl)

theorem isOver_apply (scope : NamedStacks) :
    ∃ result, ∀ context, control.isOver ⟨scope, context⟩ = (result, ⟨scope, context⟩) := by
  obtain ⟨result, hrun⟩ := Exec.peekNumber_apply control.counter scope
  cases result with
  | error e => exact ⟨.error e, fun context => Exec.bind_of_error (hrun context)⟩
  | ok current => exact ⟨_, fun context => Exec.bind_of_ok (hrun context)⟩

theorem onScope_isOver : Exec.OnScope control.isOver := by
  intro scope
  obtain ⟨result, hrun⟩ := control.isOver_apply scope
  exact ⟨result, scope, hrun⟩

theorem onScope_advance : Exec.OnScope control.advance := by
  refine (Exec.onScope_peekNumber control.counter).bind fun current => ?_
  dsimp only
  split
  · exact Exec.onScope_pure false
  · exact (Exec.onScope_setVariable control.counter _).bind fun _ => Exec.onScope_pure true

end LoopControl

/-! ## Invariants -/

namespace Exec

variable {α β : Type} {I : Context → Prop}

/-- However the program ends, its context is still in `I`. -/
def Maintains (I : Context → Prop) (x : Exec α) : Prop :=
  ∀ m : Machine, I m.context → I (x m).2.context

theorem OnScope.maintains {x : Exec α} (hx : OnScope x) : Maintains I x := by
  intro m hI
  obtain ⟨result, after, hrun⟩ := hx m.scope
  rw [show x m = (result, ⟨after, m.context⟩) from hrun m.context]
  exact hI

theorem Maintains.bind {x : Exec α} {f : α → Exec β} (hx : Maintains I x)
    (hf : ∀ a, Maintains I (f a)) : Maintains I (x >>= f) := by
  intro m hI
  have hmid := hx m hI
  cases hrun : x m with
  | mk result mid =>
      rw [hrun] at hmid
      cases result with
      | error e =>
          rw [bind_of_error hrun]
          exact hmid
      | ok a =>
          rw [bind_of_ok hrun]
          exact hf a mid hmid

theorem maintains_bound (element : Element) : Maintains I (bound element) := by
  intro m hI
  rw [bound_machine]
  exact hI

theorem maintains_stepBound (step : Option Element) : Maintains I (stepBound step) := by
  intro m hI
  rw [stepBound_machine]
  exact hI

end Exec

section Loop

variable {I : Context → Prop} {body : Exec Unit} (hbody : Exec.Maintains I body)

theorem LoopHeader.maintains_enter (header : LoopHeader) : Exec.Maintains I header.enter := by
  refine (Exec.maintains_bound _).bind fun start => (Exec.maintains_bound _).bind fun stop =>
    (Exec.maintains_stepBound _).bind fun step => Exec.OnScope.maintains ?_
  refine (Exec.onScope_orValueError _).bind fun stepNumber =>
    (Exec.onScope_pushVariable _ _).bind fun _ => (Exec.onScope_orValueError _).bind fun _ =>
      (Exec.onScope_orValueError _).bind fun stopNumber => Exec.onScope_pure _

include hbody

theorem LoopControl.maintains_iterate (control : LoopControl) (exhausted : ExecError)
    (budget : Nat) : Exec.Maintains I (control.iterate exhausted body budget) := by
  induction budget with
  | zero =>
      unfold iterate
      refine control.onScope_isOver.maintains.bind fun past => ?_
      cases past with
      | true => exact (Exec.onScope_pure ()).maintains
      | false => exact (Exec.onScope_throw exhausted).maintains
  | succ budget ih =>
      unfold iterate
      refine control.onScope_isOver.maintains.bind fun past => ?_
      cases past with
      | true => exact (Exec.onScope_pure ()).maintains
      | false =>
          refine hbody.bind fun _ => control.onScope_advance.maintains.bind fun moved => ?_
          cases moved with
          | true => exact ih
          | false => exact (Exec.onScope_pure ()).maintains

theorem Interpreter.maintains_forLoop (interpreter : Interpreter) (header : LoopHeader) :
    Exec.Maintains I (interpreter.forLoop header body) := by
  rw [forLoop_eq]
  refine header.maintains_enter.bind fun control => ?_
  exact (control.maintains_iterate hbody _ _).bind fun _ => (Exec.onScope_popVariable _).maintains

end Loop

/-! ## Echoes -/

namespace Exec

/-- Writes the operand that an echo leaves, if it leaves just one. -/
def writeOnly : List Value → Exec Unit
  | [result] => write result.text
  | operands => throw (.echoImbalance operands.length)

section Echo

variable {functions : FunctionTable} {elements : List Element} {m : Machine}
  {operands : List Value} {context : Context}

theorem echo_of_error {e : ExecError}
    (h : Eval.elements functions m.scope elements ⟨[], m.context⟩ =
      (.error e, ⟨operands, context⟩)) :
    echo functions elements m = (.error e, ⟨m.scope, context⟩) := by
  have hecho : Eval.echo functions elements m.scope ⟨[], m.context⟩ =
      (.error e, ⟨operands, context⟩) := bind_of_error h
  rw [echo, evaluate_apply, hecho]

theorem echo_of_ok
    (h : Eval.elements functions m.scope elements ⟨[], m.context⟩ =
      (.ok (), ⟨operands, context⟩)) :
    echo functions elements m = writeOnly operands ⟨m.scope, context⟩ := by
  have hecho : Eval.echo functions elements m.scope ⟨[], m.context⟩ =
      Eval.writeResult ⟨operands, context⟩ := bind_of_ok h
  rw [echo, evaluate_apply, hecho]
  rcases operands with _ | ⟨result, _ | ⟨next, rest⟩⟩
  · rfl
  · have hlast : Eval.writeResult ⟨[result], context⟩ =
        Eval.write result.text ⟨[result], context⟩ := rfl
    rw [hlast, writeOnly, write, Eval.write]
    cases context.write result.text with
    | mk written after => cases written <;> rfl
  · rfl

end Echo

end Exec

/-! ## Nodes -/

/-- The same context, which is in `I`. -/
def Context.Both (I : Context → Prop) (context context' : Context) : Prop :=
  context = context' ∧ I context

/-- Neither functions nor writing lead out of `I`. -/
structure Context.Invariant (I : Context → Prop) : Prop where
  kept : Kept (Both I)
  write : ∀ text context, I context → I (context.write text).2

theorem Context.invariant_sink {I : Sink → Prop}
    (h : ∀ text sink, I sink → I (sink.write text).2) :
    Invariant fun context => I context.sink where
  kept := by
    rintro change context _ ⟨rfl, hsink⟩
    cases change <;> exact ⟨rfl, hsink⟩
  write := fun text context => h text context.sink

namespace Context.Invariant

variable {I : Context → Prop} (hI : Invariant I)

include hI

theorem maintains_write (text : String) : Exec.Maintains I (Exec.write text) := by
  intro m hm
  have hwritten := hI.write text m.context hm
  rw [Exec.write]
  split <;> simp_all

theorem maintains_writeOnly (operands : List Value) :
    Exec.Maintains I (Exec.writeOnly operands) := by
  unfold Exec.writeOnly
  split
  · exact hI.maintains_write _
  · exact (Exec.onScope_throw _).maintains

theorem respects_elements (scope : NamedStacks) (elements : List Element) :
    Eval.Respects (Both I) (Eval.elements .standard scope elements) := by
  refine Eval.respects_elements hI.kept ?_ fun f _ => f.readsAlike_of_eq fun _ _ h => h.1
  rintro name - context _ ⟨rfl, -⟩
  rfl

theorem maintains_echo (elements : List Element) :
    Exec.Maintains I (Exec.echo .standard elements) := by
  intro m hm
  have hcontext := (hI.respects_elements m.scope elements [] _ _ ⟨rfl, hm⟩).context.2
  cases hrun : Eval.elements .standard m.scope elements ⟨[], m.context⟩ with
  | mk result after =>
      rw [hrun] at hcontext
      cases result with
      | error e =>
          rw [Exec.echo_of_error hrun]
          exact hcontext
      | ok _ =>
          rw [Exec.echo_of_ok hrun]
          exact hI.maintains_writeOnly _ _ hcontext

theorem maintains_runNodes (limit : UInt64) (nodes : List Node) :
    Exec.Maintains I (Interpreter.runNodes ⟨.standard, limit⟩ nodes) := by
  induction nodes using Node.listInduction with
  | nil =>
      rw [Interpreter.runNodes]
      exact (Exec.onScope_pure ()).maintains
  | text content rest ih =>
      rw [Interpreter.runNodes, Interpreter.runNode]
      exact (hI.maintains_write content).bind fun _ => ih
  | echo elements rest ih =>
      rw [Interpreter.runNodes, Interpreter.runNode]
      exact (hI.maintains_echo elements).bind fun _ => ih
  | forLoop header body rest ihBody ihRest =>
      rw [Interpreter.runNodes, Interpreter.runNode]
      exact (Interpreter.maintains_forLoop ihBody _ header).bind fun _ => ihRest

end Context.Invariant

end TagTemplate
