import TagTemplate.Execution.Echo
import TagTemplate.Proofs.StandardFunction

/-!
Evaluation in related contexts.

An evaluation respects a relation of contexts if, from the same operands and related contexts, it
comes to the same result, the same operands and related contexts again.  Echoes do so if the
relation is kept by all that functions do to a context (`Context.Kept`) and cannot be told by what
the echo reads (`Eval.respects_elements`).
-/

namespace TagTemplate

/-! ## Steps -/

namespace Eval

/-- The same result, the same operands, and contexts related by `K`. -/
structure Alike {α : Type} (K : Context → Context → Prop) (p q : Except ExecError α × Evaluation) :
    Prop where
  result : p.1 = q.1
  operands : p.2.operands = q.2.operands
  context : K p.2.context q.2.context

/-- From the same operands, contexts related by `K` make no difference but their own. -/
def Respects {α : Type} (K : Context → Context → Prop) (x : Eval α) : Prop :=
  ∀ operands context context', K context context' →
    Alike K (x ⟨operands, context⟩) (x ⟨operands, context'⟩)

variable {K : Context → Context → Prop} {α β : Type}

theorem respects_pure (a : α) : Respects K (pure a : Eval α) :=
  fun _ _ _ hK => ⟨rfl, rfl, hK⟩

theorem respects_throw (e : ExecError) : Respects K (throw e : Eval α) :=
  fun _ _ _ hK => ⟨rfl, rfl, hK⟩

theorem respects_push (value : Value) : Respects K (push value) :=
  fun _ _ _ hK => ⟨rfl, rfl, hK⟩

theorem respects_pop (neededBy : String) : Respects K (pop neededBy) := by
  intro operands context context' hK
  cases operands <;> exact ⟨rfl, rfl, hK⟩

theorem respects_number (value : Value) : Respects K (number value) := by
  unfold number
  cases value.toReal with
  | ok x => exact respects_pure x
  | error e => exact respects_throw (.value e)

theorem respects_modifyContext {f : Context → Context}
    (hf : ∀ context context', K context context' → K (f context) (f context')) :
    Respects K (modifyContext f) :=
  fun _ _ _ hK => ⟨rfl, rfl, hf _ _ hK⟩

theorem Alike.exists_eq {p q : Except ExecError α × Evaluation} (h : Alike K p q) :
    ∃ result operands context context', p = (result, ⟨operands, context⟩) ∧
      q = (result, ⟨operands, context'⟩) ∧ K context context' := by
  obtain ⟨hresult, hoperands, hcontext⟩ := h
  refine ⟨p.1, p.2.operands, p.2.context, q.2.context, rfl, ?_, hcontext⟩
  rw [hresult, hoperands]

theorem Respects.bind {x : Eval α} {f : α → Eval β} (hx : Respects K x)
    (hf : ∀ a, Respects K (f a)) : Respects K (x >>= f) := by
  intro operands context context' hK
  obtain ⟨result, left, after, after', hrun, hrun', hafter⟩ :=
    (hx operands context context' hK).exists_eq
  cases result with
  | error e =>
      rw [Exec.bind_of_error hrun, Exec.bind_of_error hrun']
      exact ⟨rfl, rfl, hafter⟩
  | ok a =>
      rw [Exec.bind_of_ok hrun, Exec.bind_of_ok hrun']
      exact hf a left after after' hafter

theorem respects_get {f : Evaluation → Eval α}
    (hf : ∀ operands context context', K context context' →
      Alike K (f ⟨operands, context⟩ ⟨operands, context⟩)
        (f ⟨operands, context'⟩ ⟨operands, context'⟩)) : Respects K (get >>= f) :=
  hf

theorem respects_applyOperator (op : Operator) : Respects K (applyOperator op) := by
  refine (respects_pop op.text).bind fun rhs => (respects_pop op.text).bind fun lhs => ?_
  cases Value.apply op lhs rhs with
  | ok value => exact respects_push value
  | error e => exact respects_throw (.value e)

end Eval

/-! ## Functions -/

/-- What a function can do to a context. -/
inductive Context.Change where
  | setMimeType (text : String)
  | setPersistent (name value : String)
  | removePersistent (name : String)
  | setTemporary (name value : String)
  | removeTemporary (name : String)

def Context.change (context : Context) : Change → Context
  | .setMimeType text => context.setMimeType text
  | .setPersistent name value => context.setPersistent name value
  | .removePersistent name => context.removePersistent name
  | .setTemporary name value => context.setTemporary name value
  | .removeTemporary name => context.removeTemporary name

/-- Related contexts stay related by whatever a function does to both of them. -/
def Context.Kept (K : Context → Context → Prop) : Prop :=
  ∀ change context context', K context context' → K (context.change change) (context'.change change)

namespace StandardFunction

variable {K : Context → Context → Prop} (f : StandardFunction)

/-- The function finds the same parameters in related contexts. -/
def ReadsAlike (K : Context → Context → Prop) : StandardFunction → Prop
  | paramGet => ∀ name context context', K context context' →
      context.parameter? name = context'.parameter? name
  | persistentGet => ∀ name context context', K context context' →
      context.persistent? name = context'.persistent? name
  | temporaryGet => ∀ name context context', K context context' →
      context.temporary? name = context'.temporary? name
  | _ => True

theorem readsAlike_of_eq (h : ∀ context context', K context context' → context = context') :
    f.ReadsAlike K := by
  cases f with
  | paramGet | persistentGet | temporaryGet =>
      intro name context context' hK
      rw [h context context' hK]
  | _ => trivial

theorem respects_argument : Eval.Respects K f.argument := Eval.respects_pop _

theorem respects_getWithDefault {find? : Context → String → Option String}
    (hfind : ∀ name context context', K context context' →
      find? context name = find? context' name) : Eval.Respects K (f.getWithDefault find?) := by
  refine f.respects_argument.bind fun default => f.respects_argument.bind fun name => ?_
  refine Eval.respects_get fun operands context context' hK => ?_
  dsimp only
  rw [hfind name.text context context' hK]
  cases find? context' name.text with
  | some text => exact Eval.respects_push (.str text) operands context context' hK
  | none => exact Eval.respects_push default operands context context' hK

theorem respects_store {set : Context → String → String → Context}
    (hset : ∀ name value context context', K context context' →
      K (set context name value) (set context' name value)) : Eval.Respects K (f.store set) := by
  refine f.respects_argument.bind fun name => f.respects_argument.bind fun value => ?_
  exact (Eval.respects_modifyContext (hset name.text value.text)).bind fun _ =>
    Eval.respects_push .null

theorem respects_change {set : Context → String → Context}
    (hset : ∀ text context context', K context context' →
      K (set context text) (set context' text)) : Eval.Respects K (f.change set) := by
  refine f.respects_argument.bind fun text => ?_
  exact (Eval.respects_modifyContext (hset text.text)).bind fun _ => Eval.respects_push .null

theorem respects_runSin : Eval.Respects K runSin := by
  refine (respects_argument sin).bind fun value => (Eval.respects_number value).bind fun x => ?_
  exact Eval.respects_push _

theorem respects_runDecfmt : Eval.Respects K runDecfmt := by
  refine (respects_argument decfmt).bind fun pattern => (respects_argument decfmt).bind fun value =>
    (Eval.respects_number value).bind fun x => ?_
  cases DecimalPattern.parse? pattern.text.toList with
  | some format => exact Eval.respects_push _
  | none => exact Eval.respects_throw _

theorem respects_runDup : Eval.Respects K runDup := by
  refine (respects_argument dup).bind fun x => ?_
  exact (Eval.respects_push x).bind fun _ => Eval.respects_push x

theorem respects_runSwap : Eval.Respects K runSwap := by
  refine (respects_argument swap).bind fun b => (respects_argument swap).bind fun a => ?_
  exact (Eval.respects_push b).bind fun _ => Eval.respects_push a

theorem respects_run (hkept : Context.Kept K) (hreads : f.ReadsAlike K) :
    Eval.Respects K f.run := by
  cases f with
  | sin => exact respects_runSin
  | decfmt => exact respects_runDecfmt
  | dup => exact respects_runDup
  | swap => exact respects_runSwap
  | setMimeType => exact respects_change _ fun text => hkept (.setMimeType text)
  | paramGet => exact respects_getWithDefault _ hreads
  | persistentGet => exact respects_getWithDefault _ hreads
  | persistentSet => exact respects_store _ fun name value => hkept (.setPersistent name value)
  | persistentDel => exact respects_change _ fun name => hkept (.removePersistent name)
  | temporaryGet => exact respects_getWithDefault _ hreads
  | temporarySet => exact respects_store _ fun name value => hkept (.setTemporary name value)
  | temporaryDel => exact respects_change _ fun name => hkept (.removeTemporary name)

end StandardFunction

/-! ## Echoes -/

namespace Eval

variable {K : Context → Context → Prop} {scope : NamedStacks}

theorem respects_call {name : String} (hkept : Context.Kept K)
    (hreads : ∀ f : StandardFunction, f.name = name → f.ReadsAlike K) :
    Respects K (call .standard name) := by
  unfold call
  cases hfind : FunctionTable.standard.find? name with
  | none => exact respects_throw _
  | some builtin =>
      obtain ⟨f, hname, rfl⟩ := FunctionTable.exists_of_find?_standard hfind
      exact f.respects_run hkept (hreads f hname)

theorem respects_resolveVariable {name : String}
    (hresolve : ∀ context context', K context context' →
      resolve scope context name = resolve scope context' name) :
    Respects K (resolveVariable scope name) := by
  refine respects_get fun operands context context' hK => ?_
  dsimp only
  rw [hresolve context context' hK]
  cases resolve scope context' name with
  | ok value => exact respects_pure value operands context context' hK
  | error e => exact respects_throw e operands context context' hK

theorem respects_elements {es : List Element} (hkept : Context.Kept K)
    (hresolve : ∀ name, .var name ∈ es → ∀ context context', K context context' →
      resolve scope context name = resolve scope context' name)
    (hreads : ∀ f : StandardFunction, .function f.name ∈ es → f.ReadsAlike K) :
    Respects K (elements .standard scope es) := by
  induction es with
  | nil => exact respects_pure ()
  | cons e es ih =>
      have hrest : Respects K (elements .standard scope es) :=
        ih (fun name hname => hresolve name (.tail _ hname)) fun f hf => hreads f (.tail _ hf)
      refine Respects.bind ?_ fun _ => hrest
      cases e with
      | var name =>
          refine (respects_resolveVariable (hresolve name (.head _))).bind fun value => ?_
          exact respects_push value
      | str content => exact respects_push (.str content)
      | int value => exact respects_push (.int value)
      | real value => exact respects_push (.real value)
      | operator op => exact respects_applyOperator op
      | function name =>
          refine respects_call hkept fun f hf => hreads f ?_
          rw [hf]
          exact .head _

end Eval

end TagTemplate
