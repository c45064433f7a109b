import TagTemplate.Proofs.Execution.Invariant

/-!
Runs that are cut short.

Two runs that start alike may part in one way only: the first one stops with an error, and the
second one goes on.  From then on only the second context changes, so a relation between the two
that further writing keeps still holds when the second run has ended too.
-/

namespace TagTemplate

namespace Exec

variable {α β : Type}

/--
Both runs end alike, with contexts related by `K`, or the first one has stopped; `S` relates its
error and its context to where the second one has ended.
-/
inductive CutShort (K : Context → Context → Prop) (S : ExecError → Context → Context → Prop) :
    Except ExecError α × Machine → Except ExecError α × Machine → Prop
  | ok {a : α} {scope : NamedStacks} {context context' : Context} (h : K context context') :
      CutShort K S (.ok a, ⟨scope, context⟩) (.ok a, ⟨scope, context'⟩)
  | error {e : ExecError} {m m' : Machine} (h : K m.context m'.context) :
      CutShort K S (.error e, m) (.error e, m')
  | stopped {e : ExecError} {m m' : Machine} {result : Except ExecError α}
      (h : S e m.context m'.context) : CutShort K S (.error e, m) (result, m')

/-- From the same scope and contexts related by `K`, the first program is cut short at most. -/
def CutsShort (K : Context → Context → Prop) (S : ExecError → Context → Context → Prop)
    (x x' : Exec α) : Prop :=
  ∀ scope context context', K context context' →
    CutShort K S (x ⟨scope, context⟩) (x' ⟨scope, context'⟩)

/-- The program goes on from a context in `S` to such a context. -/
def GoesOn (S : ExecError → Context → Context → Prop) (x : Exec α) : Prop :=
  ∀ e context, Maintains (S e context) x

variable {K : Context → Context → Prop} {S : ExecError → Context → Context → Prop}

theorem GoesOn.bind {x : Exec α} {f : α → Exec β} (hx : GoesOn S x) (hf : ∀ a, GoesOn S (f a)) :
    GoesOn S (x >>= f) :=
  fun e context => (hx e context).bind fun a => hf a e context

theorem OnScope.goesOn {x : Exec α} (hx : OnScope x) : GoesOn S x := fun _ _ => hx.maintains

theorem OnScope.cutsShort {x : Exec α} (hx : OnScope x) : CutsShort K S x x := by
  intro scope context context' hK
  obtain ⟨result, after, hrun⟩ := hx scope
  rw [hrun context, hrun context']
  cases result with
  | ok a => exact .ok hK
  | error e => exact .error hK

theorem CutsShort.bind {x x' : Exec α} {f f' : α → Exec β} (hx : CutsShort K S x x')
    (hf : ∀ a, CutsShort K S (f a) (f' a)) (hon : ∀ a, GoesOn S (f' a)) :
    CutsShort K S (x >>= f) (x' >>= f') := by
  intro scope context context' hK
  have h := hx scope context context' hK
  generalize hfirst : x ⟨scope, context⟩ = first at h
  generalize hsecond : x' ⟨scope, context'⟩ = second at h
  cases h with
  | ok hafter =>
      rw [bind_of_ok hfirst, bind_of_ok hsecond]
      exact hf _ _ _ _ hafter
  | error hafter =>
      rw [bind_of_error hfirst, bind_of_error hsecond]
      exact .error hafter
  | @stopped e m m' result hafter =>
      rw [bind_of_error hfirst]
      cases result with
      | error e' =>
          rw [bind_of_error hsecond]
          exact .stopped hafter
      | ok a =>
          rw [bind_of_ok hsecond]
          exact .stopped (hon a e m.context m' hafter)

/-- Programs that never stop early are also cut short at most. -/
theorem CutsShort.of_never {x x' : Exec α} (h : CutsShort K (fun _ _ _ => False) x x') :
    CutsShort K S x x' := by
  intro scope context context' hK
  have hends := h scope context context' hK
  generalize x ⟨scope, context⟩ = first at hends ⊢
  generalize x' ⟨scope, context'⟩ = second at hends ⊢
  cases hends with
  | ok hafter => exact .ok hafter
  | error hafter => exact .error hafter
  | stopped hfalse => exact hfalse.elim

theorem goesOn_never (x : Exec α) : GoesOn (fun _ _ _ => False) x := fun _ _ _ hfalse => hfalse.elim

/-- Programs that start in the same machine end alike. -/
theorem cutsShort_eq (x : Exec α) : CutsShort Eq S x x := by
  rintro scope context _ rfl
  cases x ⟨scope, context⟩ with
  | mk result m =>
      cases result with
      | ok a => exact .ok rfl
      | error e => exact .error rfl

end Exec

/-! ## Loops -/

section Loop

open Exec

variable {K : Context → Context → Prop} {S : ExecError → Context → Context → Prop}

theorem Exec.cutsShort_bound (hparameters : StandardFunction.paramGet.ReadsAlike K)
    (element : Element) : CutsShort K S (bound element) (bound element) := by
  intro scope context context' hK
  have hsame : (bound element ⟨scope, context⟩).1 = (bound element ⟨scope, context'⟩).1 := by
    cases element with
    | var name =>
        rw [bound_var, bound_var, resolve, resolve, hparameters name context context' hK]
    | _ => rfl
  rw [bound_apply, bound_apply element ⟨scope, context'⟩, hsame]
  cases (bound element ⟨scope, context'⟩).1 with
  | ok value => exact .ok hK
  | error e => exact .error hK

theorem Exec.cutsShort_stepBound (hparameters : StandardFunction.paramGet.ReadsAlike K)
    (step : Option Element) : CutsShort K S (stepBound step) (stepBound step) := by
  cases step with
  | none => exact (onScope_pure _).cutsShort
  | some element => exact cutsShort_bound hparameters element

theorem LoopHeader.cutsShort_enter (hparameters : StandardFunction.paramGet.ReadsAlike K)
    (header : LoopHeader) : CutsShort K S header.enter header.enter := by
  have hrest : ∀ start stop step : Value, OnScope (do
      let stepNumber ← orValueError step.toNumber
      pushVariable header.counter start
      let _ ← orValueError start.toNumber
      let stopNumber ← orValueError stop.toNumber
      pure (⟨header.counter, stopNumber, stepNumber⟩ : LoopControl)) := by
    intro start stop step
    refine (onScope_orValueError _).bind fun stepNumber => (onScope_pushVariable _ _).bind fun _ =>
      (onScope_orValueError _).bind fun _ => (onScope_orValueError _).bind fun stopNumber => ?_
    exact onScope_pure _
  refine CutsShort.of_never ?_
  refine (cutsShort_bound hparameters _).bind (fun start => ?_) fun _ => goesOn_never _
  refine (cutsShort_bound hparameters _).bind (fun stop => ?_) fun _ => goesOn_never _
  refine (cutsShort_stepBound hparameters _).bind (fun step => ?_) fun _ => goesOn_never _
  exact (hrest start stop step).cutsShort

namespace LoopControl

variable {control : LoopControl} {exhausted exhausted' : ExecError} {body body' : Exec Unit}

/-- Loops that are over end alike, so what matters are those that are not. -/
theorem cutsShort_iterate_of_on {budget budget' : Nat}
    (h : ∀ scope context context', K context context' →
      control.isOver ⟨scope, context⟩ = (.ok false, ⟨scope, context⟩) →
      control.isOver ⟨scope, context'⟩ = (.ok false, ⟨scope, context'⟩) →
      CutShort K S (control.iterate exhausted body budget ⟨scope, context⟩)
        (control.iterate exhausted' body' budget' ⟨scope, context'⟩)) :
    CutsShort K S (control.iterate exhausted body budget)
      (control.iterate exhausted' body' budget') := by
  intro scope context context' hK
  obtain ⟨result, hover⟩ := control.isOver_apply scope
  rcases result with e | _ | _
  · rw [iterate_of_error _ _ _ (hover context), iterate_of_error _ _ _ (hover context')]
    exact .error hK
  · exact h scope context context' hK (hover context) (hover context')
  · rw [iterate_of_over _ _ _ (hover context), iterate_of_over _ _ _ (hover context')]
    exact .ok hK

/-- Up to the budget of the first loop, a loop is cut short where its body is. -/
theorem cutsShort_iterate (hbody : CutsShort K S body body') (hon : GoesOn S body') {extra : Nat}
    (hlast : ∀ scope context context', K context context' →
      control.isOver ⟨scope, context'⟩ = (.ok false, ⟨scope, context'⟩) →
      CutShort K S (.error exhausted, ⟨scope, context⟩)
        (control.iterate exhausted' body' extra ⟨scope, context'⟩)) (budget : Nat) :
    CutsShort K S (control.iterate exhausted body budget)
      (control.iterate exhausted' body' (budget + extra)) := by
  induction budget with
  | zero =>
      refine cutsShort_iterate_of_on fun scope context context' hK hover hover' => ?_
      rw [iterate_zero_of_on _ _ hover, Nat.zero_add]
      exact hlast scope context context' hK hover'
  | succ budget ih =>
      refine cutsShort_iterate_of_on fun scope context context' hK hover hover' => ?_
      rw [Nat.succ_add, iterate_succ_of_on _ _ _ hover, iterate_succ_of_on _ _ _ hover']
      have hnext : ∀ moved : Bool, GoesOn S
          (if moved then control.iterate exhausted' body' (budget + extra) else pure ()) := by
        intro moved
        cases moved with
        | true => exact fun e before => control.maintains_iterate (hon e before) _ _
        | false => exact (onScope_pure ()).goesOn
      refine hbody.bind (fun _ => ?_) (fun _ => control.onScope_advance.goesOn.bind hnext) scope
        context context' hK
      refine control.onScope_advance.cutsShort.bind (fun moved => ?_) hnext
      cases moved with
      | true => exact ih
      | false => exact (onScope_pure ()).cutsShort

end LoopControl

end Loop

/-! ## Nodes -/

open Exec

/-- What it takes for runs under the first limit to be cut short at most, against the second. -/
structure Interruption (K : Context → Context → Prop) (S : ExecError → Context → Context → Prop)
    (limit limit' : UInt64) : Prop where
  kept : Context.Kept K
  reads : ∀ f : StandardFunction, f.ReadsAlike K
  write : ∀ text, CutsShort K S (write text) (write text)
  goesOn : ∀ e context, Context.Invariant (S e context)
  iterate : ∀ (control : LoopControl) (counter : String) (body body' : Exec Unit),
    CutsShort K S body body' → GoesOn S body' →
      CutsShort K S
        (control.iterate (Interpreter.loopExhausted ⟨.standard, limit⟩ counter) body
          (Interpreter.loopBudget ⟨.standard, limit⟩))
        (control.iterate (Interpreter.loopExhausted ⟨.standard, limit'⟩ counter) body'
          (Interpreter.loopBudget ⟨.standard, limit'⟩))

namespace Interruption

variable {K : Context → Context → Prop} {S : ExecError → Context → Context → Prop}
  {limit limit' : UInt64} (h : Interruption K S limit limit')

include h

theorem goesOn_runNodes (nodes : List Node) :
    GoesOn S (Interpreter.runNodes ⟨.standard, limit'⟩ nodes) :=
  fun e context => (h.goesOn e context).maintains_runNodes limit' nodes

theorem cutsShort_writeOnly (operands : List Value) :
    CutsShort K S (writeOnly operands) (writeOnly operands) := by
  unfold writeOnly
  split
  · exact h.write _
  · exact (onScope_throw _).cutsShort

theorem respects_elements (scope : NamedStacks) (elements : List Element) :
    Eval.Respects K (Eval.elements .standard scope elements) := by
  refine Eval.respects_elements h.kept (fun name _ context context' hK => ?_) fun f _ => h.reads f
  rw [resolve, resolve, h.reads .paramGet name context context' hK]

theorem cutsShort_echo (elements : List Element) :
    CutsShort K S (echo .standard elements) (echo .standard elements) := by
  intro scope context context' hK
  obtain ⟨result, operands, after, after', hfirst, hsecond, hafter⟩ :=
    (h.respects_elements scope elements [] context context' hK).exists_eq
  cases result with
  | error e =>
      rw [@echo_of_error _ _ ⟨scope, context⟩ _ _ _ hfirst,
        @echo_of_error _ _ ⟨scope, context'⟩ _ _ _ hsecond]
      exact .error hafter
  | ok _ =>
      rw [@echo_of_ok _ _ ⟨scope, context⟩ _ _ hfirst,
        @echo_of_ok _ _ ⟨scope, context'⟩ _ _ hsecond]
      exact h.cutsShort_writeOnly operands scope after after' hafter

theorem cutsShort_forLoop (header : LoopHeader) {body body' : Exec Unit}
    (hbody : CutsShort K S body body') (hon : GoesOn S body') :
    CutsShort K S (Interpreter.forLoop ⟨.standard, limit⟩ header body)
      (Interpreter.forLoop ⟨.standard, limit'⟩ header body') := by
  rw [Interpreter.forLoop_eq, Interpreter.forLoop_eq]
  refine (header.cutsShort_enter (h.reads .paramGet)).bind (fun control => ?_) fun control => ?_
  · refine (h.iterate control header.counter body body' hbody hon).bind (fun _ => ?_) fun _ => ?_
    · exact (onScope_popVariable header.counter).cutsShort
    · exact (onScope_popVariable header.counter).goesOn
  · refine GoesOn.bind (fun e context => ?_) fun _ => (onScope_popVariable header.counter).goesOn
    exact control.maintains_iterate (hon e context) _ _

/-- Texts, echoes and loops are cut short at most, hence whole documents. -/
theorem cutsShort_runNodes (nodes : List Node) :
    CutsShort K S (Interpreter.runNodes ⟨.standard, limit⟩ nodes)
      (Interpreter.runNodes ⟨.standard, limit'⟩ nodes) := by
  induction nodes using Node.listInduction with
  | nil =>
      rw [Interpreter.runNodes, Interpreter.runNodes]
      exact (onScope_pure ()).cutsShort
  | text content rest ih =>
      rw [Interpreter.runNodes, Interpreter.runNodes, Interpreter.runNode, Interpreter.runNode]
      exact (h.write content).bind (fun _ => ih) fun _ => h.goesOn_runNodes rest
  | echo elements rest ih =>
      rw [Interpreter.runNodes, Interpreter.runNodes, Interpreter.runNode, Interpreter.runNode]
      exact (h.cutsShort_echo elements).bind (fun _ => ih) fun _ => h.goesOn_runNodes rest
  | forLoop header body rest ihBody ihRest =>
      rw [Interpreter.runNodes, Interpreter.runNodes, Interpreter.runNode, Interpreter.runNode]
      exact (h.cutsShort_forLoop header ihBody (h.goesOn_runNodes body)).bind (fun _ => ihRest)
        fun _ => h.goesOn_runNodes rest

theorem execute_alike_or_stopped (document : Document) {context context' : Context}
    (hK : K context context') :
    let first := Interpreter.execute ⟨.standard, limit⟩ document context
    let second := Interpreter.execute ⟨.standard, limit'⟩ document context'
    (first.1 = second.1 ∧ K first.2 second.2) ∨ ∃ e, first.1 = .error e ∧ S e first.2 second.2 := by
  have hruns := h.cutsShort_runNodes document.children .empty context context' hK
  simp only [Interpreter.execute]
  generalize Interpreter.runNodes ⟨.standard, limit⟩ document.children ⟨.empty, context⟩ = first
    at hruns ⊢
  generalize Interpreter.runNodes ⟨.standard, limit'⟩ document.children ⟨.empty, context'⟩ = second
    at hruns ⊢
  cases hruns with
  | ok hafter => exact .inl ⟨rfl, hafter⟩
  | error hafter => exact .inl ⟨rfl, hafter⟩
  | stopped hafter => exact .inr ⟨_, rfl, hafter⟩

end Interruption

end TagTemplate
