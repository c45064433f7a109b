import TagTemplate.Interpreter
import TagTemplate.Proofs.Document.Levels

/-!
The scope of a run.

A program is balanced if, whenever it succeeds, every stack of the scope has the values that it
had before.  Loops keep their own entry on top of the stack of their counter as long as their body
is balanced (`LoopControl.iterate_values`), so every list of nodes is balanced.
-/

namespace TagTemplate

/-! ## Named stacks -/

@[simp] theorem NameMap.insert_insert {α : Type} (map : NameMap α) (name : String) (old new : α) :
    (map.insert name old).insert name new = map.insert name new := by
  simp [NameMap.insert, NameMap.erase, List.filter_filter]

namespace NamedStacks

theorem values_insert (store : NamedStacks) (name other : String) (values : List Value) :
    NamedStacks.values ⟨store.byName.insert name values⟩ other =
      if other = name then values else store.values other := by
  by_cases h : other = name <;> simp [NamedStacks.values, NameMap.find?_insert, h]

theorem values_insert_self (store : NamedStacks) (name : String) (values : List Value) :
    NamedStacks.values ⟨store.byName.insert name values⟩ name = values := by
  rw [values_insert, if_pos rfl]

theorem values_insert_values (store : NamedStacks) (name other : String) :
    NamedStacks.values ⟨store.byName.insert name (store.values name)⟩ other =
      store.values other := by
  rw [values_insert]
  split
  · next h => rw [h]
  · rfl

theorem values_push_self (store : NamedStacks) (name : String) (value : Value) :
    (store.push name value).values name = value :: store.values name := by
  rw [values_push, if_pos rfl]

theorem push_insert (store : NamedStacks) (name : String) (values : List Value) (value : Value) :
    NamedStacks.push ⟨store.byName.insert name values⟩ name value =
      ⟨store.byName.insert name (value :: values)⟩ := by
  rw [push, values_insert_self, NameMap.insert_insert]

theorem find?_of_values {store : NamedStacks} {name : String} {top : Value} {below : List Value}
    (h : store.values name = top :: below) : store.byName.find? name = some (top :: below) := by
  unfold NamedStacks.values at h
  cases hfind : store.byName.find? name with
  | none => simp [hfind] at h
  | some values => simpa [hfind] using h

theorem split_of_values {store : NamedStacks} {name : String} {top : Value} {below : List Value}
    (h : store.values name = top :: below) : store.split name = .ok (top, below) := by
  simp [split, stack, find?_of_values h, bind, Except.bind]

end NamedStacks

namespace Exec

variable {σ α β γ : Type}

/-! ## Computations -/

-- over any state: evaluations are composed in the same way
theorem bind_of_ok {x : ExceptT ExecError (StateM σ) α} {f : α → ExceptT ExecError (StateM σ) β}
    {m m' : σ} {a : α} (h : x m = (.ok a, m')) : (x >>= f) m = f a m' := by
  simp [bind, ExceptT.bind, ExceptT.bindCont, ExceptT.mk, StateT.bind, h]

theorem bind_of_error {x : ExceptT ExecError (StateM σ) α}
    {f : α → ExceptT ExecError (StateM σ) β} {m m' : σ} {e : ExecError}
    (h : x m = (.error e, m')) : (x >>= f) m = (.error e, m') := by
  simp only [bind, ExceptT.bind, ExceptT.bindCont, ExceptT.mk, StateT.bind, h]
  rfl

theorem bind_eq_ok_iff {x : Exec α} {f : α → Exec β} {m m' : Machine} {b : β} :
    (x >>= f) m = (.ok b, m') ↔ ∃ a mid, x m = (.ok a, mid) ∧ f a mid = (.ok b, m') := by
  constructor
  · intro h
    cases hx : x m with
    | mk result mid =>
        cases result with
        | error e =>
            rw [bind_of_error hx] at h
            cases h
        | ok a =>
            rw [bind_of_ok hx] at h
            exact ⟨a, mid, rfl, h⟩
  · rintro ⟨a, mid, hx, hf⟩
    rw [bind_of_ok hx, hf]

/-! ## Steps that read or replace the top of a stack -/

theorem pushVariable_apply (name : String) (value : Value) (m : Machine) :
    pushVariable name value m = (.ok (), ⟨m.scope.push name value, m.context⟩) := rfl

section TopOfStack

variable {m : Machine} {name : String} {top : Value} {below : List Value}
  (h : m.scope.values name = top :: below)

include h

theorem peekVariable_of_values : peekVariable name m = (.ok top, m) := by
  have hpeek : m.scope.peek name = .ok top := by
    simp [NamedStacks.peek, NamedStacks.split_of_values h, bind, Except.bind]
  have hget : (get : Exec Machine) m = (.ok m, m) := rfl
  unfold peekVariable
  rw [bind_of_ok hget, hpeek]
  rfl

theorem peekNumber_of_values {x : Number} (hx : top.toNumber = .ok x) :
    peekNumber name m = (.ok x, m) := by
  unfold peekNumber
  rw [bind_of_ok (peekVariable_of_values h), hx]
  rfl

theorem setVariable_of_values (value : Value) :
    setVariable name value m =
      (.ok (), ⟨⟨m.scope.byName.insert name (value :: below)⟩, m.context⟩) := by
  have hset : m.scope.setTop name value = .ok ⟨m.scope.byName.insert name (value :: below)⟩ := by
    simp [NamedStacks.setTop, NamedStacks.split_of_values h, bind, Except.bind]
  have hget : (get : Exec Machine) m = (.ok m, m) := rfl
  unfold setVariable
  rw [bind_of_ok hget, hset]
  rfl

theorem popVariable_of_values :
    popVariable name m = (.ok (), ⟨⟨m.scope.byName.insert name below⟩, m.context⟩) := by
  have hpop : m.scope.pop name = .ok (top, ⟨m.scope.byName.insert name below⟩) := by
    simp [NamedStacks.pop, NamedStacks.split_of_values h, bind, Except.bind]
  have hget : (get : Exec Machine) m = (.ok m, m) := rfl
  unfold popVariable
  rw [bind_of_ok hget, hpop]
  rfl

end TopOfStack

theorem bound_machine (element : Element) (m : Machine) : (bound element m).2 = m := by
  cases element with
  | var name =>
      have hget : (get : Exec Machine) m = (.ok m, m) := rfl
      simp only [bound]
      rw [bind_of_ok hget]
      cases resolve m.scope m.context name <;> rfl
  | str content => rfl
  | int value => rfl
  | real value => rfl
  | function name => rfl
  | operator op => rfl

theorem stepBound_machine (step : Option Element) (m : Machine) : (stepBound step m).2 = m := by
  cases step with
  | none => rfl
  | some element => exact bound_machine element m

/-! ## Steps that only read -/

theorem bound_apply (element : Element) (m : Machine) :
    bound element m = ((bound element m).1, m) :=
  Prod.ext rfl (bound_machine element m)

theorem stepBound_apply (step : Option Element) (m : Machine) :
    stepBound step m = ((stepBound step m).1, m) :=
  Prod.ext rfl (stepBound_machine step m)

theorem orValueError_apply (result : Except ValueError α) (m : Machine) :
    orValueError result m = (result.mapError .value, m) := by
  cases result <;> rfl

/-- A step that only reads fails at once, or what follows it fails. -/
theorem bind_of_reading_error {x : Exec α} {f : α → Exec γ} {k : α → Except ExecError β}
    {m : Machine} {result : Except ExecError α} {e : ExecError}
    {Q : Except ExecError γ × Machine → Prop} (hreads : x m = (result, m))
    (h : result >>= k = .error e) (hfails : Q (.error e, m))
    (hnext : ∀ a, k a = .error e → Q (f a m)) : Q ((x >>= f) m) := by
  cases result with
  | error e' =>
      cases h
      rw [bind_of_error hreads]
      exact hfails
  | ok a =>
      rw [bind_of_ok hreads]
      exact hnext a h

/-- A step that only reads succeeds if the whole does. -/
theorem bind_of_reading_ok {x : Exec α} {f : α → Exec γ} {k : α → Except ExecError β}
    {m : Machine} {result : Except ExecError α} {b : β}
    {Q : Except ExecError γ × Machine → Prop} (hreads : x m = (result, m))
    (h : result >>= k = .ok b) (hnext : ∀ a, result = .ok a → k a = .ok b → Q (f a m)) :
    Q ((x >>= f) m) := by
  cases result with
  | error e => cases h
  | ok a =>
      rw [bind_of_ok hreads]
      exact hnext a rfl h

/-! ## Balanced computations -/

/-- Success leaves every stack with the values that it had. -/
def Balanced (x : Exec Unit) : Prop :=
  ∀ m m', x m = (.ok (), m') → ∀ name, m'.scope.values name = m.scope.values name

theorem balanced_pure : Balanced (pure ()) := by
  rintro m m' ⟨⟩ name
  rfl

theorem Balanced.bind {x y : Exec Unit} (hx : Balanced x) (hy : Balanced y) :
    Balanced (x >>= fun _ => y) := by
  intro m m' h name
  obtain ⟨_, mid, hxm, hym⟩ := bind_eq_ok_iff.mp h
  exact (hy mid m' hym name).trans (hx m mid hxm name)

theorem balanced_write (text : String) : Balanced (write text) := by
  rintro ⟨scope, context⟩ m' h name
  simp only [write] at h
  split at h <;> cases h
  rfl

theorem balanced_evaluate (evaluation : NamedStacks → Eval Unit) :
    Balanced (evaluate evaluation) := by
  intro m m' h name
  have hm : (evaluate evaluation m).2 = m' := by rw [h]
  rw [← hm]
  rfl

end Exec

/-! ## Loops -/

namespace LoopControl

variable {control : LoopControl} {m : Machine} {top : Value} {below : List Value} {x : Number}

section TopOfStack

variable (h : m.scope.values control.counter = top :: below) (hx : top.toNumber = .ok x)

include h hx

theorem isOver_of_values :
    control.isOver m = (.ok (x.order control.stop == control.past), m) := by
  unfold isOver
  rw [Exec.bind_of_ok (Exec.peekNumber_of_values h hx)]
  rfl

theorem advance_of_values :
    control.advance m =
      if (Number.apply .add x control.step).order x = control.past.swap then (.ok false, m)
      else
        (.ok true, ⟨⟨m.scope.byName.insert control.counter
          (.ofNumber (Number.apply .add x control.step) :: below)⟩, m.context⟩) := by
  unfold advance
  rw [Exec.bind_of_ok (Exec.peekNumber_of_values h hx)]
  by_cases hback : (Number.apply .add x control.step).order x = control.past.swap
  · rw [if_pos hback]
    simp only [hback, if_true]
    rfl
  · rw [if_neg hback]
    simp only [hback, if_false]
    rw [Exec.bind_of_ok (Exec.setVariable_of_values h _)]
    rfl

end TopOfStack

/-- Iterations replace the value of the counter and keep those below it. -/
theorem iterate_values {exhausted : ExecError} {body : Exec Unit} (hbody : Exec.Balanced body)
    {budget : Nat} {m' : Machine} (h : m.scope.values control.counter = top :: below)
    (hx : top.toNumber = .ok x) (hrun : control.iterate exhausted body budget m = (.ok (), m')) :
    (∃ last, m'.scope.values control.counter = last :: below) ∧
      ∀ name, name ≠ control.counter → m'.scope.values name = m.scope.values name := by
  induction budget generalizing m top x with
  | zero =>
      unfold iterate at hrun
      rw [Exec.bind_of_ok (isOver_of_values h hx)] at hrun
      split at hrun <;> cases hrun
      exact ⟨⟨top, h⟩, fun _ _ => rfl⟩
  | succ budget ih =>
      unfold iterate at hrun
      rw [Exec.bind_of_ok (isOver_of_values h hx)] at hrun
      split at hrun
      · cases hrun
        exact ⟨⟨top, h⟩, fun _ _ => rfl⟩
      · obtain ⟨_, mid, hrunBody, hrest⟩ := Exec.bind_eq_ok_iff.mp hrun
        have hkept := hbody m mid hrunBody
        have hmid : mid.scope.values control.counter = top :: below := by
          rw [hkept, h]
        obtain ⟨moved, next, hadvance, hiterate⟩ := Exec.bind_eq_ok_iff.mp hrest
        rw [advance_of_values hmid hx] at hadvance
        split at hadvance
        · cases hadvance
          cases hiterate
          exact ⟨⟨top, hmid⟩, fun name _ => hkept name⟩
        · cases hadvance
          obtain ⟨hlast, hothers⟩ := ih (NamedStacks.values_insert_self ..)
            (Value.toNumber_ofNumber _) hiterate
          refine ⟨hlast, fun name hname => ?_⟩
          rw [hothers name hname, NamedStacks.values_insert, if_neg hname, hkept]

end LoopControl

/--
The value that the counter starts with and the control of the iterations, or the reason why there
are none.
-/
def LoopHeader.entry (header : LoopHeader) (m : Machine) :
    Except ExecError (Value × LoopControl) := do
  let start ← (Exec.bound header.start m).1
  let stop ← (Exec.bound header.stop m).1
  let step ← (Exec.stepBound header.step m).1
  let stepNumber ← step.toNumber.mapError .value
  let _ ← start.toNumber.mapError .value
  let stopNumber ← stop.toNumber.mapError .value
  .ok (start, ⟨header.counter, stopNumber, stepNumber⟩)

/-- Reduces the bounds of a loop to numbers, and binds the counter to the first one. -/
def LoopHeader.enter (header : LoopHeader) : Exec LoopControl := do
  let start ← Exec.bound header.start
  let stop ← Exec.bound header.stop
  let step ← Exec.stepBound header.step
  let stepNumber ← Exec.orValueError step.toNumber
  Exec.pushVariable header.counter start
  let _ ← Exec.orValueError start.toNumber
  let stopNumber ← Exec.orValueError stop.toNumber
  pure ⟨header.counter, stopNumber, stepNumber⟩

namespace LoopHeader

variable {header : LoopHeader} {m : Machine}

theorem enter_of_entry_error {e : ExecError} (h : header.entry m = .error e) :
    ∃ scope, header.enter m = (.error e, ⟨scope, m.context⟩) ∧
      (scope = m.scope ∨ ∃ start, scope = m.scope.push header.counter start) := by
  let Fails (p : Except ExecError LoopControl × Machine) : Prop :=
    ∃ scope, p = (.error e, ⟨scope, m.context⟩) ∧
      (scope = m.scope ∨ ∃ start, scope = m.scope.push header.counter start)
  have hhere : Fails (.error e, m) := ⟨m.scope, rfl, .inl rfl⟩
  show Fails (header.enter m)
  refine Exec.bind_of_reading_error (Exec.bound_apply _ m) h hhere fun start h => ?_
  refine Exec.bind_of_reading_error (Exec.bound_apply _ m) h hhere fun stop h => ?_
  refine Exec.bind_of_reading_error (Exec.stepBound_apply _ m) h hhere fun step h => ?_
  refine Exec.bind_of_reading_error (Exec.orValueError_apply _ m) h hhere fun stepNumber h => ?_
  rw [Exec.bind_of_ok (Exec.pushVariable_apply header.counter start m)]
  have hpushed : Fails (.error e, ⟨m.scope.push header.counter start, m.context⟩) :=
    ⟨_, rfl, .inr ⟨start, rfl⟩⟩
  refine Exec.bind_of_reading_error (Exec.orValueError_apply _ _) h hpushed fun _ h => ?_
  exact Exec.bind_of_reading_error (Exec.orValueError_apply _ _) h hpushed fun _ h => nomatch h

theorem enter_of_entry_ok {start : Value} {control : LoopControl}
    (h : header.entry m = .ok (start, control)) :
    (control.counter = header.counter ∧ ∃ x, start.toNumber = .ok x) ∧
      header.enter m = (.ok control, ⟨m.scope.push header.counter start, m.context⟩) := by
  let Enters (p : Except ExecError LoopControl × Machine) : Prop :=
    (control.counter = header.counter ∧ ∃ x, start.toNumber = .ok x) ∧
      p = (.ok control, ⟨m.scope.push header.counter start, m.context⟩)
  show Enters (header.enter m)
  refine Exec.bind_of_reading_ok (Exec.bound_apply _ m) h fun start' _ h => ?_
  refine Exec.bind_of_reading_ok (Exec.bound_apply _ m) h fun stop _ h => ?_
  refine Exec.bind_of_reading_ok (Exec.stepBound_apply _ m) h fun step _ h => ?_
  refine Exec.bind_of_reading_ok (Exec.orValueError_apply _ m) h fun stepNumber _ h => ?_
  rw [Exec.bind_of_ok (Exec.pushVariable_apply header.counter start' m)]
  refine Exec.bind_of_reading_ok (Exec.orValueError_apply _ _) h fun x hx h => ?_
  refine Exec.bind_of_reading_ok (Exec.orValueError_apply _ _) h fun stopNumber _ h => ?_
  cases h
  refine ⟨⟨rfl, x, ?_⟩, rfl⟩
  cases hnumber : start.toNumber with
  | error e => simp [hnumber, Except.mapError] at hx
  | ok y => simpa [hnumber, Except.mapError] using hx

theorem entry_of_bounds {start stop step : Value} {x y z : Number}
    (hstart : (Exec.bound header.start m).1 = .ok start)
    (hstop : (Exec.bound header.stop m).1 = .ok stop)
    (hstep : (Exec.stepBound header.step m).1 = .ok step)
    (hx : start.toNumber = .ok x) (hy : stop.toNumber = .ok y) (hz : step.toNumber = .ok z) :
    header.entry m = .ok (start, ⟨header.counter, y, z⟩) := by
  simp [entry, hstart, hstop, hstep, hx, hy, hz, bind, Except.bind, Except.mapError]

end LoopHeader

namespace Interpreter

theorem forLoop_eq (interpreter : Interpreter) (header : LoopHeader) (body : Exec Unit) :
    interpreter.forLoop header body = header.enter >>= fun control =>
      control.iterate (interpreter.loopExhausted header.counter) body interpreter.loopBudget >>=
        fun _ => Exec.popVariable header.counter := by
  simp only [forLoop, LoopHeader.enter, bind_assoc, pure_bind]

section Entry

variable {interpreter : Interpreter} {header : LoopHeader} {body : Exec Unit} {m : Machine}

/-- A loop that is not entered fails before the first run of its body. -/
theorem forLoop_of_entry_error {e : ExecError} (h : header.entry m = .error e) :
    ∃ scope, interpreter.forLoop header body m = (.error e, ⟨scope, m.context⟩) ∧
      (scope = m.scope ∨ ∃ start, scope = m.scope.push header.counter start) := by
  obtain ⟨scope, hrun, hscope⟩ := LoopHeader.enter_of_entry_error h
  rw [forLoop_eq, Exec.bind_of_error hrun]
  exact ⟨scope, rfl, hscope⟩

theorem forLoop_of_entry_ok {start : Value} {control : LoopControl}
    (h : header.entry m = .ok (start, control)) :
    (control.counter = header.counter ∧ ∃ x, start.toNumber = .ok x) ∧
      interpreter.forLoop header body m =
        (control.iterate (interpreter.loopExhausted header.counter) body interpreter.loopBudget >>=
          fun _ => Exec.popVariable header.counter)
          ⟨m.scope.push header.counter start, m.context⟩ := by
  obtain ⟨hstart, hrun⟩ := LoopHeader.enter_of_entry_ok h
  rw [forLoop_eq, Exec.bind_of_ok hrun]
  exact ⟨hstart, rfl⟩

end Entry

/-- Once the bounds are known, a loop is its iterations over a fresh entry for the counter. -/
theorem forLoop_of_bounds (interpreter : Interpreter) {header : LoopHeader} (body : Exec Unit)
    {m : Machine} {start stop step : Value} {x y z : Number}
    (hstart : (Exec.bound header.start m).1 = .ok start)
    (hstop : (Exec.bound header.stop m).1 = .ok stop)
    (hstep : (Exec.stepBound header.step m).1 = .ok step)
    (hx : start.toNumber = .ok x) (hy : stop.toNumber = .ok y) (hz : step.toNumber = .ok z) :
    interpreter.forLoop header body m =
      (LoopControl.iterate ⟨header.counter, y, z⟩ (interpreter.loopExhausted header.counter) body
        interpreter.loopBudget >>= fun _ => Exec.popVariable header.counter)
        ⟨m.scope.push header.counter start, m.context⟩ := by
  exact (forLoop_of_entry_ok (LoopHeader.entry_of_bounds hstart hstop hstep hx hy hz)).2

theorem balanced_forLoop (interpreter : Interpreter) (header : LoopHeader) {body : Exec Unit}
    (hbody : Exec.Balanced body) : Exec.Balanced (interpreter.forLoop header body) := by
  intro m m' h name
  cases hentry : header.entry m with
  | error e =>
      obtain ⟨scope, hrun, -⟩ := @forLoop_of_entry_error interpreter header body m e hentry
      rw [hrun] at h
      cases h
  | ok entered =>
      obtain ⟨⟨hcounter, x, hx⟩, hrun⟩ := @forLoop_of_entry_ok interpreter header body m _ _ hentry
      rw [hrun, ← hcounter] at h
      obtain ⟨_, last, hiterate, hpop⟩ := Exec.bind_eq_ok_iff.mp h
      obtain ⟨⟨value, hlast⟩, hothers⟩ := LoopControl.iterate_values hbody
        (NamedStacks.values_push_self ..) hx hiterate
      rw [Exec.popVariable_of_values hlast] at hpop
      cases hpop
      rw [NamedStacks.values_insert]
      split
      · next hname => rw [hname]
      · next hname => rw [hothers name hname, NamedStacks.values_push, if_neg hname]

theorem balanced_runNodes (interpreter : Interpreter) (nodes : List Node) :
    Exec.Balanced (interpreter.runNodes nodes) := by
  induction nodes using Node.listInduction with
  | nil =>
      rw [runNodes]
      exact Exec.balanced_pure
  | text content rest ih =>
      rw [runNodes, runNode]
      exact (Exec.balanced_write content).bind ih
  | echo elements rest ih =>
      rw [runNodes, runNode]
      exact (Exec.balanced_evaluate _).bind ih
  | forLoop header body rest ihBody ihRest =>
      rw [runNodes, runNode]
      exact (balanced_forLoop interpreter header ihBody).bind ihRest

end Interpreter

end TagTemplate
