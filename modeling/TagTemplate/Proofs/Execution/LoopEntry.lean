import TagTemplate.Proofs.Execution.Rounds

/-!
Loops fail before their first round or in their body.

`LoopHeader.faults` lists what is wrong with the bounds of a loop in the order in which it is
reported.  A loop with a fault reports the first one, and has neither run its body nor touched the
context.  A loop without faults fails only where its body does, or at the limit: its own steps find
a number on top of the stack of the counter in every round.
-/

namespace TagTemplate

/-! ## Faults of a header -/

namespace LoopHeader

/-- Why a bound has no value. -/
def unresolved? (bound : Except ExecError Value) : Option ExecError :=
  match bound with
  | .ok _ => none
  | .error e => some e

/-- Why the value of a bound is not a number. -/
def notNumeric? (bound : Except ExecError Value) : Option ExecError :=
  match bound with
  | .ok value =>
      match value.toNumber with
      | .ok _ => none
      | .error e => some (.value e)
  | .error _ => none

/-- All that is wrong with the bounds: first those without a value, then those without a number. -/
def faults (header : LoopHeader) (m : Machine) : List ExecError :=
  let start := (Exec.bound header.start m).1
  let stop := (Exec.bound header.stop m).1
  let step := (Exec.stepBound header.step m).1
  [unresolved? start, unresolved? stop, unresolved? step,
    notNumeric? step, notNumeric? start, notNumeric? stop].filterMap id

/-- Entering stops at the first fault. -/
theorem head?_faults_eq_some_iff {header : LoopHeader} {m : Machine} {e : ExecError} :
    (header.faults m).head? = some e ↔ header.entry m = .error e := by
  unfold faults entry
  cases (Exec.bound header.start m).1 with
  | error e => simp [unresolved?, bind, Except.bind]
  | ok start =>
      cases (Exec.bound header.stop m).1 with
      | error e => simp [unresolved?, bind, Except.bind]
      | ok stop =>
          cases (Exec.stepBound header.step m).1 with
          | error e => simp [unresolved?, bind, Except.bind]
          | ok step =>
              -- all values are there: the numbers are asked for in another order
              cases hz : step.toNumber <;> cases hx : start.toNumber <;>
                cases hy : stop.toNumber <;>
                simp [unresolved?, notNumeric?, hx, hy, hz, bind, Except.bind, Except.mapError]

theorem entry_of_faults_eq_nil {header : LoopHeader} {m : Machine} (h : header.faults m = []) :
    ∃ start control, header.entry m = .ok (start, control) := by
  cases hentry : header.entry m with
  | error e =>
      have hhead := head?_faults_eq_some_iff.mpr hentry
      simp [h] at hhead
  | ok entered => exact ⟨entered.1, entered.2, rfl⟩

end LoopHeader

/-! ## Failures of the rounds -/

/-- The rounds fail in the last run of the body, or because there are too many. -/
theorem LoopControl.Rounds.failure {control : LoopControl} {exhausted e : ExecError}
    {body : Exec Unit} {below : List Value} {budget : Nat} {top : Value} {m : Machine}
    {starts : List Machine} {ended : Except ExecError Unit × Machine}
    (h : control.Rounds exhausted body below budget top m starts ended)
    (he : ended.1 = .error e) :
    (∃ last, starts.getLast? = some last ∧ body last = ended) ∨
      (e = exhausted ∧ starts.length = budget) := by
  induction h with
  | past values number passed => cases he
  | exhausted inside =>
      cases he
      exact .inr ⟨rfl, rfl⟩
  | @fails _ _ m _ _ _ inside run => exact .inl ⟨m, rfl, run⟩
  | blocked inside run back => cases he
  | next inside run forth rest ih =>
      rcases ih he with ⟨last, hlast, hrun⟩ | ⟨hexhausted, hlength⟩
      · exact .inl ⟨last, by simp [List.getLast?_cons, hlast], hrun⟩
      · exact .inr ⟨hexhausted, by simp [hlength]⟩

namespace Interpreter

/--
A loop with faulty bounds reports the first fault, without a run of its body and with its context
as it was.  Otherwise a loop that fails has failed in the last run of its body or has run it as
often as the limit allows.
-/
theorem runNode_forLoop_failure (interpreter : Interpreter) (header : LoopHeader)
    (body : List Node) (m : Machine) :
    let loop := interpreter.runNode (.forLoop header body) m
    let starts := interpreter.rounds header (interpreter.runNodes body) m
    let cap := interpreter.maxLoopIterations
    (interpreter.watchLoop header (interpreter.runNodes body)).run m =
      some (loop.1, loop.2, starts) ∧
    (∀ e, (header.faults m).head? = some e →
      starts = [] ∧ loop.1 = .error e ∧ loop.2.context = m.context) ∧
    (header.faults m = [] → ∀ e, loop.1 = .error e →
      (∃ last, starts.getLast? = some last ∧ interpreter.runNodes body last = loop) ∨
      (cap ≠ 0 ∧ e = .loopLimit header.counter cap ∧ starts.length = cap.toNat) ∨
      (cap = 0 ∧ e = .endlessLoop header.counter ∧ starts.length = UInt64.size)) := by
  intro loop starts cap
  have hloop : loop = interpreter.forLoop header (interpreter.runNodes body) m := by
    simp only [loop, runNode]
  refine ⟨interpreter.watchLoop_runNodes header body m, ?_, ?_⟩
  · intro e hfault
    have hentry := LoopHeader.head?_faults_eq_some_iff.mp hfault
    obtain ⟨scope, hrun, -⟩ :=
      @forLoop_of_entry_error interpreter header (interpreter.runNodes body) m e hentry
    rw [hloop, hrun]
    exact ⟨rounds_of_entry_error hentry, rfl, rfl⟩
  · intro hfaults e he
    obtain ⟨start, control, hentry⟩ := LoopHeader.entry_of_faults_eq_nil hfaults
    obtain ⟨ended, hrounds, hended⟩ := @rounds_of_entry_ok interpreter header
      (interpreter.runNodes body) m (interpreter.balanced_runNodes body) start control hentry
    rw [hloop] at he ⊢
    have hlast := hended e he
    rw [hlast] at he ⊢
    rcases hrounds.failure he with hbody | ⟨hexhausted, hlength⟩
    · exact .inl hbody
    · right
      unfold loopExhausted at hexhausted
      unfold loopBudget at hlength
      by_cases hcap : cap = 0
      · rw [if_pos hcap] at hexhausted hlength
        exact .inr ⟨hcap, hexhausted, hlength⟩
      · rw [if_neg hcap] at hexhausted hlength
        exact .inl ⟨hcap, hexhausted, hlength⟩

-- the text of the step is asked for before that of the start; two rounds are not enough up to 5
theorem runNode_forLoop_failure_step_and_limit :
    let interpreter : Interpreter := ⟨.standard, 2⟩
    let faulty : LoopHeader := ⟨"i", .str "one", .int 5, some (.str "two")⟩
    let sound : LoopHeader := ⟨"i", .int 1, .int 5, none⟩
    let m : Machine := ⟨.empty, .buffered⟩
    let starts := fun header => interpreter.rounds header (interpreter.runNodes [.text "a"]) m
    let loop := fun header => interpreter.runNode (.forLoop header [.text "a"]) m
    (faulty.faults m = [.value (.notNumeric "two"), .value (.notNumeric "one")] ∧
      starts faulty = [] ∧ (loop faulty).1 = .error (.value (.notNumeric "two")) ∧
      (loop faulty).2.context = m.context) ∧
    (sound.faults m = [] ∧ (loop sound).1 = .error (.loopLimit "i" 2) ∧
      ((∃ last, (starts sound).getLast? = some last ∧
          interpreter.runNodes [.text "a"] last = loop sound) ∨
        (starts sound).length = 2)) := by
  intro interpreter faulty sound m starts loop
  have hfaults : faulty.faults m = [.value (.notNumeric "two"), .value (.notNumeric "one")] := by
    decide
  have hsound : sound.faults m = [] := by decide
  have hlimit : (loop sound).1 = .error (.loopLimit "i" 2) := by decide +kernel
  refine ⟨⟨hfaults, ?_⟩, hsound, hlimit, ?_⟩
  · apply (runNode_forLoop_failure interpreter faulty [.text "a"] m).2.1
    rw [hfaults]
    rfl
  · rcases (runNode_forLoop_failure interpreter sound [.text "a"] m).2.2 hsound _ hlimit with
      hbody | ⟨-, -, hlength⟩ | ⟨hcap, -, -⟩
    · exact .inl hbody
    · exact .inr hlength
    · exact absurd hcap (by decide)

end Interpreter

end TagTemplate
