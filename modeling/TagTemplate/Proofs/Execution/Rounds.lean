import TagTemplate.Proofs.Execution.Termination

/-!
The rounds of a loop.

`Interpreter.watchLoop` runs a loop and records the machine at the start of each run of its body;
otherwise it is the loop (`Interpreter.watchLoop_run`).  Since bodies are balanced, the entry on top
of the stack of the counter is always the loop's own, and it stays a number: each round begins with
such an entry, and ends the loop or adds the step to it (`LoopControl.Rounds`).
-/

namespace TagTemplate

/-! ## Recorded machines -/

namespace Traced

variable {ω α β : Type} {m mid : Machine}

/-- Records the machine as it is. -/
def note : Traced Machine Unit := ⟨fun m => some (.ok (), m, [m])⟩

theorem lift_run (x : Exec α) (m : Machine) :
    (liftM x : Traced ω α).run m = some ((x m).1, (x m).2, []) := rfl

theorem bind_lift_of_ok {x : Exec α} {f : α → Traced ω β} {a : α} (hx : x m = (.ok a, mid)) :
    ((liftM x : Traced ω α) >>= f).run m = (f a).run mid := by
  have hrun : (liftM x : Traced ω α).run m = some (.ok a, mid, []) := by
    rw [lift_run, hx]
  cases hf : (f a).run mid with
  | none =>
      change (bind _ f).run m = none
      simp only [bind, hrun, Option.bind_eq_bind, Option.bind_some, hf, Option.bind_none]
  | some ended =>
      obtain ⟨result, m', after⟩ := ended
      exact bind_of_ok hrun hf

theorem bind_lift_of_error {x : Exec α} {f : α → Traced ω β} {e : ExecError}
    (hx : x m = (.error e, mid)) :
    ((liftM x : Traced ω α) >>= f).run m = some (.error e, mid, []) := by
  have hrun : (liftM x : Traced ω α).run m = some (.error e, mid, []) := by
    rw [lift_run, hx]
  exact bind_of_error hrun

theorem bind_note {f : Unit → Traced Machine β} {ended : Except ExecError β × Machine}
    {noted : List Machine} (hf : (f ()).run m = some (ended.1, ended.2, noted)) :
    (note >>= f).run m = some (ended.1, ended.2, m :: noted) := by
  have hnote : note.run m = some (.ok (), m, [m]) := rfl
  exact bind_of_ok hnote hf

end Traced

namespace LoopControl

/-- Iterates, and records the machine at the start of each run of the body. -/
def watch (control : LoopControl) (exhausted : ExecError) (body : Exec Unit) :
    Nat → Traced Machine Unit
  | 0 => do
      if ← control.isOver then pure () else (throw exhausted : Exec Unit)
  | budget + 1 => do
      if ← control.isOver then pure ()
      else do
        Traced.note
        body
        if ← control.advance then watch control exhausted body budget else pure ()

/-- The counter has the value `top`, a number not past the end. -/
structure Inside (control : LoopControl) (below : List Value) (m : Machine) (top : Value)
    (x : Number) : Prop where
  values : m.scope.values control.counter = top :: below
  number : top.toNumber = .ok x
  covered : x.order control.stop ≠ control.past

/-- Gives the counter its next value. -/
def turn (control : LoopControl) (below : List Value) (x : Number) (m : Machine) : Machine :=
  ⟨⟨m.scope.byName.insert control.counter
    (.ofNumber (Number.apply .add x control.step) :: below)⟩, m.context⟩

/--
What becomes of a counter with the value `top` within a number of rounds: the machines at which the
body is run, and the end of the iterations.
-/
inductive Rounds (control : LoopControl) (exhausted : ExecError) (body : Exec Unit)
    (below : List Value) :
    Nat → Value → Machine → List Machine → Except ExecError Unit × Machine → Prop
  | past {budget : Nat} {top : Value} {m : Machine} {x : Number}
      (values : m.scope.values control.counter = top :: below) (number : top.toNumber = .ok x)
      (passed : x.order control.stop = control.past) :
      Rounds control exhausted body below budget top m [] (.ok (), m)
  | exhausted {top : Value} {m : Machine} {x : Number} (inside : control.Inside below m top x) :
      Rounds control exhausted body below 0 top m [] (.error exhausted, m)
  | fails {budget : Nat} {top : Value} {m m' : Machine} {x : Number} {e : ExecError}
      (inside : control.Inside below m top x) (run : body m = (.error e, m')) :
      Rounds control exhausted body below (budget + 1) top m [m] (.error e, m')
  | blocked {budget : Nat} {top : Value} {m mid : Machine} {x : Number}
      (inside : control.Inside below m top x) (run : body m = (.ok (), mid))
      (back : (Number.apply .add x control.step).order x = control.past.swap) :
      Rounds control exhausted body below (budget + 1) top m [m] (.ok (), mid)
  | next {budget : Nat} {top : Value} {m mid : Machine} {x : Number} {starts : List Machine}
      {ended : Except ExecError Unit × Machine}
      (inside : control.Inside below m top x) (run : body m = (.ok (), mid))
      (forth : (Number.apply .add x control.step).order x ≠ control.past.swap)
      (rest : Rounds control exhausted body below budget
        (.ofNumber (Number.apply .add x control.step)) (control.turn below x mid) starts ended) :
      Rounds control exhausted body below (budget + 1) top m (m :: starts) ended

section Watch

variable {control : LoopControl} {exhausted : ExecError} {body : Exec Unit} {budget : Nat}
  {m : Machine}

theorem watch_of_over (h : control.isOver m = (.ok true, m)) :
    (control.watch exhausted body budget).run m = some (.ok (), m, []) := by
  cases budget <;> exact Traced.bind_lift_of_ok h

theorem watch_zero_of_on (h : control.isOver m = (.ok false, m)) :
    (control.watch exhausted body 0).run m = some (.error exhausted, m, []) :=
  Traced.bind_lift_of_ok h

theorem watch_succ_of_error (h : control.isOver m = (.ok false, m)) {e : ExecError} {m' : Machine}
    (hrun : body m = (.error e, m')) :
    (control.watch exhausted body (budget + 1)).run m = some (.error e, m', [m]) := by
  refine (Traced.bind_lift_of_ok h).trans ?_
  exact @Traced.bind_note _ _ _ (.error e, m') _ (Traced.bind_lift_of_error hrun)

theorem watch_succ_of_ok (h : control.isOver m = (.ok false, m)) {mid mid' : Machine}
    {moved : Bool} (hrun : body m = (.ok (), mid))
    (hadvance : control.advance mid = (.ok moved, mid'))
    {ended : Except ExecError Unit × Machine} {starts : List Machine}
    (hrest : (if moved then control.watch exhausted body budget else pure ()).run mid' =
      some (ended.1, ended.2, starts)) :
    (control.watch exhausted body (budget + 1)).run m = some (ended.1, ended.2, m :: starts) := by
  refine (Traced.bind_lift_of_ok h).trans (Traced.bind_note ?_)
  exact (Traced.bind_lift_of_ok hrun).trans ((Traced.bind_lift_of_ok hadvance).trans hrest)

end Watch

/-- From a numeric value of its own on, a loop only ever sees such values. -/
theorem exists_rounds {control : LoopControl} {exhausted : ExecError} {body : Exec Unit}
    (hbody : Exec.Balanced body) (budget : Nat) {m : Machine} {top : Value} {below : List Value}
    {x : Number} (h : m.scope.values control.counter = top :: below) (hx : top.toNumber = .ok x) :
    ∃ starts,
      (control.watch exhausted body budget).run m =
        some ((control.iterate exhausted body budget m).1,
          (control.iterate exhausted body budget m).2, starts) ∧
      control.Rounds exhausted body below budget top m starts
        (control.iterate exhausted body budget m) := by
  induction budget generalizing m top x with
  | zero =>
      have hover := isOver_of_values h hx
      by_cases hpast : x.order control.stop = control.past
      · simp only [hpast, beq_self_eq_true] at hover
        rw [iterate_of_over exhausted body 0 hover]
        exact ⟨[], watch_of_over hover, .past h hx hpast⟩
      · rw [beq_eq_false_iff_ne.mpr hpast] at hover
        rw [iterate_zero_of_on exhausted body hover]
        exact ⟨[], watch_zero_of_on hover, .exhausted ⟨h, hx, hpast⟩⟩
  | succ budget ih =>
      have hover := isOver_of_values h hx
      by_cases hpast : x.order control.stop = control.past
      · simp only [hpast, beq_self_eq_true] at hover
        rw [iterate_of_over exhausted body (budget + 1) hover]
        exact ⟨[], watch_of_over hover, .past h hx hpast⟩
      · rw [beq_eq_false_iff_ne.mpr hpast] at hover
        have hinside : control.Inside below m top x := ⟨h, hx, hpast⟩
        rw [iterate_succ_of_on exhausted body budget hover]
        cases hrun : body m with
        | mk result mid =>
            cases result with
            | error e =>
                rw [Exec.bind_of_error hrun]
                exact ⟨[m], watch_succ_of_error hover hrun, .fails hinside hrun⟩
            | ok _ =>
                rw [Exec.bind_of_ok hrun]
                have hmid : mid.scope.values control.counter = top :: below := by
                  rw [hbody m mid hrun, h]
                have hadvance := advance_of_values hmid hx
                by_cases hback :
                    (Number.apply .add x control.step).order x = control.past.swap
                · rw [if_pos hback] at hadvance
                  rw [Exec.bind_of_ok hadvance]
                  have hstays : (pure () : Traced Machine Unit).run mid =
                      some (.ok (), mid, []) := rfl
                  exact ⟨[m], @watch_succ_of_ok _ _ _ _ _ hover _ _ _ hrun hadvance (.ok (), mid) _
                    hstays, .blocked hinside hrun hback⟩
                · rw [if_neg hback] at hadvance
                  rw [Exec.bind_of_ok hadvance]
                  obtain ⟨starts, hwatch, hrounds⟩ := @ih (control.turn below x mid) _ _
                    (NamedStacks.values_insert_self ..) (Value.toNumber_ofNumber _)
                  exact ⟨m :: starts, watch_succ_of_ok hover hrun hadvance hwatch,
                    .next hinside hrun hback hrounds⟩

end LoopControl

/-! ## Whole loops -/

namespace Interpreter

/-- Runs a loop, and records the machine at the start of each run of its body. -/
def watchLoop (interpreter : Interpreter) (header : LoopHeader) (body : Exec Unit) :
    Traced Machine Unit := do
  let control ← header.enter
  control.watch (interpreter.loopExhausted header.counter) body interpreter.loopBudget
  Exec.popVariable header.counter

/-- The machines at which a loop runs its body. -/
def rounds (interpreter : Interpreter) (header : LoopHeader) (body : Exec Unit) (m : Machine) :
    List Machine :=
  ((interpreter.watchLoop header body).run m).elim [] fun ended => ended.2.2

variable {interpreter : Interpreter} {header : LoopHeader} {body : Exec Unit} {m : Machine}

theorem watchLoop_of_entry_error {e : ExecError} (h : header.entry m = .error e) :
    (interpreter.watchLoop header body).run m =
      some ((interpreter.forLoop header body m).1, (interpreter.forLoop header body m).2, []) := by
  obtain ⟨scope, hrun, -⟩ := LoopHeader.enter_of_entry_error h
  rw [forLoop_eq, Exec.bind_of_error hrun]
  exact Traced.bind_lift_of_error hrun

/-- A loop that fails does so in its iterations: its counter can always be popped after them. -/
theorem watchLoop_of_entry_ok (hbody : Exec.Balanced body) {start : Value} {control : LoopControl}
    (h : header.entry m = .ok (start, control)) :
    ∃ starts ended,
      (interpreter.watchLoop header body).run m =
        some ((interpreter.forLoop header body m).1, (interpreter.forLoop header body m).2,
          starts) ∧
      control.Rounds (interpreter.loopExhausted header.counter) body
        (m.scope.values header.counter) interpreter.loopBudget start
        ⟨m.scope.push header.counter start, m.context⟩ starts ended ∧
      ∀ e, (interpreter.forLoop header body m).1 = .error e →
        interpreter.forLoop header body m = ended := by
  obtain ⟨⟨hcounter, x, hx⟩, henter⟩ := LoopHeader.enter_of_entry_ok h
  obtain ⟨-, hloop⟩ := @forLoop_of_entry_ok interpreter header body m _ _ h
  have hrun : (interpreter.watchLoop header body).run m = _ := Traced.bind_lift_of_ok henter
  rw [hrun, hloop, ← hcounter]
  have htop := NamedStacks.values_push_self m.scope control.counter start
  obtain ⟨starts, hwatch, hrounds⟩ := @LoopControl.exists_rounds control
    (interpreter.loopExhausted control.counter) body hbody interpreter.loopBudget
    ⟨m.scope.push control.counter start, m.context⟩ start _ x htop hx
  cases hiterate : control.iterate (interpreter.loopExhausted control.counter) body
      interpreter.loopBudget ⟨m.scope.push control.counter start, m.context⟩ with
  | mk result m' =>
      rw [hiterate] at hwatch hrounds
      cases result with
      | error e =>
          rw [Exec.bind_of_error hiterate]
          exact ⟨starts, (.error e, m'), Traced.bind_of_error hwatch, hrounds, fun _ _ => rfl⟩
      | ok _ =>
          obtain ⟨⟨last, hlast⟩, -⟩ := LoopControl.iterate_values hbody htop hx hiterate
          have hpop := Exec.popVariable_of_values hlast
          rw [Exec.bind_of_ok hiterate, hpop]
          refine ⟨starts, (.ok (), m'), ?_, hrounds, by simp⟩
          rw [← List.append_nil starts]
          refine Traced.bind_of_ok hwatch ?_
          rw [Traced.lift_run, hpop]

/-- To record the rounds of a loop changes nothing. -/
theorem watchLoop_run (hbody : Exec.Balanced body) :
    (interpreter.watchLoop header body).run m =
      some ((interpreter.forLoop header body m).1, (interpreter.forLoop header body m).2,
        interpreter.rounds header body m) := by
  cases h : header.entry m with
  | error e =>
      have hwatch := @watchLoop_of_entry_error interpreter header body m e h
      rw [rounds, hwatch]
      rfl
  | ok entered =>
      obtain ⟨starts, ended, hwatch, -⟩ :=
        @watchLoop_of_entry_ok interpreter header body m hbody _ _ h
      rw [rounds, hwatch]
      rfl

theorem watchLoop_runNodes (interpreter : Interpreter) (header : LoopHeader) (body : List Node)
    (m : Machine) :
    (interpreter.watchLoop header (interpreter.runNodes body)).run m =
      some ((interpreter.runNode (.forLoop header body) m).1,
        (interpreter.runNode (.forLoop header body) m).2,
        interpreter.rounds header (interpreter.runNodes body) m) := by
  rw [runNode]
  exact watchLoop_run (interpreter.balanced_runNodes body)

theorem rounds_of_entry_error {e : ExecError} (h : header.entry m = .error e) :
    interpreter.rounds header body m = [] := by
  rw [rounds, watchLoop_of_entry_error h]
  rfl

theorem rounds_of_entry_ok (hbody : Exec.Balanced body) {start : Value} {control : LoopControl}
    (h : header.entry m = .ok (start, control)) :
    ∃ ended,
      control.Rounds (interpreter.loopExhausted header.counter) body
        (m.scope.values header.counter) interpreter.loopBudget start
        ⟨m.scope.push header.counter start, m.context⟩ (interpreter.rounds header body m) ended ∧
      ∀ e, (interpreter.forLoop header body m).1 = .error e →
        interpreter.forLoop header body m = ended := by
  obtain ⟨starts, ended, hwatch, hrounds, hended⟩ :=
    @watchLoop_of_entry_ok interpreter header body m hbody _ _ h
  have hstarts : interpreter.rounds header body m = starts := by
    rw [rounds, hwatch]
    rfl
  rw [hstarts]
  exact ⟨ended, hrounds, hended⟩

end Interpreter

end TagTemplate
