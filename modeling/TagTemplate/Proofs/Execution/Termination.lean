import TagTemplate.Proofs.Execution.Invariant

/-!
Runs under a limit come to an end.

A traced run is given fuel, which every call hands on less one, and is undefined if that does not
last.  Its loops go round until they are over or have counted up to the limit, with no other bound,
and it records how often each of them ran its body.  Under a limit every traced run has an end, the
same for all larger amounts of fuel, and no loop runs its body more often than the limit says
(`Interpreter.endsTraced_runNodes`).
-/

namespace TagTemplate

/-! ## Records of loops -/

/-- One run of a loop: for each time that it ran its body, the runs of the loops in there. -/
structure LoopRun where
  bodies : List (List LoopRun)

/-- The loop ran its body `limit` times at most, and so did the loops in its body. -/
inductive LoopRun.Within (limit : Nat) : LoopRun → Prop
  | intro {run : LoopRun} (count : run.bodies.length ≤ limit)
      (inner : ∀ body ∈ run.bodies, ∀ nested ∈ body, Within limit nested) : Within limit run

/-- A body was run `count` times at most, each time with all its loops within the limit. -/
def LoopRun.AtMost (limit count : Nat) (bodies : List (List LoopRun)) : Prop :=
  bodies.length ≤ count ∧ ∀ body ∈ bodies, ∀ run ∈ body, run.Within limit

theorem LoopRun.atMost_nil (limit count : Nat) : AtMost limit count [] :=
  ⟨Nat.zero_le count, by simp⟩

theorem LoopRun.AtMost.cons {limit count : Nat} {body : List LoopRun} {bodies : List (List LoopRun)}
    (h : AtMost limit count bodies) (hbody : ∀ run ∈ body, run.Within limit) :
    AtMost limit (count + 1) (body :: bodies) :=
  ⟨Nat.succ_le_succ h.1, List.forall_mem_cons.mpr ⟨hbody, h.2⟩⟩

/-! ## Traced programs -/

/-- A program that may have no end, and records what it does. -/
structure Traced (ω α : Type) where
  run : Machine → Option (Except ExecError α × Machine × List ω)

namespace Traced

variable {ω ω' α β : Type}

def undefined : Traced ω α := ⟨fun _ => none⟩

/-- Goes on where the first program ends, unless that fails. -/
def bind (x : Traced ω α) (f : α → Traced ω β) : Traced ω β where
  run m := do
    match ← x.run m with
    | (.error e, m, before) => some (.error e, m, before)
    | (.ok a, m, before) =>
        let (result, m, after) ← (f a).run m
        some (result, m, before ++ after)

instance : Monad (Traced ω) where
  pure a := ⟨fun m => some (.ok a, m, [])⟩
  bind := bind

instance : MonadLift Exec (Traced ω) where
  monadLift x := ⟨fun m => some ((x m).1, (x m).2, [])⟩

/-- Makes one entry of all that is recorded, also where the program fails. -/
def record (entry : List ω → ω') (x : Traced ω α) : Traced ω' α where
  run m := do
    let (result, m, entries) ← x.run m
    some (result, m, [entry entries])

theorem bind_of_error {x : Traced ω α} {f : α → Traced ω β} {m m' : Machine} {e : ExecError}
    {before : List ω} (hx : x.run m = some (.error e, m', before)) :
    (x >>= f).run m = some (.error e, m', before) := by
  change (bind x f).run m = _
  simp only [bind, hx]
  rfl

theorem bind_of_ok {x : Traced ω α} {f : α → Traced ω β} {m mid m' : Machine} {a : α}
    {result : Except ExecError β} {before after : List ω}
    (hx : x.run m = some (.ok a, mid, before)) (hf : (f a).run mid = some (result, m', after)) :
    (x >>= f).run m = some (result, m', before ++ after) := by
  change (bind x f).run m = _
  simp only [bind, hx, Option.bind_eq_bind, Option.bind_some, hf]

end Traced

namespace Interpreter

mutual

def traceNodes (interpreter : Interpreter) : Nat → List Node → Traced LoopRun Unit
  | 0, _ => .undefined
  | _ + 1, [] => pure ()
  | fuel + 1, node :: rest => do
      interpreter.traceNode fuel node
      interpreter.traceNodes fuel rest

def traceNode (interpreter : Interpreter) : Nat → Node → Traced LoopRun Unit
  | 0, _ => .undefined
  | _ + 1, .text content => Exec.write content
  | _ + 1, .echo elements => Exec.echo interpreter.functions elements
  | fuel + 1, .forLoop header body => do
      let control ← header.enter
      let exhausted := .loopLimit header.counter interpreter.maxLoopIterations
      (interpreter.traceRounds fuel control exhausted body 0).record .mk
      Exec.popVariable header.counter

/-- Goes on with a loop that has run its body `count` times. -/
def traceRounds (interpreter : Interpreter) :
    Nat → LoopControl → ExecError → List Node → Nat → Traced (List LoopRun) Unit
  | 0, _, _, _, _ => .undefined
  | fuel + 1, control, exhausted, body, count => do
      if ← control.isOver then pure ()
      else if interpreter.maxLoopIterations ≠ 0 ∧
          count = interpreter.maxLoopIterations.toNat then
        (throw exhausted : Exec Unit)
      else do
        (interpreter.traceNodes fuel body).record id
        if ← control.advance then
          interpreter.traceRounds fuel control exhausted body (count + 1)
        else pure ()

end

def trace (interpreter : Interpreter) (fuel : Nat) (document : Document) (context : Context) :
    Option ((Except ExecError Unit × Context) × List LoopRun) := do
  let (result, m, loops) ← (interpreter.traceNodes fuel document.children).run ⟨.empty, context⟩
  some ((result, m.context), loops)

end Interpreter

/-! ## Ends of traced programs -/

/-- From some amount of fuel on, the trace ends as the program does, and its record is in `P`. -/
def Settles {ω α : Type} (trace : Nat → Traced ω α) (x : Exec α) (P : List ω → Prop) : Prop :=
  ∀ m, ∃ fuel entries, P entries ∧
    ∀ more, fuel ≤ more → (trace more).run m = some ((x m).1, (x m).2, entries)

section Settles

variable {ω α β : Type} {P Q R : List ω → Prop}

theorem settles_lift (x : Exec α) (hP : P []) :
    Settles (fun _ => (liftM x : Traced ω α)) x P :=
  fun _ => ⟨0, [], hP, fun _ _ => rfl⟩

theorem Settles.succ {trace trace' : Nat → Traced ω α} {x : Exec α} (h : Settles trace x P)
    (hsucc : ∀ fuel, trace' (fuel + 1) = trace fuel) : Settles trace' x P := by
  intro m
  obtain ⟨fuel, entries, hP, hends⟩ := h m
  refine ⟨fuel + 1, entries, hP, fun more hmore => ?_⟩
  obtain ⟨extra, rfl⟩ := Nat.exists_eq_add_of_le hmore
  rw [show fuel + 1 + extra = fuel + extra + 1 by omega, hsucc]
  exact hends _ (Nat.le_add_right fuel extra)

theorem Settles.record {ω' : Type} {entry : List ω → ω'} {S : List ω' → Prop}
    {trace : Nat → Traced ω α} {x : Exec α} (h : Settles trace x P)
    (hentry : ∀ entries, P entries → S [entry entries]) :
    Settles (fun fuel => (trace fuel).record entry) x S := by
  intro m
  obtain ⟨fuel, entries, hP, hends⟩ := h m
  refine ⟨fuel, [entry entries], hentry entries hP, fun more hmore => ?_⟩
  simp only [Traced.record, hends more hmore]
  rfl

/-- Two amounts of fuel that suffice for the parts suffice for the whole together. -/
theorem Settles.bind {trace : Nat → Traced ω α} {x : Exec α} {next : Nat → α → Traced ω β}
    {f : α → Exec β} (hx : Settles trace x P) (hf : ∀ a, Settles (fun fuel => next fuel a) (f a) Q)
    (hstop : ∀ entries, P entries → R entries)
    (happend : ∀ before after, P before → Q after → R (before ++ after)) :
    Settles (fun fuel => trace fuel >>= next fuel) (x >>= f) R := by
  intro m
  obtain ⟨fuel, before, hP, hends⟩ := hx m
  cases hrun : x m with
  | mk result mid =>
      rw [hrun] at hends
      cases result with
      | error e =>
          refine ⟨fuel, before, hstop before hP, fun more hmore => ?_⟩
          rw [Exec.bind_of_error hrun]
          exact Traced.bind_of_error (hends more hmore)
      | ok a =>
          obtain ⟨fuel', after, hQ, hends'⟩ := hf a mid
          refine ⟨max fuel fuel', before ++ after, happend before after hP hQ, fun more hmore => ?_⟩
          rw [Exec.bind_of_ok hrun]
          rw [Nat.max_le] at hmore
          exact Traced.bind_of_ok (hends more hmore.1) (hends' more hmore.2)

theorem settles_pure (a : α) (hP : P []) : Settles (fun _ => (pure a : Traced ω α)) (pure a) P :=
  settles_lift (pure a) hP

theorem settles_lift_bind (x : Exec α) {next : Nat → α → Traced ω β} {f : α → Exec β}
    (hP : P []) (hf : ∀ a, Settles (fun fuel => next fuel a) (f a) P) :
    Settles (fun fuel => liftM x >>= next fuel) (x >>= f) P := by
  refine Settles.bind (settles_lift x (P := (· = [])) rfl) hf ?_ ?_
  · rintro _ rfl
    exact hP
  · rintro _ after rfl hafter
    exact hafter

end Settles

/-! ## Loops and nodes -/

namespace Interpreter

variable {interpreter : Interpreter}

/-- The traced run of the nodes ends as the run does, with all loops within the limit. -/
def EndsTraced (interpreter : Interpreter) (trace : Nat → Traced LoopRun Unit) (x : Exec Unit) :
    Prop :=
  Settles trace x fun loops => ∀ run ∈ loops, run.Within interpreter.maxLoopIterations.toNat

theorem EndsTraced.bind {first second : Nat → Traced LoopRun Unit} {x y : Exec Unit}
    (hx : interpreter.EndsTraced first x) (hy : interpreter.EndsTraced second y) :
    interpreter.EndsTraced (fun fuel => first fuel >>= fun _ => second fuel)
      (x >>= fun _ => y) :=
  Settles.bind hx (fun _ => hy) (fun _ h => h) fun _ _ hbefore hafter =>
    List.forall_mem_append.mpr ⟨hbefore, hafter⟩

section Limited

variable (hlimit : interpreter.maxLoopIterations ≠ 0)

include hlimit

/-- The rounds of a loop end because they are counted, whatever happens to its counter. -/
theorem settles_traceRounds {control : LoopControl} {exhausted : ExecError} {body : List Node}
    (hbody : interpreter.EndsTraced (fun fuel => interpreter.traceNodes fuel body)
      (interpreter.runNodes body))
    {remaining count : Nat} (hcount : count + remaining = interpreter.maxLoopIterations.toNat) :
    Settles (fun fuel => interpreter.traceRounds fuel control exhausted body count)
      (control.iterate exhausted (interpreter.runNodes body) remaining)
      (LoopRun.AtMost interpreter.maxLoopIterations.toNat remaining) := by
  induction remaining generalizing count with
  | zero =>
      have hspent : interpreter.maxLoopIterations ≠ 0 ∧
          count = interpreter.maxLoopIterations.toNat := ⟨hlimit, hcount⟩
      refine Settles.succ (settles_lift_bind control.isOver (LoopRun.atMost_nil ..) fun past => ?_)
        fun fuel => by rw [traceRounds]
      cases past with
      | true => exact settles_pure () (LoopRun.atMost_nil ..)
      | false =>
          simp only [Bool.false_eq_true, if_false, if_pos hspent]
          exact settles_lift (throw exhausted) (LoopRun.atMost_nil ..)
  | succ remaining ih =>
      have hspent : ¬(interpreter.maxLoopIterations ≠ 0 ∧
          count = interpreter.maxLoopIterations.toNat) := by omega
      refine Settles.succ (settles_lift_bind control.isOver (LoopRun.atMost_nil ..) fun past => ?_)
        fun fuel => by rw [traceRounds]
      cases past with
      | true => exact settles_pure () (LoopRun.atMost_nil ..)
      | false =>
          simp only [Bool.false_eq_true, if_false, if_neg hspent]
          have hround : Settles (fun fuel => (interpreter.traceNodes fuel body).record id)
              (interpreter.runNodes body) fun bodies => ∃ loops, bodies = [loops] ∧
                ∀ run ∈ loops, run.Within interpreter.maxLoopIterations.toNat :=
            hbody.record fun loops hloops => ⟨loops, rfl, hloops⟩
          have hnext : ∀ moved : Bool, Settles
              (fun fuel => if moved then
                interpreter.traceRounds fuel control exhausted body (count + 1) else pure ())
              (if moved then control.iterate exhausted (interpreter.runNodes body) remaining
                else pure ())
              (LoopRun.AtMost interpreter.maxLoopIterations.toNat remaining) := by
            intro moved
            cases moved with
            | true => exact ih (by omega)
            | false => exact settles_pure () (LoopRun.atMost_nil ..)
          refine hround.bind
            (fun _ => settles_lift_bind control.advance (LoopRun.atMost_nil ..) hnext) ?_ ?_
          · rintro _ ⟨loops, rfl, hloops⟩
            exact (LoopRun.atMost_nil ..).cons hloops
          · rintro _ after ⟨loops, rfl, hloops⟩ hafter
            exact hafter.cons hloops

theorem endsTraced_forLoop {header : LoopHeader} {body : List Node}
    (hbody : interpreter.EndsTraced (fun fuel => interpreter.traceNodes fuel body)
      (interpreter.runNodes body)) :
    interpreter.EndsTraced (fun fuel => interpreter.traceNode fuel (.forLoop header body))
      (interpreter.forLoop header (interpreter.runNodes body)) := by
  rw [forLoop_eq]
  refine Settles.succ (settles_lift_bind header.enter (by simp) fun control => ?_)
    fun fuel => by rw [traceNode]
  have hbudget : interpreter.loopBudget = interpreter.maxLoopIterations.toNat := if_neg hlimit
  have hexhausted : interpreter.loopExhausted header.counter =
      .loopLimit header.counter interpreter.maxLoopIterations := if_neg hlimit
  rw [hbudget, hexhausted]
  refine EndsTraced.bind ?_ (settles_lift (Exec.popVariable header.counter) (by simp))
  refine (settles_traceRounds hlimit hbody (Nat.zero_add _)).record ?_
  rintro bodies ⟨hlength, hinner⟩ run hrun
  rw [List.mem_singleton.mp hrun]
  exact .intro hlength hinner

theorem endsTraced_runNodes (nodes : List Node) :
    interpreter.EndsTraced (fun fuel => interpreter.traceNodes fuel nodes)
      (interpreter.runNodes nodes) := by
  induction nodes using Node.listInduction with
  | nil =>
      rw [runNodes]
      exact Settles.succ (settles_pure () (by simp)) fun fuel => by rw [traceNodes]
  | text content rest ih =>
      have htext : interpreter.EndsTraced (fun fuel => interpreter.traceNode fuel (.text content))
          (Exec.write content) :=
        Settles.succ (settles_lift (Exec.write content) (by simp)) fun fuel => by rw [traceNode]
      rw [runNodes, runNode]
      exact Settles.succ (htext.bind ih) fun fuel => by rw [traceNodes]
  | echo elements rest ih =>
      have hecho : interpreter.EndsTraced (fun fuel => interpreter.traceNode fuel (.echo elements))
          (Exec.echo interpreter.functions elements) :=
        Settles.succ (settles_lift (Exec.echo interpreter.functions elements) (by simp))
          fun fuel => by rw [traceNode]
      rw [runNodes, runNode]
      exact Settles.succ (hecho.bind ih) fun fuel => by rw [traceNodes]
  | forLoop header body rest ihBody ihRest =>
      rw [runNodes, runNode]
      exact Settles.succ ((endsTraced_forLoop hlimit ihBody).bind ihRest)
        fun fuel => by rw [traceNodes]

/--
Under a limit a traced run has an end, that of the run itself, which more fuel does not change.  No
run of a loop in it has run its body more often than the limit says.
-/
theorem trace_eventually_eq_execute (document : Document) (context : Context) :
    ∃ fuel loops, (∀ more, fuel ≤ more →
        interpreter.trace more document context =
          some (interpreter.execute document context, loops)) ∧
      ∀ run ∈ loops, run.Within interpreter.maxLoopIterations.toNat := by
  obtain ⟨fuel, loops, hloops, hends⟩ :=
    endsTraced_runNodes hlimit document.children ⟨.empty, context⟩
  refine ⟨fuel, loops, fun more hmore => ?_, hloops⟩
  simp only [trace, hends more hmore]
  rfl

end Limited

-- adding 1 to 10^16 does not change it
theorem trace_eventually_eq_execute_small_step :
    let header : LoopHeader := ⟨"x", .str "1e16", .str "2e16", some (.str "1.0")⟩
    let inner : Node := .forLoop ⟨"i", .int 1, .int 2, none⟩ [.text "a"]
    let document : Document := ⟨[.forLoop header [inner]]⟩
    let interpreter : Interpreter := ⟨.standard, 3⟩
    interpreter.maxLoopIterations ≠ 0 ∧
      (interpreter.execute document .buffered).1 = .error (.loopLimit "x" 3) ∧
      (interpreter.trace 20 document .buffered).map (fun ended =>
        ended.2.map fun run => run.bodies.length) = some [3] ∧
      ∃ fuel loops, (∀ more, fuel ≤ more →
          interpreter.trace more document .buffered =
            some (interpreter.execute document .buffered, loops)) ∧
        ∀ run ∈ loops, run.Within 3 := by
  intro header inner document interpreter
  have hlimit : interpreter.maxLoopIterations ≠ 0 := by decide
  have hresult : (interpreter.execute document .buffered).1 = .error (.loopLimit "x" 3) := by
    decide +kernel
  have hloops : (interpreter.trace 20 document .buffered).map (fun ended =>
      ended.2.map fun run => run.bodies.length) = some [3] := by
    decide +kernel
  exact ⟨hlimit, hresult, hloops, trace_eventually_eq_execute hlimit document .buffered⟩

end Interpreter

end TagTemplate
