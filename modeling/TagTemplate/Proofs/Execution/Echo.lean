import TagTemplate.Proofs.Execution.Invariant
import TagTemplate.Proofs.Execution.Soundness

/-!
What echoes come to.

How many operands there are at each element is known before an echo runs, so that a shortage of
operands and the failure to leave just one are, too (`Interpreter.runNode_echo_counted`).  An echo
of an expression tree in post-order, operands before their operator, writes the value of the tree
(`Interpreter.runNode_echo_postOrder`).
-/

namespace TagTemplate

/-! ## Steps -/

theorem Exec.write_apply (text : String) (m : Machine) :
    write text m = ((m.context.sink.write text).1.mapError .output,
      ⟨m.scope, { m.context with sink := (m.context.sink.write text).2 }⟩) := by
  obtain ⟨scope, sink, mimeType, parameters, persistent, temporary⟩ := m
  simp only [write, Context.write]
  cases sink.write text with
  | mk written after => cases written <;> rfl

theorem Eval.elements_append (functions : FunctionTable) (scope : NamedStacks)
    (done rest : List Element) :
    elements functions scope (done ++ rest) =
      (do elements functions scope done; elements functions scope rest) := by
  induction done with
  | nil => rfl
  | cons e done ih => rw [List.cons_append, elements, elements, ih, bind_assoc]

/-! ## Shortages -/

namespace StandardFunction

variable (f : StandardFunction)

theorem effect_needs_le : f.effect.needs ≤ 2 := by
  cases f <;> decide

/-- Operands that are there are taken before one is missed. -/
theorem run_of_short {operands : List Value} (h : operands.length < f.effect.needs)
    (context : Context) :
    (f.run ⟨operands, context⟩).1 = .error (.stackUnderflow ("@" ++ f.name)) := by
  rcases operands with _ | ⟨operand, _ | ⟨next, rest⟩⟩
  · cases f <;> rfl
  · cases f with
    | sin | dup | setMimeType | persistentDel | temporaryDel => simp [effect] at h
    | _ => rfl
  · have := f.effect_needs_le
    simp only [List.length_cons] at h
    omega

end StandardFunction

/-- About the number of operands, which does not depend on their values. -/
def ExecError.IsOperandCount : ExecError → Prop
  | .stackUnderflow _ | .echoImbalance _ => True
  | _ => False

theorem StandardFunction.Failure.not_isOperandCount {e : ExecError} (h : Failure e) :
    ¬ e.IsOperandCount := by
  rcases h with ⟨reason, rfl⟩ | ⟨reason, rfl⟩ <;> exact id

def Element.IsStandard (e : Element) : Prop :=
  ∀ name, e = .function name → FunctionTable.standard.contains name = true

theorem Element.IsStandard.exists_effect? {e : Element} (h : e.IsStandard) :
    ∃ effect, e.effect? = some effect := by
  cases e with
  | function name =>
      obtain ⟨builtin, hbuiltin⟩ := Option.isSome_iff_exists.mp (h name rfl)
      obtain ⟨f, rfl, -⟩ := FunctionTable.exists_of_find?_standard hbuiltin
      exact ⟨f.effect, by simp [effect?, f.ofName?_name]⟩
  | _ => exact ⟨_, rfl⟩

theorem Element.source_function (name : String) : (function name).source = "@" ++ name := by
  rw [← String.toList_inj]
  simp [source, spelling]

theorem Element.source_operator (op : Operator) : (operator op).source = op.text := by
  cases op <;> rfl

namespace Eval

variable (scope : NamedStacks) {e : Element} {effect : Effect}

theorem element_outcome_of_isStandard (hstandard : e.IsStandard)
    (heffect : e.effect? = some effect) (before : Evaluation) :
    Outcome effect (fun reason => ¬ reason.IsOperandCount) before
      (element .standard scope e before) := by
  cases e with
  | var name =>
      cases heffect
      rw [element_var_apply]
      cases hname : resolve scope before.context name with
      | ok value => exact .success (Nat.zero_le _) rfl rfl
      | error reason =>
          obtain ⟨rfl, -, -⟩ := resolve_eq_error hname
          exact .failure id rfl
  | function name =>
      exact (call_standard_outcome (hstandard name rfl) heffect before).mono
        fun _ h => h.not_isOperandCount
  | operator op =>
      cases heffect
      exact (applyOperator_outcome op before).mono fun _ h => h.not_isOperandCount
  | _ =>
      cases heffect
      exact .success (Nat.zero_le _) rfl rfl

theorem element_of_short (hstandard : e.IsStandard) (heffect : e.effect? = some effect)
    {before : Evaluation} (h : before.operands.length < effect.needs) :
    (element .standard scope e before).1 = .error (.stackUnderflow e.source) := by
  obtain ⟨operands, context⟩ := before
  cases e with
  | function name =>
      obtain ⟨builtin, hbuiltin⟩ := Option.isSome_iff_exists.mp (hstandard name rfl)
      obtain ⟨f, rfl, rfl⟩ := FunctionTable.exists_of_find?_standard hbuiltin
      have hcall : element .standard scope (.function f.name) = f.run := by
        rw [element, call, show FunctionTable.standard.find? f.name = some f.run from hbuiltin]
      simp only [Element.effect?, f.ofName?_name, Option.map_some, Option.some.injEq] at heffect
      subst heffect
      rw [hcall, f.run_of_short h, Element.source_function]
  | operator op =>
      cases heffect
      rw [Element.source_operator]
      rcases operands with _ | ⟨rhs, _ | ⟨lhs, rest⟩⟩
      · rfl
      · rfl
      · simp only [List.length_cons] at h
        omega
  | _ =>
      cases heffect
      exact absurd h (Nat.not_lt_zero _)

/-! ## Counts -/

variable {es : List Element}

theorem elements_outcome_of_isStandard (hstandard : ∀ e ∈ es, e.IsStandard) {before : Evaluation}
    {count : Nat} (hcount : operandsAfter? before.operands.length es = some count) :
    Outcome ⟨before.operands.length, count⟩ (fun reason => ¬ reason.IsOperandCount) before
      (elements .standard scope es before) :=
  elements_outcome_of_element
    (fun e he _ heffect between _ =>
      element_outcome_of_isStandard scope (hstandard e he) heffect between)
    rfl hcount

/-- Elements that succeed leave as many operands as their effects add up to. -/
theorem operandsAfter?_of_elements (hstandard : ∀ e ∈ es, e.IsStandard)
    {before after : Evaluation} (h : elements .standard scope es before = (.ok (), after)) :
    operandsAfter? before.operands.length es = some after.operands.length := by
  induction es generalizing before with
  | nil =>
      cases h
      rfl
  | cons e es ih =>
      rw [List.forall_mem_cons] at hstandard
      obtain ⟨effect, heffect⟩ := hstandard.1.exists_effect?
      have houtcome := element_outcome_of_isStandard scope hstandard.1 heffect before
      cases hstep : element .standard scope e before with
      | mk result between =>
          rw [hstep] at houtcome
          rw [elements] at h
          cases houtcome with
          | failure | underflow =>
              rw [Exec.bind_of_error hstep] at h
              cases h
          | success henough hcount =>
              rw [Exec.bind_of_ok hstep] at h
              have hleft : before.operands.length - effect.needs + effect.leaves =
                  between.operands.length := by
                omega
              simp only [operandsAfter?, heffect, if_pos henough, hleft]
              exact ih hstandard.2 h

/-- With enough operands throughout, elements succeed or fail for a reason of their own. -/
theorem elements_cases (hstandard : ∀ e ∈ es, e.IsStandard) (before : Evaluation) {count : Nat}
    (hcount : operandsAfter? before.operands.length es = some count) :
    (∃ after, elements .standard scope es before = (.ok (), after)) ∨
      ∃ reason after, elements .standard scope es before = (.error reason, after) ∧
        ¬ reason.IsOperandCount := by
  have houtcome := elements_outcome_of_isStandard scope hstandard hcount
  generalize elements .standard scope es before = last at houtcome
  cases houtcome with
  | success => exact .inl ⟨_, rfl⟩
  | failure hreason => exact .inr ⟨_, _, rfl, hreason⟩
  | underflow hshort => exact absurd hshort (lt_irrefl _)

/-- The first of `es` with fewer operands than it needs is `e`, and `done` stand before it. -/
def IsFirstShort (count : Nat) (es done : List Element) (e : Element) : Prop :=
  ∃ rest depth effect, es = done ++ e :: rest ∧ operandsAfter? count done = some depth ∧
    e.effect? = some effect ∧ depth < effect.needs

theorem exists_isFirstShort (hstandard : ∀ e ∈ es, e.IsStandard) {count : Nat}
    (h : operandsAfter? count es = none) : ∃ done e, IsFirstShort count es done e := by
  induction es generalizing count with
  | nil => cases h
  | cons e es ih =>
      rw [List.forall_mem_cons] at hstandard
      obtain ⟨effect, heffect⟩ := hstandard.1.exists_effect?
      by_cases henough : effect.needs ≤ count
      · simp only [operandsAfter?, heffect, if_pos henough] at h
        obtain ⟨done, short, rest, depth, needed, hsplit, hdepth, hneeded⟩ := ih hstandard.2 h
        refine ⟨e :: done, short, rest, depth, needed, by rw [hsplit]; rfl, ?_, hneeded⟩
        simp only [operandsAfter?, heffect, if_pos henough, hdepth]
      · exact ⟨[], e, es, count, effect, rfl, rfl, heffect, Nat.lt_of_not_le henough⟩

theorem elements_of_isFirstShort (hstandard : ∀ e ∈ es, e.IsStandard) {before after : Evaluation}
    {done : List Element} {e : Element} (hshort : IsFirstShort before.operands.length es done e)
    (hdone : elements .standard scope done before = (.ok (), after)) :
    (elements .standard scope es before).1 = .error (.stackUnderflow e.source) := by
  obtain ⟨rest, depth, effect, rfl, hdepth, heffect, hlt⟩ := hshort
  rw [operandsAfter?_of_elements scope (fun d hd => hstandard d (List.mem_append_left _ hd)) hdone,
    Option.some.injEq] at hdepth
  subst hdepth
  have hfails := element_of_short scope (hstandard e (by simp)) heffect hlt
  rw [elements_append, Exec.bind_of_ok hdone, elements]
  cases hstep : element .standard scope e after with
  | mk result last =>
      rw [hstep] at hfails
      cases hfails
      rw [Exec.bind_of_error hstep]

theorem sink_elements (scope : NamedStacks) (es : List Element) (before : Evaluation) :
    (elements .standard scope es before).2.context.sink = before.context.sink := by
  have hkept : Context.Kept (Context.Both fun context => context.sink = before.context.sink) := by
    rintro change context _ ⟨rfl, hsink⟩
    cases change <;> exact ⟨rfl, hsink⟩
  have hrespects : Respects (Context.Both fun context => context.sink = before.context.sink)
      (elements .standard scope es) := by
    refine respects_elements hkept ?_ fun f _ => f.readsAlike_of_eq fun _ _ h => h.1
    rintro name - context _ ⟨rfl, -⟩
    rfl
  exact (hrespects before.operands before.context before.context ⟨rfl, rfl⟩).context.2

end Eval

/-! ## Echoes -/

namespace Exec

theorem writeOnly_of_length_ne_one {operands : List Value} (h : operands.length ≠ 1)
    (m : Machine) : writeOnly operands m = (.error (.echoImbalance operands.length), m) := by
  rcases operands with _ | ⟨result, _ | ⟨next, rest⟩⟩
  · rfl
  · exact absurd rfl h
  · rfl

theorem isOutput_of_mapError {written : Except WriteError Unit} {reason : ExecError}
    (h : written.mapError .output = .error reason) : ∃ e, reason = .output e := by
  cases written with
  | ok _ => cases h
  | error e =>
      cases h
      exact ⟨e, rfl⟩

section Counted

variable {es done : List Element} {m : Machine} {after : Evaluation}

theorem echo_fails_of_elements {functions : FunctionTable} {reason : ExecError}
    (h : (Eval.elements functions m.scope es ⟨[], m.context⟩).1 = .error reason) :
    (echo functions es m).1 = .error reason := by
  rw [echo_of_error (Prod.ext h rfl)]

/-- Elements that have had enough operands have succeeded, or the echo fails as one of them. -/
theorem echo_of_counted (hstandard : ∀ e ∈ es, e.IsStandard) {rest : List Element}
    (hsplit : es = done ++ rest) {depth : Nat} (hdepth : operandsAfter? 0 done = some depth) :
    (∃ after, Eval.elements .standard m.scope done ⟨[], m.context⟩ = (.ok (), after)) ∨
      ∃ reason, (Eval.elements .standard m.scope done ⟨[], m.context⟩).1 = .error reason ∧
        ¬ reason.IsOperandCount ∧ (echo .standard es m).1 = .error reason := by
  have hdone : ∀ e ∈ done, e.IsStandard := fun e he => hstandard e (by simp [hsplit, he])
  rcases Eval.elements_cases m.scope hdone ⟨[], m.context⟩ hdepth with
    hok | ⟨reason, after, hfails, hreason⟩
  · exact .inl hok
  · refine .inr ⟨reason, congrArg Prod.fst hfails, hreason, echo_fails_of_elements ?_⟩
    rw [hsplit, Eval.elements_append, bind_of_error hfails]

/-- Functions leave the sink alone, so the result is written to the sink as it was. -/
theorem echo_of_elements
    (h : Eval.elements .standard m.scope es ⟨[], m.context⟩ = (.ok (), after)) :
    ((echo .standard es m).1 = .error (.echoImbalance after.operands.length) ↔
        after.operands.length ≠ 1) ∧
      (after.operands.length = 1 → ∃ value, after.operands = [value] ∧
        echo .standard es m = ((m.context.sink.write value.text).1.mapError .output,
          ⟨m.scope, { after.context with sink := (m.context.sink.write value.text).2 }⟩)) := by
  have hsink : after.context.sink = m.context.sink := by
    simpa [h] using Eval.sink_elements m.scope es ⟨[], m.context⟩
  -- the sink can fail too, but only as a sink
  have hone : ∀ value, after.operands = [value] →
      echo .standard es m = ((m.context.sink.write value.text).1.mapError .output,
        ⟨m.scope, { after.context with sink := (m.context.sink.write value.text).2 }⟩) := by
    intro value hvalue
    rw [echo_of_ok h, hvalue, writeOnly, write_apply, hsink]
  constructor
  · constructor
    · intro hfails hlength
      obtain ⟨value, hvalue⟩ := List.length_eq_one_iff.mp hlength
      rw [hone value hvalue] at hfails
      obtain ⟨e, he⟩ := isOutput_of_mapError hfails
      cases he
    · intro hlength
      rw [echo_of_ok h, writeOnly_of_length_ne_one hlength]
  · intro hlength
    obtain ⟨value, hvalue⟩ := List.length_eq_one_iff.mp hlength
    exact ⟨value, hvalue, hone value hvalue⟩

theorem sink_echo_of_error {reason : ExecError} (h : (echo .standard es m).1 = .error reason)
    (hreason : ∀ e, reason ≠ .output e) :
    (echo .standard es m).2.context.sink = m.context.sink := by
  have hsink := Eval.sink_elements m.scope es ⟨[], m.context⟩
  cases hall : Eval.elements .standard m.scope es ⟨[], m.context⟩ with
  | mk result after =>
      rw [hall] at hsink
      cases result with
      | error early =>
          rw [echo_of_error hall]
          exact hsink
      | ok _ =>
          by_cases hlength : after.operands.length = 1
          · obtain ⟨value, -, hwrites⟩ := (echo_of_elements hall).2 hlength
            rw [hwrites] at h
            obtain ⟨e, he⟩ := isOutput_of_mapError h
            exact absurd he (hreason e)
          · rw [echo_of_ok hall, writeOnly_of_length_ne_one hlength]
            exact hsink

end Counted

end Exec

namespace Interpreter

/--
Whatever has been evaluated, the operands are those counted.  The first element that needs more
fails by its name, if no element before it has failed for a reason of its own.  If all elements
succeed, a single operand is written, and any other number is a failure.  A failure other than the
sink's leaves the sink as it was.
-/
theorem runNode_echo_counted (limit : UInt64) (es : List Element)
    (hstandard : ∀ name, .function name ∈ es → FunctionTable.standard.contains name = true)
    (m : Machine) :
    let evaluate := fun es => Eval.elements .standard m.scope es ⟨[], m.context⟩
    let run := runNode ⟨.standard, limit⟩ (.echo es) m
    (∀ done rest after, es = done ++ rest → evaluate done = (.ok (), after) →
      evaluate es = Eval.elements .standard m.scope rest after ∧
        operandsAfter? 0 done = some after.operands.length) ∧
      (∀ done e, Eval.IsFirstShort 0 es done e →
        (∃ after, evaluate done = (.ok (), after) ∧
          run.1 = .error (.stackUnderflow e.source)) ∨
        ∃ reason, (evaluate done).1 = .error reason ∧ ¬ reason.IsOperandCount ∧
          run.1 = .error reason) ∧
      ((∀ done e, ¬ Eval.IsFirstShort 0 es done e) →
        (∃ after, evaluate es = (.ok (), after)) ∨
        ∃ reason, (evaluate es).1 = .error reason ∧ ¬ reason.IsOperandCount ∧
          run.1 = .error reason) ∧
      (∀ after, evaluate es = (.ok (), after) →
        ∃ depth, operandsAfter? 0 es = some depth ∧
          (run.1 = .error (.echoImbalance depth) ↔ depth ≠ 1) ∧
          (depth = 1 → ∃ value, after.operands = [value] ∧
            run = ((m.context.sink.write value.text).1.mapError .output,
              ⟨m.scope, { after.context with sink := (m.context.sink.write value.text).2 }⟩))) ∧
      ∀ reason, run.1 = .error reason → (∀ e, reason ≠ .output e) →
        run.2.context.sink = m.context.sink := by
  intro evaluate run
  have hes : ∀ e ∈ es, e.IsStandard := fun e he name hname => hstandard name (hname ▸ he)
  have hrun : run = Exec.echo .standard es m := by simp only [run, runNode]
  rw [hrun]
  refine ⟨?_, ?_, ?_, ?_, fun reason => Exec.sink_echo_of_error⟩
  · rintro done rest after hsplit hdone
    have hstart : ∀ e ∈ done, e.IsStandard := fun e he => hes e (by simp [hsplit, he])
    refine ⟨?_, Eval.operandsAfter?_of_elements m.scope hstart hdone⟩
    rw [hsplit]
    dsimp only [evaluate]
    rw [Eval.elements_append, Exec.bind_of_ok hdone]
  · intro done e hshort
    obtain ⟨rest, depth, effect, hsplit, hdepth, -⟩ := id hshort
    rcases Exec.echo_of_counted hes hsplit hdepth with ⟨after, hdone⟩ | hfails
    · refine .inl ⟨after, hdone, Exec.echo_fails_of_elements ?_⟩
      exact Eval.elements_of_isFirstShort m.scope hes hshort hdone
    · exact .inr hfails
  · intro hnone
    cases hdepth : operandsAfter? 0 es with
    | none =>
        obtain ⟨done, e, hshort⟩ := Eval.exists_isFirstShort hes hdepth
        exact absurd hshort (hnone done e)
    | some depth => exact Exec.echo_of_counted hes (List.append_nil es).symm hdepth
  · intro after hafter
    exact ⟨_, Eval.operandsAfter?_of_elements m.scope hes hafter, Exec.echo_of_elements hafter⟩

/-- The mime type is set before the shortage is met. -/
theorem runNode_echo_counted_swap :
    let es : List Element := [.str "text/plain", .function "setMimeType", .function "swap"]
    let m : Machine := ⟨.empty, .buffered⟩
    let run := runNode ⟨.standard, 0⟩ (.echo es) m
    (∀ name, .function name ∈ es → FunctionTable.standard.contains name = true) ∧
      Eval.IsFirstShort 0 es (es.take 2) (.function "swap") ∧
      run.1 = .error (.stackUnderflow "@swap") ∧ run.2.context.sink = m.context.sink := by
  intro es m run
  have hes : ∀ name, .function name ∈ es → FunctionTable.standard.contains name = true := by
    intro name hname
    have hnames : name = "setMimeType" ∨ name = "swap" := by simpa [es] using hname
    rcases hnames with rfl | rfl <;> decide +kernel
  have hshort : Eval.IsFirstShort 0 es (es.take 2) (.function "swap") :=
    ⟨[], 1, ⟨2, 2⟩, rfl, by decide, by decide, by decide⟩
  have hdone : (Eval.elements .standard m.scope (es.take 2) ⟨[], m.context⟩).1 = .ok () := by
    decide +kernel
  obtain ⟨-, hfails, -, -, hsilent⟩ := runNode_echo_counted 0 es hes m
  have hswap : run.1 = .error (.stackUnderflow "@swap") := by
    rcases hfails _ _ hshort with ⟨after, -, h⟩ | ⟨reason, h, -⟩
    · exact h
    · rw [hdone] at h
      cases h
  exact ⟨hes, hshort, hswap, hsilent _ hswap (by simp)⟩

end Interpreter

/-! ## Expression trees -/

inductive Expression where
  | var (name : String)
  | str (content : String)
  | int (value : Int32)
  | real (value : Binary64)
  | operation (op : Operator) (lhs rhs : Expression)

namespace Expression

def postOrder : Expression → List Element
  | var name => [.var name]
  | str content => [.str content]
  | int value => [.int value]
  | real value => [.real value]
  | operation op lhs rhs => lhs.postOrder ++ rhs.postOrder ++ [.operator op]

/-- The left operand comes first, so that its failure is the one that counts. -/
def evaluate (scope : NamedStacks) (context : Context) : Expression → Except ExecError Value
  | var name => resolve scope context name
  | str content => .ok (.str content)
  | int value => .ok (.int value)
  | real value => .ok (.real value)
  | operation op lhs rhs => do
      let left ← lhs.evaluate scope context
      let right ← rhs.evaluate scope context
      (Value.apply op left right).mapError .value

end Expression

/--
The value of a tree comes on top of the operands that are there already.  After a failure, some
operands of the tree may be left.
-/
theorem Eval.elements_postOrder {functions : FunctionTable} {scope : NamedStacks}
    {context : Context} (tree : Expression) (operands : List Value) (rest : List Element) :
    ∃ left, elements functions scope (tree.postOrder ++ rest) ⟨operands, context⟩ =
      match tree.evaluate scope context with
      | .ok value => elements functions scope rest ⟨value :: operands, context⟩
      | .error e => (.error e, ⟨left, context⟩) := by
  -- the right operand is what follows the left one, and its operator what follows them both
  induction tree generalizing operands rest with
  | str content | int value | real value => exact ⟨operands, rfl⟩
  | var name =>
      refine ⟨operands, ?_⟩
      have hstep := element_var_apply functions scope name ⟨operands, context⟩
      rw [Expression.evaluate]
      cases hname : resolve scope context name with
      | ok value =>
          rw [hname] at hstep
          exact Exec.bind_of_ok hstep
      | error e =>
          rw [hname] at hstep
          exact Exec.bind_of_error hstep
  | operation op lhs rhs ihLhs ihRhs =>
      have hlist : (Expression.operation op lhs rhs).postOrder ++ rest =
          lhs.postOrder ++ (rhs.postOrder ++ .operator op :: rest) := by
        simp [Expression.postOrder]
      obtain ⟨left, hleft⟩ := ihLhs operands (rhs.postOrder ++ .operator op :: rest)
      rw [hlist, hleft, Expression.evaluate]
      cases lhs.evaluate scope context with
      | error e => exact ⟨left, rfl⟩
      | ok x =>
          obtain ⟨left, hright⟩ := ihRhs (x :: operands) (.operator op :: rest)
          dsimp only
          rw [hright]
          cases rhs.evaluate scope context with
          | error e => exact ⟨left, rfl⟩
          | ok y =>
              have hstep := applyOperator_apply op x y operands context
              refine ⟨operands, ?_⟩
              dsimp only [bind, Except.bind]
              cases happly : Value.apply op x y with
              | ok value =>
                  rw [happly] at hstep
                  exact Exec.bind_of_ok hstep
              | error e =>
                  rw [happly] at hstep
                  exact Exec.bind_of_error hstep

/--
An echo in post-order writes the text of the value and changes nothing but the sink, or fails with
the first failure of the tree and changes nothing at all.
-/
theorem Interpreter.runNode_echo_postOrder (interpreter : Interpreter) (tree : Expression)
    (m : Machine) :
    interpreter.runNode (.echo tree.postOrder) m =
      match tree.evaluate m.scope m.context with
      | .ok value =>
          ((m.context.sink.write value.text).1.mapError .output,
            ⟨m.scope, { m.context with sink := (m.context.sink.write value.text).2 }⟩)
      | .error e => (.error e, m) := by
  obtain ⟨left, hall⟩ := @Eval.elements_postOrder interpreter.functions m.scope m.context tree [] []
  rw [List.append_nil] at hall
  rw [runNode]
  cases hvalue : tree.evaluate m.scope m.context with
  | ok value =>
      rw [hvalue] at hall
      exact (Exec.echo_of_ok hall).trans (Exec.write_apply value.text m)
  | error e =>
      rw [hvalue] at hall
      exact Exec.echo_of_error hall

end TagTemplate
