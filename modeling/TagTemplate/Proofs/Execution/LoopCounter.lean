import Mathlib.Data.List.Chain
import TagTemplate.Proofs.Execution.IntegerLoop
import TagTemplate.Proofs.Execution.Rounds
import TagTemplate.Proofs.Value.Order

/-!
The counter of a loop.

The values that a body sees of the counter move from the start in the direction of the loop and do
not pass the end, whatever kinds of numbers they are (`Interpreter.rounds_counter`).  A loop counts
down if its step is below zero in the order of numbers, which has negative zero below zero: for all
other steps and bounds this is the order of their values (`Interpreter.rounds_ne_nil_iff_value`).
-/

namespace TagTemplate

/-! ## Directions -/

namespace LoopControl

theorem past_cases (control : LoopControl) : control.past = .lt ∨ control.past = .gt := by
  unfold past
  split
  · exact .inl rfl
  · exact .inr rfl

theorem order_ne_past_trans (control : LoopControl) {x y z : Number}
    (hxy : x.order y ≠ control.past) (hyz : y.order z ≠ control.past) :
    x.order z ≠ control.past := by
  rcases control.past_cases with hpast | hpast
  · rw [hpast] at hxy hyz ⊢
    rw [Number.order_ne_lt_iff] at hxy hyz ⊢
    exact hyz.trans hxy
  · rw [hpast] at hxy hyz ⊢
    rw [Number.order_ne_gt_iff] at hxy hyz ⊢
    exact hxy.trans hyz

theorem order_self_ne_past (control : LoopControl) (x : Number) : x.order x ≠ control.past := by
  rcases control.past_cases with hpast | hpast
  · rw [hpast, Number.order_ne_lt_iff]
  · rw [hpast, Number.order_ne_gt_iff]

theorem order_ne_past_of_swap (control : LoopControl) {x y : Number}
    (h : y.order x ≠ control.past.swap) : x.order y ≠ control.past := by
  intro hpast
  rw [← Number.order_swap, hpast] at h
  exact h rfl

end LoopControl

/-- The sum of two integers is out of range. -/
def Number.Wraps : Number → Number → Prop
  | .int m, .int n => (m + n).toInt ≠ m.toInt + n.toInt
  | _, _ => False

/-- A sum that wraps is against the direction of the loop. -/
theorem LoopControl.not_wraps {control : LoopControl} {x : Number}
    (h : (Number.apply .add x control.step).order x ≠ control.past.swap) :
    ¬ x.Wraps control.step := by
  obtain ⟨counter, stop, step⟩ := control
  cases x with
  | real x => exact id
  | int m =>
      cases step with
      | real y => exact id
      | int n =>
          intro hwraps
          -- the direction does not depend on the end
          have hpast : past ⟨counter, stop, .int n⟩ = past ⟨counter, .int 0, .int n⟩ := rfl
          rw [hpast] at h
          exact h (order_add_eq_past_swap_iff.mpr hwraps)

/-! ## Values of the counter -/

namespace Value

/-- In a direction where further on is `past`, the first value is not further on. -/
def NotPast (past : Ordering) (v w : Value) : Prop :=
  ∃ ordering, v.order w = .ok ordering ∧ ordering ≠ past

/-- The second value is the first plus the step: a sum in range, and not behind the first value. -/
structure Advances (past : Ordering) (step v w : Value) : Prop where
  sum : v.apply .add step = .ok w
  inRange : ∀ x z, v.toNumber = .ok x → step.toNumber = .ok z → ¬ x.Wraps z
  forward : v.NotPast past w

/-- The values go from the start towards the end and stay between them. -/
structure Course (past : Ordering) (start stop step : Value) (values : List Value) : Prop where
  head : ∀ v ∈ values.head?, v = start
  steps : values.IsChain (Advances past step)
  between : ∀ v ∈ values, start.NotPast past v ∧ v.NotPast past stop

variable {v w : Value} {x y : Number}

theorem notPast_iff {past : Ordering} (hx : v.toNumber = .ok x) (hy : w.toNumber = .ok y) :
    v.NotPast past w ↔ x.order y ≠ past := by
  simp [NotPast, order_of_numbers hx hy]

theorem NotPast.exists_numbers {past : Ordering} (h : v.NotPast past w) :
    ∃ x y, v.toNumber = .ok x ∧ w.toNumber = .ok y ∧ x.order y ≠ past := by
  obtain ⟨ordering, horder, hne⟩ := h
  obtain ⟨x, y, hx, hy, rfl⟩ := order_eq_ok_iff.mp horder
  exact ⟨x, y, hx, hy, hne⟩

theorem course_nil (past : Ordering) (start stop step : Value) : Course past start stop step [] :=
  ⟨by simp, .nil, by simp⟩

section Course

variable {control : LoopControl} {stop step : Value}
  (hstop : stop.toNumber = .ok control.stop) (hx : v.toNumber = .ok x)
  (hinside : x.order control.stop ≠ control.past)

include hstop hx hinside

theorem course_singleton (step : Value) : Course control.past v stop step [v] := by
  refine ⟨by simp, .singleton v, fun w hw => ?_⟩
  rw [List.mem_singleton.mp hw]
  exact ⟨(notPast_iff hx hx).mpr (control.order_self_ne_past x),
    (notPast_iff hx hstop).mpr hinside⟩

/-- One more value in front: the one that the step leads on from. -/
theorem Course.cons (hstep : step.toNumber = .ok control.step)
    (hforth : (Number.apply .add x control.step).order x ≠ control.past.swap) {values : List Value}
    (h : Course control.past (.ofNumber (Number.apply .add x control.step)) stop step values) :
    Course control.past v stop step (v :: values) := by
  have hnext := toNumber_ofNumber (Number.apply .add x control.step)
  have hforward := control.order_ne_past_of_swap hforth
  have hadvances : Advances control.past step v
      (.ofNumber (Number.apply .add x control.step)) := by
    constructor
    · simp [apply, hx, hstep, bind, Except.bind]
    · intro x' z hx' hz
      cases hx.symm.trans hx'
      cases hstep.symm.trans hz
      exact LoopControl.not_wraps hforth
    · exact (notPast_iff hx hnext).mpr hforward
  constructor
  · simp
  · apply h.steps.cons
    intro w hw
    rw [h.head w hw]
    exact hadvances
  · intro w hw
    rcases List.mem_cons.mp hw with rfl | hw
    · exact (course_singleton hstop hx hinside step).between w (List.mem_singleton_self w)
    · -- what is not before the next value is not before this one
      obtain ⟨hfrom, hto⟩ := h.between w hw
      obtain ⟨x', y, hx', hy, horder⟩ := hfrom.exists_numbers
      cases hnext.symm.trans hx'
      exact ⟨(notPast_iff hx hy).mpr (control.order_ne_past_trans hforward horder), hto⟩

end Course

end Value

namespace LoopControl

theorem Inside.lookup_eq {control : LoopControl} {below : List Value} {m : Machine} {top : Value}
    {x : Number} (h : control.Inside below m top x) :
    m.scope.lookup control.counter = some top := by
  rw [NamedStacks.lookup, h.values, List.head?_cons]

variable {control : LoopControl} {exhausted : ExecError} {body : Exec Unit} {below : List Value}
  {budget : Nat} {top : Value} {m : Machine} {starts : List Machine}
  {ended : Except ExecError Unit × Machine}

theorem Rounds.course (h : control.Rounds exhausted body below budget top m starts ended)
    {stop step : Value} (hstop : stop.toNumber = .ok control.stop)
    (hstep : step.toNumber = .ok control.step) :
    ∃ values, starts.map (fun s => s.scope.lookup control.counter) = values.map some ∧
      Value.Course control.past top stop step values := by
  induction h with
  | past values number passed => exact ⟨[], rfl, Value.course_nil ..⟩
  | exhausted inside => exact ⟨[], rfl, Value.course_nil ..⟩
  | @fails _ top _ _ _ _ inside run =>
      exact ⟨[top], by simp [inside.lookup_eq],
        Value.course_singleton hstop inside.number inside.covered step⟩
  | @blocked _ top _ _ _ inside run back =>
      exact ⟨[top], by simp [inside.lookup_eq],
        Value.course_singleton hstop inside.number inside.covered step⟩
  | @next _ top _ _ _ _ _ inside run forth rest ih =>
      obtain ⟨values, hvalues, hcourse⟩ := ih
      exact ⟨top :: values, by simp [inside.lookup_eq, hvalues],
        hcourse.cons hstop inside.number inside.covered hstep forth⟩

/-- Only the first test decides whether there is a round. -/
theorem Rounds.ne_nil_iff (h : control.Rounds exhausted body below budget top m starts ended)
    (hbudget : 0 < budget) {x : Number} (hx : top.toNumber = .ok x) :
    starts ≠ [] ↔ x.order control.stop ≠ control.past := by
  cases h with
  | past values number passed =>
      cases number.symm.trans hx
      simp [passed]
  | exhausted inside => omega
  | fails inside run =>
      cases inside.number.symm.trans hx
      simp [inside.covered]
  | blocked inside run back =>
      cases inside.number.symm.trans hx
      simp [inside.covered]
  | next inside run forth rest =>
      cases inside.number.symm.trans hx
      simp [inside.covered]

end LoopControl

/-! ## Loops -/

namespace Interpreter

theorem loopBudget_pos (interpreter : Interpreter) : 0 < interpreter.loopBudget := by
  unfold loopBudget
  split
  · decide
  · next hcap => exact UInt64.pos_iff_ne_zero.mpr hcap

section Bounds

variable (interpreter : Interpreter) (header : LoopHeader) (body : List Node) (m : Machine)
  {start stop step : Value} {x y z : Number}
  (hstart : (Exec.bound header.start m).1 = .ok start)
  (hstop : (Exec.bound header.stop m).1 = .ok stop)
  (hstep : (Exec.stepBound header.step m).1 = .ok step)
  (hx : start.toNumber = .ok x) (hy : stop.toNumber = .ok y) (hz : step.toNumber = .ok z)

include hstart hstop hstep hx hy hz

theorem rounds_of_bounds :
    ∃ ended, LoopControl.Rounds ⟨header.counter, y, z⟩ (interpreter.loopExhausted header.counter)
      (interpreter.runNodes body) (m.scope.values header.counter) interpreter.loopBudget start
      ⟨m.scope.push header.counter start, m.context⟩
      (interpreter.rounds header (interpreter.runNodes body) m) ended := by
  have hentry := LoopHeader.entry_of_bounds hstart hstop hstep hx hy hz
  obtain ⟨ended, hrounds, -⟩ := @rounds_of_entry_ok interpreter header (interpreter.runNodes body)
    m (interpreter.balanced_runNodes body) _ _ hentry
  exact ⟨ended, hrounds⟩

theorem rounds_ne_nil_iff :
    interpreter.rounds header (interpreter.runNodes body) m ≠ [] ↔
      x.order y ≠ LoopControl.past ⟨header.counter, y, z⟩ := by
  obtain ⟨ended, hrounds⟩ := rounds_of_bounds interpreter header body m hstart hstop hstep hx hy hz
  exact hrounds.ne_nil_iff interpreter.loopBudget_pos hx

/--
The values of the counter at the start of each run of the body: the first is the start, and each
other is the one before it plus the step, without wrapping.  They go up, or down if the step is
below zero, and are all between the start and the end.  There are none if the start is past the
end.
-/
theorem rounds_counter :
    let past : Ordering := if step.order (.int 0) = .ok .lt then .lt else .gt
    let loop := interpreter.runNode (.forLoop header body) m
    let starts := interpreter.rounds header (interpreter.runNodes body) m
    (interpreter.watchLoop header (interpreter.runNodes body)).run m =
      some (loop.1, loop.2, starts) ∧
    ∃ values, starts.map (fun s => s.scope.lookup header.counter) = values.map some ∧
      (values ≠ [] ↔ start.NotPast past stop) ∧ Value.Course past start stop step values := by
  intro past loop starts
  have hpast : LoopControl.past ⟨header.counter, y, z⟩ = past := by
    have horder : step.order (.int 0) = .ok (z.order (.int 0)) := Value.order_of_numbers hz rfl
    simp [past, LoopControl.past, horder]
  refine ⟨interpreter.watchLoop_runNodes header body m, ?_⟩
  obtain ⟨ended, hrounds⟩ := rounds_of_bounds interpreter header body m hstart hstop hstep hx hy hz
  obtain ⟨values, hvalues, hcourse⟩ := hrounds.course hy hz
  rw [hpast] at hcourse
  refine ⟨values, hvalues, ?_, hcourse⟩
  have hempty : values = [] ↔ starts = [] := by
    rw [← List.map_eq_nil_iff (f := some), ← hvalues, List.map_eq_nil_iff]
  rw [Value.notPast_iff hx hy, ← hpast, Ne, hempty]
  exact rounds_ne_nil_iff interpreter header body m hstart hstop hstep hx hy hz

end Bounds

-- the sum that follows the largest integer would be out of range
theorem rounds_counter_up_to_last_integer :
    let header : LoopHeader := ⟨"i", .str "2147483646", .str "1e10", none⟩
    let m : Machine := ⟨.empty, .buffered⟩
    let starts := standard.rounds header (standard.runNodes [.text "a"]) m
    starts.map (fun s => s.scope.lookup "i") = [some (.str "2147483646"), some (.int 2147483647)] ∧
      ∃ values, starts.map (fun s => s.scope.lookup "i") = values.map some ∧
        (values ≠ [] ↔ (Value.str "2147483646").NotPast .gt (.str "1e10")) ∧
        Value.Course .gt (.str "2147483646") (.str "1e10") (.int 1) values := by
  intro header m starts
  have hx : (Value.str "2147483646").toNumber = .ok (.int 2147483646) := by decide
  have hy : (Value.str "1e10").toNumber = .ok (.real ⟨0x4202a05f20000000⟩) := by decide +kernel
  have hup : (Value.int 1).order (.int 0) = .ok .gt := by decide
  have hcourse := (rounds_counter standard header [.text "a"] m rfl rfl rfl hx hy rfl).2
  simp only [hup] at hcourse
  constructor
  · decide +kernel
  · exact hcourse

/--
A loop runs its body if its start is not past its end.  It counts down if the step is negative or
negative zero, and negative zero is also a bound in front of zero; apart from that the numbers
compare by their values.
-/
theorem rounds_ne_nil_iff_value (interpreter : Interpreter) (header : LoopHeader)
    (body : List Node) (m : Machine) {start stop step : Value} {x y z : Number}
    (hstart : (Exec.bound header.start m).1 = .ok start)
    (hstop : (Exec.bound header.stop m).1 = .ok stop)
    (hstep : (Exec.stepBound header.step m).1 = .ok step)
    (hx : start.toNumber = .ok x) (hy : stop.toNumber = .ok y) (hz : step.toNumber = .ok z) :
    let starts := interpreter.rounds header (interpreter.runNodes body) m
    let countsDown := z.value < 0 ∨ z = .negativeZero
    (starts ≠ [] ↔ (countsDown ∧ y.AtMost x) ∨ (¬ countsDown ∧ x.AtMost y)) ∧
    (x ≠ .negativeZero → y ≠ .negativeZero → z ≠ .negativeZero →
      (starts ≠ [] ↔
        (z.value < 0 ∧ y.value ≤ x.value) ∨ (0 ≤ z.value ∧ x.value ≤ y.value))) := by
  intro starts countsDown
  have hruns : starts ≠ [] ↔ (countsDown ∧ y.AtMost x) ∨ (¬ countsDown ∧ x.AtMost y) := by
    refine (rounds_ne_nil_iff interpreter header body m hstart hstop hstep hx hy hz).trans ?_
    by_cases hdown : countsDown
    · simp only [LoopControl.past, Number.order_zero_eq_lt_iff.mpr hdown, if_true,
        Number.order_ne_lt_iff, Number.orderKey_le_iff, hdown, true_and, not_true_eq_false,
        false_and, or_false]
    · have hup : ¬ z.order (.int 0) = .lt := fun h => hdown (Number.order_zero_eq_lt_iff.mp h)
      simp only [LoopControl.past, hup, if_false, Number.order_ne_gt_iff,
        Number.orderKey_le_iff, hdown, false_and, not_false_eq_true, true_and, false_or]
  refine ⟨hruns, fun hstartZero hstopZero hstepZero => ?_⟩
  have hdown : countsDown ↔ z.value < 0 := or_iff_left hstepZero
  rw [hruns, hdown, not_lt, Number.atMost_iff hstartZero, Number.atMost_iff hstopZero]

-- 3 as a text, down to 2.5
theorem rounds_ne_nil_iff_value_text :
    let header : LoopHeader := ⟨"i", .str "3", .str "2.5", some (.int (-1))⟩
    let starts := standard.rounds header (standard.runNodes [.text "a"]) ⟨.empty, .buffered⟩
    let x : Number := .int 3
    let y : Number := .real ⟨0x4004000000000000⟩
    let z : Number := .int (-1)
    starts ≠ [] ↔ (z.value < 0 ∧ y.value ≤ x.value) ∨ (0 ≤ z.value ∧ x.value ≤ y.value) := by
  intro header starts x y z
  have hx : (Value.str "3").toNumber = .ok x := by decide
  have hy : (Value.str "2.5").toNumber = .ok y := by decide +kernel
  apply (rounds_ne_nil_iff_value standard header [.text "a"] _ rfl rfl rfl hx hy rfl).2
  · decide
  · decide
  · decide

-- a step of zero counts up, unless it is negative zero
theorem rounds_ne_nil_of_negative_zero_step :
    let interpreter : Interpreter := ⟨.standard, 3⟩
    let header : LoopHeader := ⟨"i", .int 2, .int 1, some (.str "-0.0")⟩
    let starts := interpreter.rounds header (interpreter.runNodes [.text "x"]) ⟨.empty, .buffered⟩
    let x : Number := .int 2
    let y : Number := .int 1
    let z : Number := .negativeZero
    (Value.str "-0.0").toNumber = .ok z ∧ z.value = 0 ∧
      ¬ (starts ≠ [] ↔
        (z.value < 0 ∧ y.value ≤ x.value) ∨ (0 ≤ z.value ∧ x.value ≤ y.value)) := by
  intro interpreter header starts x y z
  have hz : (Value.str "-0.0").toNumber = .ok z := by decide +kernel
  have hzero : z.value = 0 := Number.value_eq_zero_iff.mpr (by decide)
  have hruns : starts ≠ [] :=
    (rounds_ne_nil_iff interpreter header [.text "x"] _ rfl rfl rfl rfl rfl hz).mpr (by decide)
  have hlarger : ¬ x.value ≤ y.value := by simp [x, y, Number.value]
  refine ⟨hz, hzero, ?_⟩
  simp [hruns, hzero, hlarger]

end Interpreter

end TagTemplate
