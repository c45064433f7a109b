import Mathlib.Data.ENat.Lattice
import Mathlib.Data.Set.Card
import Mathlib.Tactic.Linarith
import Mathlib.Tactic.Ring
import TagTemplate.Proofs.Execution.Scope

/-!
Loops over integers.

The iterations of a loop are counted in unbounded integers: `IntegerRange.count` is the number of
terms of an arithmetic progression up to the first one past the end.  A loop with integer bounds
runs its body once for each of these terms (`LoopControl.finish_sameOutcome`).  The counter wraps
at 32 bits only when the next term is past the end, and the loop is over then.
-/

namespace TagTemplate

/-! ## Progressions -/

/-- The progression from `start` by `step`, and the end that it is compared with. -/
structure IntegerRange where
  start : Int
  stop : Int
  step : Int

namespace IntegerRange

variable (range : IntegerRange)

def nth (k : Nat) : Int := range.start + k * range.step

def next : IntegerRange := { range with start := range.start + range.step }

/-- Not past the end, in the direction of the step. -/
def Covers (i : Int) : Prop := if 0 ≤ range.step then i ≤ range.stop else range.stop ≤ i

instance (i : Int) : Decidable (range.Covers i) :=
  inferInstanceAs (Decidable (if 0 ≤ range.step then i ≤ range.stop else range.stop ≤ i))

/-- How many terms come before the first one past the end. -/
noncomputable def count : ℕ∞ := {k : ℕ | ∀ j ≤ k, range.Covers (range.nth j)}.encard

theorem nth_zero : range.nth 0 = range.start := by
  simp [nth]

theorem nth_next (k : Nat) : range.next.nth k = range.nth (k + 1) := by
  simp only [nth, next]
  push_cast
  ring

theorem covers_next (i : Int) : range.next.Covers i ↔ range.Covers i := Iff.rfl

variable {range}

theorem covers_of_nonneg (h : 0 ≤ range.step) (i : Int) : range.Covers i ↔ i ≤ range.stop := by
  simp [Covers, h]

theorem covers_of_neg (h : range.step < 0) (i : Int) : range.Covers i ↔ range.stop ≤ i := by
  simp [Covers, not_le.mpr h]

theorem Covers.nth_of_le {j k : Nat} (h : range.Covers (range.nth k)) (hjk : j ≤ k) :
    range.Covers (range.nth j) := by
  -- progressions are monotone in the direction of the step
  have hcast : (j : Int) ≤ k := by exact_mod_cast hjk
  rcases le_or_gt 0 range.step with hstep | hstep
  · rw [covers_of_nonneg hstep] at h ⊢
    have hterms : range.nth j ≤ range.nth k :=
      Int.add_le_add_left (Int.mul_le_mul_of_nonneg_right hcast hstep) _
    exact hterms.trans h
  · rw [covers_of_neg hstep] at h ⊢
    have hterms : range.nth k ≤ range.nth j :=
      Int.add_le_add_left (Int.mul_le_mul_of_nonpos_right hcast hstep.le) _
    exact h.trans hterms

theorem count_eq (range : IntegerRange) :
    range.count = {k : ℕ | range.Covers (range.nth k)}.encard := by
  have hset : {k : ℕ | ∀ j ≤ k, range.Covers (range.nth j)} =
      {k : ℕ | range.Covers (range.nth k)} := by
    ext k
    constructor
    · intro h
      exact h k le_rfl
    · intro h j hj
      exact h.nth_of_le hj
  rw [count, hset]

theorem count_of_not_covers (h : ¬ range.Covers range.start) : range.count = 0 := by
  rw [count_eq, Set.encard_eq_zero, Set.eq_empty_iff_forall_notMem]
  intro k hk
  have hzero : range.Covers (range.nth 0) := Covers.nth_of_le hk (Nat.zero_le k)
  rw [nth_zero] at hzero
  exact h hzero

theorem count_of_covers (h : range.Covers range.start) :
    range.count = range.next.count + 1 := by
  have hset : {k : ℕ | range.Covers (range.nth k)} =
      insert 0 (Nat.succ '' {k : ℕ | range.next.Covers (range.next.nth k)}) := by
    ext k
    cases k with
    | zero => simpa [nth_zero] using h
    | succ k => simp [nth_next, covers_next]
  have hzero : 0 ∉ Nat.succ '' {k : ℕ | range.next.Covers (range.next.nth k)} := by
    simp
  rw [count_eq, hset, Set.encard_insert_of_notMem hzero,
    Nat.succ_injective.encard_image, ← count_eq]

theorem covers_nth_of_lt_count {k : Nat} (h : (k : ℕ∞) < range.count) :
    range.Covers (range.nth k) := by
  induction k generalizing range with
  | zero =>
      rw [nth_zero]
      by_contra hcovers
      rw [count_of_not_covers hcovers] at h
      exact absurd h (by simp)
  | succ k ih =>
      have hstart : range.Covers range.start := by
        by_contra hcovers
        rw [count_of_not_covers hcovers] at h
        exact absurd h (by simp)
      rw [count_of_covers hstart, Nat.cast_succ] at h
      have hnext := @ih range.next (lt_of_add_lt_add_right h)
      rwa [nth_next, covers_next] at hnext

private theorem fdiv_of_neg {b : Int} (h : b < 0) (a : Int) : a.fdiv b = -a / -b := by
  rw [← Int.neg_fdiv_neg, Int.fdiv_eq_ediv_of_nonneg _ (by omega)]

private theorem fdiv_le_natAbs (a b : Int) : a.fdiv b ≤ a.natAbs := by
  rcases le_or_gt 0 b with hb | hb
  · rw [Int.fdiv_eq_ediv_of_nonneg _ hb]
    have hle := Int.natAbs_ediv_le_natAbs a b
    omega
  · rw [fdiv_of_neg hb]
    have hle := Int.natAbs_ediv_le_natAbs (-a) (-b)
    omega

theorem covers_nth_iff (h : range.step ≠ 0) (k : Nat) :
    range.Covers (range.nth k) ↔ (k : Int) ≤ (range.stop - range.start).fdiv range.step := by
  rcases lt_or_gt_of_ne h with hneg | hpos
  · rw [covers_of_neg hneg, fdiv_of_neg hneg, Int.le_ediv_iff_mul_le (by omega), nth]
    constructor <;> intro hle <;> linarith
  · rw [covers_of_nonneg hpos.le, Int.fdiv_eq_ediv_of_nonneg _ hpos.le,
      Int.le_ediv_iff_mul_le hpos, nth]
    constructor <;> intro hle <;> linarith

theorem count_of_step_ne_zero (h : range.step ≠ 0) :
    range.count = ((range.stop - range.start).fdiv range.step + 1).toNat := by
  have hset : {k : ℕ | range.Covers (range.nth k)} =
      Finset.range ((range.stop - range.start).fdiv range.step + 1).toNat := by
    ext k
    simp only [Set.mem_ofPred_eq, covers_nth_iff h, Finset.coe_range, Set.mem_Iio]
    omega
  rw [count_eq, hset, Set.encard_coe_eq_coe_finsetCard, Finset.card_range]

theorem count_of_step_eq_zero (h : range.step = 0) :
    range.count = if range.start ≤ range.stop then ⊤ else 0 := by
  split
  · next hle =>
      have hset : {k : ℕ | range.Covers (range.nth k)} = Set.univ := by
        ext k
        simp [covers_of_nonneg h.ge, nth, h, hle]
      rw [count_eq, hset, Set.encard_univ]
      exact ENat.card_eq_top_of_infinite
  · next hgt =>
      apply count_of_not_covers
      rwa [covers_of_nonneg h.ge]

theorem count_le (h : range.count ≠ ⊤) :
    range.count ≤ ((range.stop - range.start).natAbs + 1 : Nat) := by
  by_cases hstep : range.step = 0
  · rw [count_of_step_eq_zero hstep] at h ⊢
    split
    · next hle =>
        rw [if_pos hle] at h
        exact absurd rfl h
    · exact zero_le
  · rw [count_of_step_ne_zero hstep]
    have hdiv := fdiv_le_natAbs (range.stop - range.start) range.step
    have hle : ((range.stop - range.start).fdiv range.step + 1).toNat ≤
        (range.stop - range.start).natAbs + 1 := by omega
    exact_mod_cast hle

/-! ## Terms of 32 bits -/

def ofInt32 (start stop step : Int32) : IntegerRange := ⟨start.toInt, stop.toInt, step.toInt⟩

theorem count_ofInt32_le {a b s : Int32} (h : (ofInt32 a b s).count ≠ ⊤) :
    (ofInt32 a b s).count ≤ (2 ^ 32 : Nat) := by
  have hle : (b.toInt - a.toInt).natAbs + 1 ≤ 2 ^ 32 := by
    have := a.le_toInt
    have := a.toInt_lt
    have := b.le_toInt
    have := b.toInt_lt
    omega
  exact (count_le h).trans (by exact_mod_cast hle)

theorem toInt_ofInt_nth {a b s : Int32} {k : Nat} (h : (k : ℕ∞) < (ofInt32 a b s).count) :
    (Int32.ofInt ((ofInt32 a b s).nth k)).toInt = (ofInt32 a b s).nth k := by
  -- the term lies between the start and the end
  have hterm := covers_nth_of_lt_count h
  have ha := a.le_toInt
  have ha' := a.toInt_lt
  have hb := b.le_toInt
  have hb' := b.toInt_lt
  apply Int32.toInt_ofInt_of_le
  · rcases le_or_gt 0 s.toInt with hs | hs
    · have hmul : 0 ≤ (k : Int) * s.toInt := Int.mul_nonneg (by omega) hs
      simp only [nth, ofInt32]
      omega
    · rw [covers_of_neg hs] at hterm
      exact hb.trans hterm
  · rcases le_or_gt 0 s.toInt with hs | hs
    · rw [covers_of_nonneg hs] at hterm
      exact hterm.trans_lt hb'
    · have hmul : (k : Int) * s.toInt ≤ 0 :=
        Int.mul_nonpos_of_nonneg_of_nonpos (by omega) hs.le
      simp only [nth, ofInt32]
      omega

theorem ofInt32_add {a s : Int32} (b : Int32) (h : (a + s).toInt = a.toInt + s.toInt) :
    ofInt32 (a + s) b s = (ofInt32 a b s).next := by
  simp only [ofInt32, next, h]

/-- The values of a counter: the start as it was given, then integers. -/
def values (range : IntegerRange) (start : Value) (n : Nat) : List Value :=
  (List.range n).map fun k => if k = 0 then start else .int (.ofInt (range.nth k))

theorem values_succ (range : IntegerRange) (start : Value) (n : Nat) :
    range.values start (n + 1) =
      start :: range.next.values (.int (.ofInt range.next.start)) n := by
  simp only [values, List.range_succ_eq_map, List.map_cons, List.map_map, if_true]
  congr 1
  apply List.map_congr_left
  intro k _
  cases k with
  | zero => simp [← nth_next, nth_zero]
  | succ k => simp [nth_next]

end IntegerRange

namespace LoopControl

/-! ## Integer counters -/

variable {counter : String} {a b s : Int32}

theorem past_of_ints : past ⟨counter, .int b, .int s⟩ = if 0 ≤ s.toInt then .gt else .lt := by
  simp only [past, Number.order, Int32.toInt_zero, compare_lt_iff_lt]
  split <;> split <;> first | rfl | omega

theorem order_eq_past_iff :
    (Number.int a).order (.int b) = past ⟨counter, .int b, .int s⟩ ↔
      ¬ (IntegerRange.ofInt32 a b s).Covers a.toInt := by
  rw [past_of_ints]
  rcases le_or_gt 0 s.toInt with hs | hs
  · rw [IntegerRange.covers_of_nonneg hs, if_pos hs, not_le]
    exact compare_gt_iff_gt
  · rw [IntegerRange.covers_of_neg hs, if_neg (not_le.mpr hs), not_le]
    exact compare_lt_iff_lt

theorem toInt_add_cases (a s : Int32) :
    (a + s).toInt = a.toInt + s.toInt ∨
      (2 ^ 31 ≤ a.toInt + s.toInt ∧ (a + s).toInt = a.toInt + s.toInt - 2 ^ 32) ∨
      (a.toInt + s.toInt < -2 ^ 31 ∧ (a + s).toInt = a.toInt + s.toInt + 2 ^ 32) := by
  have hsum : (a + s).toInt = (a.toInt + s.toInt).bmod (2 ^ 32) := Int32.toInt_add a s
  have := a.le_toInt
  have := a.toInt_lt
  have := s.le_toInt
  have := s.toInt_lt
  rw [hsum, Int.bmod_def]
  split <;> omega

/-- The counter moves against the direction of the loop only if it wraps. -/
theorem order_add_eq_past_swap_iff :
    (Number.apply .add (.int a) (.int s)).order (.int a) =
      (past ⟨counter, .int b, .int s⟩).swap ↔ (a + s).toInt ≠ a.toInt + s.toInt := by
  have hcases := toInt_add_cases a s
  have := a.le_toInt
  have := a.toInt_lt
  have := s.le_toInt
  have := s.toInt_lt
  rw [past_of_ints]
  rcases le_or_gt 0 s.toInt with hs | hs
  · rw [if_pos hs]
    refine compare_lt_iff_lt.trans ?_
    omega
  · rw [if_neg (not_le.mpr hs)]
    refine compare_gt_iff_gt.trans ?_
    omega

theorem not_covers_of_wraps (h : (a + s).toInt ≠ a.toInt + s.toInt) :
    ¬ (IntegerRange.ofInt32 a b s).next.Covers (IntegerRange.ofInt32 a b s).next.start := by
  -- the sum is outside of 32 bits, the end is not
  have hcases := toInt_add_cases a s
  have := a.le_toInt
  have := a.toInt_lt
  have := b.le_toInt
  have := b.toInt_lt
  rw [IntegerRange.covers_next]
  rcases le_or_gt 0 s.toInt with hs | hs
  · rw [IntegerRange.covers_of_nonneg hs]
    simp only [IntegerRange.ofInt32, IntegerRange.next]
    omega
  · rw [IntegerRange.covers_of_neg hs]
    simp only [IntegerRange.ofInt32, IntegerRange.next]
    omega

end LoopControl

/-! ## Runs of a body -/

namespace Exec

/-- Runs the body once for each value, with the value on top of the stack of the counter. -/
def forEach (counter : String) (body : Exec Unit) : List Value → Exec Unit
  | [] => pure ()
  | value :: rest => do
      pushVariable counter value
      body
      popVariable counter
      forEach counter body rest

/-- Runs with the same result and context and, if they succeed, the same stacks. -/
structure SameOutcome (p q : Except ExecError Unit × Machine) : Prop where
  result : p.1 = q.1
  context : p.2.context = q.2.context
  values : p.1 = .ok () → ∀ name, p.2.scope.values name = q.2.scope.values name

theorem SameOutcome.of_eq {p q : Except ExecError Unit × Machine} (h : p = q) :
    SameOutcome p q := by
  subst h
  exact ⟨rfl, rfl, fun _ _ => rfl⟩

variable {counter : String} {body : Exec Unit} {m : Machine} {value : Value}

theorem forEach_of_error {rest : List Value} {e : ExecError} {m' : Machine}
    (h : body ⟨m.scope.push counter value, m.context⟩ = (.error e, m')) :
    forEach counter body (value :: rest) m = (.error e, m') := by
  unfold forEach
  rw [bind_of_ok (pushVariable_apply counter value m), bind_of_error h]

theorem values_of_body (hbody : Balanced body) {mid : Machine}
    (h : body ⟨m.scope.push counter value, m.context⟩ = (.ok (), mid)) :
    mid.scope.values counter = value :: m.scope.values counter := by
  rw [hbody _ _ h, NamedStacks.values_push, if_pos rfl]

theorem forEach_of_ok (hbody : Balanced body) {rest : List Value} {mid : Machine}
    (h : body ⟨m.scope.push counter value, m.context⟩ = (.ok (), mid)) :
    forEach counter body (value :: rest) m =
      forEach counter body rest
        ⟨⟨mid.scope.byName.insert counter (m.scope.values counter)⟩, mid.context⟩ := by
  rw [forEach, bind_of_ok (pushVariable_apply counter value m), bind_of_ok h,
    bind_of_ok (popVariable_of_values (values_of_body hbody h))]

theorem bind_congr_apply {x y : Exec Unit} {m m' : Machine} (f : Unit → Exec Unit)
    (h : x m = y m') : (x >>= f) m = (y >>= f) m' := by
  cases hy : y m' with
  | mk result last =>
      rw [hy] at h
      cases result with
      | error e => rw [bind_of_error h, bind_of_error hy]
      | ok _ => rw [bind_of_ok h, bind_of_ok hy]

end Exec

namespace IntegerRange

/-- As many runs as a budget allows, and the failure if that leaves some out. -/
noncomputable def runs (range : IntegerRange) (counter : String) (exhausted : ExecError)
    (body : Exec Unit) (start : Value) (budget : Nat) : Exec Unit := do
  Exec.forEach counter body (range.values start (min range.count budget).toNat)
  if range.count ≤ budget then pure () else throw exhausted

variable {range : IntegerRange} {counter : String} {exhausted : ExecError} {body : Exec Unit}
  {start : Value} {budget : Nat} {m : Machine}

theorem runs_of_le (h : range.count ≤ budget) :
    range.runs counter exhausted body start budget m =
      Exec.forEach counter body (range.values start range.count.toNat) m := by
  rw [runs, min_eq_left h, if_pos h]
  exact congrFun (bind_pure _) m

theorem runs_of_lt (h : budget < range.count) :
    range.runs counter exhausted body start budget =
      (Exec.forEach counter body (range.values start budget) >>= fun _ => throw exhausted) := by
  rw [runs, min_eq_right h.le, if_neg (not_le.mpr h), ENat.toNat_natCast]

theorem runs_of_not_covers (h : ¬ range.Covers range.start) :
    range.runs counter exhausted body start budget m = (.ok (), m) := by
  rw [runs, count_of_not_covers h, if_pos zero_le]
  rfl

theorem runs_zero_of_covers (h : range.Covers range.start) :
    range.runs counter exhausted body start 0 m = (.error exhausted, m) := by
  have hlimit : ¬ range.count ≤ (0 : Nat) := by
    rw [count_of_covers h]
    simp
  have hnone : (min range.count (0 : Nat)).toNat = 0 := by simp
  rw [runs, if_neg hlimit, hnone]
  rfl

theorem runs_succ_of_covers (h : range.Covers range.start) :
    range.runs counter exhausted body start (budget + 1) = (do
      Exec.forEach counter body (start ::
        range.next.values (.int (.ofInt range.next.start)) (min range.next.count budget).toNat)
      if range.next.count ≤ budget then pure () else throw exhausted) := by
  have hcount := count_of_covers h
  have hmin : (min range.count (budget + 1 : Nat)).toNat =
      (min range.next.count budget).toNat + 1 := by
    rw [hcount, Nat.cast_succ, min_add_add_right, ENat.toNat_add, ENat.toNat_one]
    · exact ne_top_of_le_ne_top (ENat.natCast_ne_top budget) (min_le_right _ _)
    · exact ENat.one_ne_top
  have hlimit : range.count ≤ (budget + 1 : Nat) ↔ range.next.count ≤ budget := by
    rw [hcount, Nat.cast_succ]
    exact ENat.add_le_add_iff_right ENat.one_ne_top
  rw [runs, hmin, values_succ]
  simp only [hlimit]

theorem runs_of_error {e : ExecError} {m' : Machine} (h : range.Covers range.start)
    (hrun : body ⟨m.scope.push counter start, m.context⟩ = (.error e, m')) :
    range.runs counter exhausted body start (budget + 1) m = (.error e, m') := by
  rw [runs_succ_of_covers h, Exec.bind_of_error (Exec.forEach_of_error hrun)]

theorem runs_of_ok (hbody : Exec.Balanced body) {mid : Machine} (h : range.Covers range.start)
    (hrun : body ⟨m.scope.push counter start, m.context⟩ = (.ok (), mid)) :
    range.runs counter exhausted body start (budget + 1) m =
      range.next.runs counter exhausted body (.int (.ofInt range.next.start)) budget
        ⟨⟨mid.scope.byName.insert counter (m.scope.values counter)⟩, mid.context⟩ := by
  rw [runs_succ_of_covers h, runs]
  exact Exec.bind_congr_apply _ (Exec.forEach_of_ok hbody hrun)

end IntegerRange

namespace LoopControl

section OneStep

variable {counter : String} {a b s : Int32} {exhausted : ExecError} {body : Exec Unit}
  {budget : Nat} {m : Machine} {top : Value} {below : List Value}
  (h : m.scope.values counter = top :: below) (ha : top.toNumber = .ok (.int a))

include h ha

theorem isOver_of_ints :
    isOver ⟨counter, .int b, .int s⟩ m =
      (.ok (decide ¬ (IntegerRange.ofInt32 a b s).Covers a.toInt), m) := by
  have hiff := @order_eq_past_iff counter a b s
  rw [isOver_of_values h ha, ← decide_eq_decide.mpr hiff, beq_eq_decide]

theorem advance_of_ints :
    advance ⟨counter, .int b, .int s⟩ m =
      if (a + s).toInt = a.toInt + s.toInt then
        (.ok true, ⟨⟨m.scope.byName.insert counter (.int (a + s) :: below)⟩, m.context⟩)
      else (.ok false, m) := by
  have hadvance := @advance_of_values ⟨counter, .int b, .int s⟩ m top below (.int a) h ha
  by_cases hwraps : (a + s).toInt = a.toInt + s.toInt
  · rw [if_neg (fun hback => order_add_eq_past_swap_iff.mp hback hwraps)] at hadvance
    rw [hadvance, if_pos hwraps]
    rfl
  · rw [if_pos (order_add_eq_past_swap_iff.mpr hwraps)] at hadvance
    rw [hadvance, if_neg hwraps]

theorem iterate_of_not_covers (hover : ¬ (IntegerRange.ofInt32 a b s).Covers a.toInt) :
    iterate ⟨counter, .int b, .int s⟩ exhausted body budget m = (.ok (), m) := by
  cases budget with
  | zero =>
      rw [iterate, Exec.bind_of_ok (isOver_of_ints h ha), decide_eq_true hover]
      rfl
  | succ budget =>
      rw [iterate, Exec.bind_of_ok (isOver_of_ints h ha), decide_eq_true hover]
      rfl

theorem iterate_zero_of_covers (hcovers : (IntegerRange.ofInt32 a b s).Covers a.toInt) :
    iterate ⟨counter, .int b, .int s⟩ exhausted body 0 m = (.error exhausted, m) := by
  rw [iterate, Exec.bind_of_ok (isOver_of_ints h ha), decide_eq_false (not_not.mpr hcovers)]
  rfl

theorem iterate_succ_of_covers (hcovers : (IntegerRange.ofInt32 a b s).Covers a.toInt)
    (exhausted : ExecError) (body : Exec Unit) (budget : Nat) :
    iterate ⟨counter, .int b, .int s⟩ exhausted body (budget + 1) m =
      (body >>= fun _ => do
        if ← advance ⟨counter, .int b, .int s⟩ then
          iterate ⟨counter, .int b, .int s⟩ exhausted body budget
        else pure ()) m := by
  rw [iterate, Exec.bind_of_ok (isOver_of_ints h ha), decide_eq_false (not_not.mpr hcovers)]
  rfl

end OneStep

/-! ## Runs of a loop -/

def finish (counter : String) (b s : Int32) (exhausted : ExecError) (body : Exec Unit)
    (budget : Nat) : Exec Unit := do
  iterate ⟨counter, .int b, .int s⟩ exhausted body budget
  Exec.popVariable counter

section Finish

variable {counter : String} {a b s : Int32} {exhausted : ExecError} {body : Exec Unit}
  {budget : Nat} {m : Machine} {start : Value} (ha : start.toNumber = .ok (.int a))

include ha

theorem finish_of_not_covers (hover : ¬ (IntegerRange.ofInt32 a b s).Covers a.toInt) :
    finish counter b s exhausted body budget ⟨m.scope.push counter start, m.context⟩ =
      (.ok (), ⟨⟨m.scope.byName.insert counter (m.scope.values counter)⟩, m.context⟩) := by
  have htop := NamedStacks.values_push_self m.scope counter start
  rw [finish, Exec.bind_of_ok (iterate_of_not_covers htop ha hover)]
  rw [Exec.popVariable_of_values htop, NamedStacks.push, NameMap.insert_insert]

theorem finish_zero_of_covers (hcovers : (IntegerRange.ofInt32 a b s).Covers a.toInt) :
    finish counter b s exhausted body 0 ⟨m.scope.push counter start, m.context⟩ =
      (.error exhausted, ⟨m.scope.push counter start, m.context⟩) := by
  have htop := NamedStacks.values_push_self m.scope counter start
  rw [finish, Exec.bind_of_error (iterate_zero_of_covers htop ha hcovers)]

theorem finish_of_error (hcovers : (IntegerRange.ofInt32 a b s).Covers a.toInt) {e : ExecError}
    {m' : Machine} (hrun : body ⟨m.scope.push counter start, m.context⟩ = (.error e, m')) :
    finish counter b s exhausted body (budget + 1) ⟨m.scope.push counter start, m.context⟩ =
      (.error e, m') := by
  have htop := NamedStacks.values_push_self m.scope counter start
  have hiterate := (iterate_succ_of_covers htop ha hcovers exhausted body budget).trans
    (Exec.bind_of_error hrun)
  rw [finish, Exec.bind_of_error hiterate]

/-- A loop goes on after a run of the body unless its counter wraps. -/
theorem finish_of_ok (hbody : Exec.Balanced body)
    (hcovers : (IntegerRange.ofInt32 a b s).Covers a.toInt) {mid popped : Machine}
    (hrun : body ⟨m.scope.push counter start, m.context⟩ = (.ok (), mid))
    (hpopped : popped = ⟨⟨mid.scope.byName.insert counter (m.scope.values counter)⟩, mid.context⟩) :
    finish counter b s exhausted body (budget + 1) ⟨m.scope.push counter start, m.context⟩ =
      if (a + s).toInt = a.toInt + s.toInt then
        finish counter b s exhausted body budget
          ⟨popped.scope.push counter (.int (a + s)), popped.context⟩
      else (.ok (), popped) := by
  have htop := NamedStacks.values_push_self m.scope counter start
  have hmid := Exec.values_of_body hbody hrun
  have hadvance := @advance_of_ints counter a b s mid start _ hmid ha
  have hiterate := (iterate_succ_of_covers htop ha hcovers exhausted body budget).trans
    (Exec.bind_of_ok hrun)
  rw [finish, Exec.bind_congr_apply _ hiterate, hpopped]
  by_cases hexact : (a + s).toInt = a.toInt + s.toInt
  · rw [if_pos hexact] at hadvance ⊢
    rw [Exec.bind_congr_apply _ (Exec.bind_of_ok hadvance), NamedStacks.push_insert]
    rfl
  · rw [if_neg hexact] at hadvance ⊢
    rw [Exec.bind_congr_apply _ (Exec.bind_of_ok hadvance)]
    exact Exec.popVariable_of_values hmid

end Finish

theorem finish_sameOutcome {counter : String} {b s : Int32} {exhausted : ExecError}
    {body : Exec Unit} (hbody : Exec.Balanced body) (budget : Nat) {a : Int32} {start : Value}
    (ha : start.toNumber = .ok (.int a)) (m : Machine) :
    Exec.SameOutcome
      (finish counter b s exhausted body budget ⟨m.scope.push counter start, m.context⟩)
      ((IntegerRange.ofInt32 a b s).runs counter exhausted body start budget m) := by
  induction budget generalizing a start m with
  | zero =>
      by_cases hcovers : (IntegerRange.ofInt32 a b s).Covers a.toInt
      · rw [finish_zero_of_covers ha hcovers, IntegerRange.runs_zero_of_covers hcovers]
        exact ⟨rfl, rfl, nofun⟩
      · rw [finish_of_not_covers ha hcovers, IntegerRange.runs_of_not_covers hcovers]
        exact ⟨rfl, rfl, fun _ => m.scope.values_insert_values counter⟩
  | succ budget ih =>
      by_cases hcovers : (IntegerRange.ofInt32 a b s).Covers a.toInt
      · cases hrun : body ⟨m.scope.push counter start, m.context⟩ with
        | mk result mid =>
            cases result with
            | error e =>
                rw [finish_of_error ha hcovers hrun, IntegerRange.runs_of_error hcovers hrun]
                exact .of_eq rfl
            | ok _ =>
                rw [finish_of_ok ha hbody hcovers hrun rfl,
                  IntegerRange.runs_of_ok hbody hcovers hrun]
                split
                · next hexact =>
                    have hstart : Int32.ofInt (IntegerRange.ofInt32 (a + s) b s).start = a + s :=
                      Int32.ofInt_toInt (a + s)
                    rw [← IntegerRange.ofInt32_add b hexact, hstart]
                    exact ih rfl _
                · next hwraps =>
                    rw [IntegerRange.runs_of_not_covers (not_covers_of_wraps hwraps)]
                    exact .of_eq rfl
      · rw [finish_of_not_covers ha hcovers, IntegerRange.runs_of_not_covers hcovers]
        exact ⟨rfl, rfl, fun _ => m.scope.values_insert_values counter⟩

end LoopControl

namespace Interpreter

theorem count_le_loopBudget_iff (interpreter : Interpreter) {a b s : Int32}
    (h : (IntegerRange.ofInt32 a b s).count ≠ ⊤) :
    (IntegerRange.ofInt32 a b s).count ≤ interpreter.loopBudget ↔
      interpreter.maxLoopIterations = 0 ∨
        (IntegerRange.ofInt32 a b s).count ≤ interpreter.maxLoopIterations.toNat := by
  by_cases hcap : interpreter.maxLoopIterations = 0
  · have hbudget : (2 ^ 32 : Nat) ≤ interpreter.loopBudget := by
      rw [loopBudget, if_pos hcap]
      decide
    have hle := (IntegerRange.count_ofInt32_le h).trans (Nat.cast_le.mpr hbudget)
    simp [hcap, hle]
  · simp [loopBudget, hcap]

/-- Integer loops run their body once for each term up to the end, within the limit. -/
theorem runNode_integerLoop (interpreter : Interpreter) (header : LoopHeader) (body : List Node)
    (m : Machine) {start stop step : Value} {a b s : Int32}
    (hstart : (Exec.bound header.start m).1 = .ok start)
    (hstop : (Exec.bound header.stop m).1 = .ok stop)
    (hstep : (Exec.stepBound header.step m).1 = .ok step)
    (ha : start.toNumber = .ok (.int a)) (hb : stop.toNumber = .ok (.int b))
    (hs : step.toNumber = .ok (.int s)) :
    let range := IntegerRange.ofInt32 a b s
    let cap := interpreter.maxLoopIterations
    let loop := interpreter.runNode (.forLoop header body)
    let runs := fun n : Nat =>
      Exec.forEach header.counter (interpreter.runNodes body) (range.values start n)
    (s.toInt ≠ 0 → range.count = ((b.toInt - a.toInt).fdiv s.toInt + 1).toNat) ∧
    (s.toInt = 0 → range.count = if a.toInt ≤ b.toInt then ⊤ else 0) ∧
    (∀ k : Nat, k < range.count →
      (Int32.ofInt (range.nth k)).toInt = a.toInt + k * s.toInt) ∧
    (range.count ≠ ⊤ → cap = 0 ∨ range.count ≤ cap.toNat →
      Exec.SameOutcome (loop m) (runs range.count.toNat m)) ∧
    (cap ≠ 0 → cap.toNat < range.count →
      Exec.SameOutcome (loop m)
        ((runs cap.toNat >>= fun _ => throw (.loopLimit header.counter cap)) m)) := by
  intro range cap loop runs
  have houtcome : Exec.SameOutcome (loop m)
      (range.runs header.counter (interpreter.loopExhausted header.counter)
        (interpreter.runNodes body) start interpreter.loopBudget m) := by
    have hloop := forLoop_of_bounds interpreter (interpreter.runNodes body) hstart hstop hstep
      ha hb hs
    rw [show loop m = _ from hloop]
    exact LoopControl.finish_sameOutcome (interpreter.balanced_runNodes body) _ ha m
  refine ⟨fun h => IntegerRange.count_of_step_ne_zero h,
    fun h => IntegerRange.count_of_step_eq_zero h,
    fun k hk => IntegerRange.toInt_ofInt_nth hk, ?_, ?_⟩
  · intro hfinite hcap
    have hbudget := (count_le_loopBudget_iff interpreter hfinite).mpr hcap
    rw [IntegerRange.runs_of_le hbudget] at houtcome
    exact houtcome
  · intro hcap hlt
    have hbudget : interpreter.loopBudget = cap.toNat := if_neg hcap
    have hexhausted : interpreter.loopExhausted header.counter = .loopLimit header.counter cap :=
      if_neg hcap
    rw [hbudget, hexhausted, IntegerRange.runs_of_lt hlt] at houtcome
    exact houtcome

theorem runNode_integerLoop_last_value :
    Exec.SameOutcome
      (standard.runNode (.forLoop ⟨"i", .str "2147483646", .int 2147483647, none⟩
        [.echo [.var "i"]]) ⟨.empty, .buffered⟩)
      (Exec.forEach "i" (standard.runNodes [.echo [.var "i"]])
        [.str "2147483646", .int 2147483647] ⟨.empty, .buffered⟩) := by
  have ha : (Value.str "2147483646").toNumber = .ok (.int 2147483646) := by decide
  obtain ⟨hcount, -, -, hruns, -⟩ := runNode_integerLoop standard
    ⟨"i", .str "2147483646", .int 2147483647, none⟩ [.echo [.var "i"]] ⟨.empty, .buffered⟩
    rfl rfl rfl ha rfl rfl
  have htwo : (IntegerRange.ofInt32 2147483646 2147483647 1).count = (2 : Nat) :=
    hcount (by decide)
  rw [htwo] at hruns
  have hcap : (2 : Nat) ≤ standard.maxLoopIterations.toNat := by decide
  exact hruns (ENat.natCast_ne_top 2) (.inr (Nat.cast_le.mpr hcap))

end Interpreter

end TagTemplate
