import Mathlib.Algebra.Order.Field.Basic
import Mathlib.Algebra.Order.Ring.Rat
import Mathlib.Data.Int.CharZero
import Mathlib.Order.Monotone.Basic
import TagTemplate.Proofs.Binary64
import TagTemplate.Value

/-!
The order of numbers.

Integers and reals are compared in two ways, which come to the same: the order of any two numbers
is that of their keys as reals (`Number.order_eq_compare`).  Keys are ordered like exact values,
except that negative zero comes before zero (`Number.orderKey_le_iff`).
-/

namespace TagTemplate

-- Powers are the built-in ones, whatever else is imported.
attribute [local instance (high)] instPowNat

namespace Binary64

/-! ## Units -/

theorem units_lt_units_succ (magnitude : Nat) : units magnitude < units (magnitude + 1) := by
  have hpow : 0 < 2 ^ shift magnitude := Nat.two_pow_pos _
  by_cases hsame : shift (magnitude + 1) = shift magnitude
  · have hnext : significand (magnitude + 1) = significand magnitude + 1 := by
      have := shift_mul_le magnitude
      unfold significand
      omega
    rw [units, units, hsame, hnext]
    exact Nat.mul_lt_mul_of_pos_right (Nat.lt_succ_self _) hpow
  · -- the significand starts again at half of where it ended, with the next shift
    have hshift : shift (magnitude + 1) = shift magnitude + 1 := by
      unfold shift at hsame ⊢
      omega
    have hhigh : significand (magnitude + 1) = 2 ^ 52 := by
      unfold significand
      unfold shift at hsame hshift ⊢
      omega
    calc units magnitude < 2 ^ 53 * 2 ^ shift magnitude :=
          Nat.mul_lt_mul_of_pos_right (significand_lt magnitude) hpow
      _ = 2 ^ 52 * 2 ^ (shift magnitude + 1) := by
        rw [Nat.pow_succ 2 (shift magnitude)]
        omega
      _ = units (magnitude + 1) := by rw [units, hshift, hhigh]

theorem units_strictMono : StrictMono units := strictMono_nat_of_lt_succ units_lt_units_succ

theorem units_zero : units 0 = 0 := by
  simp [units, significand]

theorem one_pos : 0 < one := by
  unfold one
  generalize 1074 = k
  exact Nat.two_pow_pos k

/-- Scaling puts the leading bit of the number at the top of the significand. -/
theorem scaled_bounds {n : Nat} (hne : n ≠ 0) (h : n < 2 ^ 53) :
    n.log2 ≤ 52 ∧ 2 ^ 52 ≤ n * 2 ^ (52 - n.log2) ∧ n * 2 ^ (52 - n.log2) < 2 ^ 53 := by
  have hlog : n.log2 ≤ 52 := Nat.le_of_lt_succ ((Nat.log2_lt hne).mpr h)
  refine ⟨hlog, ?_, ?_⟩
  · have := Nat.mul_le_mul_right (2 ^ (52 - n.log2)) (Nat.log2_self_le hne)
    rwa [← Nat.pow_add, Nat.add_sub_cancel' hlog] at this
  · have := Nat.mul_lt_mul_of_pos_right (Nat.lt_log2_self (n := n))
      (Nat.two_pow_pos (52 - n.log2))
    rwa [← Nat.pow_add, show n.log2 + 1 + (52 - n.log2) = 53 by omega] at this

theorem units_magnitudeOfNat {n : Nat} (h : n < 2 ^ 53) : units (magnitudeOfNat n) = n * one := by
  unfold magnitudeOfNat
  split
  · next hzero => rw [units_zero, hzero, Nat.zero_mul]
  · next hne =>
      obtain ⟨hlog, hlow, hhigh⟩ := scaled_bounds hne h
      have hshift : shift ((n.log2 + 1022) * 2 ^ 52 + n * 2 ^ (52 - n.log2)) = n.log2 + 1022 := by
        unfold shift
        omega
      rw [units, significand, hshift, Nat.add_sub_cancel_left, Nat.mul_assoc, ← Nat.pow_add, one,
        show 52 - n.log2 + (n.log2 + 1022) = 1074 by omega]

theorem magnitudeOfNat_lt_infiniteMagnitude {n : Nat} (h : n < 2 ^ 53) :
    magnitudeOfNat n < infiniteMagnitude := by
  unfold magnitudeOfNat infiniteMagnitude
  split
  · omega
  · next hne =>
      obtain ⟨hlog, -, hhigh⟩ := scaled_bounds hne h
      omega

/-! ## Signs -/

theorem isNegative_ofMagnitude (negative : Bool) {magnitude : Nat}
    (h : magnitude < infiniteMagnitude) :
    (ofMagnitude negative magnitude).isNegative = negative := by
  unfold infiniteMagnitude at h
  unfold ofMagnitude Binary64.isNegative
  cases negative <;> simp [Nat.toUInt64, UInt64.toNat_ofNat] <;> omega

/-- The exact value of a finite number, in units. -/
def signedUnits (x : Binary64) : Int :=
  if x.isNegative then -units x.magnitude else units x.magnitude

def zero : Binary64 := ⟨0⟩

def negativeZero : Binary64 := ⟨0x8000000000000000⟩

theorem eq_of_magnitude_eq_zero {x : Binary64} (h : x.magnitude = 0) :
    x = if x.isNegative then negativeZero else zero := by
  have hx := x.ofMagnitude_magnitude
  rw [h] at hx
  rw [← hx]
  cases x.isNegative <;> rfl

theorem signedUnits_ofInt32 (n : Int32) : (ofInt32 n).signedUnits = n.toInt * one := by
  have hlow := n.le_toInt
  have hhigh := n.toInt_lt
  have hsmall : n.toInt.natAbs < 2 ^ 53 := by omega
  have hfinite := magnitudeOfNat_lt_infiniteMagnitude hsmall
  unfold signedUnits ofInt32
  rw [isNegative_ofMagnitude _ hfinite, magnitude_ofMagnitude _ hfinite,
    units_magnitudeOfNat hsmall]
  rw [Int.natCast_mul]
  rcases lt_or_ge n.toInt 0 with hneg | hpos
  · have habs : (n.toInt.natAbs : Int) = -n.toInt := by omega
    rw [decide_eq_true hneg, if_pos rfl, habs, Int.neg_mul, Int.neg_neg]
  · have habs : (n.toInt.natAbs : Int) = n.toInt := by omega
    rw [decide_eq_false (not_lt.mpr hpos), if_neg Bool.false_ne_true, habs]

/-! ## Keys -/

theorem signedUnits_le_of_orderKey_le {x y : Binary64} (h : x.orderKey ≤ y.orderKey) :
    x.signedUnits ≤ y.signedUnits := by
  unfold orderKey at h
  unfold signedUnits
  split at h <;> split at h
  · have := units_strictMono.monotone (show y.magnitude ≤ x.magnitude by omega)
    simp_all
  · simp_all
  · omega
  · have := units_strictMono.monotone (show x.magnitude ≤ y.magnitude by omega)
    simp_all

theorem orderKey_lt_of_signedUnits_lt {x y : Binary64} (h : x.signedUnits < y.signedUnits) :
    x.orderKey < y.orderKey := by
  by_contra hle
  have := signedUnits_le_of_orderKey_le (not_lt.mp hle)
  omega

/-- Only the two zeros have the same value and different keys. -/
theorem orderKey_eq_of_signedUnits_eq {x y : Binary64} (h : x.signedUnits = y.signedUnits) :
    x.orderKey = y.orderKey ∨ (x = negativeZero ∧ y = zero) ∨ (x = zero ∧ y = negativeZero) := by
  have hzero : ∀ {a : Nat}, units a = 0 → a = 0 := by
    intro a ha
    exact units_strictMono.injective (ha.trans units_zero.symm)
  have hx := @eq_of_magnitude_eq_zero x
  have hy := @eq_of_magnitude_eq_zero y
  unfold signedUnits at h
  unfold orderKey
  cases hnx : x.isNegative <;> cases hny : y.isNegative <;>
    simp only [hnx, hny, Bool.false_eq_true, if_false, if_true] at h hx hy ⊢
  · left
    have hunits : units x.magnitude = units y.magnitude := by omega
    rw [units_strictMono.injective hunits]
  · right
    right
    exact ⟨hx (hzero (by omega)), hy (hzero (by omega))⟩
  · right
    left
    exact ⟨hx (hzero (by omega)), hy (hzero (by omega))⟩
  · left
    have hunits : units x.magnitude = units y.magnitude := by omega
    rw [units_strictMono.injective hunits]

end Binary64

namespace Number

/-! ## One order -/

def orderKey (a : Number) : Int := a.toReal.orderKey

theorem signedUnits_toReal_int (n : Int32) :
    (int n).toReal.signedUnits = n.toInt * Binary64.one :=
  Binary64.signedUnits_ofInt32 n

theorem orderKey_int_lt_iff (m n : Int32) :
    (int m).orderKey < (int n).orderKey ↔ m.toInt < n.toInt := by
  have hm := signedUnits_toReal_int m
  have hn := signedUnits_toReal_int n
  have hone : (0 : Int) < Binary64.one := by exact_mod_cast Binary64.one_pos
  constructor
  · intro h
    have hunits := Binary64.signedUnits_le_of_orderKey_le h.le
    rw [hm, hn, Int.mul_le_mul_iff_of_pos_right hone] at hunits
    refine lt_of_le_of_ne hunits fun heq => ?_
    rw [Int32.toInt_inj.mp heq] at h
    exact lt_irrefl _ h
  · intro h
    refine Binary64.orderKey_lt_of_signedUnits_lt ?_
    rw [hm, hn]
    exact Int.mul_lt_mul_of_pos_right h hone

/-- Two integers are compared as the reals that they are. -/
theorem order_eq_compare (a b : Number) : a.order b = compare a.orderKey b.orderKey := by
  cases a with
  | real x => rfl
  | int m =>
      cases b with
      | real y => rfl
      | int n =>
          have hlt := orderKey_int_lt_iff m n
          have hgt := orderKey_int_lt_iff n m
          rw [order]
          rcases lt_trichotomy m.toInt n.toInt with h | h | h
          · rw [compare_lt_iff_lt.mpr h, compare_lt_iff_lt.mpr (hlt.mpr h)]
          · rw [Int32.toInt_inj.mp h, compare_eq_iff_eq.mpr rfl, compare_eq_iff_eq.mpr rfl]
          · rw [compare_gt_iff_gt.mpr h, compare_gt_iff_gt.mpr (hgt.mpr h)]

theorem order_swap (a b : Number) : (a.order b).swap = b.order a := by
  rw [order_eq_compare, order_eq_compare, Std.OrientedOrd.eq_swap (a := b.orderKey)]

theorem order_ne_gt_iff {a b : Number} : a.order b ≠ .gt ↔ a.orderKey ≤ b.orderKey := by
  rw [order_eq_compare, compare_le_iff_le]

theorem order_ne_lt_iff {a b : Number} : a.order b ≠ .lt ↔ b.orderKey ≤ a.orderKey := by
  rw [order_eq_compare]
  exact compare_ge_iff_ge

/-! ## Exact values -/

/-- The exact value of a finite number. -/
def value : Number → ℚ
  | int n => n.toInt
  | real x => x.signedUnits / Binary64.one

theorem value_eq (a : Number) : a.value = a.toReal.signedUnits / Binary64.one := by
  cases a with
  | real x => rfl
  | int n =>
      have hone : (Binary64.one : ℚ) ≠ 0 := by exact_mod_cast Binary64.one_pos.ne'
      rw [signedUnits_toReal_int]
      push_cast
      rw [value, mul_div_cancel_right₀ _ hone]

theorem value_le_value_iff {a b : Number} :
    a.value ≤ b.value ↔ a.toReal.signedUnits ≤ b.toReal.signedUnits := by
  have hone : (0 : ℚ) < Binary64.one := by exact_mod_cast Binary64.one_pos
  rw [value_eq, value_eq, div_le_div_iff_of_pos_right hone, Int.cast_le]

theorem value_eq_zero_iff {a : Number} : a.value = 0 ↔ a.toReal.signedUnits = 0 := by
  have hone : (Binary64.one : ℚ) ≠ 0 := by exact_mod_cast Binary64.one_pos.ne'
  rw [value_eq, div_eq_zero_iff, or_iff_left hone, Int.cast_eq_zero]

def negativeZero : Number := real Binary64.negativeZero

theorem toReal_eq_negativeZero_iff {a : Number} :
    a.toReal = Binary64.negativeZero ↔ a = negativeZero := by
  cases a with
  | real x => simp [toReal, negativeZero]
  | int n =>
      have hunits := signedUnits_toReal_int n
      simp only [negativeZero, reduceCtorEq, iff_false]
      intro h
      -- only the integer zero has this value, and it is not negative
      rw [h, show Binary64.negativeZero.signedUnits = 0 by decide] at hunits
      have hzero : n = 0 := by
        have hone := Binary64.one_pos
        rcases mul_eq_zero.mp hunits.symm with hn | hn
        · exact Int32.toInt_inj.mp hn
        · omega
      subst hzero
      exact absurd h (by decide)

/-- At most as large, with negative zero in front of all other zeros. -/
def AtMost (a b : Number) : Prop :=
  a.value ≤ b.value ∧ (a.value = 0 → b = negativeZero → a = negativeZero)

theorem atMost_iff {a b : Number} (h : b ≠ negativeZero) : a.AtMost b ↔ a.value ≤ b.value := by
  simp [AtMost, h]

/-- Keys are ordered like values, but for the two zeros. -/
theorem orderKey_le_iff {a b : Number} : a.orderKey ≤ b.orderKey ↔ a.AtMost b := by
  rw [AtMost, value_le_value_iff, value_eq_zero_iff, ← toReal_eq_negativeZero_iff,
    ← toReal_eq_negativeZero_iff]
  unfold orderKey
  generalize a.toReal = x
  generalize b.toReal = y
  constructor
  · intro h
    refine ⟨Binary64.signedUnits_le_of_orderKey_le h, ?_⟩
    rintro hx rfl
    have hkey : x.orderKey ≤ -1 := h
    rcases Binary64.orderKey_eq_of_signedUnits_eq (y := Binary64.zero) hx with
      hzero | ⟨hx, -⟩ | ⟨-, hne⟩
    · have : x.orderKey = 0 := hzero
      omega
    · exact hx
    · exact absurd hne (by decide)
  · rintro ⟨hunits, hzero⟩
    rcases hunits.lt_or_eq with hlt | heq
    · exact (Binary64.orderKey_lt_of_signedUnits_lt hlt).le
    · rcases Binary64.orderKey_eq_of_signedUnits_eq heq with hkey | ⟨rfl, rfl⟩ | ⟨rfl, rfl⟩
      · exact hkey.le
      · decide
      · exact absurd (hzero (by decide) rfl) (by decide)

theorem order_zero_eq_lt_iff {a : Number} :
    a.order (.int 0) = .lt ↔ a.value < 0 ∨ a = negativeZero := by
  have hzero : (int 0).value = 0 := by simp [value]
  have hne : int 0 ≠ negativeZero := by simp [negativeZero]
  rw [← not_iff_not, ← Ne, order_ne_lt_iff, orderKey_le_iff, AtMost, hzero]
  simp [hne]

end Number

end TagTemplate
