import Mathlib.Data.Int.ModEq
import TagTemplate.Value

/-!
Arithmetic of values.

An operation succeeds on all values that stand for numbers and on no others, and tells which
operand was not one.  Integers give the exact result modulo `2 ^ 32`, or a real where the result
is not kept as an integer (`Value.update_arithmetic`).
-/

namespace TagTemplate

/-! ## Wrapping integers -/

theorem toInt_add_modEq (m n : Int32) : (m + n).toInt ≡ m.toInt + n.toInt [ZMOD 2 ^ 32] := by
  rw [Int32.toInt_add]
  exact Int.bmod_emod

theorem toInt_sub_modEq (m n : Int32) : (m - n).toInt ≡ m.toInt - n.toInt [ZMOD 2 ^ 32] := by
  rw [Int32.toInt_sub]
  exact Int.bmod_emod

theorem toInt_mul_modEq (m n : Int32) : (m * n).toInt ≡ m.toInt * n.toInt [ZMOD 2 ^ 32] := by
  rw [Int32.toInt_mul]
  exact Int.bmod_emod

theorem square_pow_modEq (base : Int32) (k : Nat) :
    (base * base).toInt ^ k ≡ base.toInt ^ (2 * k) [ZMOD 2 ^ 32] := by
  rw [pow_mul, pow_two]
  exact (toInt_mul_modEq base base).pow k

/-- Squares are wrapped on the way, which does not change the residue of the power. -/
theorem toInt_wrappingPow_modEq (base : Int32) (exponent : Nat) :
    (wrappingPow base exponent).toInt ≡ base.toInt ^ exponent [ZMOD 2 ^ 32] := by
  -- the base is squared as the exponent is halved, so both change in the induction
  induction base, exponent using wrappingPow.induct with
  | case1 base =>
      rw [wrappingPow, if_pos rfl, pow_zero]
      rfl
  | case2 base exponent hne hodd ih =>
      have hexponent : exponent = 2 * (exponent / 2) + 1 := by omega
      rw [wrappingPow, if_neg hne]
      dsimp only
      rw [if_pos hodd]
      calc (base * wrappingPow (base * base) (exponent / 2)).toInt
          ≡ base.toInt * (wrappingPow (base * base) (exponent / 2)).toInt [ZMOD 2 ^ 32] :=
            toInt_mul_modEq _ _
        _ ≡ base.toInt * base.toInt ^ (2 * (exponent / 2)) [ZMOD 2 ^ 32] :=
            (ih.trans (square_pow_modEq base _)).mul_left _
        _ = base.toInt ^ exponent := by rw [← pow_succ', ← hexponent]
  | case3 base exponent hne heven ih =>
      have hexponent : exponent = 2 * (exponent / 2) := by omega
      rw [wrappingPow, if_neg hne]
      dsimp only
      rw [if_neg heven]
      calc (wrappingPow (base * base) (exponent / 2)).toInt
          ≡ base.toInt ^ (2 * (exponent / 2)) [ZMOD 2 ^ 32] :=
            ih.trans (square_pow_modEq base _)
        _ = base.toInt ^ exponent := by rw [← hexponent]

/-- The exact result of an operation whose result is kept as an integer. -/
def Operator.integerResult? : Operator → Int → Int → Option Int
  | .add, m, n => some (m + n)
  | .sub, m, n => some (m - n)
  | .mul, m, n => some (m * n)
  | .div, _, _ => none
  | .pow, m, n => if 0 ≤ n then some (m ^ n.toNat) else none

/-! ## Numbers -/

namespace Number

variable {op : Operator} {m n : Int32}

theorem applyInts_of_integerResult? {result : Int}
    (h : op.integerResult? m.toInt n.toInt = some result) :
    ∃ r : Int32, applyInts op m n = int r ∧ r.toInt ≡ result [ZMOD 2 ^ 32] := by
  cases op with
  | add =>
      cases h
      exact ⟨m + n, rfl, toInt_add_modEq m n⟩
  | sub =>
      cases h
      exact ⟨m - n, rfl, toInt_sub_modEq m n⟩
  | mul =>
      cases h
      exact ⟨m * n, rfl, toInt_mul_modEq m n⟩
  | div => cases h
  | pow =>
      simp only [Operator.integerResult?, Option.ite_none_right_eq_some, Option.some.injEq] at h
      obtain ⟨hn, rfl⟩ := h
      have hnonneg : 0 ≤ n := Int32.le_iff_toInt_le.mpr hn
      refine ⟨wrappingPow m n.toInt.toNat, ?_, toInt_wrappingPow_modEq m n.toInt.toNat⟩
      rw [applyInts, if_pos hnonneg]

theorem applyInts_eq_real_iff :
    (∃ z, applyInts op m n = real z) ↔ op = .div ∨ op = .pow ∧ n.toInt < 0 := by
  have hsign : n.toInt < 0 ↔ ¬ 0 ≤ n := by
    rw [Int32.le_iff_toInt_le, not_le]
    rfl
  cases op with
  | add | sub | mul | div => simp [applyInts]
  | pow =>
      rw [applyInts, hsign]
      split <;> simp_all

theorem apply_eq_real_iff (op : Operator) (x y : Number) :
    (∃ z, apply op x y = real z) ↔
      (∃ z, x = real z) ∨ (∃ z, y = real z) ∨ op = .div ∨
        op = .pow ∧ ∃ m n, x = int m ∧ y = int n ∧ n.toInt < 0 := by
  cases x with
  | real z => simp [apply]
  | int m =>
      cases y with
      | real z => simp [apply]
      | int n => simpa [apply] using applyInts_eq_real_iff

end Number

/-! ## Values -/

namespace Value

variable {a b : Value}

/-- The value stands for a number. -/
def IsNumeric (v : Value) : Prop := ∃ x, v.toNumber = .ok x

theorem isNumeric_ofNumber (x : Number) : (ofNumber x).IsNumeric := ⟨x, toNumber_ofNumber x⟩

theorem toNumber_str_of_int32? {content : String} {n : Int32}
    (h : Numeral.int32? content.toList = some n) : (str content).toNumber = .ok (.int n) := by
  simp only [toNumber, h]

theorem toNumber_str_of_real? {content : String} {x : Binary64}
    (hint : Numeral.int32? content.toList = none)
    (hreal : Numeral.real? content.toList = some x) : (str content).toNumber = .ok (.real x) := by
  simp only [toNumber, hint, hreal]

/-- Only texts stand for no number, and the failure carries the text. -/
theorem toNumber_of_not_isNumeric (h : ¬ a.IsNumeric) :
    a.toNumber = .error (.notNumeric a.text) := by
  cases a with
  | str content =>
      cases hint : Numeral.int32? content.toList with
      | some n => exact absurd ⟨_, toNumber_str_of_int32? hint⟩ h
      | none =>
          cases hreal : Numeral.real? content.toList with
          | some x => exact absurd ⟨_, toNumber_str_of_real? hint hreal⟩ h
          | none => simp only [toNumber, hint, hreal, text]
  | null | int n | real x => exact absurd ⟨_, rfl⟩ h

theorem update_of_numbers (op : Operator) {x y : Number} (hx : a.toNumber = .ok x)
    (hy : b.toNumber = .ok y) : update op a b = (.ok (), ofNumber (Number.apply op x y)) := by
  simp [update, apply, hx, hy, bind, Except.bind]

theorem update_of_not_isNumeric_left (op : Operator) (h : ¬ a.IsNumeric) (b : Value) :
    update op a b = (.error (.notNumeric a.text), a) := by
  simp [update, apply, toNumber_of_not_isNumeric h, bind, Except.bind]

theorem update_of_not_isNumeric_right (op : Operator) (ha : a.IsNumeric) (h : ¬ b.IsNumeric) :
    update op a b = (.error (.notNumeric b.text), a) := by
  obtain ⟨x, hx⟩ := ha
  simp [update, apply, hx, toNumber_of_not_isNumeric h, bind, Except.bind]

theorem update_eq_ok_iff (op : Operator) (a b : Value) :
    (∃ c, update op a b = (.ok (), c)) ↔ a.IsNumeric ∧ b.IsNumeric := by
  constructor
  · rintro ⟨c, hc⟩
    by_contra hnot
    by_cases ha : a.IsNumeric
    · rw [update_of_not_isNumeric_right op ha fun hb => hnot ⟨ha, hb⟩] at hc
      cases hc
    · rw [update_of_not_isNumeric_left op ha b] at hc
      cases hc
  · rintro ⟨⟨x, hx⟩, y, hy⟩
    exact ⟨_, update_of_numbers op hx hy⟩

/--
An operation succeeds if both operands stand for numbers; otherwise the cell keeps its value and
the failure carries the text of the left operand, if that is no number, or else of the right one.
Integers give the integer congruent to the exact result.  The result is a real only if an operand
is one or the operation leaves the integers, and it stands for a number again.
-/
theorem update_arithmetic (op : Operator) (a b : Value) :
    ((∃ c, update op a b = (.ok (), c)) ↔ a.IsNumeric ∧ b.IsNumeric) ∧
      (¬ a.IsNumeric → update op a b = (.error (.notNumeric a.text), a)) ∧
      (a.IsNumeric → ¬ b.IsNumeric → update op a b = (.error (.notNumeric b.text), a)) ∧
      (∀ m n result, a.toNumber = .ok (.int m) → b.toNumber = .ok (.int n) →
        op.integerResult? m.toInt n.toInt = some result →
        ∃ r : Int32, update op a b = (.ok (), .int r) ∧
          -2 ^ 31 ≤ r.toInt ∧ r.toInt < 2 ^ 31 ∧ r.toInt ≡ result [ZMOD 2 ^ 32]) ∧
      ∀ c, update op a b = (.ok (), c) →
        ((∃ z, c = .real z) ↔
          (∃ z, a.toNumber = .ok (.real z)) ∨ (∃ z, b.toNumber = .ok (.real z)) ∨ op = .div ∨
            op = .pow ∧ ∃ m n, a.toNumber = .ok (.int m) ∧ b.toNumber = .ok (.int n) ∧
              n.toInt < 0) ∧
        c.IsNumeric := by
  refine ⟨update_eq_ok_iff op a b, fun ha => update_of_not_isNumeric_left op ha b,
    update_of_not_isNumeric_right op, ?_, ?_⟩
  · intro m n result hm hn hresult
    obtain ⟨r, hr, hmod⟩ := Number.applyInts_of_integerResult? hresult
    refine ⟨r, ?_, r.le_toInt, r.toInt_lt, hmod⟩
    rw [update_of_numbers op hm hn, Number.apply, hr, ofNumber]
  · intro c hc
    obtain ⟨⟨x, hx⟩, y, hy⟩ := (update_eq_ok_iff op a b).mp ⟨c, hc⟩
    rw [update_of_numbers op hx hy] at hc
    cases hc
    refine ⟨?_, isNumeric_ofNumber _⟩
    have hreal : (∃ z, ofNumber (Number.apply op x y) = .real z) ↔
        ∃ z, Number.apply op x y = .real z := by
      cases Number.apply op x y <;> simp [ofNumber]
    rw [hreal, Number.apply_eq_real_iff, hx, hy]
    simp only [Except.ok.injEq]

/-- A power that wraps many times, and two texts of which the left one is reported. -/
theorem update_arithmetic_power :
    (∃ r : Int32, update .pow (.str "-3") (.int 41) = (.ok (), .int r) ∧
        -2 ^ 31 ≤ r.toInt ∧ r.toInt < 2 ^ 31 ∧
        r.toInt ≡ -36472996377170786403 [ZMOD 2 ^ 32]) ∧
      update .sub (.str "x") (.str "y") = (.error (.notNumeric "x"), .str "x") := by
  have htext : (str "-3").toNumber = .ok (.int (-3)) := by decide +kernel
  have hx : ¬ (str "x").IsNumeric := by
    rintro ⟨x, hx⟩
    have : (str "x").toNumber = .error (.notNumeric "x") := by decide +kernel
    rw [this] at hx
    cases hx
  obtain ⟨-, -, -, hpower, -⟩ := update_arithmetic .pow (.str "-3") (.int 41)
  obtain ⟨-, hleft, -⟩ := update_arithmetic .sub (.str "x") (.str "y")
  exact ⟨hpower (-3) 41 _ htext rfl (by decide), hleft hx⟩

end Value

end TagTemplate
