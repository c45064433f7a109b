import TagTemplate.Proofs.Number
import TagTemplate.Proofs.Value.Arithmetic

/-!
The order of values.

All values that stand for numbers are in one total preorder, that of the reals that they stand
for (`Value.order_is_total_preorder`).  Reals are ordered by their encodings, read as signed
integers after all bits but the sign have been inverted in the negative ones
(`Binary64.order_eq_compare_signedBits`).
-/

namespace TagTemplate

-- Powers are the built-in ones, whatever else is imported.
attribute [local instance (high)] instPowNat

/-! ## Encodings -/

namespace Binary64

/-- The encoding, with all bits but the sign inverted in a negative number. -/
def signedBits (x : Binary64) : BitVec 64 :=
  if x.isNegative then BitVec.intMin 64 ||| ~~~x.bits.toBitVec else x.bits.toBitVec

theorem toInt_signedBits (x : Binary64) : x.signedBits.toInt = x.orderKey := by
  have hlt := x.bits.toNat_lt
  have hbits : x.bits.toBitVec.toNat = x.bits.toNat := rfl
  unfold signedBits orderKey
  split
  · next hnegative =>
      have hle : 2 ^ 63 ≤ x.bits.toNat := of_decide_eq_true hnegative
      have hinverted : (~~~x.bits.toBitVec).toNat = 2 ^ 64 - 1 - x.bits.toNat := BitVec.toNat_not
      -- the sign bit has become zero and is set again
      have hset : (BitVec.intMin 64 ||| ~~~x.bits.toBitVec).toNat =
          2 ^ 63 * 1 + (2 ^ 64 - 1 - x.bits.toNat) := by
        rw [Nat.two_pow_add_eq_or_of_lt (by omega), BitVec.toNat_or, hinverted]
        rfl
      rw [BitVec.toInt_eq_toNat_cond, hset, magnitude]
      omega
  · next hpositive =>
      have hlt : ¬ 2 ^ 63 ≤ x.bits.toNat := fun hle => hpositive (decide_eq_true hle)
      rw [BitVec.toInt_eq_toNat_cond, hbits, magnitude]
      omega

theorem order_eq_compare_signedBits (x y : Binary64) :
    x.order y = compare x.signedBits.toInt y.signedBits.toInt := by
  rw [toInt_signedBits, toInt_signedBits, order]

end Binary64

/-! ## Numbers -/

namespace Number

theorem order_eq_order_toReal (a b : Number) : a.order b = a.toReal.order b.toReal :=
  order_eq_compare a b

instance : Std.OrientedCmp Number.order where
  eq_swap := (order_swap _ _).symm

instance : Std.TransCmp Number.order where
  isLE_trans {a b c} hab hbc := by
    rw [order_eq_compare] at hab hbc ⊢
    exact Std.TransOrd.isLE_trans hab hbc

end Number

/-! ## Values -/

namespace Value

variable {a b c : Value} {x y : Number}

theorem order_of_numbers (hx : a.toNumber = .ok x) (hy : b.toNumber = .ok y) :
    order a b = .ok (x.order y) := by
  simp [order, hx, hy, bind, Except.bind]

theorem order_eq_ok_iff {ordering : Ordering} :
    order a b = .ok ordering ↔
      ∃ x y, a.toNumber = .ok x ∧ b.toNumber = .ok y ∧ x.order y = ordering := by
  constructor
  · intro h
    cases hx : a.toNumber with
    | error e => simp [order, hx, bind, Except.bind] at h
    | ok x =>
        cases hy : b.toNumber with
        | error e => simp [order, hx, hy, bind, Except.bind] at h
        | ok y =>
            rw [order_of_numbers hx hy, Except.ok.injEq] at h
            exact ⟨x, y, rfl, rfl, h⟩
  · rintro ⟨x, y, hx, hy, rfl⟩
    exact order_of_numbers hx hy

theorem order_isOk_iff : (∃ ordering, order a b = .ok ordering) ↔ a.IsNumeric ∧ b.IsNumeric := by
  constructor
  · rintro ⟨ordering, h⟩
    obtain ⟨x, y, hx, hy, -⟩ := order_eq_ok_iff.mp h
    exact ⟨⟨x, hx⟩, y, hy⟩
  · rintro ⟨⟨x, hx⟩, y, hy⟩
    exact ⟨_, order_of_numbers hx hy⟩

theorem toReal_eq_ok_iff {r : Binary64} :
    a.toReal = .ok r ↔ ∃ x, a.toNumber = .ok x ∧ x.toReal = r := by
  cases hx : a.toNumber <;> simp [toReal, hx, bind, Except.bind]

theorem order_swap {ordering : Ordering} (h : order a b = .ok ordering) :
    order b a = .ok ordering.swap := by
  obtain ⟨x, y, hx, hy, rfl⟩ := order_eq_ok_iff.mp h
  rw [order_of_numbers hy hx, Number.order_swap]

theorem order_isLE_trans {ordering ordering' : Ordering} (hab : order a b = .ok ordering)
    (hbc : order b c = .ok ordering') (hle : ordering.isLE = true) (hle' : ordering'.isLE = true) :
    ∃ ordering'', order a c = .ok ordering'' ∧ ordering''.isLE = true := by
  obtain ⟨x, y, hx, hy, rfl⟩ := order_eq_ok_iff.mp hab
  obtain ⟨y', z, hy', hz, rfl⟩ := order_eq_ok_iff.mp hbc
  obtain rfl : y = y' := Except.ok.inj (hy.symm.trans hy')
  exact ⟨_, order_of_numbers hx hz, Std.TransCmp.isLE_trans hle hle'⟩

/--
A comparison fails only where an operand stands for no number.  Otherwise it is the total order of
the reals that the operands stand for, of integers too, which is the order of their encodings.
Hence it is reversed with its operands, and transitive whatever kinds of values take part.
-/
theorem order_is_total_preorder (a b : Value) :
    ((∃ ordering, order a b = .ok ordering) ↔ a.IsNumeric ∧ b.IsNumeric) ∧
      (∀ x y, a.toReal = .ok x → b.toReal = .ok y →
        order a b = .ok (x.order y) ∧
          x.order y = compare x.signedBits.toInt y.signedBits.toInt) ∧
      (∀ ordering, order a b = .ok ordering → order b a = .ok ordering.swap) ∧
      ∀ c ordering ordering', order a b = .ok ordering → order b c = .ok ordering' →
        ordering.isLE = true → ordering'.isLE = true →
        ∃ ordering'', order a c = .ok ordering'' ∧ ordering''.isLE = true := by
  refine ⟨order_isOk_iff, ?_, fun _ => order_swap, fun _ _ _ => order_isLE_trans⟩
  intro r s hr hs
  obtain ⟨x, hx, rfl⟩ := toReal_eq_ok_iff.mp hr
  obtain ⟨y, hy, rfl⟩ := toReal_eq_ok_iff.mp hs
  refine ⟨?_, Binary64.order_eq_compare_signedBits _ _⟩
  rw [order_of_numbers hx hy, Number.order_eq_order_toReal]

/-- A text that spells a real, an absent value and an integer. -/
theorem order_is_total_preorder_of_kinds :
    let a := str "-2.5"
    let b := null
    let c := int 7
    a.toReal = .ok ⟨0xc004000000000000⟩ ∧ b.toReal = .ok ⟨0⟩ ∧
      order a b = .ok (Binary64.order ⟨0xc004000000000000⟩ ⟨0⟩) ∧
      order a b = .ok .lt ∧ order b a = .ok .gt ∧ order b c = .ok .lt ∧
      ∃ ordering, order a c = .ok ordering ∧ ordering.isLE = true := by
  intro a b c
  have ha : a.toReal = .ok ⟨0xc004000000000000⟩ := by decide +kernel
  have hb : b.toReal = .ok ⟨0⟩ := by decide +kernel
  have hab : order a b = .ok .lt := by decide +kernel
  have hbc : order b c = .ok .lt := by decide +kernel
  obtain ⟨-, hreals, hswap, htrans⟩ := order_is_total_preorder a b
  exact ⟨ha, hb, (hreals _ _ ha hb).1, hab, hswap _ hab, hbc, htrans c _ _ hab hbc rfl rfl⟩

end Value

end TagTemplate
