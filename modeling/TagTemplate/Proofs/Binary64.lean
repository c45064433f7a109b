import TagTemplate.Binary64.Text

/-!
Double-precision numbers are their own nearest numbers.

A magnitude is the nearest one to its exact value (`nearest_units`), and rounding only looks at a
quotient, not at its representation (`nearest_mul_right`).  Hence the shortest decimal of a
magnitude reads back as that magnitude, whichever of its candidates was taken.
-/

namespace TagTemplate

-- Powers are the built-in ones, whatever else is imported.
attribute [local instance (high)] instPowNat

/-! ## Rounding -/

theorem roundHalfEven_mul_right (n d : Nat) {k : Nat} (hk : 0 < k) :
    roundHalfEven (n * k) (d * k) = roundHalfEven n d := by
  have hdouble : 2 * (n % d * k) = 2 * (n % d) * k := (Nat.mul_assoc _ _ _).symm
  have hlt : 2 * (n % d) * k < d * k ↔ 2 * (n % d) < d := Nat.mul_lt_mul_right hk
  have heq : 2 * (n % d) * k = d * k ↔ 2 * (n % d) = d := Nat.mul_left_inj (by omega)
  simp only [roundHalfEven, Nat.mul_div_mul_right _ _ hk, Nat.mul_mod_mul_right, hdouble, hlt, heq]

theorem roundHalfEven_mul_self (n : Nat) {d : Nat} (hd : 0 < d) :
    roundHalfEven (n * d) d = n := by
  simp [roundHalfEven, Nat.mul_div_cancel _ hd, hd]

namespace Binary64

theorem nearest_mul_right (n d : Nat) {k : Nat} (hk : 0 < k) :
    nearest (n * k) (d * k) = nearest n d := by
  unfold nearest
  rw [Nat.mul_div_mul_right _ _ hk]
  simp only [Nat.mul_right_comm d k, roundHalfEven_mul_right _ _ hk]

/-! ## Exact values -/

theorem shift_mul_le (magnitude : Nat) : shift magnitude * 2 ^ (52 : Nat) ≤ magnitude := by
  unfold shift
  omega

theorem significand_lt (magnitude : Nat) : significand magnitude < 2 ^ (53 : Nat) := by
  unfold significand shift
  omega

/-- A scaled significand has its leading bit set. -/
theorem log2_units_sub (magnitude : Nat) :
    (units magnitude).log2 - 52 = shift magnitude := by
  by_cases hsmall : magnitude < 2 ^ 53
  · have hshift : shift magnitude = 0 := by
      unfold shift
      omega
    have hunits : units magnitude = magnitude := by simp [units, significand, hshift]
    rw [hunits, hshift]
    by_cases hzero : magnitude = 0
    · simp [hzero]
    · have := (Nat.log2_lt hzero).mpr hsmall
      omega
  · have hlow : 2 ^ 52 ≤ significand magnitude := by
      unfold significand shift
      omega
    have hpow : 0 < 2 ^ shift magnitude := Nat.two_pow_pos _
    have hne : units magnitude ≠ 0 := Nat.mul_ne_zero (by omega) (by omega)
    have hlog : (units magnitude).log2 = 52 + shift magnitude := by
      rw [Nat.log2_eq_iff hne]
      constructor
      · rw [Nat.pow_add]
        exact Nat.mul_le_mul_right _ hlow
      · rw [show 52 + shift magnitude + 1 = 53 + shift magnitude by omega, Nat.pow_add]
        exact Nat.mul_lt_mul_of_pos_right (significand_lt magnitude) hpow
    omega

theorem nearest_units (magnitude : Nat) : nearest (units magnitude) 1 = magnitude := by
  have hle := shift_mul_le magnitude
  simp only [nearest, Nat.div_one, log2_units_sub, Nat.one_mul]
  rw [units, roundHalfEven_mul_self _ (Nat.two_pow_pos _), significand]
  omega

/-! ## Fewest digits -/

theorem nearest_mul_pow (n k : Nat) :
    nearest (n * 5 ^ k * 2 ^ k) (10 ^ k) = nearest n 1 := by
  have hten : 10 ^ k = 1 * (5 ^ k * 2 ^ k) := by rw [← Nat.mul_pow, Nat.one_mul]
  have hpos : 0 < 5 ^ k * 2 ^ k := Nat.mul_pos (Nat.pow_pos (by decide)) (Nat.two_pow_pos k)
  rw [hten, Nat.mul_assoc, nearest_mul_right _ _ hpos]

theorem nearestDecimal_exactDecimal (magnitude : Nat) :
    nearestDecimal (exactDecimal magnitude) = magnitude := by
  unfold nearestDecimal exactDecimal one
  generalize 1074 = k
  exact (nearest_mul_pow (units magnitude) k).trans (nearest_units magnitude)

theorem nearestDecimal_gridDecimal {magnitude : Nat} {exponent : Int} {d : Decimal}
    (h : gridDecimal? magnitude exponent = some d) : nearestDecimal d = magnitude := by
  have hreads := List.find?_some h
  exact eq_of_beq hreads

theorem nearestDecimal_shortest (magnitude : Nat) :
    nearestDecimal (shortest magnitude) = magnitude := by
  unfold shortest
  split
  · rename_i hzero
    simp [hzero, nearestDecimal, nearest, roundHalfEven]
  simp only
  cases hfound : (List.range 18).findSome? fun (count : Nat) =>
      gridDecimal? magnitude (leadingExponent magnitude - count) with
  | none => exact nearestDecimal_exactDecimal magnitude
  | some d =>
      obtain ⟨count, -, hgrid⟩ := List.exists_of_findSome?_eq_some hfound
      exact nearestDecimal_gridDecimal hgrid

/-! ## Signs -/

theorem ofMagnitude_magnitude (x : Binary64) :
    ofMagnitude x.isNegative x.magnitude = x := by
  have hlt := x.bits.toNat_lt
  have hbits : (if x.isNegative then 2 ^ 63 else 0) + x.magnitude = x.bits.toNat := by
    unfold isNegative magnitude
    split
    · next hnegative =>
        rw [decide_eq_true_eq] at hnegative
        omega
    · next hpositive =>
        rw [decide_eq_true_eq] at hpositive
        omega
  rw [ofMagnitude, hbits]
  exact congrArg Binary64.mk UInt64.ofNat_toNat

theorem magnitude_ofMagnitude (negative : Bool) {magnitude : Nat}
    (h : magnitude < infiniteMagnitude) :
    (ofMagnitude negative magnitude).magnitude = magnitude := by
  unfold infiniteMagnitude at h
  unfold ofMagnitude Binary64.magnitude
  cases negative <;> simp [Nat.toUInt64, UInt64.toNat_ofNat] <;> omega

end Binary64

end TagTemplate
