import TagTemplate.Proofs.Number

/-!
Rounding to the nearest number.

`Binary64.IsNearest d magnitude` says, of exact values alone, that no number is nearer to a decimal
and that a tie has gone to the even significand.  `Binary64.nearestDecimal` gives such a magnitude
(`Binary64.isNearest_nearestDecimal`).  Magnitudes of any size take part; the decimal is out of
range if its magnitude is not a finite one.
-/

namespace TagTemplate

-- Powers are the built-in ones, whatever else is imported.
attribute [local instance (high)] instPowNat

/-! ## Integers -/

theorem roundHalfEven_bounds (n d : Nat) :
    n / d ≤ roundHalfEven n d ∧ roundHalfEven n d ≤ n / d + 1 := by
  unfold roundHalfEven
  simp only
  split <;> omega

/-- A multiple is one of two that follow each other, or lies beyond them. -/
theorem multiple_cases (q d k : Nat) :
    k = q ∨ k = q + 1 ∨ k * d + d ≤ q * d ∨ q * d + d + d ≤ k * d := by
  rcases Nat.lt_or_ge k q with hlt | hge
  · have := Nat.mul_le_mul_right d hlt
    rw [Nat.succ_mul] at this
    exact .inr (.inr (.inl this))
  by_cases hsame : k = q
  · exact .inl hsame
  by_cases hone : k = q + 1
  · exact .inr (.inl hone)
  · have := Nat.mul_le_mul_right d (show q + 1 + 1 ≤ k by omega)
    rw [Nat.succ_mul, Nat.succ_mul] at this
    exact .inr (.inr (.inr this))

/-- The nearest multiple is taken, and the even one of two. -/
theorem roundHalfEven_nearest (n : Nat) {d : Nat} (hd : 0 < d) (k : Nat) :
    ((roundHalfEven n d * d : Nat) - n : Int).natAbs ≤ ((k * d : Nat) - n : Int).natAbs ∧
      (k ≠ roundHalfEven n d →
        ((k * d : Nat) - n : Int).natAbs = ((roundHalfEven n d * d : Nat) - n : Int).natAbs →
        roundHalfEven n d % 2 = 0) := by
  have hsplit := Nat.div_add_mod' n d
  have hremainder := Nat.mod_lt n hd
  have hnext : (n / d + 1) * d = n / d * d + d := Nat.succ_mul _ _
  have hcases := multiple_cases (n / d) d k
  unfold roundHalfEven
  simp only
  split
  · rcases hcases with rfl | rfl | hlow | hhigh <;> omega
  · rw [hnext]
    rcases hcases with rfl | rfl | hlow | hhigh <;> omega

namespace Binary64

/-! ## Numbers of one scale -/

theorem units_scaled {scale r : Nat} (hhigh : r ≤ 2 ^ 53) (hlow : scale ≠ 0 → 2 ^ 52 ≤ r) :
    units (scale * 2 ^ (52 : Nat) + r) = r * 2 ^ scale := by
  by_cases htop : r = 2 ^ 53
  · -- the significand starts again, with the next scale
    have hshift : shift (scale * 2 ^ 52 + r) = scale + 1 := by
      unfold shift
      omega
    have hsignificand : significand (scale * 2 ^ 52 + r) = 2 ^ 52 := by
      rw [significand, hshift]
      omega
    rw [units, hsignificand, hshift, Nat.pow_succ 2 scale, htop]
    omega
  · have hshift : shift (scale * 2 ^ 52 + r) = scale := by
      unfold shift
      omega
    rw [units, significand, hshift, Nat.add_sub_cancel_left]

/-- The numbers between two multiples of a scale are below those of that scale. -/
theorem units_cases (scale magnitude : Nat) :
    (∃ k, units magnitude = k * 2 ^ scale) ∨
      scale ≠ 0 ∧ units magnitude < 2 ^ 52 * 2 ^ scale := by
  rcases Nat.lt_or_ge (shift magnitude) scale with hlt | hge
  · refine .inr ⟨Nat.ne_zero_of_lt hlt, ?_⟩
    calc units magnitude < 2 ^ 53 * 2 ^ shift magnitude :=
          Nat.mul_lt_mul_of_pos_right (significand_lt magnitude) (Nat.two_pow_pos _)
      _ = 2 ^ 52 * 2 ^ (shift magnitude + 1) := by
        rw [Nat.pow_succ 2 (shift magnitude)]
        omega
      _ ≤ 2 ^ 52 * 2 ^ scale := Nat.mul_le_mul_left _ (Nat.pow_le_pow_right (by decide) hlt)
  · refine .inl ⟨significand magnitude * 2 ^ (shift magnitude - scale), ?_⟩
    rw [Nat.mul_assoc, ← Nat.pow_add, Nat.sub_add_cancel hge, units]

/-- The scale of a number brings it down to the size of a significand. -/
theorem scale_bounds (q : Nat) :
    q / 2 ^ (q.log2 - 52) < 2 ^ 53 ∧ (q.log2 - 52 ≠ 0 → 2 ^ 52 ≤ q / 2 ^ (q.log2 - 52)) := by
  have hupper : q < 2 ^ 53 * 2 ^ (q.log2 - 52) := by
    rw [← Nat.pow_add]
    exact Nat.lt_of_lt_of_le Nat.lt_log2_self (Nat.pow_le_pow_right (by decide) (by omega))
  refine ⟨(Nat.div_lt_iff_lt_mul (Nat.two_pow_pos _)).mpr hupper, fun hscale => ?_⟩
  have hne : q ≠ 0 := by
    rintro rfl
    exact hscale rfl
  rw [Nat.le_div_iff_mul_le (Nat.two_pow_pos _), ← Nat.pow_add,
    show 52 + (q.log2 - 52) = q.log2 by omega]
  exact Nat.log2_self_le hne

/-! ## Nearest numbers -/

/-- Distance from `n / d` units, in parts of which `d` make a unit. -/
def distance (n d magnitude : Nat) : Nat := ((units magnitude * d : Nat) - n : Int).natAbs

structure IsNearest (decimal : Decimal) (magnitude : Nat) : Prop where
  le : ∀ other, distance (decimal.coefficient * one) (10 ^ decimal.places) magnitude ≤
    distance (decimal.coefficient * one) (10 ^ decimal.places) other
  even_of_tie : ∀ other, other ≠ magnitude →
    distance (decimal.coefficient * one) (10 ^ decimal.places) other =
      distance (decimal.coefficient * one) (10 ^ decimal.places) magnitude → magnitude % 2 = 0

theorem distance_of_units (n d : Nat) {magnitude k scale : Nat}
    (h : units magnitude = k * 2 ^ scale) :
    distance n d magnitude = ((k * (d * 2 ^ scale) : Nat) - n : Int).natAbs := by
  rw [distance, h, Nat.mul_assoc, Nat.mul_comm (2 ^ scale)]

/-- A number is rounded to a multiple of its scale, whose numbers are the nearest to it. -/
theorem exists_scale (n : Nat) {d : Nat} (hd : 0 < d) :
    ∃ scale, nearest n d = scale * 2 ^ (52 : Nat) + roundHalfEven n (d * 2 ^ scale) ∧
      units (nearest n d) = roundHalfEven n (d * 2 ^ scale) * 2 ^ scale ∧
      (scale ≠ 0 → 2 ^ 52 * (d * 2 ^ scale) ≤ n) := by
  obtain ⟨hhigh, hlow⟩ := scale_bounds (n / d)
  refine ⟨(n / d).log2 - 52, rfl, ?_, fun hscale => ?_⟩
  · obtain ⟨hfloor, hceil⟩ := roundHalfEven_bounds n (d * 2 ^ ((n / d).log2 - 52))
    rw [← Nat.div_div_eq_div_mul] at hfloor hceil
    exact units_scaled (by omega) fun hscale => (hlow hscale).trans hfloor
  · rw [← Nat.le_div_iff_mul_le (Nat.mul_pos hd (Nat.two_pow_pos _)), ← Nat.div_div_eq_div_mul]
    exact hlow hscale

theorem nearest_spec (n : Nat) {d : Nat} (hd : 0 < d) (other : Nat) :
    distance n d (nearest n d) ≤ distance n d other ∧
      (other ≠ nearest n d → distance n d other = distance n d (nearest n d) →
        nearest n d % 2 = 0) := by
  obtain ⟨scale, hnearest, hunits, hlow⟩ := exists_scale n hd
  have hpos : 0 < d * 2 ^ scale := Nat.mul_pos hd (Nat.two_pow_pos _)
  rw [distance_of_units n d hunits]
  rcases units_cases scale other with ⟨k, hk⟩ | ⟨hscale, hbelow⟩
  · obtain ⟨hle, htie⟩ := roundHalfEven_nearest n hpos k
    rw [distance_of_units n d hk]
    refine ⟨hle, fun hne heq => ?_⟩
    have hk' : k ≠ roundHalfEven n (d * 2 ^ scale) := by
      rintro rfl
      exact hne (units_strictMono.injective (hk.trans hunits.symm))
    have := htie hk' heq
    omega
  · -- the other number is below a multiple of the scale that is itself not above the decimal
    have hle := (roundHalfEven_nearest n hpos (2 ^ 52)).1
    have hfloor := hlow hscale
    have hother : units other * d < 2 ^ 52 * (d * 2 ^ scale) := by
      rw [Nat.mul_comm d, ← Nat.mul_assoc]
      exact Nat.mul_lt_mul_of_pos_right hbelow hd
    unfold distance
    omega

theorem isNearest_nearestDecimal (d : Decimal) : IsNearest d (nearestDecimal d) where
  le other := (nearest_spec _ (Nat.pow_pos (by decide)) other).1
  even_of_tie other := (nearest_spec _ (Nat.pow_pos (by decide)) other).2

end Binary64

end TagTemplate
