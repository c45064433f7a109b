import TagTemplate.Proofs.Number
import TagTemplate.Proofs.Numeral
import TagTemplate.Proofs.StandardFunction.LastWrite
import TagTemplate.Proofs.Value.Arithmetic

/-!
Numbers as texts.

The text of an integer or of a finite real stands for the same number again, also where the text of
a real has no point: such a real is too large for an integer.  So a number can be stored as a text
and used as before (`Value.text_keeps_number`).
-/

namespace TagTemplate

-- Powers are the built-in ones, whatever else is imported.
attribute [local instance (high)] instPowNat

/-! ## Texts of reals -/

namespace Numeral

theorem isDigits_and_digitsValue_spelling {d : Decimal} (h : d.places = 0) :
    isDigits d.spelling = true ∧ digitsValue d.spelling = d.coefficient := by
  have hspelling : d.spelling = d.wholeDigits := by rw [Decimal.spelling, if_pos h]
  have hfraction : d.fractionDigits = [] := by rw [Decimal.fractionDigits, if_pos h]
  have hvalue := d.digitsValue_wholeDigits_append
  rw [hfraction, List.append_nil, ← hspelling] at hvalue
  refine ⟨?_, hvalue⟩
  rw [hspelling]
  exact isDigits_toDigits _

theorem isDigits_spelling_of_places_ne_zero {d : Decimal} (h : d.places ≠ 0) :
    isDigits d.spelling = false := by
  have hpoint := d.point_mem_spelling_iff.mpr h
  have hall : d.spelling.all Char.isDigit = false :=
    List.all_eq_false.mpr ⟨'.', hpoint, by decide⟩
  rw [isDigits, hall, Bool.and_false]

theorem integer?_append_spelling (x : Binary64) (d : Decimal) :
    integer? (x.signSpelling ++ d.spelling) =
      if d.places = 0 then
        some (if x.isNegative then -(d.coefficient : Int) else d.coefficient)
      else none := by
  by_cases h : d.places = 0
  · obtain ⟨hdigits, hvalue⟩ := isDigits_and_digitsValue_spelling h
    simp only [integer?, splitSign_append, hdigits, hvalue, h, if_true]
  · simp only [integer?, splitSign_append, isDigits_spelling_of_places_ne_zero h, h, if_false,
      Bool.false_eq_true]

/-- A decimal that is read as an integer has no point and is in the range of integers. -/
theorem coefficient_le_of_int32? {x : Binary64} {d : Decimal} {n : Int32}
    (h : int32? (x.signSpelling ++ d.spelling) = some n) :
    d.places = 0 ∧ d.coefficient ≤ 2 ^ 31 := by
  simp only [int32?, integer?_append_spelling, Option.bind_eq_bind, Option.bind_eq_some_iff,
    Option.ite_none_right_eq_some, Option.some.injEq] at h
  obtain ⟨k, ⟨hplaces, rfl⟩, ⟨hlow, hhigh⟩, -⟩ := h
  have hmin : Int32.minValue.toInt = -2 ^ 31 := rfl
  have hmax : Int32.maxValue.toInt = 2 ^ 31 - 1 := rfl
  refine ⟨hplaces, ?_⟩
  cases hnegative : x.isNegative with
  | true =>
      rw [hnegative, if_pos rfl] at hlow
      omega
  | false =>
      rw [hnegative, if_neg Bool.false_ne_true] at hhigh
      omega

end Numeral

namespace Binary64

theorem units_nearestDecimal {d : Decimal} (hplaces : d.places = 0)
    (hsmall : d.coefficient < 2 ^ 53) : units (nearestDecimal d) = d.coefficient * one := by
  rw [nearestDecimal, hplaces, Nat.pow_zero, ← units_magnitudeOfNat hsmall, nearest_units]

/-- One place is enough for a whole number. -/
theorem nearestDecimal_fixed_one {x : Binary64} (h : x.isWhole = true) :
    nearestDecimal (fixed x.magnitude 1) = x.magnitude := by
  have hwhole : units x.magnitude / one * one = units x.magnitude :=
    Nat.div_mul_cancel (Nat.dvd_of_mod_eq_zero (of_decide_eq_true h))
  have hrounded : roundHalfEven (units x.magnitude * 10 ^ 1) one =
      units x.magnitude / one * 10 ^ 1 := by
    nth_rewrite 1 [← hwhole]
    rw [Nat.mul_right_comm, roundHalfEven_mul_self _ one_pos]
  have hnearest := nearest_mul_right (units x.magnitude) 1 (show 0 < 10 ^ 1 by decide)
  rw [nearestDecimal, fixed, hrounded, Nat.mul_right_comm, hwhole]
  rw [Nat.one_mul] at hnearest
  rw [hnearest, nearest_units]

end Binary64

namespace Value

theorem real?_realSpelling {x : Binary64} (h : x.isFinite = true) :
    Numeral.real? (realSpelling x) = some x := by
  unfold realSpelling
  split
  · next hwhole =>
      exact Numeral.real?_append_spelling h (Binary64.nearestDecimal_fixed_one hwhole.2.1)
  · rw [Binary64.spelling_of_isFinite h]
    exact Numeral.real?_append_spelling h (Binary64.nearestDecimal_shortest x.magnitude)

/-- A real whose text is read as an integer would be whole and small, so have a point. -/
theorem int32?_realSpelling {x : Binary64} (h : x.isFinite = true) :
    Numeral.int32? (realSpelling x) = none := by
  rw [Option.eq_none_iff_forall_ne_some]
  intro n hn
  unfold realSpelling at hn
  split at hn
  · obtain ⟨hplaces, -⟩ := Numeral.coefficient_le_of_int32? hn
    cases hplaces
  · next hlarge =>
      rw [Binary64.spelling_of_isFinite h] at hn
      obtain ⟨hplaces, hcoefficient⟩ := Numeral.coefficient_le_of_int32? hn
      -- integers of this size are represented exactly, so the number is the one that was read
      have hunits := Binary64.units_nearestDecimal hplaces (by omega)
      rw [Binary64.nearestDecimal_shortest] at hunits
      refine hlarge ⟨h, ?_, ?_⟩
      · rw [Binary64.isWhole, hunits, decide_eq_true_eq, Nat.mul_mod_left]
      · rw [hunits]
        refine Nat.mul_lt_mul_of_pos_right ?_ Binary64.one_pos
        exact lt_of_le_of_lt hcoefficient (by decide)

/-! ## Texts of numbers -/

/-- An integer or a finite real. -/
def IsFiniteNumber : Value → Prop
  | int _ => True
  | real x => x.isFinite = true
  | _ => False

theorem toList_text (v : Value) : v.text.toList = v.spelling := by
  cases v with
  | str content => rfl
  | null | int n | real x => exact String.toList_ofList

theorem toNumber_str_text {a : Number} (h : (ofNumber a).IsFiniteNumber) :
    (str (ofNumber a).text).toNumber = .ok a := by
  cases a with
  | int n =>
      refine toNumber_str_of_int32? ?_
      rw [toList_text]
      exact Numeral.int32?_intSpelling n
  | real x =>
      refine toNumber_str_of_real? ?_ ?_
      · rw [toList_text]
        exact int32?_realSpelling h
      · rw [toList_text]
        exact real?_realSpelling h

theorem IsFiniteNumber.exists_number {v : Value} (h : v.IsFiniteNumber) : ∃ a, v = ofNumber a := by
  cases v with
  | int n => exact ⟨.int n, rfl⟩
  | real x => exact ⟨.real x, rfl⟩
  | null | str content => exact h.elim

theorem apply_congr {v w : Value} (h : v.toNumber = w.toNumber) (op : Operator) (u : Value) :
    apply op v u = apply op w u ∧ apply op u v = apply op u w := by
  simp only [apply, h, and_self]

theorem order_congr {v w : Value} (h : v.toNumber = w.toNumber) (u : Value) :
    order v u = order w u ∧ order u v = order u w := by
  simp only [order, h, and_self]

end Value

/-! ## Storing numbers -/

namespace Lifetime

def setter : Lifetime → StandardFunction
  | persistent => .persistentSet
  | temporary => .temporarySet

def storing (name value : String) : Lifetime → Context.Change
  | persistent => .setPersistent name value
  | temporary => .setTemporary name value

theorem run_setter (lifetime : Lifetime) (name value : Value) (rest : List Value)
    (context : Context) :
    lifetime.setter.run ⟨name :: value :: rest, context⟩ =
      (.ok (), ⟨.null :: rest, context.change (lifetime.storing name.text value.text)⟩) := by
  cases lifetime <;> rfl

theorem find?_storing (lifetime : Lifetime) (name value : String) (context : Context) :
    lifetime.find? (context.change (lifetime.storing name value)) name = some value := by
  rw [Context.find?_change]
  cases lifetime <;> simp [storing, Context.Change.stored?]

end Lifetime

namespace Value

/--
The text of a finite number stands for that number, an integer for an integer and a real for a
real.  Hence it does in any operation and comparison what the number does, and a number that was
stored under a name is found again as a text that stands for it.
-/
theorem text_keeps_number (v : Value) (h : v.IsFiniteNumber) :
    (∃ a, v = ofNumber a ∧ (str v.text).toNumber = .ok a) ∧
      (∀ op w, apply op (str v.text) w = apply op v w ∧ apply op w (str v.text) = apply op w v) ∧
      (∀ w, order (str v.text) w = order v w ∧ order w (str v.text) = order w v) ∧
      ∀ (lifetime : Lifetime) name default rest rest' context,
        ∃ stored, lifetime.setter.run ⟨name :: v :: rest, context⟩ =
            (.ok (), ⟨.null :: rest, stored⟩) ∧
          lifetime.getter.run ⟨default :: name :: rest', stored⟩ =
            (.ok (), ⟨str v.text :: rest', stored⟩) := by
  obtain ⟨a, rfl⟩ := h.exists_number
  have hnumber := toNumber_str_text h
  have hsame : (str (ofNumber a).text).toNumber = (ofNumber a).toNumber := by
    rw [hnumber, toNumber_ofNumber]
  refine ⟨⟨a, rfl, hnumber⟩, apply_congr hsame, order_congr hsame, ?_⟩
  intro lifetime name default rest rest' context
  refine ⟨_, lifetime.run_setter name _ rest context, ?_⟩
  rw [lifetime.run_getter, lifetime.find?_storing, Option.elim_some]

/-- The smallest whole real that is written without a point, and a negative zero. -/
theorem text_keeps_number_without_point :
    let v := real ⟨0x430c6bf526340000⟩
    let zero := real ⟨0x8000000000000000⟩
    v.IsFiniteNumber ∧ v.text = "1000000000000000" ∧
      (str "1000000000000000").toNumber = .ok (.real ⟨0x430c6bf526340000⟩) ∧
      zero.text = "-0.0" ∧ order (str "-0.0") (.int 0) = order zero (.int 0) := by
  intro v zero
  have hv : v.IsFiniteNumber := show Binary64.isFinite _ = true by decide
  have hzero : zero.IsFiniteNumber := show Binary64.isFinite _ = true by decide
  have htext : v.text = "1000000000000000" := by decide +kernel
  have hzeroText : zero.text = "-0.0" := by decide +kernel
  obtain ⟨⟨a, ha, hnumber⟩, -⟩ := text_keeps_number v hv
  obtain ⟨-, -, horder, -⟩ := text_keeps_number zero hzero
  have hreal : v.toNumber = .ok a := (congrArg toNumber ha).trans (toNumber_ofNumber a)
  rw [htext] at hnumber
  refine ⟨hv, htext, hnumber.trans hreal.symm, hzeroText, ?_⟩
  rw [← hzeroText]
  exact (horder (.int 0)).1

end Value

end TagTemplate
