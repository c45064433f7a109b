import TagTemplate.Element
import TagTemplate.Proofs.Binary64
import TagTemplate.Token.Lexer

/-!
Numerals read back: the text of a 32-bit integer spells that integer (`int32?_intSpelling`), and
the literal of a finite real spells that real, with its sign (`real?_realLiteral`).

A literal always has a point.  It is the positional text of a decimal with at least one place,
`Decimal.withPoint`, whose value is the one of the shortest decimal.
-/

namespace TagTemplate

-- Powers are the built-in ones, whatever else is imported.
attribute [local instance (high)] instPowNat

/-! ## Runs of characters -/

theorem takeWhile_append_stop {p : Char → Bool} {run rest : List Char}
    (hrun : ∀ c ∈ run, p c = true) (hrest : startsWith p rest = false) :
    (run ++ rest).takeWhile p = run := by
  rw [List.takeWhile_append_of_pos hrun]
  cases rest with
  | nil => simp
  | cons c rest => simp_all [startsWith]

theorem dropWhile_append_stop {p : Char → Bool} {run rest : List Char}
    (hrun : ∀ c ∈ run, p c = true) (hrest : startsWith p rest = false) :
    (run ++ rest).dropWhile p = rest := by
  rw [List.dropWhile_append_of_pos hrun]
  cases rest with
  | nil => simp
  | cons c rest => simp_all [startsWith]

theorem startsWith_append {p : Char → Bool} {run : List Char} (rest : List Char)
    (hne : run ≠ []) (hrun : ∀ c ∈ run, p c = true) : startsWith p (run ++ rest) = true := by
  cases run with
  | nil => contradiction
  | cons c run => exact hrun c (by simp)

theorem isDigit_of_mem_toDigits {c : Char} {n : Nat} (h : c ∈ Nat.toDigits 10 n) :
    c.isDigit = true :=
  Nat.isDigit_of_mem_toDigits (by decide) (by decide) h

theorem startsWith_toDigits (n : Nat) (rest : List Char) :
    startsWith Char.isDigit (Nat.toDigits 10 n ++ rest) = true :=
  startsWith_append rest Nat.toDigits_ne_nil fun _ => isDigit_of_mem_toDigits

namespace Numeral

theorem splitSign_of_startsWith {text : List Char} (h : startsWith Char.isDigit text = true) :
    splitSign text = (false, text) := by
  unfold splitSign
  split
  · simp [startsWith] at h
  · simp [startsWith] at h
  · rfl

/-! ## Integers -/

theorem isDigits_toDigits (n : Nat) : isDigits (Nat.toDigits 10 n) = true := by
  have hall : ∀ c ∈ Nat.toDigits 10 n, c.isDigit = true := fun _ => isDigit_of_mem_toDigits
  simpa [isDigits, Nat.toDigits_ne_nil] using hall

theorem integer?_intSpelling (n : Int) : integer? (intSpelling n) = some n := by
  have hvalue : digitsValue (Nat.toDigits 10 n.natAbs) = n.natAbs :=
    Nat.ofDigitChars_ten_toDigits
  by_cases hneg : n < 0
  · simp only [intSpelling, if_pos hneg, integer?, splitSign, isDigits_toDigits, hvalue, if_true,
      Option.some.injEq]
    omega
  · have hsign : splitSign (Nat.toDigits 10 n.natAbs) = (false, Nat.toDigits 10 n.natAbs) :=
      splitSign_of_startsWith (by simpa using startsWith_toDigits n.natAbs [])
    simp only [intSpelling, if_neg hneg, integer?, hsign, isDigits_toDigits, hvalue, if_true,
      Bool.false_eq_true, if_false, Option.some.injEq]
    omega

theorem int32?_intSpelling (n : Int32) : int32? (intSpelling n.toInt) = some n := by
  simp only [int32?, integer?_intSpelling, Option.bind_eq_bind, Option.bind_some]
  rw [if_pos ⟨n.minValue_le_toInt, n.toInt_le⟩, Int32.ofInt_toInt]

end Numeral

/-! ## Decimals -/

namespace Decimal

theorem isDigit_of_mem_wholeDigits {d : Decimal} {c : Char} (h : c ∈ d.wholeDigits) :
    c.isDigit = true :=
  isDigit_of_mem_toDigits h

theorem isDigit_of_mem_fractionDigits {d : Decimal} {c : Char} (h : c ∈ d.fractionDigits) :
    c.isDigit = true := by
  unfold fractionDigits paddedDigits at h
  split at h
  · simp at h
  · rcases List.mem_append.mp h with hzero | hdigit
    · rw [List.eq_of_mem_replicate hzero]
      rfl
    · exact isDigit_of_mem_toDigits hdigit

theorem length_fractionDigits (d : Decimal) : d.fractionDigits.length = d.places := by
  unfold fractionDigits
  split
  · rename_i hplaces
    simp [hplaces]
  · rename_i hplaces
    have hlt : d.coefficient % 10 ^ d.places < 10 ^ d.places :=
      Nat.mod_lt _ (Nat.pow_pos (by decide))
    have hlength := (Nat.length_toDigits_le_iff (by decide) (by omega)).mpr hlt
    simp only [paddedDigits, List.length_append, List.length_replicate]
    omega

theorem digitsValue_fractionDigits (d : Decimal) :
    Numeral.digitsValue d.fractionDigits = d.coefficient % 10 ^ d.places := by
  unfold fractionDigits Numeral.digitsValue
  split
  · rename_i hplaces
    simp [hplaces, Nat.mod_one]
  · rw [paddedDigits, Nat.ofDigitChars_append, Nat.ofDigitChars_replicate_zero, Nat.mul_zero,
      Nat.ofDigitChars_ten_toDigits]

theorem digitsValue_wholeDigits_append (d : Decimal) :
    Numeral.digitsValue (d.wholeDigits ++ d.fractionDigits) = d.coefficient := by
  have hfraction := digitsValue_fractionDigits d
  unfold Numeral.digitsValue at *
  rw [Nat.ofDigitChars_append, Nat.ofDigitChars_eq_ofDigitChars_zero, hfraction,
    length_fractionDigits, wholeDigits, Nat.ofDigitChars_ten_toDigits]
  exact Nat.div_add_mod _ _

/-- The same value with at least one place. -/
def withPoint (d : Decimal) : Decimal := if d.places = 0 then ⟨d.coefficient * 10, 1⟩ else d

theorem places_withPoint_pos (d : Decimal) : 0 < d.withPoint.places := by
  unfold withPoint
  split
  · exact Nat.one_pos
  · omega

theorem spelling_of_places_pos {d : Decimal} (h : 0 < d.places) :
    d.spelling = d.wholeDigits ++ '.' :: d.fractionDigits := by
  rw [spelling, if_neg (by omega)]

theorem point_mem_spelling_iff (d : Decimal) : '.' ∈ d.spelling ↔ d.places ≠ 0 := by
  unfold spelling
  split
  · rename_i hplaces
    have : '.' ∉ d.wholeDigits := fun h => absurd (isDigit_of_mem_wholeDigits h) (by decide)
    simp [hplaces, this]
  · rename_i hplaces
    simp [hplaces]

theorem startsWith_spelling (d : Decimal) (rest : List Char) :
    startsWith Char.isDigit (d.spelling ++ rest) = true := by
  unfold spelling
  split
  · exact startsWith_toDigits _ rest
  · rw [List.append_assoc]
    exact startsWith_toDigits _ _

theorem spelling_withPoint (d : Decimal) :
    d.withPoint.spelling =
      if '.' ∈ d.spelling then d.spelling else d.spelling ++ ['.', '0'] := by
  by_cases hplaces : d.places = 0
  · have hpoint : '.' ∉ d.spelling := by simp [point_mem_spelling_iff, hplaces]
    rw [if_neg hpoint]
    simp [withPoint, spelling, hplaces, wholeDigits, fractionDigits, paddedDigits]
  · have hpoint : '.' ∈ d.spelling := by simp [point_mem_spelling_iff, hplaces]
    rw [if_pos hpoint, withPoint, if_neg hplaces]

end Decimal

theorem Binary64.nearestDecimal_withPoint (d : Decimal) :
    nearestDecimal d.withPoint = nearestDecimal d := by
  unfold Decimal.withPoint
  split
  · rename_i hplaces
    simp only [nearestDecimal, hplaces, Nat.mul_right_comm _ 10]
    exact nearest_mul_right _ 1 (by decide)
  · rfl

/-! ## Reals -/

namespace Numeral

theorem span_isDigit {run : List Char} (hrun : ∀ c ∈ run, c.isDigit = true) :
    run.takeWhile Char.isDigit = run ∧ run.dropWhile Char.isDigit = [] := by
  have htake := @takeWhile_append_stop Char.isDigit run [] hrun rfl
  have hdrop := @dropWhile_append_stop Char.isDigit run [] hrun rfl
  rw [List.append_nil] at htake hdrop
  exact ⟨htake, hdrop⟩

theorem splitPoint_append {whole fraction : List Char} (hwhole : ∀ c ∈ whole, c.isDigit = true)
    (hfraction : ∀ c ∈ fraction, c.isDigit = true) :
    splitPoint (whole ++ '.' :: fraction) = (whole, fraction, []) := by
  have hstop : startsWith Char.isDigit ('.' :: fraction) = false := by
    simp [startsWith]
  obtain ⟨htake, hdrop⟩ := span_isDigit hfraction
  rw [splitPoint, takeWhile_append_stop hwhole hstop, dropWhile_append_stop hwhole hstop]
  simp only [htake, hdrop]

theorem splitPoint_spelling (d : Decimal) :
    splitPoint d.spelling = (d.wholeDigits, d.fractionDigits, []) := by
  have hwhole : ∀ c ∈ d.wholeDigits, c.isDigit = true := fun _ =>
    Decimal.isDigit_of_mem_wholeDigits
  by_cases hplaces : d.places = 0
  · have hempty : d.fractionDigits = [] := by rw [Decimal.fractionDigits, if_pos hplaces]
    obtain ⟨htake, hdrop⟩ := span_isDigit hwhole
    rw [Decimal.spelling, if_pos hplaces, splitPoint, htake, hdrop, hempty]
  · rw [Decimal.spelling, if_neg hplaces]
    exact splitPoint_append hwhole fun _ => Decimal.isDigit_of_mem_fractionDigits

theorem decimal?_spelling (d : Decimal) : decimal? d.spelling = some d := by
  have hwhole : d.wholeDigits.isEmpty = false := by
    simp [Decimal.wholeDigits, Nat.toDigits_ne_nil]
  simp only [decimal?, splitPoint_spelling, hwhole, Bool.false_and, Bool.false_eq_true, if_false,
    exponent?, Option.map_some, Decimal.digitsValue_wholeDigits_append,
    Decimal.length_fractionDigits]
  simp [Decimal.ofScaled]

theorem splitSign_append (x : Binary64) (d : Decimal) :
    splitSign (x.signSpelling ++ d.spelling) = (x.isNegative, d.spelling) := by
  unfold Binary64.signSpelling
  cases x.isNegative with
  | true => simp [splitSign]
  | false => simpa using splitSign_of_startsWith (by simpa using d.startsWith_spelling [])

end Numeral

theorem Binary64.spelling_of_isFinite {x : Binary64} (h : x.isFinite = true) :
    x.spelling = x.signSpelling ++ (shortest x.magnitude).spelling := by
  have hnan : x.isNaN = false := by
    simp only [isFinite, isNaN, decide_eq_true_eq, decide_eq_false_iff_not] at *
    omega
  simp [spelling, hnan, h]

theorem realLiteral_eq {x : Binary64} (h : x.isFinite = true) :
    realLiteral x =
      x.signSpelling ++ (Binary64.shortest x.magnitude).withPoint.spelling := by
  have hpoint : '.' ∉ x.signSpelling := by
    unfold Binary64.signSpelling
    split <;> simp
  simp only [realLiteral, Binary64.spelling_of_isFinite h, List.mem_append, hpoint, false_or]
  rw [Decimal.spelling_withPoint]
  split <;> simp

/-- A decimal to which the number is nearest spells it, together with the sign. -/
theorem Numeral.real?_append_spelling {x : Binary64} (h : x.isFinite = true) {d : Decimal}
    (hnearest : Binary64.nearestDecimal d = x.magnitude) :
    real? (x.signSpelling ++ d.spelling) = some x := by
  have hfinite : x.magnitude < Binary64.infiniteMagnitude := of_decide_eq_true h
  simp only [real?, splitSign_append, decimal?_spelling]
  rw [Option.bind_eq_bind, Option.bind_some, hnearest, if_pos hfinite,
    Binary64.ofMagnitude_magnitude]

theorem Numeral.real?_realLiteral {x : Binary64} (h : x.isFinite = true) :
    real? (realLiteral x) = some x := by
  have hnearest : Binary64.nearestDecimal (Binary64.shortest x.magnitude).withPoint =
      x.magnitude := by
    rw [Binary64.nearestDecimal_withPoint, Binary64.nearestDecimal_shortest]
  rw [realLiteral_eq h, real?_append_spelling h hnearest]

theorem Numeral.isFinite_of_real? {text : List Char} {x : Binary64} (h : real? text = some x) :
    x.isFinite = true := by
  simp only [real?, Option.bind_eq_bind, Option.bind_eq_some_iff] at h
  obtain ⟨d, -, h⟩ := h
  split at h
  · rename_i hmagnitude
    cases h
    simpa [Binary64.isFinite, Binary64.magnitude_ofMagnitude _ hmagnitude] using hmagnitude
  · contradiction

end TagTemplate
