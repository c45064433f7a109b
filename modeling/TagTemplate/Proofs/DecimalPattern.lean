import Mathlib.Algebra.Order.Field.Basic
import Mathlib.Algebra.Order.Ring.Rat
import TagTemplate.DecimalPattern
import TagTemplate.Proofs.Numeral

/-!
Numbers formatted by a pattern.

The text is taken apart at its sign, its commas and its point.  What is left denotes the rounded
number and has the shape that the marks of the pattern ask for (`DecimalPattern.format_fits`).
-/

namespace TagTemplate

-- Powers are the built-in ones, whatever else is imported.
attribute [local instance (high)] instPowNat

/-! ## Digits -/

namespace Numeral

theorem digitsValue_append (digits rest : List Char) :
    digitsValue (digits ++ rest) = digitsValue digits * 10 ^ rest.length + digitsValue rest := by
  rw [digitsValue, Nat.ofDigitChars_append, Nat.ofDigitChars_eq_ofDigitChars_zero, Nat.mul_comm]
  rfl

theorem digitsValue_replicate_zero (n : Nat) : digitsValue (List.replicate n '0') = 0 := by
  rw [digitsValue, Nat.ofDigitChars_replicate_zero, Nat.mul_zero]

theorem digitsValue_replicate_zero_append (n : Nat) (digits : List Char) :
    digitsValue (List.replicate n '0' ++ digits) = digitsValue digits := by
  rw [digitsValue_append, digitsValue_replicate_zero, Nat.zero_mul, Nat.zero_add]

theorem digitsValue_append_replicate_zero (digits : List Char) (n : Nat) :
    digitsValue (digits ++ List.replicate n '0') = digitsValue digits * 10 ^ n := by
  rw [digitsValue_append, digitsValue_replicate_zero, List.length_replicate, Nat.add_zero]

theorem eq_replicate_append_dropWhile (digits : List Char) :
    ∃ n, digits = List.replicate n '0' ++ digits.dropWhile (· == '0') := by
  have hzero : ∀ c ∈ digits.takeWhile (· == '0'), c = '0' := fun c hc =>
    eq_of_beq (List.all_eq_true.mp List.all_takeWhile c hc)
  refine ⟨(digits.takeWhile (· == '0')).length, ?_⟩
  rw [← List.eq_replicate_of_mem hzero, List.takeWhile_append_dropWhile]

theorem toNat_sub_pos {c : Char} (h : c.isDigit = true) (hne : c ≠ '0') :
    0 < c.toNat - '0'.toNat := by
  have hcode : c.toNat ≠ '0'.toNat := fun heq => hne (Char.toNat_inj.mp heq)
  simp only [Char.isDigit_iff_toNat, Char.reduceToNat] at h hcode ⊢
  omega

theorem digitsValue_eq_zero_iff {digits : List Char} (h : ∀ c ∈ digits, c.isDigit = true) :
    digitsValue digits = 0 ↔ ∀ c ∈ digits, c = '0' := by
  constructor
  · intro hvalue
    induction digits with
    | nil => simp
    | cons c digits ih =>
        rw [List.forall_mem_cons] at h ⊢
        have hsplit := digitsValue_append [c] digits
        have hfirst : digitsValue [c] = c.toNat - '0'.toNat := by
          simp [digitsValue, Nat.ofDigitChars_cons]
        rw [List.singleton_append, hvalue, hfirst] at hsplit
        have hzero := Nat.add_eq_zero_iff.mp hsplit.symm
        refine ⟨?_, ih h.2 hzero.2⟩
        by_contra hne
        have hpos := Nat.mul_pos (toNat_sub_pos h.1 hne) (Nat.pow_pos (n := digits.length)
          (show 0 < 10 by decide))
        omega
  · intro hzero
    rw [List.eq_replicate_of_mem hzero, digitsValue_replicate_zero]

end Numeral

/-! ## Decimals -/

namespace Decimal

def value (d : Decimal) : ℚ := d.coefficient / 10 ^ d.places

/-- Zeros at the end do not change the value. -/
theorem value_mul_pow (coefficient places n : Nat) :
    value ⟨coefficient * 10 ^ n, places + n⟩ = value ⟨coefficient, places⟩ := by
  have hpow : (10 : ℚ) ^ n ≠ 0 := pow_ne_zero n (by norm_num)
  simp only [value]
  push_cast
  rw [pow_add, mul_div_mul_right _ _ hpow]

end Decimal

/-! ## Texts taken apart -/

def beforePoint (text : List Char) : List Char := text.takeWhile (· != '.')

def afterPoint (text : List Char) : List Char := (text.dropWhile (· != '.')).drop 1

theorem beforePoint_append {before rest : List Char} (h : '.' ∉ before)
    (hrest : startsWith (· != '.') rest = false) : beforePoint (before ++ rest) = before :=
  takeWhile_append_stop (fun _ hc => bne_iff_ne.mpr (ne_of_mem_of_not_mem hc h)) hrest

theorem afterPoint_append {before rest : List Char} (h : '.' ∉ before)
    (hrest : startsWith (· != '.') rest = false) : afterPoint (before ++ rest) = rest.drop 1 := by
  rw [afterPoint, dropWhile_append_stop _ hrest]
  exact fun _ hc => bne_iff_ne.mpr (ne_of_mem_of_not_mem hc h)

def withoutCommas (text : List Char) : List Char := text.filter (· != ',')

theorem withoutCommas_append (text rest : List Char) :
    withoutCommas (text ++ rest) = withoutCommas text ++ withoutCommas rest :=
  List.filter_append ..

theorem withoutCommas_cons {c : Char} (h : c ≠ ',') (text : List Char) :
    withoutCommas (c :: text) = c :: withoutCommas text :=
  List.filter_cons_of_pos (bne_iff_ne.mpr h)

theorem withoutCommas_eq_self {text : List Char} (h : ',' ∉ text) : withoutCommas text = text :=
  List.filter_eq_self.mpr fun _ hc => bne_iff_ne.mpr (ne_of_mem_of_not_mem hc h)

/-- A comma stands in the text between these parts of its digits. -/
def CommaBetween (text left right : List Char) : Prop :=
  ∃ before after, text = before ++ ',' :: after ∧
    withoutCommas before = left ∧ withoutCommas after = right

theorem not_commaBetween {text left right : List Char} (h : ',' ∉ text) :
    ¬ CommaBetween text left right := by
  rintro ⟨before, after, rfl, -⟩
  simp at h

/-- What stands before and after the point of a formatted number, behind its sign. -/
structure Layout where
  negative : Bool
  grouped : List Char
  fraction : List Char

namespace Layout

/-- The point stands only in front of a fraction. -/
def spelling (l : Layout) : List Char :=
  (if l.negative then ['-'] else []) ++ l.grouped ++
    if l.fraction.isEmpty then [] else '.' :: l.fraction

def ofText (text : List Char) : Layout :=
  let unsigned := if text.head? = some '-' then text.drop 1 else text
  ⟨text.head? = some '-', beforePoint unsigned, afterPoint unsigned⟩

/-- The digits before the point. -/
def whole (l : Layout) : List Char := withoutCommas l.grouped

/-- The number that is denoted, apart from its sign. -/
def decimal (l : Layout) : Decimal :=
  ⟨Numeral.digitsValue (l.whole ++ l.fraction), l.fraction.length⟩

theorem ofText_spelling {l : Layout} (h : ∀ c ∈ l.grouped, c.isDigit = true ∨ c = ',') :
    ofText l.spelling = l := by
  obtain ⟨negative, grouped, fraction⟩ := l
  have hpoint : '.' ∉ grouped := fun hmem => by simpa using h '.' hmem
  have hstop : startsWith (· != '.') (if fraction.isEmpty then [] else '.' :: fraction) = false := by
    cases fraction <;> rfl
  have hafter : (if fraction.isEmpty then [] else '.' :: fraction).drop 1 = fraction := by
    cases fraction <;> rfl
  cases negative with
  | true =>
      simp only [ofText, spelling, if_true, List.cons_append, List.nil_append, List.head?_cons,
        List.drop_succ_cons, List.drop_zero, beforePoint_append hpoint hstop,
        afterPoint_append hpoint hstop, hafter, decide_true]
  | false =>
      have hsign : (grouped ++ if fraction.isEmpty then [] else '.' :: fraction).head? ≠
          some '-' := by
        cases grouped with
        | nil => cases fraction <;> simp
        | cons c grouped =>
            rintro ⟨⟩
            simpa using h '-' (by simp)
      simp only [ofText, spelling, Bool.false_eq_true, if_false, List.nil_append, hsign,
        beforePoint_append hpoint hstop, afterPoint_append hpoint hstop, hafter, decide_false]

end Layout

namespace DecimalPattern

/-! ## Marks -/

theorem point_parts {pattern rest : List Char} (hrest : pattern.dropWhile isWholeMark = rest)
    (hstop : startsWith (· != '.') rest = false) :
    beforePoint pattern = pattern.takeWhile isWholeMark ∧ afterPoint pattern = rest.drop 1 := by
  have hpoint : '.' ∉ pattern.takeWhile isWholeMark := by
    intro hmem
    have := List.all_eq_true.mp List.all_takeWhile _ hmem
    contradiction
  have hsplit := List.takeWhile_append_dropWhile (p := isWholeMark) (l := pattern)
  have hbefore := beforePoint_append hpoint hstop
  have hafter := afterPoint_append hpoint hstop
  rw [← hrest, hsplit] at hbefore hafter
  rw [hrest] at hafter
  exact ⟨hbefore, hafter⟩

theorem parse?_eq_ofParts {pattern : List Char} {p : DecimalPattern} (h : parse? pattern = some p) :
    p = ofParts (beforePoint pattern) (afterPoint pattern) := by
  unfold parse? at h
  simp only at h
  split at h
  · next hrest =>
      obtain ⟨hbefore, hafter⟩ := point_parts hrest rfl
      rw [hbefore, hafter]
      split at h <;> cases h
      rfl
  · next hrest =>
      obtain ⟨hbefore, hafter⟩ := point_parts hrest rfl
      rw [hbefore, hafter]
      split at h <;> cases h
      rfl
  · cases h

theorem groupSize_of_comma {whole before after : List Char} (h : whole = before ++ ',' :: after)
    (hafter : ',' ∉ after) : groupSize whole = after.length := by
  have hmem : ',' ∈ whole := by simp [h]
  have hreverse : whole.reverse = after.reverse ++ ',' :: before.reverse := by simp [h]
  have htake : whole.reverse.takeWhile (· != ',') = after.reverse := by
    rw [hreverse]
    refine takeWhile_append_stop (fun _ hc => ?_) rfl
    exact bne_iff_ne.mpr (ne_of_mem_of_not_mem (List.mem_reverse.mp hc) hafter)
  rw [groupSize, if_pos hmem, htake, List.length_reverse]

theorem groupSize_of_no_comma {whole : List Char} (h : ',' ∉ whole) : groupSize whole = 0 :=
  if_neg h

/-! ## Grouping -/

/-- What stands in front of the remaining digits. -/
def separator (size : Nat) (rest : List Char) : List Char :=
  if rest ≠ [] ∧ size ∣ rest.length then [','] else []

theorem withoutCommas_separator (size : Nat) (rest : List Char) :
    withoutCommas (separator size rest) = [] := by
  unfold separator
  split <;> rfl

theorem groupDigits_cons (size : Nat) (c : Char) (rest : List Char) :
    groupDigits size (c :: rest) = c :: (separator size rest ++ groupDigits size rest) := by
  rw [groupDigits, separator]
  by_cases h : rest ≠ [] ∧ size ∣ rest.length
  · have htest : (!rest.isEmpty && rest.length % size == 0) = true := by
      simpa [Nat.dvd_iff_mod_eq_zero] using h
    rw [if_pos h, if_pos htest]
    rfl
  · have htest : ¬ (!rest.isEmpty && rest.length % size == 0) = true := by
      simpa [Nat.dvd_iff_mod_eq_zero] using h
    rw [if_neg h, if_neg htest]
    rfl

section Grouping

variable {size : Nat} {digits : List Char}

theorem withoutCommas_groupDigits (h : ',' ∉ digits) :
    withoutCommas (groupDigits size digits) = digits := by
  induction digits with
  | nil => rfl
  | cons c rest ih =>
      rw [List.mem_cons, not_or] at h
      rw [groupDigits_cons, withoutCommas_cons (Ne.symm h.1), withoutCommas_append,
        withoutCommas_separator, ih h.2, List.nil_append]

theorem head?_groupDigits (size : Nat) (digits : List Char) :
    (groupDigits size digits).head? = digits.head? := by
  cases digits with
  | nil => rfl
  | cons c rest => rw [groupDigits_cons, List.head?_cons, List.head?_cons]

/-- A comma of grouped digits stands between digits, and is where the size asks for one. -/
theorem of_comma_groupDigits (h : ',' ∉ digits) {before after : List Char}
    (hcomma : groupDigits size digits = before ++ ',' :: after) :
    withoutCommas before ≠ [] ∧ withoutCommas after ≠ [] ∧ after.head? ≠ some ',' ∧
      size ∣ (withoutCommas after).length := by
  induction digits generalizing before with
  | nil => simp [groupDigits] at hcomma
  | cons c rest ih =>
      rw [List.mem_cons, not_or] at h
      rw [groupDigits_cons] at hcomma
      cases before with
      | nil =>
          cases hcomma
          exact absurd rfl h.1
      | cons d before =>
          rw [List.cons_append, List.cons.injEq] at hcomma
          obtain ⟨rfl, hcomma⟩ := hcomma
          have hfirst : withoutCommas (c :: before) ≠ [] := by
            rw [withoutCommas_cons (Ne.symm h.1)]
            exact List.cons_ne_nil _ _
          unfold separator at hcomma
          split at hcomma
          · next hgroup =>
              cases before with
              | nil =>
                  rw [List.singleton_append, List.nil_append, List.cons.injEq] at hcomma
                  obtain ⟨-, rfl⟩ := hcomma
                  rw [withoutCommas_groupDigits h.2, head?_groupDigits]
                  exact ⟨hfirst, hgroup.1, fun hhead => h.2 (List.mem_of_mem_head? hhead),
                    hgroup.2⟩
              | cons d before =>
                  rw [List.cons_append, List.cons_append, List.cons.injEq] at hcomma
                  exact ⟨hfirst, (ih h.2 hcomma.2).2⟩
          · exact ⟨hfirst, (ih h.2 hcomma).2⟩

theorem commaBetween_groupDigits {left right : List Char} (h : ',' ∉ left ++ right)
    (hleft : left ≠ []) (hright : right ≠ []) (hsize : size ∣ right.length) :
    CommaBetween (groupDigits size (left ++ right)) left right := by
  induction left with
  | nil => contradiction
  | cons c left ih =>
      rw [List.cons_append, List.mem_cons, not_or] at h
      rw [List.cons_append, groupDigits_cons]
      have hc := Ne.symm h.1
      cases left with
      | nil =>
          have hseparator : separator size right = [','] := if_pos ⟨hright, hsize⟩
          refine ⟨[c], groupDigits size right, ?_, withoutCommas_cons hc [],
            withoutCommas_groupDigits h.2⟩
          rw [List.nil_append, hseparator, List.singleton_append, List.singleton_append]
      | cons d left =>
          obtain ⟨before, after, htext, hbefore, hafter⟩ := ih h.2 (List.cons_ne_nil _ _)
          refine ⟨c :: (separator size (d :: left ++ right) ++ before), after, ?_, ?_, hafter⟩
          · rw [htext]
            simp
          · rw [withoutCommas_cons hc, withoutCommas_append, withoutCommas_separator, hbefore,
              List.nil_append]

theorem commaBetween_groupDigits_iff {left right : List Char} (h : ',' ∉ left ++ right) :
    CommaBetween (groupDigits size (left ++ right)) left right ↔
      left ≠ [] ∧ right ≠ [] ∧ size ∣ right.length := by
  constructor
  · rintro ⟨before, after, htext, rfl, rfl⟩
    obtain ⟨hleft, hright, -, hsize⟩ := of_comma_groupDigits h htext
    exact ⟨hleft, hright, hsize⟩
  · rintro ⟨hleft, hright, hsize⟩
    exact commaBetween_groupDigits h hleft hright hsize

end Grouping

/-! ## Padding and trimming -/

theorem head?_dropWhile_zeros (digits : List Char) :
    (digits.dropWhile (· == '0')).head? ≠ some '0' := by
  intro hhead
  have := List.head?_dropWhile_not (· == '0') digits
  rw [hhead] at this
  simp at this

theorem exists_append_trimZeros (keep : Nat) (digits : List Char) :
    ∃ n, digits = trimZeros keep digits ++ List.replicate n '0' := by
  obtain ⟨n, hn⟩ := Numeral.eq_replicate_append_dropWhile (digits.drop keep).reverse
  refine ⟨n, ?_⟩
  have hdrop := congrArg List.reverse hn
  rw [List.reverse_reverse, List.reverse_append, List.reverse_replicate] at hdrop
  rw [trimZeros, List.append_assoc, ← hdrop, List.take_append_drop]

theorem le_length_trimZeros {keep : Nat} {digits : List Char} (h : keep ≤ digits.length) :
    keep ≤ (trimZeros keep digits).length := by
  rw [trimZeros, List.length_append, List.length_take, Nat.min_eq_left h]
  exact Nat.le_add_right _ _

theorem getLast?_trimZeros {keep : Nat} {digits : List Char}
    (h : keep < (trimZeros keep digits).length) : (trimZeros keep digits).getLast? ≠ some '0' := by
  have hfirst := head?_dropWhile_zeros (digits.drop keep).reverse
  rw [trimZeros, List.length_append, List.length_take, List.length_reverse] at h
  rw [trimZeros]
  generalize (digits.drop keep).reverse.dropWhile (· == '0') = kept at h hfirst ⊢
  have hne : kept ≠ [] := by
    rintro rfl
    rw [List.length_nil] at h
    omega
  obtain ⟨c, kept, rfl⟩ := List.exists_cons_of_ne_nil hne
  simpa using hfirst

/-- The digits before the point, before they are grouped. -/
def wholeDigits (p : DecimalPattern) (d : Decimal) : List Char :=
  padZeros p.minWhole (d.wholeDigits.dropWhile (· == '0'))

section Parts

variable (p : DecimalPattern) (d : Decimal)

theorem isDigit_of_mem_wholeDigits : ∀ c ∈ p.wholeDigits d, c.isDigit = true := by
  intro c hc
  rcases List.mem_append.mp hc with hzero | hdigit
  · rw [List.eq_of_mem_replicate hzero]
    rfl
  · exact Decimal.isDigit_of_mem_wholeDigits ((List.dropWhile_sublist _).subset hdigit)

theorem minWhole_le_length_wholeDigits : p.minWhole ≤ (p.wholeDigits d).length := by
  rw [wholeDigits, padZeros, List.length_append, List.length_replicate]
  omega

theorem head?_wholeDigits (h : p.minWhole < (p.wholeDigits d).length) :
    (p.wholeDigits d).head? ≠ some '0' := by
  have hfirst := head?_dropWhile_zeros d.wholeDigits
  rw [wholeDigits, padZeros] at h ⊢
  generalize d.wholeDigits.dropWhile (· == '0') = kept at h hfirst ⊢
  rw [List.length_append, List.length_replicate] at h
  have hpadding : p.minWhole - kept.length = 0 := by omega
  rwa [hpadding, List.replicate_zero, List.nil_append]

theorem digitsValue_wholeDigits :
    Numeral.digitsValue (p.wholeDigits d) = Numeral.digitsValue d.wholeDigits := by
  obtain ⟨n, hn⟩ := Numeral.eq_replicate_append_dropWhile d.wholeDigits
  rw [wholeDigits, padZeros, Numeral.digitsValue_replicate_zero_append]
  conv_rhs => rw [hn, Numeral.digitsValue_replicate_zero_append]

theorem exists_fractionDigits :
    ∃ n, d.fractionDigits = p.fractionPart d ++ List.replicate n '0' :=
  exists_append_trimZeros _ _

theorem isDigit_of_mem_fractionPart : ∀ c ∈ p.fractionPart d, c.isDigit = true := by
  obtain ⟨n, hn⟩ := p.exists_fractionDigits d
  intro c hc
  refine Decimal.isDigit_of_mem_fractionDigits (d := d) ?_
  rw [hn]
  exact List.mem_append_left _ hc

/-- Only zeros at the end of the fraction are left out. -/
theorem exists_coefficient :
    ∃ n, d.coefficient =
        Numeral.digitsValue (p.wholeDigits d ++ p.fractionPart d) * 10 ^ n ∧
      d.places = (p.fractionPart d).length + n := by
  obtain ⟨n, hn⟩ := p.exists_fractionDigits d
  refine ⟨n, ?_, ?_⟩
  · rw [← Numeral.digitsValue_append_replicate_zero, List.append_assoc, ← hn,
      Numeral.digitsValue_append, digitsValue_wholeDigits, ← Numeral.digitsValue_append,
      Decimal.digitsValue_wholeDigits_append]
  · rw [← d.length_fractionDigits, hn, List.length_append, List.length_replicate]

theorem value_parts :
    Decimal.value ⟨Numeral.digitsValue (p.wholeDigits d ++ p.fractionPart d),
      (p.fractionPart d).length⟩ = d.value := by
  obtain ⟨n, hcoefficient, hplaces⟩ := p.exists_coefficient d
  rw [← Decimal.value_mul_pow _ _ n, ← hcoefficient, ← hplaces]

theorem wholePart_eq :
    p.wholePart d = p.grouping.elim (p.wholeDigits d) (groupDigits · (p.wholeDigits d)) := by
  rw [wholePart]
  cases p.grouping <;> rfl

theorem comma_notMem_wholeDigits : ',' ∉ p.wholeDigits d := by
  intro hmem
  have := p.isDigit_of_mem_wholeDigits d ',' hmem
  contradiction

theorem withoutCommas_wholePart : withoutCommas (p.wholePart d) = p.wholeDigits d := by
  have hcomma := p.comma_notMem_wholeDigits d
  rw [wholePart_eq]
  cases p.grouping with
  | none => exact withoutCommas_eq_self hcomma
  | some size => exact withoutCommas_groupDigits hcomma

theorem any_isNonzeroDigit_iff :
    (p.wholePart d ++ p.fractionPart d).any isNonzeroDigit = true ↔ d.coefficient ≠ 0 := by
  have hdigits : ∀ c ∈ p.wholeDigits d ++ p.fractionPart d, c.isDigit = true :=
    List.forall_mem_append.mpr ⟨p.isDigit_of_mem_wholeDigits d, p.isDigit_of_mem_fractionPart d⟩
  have hmem : ∀ c, c ≠ ',' → (c ∈ p.wholePart d ↔ c ∈ p.wholeDigits d) := by
    intro c hc
    rw [← withoutCommas_wholePart, withoutCommas, List.mem_filter]
    simp [hc]
  obtain ⟨n, hcoefficient, -⟩ := p.exists_coefficient d
  have hpow : 10 ^ n ≠ 0 := (Nat.pow_pos (by decide)).ne'
  rw [hcoefficient, mul_ne_zero_iff, and_iff_left hpow, Ne, Numeral.digitsValue_eq_zero_iff hdigits,
    List.any_eq_true]
  push Not
  constructor
  · rintro ⟨c, hc, hnonzero⟩
    simp only [isNonzeroDigit, Bool.and_eq_true, bne_iff_ne] at hnonzero
    have hcomma : c ≠ ',' := by
      rintro rfl
      exact absurd hnonzero.1 (by decide)
    rw [List.mem_append, hmem c hcomma, ← List.mem_append] at hc
    exact ⟨c, hc, hnonzero.2⟩
  · rintro ⟨c, hc, hne⟩
    have hdigit := hdigits c hc
    have hcomma : c ≠ ',' := by
      rintro rfl
      exact absurd hdigit (by decide)
    rw [List.mem_append, ← hmem c hcomma, ← List.mem_append] at hc
    exact ⟨c, hc, by simp [isNonzeroDigit, hdigit, hne]⟩

end Parts

/-! ## Formatted numbers -/

/-- The number without its sign, rounded to as many places as the pattern has marks for. -/
def rounded (pattern : List Char) (x : Binary64) : Decimal :=
  Binary64.fixed x.magnitude (afterPoint pattern).length

/-- The parts of a formatted number are those that the marks of the pattern ask for. -/
structure Fits (pattern : List Char) (x : Binary64) (l : Layout) : Prop where
  whole_digits : ∀ c ∈ l.whole, c.isDigit = true
  fraction_digits : ∀ c ∈ l.fraction, c.isDigit = true
  value_eq : l.decimal.value = (rounded pattern x).value
  written : l.whole ≠ [] ∨ l.fraction ≠ []
  whole_length : (beforePoint pattern).count '0' ≤ l.whole.length
  whole_zero : (beforePoint pattern).count '0' < l.whole.length → l.whole.head? = some '0' →
    l.whole = ['0'] ∧ l.fraction = []
  fraction_length : (afterPoint pattern).count '0' ≤ l.fraction.length ∧
    l.fraction.length ≤ (afterPoint pattern).length
  fraction_zero : (afterPoint pattern).count '0' < l.fraction.length →
    l.fraction.getLast? ≠ some '0'
  negative_iff : l.negative = true ↔ x.isNegative = true ∧ (rounded pattern x).coefficient ≠ 0
  commas : ∀ before after, beforePoint pattern = before ++ ',' :: after → ',' ∉ after →
    ∀ left right, l.whole = left ++ right →
      (CommaBetween l.grouped left right ↔
        left ≠ [] ∧ right ≠ [] ∧ 0 < after.length ∧ after.length ∣ right.length)
  no_commas : ',' ∉ beforePoint pattern → ',' ∉ l.grouped
  commas_apart : ∀ before after, l.grouped = before ++ ',' :: after → after.head? ≠ some ','

def layout (p : DecimalPattern) (x : Binary64) : Layout :=
  let d := Binary64.fixed x.magnitude p.maxFraction
  let whole := p.wholePart d
  let fraction := p.fractionPart d
  ⟨x.isNegative && (whole ++ fraction).any isNonzeroDigit,
    if whole = [] ∧ fraction = [] then ['0'] else whole, fraction⟩

theorem formatFinite_eq_spelling (p : DecimalPattern) (x : Binary64) :
    p.formatFinite x = (p.layout x).spelling := by
  unfold formatFinite layout Layout.spelling
  by_cases hwhole : p.wholePart (Binary64.fixed x.magnitude p.maxFraction) = [] <;>
    by_cases hfraction : p.fractionPart (Binary64.fixed x.magnitude p.maxFraction) = [] <;>
    simp [hwhole, hfraction]

theorem wholePart_eq_nil_iff (p : DecimalPattern) (d : Decimal) :
    p.wholePart d = [] ↔ p.wholeDigits d = [] := by
  constructor
  · intro h
    rw [← withoutCommas_wholePart, h]
    rfl
  · intro h
    rw [wholePart_eq, h]
    cases p.grouping <;> rfl

section Fitting

variable (pattern : List Char) (x : Binary64)

/-- The pattern that the marks stand for. -/
def ofMarks : DecimalPattern := ofParts (beforePoint pattern) (afterPoint pattern)

theorem grouping_of_comma {before after : List Char}
    (h : beforePoint pattern = before ++ ',' :: after) (hafter : ',' ∉ after) :
    (ofMarks pattern).grouping = if after.length = 0 then none else some after.length := by
  rw [← groupSize_of_comma h hafter]
  rfl

theorem grouping_of_no_comma (h : ',' ∉ beforePoint pattern) :
    (ofMarks pattern).grouping = none :=
  if_pos (groupSize_of_no_comma h)

theorem count_le_length_fractionPart :
    (afterPoint pattern).count '0' ≤
      ((ofMarks pattern).fractionPart (rounded pattern x)).length := by
  refine le_length_trimZeros ?_
  rw [Decimal.length_fractionDigits]
  exact List.count_le_length

theorem length_fractionPart_le :
    ((ofMarks pattern).fractionPart (rounded pattern x)).length ≤ (afterPoint pattern).length := by
  obtain ⟨n, -, hplaces⟩ := (ofMarks pattern).exists_coefficient (rounded pattern x)
  have hrounded : (rounded pattern x).places = (afterPoint pattern).length := rfl
  omega

theorem commaBetween_wholePart_iff {before after left right : List Char} (d : Decimal)
    (h : beforePoint pattern = before ++ ',' :: after) (hafter : ',' ∉ after)
    (hsplit : (ofMarks pattern).wholeDigits d = left ++ right) :
    CommaBetween ((ofMarks pattern).wholePart d) left right ↔
      left ≠ [] ∧ right ≠ [] ∧ 0 < after.length ∧ after.length ∣ right.length := by
  have hcomma := (ofMarks pattern).comma_notMem_wholeDigits d
  rw [wholePart_eq, grouping_of_comma pattern h hafter]
  split
  · next hzero =>
      rw [Option.elim_none, iff_false_left (not_commaBetween hcomma)]
      omega
  · next hpos =>
      rw [hsplit] at hcomma ⊢
      rw [Option.elim_some, commaBetween_groupDigits_iff hcomma,
        and_iff_right (Nat.pos_of_ne_zero hpos)]

theorem comma_notMem_wholePart (d : Decimal) (h : ',' ∉ beforePoint pattern) :
    ',' ∉ (ofMarks pattern).wholePart d := by
  rw [wholePart_eq, grouping_of_no_comma pattern h]
  exact (ofMarks pattern).comma_notMem_wholeDigits d

theorem commas_apart_wholePart (p : DecimalPattern) (d : Decimal) {before after : List Char}
    (h : p.wholePart d = before ++ ',' :: after) : after.head? ≠ some ',' := by
  have hcomma := p.comma_notMem_wholeDigits d
  rw [wholePart_eq] at h
  cases hgrouping : p.grouping with
  | none =>
      rw [hgrouping, Option.elim_none] at h
      rw [h] at hcomma
      simp at hcomma
  | some size =>
      rw [hgrouping, Option.elim_some] at h
      exact (of_comma_groupDigits hcomma h).2.2.1

theorem fits_zero (hwhole : (ofMarks pattern).wholeDigits (rounded pattern x) = [])
    (hfraction : (ofMarks pattern).fractionPart (rounded pattern x) = []) :
    Fits pattern x ⟨false, ['0'], []⟩ := by
  have hvalue := (ofMarks pattern).value_parts (rounded pattern x)
  obtain ⟨n, hcoefficient, -⟩ := (ofMarks pattern).exists_coefficient (rounded pattern x)
  have hminWhole := (ofMarks pattern).minWhole_le_length_wholeDigits (rounded pattern x)
  have hminFraction := count_le_length_fractionPart pattern x
  rw [hwhole, hfraction] at hvalue hcoefficient
  rw [hwhole] at hminWhole
  rw [hfraction] at hminFraction
  have hzero : (rounded pattern x).coefficient = 0 := hcoefficient.trans (Nat.zero_mul _)
  have hcomma : ',' ∉ ['0'] := by decide
  exact {
    whole_digits := by simp [Layout.whole, withoutCommas]
    fraction_digits := by simp
    value_eq := hvalue
    written := .inl (by decide)
    whole_length := hminWhole.trans (Nat.zero_le _)
    whole_zero := fun _ _ => ⟨rfl, rfl⟩
    fraction_length := ⟨hminFraction, Nat.zero_le _⟩
    fraction_zero := fun h => absurd h (Nat.not_lt_zero _)
    negative_iff := by simp [hzero]
    commas := by
      intro before after _ _ left right hsplit
      rw [iff_false_left (not_commaBetween hcomma)]
      rintro ⟨hleft, hright, -⟩
      have hlength := congrArg List.length hsplit
      rw [List.length_append] at hlength
      have := List.length_pos_iff.mpr hleft
      have := List.length_pos_iff.mpr hright
      have : (Layout.whole ⟨false, ['0'], []⟩).length = 1 := rfl
      omega
    no_commas := fun _ => hcomma
    commas_apart := by
      intro before after h
      have hmem : ',' ∈ before ++ ',' :: after := by simp
      rw [← h] at hmem
      exact absurd hmem hcomma }

theorem fits_parts {l : Layout}
    (hgrouped : l.grouped = (ofMarks pattern).wholePart (rounded pattern x))
    (hfraction : l.fraction = (ofMarks pattern).fractionPart (rounded pattern x))
    (hnegative : l.negative = (x.isNegative &&
      ((ofMarks pattern).wholePart (rounded pattern x) ++
        (ofMarks pattern).fractionPart (rounded pattern x)).any isNonzeroDigit))
    (hwritten : ¬ ((ofMarks pattern).wholePart (rounded pattern x) = [] ∧
      (ofMarks pattern).fractionPart (rounded pattern x) = [])) :
    Fits pattern x l := by
  have hwhole : l.whole = (ofMarks pattern).wholeDigits (rounded pattern x) := by
    rw [Layout.whole, hgrouped, withoutCommas_wholePart]
  exact {
    whole_digits := by
      rw [hwhole]
      exact isDigit_of_mem_wholeDigits _ _
    fraction_digits := by
      rw [hfraction]
      exact isDigit_of_mem_fractionPart _ _
    value_eq := by
      rw [Layout.decimal, hwhole, hfraction]
      exact value_parts _ _
    written := by
      rw [hwhole, hfraction]
      rwa [wholePart_eq_nil_iff, not_and_or] at hwritten
    whole_length := by
      rw [hwhole]
      exact (ofMarks pattern).minWhole_le_length_wholeDigits (rounded pattern x)
    whole_zero := by
      rw [hwhole]
      exact fun hlength hhead => absurd hhead (head?_wholeDigits _ _ hlength)
    fraction_length := by
      rw [hfraction]
      exact ⟨count_le_length_fractionPart pattern x, length_fractionPart_le pattern x⟩
    fraction_zero := by
      rw [hfraction]
      exact getLast?_trimZeros
    negative_iff := by
      rw [hnegative, Bool.and_eq_true, any_isNonzeroDigit_iff]
    commas := by
      intro before after hmarks hafter left right hsplit
      rw [hgrouped]
      exact commaBetween_wholePart_iff pattern _ hmarks hafter (hwhole.symm.trans hsplit)
    no_commas := by
      rw [hgrouped]
      exact comma_notMem_wholePart pattern _
    commas_apart := by
      rw [hgrouped]
      exact fun _ _ => commas_apart_wholePart _ _ }

theorem fits_layout : Fits pattern x ((ofMarks pattern).layout x) := by
  have hrounded : Binary64.fixed x.magnitude (ofMarks pattern).maxFraction =
      rounded pattern x := rfl
  simp only [layout, hrounded]
  split
  · next hempty =>
      rw [hempty.1, hempty.2]
      rw [wholePart_eq_nil_iff] at hempty
      have hfits := fits_zero pattern x hempty.1 hempty.2
      simpa using hfits
  · next hwritten => exact fits_parts pattern x rfl rfl rfl hwritten

end Fitting

/--
The text of a finite number, taken apart at its sign, its commas and its point, denotes the number
as rounded to the places of the pattern, and its parts are those that the marks of the pattern
ask for.
-/
theorem format_fits {pattern : List Char} {p : DecimalPattern} (hp : parse? pattern = some p)
    {x : Binary64} (hx : x.isFinite = true) :
    (Layout.ofText (p.format x).toList).spelling = (p.format x).toList ∧
      Fits pattern x (Layout.ofText (p.format x).toList) := by
  obtain rfl : p = ofMarks pattern := parse?_eq_ofParts hp
  have hfits := fits_layout pattern x
  have htext : ((ofMarks pattern).format x).toList = ((ofMarks pattern).layout x).spelling := by
    rw [format, if_pos hx, String.toList_ofList, formatFinite_eq_spelling]
  have hgrouped : ∀ c ∈ ((ofMarks pattern).layout x).grouped, c.isDigit = true ∨ c = ',' := by
    intro c hc
    by_cases hcomma : c = ','
    · exact .inr hcomma
    · refine .inl (hfits.whole_digits c (List.mem_filter.mpr ⟨hc, ?_⟩))
      exact bne_iff_ne.mpr hcomma
  rw [htext, Layout.ofText_spelling hgrouped]
  exact ⟨rfl, hfits⟩

/-- Zeros in front are grouped like other digits. -/
theorem format_fits_grouped_zeros :
    let pattern := "0,000.0#".toList
    let p : DecimalPattern := ⟨4, some 3, 1, 2⟩
    let x : Binary64 := ⟨0xc028800000000000⟩
    parse? pattern = some p ∧ x.isFinite = true ∧ p.format x = "-0,012.25" ∧
      Fits pattern x ⟨true, "0,012".toList, "25".toList⟩ := by
  intro pattern p x
  have hp : parse? pattern = some p := by decide +kernel
  have hx : x.isFinite = true := by decide
  have htext : p.format x = "-0,012.25" := by decide +kernel
  have hlayout : Layout.ofText "-0,012.25".toList = ⟨true, "0,012".toList, "25".toList⟩ := rfl
  have hfits := (format_fits hp hx).2
  rw [htext, hlayout] at hfits
  exact ⟨hp, hx, htext, hfits⟩

end DecimalPattern

end TagTemplate
