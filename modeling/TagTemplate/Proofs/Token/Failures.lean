import TagTemplate.Proofs.Token.Driving
import TagTemplate.Proofs.Token.Factorization
import TagTemplate.Proofs.Token.Faults

/-!
Where failures point.

`LexError.Describes e ahead` says what the characters are to which a failure points: the escape that
means nothing, the string that is not closed, the numeral that is out of range.  Whatever a caller
has done before, they stand in the source at the offset of the failure, which is not behind the
cursor (`Lexer.failure_points_at_fault`).
-/

namespace TagTemplate

/-! ## What stands where a failure points -/

def trailingBackslashes (text : List Char) : Nat :=
  (text.reverse.takeWhile (· == '\\')).length

/-- No quote of the text ends a string: each is escaped by the last of the backslashes before it. -/
def QuotesEscaped (text : List Char) : Prop :=
  ∀ before after, text = before ++ '"' :: after → trailingBackslashes before % 2 = 1

/-- An even number of backslashes escapes nothing behind it. -/
theorem trailingBackslashes_append {front : List Char} (h : trailingBackslashes front % 2 = 0)
    (text : List Char) :
    trailingBackslashes (front ++ text) % 2 = trailingBackslashes text % 2 := by
  unfold trailingBackslashes at *
  rw [List.reverse_append, List.takeWhile_append]
  split
  · next hall =>
      rw [List.length_append, hall]
      omega
  · rfl

theorem StringSpelling.quotesEscaped {inside content tail : List Char}
    (h : StringSpelling inside content) (htail : tail = [] ∨ tail = ['\\']) :
    QuotesEscaped (inside ++ tail) := by
  induction h with
  | nil =>
      intro before after hsplit
      rcases htail with rfl | rfl <;> rcases before with _ | ⟨c, _ | _⟩ <;> simp at hsplit
  | @escaped c meant source content hc _ ih =>
      intro before after hsplit
      have hpair : trailingBackslashes ['\\', c] % 2 = 0 := by
        by_cases hslash : c = '\\' <;> simp [trailingBackslashes, hslash]
      rcases before with _ | ⟨_, _ | ⟨_, before⟩⟩
      · simp at hsplit
      · simp only [List.cons_append, List.nil_append, List.cons.injEq] at hsplit
        rw [← hsplit.1]
        rfl
      · simp only [List.cons_append, List.cons.injEq] at hsplit
        obtain ⟨rfl, rfl, hsplit⟩ := hsplit
        have hrest := ih before after hsplit
        rwa [← trailingBackslashes_append hpair] at hrest
  | @plain c source content hquote hslash _ ih =>
      intro before after hsplit
      have hother : trailingBackslashes [c] % 2 = 0 := by simp [trailingBackslashes, hslash]
      rcases before with _ | ⟨_, before⟩
      · exact absurd (List.cons.inj hsplit).1 hquote
      · simp only [List.cons_append, List.cons.injEq] at hsplit
        obtain ⟨rfl, hsplit⟩ := hsplit
        have hrest := ih before after hsplit
        rwa [← trailingBackslashes_append hother] at hrest

namespace Numeral

/-- An integer that does not fit in 32 bits. -/
def IntOutOfRange (literal : List Char) : Prop :=
  ∃ value, SpellsInt literal value ∧
    (value < Int32.minValue.toInt ∨ Int32.maxValue.toInt < value)

/-- A real to which no finite number is the nearest, where numbers can have any size. -/
def RealOutOfRange (literal : List Char) : Prop :=
  ∃ negative whole fraction magnitude,
    literal = minusIf negative ++ (whole ++ '.' :: fraction) ∧
      isDigits whole = true ∧ isDigits fraction = true ∧
      Binary64.IsNearest ⟨digitsValue (whole ++ fraction), fraction.length⟩ magnitude ∧
      Binary64.infiniteMagnitude ≤ magnitude

theorem intOutOfRange_of_int32? {negative : Bool} {digits : List Char} (hne : digits ≠ [])
    (hdigits : ∀ c ∈ digits, c.isDigit = true)
    (h : int32? (minusIf negative ++ digits) = none) :
    IntOutOfRange (minusIf negative ++ digits) := by
  refine ⟨_, ⟨negative, digits, rfl, isDigits_iff.mpr ⟨hne, hdigits⟩, rfl⟩, ?_⟩
  rw [int32?, integer?_minusIf negative hne hdigits, Option.bind_eq_bind, Option.bind_some] at h
  rw [← not_le, ← not_le, ← not_and_or]
  intro hrange
  rw [if_pos hrange] at h
  cases h

theorem realOutOfRange_of_real? {negative : Bool} {whole fraction : List Char} (hne : whole ≠ [])
    (hwhole : ∀ c ∈ whole, c.isDigit = true) (hne' : fraction ≠ [])
    (hfraction : ∀ c ∈ fraction, c.isDigit = true)
    (h : real? (minusIf negative ++ (whole ++ '.' :: fraction)) = none) :
    RealOutOfRange (minusIf negative ++ (whole ++ '.' :: fraction)) := by
  refine ⟨negative, whole, fraction, _, rfl, isDigits_iff.mpr ⟨hne, hwhole⟩,
    isDigits_iff.mpr ⟨hne', hfraction⟩, Binary64.isNearest_nearestDecimal _, ?_⟩
  refine Nat.le_of_not_lt fun hmagnitude => ?_
  rw [real?_minusIf negative hne hwhole hfraction, if_pos hmagnitude] at h
  cases h

end Numeral

/-- What stands in the source from the offset of a failure on. -/
def LexError.Describes : LexError → List Char → Prop
  | invalidTextEscape _ found, ahead =>
      ∃ rest, ahead = '\\' :: found :: rest ∧ found ≠ '{' ∧ found ≠ '\\'
  | danglingEscape _, ahead => ahead = ['\\']
  | invalidStringEscape _ found, ahead =>
      ∃ rest, ahead = '\\' :: found :: rest ∧ stringEscape? found = none
  | unterminatedString _, ahead => ∃ rest, ahead = '"' :: rest ∧ QuotesEscaped rest
  | invalidFunctionName _, ahead =>
      ∃ rest, ahead = '@' :: rest ∧ startsWith Text.isAlphabetic rest = false
  | numberOutOfRange _ literal, ahead =>
      ∃ rest, ahead = literal.toList ++ rest ∧ startsWith Char.isDigit rest = false ∧
        (Numeral.IntOutOfRange literal.toList ∧ startsFraction rest = false ∨
          Numeral.RealOutOfRange literal.toList)
  | unexpectedChar _ found, ahead => ∃ rest, ahead = found :: rest

theorem TextFault.describes {ahead : List Char} {e : LexError} (h : TextFault ahead e) :
    e.Describes ahead := by
  cases h with
  | invalidEscape hbrace hslash => exact ⟨_, rfl, hbrace, hslash⟩
  | danglingEscape => rfl

theorem TagFault.describes {passed ahead : List Char} {e : LexError}
    (h : TagFault passed ahead e) : e.Describes ahead := by
  cases h with
  | invalidStringEscape h hfound => exact ⟨_, rfl, hfound⟩
  | unterminatedString h htail => exact ⟨_, rfl, h.quotesEscaped htail⟩
  | invalidFunctionName h => exact ⟨_, rfl, h⟩
  | intOutOfRange hne hwhole hvalue hdigit hpoint =>
      rw [LexError.Describes, String.toList_ofList]
      exact ⟨_, rfl, hdigit, .inl ⟨Numeral.intOutOfRange_of_int32? hne hwhole hvalue, hpoint⟩⟩
  | realOutOfRange hne hwhole hne' hfraction hvalue hdigit =>
      rw [LexError.Describes, String.toList_ofList]
      exact ⟨_, rfl, hdigit,
        .inr (Numeral.realOutOfRange_of_real? hne hwhole hne' hfraction hvalue)⟩
  | unexpectedChar => exact ⟨_, rfl⟩

theorem Fault.describes {place : Place} {passed ahead : List Char} {e : LexError}
    (h : Fault place passed ahead e) : e.Describes ahead := by
  cases h with
  | text _ hfault => exact hfault.describes
  | tagStart _ h => exact h.describes
  | tag _ h => exact h.describes

/-- What is unexpected at the start of a tag is unexpected inside it, too. -/
theorem Fault.of_unexpectedChar {place : Place} {passed ahead : List Char} {offset : Nat}
    {found : Char} (h : Fault place passed ahead (.unexpectedChar offset found)) :
    place ≠ .text ∧ Fault .tag [] ahead (.unexpectedChar offset found) := by
  have hfault : ∀ {inner}, TagFault inner ahead (.unexpectedChar offset found) →
      Fault .tag [] ahead (.unexpectedChar offset found) := by
    intro inner h
    have hnil : ∀ c ∈ ([] : List Char), Text.isBlank c = true := by simp
    cases h with
    | unexpectedChar hblank hclose hquote hat hdigit hletter hop =>
        exact .tag hnil (.unexpectedChar hblank hclose hquote hat hdigit hletter hop)
  cases h with
  | text _ h => cases h
  | tagStart _ h => exact ⟨by simp, hfault h⟩
  | tag _ h => exact ⟨by simp, hfault h⟩

namespace Lexer

theorem CutsAt.of_append {source : String} {cursor : Cursor} (h : CutsAt source cursor)
    {passed ahead : List Char} (hrest : cursor.rest = passed ++ ahead) :
    CutsAt source ⟨ahead, cursor.offset + byteLength passed⟩ :=
  h.of_moves ⟨passed, hrest, rfl⟩

theorem next_of_unexpectedChar {lexer : Lexer} {passed ahead : List Char} {offset : Nat}
    {found : Char} (h : Fault lexer.place passed ahead (.unexpectedChar offset found))
    (hrest : lexer.cursor.rest = passed ++ ahead)
    (hoffset : offset = lexer.cursor.offset + byteLength passed) :
    lexer.next =
      (.error (.unexpectedChar offset found), ⟨⟨ahead, offset⟩, .tag, false, lexer.last⟩) := by
  have hmode := place_ne_text_iff.mp h.of_unexpectedChar.1
  have hstart : lexer.tagStartAfter (.error (.unexpectedChar offset found)) = false := by
    simp [tagStartAfter, hmode]
  obtain ⟨stop, hread⟩ := read_of_fault h hrest hoffset
  have hnext := next_of_read_error hread
  obtain rfl : stop = offset := ((moves_of_next hnext).offset_eq hrest).trans hoffset.symm
  rw [hnext, hmode, hstart]
  rfl

/-- A call that meets an unexpected character leaves it ahead, for the next call to meet. -/
theorem stays_at_unexpectedChar {lexer after : Lexer} {offset : Nat} {found : Char}
    (h : lexer.next = (.error (.unexpectedChar offset found), after)) :
    after.cursor.offset = offset ∧ after.mode = .tag ∧
      after.next = (.error (.unexpectedChar offset found), after) := by
  obtain ⟨passed, ahead, hrest, hfault, hoffset⟩ := next_error_iff.mp ⟨after, h⟩
  rw [next_of_unexpectedChar hfault hrest hoffset] at h
  obtain rfl := (Prod.mk.inj h).2
  exact ⟨rfl, rfl, next_of_unexpectedChar hfault.of_unexpectedChar.2 rfl rfl⟩

/--
A failed call reports a character boundary that is not before the cursor and where the source has
what the failure says: the backslash and the character behind it, the quote that no other one
closes, the whole numeral, the character that starts no token.  The last of these stays ahead, so
that reading on in a tag fails in the same way.
-/
theorem failure_points_at_fault {source : String} {calls : List Call} {e : LexError}
    {after : Lexer} (h : ((ofSource source).afterAll calls).next = (.error e, after)) :
    String.Pos.Raw.IsValid source ⟨e.offset⟩ ∧
    ((ofSource source).afterAll calls).cursor.offset ≤ e.offset ∧
    (∃ ahead, CutsAt source ⟨ahead, e.offset⟩ ∧ e.Describes ahead) ∧
    ∀ offset found, e = .unexpectedChar offset found →
      after.cursor.offset = offset ∧ after.mode = .tag ∧ after.next = (.error e, after) := by
  obtain ⟨passed, ahead, hrest, hfault, hoffset⟩ := next_error_iff.mp ⟨after, h⟩
  have hcuts := (cutsAt_afterAll source calls).of_append hrest
  rw [← hoffset] at hcuts
  refine ⟨hcuts.isValid, ?_, ⟨ahead, hcuts, hfault.describes⟩, ?_⟩
  · omega
  · rintro offset found rfl
    exact stays_at_unexpectedChar h

/-- A wrong escape behind a right one, and a character that no call reads. -/
theorem failure_points_at_fault_in_string :
    let source := "é\x7b$ x \"\\\"\\q ~"
    let string := (ofSource source).afterAll [.next, .next, .setMode .tag, .next]
    let behind := (ofSource source).afterAll [.next, .next, .setMode .tag, .next, .next]
    string.next.1 = .error (.invalidStringEscape 10 'q') ∧
      string.cursor.offset ≤ 10 ∧
      (∃ ahead, CutsAt source ⟨ahead, 10⟩ ∧
        (LexError.invalidStringEscape 10 'q').Describes ahead) ∧
      behind.next.1 = .error (.unexpectedChar 13 '~') ∧
      behind.next.2.cursor.offset = 13 ∧
      behind.next.2.next = (.error (.unexpectedChar 13 '~'), behind.next.2) := by
  intro source string behind
  have hescape : string.next.1 = .error (.invalidStringEscape 10 'q') := by decide +kernel
  have hchar : behind.next.1 = .error (.unexpectedChar 13 '~') := by decide +kernel
  have hstring : string.next = (.error (.invalidStringEscape 10 'q'), string.next.2) := by
    rw [← hescape]
  have hbehind : behind.next = (.error (.unexpectedChar 13 '~'), behind.next.2) := by
    rw [← hchar]
  obtain ⟨-, hoffset, hahead, -⟩ := failure_points_at_fault hstring
  obtain ⟨-, -, -, hstays⟩ := failure_points_at_fault hbehind
  obtain ⟨hstop, -, hagain⟩ := hstays 13 '~' rfl
  exact ⟨hescape, hoffset, hahead, hchar, hstop, hagain⟩

end Lexer

end TagTemplate
