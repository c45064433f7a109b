import TagTemplate.Proofs.Token.Reading

/-!
Faults.

`Fault place passed ahead e` says what a lexer that stands at a place and fails with `e` has ahead:
the characters that it passes and, behind them, those to which the failure points.  Each scan fails
exactly if such a fault is ahead, and so does a call (`Lexer.next_error_iff`).
-/

namespace TagTemplate

namespace LexError

def offset : LexError → Nat
  | invalidTextEscape offset _ | danglingEscape offset | invalidStringEscape offset _
  | unterminatedString offset | invalidFunctionName offset | numberOutOfRange offset _
  | unexpectedChar offset _ => offset

/-- The same failure at another offset. -/
def withOffset (offset : Nat) : LexError → LexError
  | invalidTextEscape _ found => invalidTextEscape offset found
  | danglingEscape _ => danglingEscape offset
  | invalidStringEscape _ found => invalidStringEscape offset found
  | unterminatedString _ => unterminatedString offset
  | invalidFunctionName _ => invalidFunctionName offset
  | numberOutOfRange _ literal => numberOutOfRange offset literal
  | unexpectedChar _ found => unexpectedChar offset found

@[simp] theorem offset_withOffset (offset : Nat) (e : LexError) :
    (e.withOffset offset).offset = offset := by
  cases e <;> rfl

/-- What the failed call leaves unread of the characters to which the failure points. -/
def unread : LexError → List Char → List Char
  | invalidTextEscape _ _, ahead | invalidStringEscape _ _, ahead => ahead.drop 2
  | danglingEscape _, _ | unterminatedString _, _ => []
  | invalidFunctionName _, ahead => ahead.drop 1
  | numberOutOfRange _ literal, ahead => ahead.drop literal.length
  | unexpectedChar _ _, ahead => ahead

end LexError

/-! ## Faults -/

/-- What a text cannot go on with. -/
inductive TextFault : List Char → LexError → Prop
  | invalidEscape {offset : Nat} {found : Char} {rest : List Char} (hbrace : found ≠ '{')
      (hslash : found ≠ '\\') :
      TextFault ('\\' :: found :: rest) (.invalidTextEscape offset found)
  | danglingEscape {offset : Nat} : TextFault ['\\'] (.danglingEscape offset)

/-- What is wrong inside a tag; only a string is passed before its fault. -/
inductive TagFault : List Char → List Char → LexError → Prop
  | invalidStringEscape {offset : Nat} {inside content rest : List Char} {found : Char}
      (h : StringSpelling inside content) (hfound : stringEscape? found = none) :
      TagFault ('"' :: inside) ('\\' :: found :: rest) (.invalidStringEscape offset found)
  | unterminatedString {offset : Nat} {inside content tail : List Char}
      (h : StringSpelling inside content) (htail : tail = [] ∨ tail = ['\\']) :
      TagFault [] ('"' :: (inside ++ tail)) (.unterminatedString offset)
  | invalidFunctionName {offset : Nat} {rest : List Char}
      (h : startsWith Text.isAlphabetic rest = false) :
      TagFault [] ('@' :: rest) (.invalidFunctionName offset)
  | intOutOfRange {offset : Nat} {negative : Bool} {whole rest : List Char} (hne : whole ≠ [])
      (hwhole : ∀ c ∈ whole, c.isDigit = true)
      (hvalue : Numeral.int32? (minusIf negative ++ whole) = none)
      (hdigit : startsWith Char.isDigit rest = false) (hpoint : startsFraction rest = false) :
      TagFault [] (minusIf negative ++ whole ++ rest)
        (.numberOutOfRange offset (String.ofList (minusIf negative ++ whole)))
  | realOutOfRange {offset : Nat} {negative : Bool} {whole fraction rest : List Char}
      (hne : whole ≠ []) (hwhole : ∀ c ∈ whole, c.isDigit = true) (hne' : fraction ≠ [])
      (hfraction : ∀ c ∈ fraction, c.isDigit = true)
      (hvalue : Numeral.real? (minusIf negative ++ (whole ++ '.' :: fraction)) = none)
      (hdigit : startsWith Char.isDigit rest = false) :
      TagFault [] (minusIf negative ++ (whole ++ '.' :: fraction) ++ rest)
        (.numberOutOfRange offset (String.ofList (minusIf negative ++ (whole ++ '.' :: fraction))))
  | unexpectedChar {offset : Nat} {found : Char} {rest : List Char}
      (hblank : Text.isBlank found = false) (hclose : closesTag (found :: rest) = false)
      (hquote : found ≠ '"') (hat : found ≠ '@') (hdigit : found.isDigit = false)
      (hletter : Text.isAlphabetic found = false) (hop : Operator.ofChar? found = none) :
      TagFault [] (found :: rest) (.unexpectedChar offset found)

/-- In a tag there can be blanks in front; at its start, a name or `=` is no fault. -/
inductive Fault : Place → List Char → List Char → LexError → Prop
  | text {passed content ahead : List Char} {e : LexError} (h : TextSpelling passed content)
      (hfault : TextFault ahead e) : Fault .text passed ahead e
  | tagStart {blanks passed ahead : List Char} {e : LexError}
      (hblanks : ∀ c ∈ blanks, Text.isBlank c = true) (h : TagFault passed ahead e)
      (hname : (passed ++ ahead).head? ≠ some '=') : Fault .tagStart (blanks ++ passed) ahead e
  | tag {blanks passed ahead : List Char} {e : LexError}
      (hblanks : ∀ c ∈ blanks, Text.isBlank c = true) (h : TagFault passed ahead e) :
      Fault .tag (blanks ++ passed) ahead e

theorem TextFault.withOffset {ahead : List Char} {e : LexError} (h : TextFault ahead e)
    (offset : Nat) : TextFault ahead (e.withOffset offset) := by
  cases h with
  | invalidEscape hbrace hslash => exact .invalidEscape hbrace hslash
  | danglingEscape => exact .danglingEscape

theorem TagFault.withOffset {passed ahead : List Char} {e : LexError}
    (h : TagFault passed ahead e) (offset : Nat) : TagFault passed ahead (e.withOffset offset) := by
  cases h with
  | invalidStringEscape h hfound => exact .invalidStringEscape h hfound
  | unterminatedString h htail => exact .unterminatedString h htail
  | invalidFunctionName h => exact .invalidFunctionName h
  | intOutOfRange hne hwhole hvalue hdigit hpoint =>
      exact .intOutOfRange hne hwhole hvalue hdigit hpoint
  | realOutOfRange hne hwhole hne' hfraction hvalue hdigit =>
      exact .realOutOfRange hne hwhole hne' hfraction hvalue hdigit
  | unexpectedChar hblank hclose hquote hat hdigit hletter hop =>
      exact .unexpectedChar hblank hclose hquote hat hdigit hletter hop

/-- A fault does not depend on where it stands in a source. -/
theorem Fault.withOffset {place : Place} {passed ahead : List Char} {e : LexError}
    (h : Fault place passed ahead e) (offset : Nat) :
    Fault place passed ahead (e.withOffset offset) := by
  cases h with
  | text h hfault => exact .text h (hfault.withOffset offset)
  | tagStart hblanks h hname => exact .tagStart hblanks (h.withOffset offset) hname
  | tag hblanks h => exact .tag hblanks (h.withOffset offset)

/-! ## Faults that were met -/

theorem textFault_of_scanText {read source : List Char} {offset : Nat} {e : LexError}
    {cursor : Cursor} (h : scanText read source offset = (.error e, cursor)) :
    ∃ passed content ahead, source = passed ++ ahead ∧ TextSpelling passed content ∧
      TextFault ahead e ∧ e.offset = offset + byteLength passed := by
  fun_induction scanText read source offset with
  | case1 => cases h
  | case2 =>
      cases h
      exact ⟨[], [], _, rfl, .nil, .danglingEscape, rfl⟩
  | case3 read offset escaped rest hescaped ih =>
      obtain ⟨passed, content, ahead, rfl, hspelling, hfault, hoffset⟩ := ih h
      have hsize : escaped.utf8Size = 1 := by rcases hescaped with rfl | rfl <;> rfl
      refine ⟨'\\' :: escaped :: passed, _, ahead, rfl, .escaped hescaped hspelling, hfault, ?_⟩
      rw [hoffset, byteLength_escape hsize, Nat.add_assoc]
  | case4 read offset escaped rest hescaped =>
      cases h
      rw [not_or] at hescaped
      exact ⟨[], [], _, rfl, .nil, .invalidEscape hescaped.1 hescaped.2, rfl⟩
  | case5 => cases h
  | case6 read c rest offset hslash hopen ih =>
      obtain ⟨passed, content, ahead, rfl, hspelling, hfault, hoffset⟩ := ih h
      have hopen' : opensTag (c :: passed) = false := by
        rw [Bool.eq_false_iff]
        exact fun hc => hopen (opensTag_append hc ahead)
      refine ⟨c :: passed, _, ahead, rfl, .plain hslash hopen' hspelling, hfault, ?_⟩
      rw [hoffset, byteLength_cons, Nat.add_assoc]

theorem tagFault_of_scanString {start : Nat} {read source : List Char} {offset : Nat}
    {e : LexError} {cursor : Cursor}
    (h : scanString start read source offset = (.error e, cursor)) :
    ∃ inside content ahead, source = inside ++ ahead ∧ StringSpelling inside content ∧
      ((ahead = [] ∨ ahead = ['\\']) ∧ e = .unterminatedString start ∨
        ∃ found rest, ahead = '\\' :: found :: rest ∧ stringEscape? found = none ∧
          e = .invalidStringEscape (offset + byteLength inside) found) := by
  fun_induction scanString start read source offset with
  | case1 =>
      cases h
      exact ⟨[], [], _, rfl, .nil, .inl ⟨.inl rfl, rfl⟩⟩
  | case2 => cases h
  | case3 =>
      cases h
      exact ⟨[], [], _, rfl, .nil, .inl ⟨.inr rfl, rfl⟩⟩
  | case4 read offset escaped rest meant hmeant _ ih =>
      obtain ⟨inside, content, ahead, rfl, hspelling, hfault⟩ := ih h
      refine ⟨'\\' :: escaped :: inside, _, ahead, rfl, .escaped hmeant hspelling, ?_⟩
      rwa [byteLength_escape (utf8Size_of_stringEscape? hmeant), ← Nat.add_assoc]
  | case5 read offset escaped rest hnone =>
      cases h
      exact ⟨[], [], _, rfl, .nil, .inr ⟨_, _, rfl, hnone, rfl⟩⟩
  | case6 read c rest offset hquote hslash ih =>
      obtain ⟨inside, content, ahead, rfl, hspelling, hfault⟩ := ih h
      refine ⟨c :: inside, _, ahead, rfl, .plain hquote hslash hspelling, ?_⟩
      rwa [byteLength_cons, ← Nat.add_assoc]

theorem tagFault_of_scanNumeral {cursor cursor' : Cursor} {e : LexError}
    (hstart : startsNumeral cursor.rest = true)
    (h : scanNumeral cursor = (.error e, cursor')) :
    TagFault [] cursor.rest e ∧ e.offset = cursor.offset := by
  obtain ⟨negative, unsigned, htext, hfirst⟩ := exists_minusIf_of_startsNumeral hstart
  unfold scanNumeral at h
  simp only [htext, spanNumeral_minusIf negative hfirst] at h
  rw [htext]
  rcases spanUnsigned_cases unsigned with ⟨whole, rest, rfl, hwhole, hdigit, hpoint⟩ |
    ⟨whole, fraction, rest, rfl, hwhole, hne, hfraction, hdigit⟩
  · rw [spanUnsigned_whole hwhole hdigit hpoint] at h
    split at h
    · cases h
    · next hvalue =>
        cases h
        have hne : whole ≠ [] := by
          rintro rfl
          rw [List.nil_append, hdigit] at hfirst
          contradiction
        rw [← List.append_assoc]
        exact ⟨.intOutOfRange hne hwhole (Option.map_eq_none_iff.mp hvalue) hdigit hpoint, rfl⟩
  · rw [spanUnsigned_fraction hwhole hne hfraction hdigit] at h
    split at h
    · cases h
    · next hvalue =>
        cases h
        have hne' : whole ≠ [] := by
          rintro rfl
          contradiction
        have hsplit : minusIf negative ++ (whole ++ '.' :: (fraction ++ rest)) =
            minusIf negative ++ (whole ++ '.' :: fraction) ++ rest := by simp
        rw [hsplit]
        exact ⟨.realOutOfRange hne' hwhole hne hfraction (Option.map_eq_none_iff.mp hvalue) hdigit,
          rfl⟩

theorem tagFault_of_scanTagBody {c : Char} {rest : List Char} {offset : Nat} {e : LexError}
    {cursor : Cursor} (hblank : Text.isBlank c = false)
    (h : scanTagBody c rest offset = (.error e, cursor)) :
    ∃ passed ahead, c :: rest = passed ++ ahead ∧ TagFault passed ahead e ∧
      e.offset = offset + byteLength passed := by
  unfold scanTagBody at h
  simp only at h
  split at h
  · cases h
  next hclose =>
  split at h
  · next hquote =>
      subst hquote
      obtain ⟨inside, content, ahead, rfl, hspelling, ⟨htail, rfl⟩ |
        ⟨found, rest, rfl, hfound, rfl⟩⟩ := tagFault_of_scanString h
      · exact ⟨[], _, rfl, .unterminatedString hspelling htail, rfl⟩
      · refine ⟨'"' :: inside, _, rfl, .invalidStringEscape hspelling hfound, ?_⟩
        rw [byteLength_cons, ← Nat.add_assoc]
        rfl
  next hquote =>
  split at h
  · next hat =>
      subst hat
      split at h
      · cases h
      · next hletter =>
          cases h
          exact ⟨[], _, rfl, .invalidFunctionName (by simpa using hletter), rfl⟩
  next hat =>
  split at h
  · next hnumeral =>
      obtain ⟨hfault, hoffset⟩ := tagFault_of_scanNumeral hnumeral h
      exact ⟨[], _, rfl, hfault, hoffset⟩
  next hnumeral =>
  split at h
  · cases h
  next hletter =>
  split at h
  · cases h
  · next hop =>
      cases h
      have hminus : c ≠ '-' := by
        rintro rfl
        contradiction
      rw [startsNumeral_of_ne rest hminus] at hnumeral
      exact ⟨[], _, rfl, .unexpectedChar hblank (by simpa using hclose) hquote hat
        (by simpa using hnumeral) (by simpa using hletter) hop, rfl⟩

theorem tagFault_of_scanTagStart {c : Char} {rest : List Char} {offset : Nat} {e : LexError}
    {cursor : Cursor} (hblank : Text.isBlank c = false)
    (h : scanTagStart c rest offset = (.error e, cursor)) :
    ∃ passed ahead, c :: rest = passed ++ ahead ∧ TagFault passed ahead e ∧
      (passed ++ ahead).head? ≠ some '=' ∧ e.offset = offset + byteLength passed := by
  unfold scanTagStart at h
  split at h
  · cases h
  next hecho =>
  split at h
  · cases h
  · obtain ⟨passed, ahead, hsource, hfault, hoffset⟩ := tagFault_of_scanTagBody hblank h
    refine ⟨passed, ahead, hsource, hfault, ?_, hoffset⟩
    rw [← hsource]
    simpa using hecho

/-! ## Meeting a fault -/

theorem scanText_of_fault {passed content ahead : List Char} {e : LexError} {offset : Nat}
    (h : TextSpelling passed content) (hfault : TextFault ahead e)
    (hoffset : e.offset = offset + byteLength passed) :
    ∃ offset', scanText [] (passed ++ ahead) offset = (.error e, ⟨e.unread ahead, offset'⟩) := by
  cases hfault with
  | @invalidEscape _ found rest hbrace hslash =>
      cases hoffset
      rw [h.scanText_append (by simp)]
      refine ⟨offset + byteLength passed + 1 + found.utf8Size, ?_⟩
      simp [scanText, hbrace, hslash, LexError.unread]
  | danglingEscape =>
      cases hoffset
      rw [h.scanText_append (by simp)]
      exact ⟨offset + byteLength passed + 1, rfl⟩

theorem TextSpelling.opensTag_of_fault {passed content ahead : List Char} {e : LexError}
    (h : TextSpelling passed content) (hfault : TextFault ahead e) :
    opensTag (passed ++ ahead) = false := by
  have hslash : ahead.head? = some '\\' := by cases hfault <;> rfl
  cases h with
  | nil => cases hfault <;> rfl
  | escaped => rfl
  | plain _ hopen _ =>
      refine opensTag_cons_append hopen fun _ hseam => ?_
      rw [hslash] at hseam
      simp at hseam

theorem scanTagBody_quote (rest : List Char) (offset : Nat) :
    scanTagBody '"' rest offset = scanString offset [] rest (offset + 1) := by
  simp [scanTagBody, closesTag]

theorem scanString_of_unterminated {inside content tail : List Char}
    (h : StringSpelling inside content) (htail : tail = [] ∨ tail = ['\\']) (start offset : Nat) :
    ∃ offset', scanString start [] (inside ++ tail) offset =
      (.error (.unterminatedString start), ⟨[], offset'⟩) := by
  rw [h.scanString_append]
  rcases htail with rfl | rfl
  · exact ⟨offset + byteLength inside, rfl⟩
  · exact ⟨offset + byteLength inside + 1, rfl⟩

/-- A tag is scanned up to the fault in front of it, which is no blank. -/
def FailsBy (scan : Char → List Char → Nat → Reading) (passed ahead : List Char)
    (e : LexError) : Prop :=
  ∃ c tail, passed ++ ahead = c :: tail ∧ Text.isBlank c = false ∧
    ∀ offset, e.offset = offset + byteLength passed →
      ∃ offset', scan c tail offset = (.error e, ⟨e.unread ahead, offset'⟩)

theorem failsBy_numeral {negative hasFraction : Bool} {unsigned rest : List Char} {offset : Nat}
    (hfirst : startsWith Char.isDigit (unsigned ++ rest) = true)
    (hspan : spanUnsigned (unsigned ++ rest) = ⟨unsigned, hasFraction, rest⟩)
    (hnone : numeralToken? ⟨minusIf negative ++ unsigned, hasFraction, rest⟩ = none) :
    FailsBy scanTagBody [] (minusIf negative ++ unsigned ++ rest)
      (.numberOutOfRange offset (String.ofList (minusIf negative ++ unsigned))) := by
  obtain ⟨hstart, hspan⟩ := spanNumeral_unsigned negative hfirst hspan
  generalize minusIf negative ++ unsigned = literal at hstart hspan hnone
  cases hsource : literal ++ rest with
  | nil => simp [hsource, startsNumeral, startsWith] at hstart
  | cons c tail =>
      have hunread : (c :: tail).drop literal.length = rest := by
        rw [← hsource, List.drop_left]
      rw [hsource] at hstart hspan
      refine ⟨c, tail, rfl, isBlank_of_startsNumeral hstart, ?_⟩
      rintro _ rfl
      refine ⟨offset + byteLength literal, ?_⟩
      simp [scanTagBody_of_startsNumeral hstart, scanNumeral, hspan, hnone, LexError.offset,
        LexError.unread, hunread]

theorem scanTagBody_of_fault {passed ahead : List Char} {e : LexError}
    (h : TagFault passed ahead e) : FailsBy scanTagBody passed ahead e := by
  cases h with
  | @invalidStringEscape offset' inside content rest found h hfound =>
      refine ⟨'"', inside ++ '\\' :: found :: rest, rfl, by decide, fun offset hoffset => ?_⟩
      obtain rfl : offset' = offset + 1 + byteLength inside := by
        rw [byteLength_cons, ← Nat.add_assoc] at hoffset
        exact hoffset
      rw [scanTagBody_quote, h.scanString_append]
      refine ⟨offset + 1 + byteLength inside + 1 + found.utf8Size, ?_⟩
      simp [scanString, hfound, LexError.unread]
  | @unterminatedString start inside _ tail h htail =>
      refine ⟨'"', inside ++ tail, rfl, by decide, ?_⟩
      rintro _ rfl
      rw [scanTagBody_quote]
      exact scanString_of_unterminated h htail start (start + 1)
  | @invalidFunctionName start rest hletter =>
      refine ⟨'@', rest, rfl, by decide, ?_⟩
      rintro _ rfl
      refine ⟨start + 1, ?_⟩
      simp [scanTagBody, closesTag, hletter, LexError.offset, LexError.unread]
  | @intOutOfRange _ _ _ rest hne hwhole hvalue hdigit hpoint =>
      exact failsBy_numeral (startsWith_append rest hne hwhole)
        (spanUnsigned_whole hwhole hdigit hpoint) (by simp [numeralToken?, hvalue])
  | realOutOfRange hne hwhole hne' hfraction hvalue hdigit =>
      have hspan := spanUnsigned_fraction hwhole hne' hfraction hdigit
      rw [← List.cons_append, ← List.append_assoc] at hspan
      refine failsBy_numeral ?_ hspan (by simp [numeralToken?, hvalue])
      rw [List.append_assoc]
      exact startsWith_append _ hne hwhole
  | @unexpectedChar start found rest hblank hclose hquote hat hdigit hletter hop =>
      refine ⟨found, rest, rfl, hblank, ?_⟩
      rintro _ rfl
      refine ⟨start, ?_⟩
      have hminus : found ≠ '-' := by
        rintro rfl
        cases hop
      have hnumeral : startsNumeral (found :: rest) = false := by
        rw [startsNumeral_of_ne rest hminus, hdigit]
      simp [scanTagBody, hclose, hquote, hat, hnumeral, hletter, hop, LexError.offset,
        LexError.unread]

theorem scanTagStart_of_fault {passed ahead : List Char} {e : LexError}
    (h : TagFault passed ahead e) (hname : (passed ++ ahead).head? ≠ some '=') :
    FailsBy scanTagStart passed ahead e := by
  obtain ⟨c, tail, hsource, hblank, hscan⟩ := scanTagBody_of_fault h
  refine ⟨c, tail, hsource, hblank, fun offset hoffset => ?_⟩
  have hecho : c ≠ '=' := by simpa [hsource] using hname
  -- a word would have been scanned in a tag body, too
  have hletter : Text.isAlphabetic c = false := by
    rw [Bool.eq_false_iff]
    intro hletter
    obtain ⟨_, hfails⟩ := hscan offset hoffset
    rw [scanTagBody_of_isAlphabetic hletter] at hfails
    cases hfails
  simpa [scanTagStart, hecho, hletter] using hscan offset hoffset

namespace Lexer

/-! ## Failing calls -/

theorem textFault_of_readText {lexer : Lexer} {e : LexError} {cursor : Cursor}
    (h : lexer.readText = (.error e, cursor)) :
    ∃ passed ahead, lexer.cursor.rest = passed ++ ahead ∧ Fault .text passed ahead e ∧
      e.offset = lexer.cursor.offset + byteLength passed := by
  unfold readText at h
  simp only at h
  split at h
  · cases h
  · obtain ⟨passed, content, ahead, hsource, hspelling, hfault, hoffset⟩ := textFault_of_scanText h
    exact ⟨passed, ahead, hsource, .text hspelling hfault, hoffset⟩

theorem fault_of_read_tag {lexer : Lexer} {e : LexError} {cursor : Cursor}
    (hplace : lexer.place ≠ .text) (h : lexer.read = (.error e, cursor)) :
    ∃ passed ahead, lexer.cursor.rest = passed ++ ahead ∧ Fault lexer.place passed ahead e ∧
      e.offset = lexer.cursor.offset + byteLength passed := by
  rcases exists_char_or_blanks lexer.cursor.rest with hrest | ⟨blanks, c, tail, hrest, hblanks, hc⟩
  · rw [read_of_blanks hplace hrest] at h
    cases h
  rw [read_behind_blanks hplace hrest hblanks hc] at h
  cases hstands : lexer.place with
  | text => contradiction
  | tagStart =>
      rw [hstands] at h
      obtain ⟨passed, ahead, hsource, hfault, hname, hoffset⟩ := tagFault_of_scanTagStart hc h
      refine ⟨_, ahead, ?_, .tagStart hblanks hfault hname, ?_⟩
      · rw [hrest, hsource, List.append_assoc]
      · rw [hoffset, byteLength_append, Nat.add_assoc]
  | tag =>
      rw [hstands] at h
      obtain ⟨passed, ahead, hsource, hfault, hoffset⟩ := tagFault_of_scanTagBody hc h
      refine ⟨_, ahead, ?_, .tag hblanks hfault, ?_⟩
      · rw [hrest, hsource, List.append_assoc]
      · rw [hoffset, byteLength_append, Nat.add_assoc]

theorem fault_of_read {lexer : Lexer} {e : LexError} {cursor : Cursor}
    (h : lexer.read = (.error e, cursor)) :
    ∃ passed ahead, lexer.cursor.rest = passed ++ ahead ∧ Fault lexer.place passed ahead e ∧
      e.offset = lexer.cursor.offset + byteLength passed := by
  by_cases hplace : lexer.place = .text
  · rw [read, place_eq_text_iff.mp hplace] at h
    rw [hplace]
    exact textFault_of_readText h
  · exact fault_of_read_tag hplace h

theorem read_of_failsBy {lexer : Lexer} {blanks passed ahead : List Char} {e : LexError}
    (hplace : lexer.place ≠ .text) (hblanks : ∀ c ∈ blanks, Text.isBlank c = true)
    (h : FailsBy lexer.place.scanTag passed ahead e)
    (hrest : lexer.cursor.rest = blanks ++ passed ++ ahead)
    (hoffset : e.offset = lexer.cursor.offset + byteLength (blanks ++ passed)) :
    ∃ offset, lexer.read = (.error e, ⟨e.unread ahead, offset⟩) := by
  obtain ⟨c, tail, hsource, hblank, hscan⟩ := h
  rw [List.append_assoc, hsource] at hrest
  rw [read_behind_blanks hplace hrest hblanks hblank]
  refine hscan _ ?_
  rw [hoffset, byteLength_append, ← Nat.add_assoc]

/-- A call in front of a fault fails, and leaves what is behind the characters it has looked at. -/
theorem read_of_fault {lexer : Lexer} {passed ahead : List Char} {e : LexError}
    (h : Fault lexer.place passed ahead e) (hrest : lexer.cursor.rest = passed ++ ahead)
    (hoffset : e.offset = lexer.cursor.offset + byteLength passed) :
    ∃ offset, lexer.read = (.error e, ⟨e.unread ahead, offset⟩) := by
  generalize hplace : lexer.place = place at h
  cases h with
  | text h hfault =>
      rw [place_eq_text_iff] at hplace
      have hopen := h.opensTag_of_fault hfault
      simpa [read, hplace, readText, hrest, hopen] using scanText_of_fault h hfault hoffset
  | tagStart hblanks h hname =>
      refine read_of_failsBy (by simp [hplace]) hblanks ?_ hrest hoffset
      rw [hplace]
      exact scanTagStart_of_fault h hname
  | tag hblanks h =>
      refine read_of_failsBy (by simp [hplace]) hblanks ?_ hrest hoffset
      rw [hplace]
      exact scanTagBody_of_fault h

/-- A call fails exactly if a fault is ahead of the lexer. -/
theorem next_error_iff {lexer : Lexer} {e : LexError} :
    (∃ after, lexer.next = (.error e, after)) ↔
      ∃ passed ahead, lexer.cursor.rest = passed ++ ahead ∧ Fault lexer.place passed ahead e ∧
        e.offset = lexer.cursor.offset + byteLength passed := by
  constructor
  · rintro ⟨after, h⟩
    exact fault_of_read (read_of_next h)
  · rintro ⟨passed, ahead, hrest, hfault, hoffset⟩
    obtain ⟨offset, hread⟩ := read_of_fault hfault hrest hoffset
    exact ⟨_, next_of_read_error hread⟩

end Lexer

end TagTemplate
