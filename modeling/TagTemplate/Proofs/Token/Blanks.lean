import TagTemplate.Proofs.Document.Concatenation
import TagTemplate.Proofs.Token.Failures

/-!
Blanks between the tokens of a tag.

Wherever a token of a tag has ended, blanks can be put in.  The tokens before them still end where
they did, as no token goes on with a blank (`Lexer.Run.insert_blanks`), and the lexer behind them
reads what it read before, that many bytes later (`Lexer.Shifted`).  So the tokens of the source
stay the same, and a failure only moves (`tokenize_insert_blanks`).
-/

namespace TagTemplate

/-! ## Tokens in front of blanks -/

theorem Text.isNumeric_of_isBlank {c : Char} (h : isBlank c = true) : isNumeric c = false :=
  Ranges.not_contains_of_disjoint (by decide +kernel) h

theorem isWordChar_of_isBlank {c : Char} (h : Text.isBlank c = true) : isWordChar c = false := by
  have hletter : Text.isAlphabetic c = false := by
    rw [Bool.eq_false_iff]
    intro hletter
    rw [Text.isBlank_of_isAlphabetic hletter] at h
    contradiction
  have hunderscore : c ≠ '_' := by
    rintro rfl
    revert h
    decide
  simp [isWordChar, hletter, Text.isNumeric_of_isBlank h, hunderscore]

theorem isDigit_of_isBlank {c : Char} (h : Text.isBlank c = true) : c.isDigit = false := by
  rw [Bool.eq_false_iff]
  intro hdigit
  rw [isBlank_of_isDigit hdigit] at h
  contradiction

section InsertBlanks

variable {front rest blanks : List Char}

theorem startsWith_insert_blanks {p : Char → Bool} (h : startsWith p (front ++ rest) = false)
    (hblanks : ∀ c ∈ blanks, p c = false) : startsWith p (front ++ (blanks ++ rest)) = false := by
  cases front with
  | nil =>
      cases blanks with
      | nil => exact h
      | cons c blanks => exact hblanks c (by simp)
  | cons c front => exact h

theorem startsFraction_insert_blanks (h : startsFraction (front ++ rest) = false)
    (hblanks : ∀ c ∈ blanks, Text.isBlank c = true) :
    startsFraction (front ++ (blanks ++ rest)) = false := by
  cases front with
  | nil =>
      cases blanks with
      | nil => exact h
      | cons c blanks =>
          refine startsFraction_append_eq_false (by simp) ?_ rest
          rintro ⟨⟩
          exact absurd (hblanks '.' (by simp)) (by decide)
  | cons c front =>
      by_cases hpoint : c = '.'
      · subst hpoint
        have hdigit : startsWith Char.isDigit (front ++ rest) = false := h
        exact startsWith_insert_blanks hdigit fun c hc => isDigit_of_isBlank (hblanks c hc)
      · exact startsFraction_append_eq_false (by simp) (by simpa using hpoint) (blanks ++ rest)

theorem Token.EndsBefore.insert_blanks {token : Token} (h : token.EndsBefore (front ++ rest))
    (htext : token.isText = true → opensTag front = true)
    (hblanks : ∀ c ∈ blanks, Text.isBlank c = true) :
    token.EndsBefore (front ++ (blanks ++ rest)) := by
  have hword : ∀ c ∈ blanks, isWordChar c = false := fun c hc =>
    isWordChar_of_isBlank (hblanks c hc)
  have hdigit : ∀ c ∈ blanks, c.isDigit = false := fun c hc => isDigit_of_isBlank (hblanks c hc)
  cases token with
  | text content => exact .inr (opensTag_append (htext rfl) _)
  | tagName name => exact h.imp_right fun hname => startsWith_insert_blanks hname hword
  | ident name => exact startsWith_insert_blanks h hword
  | function name => exact startsWith_insert_blanks h hword
  | int value =>
      exact ⟨startsWith_insert_blanks h.1 hdigit, startsFraction_insert_blanks h.2 hblanks⟩
  | real value => exact startsWith_insert_blanks h hdigit
  | operator op => exact fun hop => startsWith_insert_blanks (h hop) hdigit
  | _ => trivial

end InsertBlanks

namespace Lexer

/-- Behind a text a run that ends inside a tag goes on with the opening of a tag. -/
theorem Run.opensTag_of_endsText {lexer final : Lexer} {tokens : List Token}
    (h : lexer.Run tokens final) (hplace : lexer.place = .text) (hfinal : final.place ≠ .text)
    (hends : EndsText lexer.cursor.rest) {front : List Char}
    (hfront : lexer.cursor.rest = front ++ final.cursor.rest) : opensTag front = true := by
  cases h with
  | refl => contradiction
  | next hnext hne hrun =>
      obtain ⟨source, hsource, hlexeme, -⟩ := lexeme_of_next hnext hne
      obtain ⟨others, hothers, -⟩ := hrun.moves
      have hsplit : lexer.cursor.rest = source ++ others ++ final.cursor.rest := by
        rw [hsource, List.append_assoc, ← hothers]
        rfl
      rw [hfront] at hsplit
      rw [List.append_cancel_right hsplit]
      have hother := isText_next_of_endsText (place_eq_text_iff.mp hplace) hends hnext
      rw [hplace] at hlexeme
      cases hlexeme with
      | text => contradiction
      | tagOpen => rfl

/-- A run that ends inside a tag is repeated with blanks behind it. -/
theorem Run.insert_blanks {lexer final : Lexer} {tokens : List Token} (h : lexer.Run tokens final)
    (hfinal : final.place ≠ .text) {blanks : List Char}
    (hblanks : ∀ c ∈ blanks, Text.isBlank c = true) :
    ∃ front, lexer.cursor.rest = front ++ final.cursor.rest ∧
      Leads lexer.place (front ++ (blanks ++ final.cursor.rest)) tokens final.place
        (blanks ++ final.cursor.rest) := by
  induction h with
  | refl => exact ⟨[], rfl, .refl _ _⟩
  | @next lexer after final token tokens hnext hne hrun ih =>
      obtain ⟨source, hsource, hlexeme, hends⟩ := lexeme_of_next hnext hne
      obtain ⟨front, hfront, hrest⟩ := ih hfinal
      rw [place_of_next hnext hne] at hrest
      have hafter : after.cursor.rest = front ++ final.cursor.rest := hfront
      have htext : token.isText = true → opensTag front = true := by
        intro htext
        cases token with
        | text content =>
            have hplace : (after.resume (.text content)).place = .text := by
              rw [place_of_next hnext hne, hlexeme.place_of_isText rfl]
              rfl
            exact hrun.opensTag_of_endsText hplace hfinal hends hfront
        | _ => contradiction
      rw [hafter] at hends
      refine ⟨source ++ front, by rw [hsource, hafter, List.append_assoc], ?_⟩
      rw [List.append_assoc]
      exact (leads_of_lexeme hlexeme (hends.insert_blanks htext hblanks)).trans hrest

end Lexer

/-! ## Behind the blanks -/

theorem Lexeme.insert_blanks {place : Place} {token : Token} {source blanks : List Char}
    (h : Lexeme place token source) (htext : place = .text → blanks = [])
    (hblanks : ∀ c ∈ blanks, Text.isBlank c = true) : Lexeme place token (blanks ++ source) := by
  cases h with
  | text h hne =>
      rw [htext rfl]
      exact .text h hne
  | tagOpen =>
      rw [htext rfl]
      exact .tagOpen
  | tagStart hblanks' h =>
      rw [← List.append_assoc]
      exact .tagStart (List.forall_mem_append.mpr ⟨hblanks, hblanks'⟩) h
  | tag hblanks' h =>
      rw [← List.append_assoc]
      exact .tag (List.forall_mem_append.mpr ⟨hblanks, hblanks'⟩) h

theorem Fault.insert_blanks {place : Place} {passed ahead blanks : List Char} {e : LexError}
    (h : Fault place passed ahead e) (htext : place = .text → blanks = [])
    (hblanks : ∀ c ∈ blanks, Text.isBlank c = true) : Fault place (blanks ++ passed) ahead e := by
  cases h with
  | text h hfault =>
      rw [htext rfl]
      exact .text h hfault
  | tagStart hblanks' h hname =>
      rw [← List.append_assoc]
      exact .tagStart (List.forall_mem_append.mpr ⟨hblanks, hblanks'⟩) h hname
  | tag hblanks' h =>
      rw [← List.append_assoc]
      exact .tag (List.forall_mem_append.mpr ⟨hblanks, hblanks'⟩) h

/-- The same failure, that many bytes later. -/
def LexError.later (count : Nat) (e : LexError) : LexError := e.withOffset (e.offset + count)

def TokenStream.later (count : Nat) (stream : TokenStream) : TokenStream :=
  { stream with failure := stream.failure.map (LexError.later count) }

namespace Lexer

/--
The second lexer has ahead what the first one has, that many bytes later; in a tag, there can be
blanks in front.
-/
structure Shifted (count : Nat) (lexer lexer' : Lexer) (blanks : List Char) : Prop where
  place_eq : lexer'.place = lexer.place
  rest_eq : lexer'.cursor.rest = blanks ++ lexer.cursor.rest
  offset_eq : lexer'.cursor.offset + byteLength blanks = lexer.cursor.offset + count
  isBlank : ∀ c ∈ blanks, Text.isBlank c = true
  eq_nil_of_text : lexer.place = .text → blanks = []

theorem next_eof_iff_of_tag {lexer : Lexer} (hmode : lexer.mode = .tag) :
    (∃ after, lexer.next = (.ok .eof, after)) ↔
      ∀ c ∈ lexer.cursor.rest, Text.isBlank c = true := by
  constructor
  · rintro ⟨after, h⟩
    have hread := read_of_next h
    rw [read, hmode] at hread
    exact (rest_of_readTag_eof hread).1
  · intro hrest
    exact ⟨_, next_of_read (read_of_blanks (place_ne_text_iff.mpr hmode) hrest)⟩

namespace Shifted

variable {count : Nat} {lexer lexer' after : Lexer} {blanks : List Char}

theorem next_eof (h : Shifted count lexer lexer' blanks) (hnext : lexer.next = (.ok .eof, after)) :
    ∃ after', lexer'.next = (.ok .eof, after') := by
  cases hmode : lexer.mode with
  | text =>
      have hplace := place_eq_text_iff.mpr hmode
      have hmode' := place_eq_text_iff.mp (h.place_eq.trans hplace)
      rw [next_eof_iff hmode', h.rest_eq, h.eq_nil_of_text hplace]
      exact (next_eof_iff hmode).mp ⟨after, hnext⟩
  | tag =>
      have hmode' : lexer'.mode = .tag := by
        rw [← place_ne_text_iff, h.place_eq, place_ne_text_iff]
        exact hmode
      rw [next_eof_iff_of_tag hmode', h.rest_eq]
      exact List.forall_mem_append.mpr
        ⟨h.isBlank, (next_eof_iff_of_tag hmode).mp ⟨after, hnext⟩⟩

theorem next_error (h : Shifted count lexer lexer' blanks) {e : LexError}
    (hnext : lexer.next = (.error e, after)) :
    ∃ after', lexer'.next = (.error (e.later count), after') := by
  obtain ⟨passed, ahead, hrest, hfault, hoffset⟩ := next_error_iff.mp ⟨after, hnext⟩
  refine next_error_iff.mpr ⟨blanks ++ passed, ahead, ?_, ?_, ?_⟩
  · rw [h.rest_eq, hrest, List.append_assoc]
  · rw [h.place_eq]
    exact (hfault.insert_blanks h.eq_nil_of_text h.isBlank).withOffset _
  · have := h.offset_eq
    rw [LexError.later, LexError.offset_withOffset, byteLength_append]
    omega

theorem next_token (h : Shifted count lexer lexer' blanks) {token : Token}
    (hnext : lexer.next = (.ok token, after)) (hne : token ≠ .eof) :
    ∃ after', lexer'.next = (.ok token, after') ∧
      Shifted count (after.resume token) (after'.resume token) [] := by
  obtain ⟨source, hsource, hlexeme, hends⟩ := lexeme_of_next hnext hne
  have hrest : lexer'.cursor.rest = blanks ++ source ++ after.cursor.rest := by
    rw [h.rest_eq, hsource, List.append_assoc]
  have hlexeme' := hlexeme.insert_blanks h.eq_nil_of_text h.isBlank
  obtain ⟨final, hrun, hplace, hfinal⟩ := leads_of_lexeme hlexeme' hends lexer' ⟨h.place_eq, hrest⟩
  obtain ⟨after', hnext', -, hrun'⟩ := hrun.exists_next
  cases hrun'
  refine ⟨after', hnext', ?_, ?_, ?_, by simp, fun _ => rfl⟩
  · rw [hplace, place_of_next hnext hne]
  · exact hfinal
  · have hafter' : after'.cursor.rest = after.cursor.rest := hfinal
    rw [← hafter'] at hrest
    have hoffset := (moves_of_next hnext).offset_eq hsource
    have hoffset' := (moves_of_next hnext').offset_eq hrest
    have hshift := h.offset_eq
    rw [byteLength_append] at hoffset'
    simp only [resume, cursor_setMode, byteLength_nil]
    omega

theorem collect_eq (h : Shifted count lexer lexer' blanks) (read : List Token) :
    lexer'.collect read = (lexer.collect read).later count := by
  obtain ⟨tokens, final, last, hrun, hstop⟩ := lexer.exists_run
  induction hrun generalizing lexer' blanks read with
  | refl =>
      rcases hstop with heof | ⟨e, herror⟩
      · obtain ⟨after', heof'⟩ := h.next_eof heof
        rw [collect_of_eof heof, collect_of_eof heof']
        rfl
      · obtain ⟨after', herror'⟩ := h.next_error herror
        rw [collect_of_error herror, collect_of_error herror']
        rfl
  | next hnext hne _ ih =>
      obtain ⟨after', hnext', hafter⟩ := h.next_token hnext hne
      rw [collect_of_token hnext hne, collect_of_token hnext' hne]
      exact ih hafter _ hstop

end Shifted

/-- No failure ahead points before the cursor. -/
theorem offset_le_of_collect {lexer : Lexer} {read : List Token} {e : LexError}
    (h : (lexer.collect read).failure = some e) : lexer.cursor.offset ≤ e.offset := by
  obtain ⟨tokens, final, last, hrun, hstop⟩ := lexer.exists_run
  rw [collect_of_run hrun] at h
  rcases hstop with heof | ⟨e', herror⟩
  · rw [collect_of_eof heof] at h
    cases h
  · rw [collect_of_error herror] at h
    cases h
    obtain ⟨passed, ahead, -, -, hoffset⟩ := next_error_iff.mp ⟨last, herror⟩
    have := hrun.moves.offset_le
    omega

end Lexer

theorem TokenStream.toExcept_later (count : Nat) (stream : TokenStream) :
    (stream.later count).toExcept = stream.toExcept.mapError (LexError.later count) := by
  obtain ⟨tokens, failure⟩ := stream
  cases failure <;> rfl

theorem TokenStream.failure_of_toExcept {stream : TokenStream} {e : LexError}
    (h : stream.toExcept = .error e) : stream.failure = some e := by
  unfold toExcept at h
  split at h
  · cases h
  · next hfailure => rw [hfailure, Except.error.inj h]

/-- The first bytes of a text are the same in any two of its divisions. -/
theorem eq_of_byteLength_eq {front rest front' rest' : List Char}
    (h : front ++ rest = front' ++ rest') (hbytes : byteLength front = byteLength front') :
    front = front' ∧ rest = rest' := by
  have hnil : ∀ {text more : List Char}, byteLength text = byteLength (text ++ more) → more = [] := by
    intro text more hmore
    rw [byteLength_append] at hmore
    exact byteLength_eq_zero_iff.mp (by omega)
  rcases List.append_eq_append_iff.mp h with ⟨more, rfl, rfl⟩ | ⟨more, rfl, rfl⟩
  · obtain rfl := hnil hbytes
    simp
  · obtain rfl := hnil hbytes.symm
    simp

/--
Blanks behind a token of a tag change no token of the source; a failure stays the same, and its
offset, which is not before the blanks, moves by their bytes.
-/
theorem tokenize_insert_blanks {front blanks rest : String} {before : List Token} {seam : Lexer}
    (hblanks : ∀ c ∈ blanks.toList, Text.isBlank c = true)
    (hrun : (Lexer.ofSource (front ++ rest)).Run before seam)
    (hseam : seam.cursor.offset = front.utf8ByteSize) (htag : InTag before) :
    (tokenize (front ++ blanks ++ rest) = (tokenize (front ++ rest)).mapError fun e =>
      if front.utf8ByteSize ≤ e.offset then e.later blanks.utf8ByteSize else e) ∧
    ∀ e, tokenize (front ++ rest) = .error e → front.utf8ByteSize ≤ e.offset := by
  have hplace : seam.place ≠ .text := by
    rw [hrun.place_eq]
    exact (Place.foldl_after_ne_text_iff before).mpr htag
  obtain ⟨passed, hsource, hleads⟩ := hrun.insert_blanks hplace hblanks
  obtain ⟨rfl, hrest⟩ : front.toList = passed ∧ rest.toList = seam.cursor.rest := by
    refine eq_of_byteLength_eq (by simpa [Lexer.ofSource] using hsource) ?_
    rw [byteLength_toList, ← hseam, hrun.moves.offset_eq hsource]
    exact Nat.zero_add _
  obtain ⟨seam', hrun', hplace', hrest'⟩ := hleads (Lexer.ofSource (front ++ blanks ++ rest))
    ⟨rfl, by simp [Lexer.ofSource, ← hrest]⟩
  have hsource' : (Lexer.ofSource (front ++ blanks ++ rest)).cursor.rest =
      front.toList ++ seam'.cursor.rest := by
    simp [Lexer.ofSource, hrest', ← hrest]
  have hseam' : seam'.cursor.offset = front.utf8ByteSize := by
    rw [← byteLength_toList, hrun'.moves.offset_eq hsource']
    exact Nat.zero_add _
  have hshift : Lexer.Shifted blanks.utf8ByteSize seam seam' blanks.toList :=
    ⟨hplace', hrest', by rw [hseam, hseam', byteLength_toList], hblanks, fun h => absurd h hplace⟩
  have htokens : tokenize (front ++ rest) = (seam.collect before.reverse).toExcept := by
    rw [tokenize, TokenStream.ofSource_of_run hrun]
  have hlow : ∀ e, tokenize (front ++ rest) = .error e → front.utf8ByteSize ≤ e.offset := by
    intro e he
    rw [htokens] at he
    rw [← hseam]
    exact Lexer.offset_le_of_collect (TokenStream.failure_of_toExcept he)
  refine ⟨?_, hlow⟩
  rw [tokenize, TokenStream.ofSource_of_run hrun', hshift.collect_eq, TokenStream.toExcept_later,
    ← htokens]
  cases htokenize : tokenize (front ++ rest) with
  | ok tokens => rfl
  | error e => simp [Except.mapError, hlow e htokenize]

/-- The point behind the blanks does not start a fraction, so the numeral has ended before it. -/
theorem tokenize_insert_blanks_before_point :
    let front := "é\x7b$ FOR i -1"
    let blanks := "\t\u00a0"
    let rest := ".x $\x7d"
    tokenize (front ++ rest) = .error (.unexpectedChar 13 '.') ∧
      tokenize (front ++ blanks ++ rest) = .error (.unexpectedChar 16 '.') := by
  intro front blanks rest
  have hnext : ∀ (lexer : Lexer) (token : Token), lexer.next.1 = .ok token →
      lexer.next = (.ok token, lexer.next.2) := fun lexer token h => by rw [← h]
  obtain ⟨seam, hrun, hseam⟩ : ∃ seam, (Lexer.ofSource (front ++ rest)).Run
      [.text "é", .tagOpen, .tagName "for", .ident "i", .int (-1)] seam ∧
        seam.cursor.offset = front.utf8ByteSize := by
    refine ⟨_, .next (hnext _ _ ?_) (by simp) (.next (hnext _ _ ?_) (by simp)
      (.next (hnext _ _ ?_) (by simp) (.next (hnext _ _ ?_) (by simp)
        (.next (hnext _ _ ?_) (by simp) (.refl _))))), ?_⟩ <;> decide +kernel
  have hblanks : blanks.toList.all Text.isBlank = true := by decide +kernel
  have htag : InTag [.text "é", .tagOpen, .tagName "for", .ident "i", .int (-1)] :=
    ⟨[.text "é"], _, rfl, by simp⟩
  have hfails : tokenize (front ++ rest) = .error (.unexpectedChar 13 '.') := by decide +kernel
  have hbytes : front.utf8ByteSize = 13 ∧ blanks.utf8ByteSize = 3 := by decide +kernel
  clear_value front blanks rest
  obtain ⟨hmoved, -⟩ :=
    tokenize_insert_blanks (List.all_eq_true.mp hblanks) hrun hseam htag
  refine ⟨hfails, ?_⟩
  rw [hmoved, hfails]
  simp [Except.mapError, hbytes, LexError.later, LexError.withOffset, LexError.offset]

end TagTemplate
