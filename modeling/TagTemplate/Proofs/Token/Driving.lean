import TagTemplate.Proofs.Token.Reading

/-!
Lexers under any caller.

A caller reads tokens and sets the mode in any order, and goes on after failures.  Whatever it
does, the cursor only moves on behind whole characters (`Lexer.moves_afterAll`), so its offset is
a character boundary of the source and what it has ahead is the rest of the source from there
(`Lexer.CutsAt`).  The main statement, `Lexer.stays_in_step`, says so of every finite sequence of
calls, with what the calls answer.
-/

namespace TagTemplate

/-! ## Cursors that move on -/

/-- `after` stands behind some of the characters that `before` has ahead. -/
def Cursor.Moves (before after : Cursor) : Prop :=
  ∃ taken, before.rest = taken ++ after.rest ∧ after.offset = before.offset + byteLength taken

namespace Cursor.Moves

theorem refl (cursor : Cursor) : cursor.Moves cursor := ⟨[], rfl, rfl⟩

theorem trans {first second third : Cursor} (h : first.Moves second) (h' : second.Moves third) :
    first.Moves third := by
  obtain ⟨taken, hrest, hoffset⟩ := h
  obtain ⟨taken', hrest', hoffset'⟩ := h'
  refine ⟨taken ++ taken', ?_, ?_⟩
  · rw [hrest, hrest', List.append_assoc]
  · rw [hoffset', hoffset, byteLength_append, Nat.add_assoc]

theorem of_cons (c : Char) {rest : List Char} {offset : Nat} {after : Cursor}
    (h : Cursor.Moves ⟨rest, offset + c.utf8Size⟩ after) : Cursor.Moves ⟨c :: rest, offset⟩ after :=
  trans ⟨[c], rfl, by simp⟩ h

theorem offset_le {before after : Cursor} (h : before.Moves after) :
    before.offset ≤ after.offset := by
  obtain ⟨taken, -, hoffset⟩ := h
  omega

theorem offset_lt {before after : Cursor} (h : before.Moves after)
    (hlength : after.rest.length < before.rest.length) : before.offset < after.offset := by
  obtain ⟨taken, hrest, hoffset⟩ := h
  have htaken : byteLength taken ≠ 0 := by
    rw [Ne, byteLength_eq_zero_iff]
    rintro rfl
    rw [hrest] at hlength
    simp at hlength
  omega

theorem offset_eq {before after : Cursor} (h : before.Moves after) {taken : List Char}
    (hrest : before.rest = taken ++ after.rest) :
    after.offset = before.offset + byteLength taken := by
  obtain ⟨taken', hrest', hoffset⟩ := h
  rw [hrest'] at hrest
  rw [hoffset, List.append_cancel_right hrest]

theorem span (cursor : Cursor) (p : Char → Bool) : cursor.Moves (cursor.span p).2 :=
  ⟨cursor.rest.takeWhile p, List.takeWhile_append_dropWhile.symm, rfl⟩

end Cursor.Moves

/-! ## Scans -/

theorem moves_scanText (read rest : List Char) (offset : Nat) :
    Cursor.Moves ⟨rest, offset⟩ (scanText read rest offset).2 := by
  fun_induction scanText read rest offset with
  | case1 => exact .refl _
  | case2 => exact .of_cons '\\' (.refl _)
  | case3 read offset escaped rest hescaped ih =>
      have hsize : escaped.utf8Size = 1 := by rcases hescaped with rfl | rfl <;> rfl
      refine .of_cons '\\' (.of_cons escaped ?_)
      rw [hsize]
      exact ih
  | case4 read offset escaped rest => exact .of_cons '\\' (.of_cons escaped (.refl _))
  | case5 => exact .refl _
  | case6 read c rest offset hslash hopen ih => exact .of_cons c ih

theorem moves_scanString (start : Nat) (read rest : List Char) (offset : Nat) :
    Cursor.Moves ⟨rest, offset⟩ (scanString start read rest offset).2 := by
  fun_induction scanString start read rest offset with
  | case1 => exact .refl _
  | case2 => exact .of_cons '"' (.refl _)
  | case3 => exact .of_cons '\\' (.refl _)
  | case4 read offset escaped rest meant hmeant hquote ih =>
      refine .of_cons '\\' (.of_cons escaped ?_)
      rw [utf8Size_of_stringEscape? hmeant]
      exact ih
  | case5 read offset escaped rest => exact .of_cons '\\' (.of_cons escaped (.refl _))
  | case6 read c rest offset hquote hslash ih => exact .of_cons c ih

theorem literal_append_rest_spanUnsigned (text : List Char) :
    (spanUnsigned text).literal ++ (spanUnsigned text).rest = text := by
  rcases spanUnsigned_cases text with ⟨whole, rest, rfl, hwhole, hdigit, hpoint⟩ |
    ⟨whole, fraction, rest, rfl, hwhole, hne, hfraction, hdigit⟩
  · rw [spanUnsigned_whole hwhole hdigit hpoint]
  · rw [spanUnsigned_fraction hwhole hne hfraction hdigit]
    simp

theorem literal_append_rest_spanNumeral (text : List Char) :
    (spanNumeral text).literal ++ (spanNumeral text).rest = text := by
  unfold spanNumeral
  split
  · next rest => exact congrArg ('-' :: ·) (literal_append_rest_spanUnsigned rest)
  · exact literal_append_rest_spanUnsigned text

theorem moves_scanNumeral (cursor : Cursor) : cursor.Moves (scanNumeral cursor).2 := by
  have hsplit := (literal_append_rest_spanNumeral cursor.rest).symm
  unfold scanNumeral
  simp only
  split <;> exact ⟨_, hsplit, rfl⟩

theorem moves_scanTagBody (c : Char) (rest : List Char) (offset : Nat) :
    Cursor.Moves ⟨c :: rest, offset⟩ (scanTagBody c rest offset).2 := by
  unfold scanTagBody
  simp only
  split
  · next hclose =>
      unfold closesTag at hclose
      split at hclose
      · next tail htail =>
          cases htail
          exact .of_cons '$' (.of_cons '}' (.refl _))
      · contradiction
  split
  · next hquote =>
      subst hquote
      exact .of_cons '"' (moves_scanString offset [] rest (offset + 1))
  split
  · next hat =>
      subst hat
      split
      · exact .of_cons '@' (.span ⟨rest, offset + 1⟩ isWordChar)
      · exact .of_cons '@' (.refl _)
  split
  · exact moves_scanNumeral ⟨c :: rest, offset⟩
  split
  · exact .span ⟨c :: rest, offset⟩ isWordChar
  split
  · exact .of_cons c (.refl _)
  · exact .refl _

theorem moves_scanTagStart (c : Char) (rest : List Char) (offset : Nat) :
    Cursor.Moves ⟨c :: rest, offset⟩ (scanTagStart c rest offset).2 := by
  unfold scanTagStart
  split
  · next hecho =>
      subst hecho
      exact .of_cons '=' (.refl _)
  split
  · exact .span ⟨c :: rest, offset⟩ isWordChar
  · exact moves_scanTagBody c rest offset

/-! ## One token -/

namespace Lexer

theorem moves_readText (lexer : Lexer) : lexer.cursor.Moves lexer.readText.2 := by
  unfold readText
  simp only
  split
  · next hopen =>
      obtain ⟨tail, htail⟩ := opensTag_iff.mp hopen
      exact ⟨['{', '$'], by simp [htail], rfl⟩
  · exact moves_scanText [] lexer.cursor.rest lexer.cursor.offset

theorem moves_readTag (lexer : Lexer) : lexer.cursor.Moves lexer.readTag.2 := by
  have hblanks := Cursor.Moves.span lexer.cursor Text.isBlank
  unfold readTag
  simp only
  split
  · exact hblanks
  · next c rest hrest =>
      have hcursor : (lexer.cursor.span Text.isBlank).2 =
          ⟨c :: rest, (lexer.cursor.span Text.isBlank).2.offset⟩ := by
        rw [← hrest]
      rw [hcursor] at hblanks
      split
      · exact hblanks.trans (moves_scanTagStart c rest _)
      · exact hblanks.trans (moves_scanTagBody c rest _)

theorem moves_next (lexer : Lexer) : lexer.cursor.Moves lexer.next.2.cursor := by
  have hread : lexer.next.2.cursor = lexer.read.2 := rfl
  rw [hread]
  unfold read
  split
  · exact lexer.moves_readText
  · exact lexer.moves_readTag

theorem moves_of_next {lexer after : Lexer} {result : Except LexError Token}
    (h : lexer.next = (result, after)) : lexer.cursor.Moves after.cursor := by
  have hmoves := lexer.moves_next
  rwa [h] at hmoves

/-- The end of the input is read where nothing is left. -/
theorem rest_of_next_eof {lexer after : Lexer} (h : lexer.next = (.ok .eof, after)) :
    after.cursor.rest = [] := by
  have hread := read_of_next h
  unfold read at hread
  split at hread
  · next hmode =>
      have hnil := (next_eof_iff hmode).mp ⟨after, h⟩
      obtain ⟨taken, hrest, -⟩ := lexer.moves_next
      rw [h, hnil] at hrest
      exact (List.append_eq_nil_iff.mp hrest.symm).2
  · exact (rest_of_readTag_eof hread).2

theorem next_of_rest_nil {lexer : Lexer} (h : lexer.cursor.rest = []) :
    lexer.next.1 = .ok .eof := by
  have hread : lexer.next.1 = lexer.read.1 := rfl
  rw [hread]
  unfold read
  split
  · simp [readText, h, opensTag, scanText, textToken]
  · simp [readTag, Cursor.span, h]

theorem Run.moves {lexer final : Lexer} {tokens : List Token} (h : lexer.Run tokens final) :
    lexer.cursor.Moves final.cursor := by
  induction h with
  | refl => exact .refl _
  | next hnext _ _ ih => exact (moves_of_next hnext).trans ih

/-! ## Calls -/

inductive Call where
  | next
  | setMode (mode : Mode)

/-- The lexer after a call. -/
def after (lexer : Lexer) : Call → Lexer
  | .next => lexer.next.2
  | .setMode mode => lexer.setMode mode

def afterAll (lexer : Lexer) (calls : List Call) : Lexer := calls.foldl after lexer

/-- The token that a call gives, if it succeeds in reading one. -/
def token? (lexer : Lexer) : Call → Option Token
  | .next => lexer.next.1.toOption
  | .setMode _ => none

/-- The tokens that a sequence of calls gives. -/
def tokensGiven (lexer : Lexer) : List Call → List Token
  | [] => []
  | call :: calls => (lexer.token? call).toList ++ (lexer.after call).tokensGiven calls

theorem moves_after (lexer : Lexer) (call : Call) :
    lexer.cursor.Moves (lexer.after call).cursor := by
  cases call with
  | next => exact lexer.moves_next
  | setMode mode => exact .refl _

theorem moves_afterAll (lexer : Lexer) (calls : List Call) :
    lexer.cursor.Moves (lexer.afterAll calls).cursor := by
  induction calls generalizing lexer with
  | nil => exact .refl _
  | cons call calls ih => exact (lexer.moves_after call).trans (ih (lexer.after call))

theorem last_after (lexer : Lexer) (call : Call) :
    (lexer.after call).last = (lexer.token? call).or lexer.last := by
  cases call with
  | next =>
      simp only [after, token?, next]
      cases lexer.read.1 <;> rfl
  | setMode mode => rfl

theorem last_afterAll (lexer : Lexer) (calls : List Call) :
    (lexer.afterAll calls).last = (lexer.tokensGiven calls).getLast?.or lexer.last := by
  induction calls generalizing lexer with
  | nil => rfl
  | cons call calls ih =>
      have hafter : lexer.afterAll (call :: calls) = (lexer.after call).afterAll calls := rfl
      rw [hafter, ih, last_after, tokensGiven, List.getLast?_append, Option.or_assoc]
      cases lexer.token? call <;> rfl

/-! ## The source around the cursor -/

/-- The cursor cuts the source in two: its offset is the size of the first part. -/
def CutsAt (source : String) (cursor : Cursor) : Prop :=
  ∃ front, source = front ++ String.ofList cursor.rest ∧ cursor.offset = front.utf8ByteSize

theorem CutsAt.of_moves {source : String} {before after : Cursor} (h : CutsAt source before)
    (hmoves : before.Moves after) : CutsAt source after := by
  obtain ⟨front, hsource, hoffset⟩ := h
  obtain ⟨taken, hrest, hoffset'⟩ := hmoves
  refine ⟨front ++ String.ofList taken, ?_, ?_⟩
  · rw [hsource, hrest, String.ofList_append, String.append_assoc]
  · rw [hoffset', hoffset, String.utf8ByteSize_append, ← byteLength_toList (String.ofList taken),
      String.toList_ofList]

theorem cutsAt_ofSource (source : String) : CutsAt source (ofSource source).cursor :=
  ⟨"", by simp [ofSource], rfl⟩

theorem cutsAt_afterAll (source : String) (calls : List Call) :
    CutsAt source ((ofSource source).afterAll calls).cursor :=
  (cutsAt_ofSource source).of_moves ((ofSource source).moves_afterAll calls)

theorem CutsAt.isValid {source : String} {cursor : Cursor} (h : CutsAt source cursor) :
    String.Pos.Raw.IsValid source ⟨cursor.offset⟩ := by
  obtain ⟨front, hsource, hoffset⟩ := h
  rw [String.Pos.Raw.isValid_iff_exists_append]
  exact ⟨front, _, hsource, by rw [hoffset]; rfl⟩

theorem CutsAt.offset_add {source : String} {cursor : Cursor} (h : CutsAt source cursor) :
    cursor.offset + byteLength cursor.rest = source.utf8ByteSize := by
  obtain ⟨front, hsource, hoffset⟩ := h
  rw [hsource, String.utf8ByteSize_append, hoffset, ← byteLength_toList, ← byteLength_toList,
    String.toList_ofList]

theorem CutsAt.offset_eq_iff {source : String} {cursor : Cursor} (h : CutsAt source cursor) :
    cursor.offset = source.utf8ByteSize ↔ cursor.rest = [] := by
  rw [← byteLength_eq_zero_iff, ← h.offset_add]
  omega

/--
Whatever a caller does, in any order and also after failures: the offset is a character boundary
of the source and never goes back; every token but the end of the input moves it on; the end of
the input is read exactly from the end of the source on; and the lexer remembers the last token
that it gave.
-/
theorem stays_in_step (source : String) (calls : List Call) :
    let lexer := (ofSource source).afterAll calls
    String.Pos.Raw.IsValid source ⟨lexer.cursor.offset⟩ ∧
    lexer.cursor.offset ≤ source.utf8ByteSize ∧
    CutsAt source lexer.cursor ∧
    (∀ more, lexer.cursor.offset ≤ (lexer.afterAll more).cursor.offset) ∧
    (∀ token after, lexer.next = (.ok token, after) → token ≠ .eof →
      lexer.cursor.offset < after.cursor.offset) ∧
    (∀ after, lexer.next = (.ok .eof, after) → after.cursor.offset = source.utf8ByteSize) ∧
    (lexer.cursor.offset = source.utf8ByteSize →
      ∀ more, (lexer.afterAll more).next.1 = .ok .eof) ∧
    lexer.last = ((ofSource source).tokensGiven calls).getLast? := by
  intro lexer
  have hcuts : CutsAt source lexer.cursor := cutsAt_afterAll source calls
  -- a sequence of calls that goes on is again a sequence of calls from the source
  have hmore : ∀ more, CutsAt source (lexer.afterAll more).cursor := by
    intro more
    have := cutsAt_afterAll source (calls ++ more)
    rwa [afterAll, List.foldl_append] at this
  refine ⟨hcuts.isValid, ?_, hcuts, ?_, ?_, ?_, ?_, ?_⟩
  · have := hcuts.offset_add
    omega
  · intro more
    exact (lexer.moves_afterAll more).offset_le
  · intro token after hnext hne
    have hmoves := lexer.moves_next
    rw [hnext] at hmoves
    exact hmoves.offset_lt (length_next_lt hnext hne)
  · intro after hnext
    have hafter := hmore [.next]
    change CutsAt source lexer.next.2.cursor at hafter
    rw [hnext] at hafter
    exact hafter.offset_eq_iff.mpr (rest_of_next_eof hnext)
  · intro hend more
    obtain ⟨taken, hrest, -⟩ := lexer.moves_afterAll more
    rw [hcuts.offset_eq_iff.mp hend] at hrest
    exact next_of_rest_nil (List.append_eq_nil_iff.mp hrest.symm).2
  · rw [last_afterAll]
    exact Option.or_none

theorem stays_in_step_after_failure :
    let source := "é\x7b$ @"
    let opening := (ofSource source).afterAll [.next]
    let failed := (ofSource source).afterAll [.next, .next, .setMode .tag, .next]
    opening.next.1 = .ok .tagOpen ∧
      opening.cursor.offset < opening.next.2.cursor.offset ∧
      failed.last = some .tagOpen ∧
      failed.cursor.offset = source.utf8ByteSize ∧
      failed.next.2.cursor.offset = source.utf8ByteSize ∧
      ∀ more, (failed.afterAll more).next.1 = .ok .eof := by
  intro source opening failed
  have hopens : opening.next.1 = .ok .tagOpen := by decide +kernel
  have hopening : opening.next = (.ok .tagOpen, opening.next.2) := by rw [← hopens]
  have hend : failed.cursor.offset = source.utf8ByteSize := by decide +kernel
  have heof : failed.next.1 = .ok .eof := by decide +kernel
  have hfailed : failed.next = (.ok .eof, failed.next.2) := by rw [← heof]
  obtain ⟨-, -, -, -, hprogress, -⟩ := stays_in_step source [.next]
  obtain ⟨-, -, -, -, -, hlength, hends, hlast⟩ :=
    stays_in_step source [.next, .next, .setMode .tag, .next]
  refine ⟨hopens, ?_, ?_, hend, ?_, ?_⟩
  · exact hprogress .tagOpen _ hopening nofun
  · exact hlast.trans (by decide +kernel)
  · exact hlength _ hfailed
  · exact hends hend

end Lexer

end TagTemplate
