import TagTemplate.Token.Stream

/-!
Runs of a lexer that switches its mode at the tag delimiters.

`Lexer.Run lexer tokens final` says that reading from `lexer` gives `tokens`, none of them the end
of the input, and stops in `final`.  A source has the tokens `body ++ [Token.eof]` exactly if a run
gives `body` and stops where the end of the input is read (`tokenize_eq_ok_iff`).
-/

namespace TagTemplate

namespace Lexer

def resume (after : Lexer) (token : Token) : Lexer :=
  after.setMode (modeAfter after.mode token)

@[simp] theorem mode_setMode (lexer : Lexer) (mode : Mode) : (lexer.setMode mode).mode = mode := rfl

@[simp] theorem atTagStart_setMode (lexer : Lexer) (mode : Mode) :
    (lexer.setMode mode).atTagStart = lexer.atTagStart := rfl

@[simp] theorem cursor_setMode (lexer : Lexer) (mode : Mode) :
    (lexer.setMode mode).cursor = lexer.cursor := rfl

theorem mode_next {lexer after : Lexer} {result : Except LexError Token}
    (h : lexer.next = (result, after)) : after.mode = lexer.mode := by
  unfold next at h
  obtain ⟨-, rfl⟩ := Prod.mk.inj h
  rfl

inductive Run : Lexer → List Token → Lexer → Prop
  | refl (lexer : Lexer) : Run lexer [] lexer
  | next {lexer after final : Lexer} {token : Token} {tokens : List Token}
      (hnext : lexer.next = (.ok token, after)) (hne : token ≠ .eof)
      (rest : Run (after.resume token) tokens final) : Run lexer (token :: tokens) final

theorem Run.trans {first second third : Lexer} {tokens tokens' : List Token}
    (h : Run first tokens second) (h' : Run second tokens' third) :
    Run first (tokens ++ tokens') third := by
  induction h with
  | refl => exact h'
  | next hnext hne _ ih => exact .next hnext hne (ih h')

theorem Run.eof_not_mem {lexer final : Lexer} {tokens : List Token}
    (h : Run lexer tokens final) : Token.eof ∉ tokens := by
  induction h with
  | refl => simp
  | next _ hne _ ih =>
      rw [List.mem_cons, not_or]
      exact ⟨Ne.symm hne, ih⟩

theorem Run.mode_eq {lexer final : Lexer} {tokens : List Token} (h : Run lexer tokens final) :
    final.mode = tokens.foldl modeAfter lexer.mode := by
  induction h with
  | refl => rfl
  | next hnext _ _ ih => rw [ih, resume, mode_setMode, mode_next hnext, List.foldl_cons]

theorem Run.exists_next {lexer final : Lexer} {token : Token} {tokens : List Token}
    (h : Run lexer (token :: tokens) final) :
    ∃ after, lexer.next = (.ok token, after) ∧ token ≠ .eof ∧
      Run (after.resume token) tokens final := by
  cases h with
  | next hnext hne rest => exact ⟨_, hnext, hne, rest⟩

theorem Run.split {lexer final : Lexer} {tokens tokens' : List Token}
    (h : Run lexer (tokens ++ tokens') final) :
    ∃ mid, Run lexer tokens mid ∧ Run mid tokens' final := by
  induction tokens generalizing lexer with
  | nil => exact ⟨lexer, .refl lexer, h⟩
  | cons token tokens ih =>
      obtain ⟨after, hnext, hne, hrest⟩ := h.exists_next
      obtain ⟨mid, hfront, hback⟩ := ih hrest
      exact ⟨mid, .next hnext hne hfront, hback⟩

/-! ## Streams -/

theorem collect_of_error {lexer after : Lexer} {e : LexError}
    (h : lexer.next = (.error e, after)) (read : List Token) :
    lexer.collect read = ⟨read.reverse, some e⟩ := by
  rw [collect]
  split
  · rename_i h'
    rw [h] at h'
    cases h'
    rfl
  · rename_i h'
    rw [h] at h'
    cases h'

theorem collect_of_eof {lexer after : Lexer} (h : lexer.next = (.ok .eof, after))
    (read : List Token) : lexer.collect read = ⟨(.eof :: read).reverse, none⟩ := by
  rw [collect]
  split
  · rename_i h'
    rw [h] at h'
    cases h'
  · rename_i h'
    rw [h] at h'
    cases h'
    rfl

theorem collect_of_token {lexer after : Lexer} {token : Token}
    (h : lexer.next = (.ok token, after)) (hne : token ≠ .eof) (read : List Token) :
    lexer.collect read = (after.resume token).collect (token :: read) := by
  rw [collect]
  split
  · rename_i h'
    rw [h] at h'
    cases h'
  · rename_i h'
    rw [h] at h'
    cases h'
    simp only [hne, dite_false]
    rfl

theorem collect_of_run {lexer final : Lexer} {tokens : List Token} (h : Run lexer tokens final)
    (read : List Token) : lexer.collect read = final.collect (tokens.reverse ++ read) := by
  induction h generalizing read with
  | refl => rfl
  | next hnext hne _ ih =>
      rw [collect_of_token hnext hne, ih]
      simp

/-- The stream of a lexer comes from a run up to the end of the input or the first failure. -/
theorem exists_run (lexer : Lexer) : ∃ tokens final after, Run lexer tokens final ∧
    (final.next = (.ok .eof, after) ∨ ∃ e, final.next = (.error e, after)) := by
  cases hnext : lexer.next with
  | mk result after =>
      cases result with
      | error e => exact ⟨[], lexer, after, .refl lexer, .inr ⟨e, hnext⟩⟩
      | ok token =>
          by_cases heof : token = .eof
          · exact ⟨[], lexer, after, .refl lexer, .inl (heof ▸ hnext)⟩
          · have : (after.resume token).cursor.rest.length < lexer.cursor.rest.length := by
              simpa [resume] using length_next_lt hnext heof
            obtain ⟨tokens, final, last, hrun, hstop⟩ := exists_run (after.resume token)
            exact ⟨token :: tokens, final, last, .next hnext heof hrun, hstop⟩
termination_by lexer.cursor.rest.length

end Lexer

theorem TokenStream.ofSource_of_run {source : String} {body : List Token} {final : Lexer}
    (hrun : (Lexer.ofSource source).Run body final) :
    TokenStream.ofSource source = final.collect body.reverse := by
  rw [TokenStream.ofSource, Lexer.collect_of_run hrun, List.append_nil]

theorem tokenize_eq_ok_iff {source : String} {tokens : List Token} :
    tokenize source = .ok tokens ↔
      ∃ body final after, tokens = body ++ [.eof] ∧ (Lexer.ofSource source).Run body final ∧
        final.next = (.ok .eof, after) := by
  constructor
  · intro h
    obtain ⟨body, final, after, hrun, hstop⟩ := (Lexer.ofSource source).exists_run
    rw [tokenize, TokenStream.ofSource_of_run hrun] at h
    rcases hstop with hnext | ⟨e, hnext⟩
    · rw [Lexer.collect_of_eof hnext] at h
      cases h
      exact ⟨body, final, after, by simp, hrun, hnext⟩
    · rw [Lexer.collect_of_error hnext] at h
      cases h
  · rintro ⟨body, final, after, rfl, hrun, hnext⟩
    rw [tokenize, TokenStream.ofSource_of_run hrun, Lexer.collect_of_eof hnext]
    simp [TokenStream.toExcept]

end TagTemplate
