import TagTemplate.Proofs.Document.Grammar
import TagTemplate.Proofs.Token.Reading

/-!
Failures of parsing.

The parser takes the tokens of the stream one by one, and then what stopped the stream
(`Document.parse_eq_steps`).  A failure to read a token is therefore the failure of the parser too,
unless the tokens before it are rejected already.

Before every token, also a rejected one, the lexer stands at the place that the phase of the parser
asks for.  The tokens that can be read there leave some failures of the parser without a cause
(`Parser.Failure.not_reserved`).
-/

namespace TagTemplate

/-! ## Failing steps -/

/-- The names of tags. -/
def Token.tagNames : List String := ["for", "end", "="]

/-- A failure on the tokens, and not of reading one. -/
def ParseError.isStructural : ParseError → Bool
  | .lex _ => false
  | _ => true

namespace Parser

/-- What is known of a step that fails. -/
inductive Failure : Parser → Token → ParseError → Prop
  | outside (builder t) (h : t.kind ∉ [.eof, .text, .tagOpen]) :
      Failure ⟨builder, .outside⟩ t (.unexpected .textOrTag t)
  | unknownName (builder name) (h : name ∉ Token.tagNames) :
      Failure ⟨builder, .tagName⟩ (.tagName name) (.unknownTag name)
  | unknownIdent (builder name) :
      Failure ⟨builder, .tagName⟩ (.ident name) (.unknownTag name)
  | unknownToken (builder) (t : Token) :
      Failure ⟨builder, .tagName⟩ t (.unknownTag t.description)
  | expected (p t) (expectation : Expectation) (h : expectation ≠ .textOrTag) :
      Failure p t (.unexpected expectation t)
  | bound (p t position) : Failure p t (.invalidBound position t)
  | emptyEcho (builder) : Failure ⟨builder, .echo []⟩ .tagClose .emptyEcho
  | unmatchedEnd (siblings) : Failure ⟨⟨siblings, []⟩, .endClose⟩ .tagClose .unmatchedEnd

theorem bound_bind_eq_error {position : BoundPosition} {t : Token} {e : ParseError}
    {next : Element → Except ParseError Parser} (h : Parser.bound position t >>= next = .error e) :
    e = .invalidBound position t ∨ ∃ bound, next bound = .error e := by
  unfold Parser.bound at h
  split at h
  · exact .inr ⟨_, h⟩
  · cases h
    exact .inl rfl

private theorem failure_of_stepTagName {builder : Builder} {t : Token} {e : ParseError}
    (h : stepTagName builder t = .error e) : Failure ⟨builder, .tagName⟩ t e := by
  cases t with
  | tagName name =>
      simp only [stepTagName] at h
      split at h
      · cases h
      split at h
      · cases h
      split at h
      · cases h
      · cases h
        refine .unknownName builder name ?_
        simp_all [Token.tagNames]
  | ident name =>
      cases h
      exact .unknownIdent builder name
  | eof =>
      cases h
      exact .expected _ _ .tagName (by decide)
  | tagClose =>
      cases h
      exact .expected _ _ .tagName (by decide)
  | _ =>
      cases h
      exact .unknownToken builder _

private theorem failure_of_stepEndClose {builder : Builder} {t : Token} {e : ParseError}
    (h : stepEndClose builder t = .error e) : Failure ⟨builder, .endClose⟩ t e := by
  unfold stepEndClose at h
  split at h
  · next hclose =>
      obtain ⟨siblings, enclosing⟩ := builder
      cases enclosing with
      | nil =>
          cases h
          rw [hclose]
          exact .unmatchedEnd siblings
      | cons frame outer => cases h
  · cases h
    exact .expected _ t .tagClose (by decide)

private theorem failure_of_stepEcho {builder : Builder} {elements : List Element} {t : Token}
    {e : ParseError} (h : stepEcho builder elements t = .error e) :
    Failure ⟨builder, .echo elements⟩ t e := by
  unfold stepEcho at h
  split at h
  · next hclose =>
      split at h
      · next hempty =>
          cases h
          rw [hclose, List.isEmpty_iff.mp hempty]
          exact .emptyEcho builder
      · cases h
  · split at h
    · cases h
    · cases h
      exact .expected _ t .echoElement (by decide)

theorem failure_of_step {p : Parser} {t : Token} {e : ParseError} (h : p.step t = .error e) :
    Failure p t e := by
  obtain ⟨builder, phase⟩ := p
  cases phase with
  | outside =>
      cases t <;> simp only [step, stepOutside, reduceCtorEq, Except.error.injEq] at h <;>
        (subst h; exact .outside builder _ (by simp [Token.kind]))
  | tagName => exact failure_of_stepTagName h
  | loopVariable =>
      cases t <;> simp only [step, stepLoopVariable, reduceCtorEq, Except.error.injEq] at h <;>
        (subst h; exact .expected _ _ .loopVariable (by decide))
  | loopStart counter =>
      obtain rfl | ⟨_, h⟩ := bound_bind_eq_error h
      · exact .bound _ t .start
      · cases h
  | loopStop counter start =>
      obtain rfl | ⟨_, h⟩ := bound_bind_eq_error h
      · exact .bound _ t .stop
      · cases h
  | loopStep counter start stop =>
      simp only [step, stepLoopStep] at h
      split at h
      · cases h
      · obtain rfl | ⟨_, h⟩ := bound_bind_eq_error h
        · exact .bound _ t .step
        · cases h
  | loopClose header =>
      simp only [step] at h
      split at h
      · cases h
      · cases h
        exact .expected _ t .tagClose (by decide)
  | endClose => exact failure_of_stepEndClose h
  | echo elements => exact failure_of_stepEcho h

theorem Failure.isStructural {p : Parser} {t : Token} {e : ParseError} (h : Failure p t e) :
    e.isStructural = true := by
  cases h <;> rfl

/-! ## Rejected tokens -/

theorem steps_append (p : Parser) (tokens tokens' : List Token) :
    p.steps (tokens ++ tokens') = p.steps tokens >>= fun q => q.steps tokens' :=
  List.foldlM_append

/-- The tokens before one of them are accepted, and that one is not. -/
inductive Rejects : Parser → List Token → ParseError → Prop
  | here {p : Parser} {t : Token} {e : ParseError} (h : p.step t = .error e) (rest : List Token) :
      Rejects p (t :: rest) e
  | later {p mid : Parser} {t : Token} {tokens : List Token} {e : ParseError}
      (first : Transition p t mid) (rest : Rejects mid tokens e) : Rejects p (t :: tokens) e

theorem rejects_of_steps {p : Parser} {tokens : List Token} {e : ParseError}
    (h : p.steps tokens = .error e) : Rejects p tokens e := by
  induction tokens generalizing p with
  | nil => cases h
  | cons t tokens ih =>
      rw [steps_cons] at h
      cases hstep : p.step t with
      | error e' =>
          rw [hstep] at h
          cases h
          exact .here hstep tokens
      | ok mid =>
          rw [hstep] at h
          exact .later (transition_of_step hstep) (ih h)

theorem Rejects.isStructural {p : Parser} {tokens : List Token} {e : ParseError}
    (h : Rejects p tokens e) : e.isStructural = true := by
  induction h with
  | here h _ => exact (failure_of_step h).isStructural
  | later _ _ ih => exact ih

theorem Rejects.append_cases {p : Parser} {tokens tokens' : List Token} {e : ParseError}
    (h : Rejects p (tokens ++ tokens') e) :
    Rejects p tokens e ∨ ∃ q, Rejects q tokens' e := by
  induction tokens generalizing p with
  | nil => exact .inr ⟨p, h⟩
  | cons t tokens ih =>
      cases h with
      | here h => exact .inl (.here h tokens)
      | later first rest => exact (ih rest).imp_left (.later first)

theorem finish_eq_error {p : Parser} {e : ParseError} (h : p.finish = .error e) :
    e = .unclosedFor p.builder.enclosing.length := by
  unfold finish at h
  split at h <;> cases h
  rfl

end Parser

/-! ## Places -/

/-- The place at which the next token is read. -/
def Phase.place : Phase → Place
  | .outside => .text
  | .tagName => .tagStart
  | _ => .tag

/-- The tokens that can be read at a place. -/
def Place.Yields (place : Place) (token : Token) : Prop :=
  token = .eof ∨ ∃ source, Lexeme place token source

theorem Token.description_notMem_tagNames (t : Token) : t.description ∉ tagNames := by
  have hlong : 4 ≤ t.description.toList.length := by
    cases t <;> simp [description]
  have hshort : ∀ name ∈ tagNames, name.toList.length ≤ 3 := by decide
  intro hmem
  have := hshort _ hmem
  omega

theorem TagStartLexeme.mem_tagNames {name : String} {source : List Char}
    (h : TagStartLexeme (.tagName name) source) : name ∈ Token.tagNames := by
  generalize ht : Token.tagName name = t at h
  cases h with
  | echo =>
      cases ht
      decide
  | word h =>
      simp only [tagWord] at ht
      split at ht
      · next hlower =>
          cases ht
          rcases hlower with hlower | hlower <;> simp [hlower, Token.tagNames]
      · cases ht
  | other h => cases h <;> cases ht

theorem TagStartLexeme.notMem_tagNames {name : String} {source : List Char}
    (h : TagStartLexeme (.ident name) source) : name ∉ Token.tagNames := by
  generalize ht : Token.ident name = t at h
  cases h with
  | echo => cases ht
  | @word word hword =>
      simp only [tagWord, String.ofList_toList] at ht
      split at ht
      · cases ht
      · next hlower =>
          cases ht
          -- `for` and `end` are their own lower case, and `=` is no name
          simp only [Token.tagNames, List.mem_cons, List.not_mem_nil, or_false]
          rintro (rfl | rfl | rfl)
          · exact hlower (.inl (by decide))
          · exact hlower (.inr (by decide))
          · exact absurd hword (by decide)
  | other h hhead =>
      cases h <;> cases ht
      next h =>
        obtain ⟨c, tail, hname, hletter, -⟩ := isName_iff.mp h
        rw [hname] at hhead
        have := (hhead c rfl).2
        simp_all

namespace Parser

theorem place_transition {p q : Parser} {t : Token} (h : Transition p t q) (hne : t ≠ .eof) :
    q.phase.place = p.phase.place.after t := by
  cases h with
  | eof => contradiction
  | start _ _ e _ => cases e <;> rfl
  | stop _ _ _ e _ => cases e <;> rfl
  | step _ _ _ _ e _ => cases e <;> rfl
  | element _ _ e => cases e <;> rfl
  | _ => rfl

theorem Failure.not_reserved {p : Parser} {t : Token} {e : ParseError} (h : Failure p t e)
    (hyields : p.phase.place.Yields t) :
    (∀ found, e ≠ .unexpected .textOrTag found) ∧
      ∀ name ∈ Token.tagNames, e ≠ .unknownTag name := by
  cases h with
  | outside builder t h =>
      rcases hyields with rfl | ⟨source, hlexeme⟩
      · exact absurd (by decide) h
      · cases hlexeme with
        | text => exact absurd (by simp [Token.kind]) h
        | tagOpen => exact absurd (by decide) h
  | unknownName builder name h =>
      rcases hyields with heof | ⟨source, hlexeme⟩
      · cases heof
      · cases hlexeme with
        | tagStart _ hlexeme => exact absurd hlexeme.mem_tagNames h
  | unknownIdent builder name =>
      rcases hyields with heof | ⟨source, hlexeme⟩
      · cases heof
      · cases hlexeme with
        | tagStart _ hlexeme =>
            have := hlexeme.notMem_tagNames
            refine ⟨by simp, ?_⟩
            rintro other hmem ⟨⟩
            exact this hmem
  | unknownToken builder t =>
      refine ⟨by simp, ?_⟩
      rintro name hname ⟨⟩
      exact t.description_notMem_tagNames hname
  | expected p t expectation h =>
      refine ⟨?_, by simp⟩
      rintro found ⟨⟩
      exact h rfl
  | _ => simp

/-- A rejected token was read at the place that the phase asks for. -/
theorem Rejects.exists_failure {p : Parser} {lexer final : Lexer} {tokens : List Token}
    {e : ParseError} (h : Rejects p tokens e) (hrun : lexer.Run tokens final)
    (hplace : lexer.place = p.phase.place) :
    ∃ q t, Failure q t e ∧ q.phase.place.Yields t := by
  induction h generalizing lexer with
  | @here p t e hstep tokens =>
      obtain ⟨after, hnext, hne, -⟩ := hrun.exists_next
      obtain ⟨source, -, hlexeme, -⟩ := Lexer.lexeme_of_next hnext hne
      rw [hplace] at hlexeme
      exact ⟨p, t, failure_of_step hstep, .inr ⟨source, hlexeme⟩⟩
  | @later p mid t tokens e first _ ih =>
      obtain ⟨after, hnext, hne, hrest⟩ := hrun.exists_next
      refine ih hrest ?_
      rw [Lexer.place_of_next hnext hne, place_transition first hne, hplace]

/-! ## Driving the lexer -/

/-- What is left to do once the stream has stopped. -/
def stop (p : Parser) : Option LexError → Except ParseError Document
  | none => p.finish
  | some e => .error (.lex e)

theorem drive_of_eof {p : Parser} {lexer after : Lexer} (h : lexer.next = (.ok .eof, after)) :
    p.drive lexer = p.step .eof >>= finish := by
  rw [drive_of_ok h]
  cases p.step .eof <;> rfl

end Parser

/-! ## Streams -/

theorem TokenStream.exists_run (source : String) :
    ∃ body final, (Lexer.ofSource source).Run body final ∧
      ((∃ after, final.next = (.ok .eof, after) ∧
          TokenStream.ofSource source = ⟨body ++ [.eof], none⟩) ∨
        ∃ e after, final.next = (.error e, after) ∧
          TokenStream.ofSource source = ⟨body, some e⟩) := by
  obtain ⟨body, final, after, hrun, hstop⟩ := (Lexer.ofSource source).exists_run
  refine ⟨body, final, hrun, ?_⟩
  rw [ofSource_of_run hrun]
  rcases hstop with hnext | ⟨e, hnext⟩
  · refine .inl ⟨after, hnext, ?_⟩
    simp [Lexer.collect_of_eof hnext]
  · refine .inr ⟨e, after, hnext, ?_⟩
    simp [Lexer.collect_of_error hnext]

theorem TokenStream.ofSource_of_tokenize {source : String} {tokens : List Token}
    (h : tokenize source = .ok tokens) : TokenStream.ofSource source = ⟨tokens, none⟩ := by
  cases hcase : TokenStream.ofSource source with
  | mk read failure =>
      rw [tokenize, hcase] at h
      cases failure <;> cases h
      rfl

namespace Document

/-- The parser takes the tokens of the stream, and then what has stopped it. -/
theorem parse_eq_steps (source : String) :
    Document.parse source =
      Parser.initial.steps (TokenStream.ofSource source).tokens >>= fun p =>
        p.stop (TokenStream.ofSource source).failure := by
  obtain ⟨body, final, hrun, ⟨after, hnext, hstream⟩ | ⟨e, after, hnext, hstream⟩⟩ :=
    TokenStream.exists_run source
  · rw [Document.parse, Parser.drive_eq_steps hrun rfl, hstream, Parser.steps_append]
    simp only [Parser.drive_of_eof hnext, Parser.steps_cons, bind_assoc]
    rfl
  · rw [Document.parse, Parser.drive_eq_steps hrun rfl, hstream]
    simp only [Parser.drive_of_error hnext]
    rfl

theorem parse_eq_error {source : String} {e : ParseError} (h : Document.parse source = .error e) :
    Parser.initial.Rejects (TokenStream.ofSource source).tokens e ∨
      ∃ p : Parser, p.stop (TokenStream.ofSource source).failure = .error e := by
  rw [parse_eq_steps] at h
  cases hsteps : Parser.initial.steps (TokenStream.ofSource source).tokens with
  | error e' =>
      rw [hsteps] at h
      cases h
      exact .inl (Parser.rejects_of_steps hsteps)
  | ok p =>
      rw [hsteps] at h
      exact .inr ⟨p, h⟩

/-- Structural failures other than an open loop are those of a step on a token that can be read. -/
theorem exists_failure_of_parse {source : String} {e : ParseError}
    (h : Document.parse source = .error e) :
    (∃ reason, e = .lex reason) ∨ (∃ count, e = .unclosedFor count) ∨
      ∃ p t, Parser.Failure p t e ∧ p.phase.place.Yields t := by
  rcases parse_eq_error h with hrejects | ⟨p, hstop⟩
  · right
    right
    obtain ⟨body, final, hrun, ⟨_, _, hstream⟩ | ⟨_, _, _, hstream⟩⟩ :=
      TokenStream.exists_run source
    · rw [hstream] at hrejects
      rcases hrejects.append_cases with hbody | ⟨q, heof⟩
      · exact hbody.exists_failure hrun rfl
      · cases heof with
        | here hstep => exact ⟨q, .eof, Parser.failure_of_step hstep, .inl rfl⟩
        | later _ rest => cases rest
    · rw [hstream] at hrejects
      exact hrejects.exists_failure hrun rfl
  · cases hfailure : (TokenStream.ofSource source).failure with
    | none =>
        rw [hfailure] at hstop
        exact .inr (.inl ⟨_, Parser.finish_eq_error hstop⟩)
    | some reason =>
        rw [hfailure] at hstop
        cases hstop
        exact .inl ⟨reason, rfl⟩

theorem parse_eq_lex_error {source : String} {e : LexError}
    (h : Document.parse source = .error (.lex e)) : tokenize source = .error e := by
  rcases parse_eq_error h with hrejects | ⟨p, hstop⟩
  · have := hrejects.isStructural
    contradiction
  · cases hfailure : (TokenStream.ofSource source).failure with
    | none =>
        rw [hfailure] at hstop
        have := Parser.finish_eq_error hstop
        contradiction
    | some reason =>
        rw [hfailure] at hstop
        cases hstop
        rw [tokenize, TokenStream.toExcept, hfailure]

theorem parse_of_tokenize_error {source : String} {e : LexError} (h : tokenize source = .error e) :
    Document.parse source = .error (.lex e) ∨
      ∃ reason, Document.parse source = .error reason ∧ reason.isStructural = true ∧
        Parser.initial.Rejects (TokenStream.ofSource source).tokens reason := by
  have hfailure : (TokenStream.ofSource source).failure = some e := by
    unfold tokenize TokenStream.toExcept at h
    split at h <;> cases h
    assumption
  rw [parse_eq_steps, hfailure]
  cases hsteps : Parser.initial.steps (TokenStream.ofSource source).tokens with
  | error reason =>
      have hrejects := Parser.rejects_of_steps hsteps
      exact .inr ⟨reason, rfl, hrejects.isStructural, hrejects⟩
  | ok p => exact .inl rfl

theorem parse_congr {source source' : String} {tokens : List Token}
    (h : tokenize source = .ok tokens) (h' : tokenize source' = .ok tokens) :
    Document.parse source = Document.parse source' := by
  rw [parse_eq_steps, parse_eq_steps, TokenStream.ofSource_of_tokenize h,
    TokenStream.ofSource_of_tokenize h']

/--
The parser fails to read a token where `tokenize` does, in the same way, unless one of the tokens
before it has been rejected; otherwise it sees the tokens only.  Whatever can be read outside of
tags is accepted there, and no name of a tag is unknown.
-/
theorem parse_fails_with_tokenize (source : String) :
    (∀ e, Document.parse source = .error (.lex e) → tokenize source = .error e) ∧
    (∀ e, tokenize source = .error e →
      Document.parse source = .error (.lex e) ∨
        ∃ reason, Document.parse source = .error reason ∧ reason.isStructural = true ∧
          Parser.initial.Rejects (TokenStream.ofSource source).tokens reason) ∧
    (∀ source' tokens, tokenize source = .ok tokens → tokenize source' = .ok tokens →
      Document.parse source = Document.parse source') ∧
    (∀ found, Document.parse source ≠ .error (.unexpected .textOrTag found)) ∧
    (∀ name ∈ Token.tagNames, Document.parse source ≠ .error (.unknownTag name)) := by
  refine ⟨fun e h => parse_eq_lex_error h, fun e h => parse_of_tokenize_error h,
    fun source' tokens h h' => parse_congr h h', fun found h => ?_, fun name hname h => ?_⟩
  · rcases exists_failure_of_parse h with ⟨_, he⟩ | ⟨_, he⟩ | ⟨p, t, hfailure, hyields⟩
    · cases he
    · cases he
    · exact (hfailure.not_reserved hyields).1 found rfl
  · rcases exists_failure_of_parse h with ⟨_, he⟩ | ⟨_, he⟩ | ⟨p, t, hfailure, hyields⟩
    · cases he
    · cases he
    · exact (hfailure.not_reserved hyields).2 name hname rfl

theorem parse_fails_with_tokenize_or_before :
    let unread := "\x7b$= 1 ? $\x7d"
    let unknown := "a\x7b$ x ? $\x7d"
    let spaced := "\x7b$ end $\x7d"
    let close := "\x7b$END$\x7d"
    Document.parse unread = .error (.lex (.unexpectedChar 6 '?')) ∧
      tokenize unread = .error (.unexpectedChar 6 '?') ∧
      tokenize unknown = .error (.unexpectedChar 6 '?') ∧
      Parser.initial.Rejects (TokenStream.ofSource unknown).tokens (.unknownTag "x") ∧
      tokenize spaced = .ok [.tagOpen, .tagName "end", .tagClose, .eof] ∧
      tokenize close = .ok [.tagOpen, .tagName "end", .tagClose, .eof] ∧
      Document.parse spaced = Document.parse close := by
  intro unread unknown spaced close
  have hunread : Document.parse unread = .error (.lex (.unexpectedChar 6 '?')) := by
    decide +kernel
  have hunknown : Document.parse unknown = .error (.unknownTag "x") := by decide +kernel
  have htokens : tokenize unknown = .error (.unexpectedChar 6 '?') := by decide +kernel
  have hspaced : tokenize spaced = .ok [.tagOpen, .tagName "end", .tagClose, .eof] := by
    decide +kernel
  have hclose : tokenize close = .ok [.tagOpen, .tagName "end", .tagClose, .eof] := by
    decide +kernel
  refine ⟨hunread, (parse_fails_with_tokenize unread).1 _ hunread, htokens, ?_, hspaced, hclose,
    (parse_fails_with_tokenize spaced).2.2.1 close _ hspaced hclose⟩
  obtain hlex | ⟨reason, hreason, -, hrejects⟩ :=
    (parse_fails_with_tokenize unknown).2.1 _ htokens
  · rw [hunknown] at hlex
    cases hlex
  · rw [hunknown] at hreason
    cases hreason
    exact hrejects

end Document

end TagTemplate
