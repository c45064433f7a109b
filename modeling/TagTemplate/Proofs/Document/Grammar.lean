import TagTemplate.Document.Parser
import TagTemplate.Proofs.Document.Levels
import TagTemplate.Proofs.Token.Run

/-!
The grammar of documents.

`Document.tokens` lists the tokens of a document.  The parser, which takes one token after the
other, accepts exactly the token lists of grammatical documents, and leaves the document behind
that they come from (`Parser.accepts_document_iff`).  It switches its lexer to the same mode as
`tokenize` does before every token, so a source parses to a document exactly if it has the tokens
of that document.
-/

namespace TagTemplate

/-! ## Tokens of documents -/

def LoopHeader.tokens (header : LoopHeader) : List Token :=
  .tagOpen :: .tagName "for" :: .ident header.counter :: header.bounds.map Element.token ++
    [.tagClose]

mutual

def Node.tokens : Node → List Token
  | .text content => [.text content]
  | .echo elements =>
      .tagOpen :: .tagName "=" :: elements.map Element.token ++ [.tagClose]
  | .forLoop header body =>
      header.tokens ++ Node.tokensAll body ++ [.tagOpen, .tagName "end", .tagClose]

def Node.tokensAll : List Node → List Token
  | [] => []
  | node :: rest => node.tokens ++ Node.tokensAll rest

end

def Document.tokens (d : Document) : List Token := Node.tokensAll d.children

@[simp] theorem Node.tokensAll_append (nodes rest : List Node) :
    Node.tokensAll (nodes ++ rest) = Node.tokensAll nodes ++ Node.tokensAll rest := by
  induction nodes with
  | nil => rfl
  | cons node nodes ih => simp [Node.tokensAll, ih]

theorem Element.ofToken?_eq_some_iff {t : Token} {e : Element} :
    ofToken? t = some e ↔ t = e.token := by
  constructor
  · intro h
    cases t <;> simp_all [ofToken?] <;> subst h <;> rfl
  · rintro rfl
    exact ofToken?_token e

theorem Element.boundOfToken?_eq_some_iff {t : Token} {e : Element} :
    boundOfToken? t = some e ↔ e.isBound = true ∧ t = e.token := by
  constructor
  · intro h
    cases t <;> simp_all [boundOfToken?] <;> subst h <;> exact ⟨rfl, rfl⟩
  · rintro ⟨hbound, rfl⟩
    cases e <;> simp_all [isBound, boundOfToken?, token]

/-! ## Grammatical nodes -/

def Node.Grammatical (node : Node) : Prop :=
  node.isGrammatical = true ∧ ∀ level ∈ node.levels, ∀ below ∈ level, below.isGrammatical = true

theorem Node.forall_levels_iff {p : Node → Prop} (nodes : List Node) :
    (∀ level ∈ nodes :: Node.levelsAll nodes, ∀ node ∈ level, p node) ↔
      ∀ node ∈ nodes, p node ∧ ∀ level ∈ node.levels, ∀ below ∈ level, p below := by
  induction nodes with
  | nil => simp [Node.levelsAll]
  | cons node rest ih =>
      simp only [Node.levelsAll, List.forall_mem_cons, List.forall_mem_append] at ih ⊢
      rw [← ih]
      tauto

theorem Document.isGrammatical_iff {d : Document} :
    d.IsGrammatical ↔ ∀ node ∈ d.children, node.Grammatical :=
  Node.forall_levels_iff d.children

theorem Node.grammatical_forLoop_iff {header : LoopHeader} {body : List Node} :
    (Node.forLoop header body).Grammatical ↔
      (∀ e ∈ header.bounds, e.isBound = true) ∧ ∀ node ∈ body, node.Grammatical := by
  rw [Grammatical, Node.levels, Node.forall_levels_iff, isGrammatical, List.all_eq_true]
  rfl

namespace Parser

/-! ## Transitions -/

/-- One step of the parser on a token that it accepts. -/
inductive Transition : Parser → Token → Parser → Prop
  | eof (builder) : Transition ⟨builder, .outside⟩ .eof ⟨builder, .outside⟩
  | text (builder content) :
      Transition ⟨builder, .outside⟩ (.text content) ⟨builder.append (.text content), .outside⟩
  | tagOpen (builder) : Transition ⟨builder, .outside⟩ .tagOpen ⟨builder, .tagName⟩
  | forName (builder) : Transition ⟨builder, .tagName⟩ (.tagName "for") ⟨builder, .loopVariable⟩
  | echoName (builder) : Transition ⟨builder, .tagName⟩ (.tagName "=") ⟨builder, .echo []⟩
  | endName (builder) : Transition ⟨builder, .tagName⟩ (.tagName "end") ⟨builder, .endClose⟩
  | counter (builder name) :
      Transition ⟨builder, .loopVariable⟩ (.ident name) ⟨builder, .loopStart name⟩
  | start (builder counter start) (hbound : start.isBound = true) :
      Transition ⟨builder, .loopStart counter⟩ start.token ⟨builder, .loopStop counter start⟩
  | stop (builder counter start stop) (hbound : stop.isBound = true) :
      Transition ⟨builder, .loopStop counter start⟩ stop.token
        ⟨builder, .loopStep counter start stop⟩
  | step (builder counter start stop step) (hbound : step.isBound = true) :
      Transition ⟨builder, .loopStep counter start stop⟩ step.token
        ⟨builder, .loopClose ⟨counter, start, stop, some step⟩⟩
  | openShort (builder counter start stop) :
      Transition ⟨builder, .loopStep counter start stop⟩ .tagClose
        ⟨builder.openLoop ⟨counter, start, stop, none⟩, .outside⟩
  | openLong (builder header) :
      Transition ⟨builder, .loopClose header⟩ .tagClose ⟨builder.openLoop header, .outside⟩
  | closeLoop (siblings frame outer) :
      Transition ⟨⟨siblings, frame :: outer⟩, .endClose⟩ .tagClose
        ⟨⟨.forLoop frame.header siblings.reverse :: frame.before, outer⟩, .outside⟩
  | element (builder elements e) :
      Transition ⟨builder, .echo elements⟩ (Element.token e) ⟨builder, .echo (e :: elements)⟩
  | closeEcho (builder elements) (hne : elements ≠ []) :
      Transition ⟨builder, .echo elements⟩ .tagClose
        ⟨builder.append (.echo elements.reverse), .outside⟩

theorem bound_eq_ok_iff {position : BoundPosition} {t : Token} {e : Element} :
    bound position t = .ok e ↔ e.isBound = true ∧ t = e.token := by
  rw [← Element.boundOfToken?_eq_some_iff, bound]
  split
  · rename_i e' h
    simp [h]
  · rename_i h
    simp [h]

theorem bound_bind_eq_ok_iff {position : BoundPosition} {t : Token} {q : Parser}
    {next : Element → Except ParseError Parser} :
    bound position t >>= next = .ok q ↔
      ∃ e, e.isBound = true ∧ t = e.token ∧ next e = .ok q := by
  constructor
  · intro h
    cases hbound : bound position t with
    | error e => simp [hbound, bind, Except.bind] at h
    | ok e =>
        obtain ⟨he, rfl⟩ := bound_eq_ok_iff.mp hbound
        exact ⟨e, he, rfl, by simpa [hbound, bind, Except.bind] using h⟩
  · rintro ⟨e, he, rfl, hnext⟩
    rw [bound_eq_ok_iff.mpr ⟨he, rfl⟩]
    exact hnext

private theorem transition_of_stepTagName {builder : Builder} {t : Token} {q : Parser}
    (h : stepTagName builder t = .ok q) : Transition ⟨builder, .tagName⟩ t q := by
  cases t <;> simp only [stepTagName, reduceCtorEq] at h
  rename_i name
  split at h
  · subst_vars
    cases h
    exact .forName builder
  split at h
  · subst_vars
    cases h
    exact .echoName builder
  split at h
  · subst_vars
    cases h
    exact .endName builder
  · cases h

private theorem transition_of_stepEndClose {builder : Builder} {t : Token} {q : Parser}
    (h : stepEndClose builder t = .ok q) : Transition ⟨builder, .endClose⟩ t q := by
  unfold stepEndClose at h
  split at h
  · rename_i hclose
    subst hclose
    obtain ⟨siblings, enclosing⟩ := builder
    cases enclosing with
    | nil => cases h
    | cons frame outer =>
        cases h
        exact .closeLoop siblings frame outer
  · cases h

private theorem transition_of_stepEcho {builder : Builder} {elements : List Element} {t : Token}
    {q : Parser} (h : stepEcho builder elements t = .ok q) :
    Transition ⟨builder, .echo elements⟩ t q := by
  unfold stepEcho at h
  split at h
  · rename_i hclose
    subst hclose
    split at h
    · cases h
    · rename_i hne
      cases h
      exact .closeEcho builder elements (by simpa using hne)
  · split at h
    · rename_i e he
      cases h
      rw [Element.ofToken?_eq_some_iff.mp he]
      exact .element builder elements e
    · cases h

theorem transition_of_step {p q : Parser} {t : Token} (h : p.step t = .ok q) :
    Transition p t q := by
  obtain ⟨builder, phase⟩ := p
  cases phase with
  | outside =>
      cases t <;> simp only [Parser.step, stepOutside, Except.ok.injEq, reduceCtorEq] at h <;>
        subst h <;> constructor
  | tagName => exact transition_of_stepTagName h
  | loopVariable =>
      cases t <;> simp only [Parser.step, stepLoopVariable, Except.ok.injEq, reduceCtorEq] at h
      subst h
      exact .counter builder _
  | loopStart counter =>
      obtain ⟨e, he, rfl, hq⟩ := bound_bind_eq_ok_iff.mp h
      cases hq
      exact .start builder counter e he
  | loopStop counter start =>
      obtain ⟨e, he, rfl, hq⟩ := bound_bind_eq_ok_iff.mp h
      cases hq
      exact .stop builder counter start e he
  | loopStep counter start stop =>
      simp only [Parser.step, stepLoopStep] at h
      split at h
      · rename_i hclose
        subst hclose
        cases h
        exact .openShort builder counter start stop
      · obtain ⟨e, he, rfl, hq⟩ := bound_bind_eq_ok_iff.mp h
        cases hq
        exact .step builder counter start stop e he
  | loopClose header =>
      simp only [Parser.step] at h
      split at h
      · rename_i hclose
        subst hclose
        cases h
        exact .openLong builder header
      · cases h
  | endClose => exact transition_of_stepEndClose h
  | echo elements => exact transition_of_stepEcho h

theorem step_of_transition {p q : Parser} {t : Token} (h : Transition p t q) :
    p.step t = .ok q := by
  cases h with
  | start builder counter start hbound => exact bound_bind_eq_ok_iff.mpr ⟨start, hbound, rfl, rfl⟩
  | stop builder counter start stop hbound =>
      exact bound_bind_eq_ok_iff.mpr ⟨stop, hbound, rfl, rfl⟩
  | step builder counter start stop step hbound =>
      have hclose : step.token ≠ .tagClose := by cases step <;> simp [Element.token]
      simp only [Parser.step, stepLoopStep, hclose, if_false]
      exact bound_bind_eq_ok_iff.mpr ⟨step, hbound, rfl, rfl⟩
  | element builder elements e =>
      have hclose : e.token ≠ .tagClose := by cases e <;> simp [Element.token]
      simp [Parser.step, stepEcho, hclose]
  | closeEcho builder elements hne => simp [Parser.step, stepEcho, hne]
  | _ => rfl

theorem step_eq_ok_iff {p q : Parser} {t : Token} : p.step t = .ok q ↔ Transition p t q :=
  ⟨transition_of_step, step_of_transition⟩

/-! ## Accepted token lists -/

inductive Accepts : Parser → List Token → Parser → Prop
  | refl (p : Parser) : Accepts p [] p
  | next {p mid q : Parser} {t : Token} {tokens : List Token} (first : Transition p t mid)
      (rest : Accepts mid tokens q) : Accepts p (t :: tokens) q

theorem Accepts.trans {p mid q : Parser} {tokens tokens' : List Token}
    (h : Accepts p tokens mid) (h' : Accepts mid tokens' q) : Accepts p (tokens ++ tokens') q := by
  induction h with
  | refl => exact h'
  | next first _ ih => exact .next first (ih h')

theorem accepts_nil_iff {p q : Parser} : Accepts p [] q ↔ p = q := by
  constructor
  · rintro ⟨⟩
    rfl
  · rintro rfl
    exact .refl p

theorem accepts_cons_iff {p q : Parser} {t : Token} {tokens : List Token} :
    Accepts p (t :: tokens) q ↔ ∃ mid, Transition p t mid ∧ Accepts mid tokens q := by
  constructor
  · rintro (_ | ⟨first, rest⟩)
    exact ⟨_, first, rest⟩
  · rintro ⟨mid, first, rest⟩
    exact .next first rest

theorem accepts_elements (builder : Builder) (read elements : List Element) :
    Accepts ⟨builder, .echo read⟩ (elements.map Element.token)
      ⟨builder, .echo (elements.reverse ++ read)⟩ := by
  induction elements generalizing read with
  | nil => exact .refl _
  | cons e elements ih =>
      refine .next (.element builder read e) ?_
      simpa using ih (e :: read)

theorem accepts_echo (builder : Builder) {elements : List Element} (hne : elements ≠ []) :
    Accepts ⟨builder, .outside⟩ (Node.echo elements).tokens
      ⟨builder.append (.echo elements), .outside⟩ := by
  have hclose := Transition.closeEcho builder elements.reverse (by simpa using hne)
  rw [List.reverse_reverse] at hclose
  have helements := accepts_elements builder [] elements
  rw [List.append_nil] at helements
  exact .next (.tagOpen builder) (.next (.echoName builder)
    (helements.trans (.next hclose (.refl _))))

theorem accepts_header (builder : Builder) {header : LoopHeader}
    (hbounds : ∀ e ∈ header.bounds, e.isBound = true) :
    Accepts ⟨builder, .outside⟩ header.tokens ⟨builder.openLoop header, .outside⟩ := by
  obtain ⟨counter, start, stop, step⟩ := header
  have hstart : start.isBound = true := hbounds start (by simp [LoopHeader.bounds])
  have hstop : stop.isBound = true := hbounds stop (by simp [LoopHeader.bounds])
  refine .next (.tagOpen builder) (.next (.forName builder) (.next (.counter builder counter)
    (.next (.start builder counter start hstart) (.next (.stop builder counter start stop hstop)
      ?_))))
  cases step with
  | none => exact .next (.openShort builder counter start stop) (.refl _)
  | some step =>
      have hstep : step.isBound = true := hbounds step (by simp [LoopHeader.bounds])
      exact .next (.step builder counter start stop step hstep)
        (.next (.openLong builder ⟨counter, start, stop, some step⟩) (.refl _))

theorem accepts_end (siblings : List Node) (frame : Frame) (outer : List Frame) :
    Accepts ⟨⟨siblings, frame :: outer⟩, .outside⟩ [.tagOpen, .tagName "end", .tagClose]
      ⟨⟨.forLoop frame.header siblings.reverse :: frame.before, outer⟩, .outside⟩ :=
  .next (.tagOpen _) (.next (.endName _) (.next (.closeLoop siblings frame outer) (.refl _)))

theorem accepts_tokensAll {nodes : List Node} (h : ∀ node ∈ nodes, node.Grammatical)
    (siblings : List Node) (enclosing : List Frame) :
    Accepts ⟨⟨siblings, enclosing⟩, .outside⟩ (Node.tokensAll nodes)
      ⟨⟨nodes.reverse ++ siblings, enclosing⟩, .outside⟩ := by
  induction nodes using Node.listInduction generalizing siblings enclosing with
  | nil => exact .refl _
  | text content rest ih =>
      rw [List.forall_mem_cons] at h
      have htext := Transition.text ⟨siblings, enclosing⟩ content
      refine .next htext ?_
      simpa [Builder.append] using ih h.2 (.text content :: siblings) enclosing
  | echo elements rest ih =>
      rw [List.forall_mem_cons] at h
      have hne : elements ≠ [] := by simpa [Node.isGrammatical] using h.1.1
      refine (accepts_echo ⟨siblings, enclosing⟩ hne).trans ?_
      simpa [Builder.append] using ih h.2 (.echo elements :: siblings) enclosing
  | forLoop header body rest ihBody ihRest =>
      rw [List.forall_mem_cons, Node.grammatical_forLoop_iff] at h
      have hheader := accepts_header ⟨siblings, enclosing⟩ h.1.1
      have hbody := ihBody h.1.2 [] (⟨header, siblings⟩ :: enclosing)
      have hend := accepts_end (body.reverse ++ []) ⟨header, siblings⟩ enclosing
      have hrest := ihRest h.2 (.forLoop header body :: siblings) enclosing
      simp only [List.append_nil, List.reverse_reverse] at hbody hend
      have hall := ((hheader.trans hbody).trans hend).trans hrest
      simpa [Node.tokensAll, Node.tokens] using hall

end Parser

/-! ## Consumed tokens -/

def Frame.tokens (frame : Frame) : List Token :=
  Node.tokensAll frame.before.reverse ++ frame.header.tokens

def Builder.tokens (builder : Builder) : List Token :=
  builder.enclosing.reverse.flatMap Frame.tokens ++ Node.tokensAll builder.siblings.reverse

def Phase.tokens : Phase → List Token
  | .outside => []
  | .tagName => [.tagOpen]
  | .loopVariable => [.tagOpen, .tagName "for"]
  | .loopStart counter => [.tagOpen, .tagName "for", .ident counter]
  | .loopStop counter start => [.tagOpen, .tagName "for", .ident counter, start.token]
  | .loopStep counter start stop =>
      [.tagOpen, .tagName "for", .ident counter, start.token, stop.token]
  | .loopClose header =>
      .tagOpen :: .tagName "for" :: .ident header.counter :: header.bounds.map Element.token
  | .endClose => [.tagOpen, .tagName "end"]
  | .echo elements => .tagOpen :: .tagName "=" :: elements.reverse.map Element.token

def Phase.bounds : Phase → List Element
  | .loopStop _ start => [start]
  | .loopStep _ start stop => [start, stop]
  | .loopClose header => header.bounds
  | _ => []

namespace Parser

def tokens (p : Parser) : List Token := p.builder.tokens ++ p.phase.tokens

/-- All that a state of the parser holds is grammatical. -/
structure Sound (p : Parser) : Prop where
  siblings : ∀ node ∈ p.builder.siblings, node.Grammatical
  before : ∀ frame ∈ p.builder.enclosing, ∀ node ∈ frame.before, node.Grammatical
  headers : ∀ frame ∈ p.builder.enclosing, ∀ e ∈ frame.header.bounds, e.isBound = true
  phase : ∀ e ∈ p.phase.bounds, e.isBound = true

theorem tokens_transition {p q : Parser} {t : Token} (h : Transition p t q) (hne : t ≠ .eof) :
    q.tokens = p.tokens ++ [t] := by
  cases h with
  | eof builder => contradiction
  | _ =>
      simp [tokens, Builder.tokens, Phase.tokens, Builder.append, Builder.openLoop, Frame.tokens,
        LoopHeader.tokens, LoopHeader.bounds, Node.tokensAll, Node.tokens]

theorem Sound.transition {p q : Parser} {t : Token} (hp : p.Sound) (h : Transition p t q) :
    q.Sound := by
  obtain ⟨hsiblings, hbefore, hheaders, hphase⟩ := hp
  cases h with
  | text builder content =>
      exact ⟨List.forall_mem_cons.mpr ⟨⟨rfl, by simp [Node.levels]⟩, hsiblings⟩, hbefore, hheaders,
        hphase⟩
  | start builder counter start hbound =>
      exact ⟨hsiblings, hbefore, hheaders, by simpa [Phase.bounds] using hbound⟩
  | stop builder counter start stop hbound =>
      exact ⟨hsiblings, hbefore, hheaders, by simpa [Phase.bounds, hbound] using hphase⟩
  | step builder counter start stop step hbound =>
      refine ⟨hsiblings, hbefore, hheaders, ?_⟩
      simpa [Phase.bounds, LoopHeader.bounds, hbound] using hphase
  | openShort builder counter start stop =>
      refine ⟨by simp [Builder.openLoop], List.forall_mem_cons.mpr ⟨hsiblings, hbefore⟩,
        List.forall_mem_cons.mpr ⟨?_, hheaders⟩, by simp [Phase.bounds]⟩
      simpa [Phase.bounds, LoopHeader.bounds] using hphase
  | openLong builder header =>
      exact ⟨by simp [Builder.openLoop], List.forall_mem_cons.mpr ⟨hsiblings, hbefore⟩,
        List.forall_mem_cons.mpr ⟨hphase, hheaders⟩, by simp [Phase.bounds]⟩
  | closeLoop siblings frame outer =>
      rw [List.forall_mem_cons] at hbefore hheaders
      refine ⟨List.forall_mem_cons.mpr ⟨?_, hbefore.1⟩, hbefore.2, hheaders.2,
        by simp [Phase.bounds]⟩
      rw [Node.grammatical_forLoop_iff]
      exact ⟨hheaders.1, by simpa using hsiblings⟩
  | closeEcho builder elements hne =>
      refine ⟨List.forall_mem_cons.mpr ⟨⟨?_, by simp [Node.levels]⟩, hsiblings⟩, hbefore, hheaders,
        by simp [Phase.bounds]⟩
      simpa [Node.isGrammatical] using hne
  | _ => exact ⟨hsiblings, hbefore, hheaders, by simp [Phase.bounds]⟩

theorem Accepts.sound {p q : Parser} {tokens : List Token} (h : Accepts p tokens q)
    (hp : p.Sound) : q.Sound := by
  induction h with
  | refl => exact hp
  | next first _ ih => exact ih (hp.transition first)

theorem Accepts.tokens_eq {p q : Parser} {tokens : List Token} (h : Accepts p tokens q)
    (heof : .eof ∉ tokens) : q.tokens = p.tokens ++ tokens := by
  induction h with
  | refl => simp
  | next first _ ih =>
      rw [List.mem_cons, not_or] at heof
      rw [ih heof.2, tokens_transition first (Ne.symm heof.1)]
      simp

theorem sound_initial : initial.Sound :=
  ⟨by simp [initial, Builder.empty], by simp [initial, Builder.empty],
    by simp [initial, Builder.empty], by simp [initial, Phase.bounds]⟩

def finished (d : Document) : Parser := ⟨⟨d.children.reverse, []⟩, .outside⟩

theorem accepts_document_iff {d : Document} {tokens : List Token} (heof : .eof ∉ tokens) :
    Accepts initial tokens (finished d) ↔ tokens = d.tokens ∧ d.IsGrammatical := by
  constructor
  · intro h
    have htokens := h.tokens_eq heof
    have hsound := h.sound sound_initial
    refine ⟨?_, Document.isGrammatical_iff.mpr ?_⟩
    · simpa [Parser.tokens, finished, initial, Builder.tokens, Builder.empty, Phase.tokens,
        Node.tokensAll, Document.tokens] using htokens.symm
    · intro node hnode
      exact hsound.siblings node (by simpa [finished] using hnode)
  · rintro ⟨rfl, hgrammatical⟩
    have h := accepts_tokensAll (Document.isGrammatical_iff.mp hgrammatical) [] []
    simpa [finished, initial, Builder.empty, Document.tokens] using h

/-! ## Driving the lexer -/

theorem mode_transition {p q : Parser} {t : Token} (h : Transition p t q) :
    q.phase.mode = Lexer.modeAfter p.phase.mode t := by
  cases h with
  | start _ _ e _ => cases e <;> rfl
  | stop _ _ _ e _ => cases e <;> rfl
  | step _ _ _ _ e _ => cases e <;> rfl
  | element _ _ e => cases e <;> rfl
  | _ => rfl

theorem Accepts.mode_eq {p q : Parser} {tokens : List Token} (h : Accepts p tokens q) :
    q.phase.mode = tokens.foldl Lexer.modeAfter p.phase.mode := by
  induction h with
  | refl => rfl
  | next first _ ih => rw [ih, mode_transition first, List.foldl_cons]

theorem transition_eof_iff {p q : Parser} :
    Transition p .eof q ↔ p.phase = .outside ∧ q = p := by
  constructor
  · intro h
    generalize ht : Token.eof = t at h
    cases h with
    | eof => exact ⟨rfl, rfl⟩
    | start _ _ e _ => cases e <;> cases ht
    | stop _ _ _ e _ => cases e <;> cases ht
    | step _ _ _ _ e _ => cases e <;> cases ht
    | element _ _ e => cases e <;> cases ht
    | _ => cases ht
  · obtain ⟨builder, phase⟩ := p
    rintro ⟨rfl, rfl⟩
    exact .eof builder

theorem finish_eq_ok_iff {p : Parser} {d : Document} (hphase : p.phase = .outside) :
    p.finish = .ok d ↔ p = finished d := by
  obtain ⟨⟨siblings, enclosing⟩, phase⟩ := p
  subst hphase
  cases enclosing with
  | nil =>
      cases d with
      | mk children => simp [finish, finished, List.reverse_eq_iff]
  | cons frame outer => simp [finish, finished]

theorem drive_of_error {p : Parser} {lexer after : Lexer} {e : LexError}
    (h : lexer.next = (.error e, after)) : p.drive lexer = .error (.lex e) := by
  rw [drive]
  split
  · rename_i h'
    rw [h] at h'
    cases h'
    rfl
  · rename_i h'
    rw [h] at h'
    cases h'

theorem drive_of_ok {p : Parser} {lexer after : Lexer} {t : Token}
    (h : lexer.next = (.ok t, after)) :
    p.drive lexer =
      p.step t >>= fun q =>
        if t = .eof then q.finish else q.drive (after.setMode q.phase.mode) := by
  rw [drive]
  split
  · rename_i h'
    rw [h] at h'
    cases h'
  · rename_i h'
    rw [h] at h'
    cases h'
    cases p.step t with
    | error e => rfl
    | ok q => simp [bind, Except.bind]

theorem drive_of_eof_eq_ok_iff {p : Parser} {lexer after : Lexer} {d : Document}
    (h : lexer.next = (.ok .eof, after)) : p.drive lexer = .ok d ↔ p = finished d := by
  rw [drive_of_ok h]
  constructor
  · intro hdrive
    cases hstep : p.step .eof with
    | error e => simp [hstep, bind, Except.bind] at hdrive
    | ok q =>
        obtain ⟨hphase, rfl⟩ := transition_eof_iff.mp (step_eq_ok_iff.mp hstep)
        refine (finish_eq_ok_iff hphase).mp ?_
        simpa [hstep, bind, Except.bind] using hdrive
  · rintro rfl
    have hstep : (finished d).step .eof = .ok (finished d) := rfl
    rw [hstep]
    exact (finish_eq_ok_iff rfl).mpr rfl

def steps (p : Parser) (tokens : List Token) : Except ParseError Parser := tokens.foldlM step p

theorem steps_cons (p : Parser) (t : Token) (tokens : List Token) :
    p.steps (t :: tokens) = p.step t >>= fun q => q.steps tokens :=
  List.foldlM_cons

theorem steps_eq_ok_iff {p q : Parser} {tokens : List Token} :
    p.steps tokens = .ok q ↔ Accepts p tokens q := by
  induction tokens generalizing p with
  | nil =>
      rw [accepts_nil_iff]
      constructor
      · rintro ⟨⟩
        rfl
      · rintro rfl
        rfl
  | cons t tokens ih =>
      rw [steps_cons, accepts_cons_iff]
      constructor
      · intro h
        cases hstep : p.step t with
        | error e =>
            rw [hstep] at h
            cases h
        | ok mid =>
            rw [hstep] at h
            exact ⟨mid, step_eq_ok_iff.mp hstep, ih.mp h⟩
      · rintro ⟨mid, hstep, haccepts⟩
        rw [step_eq_ok_iff.mpr hstep]
        exact ih.mpr haccepts

/--
The parser takes the tokens of a run, whatever becomes of them: its phase and the delimiters ask
for the same modes all along.
-/
theorem drive_eq_steps {p : Parser} {lexer final : Lexer} {tokens : List Token}
    (hrun : lexer.Run tokens final) (hmode : lexer.mode = p.phase.mode) :
    p.drive lexer = p.steps tokens >>= fun q => q.drive final := by
  induction hrun generalizing p with
  | refl lexer => rfl
  | @next lexer after final t tokens hnext hne _ ih =>
      rw [drive_of_ok hnext, steps_cons]
      cases hstep : p.step t with
      | error e => rfl
      | ok q =>
          have hresume : after.setMode q.phase.mode = after.resume t := by
            rw [Lexer.resume, Lexer.mode_next hnext, hmode,
              mode_transition (transition_of_step hstep)]
          have hq : (after.resume t).mode = q.phase.mode := by
            rw [← hresume, Lexer.mode_setMode]
          have hdrive := ih hq
          simpa [bind, Except.bind, hne, hresume] using hdrive

theorem drive_run_iff {p : Parser} {lexer final : Lexer} {tokens : List Token} {d : Document}
    (hrun : lexer.Run tokens final) (hmode : lexer.mode = p.phase.mode) :
    p.drive lexer = .ok d ↔ ∃ q, Accepts p tokens q ∧ q.drive final = .ok d := by
  rw [drive_eq_steps hrun hmode]
  constructor
  · intro hdrive
    cases hsteps : p.steps tokens with
    | error e =>
        rw [hsteps] at hdrive
        cases hdrive
    | ok q =>
        rw [hsteps] at hdrive
        exact ⟨q, steps_eq_ok_iff.mp hsteps, hdrive⟩
  · rintro ⟨q, haccepts, hdrive⟩
    rw [steps_eq_ok_iff.mpr haccepts]
    exact hdrive

end Parser

/-! ## Parsing -/

theorem Document.parse_eq_ok_iff_accepts {source : String} {d : Document} :
    Document.parse source = .ok d ↔
      ∃ body final after, (Lexer.ofSource source).Run body final ∧
        final.next = (.ok .eof, after) ∧ Parser.initial.Accepts body (Parser.finished d) := by
  constructor
  · intro h
    obtain ⟨body, final, after, hrun, hstop⟩ := (Lexer.ofSource source).exists_run
    obtain ⟨q, haccepts, hdrive⟩ := (Parser.drive_run_iff hrun rfl).mp h
    rcases hstop with hnext | ⟨e, hnext⟩
    · obtain rfl := (Parser.drive_of_eof_eq_ok_iff hnext).mp hdrive
      exact ⟨body, final, after, hrun, hnext, haccepts⟩
    · rw [Parser.drive_of_error hnext] at hdrive
      cases hdrive
  · rintro ⟨body, final, after, hrun, hnext, haccepts⟩
    refine (Parser.drive_run_iff hrun rfl).mpr ⟨_, haccepts, ?_⟩
    exact (Parser.drive_of_eof_eq_ok_iff hnext).mpr rfl

theorem Document.parse_eq_ok_iff_run {source : String} {d : Document} :
    Document.parse source = .ok d ↔
      (∃ final after, (Lexer.ofSource source).Run d.tokens final ∧
        final.next = (.ok .eof, after)) ∧ d.IsGrammatical := by
  rw [Document.parse_eq_ok_iff_accepts]
  constructor
  · rintro ⟨body, final, after, hrun, hnext, haccepts⟩
    obtain ⟨rfl, hgrammatical⟩ := (Parser.accepts_document_iff hrun.eof_not_mem).mp haccepts
    exact ⟨⟨final, after, hrun, hnext⟩, hgrammatical⟩
  · rintro ⟨⟨final, after, hrun, hnext⟩, hgrammatical⟩
    refine ⟨d.tokens, final, after, hrun, hnext, ?_⟩
    exact (Parser.accepts_document_iff hrun.eof_not_mem).mpr ⟨rfl, hgrammatical⟩

/--
A source parses to a document exactly if its tokens are those of the document, with the end of
the input behind them, and the document is grammatical.
-/
theorem Document.parse_eq_ok_iff_tokenize (source : String) (d : Document) :
    Document.parse source = .ok d ↔
      tokenize source = .ok (d.tokens ++ [.eof]) ∧ d.IsGrammatical := by
  rw [Document.parse_eq_ok_iff_run, tokenize_eq_ok_iff, and_congr_left_iff]
  intro _
  constructor
  · rintro ⟨final, after, hrun, hnext⟩
    exact ⟨d.tokens, final, after, rfl, hrun, hnext⟩
  · rintro ⟨body, final, after, htokens, hrun, hnext⟩
    obtain rfl : d.tokens = body := List.append_cancel_right htokens
    exact ⟨final, after, hrun, hnext⟩

end TagTemplate
