import TagTemplate.Proofs.Document.RoundTrip
import TagTemplate.Proofs.Token.Driving

/-!
Sources one behind the other.

What follows a source changes how it is read only at its very end: a run that stops outside of all
tags is repeated in front of any tail, unless a text goes on there (`Lexer.Run.leads_append`).  So
two sources that parse can be put together, and the nodes of the whole are those of the parts, with
a text at the end of the first joined to a text at the start of the second.
-/

namespace TagTemplate

/-! ## Longer rests -/

theorem startsWith_append_eq_false {p : Char → Bool} {rest : List Char}
    (h : startsWith p rest = false) (hne : rest ≠ []) (tail : List Char) :
    startsWith p (rest ++ tail) = false := by
  cases rest with
  | nil => contradiction
  | cons c rest => exact h

theorem startsFraction_append_eq_false {rest : List Char} (hne : rest ≠ [])
    (hpoint : rest.head? ≠ some '.') (tail : List Char) :
    startsFraction (rest ++ tail) = false := by
  cases rest with
  | nil => contradiction
  | cons c rest =>
      unfold startsFraction
      split
      · next hcons =>
          cases hcons
          simp at hpoint
      · rfl

theorem Token.EndsBefore.append {token : Token} {rest : List Char} (h : token.EndsBefore rest)
    (hne : rest ≠ []) (hpoint : ∀ value, token = .int value → rest.head? ≠ some '.')
    (tail : List Char) : token.EndsBefore (rest ++ tail) := by
  cases token with
  | text content =>
      rcases h with hnil | hopen
      · contradiction
      · exact .inr (opensTag_append hopen tail)
  | tagName name => exact h.imp_right fun hname => startsWith_append_eq_false hname hne tail
  | ident name => exact startsWith_append_eq_false h hne tail
  | function name => exact startsWith_append_eq_false h hne tail
  | int value =>
      exact ⟨startsWith_append_eq_false h.1 hne tail,
        startsFraction_append_eq_false hne (hpoint value rfl) tail⟩
  | real value => exact startsWith_append_eq_false h hne tail
  | operator op => exact fun hop => startsWith_append_eq_false (h hop) hne tail
  | _ => trivial

theorem Token.endsBefore_nil (token : Token) : token.EndsBefore [] := by
  cases token with
  | text content => exact .inl rfl
  | tagName name => exact .inr rfl
  | int value => exact ⟨rfl, rfl⟩
  | operator op => exact fun _ => rfl
  | ident name => rfl
  | function name => rfl
  | real value => rfl
  | _ => trivial

theorem TagLexeme.head?_ne_point {token : Token} {source : List Char}
    (h : TagLexeme token source) : source.head? ≠ some '.' := by
  intro hhead
  obtain ⟨c, tail, hsource, -, hscan⟩ := scansTag_of_tagLexeme h token.endsBefore_nil
  rw [List.append_nil] at hsource
  rw [hsource] at hhead
  cases hhead
  -- a tag body cannot be scanned from a point
  obtain ⟨offset, hfails⟩ := hscan 0
  have hletter : Text.isAlphabetic '.' = false := by decide
  simp [scanTagBody, closesTag, startsNumeral, startsWith, hletter, Operator.ofChar?] at hfails

namespace Lexeme

variable {place : Place} {token : Token} {source : List Char}

theorem ne_nil (h : Lexeme place token source) : source ≠ [] := by
  cases h with
  | text h hne => exact h.ne_nil hne
  | tagOpen => simp
  | tagStart _ h => simp [h.ne_nil]
  | tag _ h => simp [h.ne_nil]

theorem head?_ne_point (h : Lexeme .tag token source) : source.head? ≠ some '.' := by
  cases h with
  | @tag blanks _ _ hblanks h =>
      cases blanks with
      | nil => exact h.head?_ne_point
      | cons c blanks =>
          rintro ⟨⟩
          exact absurd (hblanks '.' (by simp)) (by decide)

theorem after_int {value : Int32} (h : Lexeme place (.int value) source) :
    place.after (.int value) = .tag := by
  cases h <;> rfl

/-- Only a text and the end of a tag are followed by text. -/
theorem isText_or_eq_tagClose (h : Lexeme place token source) (hafter : place.after token = .text) :
    token.isText = true ∨ token = .tagClose := by
  cases h with
  | text => exact .inl rfl
  | tagOpen => cases hafter
  | tagStart => cases token <;> simp_all [Place.after]
  | tag => cases token <;> simp_all [Place.after]

theorem spelling_of_text {content : String} (h : Lexeme place (.text content) source) :
    TextSpelling source content.toList ∧ content.toList ≠ [] := by
  cases h with
  | text h hne =>
      rw [String.toList_ofList]
      exact ⟨h, hne⟩
  | tagStart _ h => exact absurd h.isShaped.2 (by simp [Token.isText])
  | tag _ h => exact absurd h.isShaped.2 (by simp [Token.isText])

theorem text_append {place' : Place} {source' : List Char} {content content' : String}
    (h : Lexeme place (.text content) source) (h' : Lexeme place' (.text content') source')
    (hseam : ¬(source.getLast? = some '{' ∧ source'.head? = some '$')) :
    Lexeme .text (.text (content ++ content')) (source ++ source') := by
  obtain ⟨hspelling, hne⟩ := h.spelling_of_text
  obtain ⟨hspelling', -⟩ := h'.spelling_of_text
  have hlexeme := Lexeme.text (hspelling.append hspelling' hseam) (by simp [hne])
  rwa [String.ofList_append, String.ofList_toList, String.ofList_toList] at hlexeme

end Lexeme

/-! ## Repeating a run -/

namespace Lexer

theorem Run.endsBefore_append {lexer after final : Lexer} {token : Token} {tokens : List Token}
    (hnext : lexer.next = (.ok token, after)) (hne : token ≠ .eof)
    (hrun : (after.resume token).Run tokens final) (hfinal : final.mode = .text)
    {tail : List Char} (hends : ∀ content, (token :: tokens).getLast? = some (.text content) →
      EndsText (final.cursor.rest ++ tail)) : token.EndsBefore (after.cursor.rest ++ tail) := by
  obtain ⟨source, -, hlexeme, hbefore⟩ := lexeme_of_next hnext hne
  have hplace := place_of_next hnext hne
  cases hrun with
  | refl =>
      -- the last token: a text, or the end of a tag, which nothing can continue
      rw [place_eq_text_iff.mpr hfinal] at hplace
      rcases hlexeme.isText_or_eq_tagClose hplace.symm with htext | rfl
      · cases token with
        | text content => exact hends content rfl
        | _ => contradiction
      · trivial
  | next hnext' hne' _ =>
      -- the next lexeme stands between the token and the tail
      obtain ⟨source', hsource', hlexeme', -⟩ := lexeme_of_next hnext' hne'
      have hrest : after.cursor.rest = source' ++ _ := hsource'
      refine hbefore.append ?_ ?_ tail
      · rw [hrest]
        simp [hlexeme'.ne_nil]
      · rintro value rfl
        rw [hplace, hlexeme.after_int] at hlexeme'
        rw [hrest, List.head?_append_of_ne_nil _ hlexeme'.ne_nil]
        exact hlexeme'.head?_ne_point

/-- A run that stops outside of tags is repeated in front of a tail that does not go on a text. -/
theorem Run.leads_append {lexer final : Lexer} {tokens : List Token} (h : lexer.Run tokens final)
    (hfinal : final.mode = .text) {tail : List Char}
    (hends : ∀ content, tokens.getLast? = some (.text content) →
      EndsText (final.cursor.rest ++ tail)) :
    Leads lexer.place (lexer.cursor.rest ++ tail) tokens .text (final.cursor.rest ++ tail) := by
  induction h with
  | refl lexer =>
      rw [place_eq_text_iff.mpr hfinal]
      exact .refl _ _
  | @next lexer after final token tokens hnext hne hrun ih =>
      obtain ⟨source, hsource, hlexeme, -⟩ := lexeme_of_next hnext hne
      have hstep := hrun.endsBefore_append hnext hne hfinal hends
      have hrest := ih hfinal fun content hlast =>
        hends content (by rw [List.getLast?_cons, hlast]; rfl)
      rw [place_of_next hnext hne] at hrest
      rw [hsource, List.append_assoc]
      exact (leads_of_lexeme hlexeme hstep).trans hrest

/-- What does not start with a text ends the text before it. -/
theorem Run.endsText {lexer final : Lexer} {tokens : List Token} (h : lexer.Run tokens final)
    (hplace : lexer.place = .text) (hfinal : final.cursor.rest = [])
    (hfirst : ∀ content, tokens.head? ≠ some (.text content)) : EndsText lexer.cursor.rest := by
  cases h with
  | refl => exact .inl hfinal
  | next hnext hne _ =>
      obtain ⟨source, hsource, hlexeme, -⟩ := lexeme_of_next hnext hne
      rw [hplace] at hlexeme
      cases hlexeme with
      | text => exact absurd rfl (hfirst _)
      | tagOpen =>
          rw [hsource]
          exact .inr rfl

/-- A run to the end of the input is repeated from any lexer that stands where it started. -/
theorem Run.leads {lexer final : Lexer} {tokens : List Token} (h : lexer.Run tokens final)
    (hfinal : final.Stands [] .text) : Leads lexer.place lexer.cursor.rest tokens .text [] := by
  have hleads := @Run.leads_append _ _ _ h (place_eq_text_iff.mp hfinal.1) []
    fun _ _ => .inl (by rw [hfinal.2]; rfl)
  rwa [List.append_nil, List.append_nil, hfinal.2] at hleads

/-- A text at the end of one source is joined to a text at the start of another. -/
theorem Run.leads_joined {lexer lexer' final final' : Lexer} {front rest : List Token}
    {content content' : String} (hrun : lexer.Run (front ++ [.text content]) final)
    (hfinal : final.Stands [] .text) (hrun' : lexer'.Run (.text content' :: rest) final')
    (hfinal' : final'.Stands [] .text)
    (hseam : ¬(lexer.cursor.rest.getLast? = some '{' ∧ lexer'.cursor.rest.head? = some '$')) :
    Leads lexer.place (lexer.cursor.rest ++ lexer'.cursor.rest)
      (front ++ .text (content ++ content') :: rest) .text [] := by
  have hapart := List.isChain_append.mp hrun.textsApart
  obtain ⟨mid, hfront, hlast⟩ := hrun.split
  obtain ⟨before, hbefore, -⟩ := hfront.moves
  obtain ⟨after, hnext, hne, hdone⟩ := hlast.exists_next
  cases hdone
  obtain ⟨after', hnext', hne', hrest⟩ := hrun'.exists_next
  obtain ⟨source, hsource, hlexeme, -⟩ := lexeme_of_next hnext hne
  obtain ⟨source', hsource', hlexeme', hends'⟩ := lexeme_of_next hnext' hne'
  have hnil : after.cursor.rest = [] := hfinal.2
  rw [hnil, List.append_nil] at hsource
  have hapart' : ¬(source.getLast? = some '{' ∧ source'.head? = some '$') := by
    rintro ⟨hbrace, hdollar⟩
    refine hseam ⟨?_, ?_⟩
    · rw [hbefore, hsource, List.getLast?_append_of_ne_nil _ hlexeme.ne_nil, hbrace]
    · rw [hsource', List.head?_append_of_ne_nil _ hlexeme'.ne_nil, hdollar]
  have hfirst : Leads lexer.place (lexer.cursor.rest ++ lexer'.cursor.rest) front .text
      (source ++ source' ++ after'.cursor.rest) := by
    have hmid := place_eq_text_iff.mp (hlexeme.place_of_isText rfl)
    rw [List.append_assoc, ← hsource', ← hsource]
    exact hfront.leads_append hmid fun _ htext => absurd ⟨rfl, rfl⟩ (hapart.2.2 _ htext _ rfl)
  have hlast := hrest.leads hfinal'
  rw [place_of_next hnext' hne', hlexeme'.place_of_isText rfl] at hlast
  have hjoined := leads_of_lexeme (hlexeme.text_append hlexeme' hapart') hends'
  exact hfirst.trans (hjoined.trans hlast)

end Lexer

/-! ## Documents -/

/-- The nodes of `left` and then those of `right`; two texts that meet are joined. -/
def Node.appendJoined (left right : List Node) : List Node :=
  match left.getLast?, right with
  | some (.text content), .text next :: rest => left.dropLast ++ .text (content ++ next) :: rest
  | _, _ => left ++ right

theorem Node.eq_text_of_getLast?_tokensAll {nodes : List Node} {content : String}
    (h : (Node.tokensAll nodes).getLast? = some (.text content)) :
    nodes.getLast? = some (.text content) := by
  rcases List.eq_nil_or_concat nodes with rfl | ⟨front, node, rfl⟩
  · cases h
  · rw [List.concat_eq_append, Node.tokensAll_append] at h
    cases node with
    | text content' => simpa [Node.tokensAll, Node.tokens] using h
    | echo elements =>
        rw [Node.tokensAll, Node.tokensAll, List.append_nil, Node.tokens, ← List.append_assoc,
          List.getLast?_concat] at h
        cases h
    | forLoop header body => simp [Node.tokensAll, Node.tokens] at h

theorem Node.eq_text_of_head?_tokensAll {nodes : List Node} {content : String}
    (h : (Node.tokensAll nodes).head? = some (.text content)) :
    ∃ rest, nodes = .text content :: rest := by
  cases nodes with
  | nil => cases h
  | cons node rest =>
      cases node with
      | text content' =>
          cases h
          exact ⟨rest, rfl⟩
      | echo elements => simp [Node.tokensAll, Node.tokens] at h
      | forLoop header body => simp [Node.tokensAll, Node.tokens, LoopHeader.tokens] at h

theorem Node.grammatical_appendJoined {left right : List Node}
    (hleft : ∀ node ∈ left, node.Grammatical) (hright : ∀ node ∈ right, node.Grammatical) :
    ∀ node ∈ Node.appendJoined left right, node.Grammatical := by
  unfold appendJoined
  split
  · next content next rest _ =>
      rw [List.forall_mem_append, List.forall_mem_cons]
      rw [List.forall_mem_cons] at hright
      exact ⟨fun node hnode => hleft node (List.dropLast_subset left hnode),
        ⟨rfl, by simp [Node.levels]⟩, hright.2⟩
  · exact List.forall_mem_append.mpr ⟨hleft, hright⟩

namespace Document

theorem run_of_parse {source : String} {d : Document} (h : Document.parse source = .ok d) :
    ∃ final, (Lexer.ofSource source).Run d.tokens final ∧ final.Stands [] .text := by
  obtain ⟨body, final, after, hrun, hnext, haccepts⟩ := parse_eq_ok_iff_accepts.mp h
  have hmode : final.mode = .text := by
    rw [hrun.mode_eq]
    exact haccepts.mode_eq.symm
  obtain ⟨rfl, -⟩ := (Parser.accepts_document_iff hrun.eof_not_mem).mp haccepts
  exact ⟨final, hrun, Lexer.place_eq_text_iff.mpr hmode,
    (Lexer.next_eof_iff hmode).mp ⟨after, hnext⟩⟩

theorem leads_appendJoined {a b : String} {left right : Document}
    (hleft : Document.parse a = .ok left) (hright : Document.parse b = .ok right)
    (hseam : ¬(a.toList.getLast? = some '{' ∧ b.toList.head? = some '$')) :
    Leads .text (a.toList ++ b.toList)
      (Node.tokensAll (Node.appendJoined left.children right.children)) .text [] := by
  obtain ⟨final, hrun, hfinal⟩ := run_of_parse hleft
  obtain ⟨final', hrun', hfinal'⟩ := run_of_parse hright
  unfold Node.appendJoined
  split
  · next content next rest hlast hfirst =>
      have hfront : left.tokens = Node.tokensAll left.children.dropLast ++ [.text content] := by
        rw [Document.tokens, ← List.dropLast_append_getLast? _ hlast, Node.tokensAll_append,
          List.dropLast_concat]
        rfl
      have hback : right.tokens = .text next :: Node.tokensAll rest := by
        rw [Document.tokens, hfirst]
        rfl
      rw [hfront] at hrun
      rw [hback] at hrun'
      rw [Node.tokensAll_append]
      exact hrun.leads_joined hfinal hrun' hfinal' hseam
  · next hapart =>
      rw [Node.tokensAll_append]
      refine Leads.trans ?_ (hrun'.leads hfinal')
      have hleads := @Lexer.Run.leads_append _ _ _ hrun (Lexer.place_eq_text_iff.mp hfinal.1)
        b.toList fun content hlast => ?_
      · rwa [hfinal.2] at hleads
      · rw [hfinal.2, List.nil_append]
        refine hrun'.endsText rfl hfinal'.2 fun next hfirst => ?_
        obtain ⟨rest, hrest⟩ := Node.eq_text_of_head?_tokensAll hfirst
        exact hapart content next rest (Node.eq_text_of_getLast?_tokensAll hlast) hrest

theorem parse_append {a b : String} {left right : Document}
    (hleft : Document.parse a = .ok left) (hright : Document.parse b = .ok right)
    (hseam : ¬(a.toList.getLast? = some '{' ∧ b.toList.head? = some '$')) :
    Document.parse (a ++ b) = .ok ⟨Node.appendJoined left.children right.children⟩ := by
  refine parse_of_leads ?_ (isGrammatical_iff.mpr ?_)
  · rw [String.toList_append]
    exact leads_appendJoined hleft hright hseam
  · exact Node.grammatical_appendJoined
      (isGrammatical_iff.mp (parse_eq_ok_iff_run.mp hleft).2)
      (isGrammatical_iff.mp (parse_eq_ok_iff_run.mp hright).2)

end Document

end TagTemplate
