import TagTemplate.Proofs.Document.Grammar
import TagTemplate.Proofs.Token.Shape
import TagTemplate.Proofs.Token.Spelling

/-!
Printing and parsing.

The source of a canonical document has the tokens of that document, so it parses to the document
itself.  The source of a well-formed document is the one of its canonical form.
-/

namespace TagTemplate

/-! ## Tags -/

theorem forall_blank : ∀ c ∈ [' '], Text.isBlank c = true := List.all_eq_true.mp (by decide)

theorem leads_element {e : Element} (h : e.isSpellable = true) (rest : List Char) :
    Leads .tag (' ' :: (e.spelling ++ ' ' :: rest)) [e.token] .tag (' ' :: rest) := by
  have hleads := leads_of_lexeme (.tag forall_blank (Element.tagLexeme h))
    (e.endsBefore_space rest)
  rwa [show Place.after .tag e.token = .tag by cases e <;> rfl] at hleads

theorem leads_elements {elements : List Element} (h : ∀ e ∈ elements, e.isSpellable = true)
    (rest : List Char) :
    Leads .tag (elementsSpelling elements ++ ' ' :: rest) (elements.map Element.token) .tag
      (' ' :: rest) := by
  induction elements with
  | nil => exact .refl _ _
  | cons e elements ih =>
      rw [List.forall_mem_cons] at h
      have hrest := ih h.2
      cases elements with
      | nil => simpa [elementsSpelling] using leads_element h.1 rest
      | cons next elements =>
          have hfirst := leads_element h.1
            (next.spelling ++ elementsSpelling elements ++ ' ' :: rest)
          have hall := hfirst.trans (by simpa [elementsSpelling] using hrest)
          simpa [elementsSpelling] using hall

theorem leads_space_tagClose (rest : List Char) :
    Leads .tag (' ' :: '$' :: '}' :: rest) [.tagClose] .text rest :=
  leads_of_lexeme (.tag forall_blank .close) trivial

theorem leads_tagClose (rest : List Char) :
    Leads .tag ('$' :: '}' :: rest) [.tagClose] .text rest :=
  leads_of_lexeme (.tag (List.forall_mem_nil _) .close) trivial

theorem leads_tagOpen (rest : List Char) :
    Leads .text ('{' :: '$' :: rest) [.tagOpen] .tagStart rest :=
  leads_of_lexeme .tagOpen trivial

theorem leads_echoName (rest : List Char) :
    Leads .tagStart ('=' :: rest) [.tagName "="] .tag rest :=
  leads_of_lexeme (.tagStart (List.forall_mem_nil _) .echo) (.inl rfl)

theorem leads_forName (rest : List Char) :
    Leads .tagStart (' ' :: 'F' :: 'O' :: 'R' :: ' ' :: rest) [.tagName "for"] .tag
      (' ' :: rest) := by
  have hname : isName "FOR" = true := by decide
  have hstop : startsWith isWordChar (' ' :: rest) = false := show isWordChar ' ' = false by decide
  exact leads_of_lexeme (.tagStart forall_blank (.word hname)) (.inr hstop)

theorem leads_endName (rest : List Char) :
    Leads .tagStart ('E' :: 'N' :: 'D' :: '$' :: rest) [.tagName "end"] .tag ('$' :: rest) := by
  have hname : isName "END" = true := by decide
  have hstop : startsWith isWordChar ('$' :: rest) = false := show isWordChar '$' = false by decide
  exact leads_of_lexeme (.tagStart (List.forall_mem_nil _) (.word hname)) (.inr hstop)

/-! ## Nodes -/

theorem leads_echo {elements : List Element} (h : (Node.echo elements).isWellFormed = true)
    (rest : List Char) :
    Leads .text ((Node.echo elements).spelling ++ rest) (Node.echo elements).tokens .text rest := by
  have hspellable : ∀ e ∈ elements, e.isSpellable = true := by
    simp only [Node.isWellFormed, Node.isSpellable, Bool.and_eq_true, List.all_eq_true] at h
    exact h.2
  have hall := (leads_tagOpen _).trans ((leads_echoName _).trans
    ((leads_elements hspellable ('$' :: '}' :: rest)).trans (leads_space_tagClose rest)))
  simpa [Node.spelling, Node.tokens] using hall

theorem toList_loopOpening :
    "\x7b$ FOR ".toList = ['{', '$', ' ', 'F', 'O', 'R', ' '] := by
  decide

theorem toList_tagClosing : " $\x7d".toList = [' ', '$', '}'] := by
  decide

/-- The counter of a loop is written as if it were its first element. -/
theorem LoopHeader.spelling_eq (header : LoopHeader) :
    header.spelling = '{' :: '$' :: ' ' :: 'F' :: 'O' :: 'R' ::
      (elementsSpelling (.var header.counter :: header.bounds) ++ [' ', '$', '}']) := by
  unfold LoopHeader.spelling
  simp only [toList_loopOpening, toList_tagClosing, elementsSpelling, List.flatMap_cons,
    List.cons_append, List.append_assoc, List.nil_append]
  rw [Element.spelling]

theorem leads_header {header : LoopHeader} (hcounter : isName header.counter = true)
    (hbounds : ∀ e ∈ header.bounds, e.isSpellable = true) (rest : List Char) :
    Leads .text (header.spelling ++ rest) header.tokens .text rest := by
  have hspellable : ∀ e ∈ Element.var header.counter :: header.bounds, e.isSpellable = true :=
    List.forall_mem_cons.mpr ⟨hcounter, hbounds⟩
  have helements := leads_elements hspellable ('$' :: '}' :: rest)
  rw [elementsSpelling, List.flatMap_cons, List.cons_append, List.cons_append] at helements
  have hall := (leads_tagOpen _).trans ((leads_forName _).trans
    (helements.trans (leads_space_tagClose rest)))
  simpa [LoopHeader.spelling_eq, LoopHeader.tokens, elementsSpelling, Element.token] using hall

theorem leads_end (rest : List Char) :
    Leads .text ("\x7b$END$\x7d".toList ++ rest) [.tagOpen, .tagName "end", .tagClose] .text
      rest :=
  (leads_tagOpen _).trans ((leads_endName _).trans (leads_tagClose rest))

theorem opensTag_spelling {node : Node} (h : node.isText = false) (rest : List Char) :
    opensTag (node.spelling ++ rest) = true := by
  cases node with
  | text content => simp [Node.isText] at h
  | echo elements => simp [Node.spelling, opensTag]
  | forLoop header body => simp [Node.spelling, LoopHeader.spelling_eq, opensTag]

theorem endsText_spellingAll {nodes : List Node} {rest : List Char}
    (h : ∀ next ∈ nodes.head?, next.isText = false) (hrest : EndsText rest) :
    EndsText (Node.spellingAll nodes ++ rest) := by
  cases nodes with
  | nil => exact hrest
  | cons node nodes =>
      rw [Node.spellingAll, List.append_assoc]
      exact .inr (opensTag_spelling (h node rfl) _)

theorem leads_nodes {nodes : List Node}
    (h : ∀ level ∈ nodes :: Node.levelsAll nodes, CanonicalLevel level) {rest : List Char}
    (hrest : EndsText rest) :
    Leads .text (Node.spellingAll nodes ++ rest) (Node.tokensAll nodes) .text rest := by
  induction nodes using Node.listInduction generalizing rest with
  | nil => exact .refl _ _
  | text content tail ih =>
      rw [Node.levelsAll_text, List.forall_mem_cons, canonicalLevel_cons] at h
      obtain ⟨⟨hne, hapart, -, htail⟩, hbelow⟩ := h
      have hends : EndsText (Node.spellingAll tail ++ rest) := by
        refine endsText_spellingAll ?_ hrest
        intro next hnext
        simpa [Node.isText] using hapart next hnext
      have htext := leads_text (by simpa using hne) hends
      have hall := htext.trans (ih (List.forall_mem_cons.mpr ⟨htail, hbelow⟩) hrest)
      simpa [Node.spellingAll, Node.tokensAll, Node.tokens] using hall
  | echo elements tail ih =>
      rw [Node.levelsAll_echo, List.forall_mem_cons, canonicalLevel_cons] at h
      obtain ⟨⟨-, -, hecho, htail⟩, hbelow⟩ := h
      have hall := (leads_echo hecho (Node.spellingAll tail ++ rest)).trans
        (ih (List.forall_mem_cons.mpr ⟨htail, hbelow⟩) hrest)
      simpa [Node.spellingAll, Node.tokensAll] using hall
  | forLoop header body tail ihBody ihTail =>
      rw [Node.levelsAll_forLoop, List.forall_mem_cons, List.forall_mem_cons,
        List.forall_mem_append, canonicalLevel_cons] at h
      obtain ⟨⟨-, -, hloop, htail⟩, hbody, hbelowBody, hbelowTail⟩ := h
      simp only [Node.isWellFormed, Node.isSpellable, Bool.and_eq_true, List.all_eq_true] at hloop
      have hheader := leads_header hloop.2.1 hloop.2.2
        (Node.spellingAll body ++ ("\x7b$END$\x7d".toList ++ (Node.spellingAll tail ++ rest)))
      have hend := leads_end (Node.spellingAll tail ++ rest)
      have hends : EndsText ("\x7b$END$\x7d".toList ++ (Node.spellingAll tail ++ rest)) :=
        .inr (by simp [opensTag])
      have hnodes := ihBody (List.forall_mem_cons.mpr ⟨hbody, hbelowBody⟩) hends
      have hafter := ihTail (List.forall_mem_cons.mpr ⟨htail, hbelowTail⟩) hrest
      have hall := hheader.trans (hnodes.trans (hend.trans hafter))
      simpa [Node.spellingAll, Node.spelling, Node.tokensAll, Node.tokens] using hall

/-! ## Canonical documents -/

theorem Document.IsCanonical.isGrammatical {d : Document} (h : d.IsCanonical) :
    d.IsGrammatical := by
  intro level hlevel node hnode
  have hwellFormed := (h level hlevel).wellFormed node hnode
  rw [Node.isWellFormed, Bool.and_eq_true] at hwellFormed
  exact hwellFormed.1

theorem Document.parse_of_leads {source : String} {d : Document}
    (h : Leads .text source.toList d.tokens .text []) (hgrammatical : d.IsGrammatical) :
    Document.parse source = .ok d := by
  obtain ⟨final, hrun, hplace, hrest⟩ := h (Lexer.ofSource source) ⟨rfl, rfl⟩
  obtain ⟨after, hnext⟩ := (Lexer.next_eof_iff (Lexer.place_eq_text_iff.mp hplace)).mpr hrest
  exact Document.parse_eq_ok_iff_run.mpr ⟨⟨final, after, hrun, hnext⟩, hgrammatical⟩

theorem Document.parse_source_of_isCanonical {d : Document} (h : d.IsCanonical) :
    Document.parse d.source = .ok d := by
  have hleads := leads_nodes h (.inl rfl)
  rw [List.append_nil] at hleads
  refine Document.parse_of_leads ?_ h.isGrammatical
  rwa [Document.source, String.toList_ofList]

theorem Element.isShaped_token (e : Element) : e.token.isShaped = e.isSpellable := by
  cases e <;> rfl

theorem Node.head?_tokensAll_of_isText {nodes : List Node} {node : Node}
    (hhead : nodes.head? = some node) (htext : node.isText = true) :
    ∃ token, (Node.tokensAll nodes).head? = some token ∧ token.isText = true := by
  obtain ⟨rest, rfl⟩ := List.head?_eq_some_iff.mp hhead
  cases node with
  | text content => exact ⟨.text content, by simp [Node.tokensAll, Node.tokens], rfl⟩
  | echo elements => contradiction
  | forLoop header body => contradiction

/-- What the tokens of a document look like tells what its levels look like. -/
theorem Node.canonicalLevel_of_tokensAll {nodes : List Node}
    (hgrammatical : ∀ node ∈ nodes, node.Grammatical)
    (hshaped : ∀ token ∈ Node.tokensAll nodes, token.isShaped = true)
    (hapart : (Node.tokensAll nodes).IsChain fun a b => ¬(a.isText = true ∧ b.isText = true)) :
    ∀ level ∈ nodes :: Node.levelsAll nodes, CanonicalLevel level := by
  induction nodes using Node.listInduction with
  | nil => simpa [Node.levelsAll] using canonicalLevel_nil
  | text content rest ih =>
      rw [List.forall_mem_cons] at hgrammatical
      simp only [Node.tokensAll, Node.tokens, List.singleton_append] at hshaped hapart
      rw [List.forall_mem_cons] at hshaped
      rw [List.isChain_cons] at hapart
      have hrest := ih hgrammatical.2 hshaped.2 hapart.2
      rw [List.forall_mem_cons] at hrest
      rw [Node.levelsAll_text, List.forall_mem_cons, canonicalLevel_cons]
      refine ⟨⟨?_, ?_, rfl, hrest.1⟩, hrest.2⟩
      · simpa [Token.isShaped] using hshaped.1
      · rintro next hnext ⟨-, htext⟩
        obtain ⟨token, hhead, htoken⟩ := Node.head?_tokensAll_of_isText hnext htext
        exact hapart.1 token hhead ⟨rfl, htoken⟩
  | echo elements rest ih =>
      rw [List.forall_mem_cons] at hgrammatical
      simp only [Node.tokensAll, Node.tokens, List.cons_append, List.append_assoc,
        List.nil_append] at hshaped hapart
      simp only [List.forall_mem_cons, List.forall_mem_append, List.forall_mem_map,
        Element.isShaped_token] at hshaped
      obtain ⟨-, -, helements, -, hshapedRest⟩ := hshaped
      have hapartRest := (List.isChain_append.mp hapart.tail.tail).2.1.tail
      have hrest := ih hgrammatical.2 hshapedRest hapartRest
      rw [List.forall_mem_cons] at hrest
      rw [Node.levelsAll_echo, List.forall_mem_cons]
      refine ⟨hrest.1.cons_tag rfl ?_, hrest.2⟩
      rw [Node.isWellFormed, hgrammatical.1.1, Bool.true_and]
      simpa [Node.isSpellable] using helements
  | forLoop header body rest ihBody ihRest =>
      rw [List.forall_mem_cons, Node.grammatical_forLoop_iff] at hgrammatical
      simp only [Node.tokensAll, Node.tokens, LoopHeader.tokens, List.cons_append,
        List.append_assoc, List.nil_append] at hshaped hapart
      simp only [List.forall_mem_cons, List.forall_mem_append, List.forall_mem_map,
        Element.isShaped_token] at hshaped
      obtain ⟨-, -, hcounter, hbounds, -, hshapedBody, -, -, -, hshapedRest⟩ := hshaped
      have hapartTail := (List.isChain_append.mp hapart.tail.tail.tail).2.1.tail
      obtain ⟨hapartBody, hapartEnd, -⟩ := List.isChain_append.mp hapartTail
      have hbody := ihBody hgrammatical.1.2 hshapedBody hapartBody
      have hrest := ihRest hgrammatical.2 hshapedRest hapartEnd.tail.tail.tail
      rw [List.forall_mem_cons] at hrest
      rw [Node.levelsAll_forLoop, List.forall_mem_cons, List.forall_mem_cons,
        List.forall_mem_append]
      rw [List.forall_mem_cons] at hbody
      refine ⟨hrest.1.cons_tag rfl ?_, hbody.1, hbody.2, hrest.2⟩
      simpa [Node.isWellFormed, Node.isGrammatical, Node.isSpellable] using
        ⟨hgrammatical.1.1, hcounter, hbounds⟩

theorem Document.isCanonical_of_parse {source : String} {d : Document}
    (h : Document.parse source = .ok d) : d.IsCanonical := by
  obtain ⟨⟨final, after, hrun, -⟩, hgrammatical⟩ := Document.parse_eq_ok_iff_run.mp h
  exact Node.canonicalLevel_of_tokensAll (Document.isGrammatical_iff.mp hgrammatical)
    hrun.isShaped hrun.textsApart

/-! ## Round trips -/

namespace Document

/-- Printing a well-formed document and parsing it back joins its texts and changes nothing else. -/
theorem parse_source_eq_normalize (d : Document) (h : d.IsWellFormed) :
    Document.parse d.source = .ok d.normalize := by
  rw [← d.source_normalize]
  exact parse_source_of_isCanonical (isCanonical_normalize h)

theorem parse_source_joins_texts :
    Document.parse (Document.source ⟨[.text "", .text "a\x7b$", .text "\\", .text "",
      .forLoop ⟨"é_1", .int (-2147483648), .var "for", some (.str "\"\\\n\r\t$\x7d")⟩
        [.text "", .echo [.operator .sub, .int (-5), .real ⟨0x8000000000000000⟩,
          .real ⟨0x3FB999999999999A⟩, .function "end"], .text "$\x7d", .text "\n",
          .forLoop ⟨"j", .int 1, .int 2, none⟩ [.text ""]], .text "\x7b"]⟩) =
    .ok ⟨[.text "a\x7b$\\",
      .forLoop ⟨"é_1", .int (-2147483648), .var "for", some (.str "\"\\\n\r\t$\x7d")⟩
        [.echo [.operator .sub, .int (-5), .real ⟨0x8000000000000000⟩,
          .real ⟨0x3FB999999999999A⟩, .function "end"], .text "$\x7d\n",
          .forLoop ⟨"j", .int 1, .int 2, none⟩ []], .text "\x7b"]⟩ :=
  (parse_source_eq_normalize _ (by decide +kernel)).trans (by decide +kernel)

/-- Every parsed document is canonical, and its source parses to the document itself. -/
theorem isCanonical_and_parse_source_of_parse {source : String} {d : Document}
    (h : Document.parse source = .ok d) : d.IsCanonical ∧ Document.parse d.source = .ok d :=
  ⟨isCanonical_of_parse h, parse_source_of_isCanonical (isCanonical_of_parse h)⟩

theorem parse_source_of_parse_sample :
    ∃ d, Document.parse
        "a\\\x7b\x7b$= i 2.50-3 $\x7d\x7b$fOr i\t-1 \"x\\n\" $\x7db\x7b$End$\x7d" = .ok d ∧
      d.IsCanonical ∧ Document.parse d.source = .ok d := by
  have h : Document.parse
      "a\\\x7b\x7b$= i 2.50-3 $\x7d\x7b$fOr i\t-1 \"x\\n\" $\x7db\x7b$End$\x7d" =
      .ok ⟨[.text "a\x7b", .echo [.var "i", .real ⟨0x4004000000000000⟩, .int (-3)],
        .forLoop ⟨"i", .int (-1), .str "x\n", none⟩ [.text "b"]]⟩ := by
    decide +kernel
  exact ⟨_, h, isCanonical_and_parse_source_of_parse h⟩

end Document

end TagTemplate
