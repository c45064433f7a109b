import TagTemplate.Proofs.Token.Reading

/-!
Spelled tokens are lexemes.

Text and strings are written with escapes, and elements as they stand in a tag.  Each spelling is a
lexeme of what it spells, so it is read back whatever follows it, as long as it ends there.
-/

namespace TagTemplate

/-! ## Text -/

theorem TextSpelling.cons_escaped {source content : List Char} (h : TextSpelling source content)
    (c : Char) : TextSpelling (escapedTextChar c ++ source) (c :: content) := by
  unfold escapedTextChar
  split
  · next hslash =>
      subst hslash
      exact .escaped (.inr rfl) h
  split
  · next hbrace =>
      subst hbrace
      exact .escaped (.inl rfl) h
  · next hslash hbrace =>
      refine .plain hslash ?_ h
      rw [Bool.eq_false_iff, ne_eq, opensTag_iff]
      rintro ⟨rest, hrest⟩
      exact hbrace (List.cons.inj hrest).1

theorem textSpelling_escaped (content : List Char) :
    TextSpelling (content.flatMap escapedTextChar) content := by
  induction content with
  | nil => exact .nil
  | cons c content ih => exact ih.cons_escaped c

theorem leads_text {content : String} (hne : content ≠ "") {rest : List Char}
    (h : EndsText rest) :
    Leads .text ((Node.text content).spelling ++ rest) [.text content] .text rest := by
  have hlexeme := Lexeme.text (textSpelling_escaped content.toList) (by simpa using hne)
  rw [String.ofList_toList] at hlexeme
  rw [Node.spelling]
  exact leads_of_lexeme hlexeme h

/-! ## Elements -/

theorem StringSpelling.cons_escaped {source content : List Char}
    (h : StringSpelling source content) (c : Char) :
    StringSpelling (escapedStringChar c ++ source) (c :: content) := by
  have hescape : ∀ d, stringEscape? d = some c →
      StringSpelling (['\\', d] ++ source) (c :: content) := fun d hd => .escaped hd h
  unfold escapedStringChar
  split
  · next hc => exact hescape '"' (by rw [hc]; rfl)
  split
  · next hc => exact hescape '\\' (by rw [hc]; rfl)
  split
  · next hc => exact hescape 'n' (by rw [hc]; rfl)
  split
  · next hc => exact hescape 'r' (by rw [hc]; rfl)
  split
  · next hc => exact hescape 't' (by rw [hc]; rfl)
  · next hquote hslash _ _ _ => exact .plain hquote hslash h

theorem stringSpelling_escaped (content : List Char) :
    StringSpelling (content.flatMap escapedStringChar) content := by
  induction content with
  | nil => exact .nil
  | cons c content ih => exact ih.cons_escaped c

theorem intSpelling_eq (n : Int) :
    intSpelling n = minusIf (decide (n < 0)) ++ Nat.toDigits 10 n.natAbs := by
  unfold intSpelling minusIf
  split <;> simp_all

theorem tagLexeme_int (n : Int32) : TagLexeme (.int n) (intSpelling n.toInt) := by
  have hread := Numeral.int32?_intSpelling n
  rw [intSpelling_eq] at hread ⊢
  exact .int (Nat.toDigits_ne_nil) (fun _ => isDigit_of_mem_toDigits) hread

theorem tagLexeme_real {x : Binary64} (h : x.isFinite = true) :
    TagLexeme (.real x) (realLiteral x) := by
  have hread := Numeral.real?_realLiteral h
  have hliteral : realLiteral x = minusIf x.isNegative ++
      (Binary64.shortest x.magnitude).withPoint.spelling := realLiteral_eq h
  have hplaces := (Binary64.shortest x.magnitude).places_withPoint_pos
  generalize (Binary64.shortest x.magnitude).withPoint = d at hliteral hplaces
  have hfraction : d.fractionDigits ≠ [] := by
    intro hnil
    have := d.length_fractionDigits
    rw [hnil, List.length_nil] at this
    omega
  rw [hliteral, Decimal.spelling_of_places_pos hplaces] at hread ⊢
  exact .real (by simp [Decimal.wholeDigits, Nat.toDigits_ne_nil])
    (fun _ => Decimal.isDigit_of_mem_wholeDigits) hfraction
    (fun _ => Decimal.isDigit_of_mem_fractionDigits) hread

namespace Element

theorem tagLexeme {e : Element} (h : e.isSpellable = true) : TagLexeme e.token e.spelling := by
  cases e with
  | var name => exact .ident h
  | function name => exact .function h
  | operator op => exact .operator op
  | str content =>
      have hlexeme := TagLexeme.str (stringSpelling_escaped content.toList)
      rwa [String.ofList_toList] at hlexeme
  | int n => exact tagLexeme_int n
  | real x => exact tagLexeme_real h

theorem endsBefore_space (e : Element) (rest : List Char) : e.token.EndsBefore (' ' :: rest) := by
  have hword : startsWith isWordChar (' ' :: rest) = false := show isWordChar ' ' = false by decide
  cases e with
  | var name => exact hword
  | function name => exact hword
  | operator op => exact fun _ => rfl
  | str content => trivial
  | int n => exact ⟨rfl, rfl⟩
  | real x => rfl

end Element

end TagTemplate
