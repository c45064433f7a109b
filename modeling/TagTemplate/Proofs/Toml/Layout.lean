import Mathlib.Data.List.Basic
import TagTemplate.Proofs.Numeral
import TagTemplate.Toml.Grammar
import TagTemplate.Toml.Layout

/-!
The layout of a table spells the table (`Table.spelledBy_layout`).

Whichever form is chosen for a string, what is written between the quotes spells it: in basic forms
each character stands as itself or as an escape (`escapedChar_cases`), and the multi-line forms have
no more than two quotes in a row that are not escaped.
-/

namespace TagTemplate.Toml

/-! ## Escapes -/

theorem hexDigit?_upperHexDigit : ∀ n < 16, hexDigit? (upperHexDigit n) = some n := by
  decide +kernel

theorem charOfHex?_codePointEscape {c : Char} (h : c.toNat < 65536) :
    charOfHex? [upperHexDigit (c.toNat / 4096 % 16), upperHexDigit (c.toNat / 256 % 16),
      upperHexDigit (c.toNat / 16 % 16), upperHexDigit (c.toNat % 16)] = some c := by
  have hdigit : ∀ n, hexDigit? (upperHexDigit (n % 16)) = some (n % 16) := fun n =>
    hexDigit?_upperHexDigit _ (Nat.mod_lt n (by decide))
  have hvalue : hexValue? [upperHexDigit (c.toNat / 4096 % 16), upperHexDigit (c.toNat / 256 % 16),
      upperHexDigit (c.toNat / 16 % 16), upperHexDigit (c.toNat % 16)] = some c.toNat := by
    simp only [hexValue?, List.foldlM_cons, List.foldlM_nil, hdigit, Option.map_some,
      Option.bind_eq_bind, Option.bind_some, Option.pure_def, Option.some.injEq]
    omega
  have hvalid : c.toNat.isValidChar := c.valid
  rw [charOfHex?, hvalue, Option.bind_some, charOfCode?, if_pos hvalid, Char.ofNat_toNat]

theorem isInlineChar_of_not_isControl {c : Char} (hcontrol : ¬isControl c = true)
    (hnewline : c ≠ '\n') : isInlineChar c = true := by
  simp only [isControl, isInlineChar, Bool.or_eq_true, Bool.and_eq_true, decide_eq_true_eq,
    beq_iff_eq, bne_iff_ne, not_or, not_and] at *
  by_cases htab : c = '\t'
  · exact .inl htab
  · exact .inr ⟨Nat.le_of_not_lt fun h => hcontrol.1 ⟨h, htab⟩ hnewline, hcontrol.2⟩

/-- Outside of quotes and line breaks, a character stands as itself or as an escape. -/
theorem escapedChar_cases {c : Char} (hnewline : c ≠ '\n') :
    (escapedChar c = [c] ∧ c ≠ '\\' ∧ isInlineChar c = true) ∨
      ∃ code, escapedChar c = '\\' :: code ∧ Escape code c := by
  by_cases hletter : c = '\\' ∨ c = '\t' ∨ c = '\x08' ∨ c = '\x0c' ∨ c = '\r'
  · rcases hletter with rfl | rfl | rfl | rfl | rfl <;> exact .inr ⟨_, rfl, .letter rfl⟩
  · simp only [not_or] at hletter
    by_cases hcontrol : isControl c = true
    · have hcode : c.toNat < 65536 := by
        simp only [isControl, Bool.or_eq_true, Bool.and_eq_true, decide_eq_true_eq,
          beq_iff_eq] at hcontrol
        omega
      refine .inr ⟨_, ?_, .short (charOfHex?_codePointEscape hcode)⟩
      simp [escapedChar, hletter, hcontrol, codePointEscape]
    · refine .inl ⟨?_, hletter.1, isInlineChar_of_not_isControl hcontrol hnewline⟩
      simp [escapedChar, hletter, hcontrol]

/-! ## One-line basic strings -/

theorem SpellsBasic.basicChar_append {text content : List Char} (h : SpellsBasic text content)
    (c : Char) : SpellsBasic (basicChar c ++ text) (c :: content) := by
  unfold basicChar
  split
  · next hquote =>
      subst hquote
      exact .escape (.letter rfl) h
  split
  · next hnewline =>
      subst hnewline
      exact .escape (.letter rfl) h
  · next hquote hnewline =>
      rcases escapedChar_cases hnewline with ⟨hplain, hslash, hinline⟩ | ⟨code, hwritten, hcode⟩
      · rw [hplain]
        exact .plain hquote hslash hinline h
      · rw [hwritten]
        exact .escape hcode h

theorem spellsBasic_flatMap (content : List Char) :
    SpellsBasic (content.flatMap basicChar) content := by
  induction content with
  | nil => exact .nil
  | cons c content ih => exact ih.basicChar_append c

/-! ## Multi-line strings -/

/-- Quotes that were written before the text; there are at most two of them in a row. -/
theorem SpellsMultilineBasic.replicate_append {count : Nat} (hcount : count ≤ 2)
    {text content : List Char} (hnext : text.head? ≠ some '"')
    (h : SpellsMultilineBasic text content) :
    SpellsMultilineBasic (List.replicate count '"' ++ text)
      (List.replicate count '"' ++ content) := by
  cases count with
  | zero => exact h
  | succ more => exact .quotes (by omega) hnext h

theorem SpellsMultilineBasic.escapedChar_append {text content : List Char}
    (h : SpellsMultilineBasic text content) {c : Char} (hquote : c ≠ '"') :
    SpellsMultilineBasic (escapedChar c ++ text) (c :: content) := by
  by_cases hnewline : c = '\n'
  · subst hnewline
    exact .plain (by decide) (by decide) (.inl rfl) h
  · rcases escapedChar_cases hnewline with ⟨hplain, hslash, hinline⟩ | ⟨code, hwritten, hcode⟩
    · rw [hplain]
      exact .plain hquote hslash (.inr hinline) h
    · rw [hwritten]
      exact .escape hcode h

theorem head?_escapedChar_append (c : Char) (text : List Char) :
    (escapedChar c ++ text).head? = some c ∨ (escapedChar c ++ text).head? = some '\\' := by
  unfold escapedChar
  repeat' split
  all_goals first | exact .inr rfl | exact .inl rfl

theorem replicate_append_cons {α : Type} (x : α) (count : Nat) (rest : List α) :
    List.replicate count x ++ x :: rest = List.replicate (count + 1) x ++ rest := by
  simp [List.replicate_succ']

/-- By induction on the content; the quotes that were written before it are taken with it. -/
theorem spellsMultilineBasic_body {count : Nat} (hcount : count ≤ 2) (content : List Char) :
    SpellsMultilineBasic (List.replicate count '"' ++ multilineBasicBody count content)
      (List.replicate count '"' ++ content) := by
  induction content generalizing count with
  | nil => exact SpellsMultilineBasic.nil.replicate_append hcount (by simp [multilineBasicBody])
  | cons c content ih =>
      have hfresh : SpellsMultilineBasic (multilineBasicBody 0 content) content :=
        ih (Nat.zero_le 2)
      unfold multilineBasicBody
      split
      · next hquote =>
          subst hquote
          split
          · have hescaped : SpellsMultilineBasic ('\\' :: '"' :: multilineBasicBody 0 content)
                ('"' :: content) := .escape (.letter rfl) hfresh
            exact hescaped.replicate_append hcount (by simp)
          · simpa [replicate_append_cons] using @ih (count + 1) (by omega)
      · next hquote =>
          refine (hfresh.escapedChar_append hquote).replicate_append hcount ?_
          rcases head?_escapedChar_append c (multilineBasicBody 0 content) with h | h <;>
            simp [h, hquote]

theorem isMultilineLiteral_replicate_append {count : Nat} (hcount : count ≤ 2) {text : List Char}
    (hnext : text.head? ≠ some '\'') (h : IsMultilineLiteral text) :
    IsMultilineLiteral (List.replicate count '\'' ++ text) := by
  cases count with
  | zero => exact h
  | succ more => exact .quotes (by omega) hnext h

theorem isMultilineLiteral_of_not_hasTripleFrom {count : Nat} (hcount : count ≤ 2)
    {content : List Char} (hplain : ∀ c ∈ content, isControl c = false)
    (htriple : hasTripleFrom '\'' count content = false) :
    IsMultilineLiteral (List.replicate count '\'' ++ content) := by
  induction content generalizing count with
  | nil => exact isMultilineLiteral_replicate_append hcount (by simp) .nil
  | cons c content ih =>
      obtain ⟨hc, hcontent⟩ := List.forall_mem_cons.mp hplain
      unfold hasTripleFrom at htriple
      split at htriple
      · next hquote =>
          subst hquote
          simp only [Bool.or_eq_false_iff, beq_eq_false_iff_ne] at htriple
          simpa [replicate_append_cons] using ih (by omega) hcontent htriple.2
      · next hquote =>
          have hinline : c = '\n' ∨ isInlineChar c = true := by
            by_cases hnewline : c = '\n'
            · exact .inl hnewline
            · exact .inr (isInlineChar_of_not_isControl (by simp [hc]) hnewline)
          refine isMultilineLiteral_replicate_append hcount (by simpa using hquote) ?_
          exact .plain hquote hinline (ih (Nat.zero_le 2) hcontent htriple)

/-! ## Forms -/

theorem StringForm.choose_eq_literal {content : List Char} (h : choose content = .literal) :
    IsLiteral content := by
  unfold choose at h
  simp only at h
  split at h
  · contradiction
  split at h
  · next hliteral =>
      simp only [Bool.and_eq_true, Bool.not_eq_true', List.any_eq_false, List.contains_eq_mem,
        decide_eq_false_iff_not] at hliteral
      obtain ⟨⟨hplain, hquote⟩, hnewline⟩ := hliteral
      intro c hc
      have hc' : c ≠ '\'' ∧ c ≠ '\n' :=
        ⟨fun heq => hquote (heq ▸ hc), fun heq => hnewline (heq ▸ hc)⟩
      simp [isLiteralChar, isInlineChar_of_not_isControl (hplain c hc) hc'.2, hc'.1]
  · split at h
    · contradiction
    split at h
    · contradiction
    split at h <;> contradiction

theorem StringForm.choose_eq_multilineLiteral {content : List Char}
    (h : choose content = .multilineLiteral) : IsMultilineLiteral content := by
  unfold choose at h
  simp only at h
  iterate 3 (split at h; contradiction)
  split at h
  · next hplain =>
      simp only [Bool.and_eq_true, Bool.not_eq_true', List.any_eq_false,
        Bool.not_eq_true] at hplain
      exact isMultilineLiteral_of_not_hasTripleFrom (Nat.zero_le 2) hplain.1 hplain.2
  · split at h <;> contradiction

/-- A text that starts with a line break has one, so another is written in front of it. -/
theorem opens_leadingNewline {content text : List Char}
    (h : '\n' ∉ content → text.head? ≠ some '\n') : Opens (leadingNewline content) text := by
  unfold leadingNewline
  split
  · exact .newline .lineFeed
  · next hcontains => exact .direct (h (by simpa using hcontains))

theorem head?_multilineBasicBody {content : List Char} (h : '\n' ∉ content) :
    (multilineBasicBody 0 content).head? ≠ some '\n' := by
  cases content with
  | nil => simp [multilineBasicBody]
  | cons c content =>
      have hc : c ≠ '\n' := by
        rintro rfl
        simp at h
      by_cases hquote : c = '"'
      · simp [multilineBasicBody, hquote]
      · rcases head?_escapedChar_append c (multilineBasicBody 0 content) with hhead | hhead <;>
          simp [multilineBasicBody, hquote, hhead, hc]

theorem spellsString_stringLayout (content : List Char) :
    SpellsString (stringLayout content) content := by
  unfold stringLayout
  split
  · exact .basic (spellsBasic_flatMap content)
  · next hform => exact .literal (StringForm.choose_eq_literal hform)
  · exact .multilineBasic (opens_leadingNewline head?_multilineBasicBody)
      (spellsMultilineBasic_body (Nat.zero_le 2) content)
  · next hform =>
      refine .multilineLiteral (opens_leadingNewline fun hnewline hhead => hnewline ?_)
        (StringForm.choose_eq_multilineLiteral hform)
      exact List.mem_of_mem_head? hhead

/-- The last quote of the content stands right before the closing ones. -/
example : stringLayout "it's \"q\"".toList = "\"\"\"it's \"q\"\"\"\"".toList := by
  decide +kernel

/-! ## Integers -/

theorem hexDigit?_of_isDigit {c : Char} (h : c.isDigit = true) :
    hexDigit? c = some (c.toNat - 48) ∧ c.toNat - 48 < 10 := by
  simp only [Char.isDigit, Bool.and_eq_true, decide_eq_true_eq] at h
  have hlast : c.toNat ≤ 57 := h.2
  exact ⟨if_pos h, by omega⟩

theorem isBaseDigit_of_isDigit {c : Char} (h : c.isDigit = true) : isBaseDigit 10 c = true := by
  simp [isBaseDigit, hexDigit?_of_isDigit h]

theorem spellsDigits_self {digits : List Char} (hne : digits ≠ [])
    (hdigits : ∀ c ∈ digits, c.isDigit = true) : SpellsDigits 10 digits digits := by
  induction digits with
  | nil => contradiction
  | cons c digits ih =>
      obtain ⟨hc, hrest⟩ := List.forall_mem_cons.mp hdigits
      cases digits with
      | nil => exact .last (isBaseDigit_of_isDigit hc)
      | cons d digits => exact .next (isBaseDigit_of_isDigit hc) (ih (by simp) hrest)

theorem digitsValue_toDigits (n : Nat) : digitsValue 10 (Nat.toDigits 10 n) = n := by
  have hvalue : digitsValue 10 (Nat.toDigits 10 n) = Nat.ofDigitChars 10 (Nat.toDigits 10 n) 0 := by
    apply List.foldl_ext
    intro value c hc
    rw [(hexDigit?_of_isDigit (isDigit_of_mem_toDigits hc)).1]
    rfl
  rw [hvalue, Nat.ofDigitChars_ten_toDigits]

theorem head?_toDigits {n : Nat} (h : 0 < n) : (Nat.toDigits 10 n).head? ≠ some '0' := by
  induction n using Nat.strongRecOn with
  | ind n ih =>
      by_cases hlt : n < 10
      · simp [Nat.toDigits_of_lt_base hlt]
        omega
      · have hfront := ih (n / 10) (by omega) (by omega)
        rw [Nat.toDigits_of_base_le (by decide) (by omega),
          List.head?_append_of_ne_nil _ Nat.toDigits_ne_nil]
        exact hfront

theorem spellsDecimal_toDigits (n : Nat) : SpellsDecimal (Nat.toDigits 10 n) n := by
  have hlead : (Nat.toDigits 10 n).length = 1 ∨ (Nat.toDigits 10 n).head? ≠ some '0' := by
    rcases Nat.eq_zero_or_pos n with rfl | hpos
    · simp
    · exact .inr (head?_toDigits hpos)
  simpa [digitsValue_toDigits] using SpellsDecimal.intro
    (spellsDigits_self Nat.toDigits_ne_nil fun _ => isDigit_of_mem_toDigits) hlead

theorem spellsInteger_integerLayout (n : Int) : SpellsInteger (integerLayout n) n := by
  unfold integerLayout
  split
  · have hminus := SpellsInteger.minus (spellsDecimal_toDigits n.natAbs)
    rwa [(by omega : -(n.natAbs : Int) = n)] at hminus
  · have hplain := SpellsInteger.unsigned (spellsDecimal_toDigits n.natAbs)
    rwa [(by omega : (n.natAbs : Int) = n)] at hplain

/-! ## Tables -/

theorem spellsScalar_scalarLayout {value : Scalar} (h : value.InRange) :
    SpellsScalar (scalarLayout value) value := by
  cases value with
  | string content =>
      simpa [scalarLayout] using SpellsScalar.string (spellsString_stringLayout content.toList)
  | integer n => exact .integer (spellsInteger_integerLayout n) h
  | boolean value => exact .boolean

theorem isSpaces_singleton : IsSpaces [' '] := by
  simp [IsSpaces, isSpace]

theorem isSpaces_nil : IsSpaces [] := by
  simp [IsSpaces]

/-- The line of an entry, in front of the lines of others. -/
theorem SpellsLines.entryLayout_append {text : List Char} {entries : List Entry}
    (h : SpellsLines text entries) {entry : Entry} (hne : entry.key.toList ≠ [])
    (hkey : entry.key.toList.all isBareKeyChar = true) (hrange : entry.value.InRange) :
    SpellsLines (entryLayout entry ++ text) (entry :: entries) := by
  have hbare : SpellsKey entry.key.toList entry.key.toList :=
    .bare hne (List.all_eq_true.mp hkey)
  have hentry := SpellsEntry.intro hbare isSpaces_singleton isSpaces_singleton
    (spellsScalar_scalarLayout hrange)
  have hline := SpellsLine.entry isSpaces_nil hentry isSpaces_nil .absent
  simpa [entryLayout] using SpellsLines.next hline .lineFeed h

/-- Behind the last entry there is an empty line. -/
theorem spellsLines_flatMap {entries : List Entry}
    (hbare : ∀ entry ∈ entries,
      entry.key.toList ≠ [] ∧ entry.key.toList.all isBareKeyChar = true)
    (hrange : ∀ entry ∈ entries, entry.value.InRange) :
    SpellsLines (entries.flatMap entryLayout) entries := by
  induction entries with
  | nil => exact .last (.blank isSpaces_nil .absent)
  | cons entry entries ih =>
      obtain ⟨⟨hne, hkey⟩, hbare⟩ := List.forall_mem_cons.mp hbare
      obtain ⟨hvalue, hrange⟩ := List.forall_mem_cons.mp hrange
      exact (ih hbare hrange).entryLayout_append hne hkey hvalue

namespace Table

theorem spelledBy_layout {table : Table} (hbare : table.HasBareKeys) (hrange : table.InRange) :
    table.SpelledBy table.layout := by
  simpa [SpelledBy, layout] using spellsLines_flatMap hbare hrange

end Table

end TagTemplate.Toml
