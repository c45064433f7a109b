import Mathlib.Data.List.Basic
import TagTemplate.Proofs.Numeral
import TagTemplate.Toml.Grammar
import TagTemplate.Toml.Reader

/-!
The reader of tables reads every text of the grammar (`readTable?_of_spelledBy`).

Each part of a table is read in front of any text that may follow it: a value in front of spaces, a
comment or the end of the line (`EndsValue`).  In multi-line forms up to two quotes in a row stand
for themselves, so quotes at the end of a string run into the closing ones; the readers' ways with
quotes are `TakesQuotes`.
-/

namespace TagTemplate.Toml

/-! ## Spaces and ends of lines -/

theorem eq_of_isSpace {c : Char} (h : isSpace c = true) : c = ' ' ∨ c = '\t' := by
  simpa [isSpace] using h

theorem skipSpaces_append {spaces rest : List Char} (hspaces : IsSpaces spaces)
    (hrest : startsWith isSpace rest = false) : skipSpaces (spaces ++ rest) = rest :=
  dropWhile_append_stop hspaces hrest

@[simp] theorem newline?_append {newline : List Char} (h : IsNewline newline) (rest : List Char) :
    newline? (newline ++ rest) = some rest := by
  cases h <;> simp [newline?]

theorem startsWith_isSpace_newline {newline : List Char} (h : IsNewline newline)
    (rest : List Char) : startsWith isSpace (newline ++ rest) = false := by
  cases h <;> simp [startsWith, isSpace]

/-- What may stand behind a value. -/
def EndsValue (rest : List Char) : Prop := ∀ c ∈ rest.head?, c ∈ [' ', '\t', '#', '\n', '\r']

theorem EndsValue.startsWith_eq_false {rest : List Char} (h : EndsValue rest) {p : Char → Bool}
    (hp : [' ', '\t', '#', '\n', '\r'].all (fun c => !p c) = true) : startsWith p rest = false := by
  cases rest with
  | nil => rfl
  | cons c rest => simpa [startsWith] using List.all_eq_true.mp hp c (h c rfl)

theorem EndsValue.head?_ne {rest : List Char} (h : EndsValue rest) {c : Char}
    (hc : c ∉ [' ', '\t', '#', '\n', '\r']) : rest.head? ≠ some c :=
  fun hhead => hc (h c hhead)

/-! ## One-line strings -/

theorem readBasic_escape {code : List Char} {meant : Char} (h : Escape code meant)
    (read rest : List Char) :
    readBasic read ('\\' :: (code ++ rest)) = readBasic (meant :: read) rest := by
  cases h with
  | letter hmeaning =>
      unfold escapeMeaning? at hmeaning
      split at hmeaning <;> cases hmeaning <;> simp [readBasic, escapeMeaning?]
  | short hcode => simp [readBasic, hcode]
  | long hcode => simp [readBasic, hcode]

theorem readBasic_of_spells {text content : List Char} (h : SpellsBasic text content)
    (read rest : List Char) :
    readBasic read (text ++ '"' :: rest) = some (read.reverse ++ content, rest) := by
  induction h generalizing read with
  | nil =>
      rw [readBasic.eq_def]
      simp
  | @plain c text content hquote hslash hinline h ih =>
      rw [List.cons_append, readBasic.eq_def]
      simp [hquote, hslash, hinline, ih]
  | escape hcode h ih => simp [readBasic_escape hcode, ih]

theorem readLiteral_append {text : List Char} (h : IsLiteral text) (rest : List Char) :
    readLiteral (text ++ '\'' :: rest) = some (text, rest) := by
  have hstop : startsWith isLiteralChar ('\'' :: rest) = false := by
    simp [startsWith, isLiteralChar]
  simp [readLiteral, dropWhile_append_stop h hstop, takeWhile_append_stop h hstop]

/-! ## Quotes in multi-line strings -/

theorem count_cases {count : Nat} (h : count ≤ 2) : count = 0 ∨ count = 1 ∨ count = 2 := by omega

theorem closeMultiline_replicate {quote : Char} {count : Nat} (hcount : count ≤ 2)
    {rest : List Char} (hrest : rest.head? ≠ some quote) (read : List Char) :
    closeMultiline quote read (List.replicate count quote ++ rest) =
      some (read.reverse ++ List.replicate count quote, rest) := by
  rcases count_cases hcount with rfl | rfl | rfl
  · rcases rest with _ | ⟨a, _ | ⟨b, rest⟩⟩ <;> simp_all [closeMultiline]
  · rcases rest with _ | ⟨a, rest⟩ <;> simp_all [closeMultiline]
  · simp [closeMultiline, List.replicate]

/-- How a reader of a multi-line form takes quotes: only three in a row close the string. -/
structure TakesQuotes (quote : Char)
    (reader : List Char → List Char → Option (List Char × List Char)) : Prop where
  single : ∀ read rest, (∀ tail, rest ≠ quote :: quote :: tail) →
    reader read (quote :: rest) = reader (quote :: read) rest
  triple : ∀ read rest,
    reader read (quote :: quote :: quote :: rest) = closeMultiline quote read rest

section Quotes

variable {quote : Char} {reader : List Char → List Char → Option (List Char × List Char)}
  (h : TakesQuotes quote reader) {count : Nat} (hcount : count ≤ 2) {rest : List Char}
  (hrest : rest.head? ≠ some quote) (read : List Char)

include h hcount hrest

theorem TakesQuotes.pass :
    reader read (List.replicate count quote ++ rest) =
      reader (List.replicate count quote ++ read) rest := by
  have hone : ∀ tail, rest ≠ quote :: quote :: tail := by
    rintro tail rfl
    exact hrest rfl
  have htwo : ∀ tail, quote :: rest ≠ quote :: quote :: tail := by
    rintro tail htail
    exact hrest (by rw [(List.cons.inj htail).2]; rfl)
  rcases count_cases hcount with rfl | rfl | rfl
  · rfl
  · exact h.single read rest hone
  · exact (h.single read _ htwo).trans (h.single _ rest hone)

/-- Quotes at the end of the string stand before the closing ones, and are read after them. -/
theorem TakesQuotes.close :
    reader read (List.replicate count quote ++ quote :: quote :: quote :: rest) =
      some (read.reverse ++ List.replicate count quote, rest) := by
  have hmove : List.replicate count quote ++ quote :: quote :: quote :: rest =
      quote :: quote :: quote :: (List.replicate count quote ++ rest) := by
    rcases count_cases hcount with rfl | rfl | rfl <;> rfl
  rw [hmove, h.triple, closeMultiline_replicate hcount hrest]

end Quotes

/-! ## Multi-line basic strings -/

theorem takesQuotes_readMultilineBasic : TakesQuotes '"' (readMultilineBasic false) where
  single read rest hrest := by
    rw [readMultilineBasic.eq_def]
    simp
  triple read rest := by
    rw [readMultilineBasic.eq_def]
    simp

theorem endsLine_of_escape {code : List Char} {meant : Char} (h : Escape code meant)
    (rest : List Char) : endsLine (code ++ rest) = false := by
  cases h with
  | letter hmeaning =>
      unfold escapeMeaning? at hmeaning
      split at hmeaning <;> cases hmeaning <;> simp [endsLine, skipSpaces, isSpace, newline?]
  | short => simp [endsLine, skipSpaces, isSpace, newline?]
  | long => simp [endsLine, skipSpaces, isSpace, newline?]

theorem readMultilineBasic_escape {code : List Char} {meant : Char} (h : Escape code meant)
    (read rest : List Char) :
    readMultilineBasic false read ('\\' :: (code ++ rest)) =
      readMultilineBasic false (meant :: read) rest := by
  have hends := endsLine_of_escape h rest
  rw [readMultilineBasic.eq_def]
  cases h with
  | letter hmeaning =>
      unfold escapeMeaning? at hmeaning
      split at hmeaning <;> cases hmeaning <;> simp_all [escapeMeaning?]
  | short hcode => simp_all
  | long hcode => simp_all

theorem ne_return_of_inline {c : Char} (h : c = '\n' ∨ isInlineChar c = true) : c ≠ '\r' := by
  rintro rfl
  simp [isInlineChar] at h

theorem readMultilineBasic_plain {c : Char} (hquote : c ≠ '"') (hslash : c ≠ '\\')
    (hinline : c = '\n' ∨ isInlineChar c = true) (read rest : List Char) :
    readMultilineBasic false read (c :: rest) = readMultilineBasic false (c :: read) rest := by
  rw [readMultilineBasic.eq_def]
  by_cases hnewline : c = '\n'
  · simp [hnewline]
  · simp [hnewline, ne_return_of_inline hinline, hquote, hslash, hinline.resolve_left hnewline]

/-! ### Ends of lines that are dropped -/

theorem readMultilineBasic_true_newline {newline : List Char} (h : IsNewline newline)
    (read rest : List Char) :
    readMultilineBasic true read (newline ++ rest) = readMultilineBasic true read rest := by
  cases h <;> rw [List.cons_append, readMultilineBasic.eq_def] <;> simp

theorem readMultilineBasic_true_space {c : Char} (h : isSpace c = true) (read rest : List Char) :
    readMultilineBasic true read (c :: rest) = readMultilineBasic true read rest := by
  have hne : c ≠ '\n' ∧ c ≠ '\r' := by
    constructor <;> (rintro rfl; contradiction)
  rw [readMultilineBasic.eq_def]
  simp [hne, h]

theorem readMultilineBasic_true_gap {gap : List Char} (h : IsGap gap) (read rest : List Char) :
    readMultilineBasic true read (gap ++ rest) = readMultilineBasic true read rest := by
  induction h with
  | nil => rfl
  | space hspace _ ih => rw [List.cons_append, readMultilineBasic_true_space hspace, ih]
  | newline hnewline _ ih =>
      rw [List.append_assoc, readMultilineBasic_true_newline hnewline, ih]

theorem isGap_of_isSpaces {spaces : List Char} (h : IsSpaces spaces) : IsGap spaces := by
  induction spaces with
  | nil => exact .nil
  | cons c spaces ih =>
      obtain ⟨hc, hspaces⟩ := List.forall_mem_cons.mp h
      exact .space hc (ih hspaces)

/-- Dropping ends at the next character. -/
theorem readMultilineBasic_true_eq {rest : List Char}
    (h : ∀ c ∈ rest.head?, isSpace c = false ∧ c ≠ '\n' ∧ c ≠ '\r') (read : List Char) :
    readMultilineBasic true read rest = readMultilineBasic false read rest := by
  cases rest with
  | nil => rfl
  | cons c rest =>
      obtain ⟨hspace, hnewline, hreturn⟩ := h c rfl
      rw [readMultilineBasic.eq_def, readMultilineBasic.eq_def false]
      simp [hspace, hnewline, hreturn]

theorem readMultilineBasic_lineEnd {spaces newline gap rest : List Char} (hspaces : IsSpaces spaces)
    (hnewline : IsNewline newline) (hgap : IsGap gap)
    (hnext : ∀ c ∈ rest.head?, isSpace c = false ∧ c ≠ '\n' ∧ c ≠ '\r') (read : List Char) :
    readMultilineBasic false read ('\\' :: (spaces ++ (newline ++ (gap ++ rest)))) =
      readMultilineBasic false read rest := by
  have hends : endsLine (spaces ++ (newline ++ (gap ++ rest))) = true := by
    simp [endsLine, skipSpaces_append hspaces (startsWith_isSpace_newline hnewline _), hnewline]
  rw [readMultilineBasic.eq_def]
  simp [hends, readMultilineBasic_true_gap (isGap_of_isSpaces hspaces),
    readMultilineBasic_true_newline hnewline, readMultilineBasic_true_gap hgap,
    readMultilineBasic_true_eq hnext]

/--
Quotes are passed only together with what follows them: at the end of the string the whole run
tells them from the closing ones.
-/
theorem readMultilineBasic_of_spells {text content : List Char}
    (h : SpellsMultilineBasic text content) {rest : List Char} (hrest : rest.head? ≠ some '"')
    (read : List Char) :
    readMultilineBasic false read (text ++ '"' :: '"' :: '"' :: rest) =
      some (read.reverse ++ content, rest) := by
  have hquotes := takesQuotes_readMultilineBasic
  induction h generalizing read with
  | nil => simpa using hquotes.close (Nat.zero_le 2) hrest read
  | plain hquote hslash hinline h ih =>
      simp [readMultilineBasic_plain hquote hslash hinline, ih]
  | escape hcode h ih => simp [readMultilineBasic_escape hcode, ih]
  | @quotes more text content hmore hnext h ih =>
      have hcount : more + 1 ≤ 2 := by omega
      rw [← List.cons_append, ← List.cons_append, ← List.replicate_succ]
      cases text with
      | nil =>
          cases h
          simpa using hquotes.close hcount hrest read
      | cons c text =>
          have hhead : (c :: text ++ '"' :: '"' :: '"' :: rest).head? ≠ some '"' := hnext
          rw [List.append_assoc, hquotes.pass hcount hhead, ih]
          simp
  | @lineEnd spaces newline gap text content hspaces hnewline hgap hnext h ih =>
      have hnext' : ∀ c ∈ (text ++ '"' :: '"' :: '"' :: rest).head?,
          isSpace c = false ∧ c ≠ '\n' ∧ c ≠ '\r' := by
        cases text with
        | nil => simp [isSpace]
        | cons c text => exact hnext
      simp only [List.cons_append, List.append_assoc]
      rw [readMultilineBasic_lineEnd hspaces hnewline hgap hnext', ih]

/-! ## Multi-line literal strings -/

theorem takesQuotes_readMultilineLiteral : TakesQuotes '\'' readMultilineLiteral where
  single read rest hrest := by
    rw [readMultilineLiteral.eq_def]
    simp
  triple read rest := by
    rw [readMultilineLiteral.eq_def]
    simp

theorem readMultilineLiteral_plain {c : Char} (hquote : c ≠ '\'')
    (hinline : c = '\n' ∨ isInlineChar c = true) (read rest : List Char) :
    readMultilineLiteral read (c :: rest) = readMultilineLiteral (c :: read) rest := by
  rw [readMultilineLiteral.eq_def]
  by_cases hnewline : c = '\n'
  · simp [hnewline]
  · simp [hnewline, ne_return_of_inline hinline, hquote, hinline.resolve_left hnewline]

theorem readMultilineLiteral_append {text : List Char} (h : IsMultilineLiteral text)
    {rest : List Char} (hrest : rest.head? ≠ some '\'') (read : List Char) :
    readMultilineLiteral read (text ++ '\'' :: '\'' :: '\'' :: rest) =
      some (read.reverse ++ text, rest) := by
  have hquotes := takesQuotes_readMultilineLiteral
  induction h generalizing read with
  | nil => simpa using hquotes.close (Nat.zero_le 2) hrest read
  | plain hquote hinline h ih => simp [readMultilineLiteral_plain hquote hinline, ih]
  | @quotes more text hmore hnext h ih =>
      have hcount : more + 1 ≤ 2 := by omega
      rw [← List.cons_append, ← List.replicate_succ]
      cases text with
      | nil => simpa using hquotes.close hcount hrest read
      | cons c text =>
          have hhead : (c :: text ++ '\'' :: '\'' :: '\'' :: rest).head? ≠ some '\'' := hnext
          rw [List.append_assoc, hquotes.pass hcount hhead, ih]
          simp

/-! ## Strings -/

theorem SpellsMultilineBasic.head?_ne_return {text content : List Char}
    (h : SpellsMultilineBasic text content) : text.head? ≠ some '\r' := by
  cases h with
  | plain _ _ hinline => simpa using ne_return_of_inline hinline
  | _ => simp

theorem IsMultilineLiteral.head?_ne_return {text : List Char} (h : IsMultilineLiteral text) :
    text.head? ≠ some '\r' := by
  cases h with
  | plain _ hinline => simpa using ne_return_of_inline hinline
  | _ => simp

theorem skipFirstNewline_eq_self {text : List Char} (hnewline : text.head? ≠ some '\n')
    (hreturn : text.head? ≠ some '\r') : skipFirstNewline text = text := by
  unfold skipFirstNewline newline?
  split <;> simp_all

/-- The line break in front is dropped, and no other is. -/
theorem skipFirstNewline_append {opening text : List Char} (hopening : Opens opening text)
    (hreturn : text.head? ≠ some '\r') {c : Char} (hc : c ≠ '\n' ∧ c ≠ '\r') (rest : List Char) :
    skipFirstNewline (opening ++ (text ++ c :: rest)) = text ++ c :: rest := by
  cases hopening with
  | newline hnewline => simp [skipFirstNewline, hnewline]
  | direct hnext =>
      rw [List.nil_append]
      apply skipFirstNewline_eq_self <;> cases text <;> simp_all

/-- Two quotes open a string only if it is empty, and then no third follows. -/
theorem readString_basic {text content : List Char} (h : SpellsBasic text content)
    {rest : List Char} (hrest : EndsValue rest) :
    readString ('"' :: (text ++ '"' :: rest)) = some (content, rest) := by
  have htriple : ∀ tail, text ++ '"' :: rest ≠ '"' :: '"' :: tail := by
    intro tail htail
    cases h with
    | nil =>
        apply hrest.head?_ne (by decide : '"' ∉ _)
        simp [(List.cons.inj htail).2]
    | plain hquote => exact hquote (List.cons.inj htail).1
    | escape => simp at htail
  unfold readString
  simpa [htriple] using readBasic_of_spells h [] rest

theorem readString_literal {text : List Char} (h : IsLiteral text) {rest : List Char}
    (hrest : EndsValue rest) : readString ('\'' :: (text ++ '\'' :: rest)) = some (text, rest) := by
  have htriple : ∀ tail, text ++ '\'' :: rest ≠ '\'' :: '\'' :: tail := by
    intro tail htail
    cases text with
    | nil =>
        apply hrest.head?_ne (by decide : '\'' ∉ _)
        simp [(List.cons.inj htail).2]
    | cons c text =>
        have hc := h c (by simp)
        simp [(List.cons.inj htail).1, isLiteralChar] at hc
  unfold readString
  simpa [htriple] using readLiteral_append h rest

theorem readString_of_spells {text content : List Char} (h : SpellsString text content)
    {rest : List Char} (hrest : EndsValue rest) :
    readString (text ++ rest) = some (content, rest) := by
  cases h with
  | basic h => simpa using readString_basic h hrest
  | literal h => simpa using readString_literal h hrest
  | multilineBasic hopening h =>
      have hskip := skipFirstNewline_append hopening h.head?_ne_return
        (by decide : '"' ≠ '\n' ∧ '"' ≠ '\r')
      have hquote := hrest.head?_ne (by decide : '"' ∉ _)
      simp [readString, hskip, readMultilineBasic_of_spells h hquote]
  | multilineLiteral hopening h =>
      have hskip := skipFirstNewline_append hopening h.head?_ne_return
        (by decide : '\'' ≠ '\n' ∧ '\'' ≠ '\r')
      have hquote := hrest.head?_ne (by decide : '\'' ∉ _)
      simp [readString, hskip, readMultilineLiteral_append h hquote]

/-! ## Integers -/

theorem hexDigit?_underscore : hexDigit? '_' = none := by
  decide

theorem isBaseDigit_underscore (base : Nat) : isBaseDigit base '_' = false := by
  simp [isBaseDigit, hexDigit?_underscore]

theorem ungroupDigits?_of_spells {base : Nat} {text digits : List Char}
    (h : SpellsDigits base text digits) : ungroupDigits? (isBaseDigit base) text = some digits := by
  induction h with
  | last hdigit => simp [ungroupDigits?, hdigit]
  | underscore hdigit h ih => simp [ungroupDigits?, hdigit, ih]
  | @next c text digits hdigit h ih =>
      have hunderscore : ∀ rest, text ≠ '_' :: rest := by
        rintro rest rfl
        cases h <;> simp_all [isBaseDigit_underscore]
      cases text with
      | nil => cases h
      | cons d text =>
          rw [ungroupDigits?.eq_def]
          simp_all

theorem SpellsDigits.isPart {base : Nat} {text digits : List Char}
    (h : SpellsDigits base text digits) :
    ∀ c ∈ text, (isBaseDigit base c || c == '_') = true := by
  induction h <;> simp_all

theorem readDigits_append {base : Nat} {text digits : List Char}
    (h : SpellsDigits base text digits) {rest : List Char} (hrest : EndsValue rest) :
    readDigits base (text ++ rest) = some (digits, rest) := by
  have hstop : startsWith (fun c => isBaseDigit base c || c == '_') rest = false := by
    apply hrest.startsWith_eq_false
    simp [isBaseDigit, hexDigit?]
  simp [readDigits, takeWhile_append_stop h.isPart hstop, dropWhile_append_stop h.isPart hstop,
    ungroupDigits?_of_spells h]

theorem readDecimal_append {text : List Char} {n : Nat} (h : SpellsDecimal text n)
    {rest : List Char} (hrest : EndsValue rest) : readDecimal (text ++ rest) = some (n, rest) := by
  cases h with
  | intro h hlead => simp [readDecimal, readDigits_append h hrest, hlead]

/-- The first two characters of an unsigned decimal numeral and what follows it. -/
theorem SpellsDecimal.start {text : List Char} {n : Nat} (h : SpellsDecimal text n)
    {rest : List Char} (hrest : EndsValue rest) :
    ∀ c ∈ (text ++ rest).take 2,
      (isBaseDigit 10 c || c == '_') = true ∨ c ∈ [' ', '\t', '#', '\n', '\r'] := by
  cases h with
  | intro h _ =>
      have hpart := h.isPart
      intro c hc
      rcases text with _ | ⟨a, _ | ⟨b, text⟩⟩
      · cases h
      · rcases rest with _ | ⟨d, rest⟩
        · simp_all
        · have hd := hrest d rfl
          simp only [List.cons_append, List.nil_append, List.take_succ_cons, List.take_zero,
            List.mem_cons, List.not_mem_nil, or_false] at hc
          rcases hc with rfl | rfl
          · exact .inl (hpart c (by simp))
          · exact .inr hd
      · simp only [List.cons_append, List.take_succ_cons, List.take_zero, List.mem_cons,
          List.not_mem_nil, or_false] at hc
        exact .inl (hpart c (by rcases hc with rfl | rfl <;> simp))

theorem readUnbounded_of_spells {text : List Char} {n : Int} (h : SpellsInteger text n)
    {rest : List Char} (hrest : EndsValue rest) :
    readUnbounded (text ++ rest) = some (n, rest) := by
  cases h with
  | unsigned h =>
      have hstart := h.start hrest
      unfold readUnbounded
      split
      · next heq => exact absurd (hstart '-' (by simp [heq])) (by decide)
      · next heq => exact absurd (hstart '+' (by simp [heq])) (by decide)
      · next heq => exact absurd (hstart 'x' (by simp [heq])) (by decide)
      · next heq => exact absurd (hstart 'o' (by simp [heq])) (by decide)
      · next heq => exact absurd (hstart 'b' (by simp [heq])) (by decide)
      · simp [readDecimal_append h hrest]
  | plus h => simp [readUnbounded, readDecimal_append h hrest]
  | minus h => simp [readUnbounded, readDecimal_append h hrest]
  | based hbase h =>
      unfold baseOfLetter? at hbase
      split at hbase <;> cases hbase <;>
        simp [readUnbounded, readBased, readDigits_append h hrest]

theorem readInteger_of_spells {text : List Char} {n : Int} (h : SpellsInteger text n)
    (hrange : (Scalar.integer n).InRange) {rest : List Char} (hrest : EndsValue rest) :
    readInteger (text ++ rest) = some (n, rest) := by
  have hbounds : -(integerBound : Int) ≤ n ∧ n < integerBound := hrange
  simp [readInteger, readUnbounded_of_spells h hrest, hbounds]

/-! ## Values -/

theorem SpellsString.exists_cons {text content : List Char} (h : SpellsString text content) :
    ∃ tail, text = '"' :: tail ∨ text = '\'' :: tail := by
  cases h <;> simp

theorem SpellsInteger.exists_cons {text : List Char} {n : Int} (h : SpellsInteger text n) :
    ∃ c tail, text = c :: tail ∧ (c = '+' ∨ c = '-' ∨ isBaseDigit 10 c = true) := by
  have hdecimal : ∀ {text n}, SpellsDecimal text n →
      ∃ c tail, text = c :: tail ∧ isBaseDigit 10 c = true := by
    rintro _ _ ⟨h, -⟩
    cases h <;> simp_all
  cases h with
  | unsigned h =>
      obtain ⟨c, tail, rfl, hc⟩ := hdecimal h
      exact ⟨c, tail, rfl, .inr (.inr hc)⟩
  | plus => simp
  | minus => simp
  | based => exact ⟨'0', _, rfl, .inr (.inr (by decide))⟩

theorem SpellsScalar.startsWith_isSpace {text : List Char} {value : Scalar}
    (h : SpellsScalar text value) (rest : List Char) :
    startsWith isSpace (text ++ rest) = false := by
  cases h with
  | string h =>
      obtain ⟨tail, rfl | rfl⟩ := h.exists_cons <;> simp [startsWith, isSpace]
  | integer h =>
      obtain ⟨c, tail, rfl, hc⟩ := h.exists_cons
      rw [List.cons_append, startsWith, Bool.eq_false_iff]
      intro hspace
      rcases eq_of_isSpace hspace with rfl | rfl <;> simp [isBaseDigit, hexDigit?] at hc
  | @boolean value => cases value <;> simp [booleanText, startsWith, isSpace]

theorem readScalar_of_spells {text : List Char} {value : Scalar} (h : SpellsScalar text value)
    {rest : List Char} (hrest : EndsValue rest) :
    readScalar (text ++ rest) = some (value, rest) := by
  cases h with
  | string h =>
      have hread := readString_of_spells h hrest
      obtain ⟨tail, rfl | rfl⟩ := h.exists_cons
      · rw [List.cons_append] at hread ⊢
        simp [readScalar, hread]
      · rw [List.cons_append] at hread ⊢
        simp [readScalar, hread]
  | integer h hrange =>
      have hread := readInteger_of_spells h hrange hrest
      obtain ⟨c, tail, rfl, hc⟩ := h.exists_cons
      rw [List.cons_append] at hread ⊢
      have hne : c ≠ 't' ∧ c ≠ 'f' ∧ c ≠ '"' ∧ c ≠ '\'' := by
        refine ⟨?_, ?_, ?_, ?_⟩ <;> (rintro rfl; simp [isBaseDigit, hexDigit?] at hc)
      unfold readScalar
      split <;> simp_all
  | @boolean value => cases value <;> simp [booleanText, readScalar]

/-! ## Entries -/

theorem SpellsKey.exists_cons {text key : List Char} (h : SpellsKey text key) :
    ∃ c tail, text = c :: tail ∧ c ∉ [' ', '\t', '#', '\n', '\r'] := by
  cases h with
  | bare hne h =>
      cases text with
      | nil => contradiction
      | cons c tail =>
          refine ⟨c, tail, rfl, fun hc => ?_⟩
          have hbare := h c (by simp)
          simp only [List.mem_cons, List.not_mem_nil, or_false] at hc
          rcases hc with rfl | rfl | rfl | rfl | rfl <;> contradiction
  | basic => simp
  | literal => simp

/-- Spaces or the equality sign end a bare key. -/
theorem readKey_of_spells {text key before : List Char} (h : SpellsKey text key)
    (hbefore : IsSpaces before) (rest : List Char) :
    readKey (text ++ (before ++ '=' :: rest)) = some (key, before ++ '=' :: rest) := by
  cases h with
  | bare hne h =>
      have hstop : startsWith isBareKeyChar (before ++ '=' :: rest) = false := by
        cases before with
        | nil => rfl
        | cons c before =>
            rcases eq_of_isSpace (hbefore c (by simp)) with rfl | rfl <;> rfl
      have htake := takeWhile_append_stop h hstop
      have hdrop := dropWhile_append_stop h hstop
      cases text with
      | nil => contradiction
      | cons c text =>
          have hc := h c (by simp)
          have hquote : c ≠ '"' ∧ c ≠ '\'' := by
            constructor <;> (rintro rfl; contradiction)
          unfold readKey
          split <;> simp_all
  | basic h => simp [readKey, readBasic_of_spells h]
  | literal h => simp [readKey, readLiteral_append h]

theorem readEntry_of_spells {text : List Char} {entry : Entry} (h : SpellsEntry text entry)
    {rest : List Char} (hrest : EndsValue rest) :
    readEntry (text ++ rest) = some (entry, rest) := by
  cases h with
  | @intro keyText key before behind valueText value hkey hbefore hbehind hvalue =>
      have hread := readKey_of_spells hkey hbefore (behind ++ (valueText ++ rest))
      have hequal : skipSpaces (before ++ '=' :: (behind ++ (valueText ++ rest))) =
          '=' :: (behind ++ (valueText ++ rest)) := skipSpaces_append hbefore rfl
      have hskip : skipSpaces (behind ++ (valueText ++ rest)) = valueText ++ rest :=
        skipSpaces_append hbehind (hvalue.startsWith_isSpace rest)
      simp [readEntry, hread, hequal, hskip, readScalar_of_spells hvalue hrest]

theorem SpellsEntry.exists_cons {text : List Char} {entry : Entry} (h : SpellsEntry text entry) :
    ∃ c tail, text = c :: tail ∧ c ∉ [' ', '\t', '#', '\n', '\r'] := by
  cases h with
  | intro hkey =>
      obtain ⟨c, tail, rfl, hc⟩ := hkey.exists_cons
      exact ⟨c, _, rfl, hc⟩

/-! ## Lines -/

theorem endOfLine?_cases {rest after : List Char} (h : endOfLine? rest = some after) :
    rest = [] ∨ ∃ c tail, rest = c :: tail ∧ (c = '\n' ∨ c = '\r') := by
  unfold endOfLine? newline? at h
  split at h
  · exact .inl rfl
  · split at h <;> simp_all

theorem skipComment_append {comment rest after : List Char} (h : IsComment comment)
    (hrest : endOfLine? rest = some after) : skipComment (comment ++ rest) = rest := by
  have hends := endOfLine?_cases hrest
  cases h with
  | absent =>
      unfold skipComment
      split
      · simp_all
      · rfl
  | present h =>
      have hstop : startsWith isInlineChar rest = false := by
        rcases hends with rfl | ⟨c, tail, rfl, rfl | rfl⟩ <;> rfl
      simp [skipComment, dropWhile_append_stop h hstop]

/-- A comment, or the end of the line. -/
theorem head?_comment_append {comment rest after : List Char} (h : IsComment comment)
    (hrest : endOfLine? rest = some after) :
    ∀ c ∈ (comment ++ rest).head?, c = '#' ∨ c = '\n' ∨ c = '\r' := by
  cases h with
  | absent => rcases endOfLine?_cases hrest with rfl | ⟨c, tail, rfl, hc⟩ <;> simp_all
  | present h => simp

section Lines

variable {spaces comment rest after : List Char} (hspaces : IsSpaces spaces)
  (hcomment : IsComment comment) (hrest : endOfLine? rest = some after)

include hspaces hcomment hrest

theorem skipSpaces_comment : skipSpaces (spaces ++ (comment ++ rest)) = comment ++ rest := by
  apply skipSpaces_append hspaces
  have hhead := head?_comment_append hcomment hrest
  cases hline : comment ++ rest with
  | nil => rfl
  | cons c tail =>
      rw [hline] at hhead
      rcases hhead c rfl with rfl | rfl | rfl <;> rfl

theorem endsValue_spaces_comment : EndsValue (spaces ++ (comment ++ rest)) := by
  have hhead := head?_comment_append hcomment hrest
  cases spaces with
  | nil =>
      intro c hc
      rcases hhead c hc with rfl | rfl | rfl <;> simp
  | cons d spaces =>
      rintro c ⟨⟩
      rcases eq_of_isSpace (hspaces d (by simp)) with rfl | rfl <;> simp

theorem readLine_blank : readLine (spaces ++ (comment ++ rest)) = some (none, after) := by
  have hskip := skipSpaces_comment hspaces hcomment hrest
  have hend := skipComment_append hcomment hrest
  have hhead := head?_comment_append hcomment hrest
  unfold readLine
  rw [hskip]
  cases hline : comment ++ rest with
  | nil =>
      obtain ⟨-, rfl⟩ := List.append_eq_nil_iff.mp hline
      simpa [endOfLine?] using hrest
  | cons c tail =>
      rw [hline] at hend hhead
      simp [hhead c rfl, hend, hrest]

end Lines

theorem readLine_of_spells {text : List Char} {entry : Option Entry} (h : SpellsLine text entry)
    {rest after : List Char} (hrest : endOfLine? rest = some after) :
    readLine (text ++ rest) = some (entry, after) := by
  cases h with
  | blank hspaces hcomment => simpa using readLine_blank hspaces hcomment hrest
  | @entry spaces text behind comment entry hspaces h hbehind hcomment =>
      have hread := readEntry_of_spells h (endsValue_spaces_comment hbehind hcomment hrest)
      obtain ⟨c, tail, rfl, hc⟩ := h.exists_cons
      simp only [List.mem_cons, List.not_mem_nil, or_false, not_or] at hc
      have hskip : skipSpaces (spaces ++ (c :: (tail ++ (behind ++ (comment ++ rest))))) =
          c :: (tail ++ (behind ++ (comment ++ rest))) :=
        skipSpaces_append hspaces (by simp [startsWith, isSpace, hc])
      rw [List.cons_append] at hread
      simp [readLine, hskip, hc, hread, skipSpaces_comment hbehind hcomment hrest,
        skipComment_append hcomment hrest, hrest]

/-! ## Tables -/

theorem readLines_succ {text rest : List Char} {entry : Option Entry} (hne : text ≠ [])
    (hline : readLine text = some (entry, rest)) (fuel : Nat) :
    readLines (fuel + 1) text = (readLines fuel rest).map (entry.toList ++ ·) := by
  cases text with
  | nil => contradiction
  | cons c text => cases hread : readLines fuel rest <;> simp [readLines, hline, hread]

theorem SpellsLine.eq_none_of_nil {entry : Option Entry} (h : SpellsLine [] entry) :
    entry = none := by
  generalize htext : [] = text at h
  cases h with
  | blank => rfl
  | entry hspaces h =>
      cases h
      simp at htext

theorem readLines_of_spells {text : List Char} {entries : List Entry}
    (h : SpellsLines text entries) {fuel : Nat} (hfuel : text.length ≤ fuel) :
    readLines fuel text = some entries := by
  induction h generalizing fuel with
  | @last text entry h =>
      by_cases hne : text = []
      · subst hne
        simp [readLines, h.eq_none_of_nil]
      · have hread : readLine text = some (entry, []) := by
          simpa using readLine_of_spells h (rfl : endOfLine? [] = some [])
        cases fuel with
        | zero => simp_all
        | succ fuel => simp [readLines_succ hne hread, readLines]
  | @next line newline text entry entries hline hnewline h ih =>
      have hend : endOfLine? (newline ++ text) = some text := by
        cases hnewline <;> rfl
      have hne : line ++ (newline ++ text) ≠ [] := by
        cases hnewline <;> simp
      have hlength : 0 < newline.length := by
        cases hnewline <;> simp
      rw [List.append_assoc] at hfuel ⊢
      simp only [List.length_append] at hfuel
      cases fuel with
      | zero => omega
      | succ fuel =>
          rw [readLines_succ hne (readLine_of_spells hline hend), ih (by omega), Option.map_some]

/-- A text of the grammar does not start with a mark of the byte order. -/
theorem skipByteOrderMark_of_spells {text : List Char} {entries : List Entry}
    (h : SpellsLines text entries) : skipByteOrderMark text = text := by
  unfold skipByteOrderMark
  split
  · next rest =>
      have hread := readLines_of_spells h (Nat.le_refl _)
      simp [readLines, readLine, skipSpaces, isSpace, readEntry, readKey, isBareKeyChar,
        Char.isAlphanum] at hread
  · rfl

theorem readEntries?_of_spells {text : List Char} {entries : List Entry}
    (h : SpellsLines text entries) : readEntries? text = some entries := by
  rw [readEntries?, skipByteOrderMark_of_spells h]
  exact readLines_of_spells h (Nat.le_refl _)

theorem readTable?_of_spelledBy {text : String} {table : Table} (h : table.SpelledBy text) :
    readTable? text = some table := by
  simp [readTable?, readEntries?_of_spells h, table.nodup]

/-- A text spells one table at most. -/
theorem Table.eq_of_spelledBy {text : String} {table table' : Table} (h : table.SpelledBy text)
    (h' : table'.SpelledBy text) : table = table' := by
  have hread := readTable?_of_spelledBy h
  rw [readTable?_of_spelledBy h'] at hread
  exact (Option.some.inj hread).symm

end TagTemplate.Toml
