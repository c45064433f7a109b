import Mathlib.Data.String.Basic
import TagTemplate.Proofs.Document.Levels
import TagTemplate.Proofs.Numeral
import TagTemplate.Proofs.Token.Run

/-!
Lexemes.

`Lexeme place token source` says that `source` spells a token at a place, and `Token.EndsBefore`
says what can follow the token without becoming part of it.  Each scan gives a token exactly if a
lexeme of it is ahead which ends there: a lexeme is scanned in front of any such rest, and what a
scan has taken is a lexeme.
-/

namespace TagTemplate

/-! ## Bytes -/

theorem byteLength_eq_utf8Len (text : List Char) : byteLength text = String.utf8Len text := by
  have hfold : ∀ start, text.foldl (fun length c => length + c.utf8Size) start =
      start + String.utf8Len text := by
    induction text with
    | nil => simp
    | cons c text ih =>
        intro start
        rw [List.foldl_cons, ih, String.utf8Len_cons]
        omega
  rw [byteLength, hfold, Nat.zero_add]

@[simp] theorem byteLength_nil : byteLength [] = 0 := rfl

@[simp] theorem byteLength_cons (c : Char) (text : List Char) :
    byteLength (c :: text) = c.utf8Size + byteLength text := by
  rw [byteLength_eq_utf8Len, byteLength_eq_utf8Len, String.utf8Len_cons, Nat.add_comm]

@[simp] theorem byteLength_append (text text' : List Char) :
    byteLength (text ++ text') = byteLength text + byteLength text' := by
  simp only [byteLength_eq_utf8Len, String.utf8Len_append]

theorem byteLength_eq_zero_iff {text : List Char} : byteLength text = 0 ↔ text = [] := by
  rw [byteLength_eq_utf8Len, String.utf8Len_eq_zero]

theorem byteLength_toList (text : String) : byteLength text.toList = text.utf8ByteSize := by
  rw [byteLength_eq_utf8Len, ← String.utf8ByteSize_ofList, String.ofList_toList]

theorem byteLength_escape {c : Char} (hc : c.utf8Size = 1) (rest : List Char) :
    byteLength ('\\' :: c :: rest) = 2 + byteLength rest := by
  have hslash : '\\'.utf8Size = 1 := rfl
  rw [byteLength_cons, byteLength_cons, hslash, hc, ← Nat.add_assoc]

/-! ## Character classes -/

namespace Text

theorem Ranges.not_contains_of_disjoint {ranges ranges' : Ranges} {code : Nat}
    (hdisjoint : ∀ range ∈ ranges, ∀ range' ∈ ranges',
      range.2 < range'.1 ∨ range'.2 < range.1)
    (h : ranges.contains code = true) : ranges'.contains code = false := by
  rw [Bool.eq_false_iff]
  intro h'
  obtain ⟨range, hmem, hrange⟩ := exists_of_contains h
  obtain ⟨range', hmem', hrange'⟩ := exists_of_contains h'
  have := hdisjoint range hmem range' hmem'
  omega

/-- A table starts with its lowest interval. -/
theorem Ranges.le_of_contains {ranges : Ranges} {low high code : Nat}
    (hfirst : ranges.head? = some (low, high)) (h : ranges.contains code = true) :
    low ≤ code := by
  cases ranges with
  | nil => cases hfirst
  | cons range rest =>
      cases hfirst
      rw [contains] at h
      split at h
      · contradiction
      · omega

theorem isBlank_of_isAlphabetic {c : Char} (h : isAlphabetic c = true) : isBlank c = false :=
  Ranges.not_contains_of_disjoint (by decide +kernel) h

theorem toNat_of_isAlphabetic {c : Char} (h : isAlphabetic c = true) : 65 ≤ c.toNat := by
  have hfirst : alphabeticRanges.head? = some (65, 90) := rfl
  exact Ranges.le_of_contains hfirst h

theorem ne_of_isAlphabetic {c other : Char} (h : isAlphabetic c = true)
    (hother : other.toNat < 65) : c ≠ other := by
  rintro rfl
  have := toNat_of_isAlphabetic h
  omega

theorem isDigit_of_isAlphabetic {c : Char} (h : isAlphabetic c = true) : c.isDigit = false := by
  have := toNat_of_isAlphabetic h
  rw [Bool.eq_false_iff]
  intro hdigit
  simp only [Char.isDigit_iff_toNat, Char.reduceToNat] at hdigit
  omega

end Text

theorem isBlank_of_isDigit {c : Char} (h : c.isDigit = true) : Text.isBlank c = false := by
  have hcontains : Text.Ranges.contains [(48, 57)] c.toNat = true := by
    simp only [Char.isDigit_iff_toNat, Char.reduceToNat] at h
    simp [Text.Ranges.contains]
    omega
  exact Text.Ranges.not_contains_of_disjoint (by decide) hcontains

theorem startsWith_dropWhile (p : Char → Bool) (source : List Char) :
    startsWith p (source.dropWhile p) = false := by
  induction source with
  | nil => rfl
  | cons c rest ih =>
      rw [List.dropWhile_cons]
      split
      · exact ih
      · simp_all [startsWith]

theorem isName_iff {name : String} :
    isName name = true ↔
      ∃ c tail, name.toList = c :: tail ∧ Text.isAlphabetic c = true ∧
        ∀ d ∈ name.toList, isWordChar d = true := by
  unfold isName
  cases hname : name.toList with
  | nil => simp [startsWith]
  | cons c tail => simp [startsWith]

theorem toList_ne_nil_of_isName {name : String} (h : isName name = true) : name.toList ≠ [] := by
  obtain ⟨c, tail, hname, -⟩ := isName_iff.mp h
  simp [hname]

theorem isName_ofList_takeWhile {source : List Char}
    (h : startsWith Text.isAlphabetic source = true) :
    isName (String.ofList (source.takeWhile isWordChar)) = true := by
  cases source with
  | nil => simp [startsWith] at h
  | cons c tail =>
      have hletter : Text.isAlphabetic c = true := h
      have hword : isWordChar c = true := by simp [isWordChar, hletter]
      simp [isName, hword, startsWith, hletter]

theorem takeWhile_name {name : String} (h : isName name = true) {rest : List Char}
    (hrest : startsWith isWordChar rest = false) :
    (name.toList ++ rest).takeWhile isWordChar = name.toList := by
  obtain ⟨c, tail, -, -, hword⟩ := isName_iff.mp h
  exact takeWhile_append_stop hword hrest

theorem dropWhile_name {name : String} (h : isName name = true) {rest : List Char}
    (hrest : startsWith isWordChar rest = false) :
    (name.toList ++ rest).dropWhile isWordChar = rest := by
  obtain ⟨c, tail, -, -, hword⟩ := isName_iff.mp h
  exact dropWhile_append_stop hword hrest

/-! ## Text -/

/-- A text ends at the end of the input and before a tag. -/
def EndsText (rest : List Char) : Prop := rest = [] ∨ opensTag rest = true

/-- Text as it stands in source; a brace in it does not open a tag. -/
inductive TextSpelling : List Char → List Char → Prop
  | nil : TextSpelling [] []
  | escaped {c : Char} {source content : List Char} (hc : c = '{' ∨ c = '\\')
      (rest : TextSpelling source content) : TextSpelling ('\\' :: c :: source) (c :: content)
  | plain {c : Char} {source content : List Char} (hslash : c ≠ '\\')
      (hopen : opensTag (c :: source) = false) (rest : TextSpelling source content) :
      TextSpelling (c :: source) (c :: content)

theorem opensTag_iff {source : List Char} :
    opensTag source = true ↔ ∃ rest, source = '{' :: '$' :: rest := by
  unfold opensTag
  split
  · simp
  · next h =>
      simp only [Bool.false_eq_true, false_iff]
      rintro ⟨rest, rfl⟩
      exact h rest rfl

theorem opensTag_append {source : List Char} (h : opensTag source = true) (rest : List Char) :
    opensTag (source ++ rest) = true := by
  obtain ⟨tail, rfl⟩ := opensTag_iff.mp h
  rfl

theorem opensTag_cons_append {c : Char} {source rest : List Char}
    (h : opensTag (c :: source) = false)
    (hseam : source = [] → ¬(c = '{' ∧ rest.head? = some '$')) :
    opensTag (c :: (source ++ rest)) = false := by
  rw [Bool.eq_false_iff] at h ⊢
  intro hopen
  obtain ⟨tail, htail⟩ := opensTag_iff.mp hopen
  cases source with
  | nil =>
      rw [List.nil_append] at htail
      cases htail
      exact hseam rfl ⟨rfl, rfl⟩
  | cons d source =>
      rw [List.cons_append] at htail
      cases htail
      exact h rfl

theorem head?_of_endsText {rest : List Char} (h : EndsText rest) : rest.head? ≠ some '$' := by
  rcases h with rfl | hopen
  · simp
  · obtain ⟨tail, rfl⟩ := opensTag_iff.mp hopen
    simp

theorem scanText_stop {rest : List Char} (h : EndsText rest) (read : List Char) (offset : Nat) :
    scanText read rest offset = (.ok (textToken read.reverse), ⟨rest, offset⟩) := by
  rcases h with rfl | hopen
  · rfl
  · obtain ⟨tail, rfl⟩ := opensTag_iff.mp hopen
    simp [scanText, opensTag]

/-- A scan gives a token and leaves `rest`, at any offset. -/
def Scans (scan : Nat → Reading) (token : Token) (rest : List Char) : Prop :=
  ∀ offset, ∃ offset', scan offset = (.ok token, ⟨rest, offset'⟩)

namespace TextSpelling

variable {source content : List Char}

/-- A text is scanned before what goes on with it. -/
theorem scanText_append (h : TextSpelling source content) {rest : List Char}
    (hrest : rest.head? ≠ some '$') (read : List Char) (offset : Nat) :
    scanText read (source ++ rest) offset =
      scanText (content.reverse ++ read) rest (offset + byteLength source) := by
  induction h generalizing read offset with
  | nil => simp
  | @escaped c source content hc _ ih =>
      have hsize : c.utf8Size = 1 := by rcases hc with rfl | rfl <;> rfl
      simp [scanText, hc, ih, byteLength_escape hsize, Nat.add_assoc]
  | @plain c source content hslash hopen _ ih =>
      have hstays : opensTag (c :: (source ++ rest)) = false :=
        opensTag_cons_append hopen fun _ hseam => hrest hseam.2
      rw [List.cons_append, scanText.eq_def]
      simp [hslash, hstays, ih, Nat.add_assoc]

theorem scans (h : TextSpelling source content) {rest : List Char} (hends : EndsText rest)
    (read : List Char) :
    Scans (scanText read (source ++ rest)) (textToken (read.reverse ++ content)) rest := by
  intro offset
  rw [h.scanText_append (head?_of_endsText hends), scanText_stop hends]
  exact ⟨offset + byteLength source, by simp⟩

/-- Texts are joined unless their spellings form the opening of a tag. -/
theorem append (h : TextSpelling source content) {source' content' : List Char}
    (h' : TextSpelling source' content')
    (hseam : ¬(source.getLast? = some '{' ∧ source'.head? = some '$')) :
    TextSpelling (source ++ source') (content ++ content') := by
  induction h with
  | nil => exact h'
  | @escaped c source content hc _ ih =>
      refine .escaped hc (ih fun hrest => hseam ⟨?_, hrest.2⟩)
      rw [List.getLast?_cons_cons, List.getLast?_cons, hrest.1]
      rfl
  | @plain c source content hslash hopen _ ih =>
      -- only the last character of the first spelling sees the second one
      refine .plain hslash ?_ (ih fun hrest => hseam ⟨?_, hrest.2⟩)
      · refine opensTag_cons_append hopen fun hnil hbrace => hseam ⟨?_, hbrace.2⟩
        rw [hnil, hbrace.1]
        rfl
      · rw [List.getLast?_cons, hrest.1]
        rfl

theorem ne_nil (h : TextSpelling source content) (hne : content ≠ []) : source ≠ [] := by
  rintro rfl
  cases h
  exact hne rfl

theorem opensTag_append_eq_false (h : TextSpelling source content) (hne : content ≠ [])
    {rest : List Char} (hends : EndsText rest) : opensTag (source ++ rest) = false := by
  cases h with
  | nil => contradiction
  | escaped => rfl
  | plain hslash hopen _ =>
      exact opensTag_cons_append hopen fun _ hseam => head?_of_endsText hends hseam.2

end TextSpelling

theorem textSpelling_of_scanText {read source : List Char} {offset : Nat} {token : Token}
    {cursor : Cursor} (h : scanText read source offset = (.ok token, cursor)) :
    ∃ spelling content, source = spelling ++ cursor.rest ∧ TextSpelling spelling content ∧
      token = textToken (read.reverse ++ content) ∧ EndsText cursor.rest := by
  fun_induction scanText read source offset with
  | case1 read offset =>
      cases h
      exact ⟨[], [], rfl, .nil, by simp, .inl rfl⟩
  | case2 => cases h
  | case3 read offset c rest hc ih =>
      obtain ⟨spelling, content, rfl, hspelling, rfl, hends⟩ := ih h
      exact ⟨'\\' :: c :: spelling, c :: content, rfl, .escaped hc hspelling, by simp, hends⟩
  | case4 => cases h
  | case5 read c rest offset _ hopen =>
      cases h
      exact ⟨[], [], rfl, .nil, by simp, .inr hopen⟩
  | case6 read c rest offset hslash hopen ih =>
      obtain ⟨spelling, content, rfl, hspelling, rfl, hends⟩ := ih h
      have hopen' : opensTag (c :: spelling) = false := by
        rw [Bool.eq_false_iff]
        exact fun hc => hopen (opensTag_append hc cursor.rest)
      exact ⟨c :: spelling, c :: content, rfl, .plain hslash hopen' hspelling, by simp, hends⟩

/-! ## Strings -/

/-- The characters of a string as they stand between its quotes. -/
inductive StringSpelling : List Char → List Char → Prop
  | nil : StringSpelling [] []
  | escaped {c meant : Char} {source content : List Char} (hc : stringEscape? c = some meant)
      (rest : StringSpelling source content) :
      StringSpelling ('\\' :: c :: source) (meant :: content)
  | plain {c : Char} {source content : List Char} (hquote : c ≠ '"') (hslash : c ≠ '\\')
      (rest : StringSpelling source content) : StringSpelling (c :: source) (c :: content)

theorem utf8Size_of_stringEscape? {c meant : Char} (h : stringEscape? c = some meant) :
    c.utf8Size = 1 := by
  unfold stringEscape? at h
  split at h <;> first | rfl | contradiction

/-- A string is scanned before its end, or what is wrong with it. -/
theorem StringSpelling.scanString_append {source content : List Char}
    (h : StringSpelling source content) (start : Nat) (read rest : List Char) (offset : Nat) :
    scanString start read (source ++ rest) offset =
      scanString start (content.reverse ++ read) rest (offset + byteLength source) := by
  induction h generalizing read offset with
  | nil => simp
  | @escaped c meant source content hc _ ih =>
      simp [scanString, hc, ih, byteLength_escape (utf8Size_of_stringEscape? hc), Nat.add_assoc]
  | @plain c source content hquote hslash _ ih =>
      rw [List.cons_append, scanString.eq_def]
      simp [hquote, hslash, ih, Nat.add_assoc]

theorem StringSpelling.scans {source content : List Char} (h : StringSpelling source content)
    (start : Nat) (read rest : List Char) :
    Scans (scanString start read (source ++ '"' :: rest))
      (.str (String.ofList (read.reverse ++ content))) rest := by
  intro offset
  rw [h.scanString_append]
  exact ⟨offset + byteLength source + 1, by simp [scanString.eq_def]⟩

theorem stringSpelling_of_scanString {start : Nat} {read source : List Char} {offset : Nat}
    {token : Token} {cursor : Cursor}
    (h : scanString start read source offset = (.ok token, cursor)) :
    ∃ spelling content, source = spelling ++ '"' :: cursor.rest ∧
      StringSpelling spelling content ∧
      token = .str (String.ofList (read.reverse ++ content)) := by
  fun_induction scanString start read source offset with
  | case1 => cases h
  | case2 =>
      cases h
      exact ⟨[], [], rfl, .nil, by simp⟩
  | case3 => cases h
  | case4 read offset c rest meant hc _ ih =>
      obtain ⟨spelling, content, rfl, hspelling, rfl⟩ := ih h
      exact ⟨'\\' :: c :: spelling, meant :: content, rfl, .escaped hc hspelling, by simp⟩
  | case5 => cases h
  | case6 read c rest offset hquote hslash ih =>
      obtain ⟨spelling, content, rfl, hspelling, rfl⟩ := ih h
      exact ⟨c :: spelling, c :: content, rfl, .plain hquote hslash hspelling, by simp⟩

/-! ## Numerals -/

def minusIf (negative : Bool) : List Char := if negative then ['-'] else []

def startsFraction : List Char → Bool
  | '.' :: rest => startsWith Char.isDigit rest
  | _ => false

theorem startsNumeral_of_ne {c : Char} (rest : List Char) (h : c ≠ '-') :
    startsNumeral (c :: rest) = c.isDigit := by
  unfold startsNumeral
  split
  · simp_all
  · rfl

theorem startsNumeral_minusIf (negative : Bool) {unsigned : List Char}
    (h : startsWith Char.isDigit unsigned = true) :
    startsNumeral (minusIf negative ++ unsigned) = true := by
  cases negative with
  | true => simpa [minusIf, startsNumeral] using h
  | false =>
      cases unsigned with
      | nil => simp [startsWith] at h
      | cons c tail =>
          have hminus : c ≠ '-' := by
            rintro rfl
            simp [startsWith] at h
          simpa [minusIf, startsNumeral_of_ne tail hminus, startsWith] using h

theorem exists_minusIf_of_startsNumeral {text : List Char} (h : startsNumeral text = true) :
    ∃ negative unsigned, text = minusIf negative ++ unsigned ∧
      startsWith Char.isDigit unsigned = true := by
  unfold startsNumeral at h
  split at h
  · exact ⟨true, _, rfl, h⟩
  · exact ⟨false, _, rfl, h⟩

theorem spanNumeral_minusIf (negative : Bool) {unsigned : List Char}
    (h : startsWith Char.isDigit unsigned = true) :
    spanNumeral (minusIf negative ++ unsigned) =
      { spanUnsigned unsigned with
        literal := minusIf negative ++ (spanUnsigned unsigned).literal } := by
  cases negative with
  | true => simp [minusIf, spanNumeral]
  | false =>
      simp only [minusIf, Bool.false_eq_true, if_false, List.nil_append]
      unfold spanNumeral
      split
      · simp [startsWith] at h
      · rfl

theorem spanUnsigned_whole {whole rest : List Char} (hwhole : ∀ c ∈ whole, c.isDigit = true)
    (hdigit : startsWith Char.isDigit rest = false) (hfraction : startsFraction rest = false) :
    spanUnsigned (whole ++ rest) = ⟨whole, false, rest⟩ := by
  rw [spanUnsigned, takeWhile_append_stop hwhole hdigit, dropWhile_append_stop hwhole hdigit]
  split
  · next tail =>
      have htail : startsWith Char.isDigit tail = false := hfraction
      rw [htail]
      rfl
  · rfl

theorem spanUnsigned_fraction {whole fraction rest : List Char}
    (hwhole : ∀ c ∈ whole, c.isDigit = true) (hne : fraction ≠ [])
    (hfraction : ∀ c ∈ fraction, c.isDigit = true)
    (hdigit : startsWith Char.isDigit rest = false) :
    spanUnsigned (whole ++ '.' :: (fraction ++ rest)) =
      ⟨whole ++ '.' :: fraction, true, rest⟩ := by
  have hpoint : startsWith Char.isDigit ('.' :: (fraction ++ rest)) = false := by
    simp [startsWith]
  rw [spanUnsigned, takeWhile_append_stop hwhole hpoint, dropWhile_append_stop hwhole hpoint]
  simp only [startsWith_append _ hne hfraction, if_true, takeWhile_append_stop hfraction hdigit,
    dropWhile_append_stop hfraction hdigit]

theorem takeWhile_ne_nil {p : Char → Bool} {source : List Char} (h : startsWith p source = true) :
    source.takeWhile p ≠ [] := by
  cases source with
  | nil => simp [startsWith] at h
  | cons c rest => simp [show p c = true from h]

/-- An unsigned numeral is a run of digits, with or without a fraction. -/
theorem spanUnsigned_cases (text : List Char) :
    (∃ whole rest, text = whole ++ rest ∧ (∀ c ∈ whole, c.isDigit = true) ∧
      startsWith Char.isDigit rest = false ∧ startsFraction rest = false) ∨
    ∃ whole fraction rest, text = whole ++ '.' :: (fraction ++ rest) ∧
      (∀ c ∈ whole, c.isDigit = true) ∧ fraction ≠ [] ∧ (∀ c ∈ fraction, c.isDigit = true) ∧
      startsWith Char.isDigit rest = false := by
  have hdigits : ∀ source : List Char, ∀ c ∈ source.takeWhile Char.isDigit, c.isDigit = true :=
    fun source => List.all_eq_true.mp List.all_takeWhile
  have hsplit := List.takeWhile_append_dropWhile (p := Char.isDigit) (l := text)
  have hrest := startsWith_dropWhile Char.isDigit text
  cases hfraction : startsFraction (text.dropWhile Char.isDigit) with
  | false => exact .inl ⟨_, _, hsplit.symm, hdigits text, hrest, hfraction⟩
  | true =>
      unfold startsFraction at hfraction
      split at hfraction
      · next rest hpoint =>
          right
          refine ⟨text.takeWhile Char.isDigit, rest.takeWhile Char.isDigit,
            rest.dropWhile Char.isDigit, ?_, hdigits text, takeWhile_ne_nil hfraction,
            hdigits rest, startsWith_dropWhile Char.isDigit rest⟩
          rw [List.takeWhile_append_dropWhile, ← hpoint, hsplit]
      · contradiction

/-! ## Tokens -/

inductive Place where
  | text
  | tagStart
  | tag

/-- Lexemes inside a tag. -/
inductive TagLexeme : Token → List Char → Prop
  | close : TagLexeme .tagClose ['$', '}']
  | str {spelling content : List Char} (h : StringSpelling spelling content) :
      TagLexeme (.str (String.ofList content)) ('"' :: (spelling ++ ['"']))
  | function {name : String} (h : isName name = true) :
      TagLexeme (.function name) ('@' :: name.toList)
  | ident {name : String} (h : isName name = true) : TagLexeme (.ident name) name.toList
  | int {negative : Bool} {whole : List Char} {value : Int32} (hne : whole ≠ [])
      (hwhole : ∀ c ∈ whole, c.isDigit = true)
      (hvalue : Numeral.int32? (minusIf negative ++ whole) = some value) :
      TagLexeme (.int value) (minusIf negative ++ whole)
  | real {negative : Bool} {whole fraction : List Char} {value : Binary64} (hne : whole ≠ [])
      (hwhole : ∀ c ∈ whole, c.isDigit = true) (hne' : fraction ≠ [])
      (hfraction : ∀ c ∈ fraction, c.isDigit = true)
      (hvalue : Numeral.real? (minusIf negative ++ (whole ++ '.' :: fraction)) = some value) :
      TagLexeme (.real value) (minusIf negative ++ (whole ++ '.' :: fraction))
  | operator (op : Operator) : TagLexeme (.operator op) [op.symbol]

theorem TagLexeme.ne_eof {token : Token} {source : List Char} (h : TagLexeme token source) :
    token ≠ .eof := by
  cases h <;> nofun

theorem TagLexeme.ne_nil {token : Token} {source : List Char} (h : TagLexeme token source) :
    source ≠ [] := by
  cases h with
  | ident h => exact toList_ne_nil_of_isName h
  | int hne => simp [hne]
  | _ => simp

/-- Lexemes at the start of a tag, where a name or `=` is the name of the tag. -/
inductive TagStartLexeme : Token → List Char → Prop
  | echo : TagStartLexeme (.tagName "=") ['=']
  | word {name : String} (h : isName name = true) :
      TagStartLexeme (tagWord name.toList) name.toList
  | other {token : Token} {source : List Char} (h : TagLexeme token source)
      (hname : ∀ c ∈ source.head?, c ≠ '=' ∧ Text.isAlphabetic c = false) :
      TagStartLexeme token source

theorem TagStartLexeme.ne_eof {token : Token} {source : List Char}
    (h : TagStartLexeme token source) : token ≠ .eof := by
  cases h with
  | echo => nofun
  | word h =>
      unfold tagWord
      simp only
      split <;> nofun
  | other h => exact h.ne_eof

theorem TagStartLexeme.ne_nil {token : Token} {source : List Char}
    (h : TagStartLexeme token source) : source ≠ [] := by
  cases h with
  | echo => simp
  | word h => exact toList_ne_nil_of_isName h
  | other h => exact h.ne_nil

/-- In a tag there can be blanks in front. -/
inductive Lexeme : Place → Token → List Char → Prop
  | text {spelling content : List Char} (h : TextSpelling spelling content) (hne : content ≠ []) :
      Lexeme .text (.text (String.ofList content)) spelling
  | tagOpen : Lexeme .text .tagOpen ['{', '$']
  | tagStart {blanks source : List Char} {token : Token}
      (hblanks : ∀ c ∈ blanks, Text.isBlank c = true) (h : TagStartLexeme token source) :
      Lexeme .tagStart token (blanks ++ source)
  | tag {blanks source : List Char} {token : Token}
      (hblanks : ∀ c ∈ blanks, Text.isBlank c = true) (h : TagLexeme token source) :
      Lexeme .tag token (blanks ++ source)

/-- The token is not continued by what follows. -/
def Token.EndsBefore : Token → List Char → Prop
  | .text _, rest => EndsText rest
  | .tagName name, rest => name = "=" ∨ startsWith isWordChar rest = false
  | .ident _, rest => startsWith isWordChar rest = false
  | .function _, rest => startsWith isWordChar rest = false
  | .int _, rest => startsWith Char.isDigit rest = false ∧ startsFraction rest = false
  | .real _, rest => startsWith Char.isDigit rest = false
  | .operator op, rest => op = .sub → startsWith Char.isDigit rest = false
  | _, _ => True

/-! ## Reading a lexeme -/

/-- A token is read off the front of `source`, which does not start with a blank. -/
def ScansBy (scan : Char → List Char → Nat → Reading) (source : List Char) (token : Token)
    (rest : List Char) : Prop :=
  ∃ c tail, source = c :: tail ∧ Text.isBlank c = false ∧ Scans (scan c tail) token rest

abbrev ScansTag := ScansBy scanTagBody

theorem closesTag_cons_of_ne {c : Char} (rest : List Char) (h : c ≠ '$') :
    closesTag (c :: rest) = false := by
  unfold closesTag
  split
  · simp_all
  · rfl

theorem scanTagBody_of_isAlphabetic {c : Char} (h : Text.isAlphabetic c = true)
    (rest : List Char) (offset : Nat) :
    scanTagBody c rest offset =
      (.ok (.ident (String.ofList ((c :: rest).takeWhile isWordChar))),
        (Cursor.span ⟨c :: rest, offset⟩ isWordChar).2) := by
  have hclose := closesTag_cons_of_ne rest (Text.ne_of_isAlphabetic h (by decide))
  have hnumeral : startsNumeral (c :: rest) = false := by
    rw [startsNumeral_of_ne rest (Text.ne_of_isAlphabetic h (by decide))]
    exact Text.isDigit_of_isAlphabetic h
  have hquote : c ≠ '"' := Text.ne_of_isAlphabetic h (by decide)
  have hat : c ≠ '@' := Text.ne_of_isAlphabetic h (by decide)
  simp [scanTagBody, hclose, hnumeral, hquote, hat, h, Cursor.span]

theorem scansTag_ident {name : String} (h : isName name = true) {rest : List Char}
    (hrest : startsWith isWordChar rest = false) :
    ScansTag (name.toList ++ rest) (.ident name) rest := by
  obtain ⟨c, tail, hname, hletter, -⟩ := isName_iff.mp h
  refine ⟨c, tail ++ rest, by simp [hname], Text.isBlank_of_isAlphabetic hletter, ?_⟩
  intro offset
  have htake := takeWhile_name h hrest
  have hdrop := dropWhile_name h hrest
  rw [hname, List.cons_append] at htake hdrop
  rw [scanTagBody_of_isAlphabetic hletter, htake, ← hname, String.ofList_toList]
  exact ⟨_, by rw [Cursor.span, hdrop]⟩

theorem scansTag_function {name : String} (h : isName name = true) {rest : List Char}
    (hrest : startsWith isWordChar rest = false) :
    ScansTag ('@' :: name.toList ++ rest) (.function name) rest := by
  obtain ⟨c, tail, hname, hletter, -⟩ := isName_iff.mp h
  refine ⟨'@', name.toList ++ rest, rfl, by decide, ?_⟩
  intro offset
  have hstart : startsWith Text.isAlphabetic (name.toList ++ rest) = true := by
    simpa [hname, startsWith] using hletter
  refine ⟨offset + 1 + byteLength name.toList, ?_⟩
  simp [scanTagBody, closesTag, hstart, Cursor.span, takeWhile_name h hrest,
    dropWhile_name h hrest]

theorem scansTag_str {spelling content : List Char} (h : StringSpelling spelling content)
    (rest : List Char) :
    ScansTag ('"' :: (spelling ++ ['"']) ++ rest) (.str (String.ofList content)) rest := by
  refine ⟨'"', spelling ++ '"' :: rest, by simp, by decide, ?_⟩
  intro offset
  obtain ⟨offset', hscan⟩ := h.scans offset [] rest (offset + 1)
  exact ⟨offset', by simpa [scanTagBody, closesTag] using hscan⟩

theorem isBlank_of_startsNumeral {c : Char} {tail : List Char}
    (h : startsNumeral (c :: tail) = true) : Text.isBlank c = false := by
  by_cases hminus : c = '-'
  · rw [hminus]
    decide
  · rw [startsNumeral_of_ne tail hminus] at h
    exact isBlank_of_isDigit h

theorem scanTagBody_of_startsNumeral {c : Char} {tail : List Char}
    (h : startsNumeral (c :: tail) = true) (offset : Nat) :
    scanTagBody c tail offset = scanNumeral ⟨c :: tail, offset⟩ := by
  have hne : ∀ other : Char, other ≠ '-' → other.isDigit = false → c ≠ other := by
    rintro other hminus hdigit rfl
    rw [startsNumeral_of_ne tail hminus, hdigit] at h
    contradiction
  have hclose := closesTag_cons_of_ne tail (hne '$' (by decide) (by decide))
  have hquote := hne '"' (by decide) (by decide)
  have hat := hne '@' (by decide) (by decide)
  simp [scanTagBody, hclose, hquote, hat, h]

theorem scansTag_numeral {literal rest : List Char} {hasFraction : Bool} {token : Token}
    (hstart : startsNumeral (literal ++ rest) = true)
    (hspan : spanNumeral (literal ++ rest) = ⟨literal, hasFraction, rest⟩)
    (htoken : numeralToken? ⟨literal, hasFraction, rest⟩ = some token) :
    ScansTag (literal ++ rest) token rest := by
  cases hsource : literal ++ rest with
  | nil => simp [hsource, startsNumeral, startsWith] at hstart
  | cons c tail =>
      rw [hsource] at hstart hspan
      refine ⟨c, tail, rfl, isBlank_of_startsNumeral hstart, fun offset => ?_⟩
      refine ⟨offset + byteLength literal, ?_⟩
      simp [scanTagBody_of_startsNumeral hstart, scanNumeral, hspan, htoken]

theorem spanNumeral_unsigned (negative : Bool) {hasFraction : Bool} {unsigned rest : List Char}
    (hfirst : startsWith Char.isDigit (unsigned ++ rest) = true)
    (hspan : spanUnsigned (unsigned ++ rest) = ⟨unsigned, hasFraction, rest⟩) :
    startsNumeral (minusIf negative ++ unsigned ++ rest) = true ∧
      spanNumeral (minusIf negative ++ unsigned ++ rest) =
        ⟨minusIf negative ++ unsigned, hasFraction, rest⟩ := by
  rw [List.append_assoc]
  refine ⟨startsNumeral_minusIf negative hfirst, ?_⟩
  rw [spanNumeral_minusIf negative hfirst, hspan]

theorem scansTag_unsigned {negative hasFraction : Bool} {unsigned rest : List Char} {token : Token}
    (hfirst : startsWith Char.isDigit (unsigned ++ rest) = true)
    (hspan : spanUnsigned (unsigned ++ rest) = ⟨unsigned, hasFraction, rest⟩)
    (htoken : numeralToken? ⟨minusIf negative ++ unsigned, hasFraction, rest⟩ = some token) :
    ScansTag (minusIf negative ++ unsigned ++ rest) token rest := by
  obtain ⟨hstart, hspan⟩ := spanNumeral_unsigned negative hfirst hspan
  exact scansTag_numeral hstart hspan htoken

theorem scansTag_operator {op : Operator} {rest : List Char}
    (h : op = .sub → startsWith Char.isDigit rest = false) :
    ScansTag (op.symbol :: rest) (.operator op) rest := by
  refine ⟨op.symbol, rest, rfl, by cases op <;> decide, ?_⟩
  intro offset
  refine ⟨offset + op.symbol.utf8Size, ?_⟩
  have hletter : Text.isAlphabetic op.symbol = false := by cases op <;> decide
  cases op <;> simp_all [scanTagBody, closesTag, startsNumeral, startsWith, Operator.symbol,
    Operator.ofChar?]

theorem scansTag_of_tagLexeme {token : Token} {source rest : List Char}
    (h : TagLexeme token source) (hends : token.EndsBefore rest) :
    ScansTag (source ++ rest) token rest := by
  cases h with
  | close =>
      refine ⟨'$', '}' :: rest, rfl, by decide, fun offset => ⟨offset + 2, ?_⟩⟩
      simp [scanTagBody, closesTag]
  | str h => exact scansTag_str h rest
  | function h => exact scansTag_function h hends
  | ident h => exact scansTag_ident h hends
  | int hne hwhole hvalue =>
      exact scansTag_unsigned (startsWith_append rest hne hwhole)
        (spanUnsigned_whole hwhole hends.1 hends.2) (by simp [numeralToken?, hvalue])
  | @real negative whole fraction value hne hwhole hne' hfraction hvalue =>
      have hspan := spanUnsigned_fraction hwhole hne' hfraction hends
      rw [← List.cons_append, ← List.append_assoc] at hspan
      refine scansTag_unsigned ?_ hspan (by simp [numeralToken?, hvalue])
      rw [List.append_assoc]
      exact startsWith_append _ hne hwhole
  | operator op => exact scansTag_operator hends

theorem endsBefore_tagWord_iff {word rest : List Char} :
    (tagWord word).EndsBefore rest ↔ startsWith isWordChar rest = false := by
  unfold tagWord
  simp only
  split
  · next hname =>
      refine or_iff_right ?_
      rcases hname with hname | hname <;> simp [hname]
  · exact Iff.rfl

theorem scansBy_of_tagStartLexeme {token : Token} {source rest : List Char}
    (h : TagStartLexeme token source) (hends : token.EndsBefore rest) :
    ScansBy scanTagStart (source ++ rest) token rest := by
  cases h with
  | echo =>
      refine ⟨'=', rest, rfl, by decide, fun offset => ⟨offset + 1, ?_⟩⟩
      simp [scanTagStart]
  | @word name h =>
      rw [endsBefore_tagWord_iff] at hends
      obtain ⟨c, tail, hname, hletter, -⟩ := isName_iff.mp h
      refine ⟨c, tail ++ rest, by simp [hname], Text.isBlank_of_isAlphabetic hletter, ?_⟩
      intro offset
      have hne : c ≠ '=' := Text.ne_of_isAlphabetic hletter (by decide)
      have htake := takeWhile_name h hends
      have hdrop := dropWhile_name h hends
      rw [hname, List.cons_append] at htake hdrop
      refine ⟨offset + byteLength (c :: tail), ?_⟩
      simp [scanTagStart, hne, hletter, Cursor.span, htake, hdrop, hname]
  | other h hname =>
      obtain ⟨c, tail, hsource, hblank, hscan⟩ := scansTag_of_tagLexeme h hends
      refine ⟨c, tail, hsource, hblank, fun offset => ?_⟩
      have hhead : c ∈ source.head? := by
        cases source with
        | nil => exact absurd rfl h.ne_nil
        | cons d source =>
            cases hsource
            rfl
      simpa [scanTagStart, hname c hhead] using hscan offset

/-! ## Lexemes of tokens that were read -/

theorem scanNumeral_eq_ok {cursor cursor' : Cursor} {token : Token}
    (h : scanNumeral cursor = (.ok token, cursor')) :
    numeralToken? (spanNumeral cursor.rest) = some token ∧
      cursor'.rest = (spanNumeral cursor.rest).rest := by
  unfold scanNumeral at h
  simp only at h
  split at h
  · rename_i token' htoken
    cases h
    exact ⟨htoken, rfl⟩
  · cases h

theorem tagLexeme_of_scanNumeral {cursor cursor' : Cursor} {token : Token}
    (hstart : startsNumeral cursor.rest = true) (h : scanNumeral cursor = (.ok token, cursor')) :
    ∃ source, cursor.rest = source ++ cursor'.rest ∧ TagLexeme token source ∧
      token.EndsBefore cursor'.rest := by
  obtain ⟨htoken, hrest⟩ := scanNumeral_eq_ok h
  obtain ⟨negative, unsigned, htext, hfirst⟩ := exists_minusIf_of_startsNumeral hstart
  rw [htext, spanNumeral_minusIf negative hfirst] at htoken hrest
  rw [htext]
  rcases spanUnsigned_cases unsigned with ⟨whole, rest, rfl, hwhole, hdigit, hpoint⟩ |
    ⟨whole, fraction, rest, rfl, hwhole, hne, hfraction, hdigit⟩
  · rw [spanUnsigned_whole hwhole hdigit hpoint] at htoken hrest
    obtain ⟨value, hvalue, rfl⟩ := Option.map_eq_some_iff.mp htoken
    have hne : whole ≠ [] := by
      rintro rfl
      rw [List.nil_append, hdigit] at hfirst
      contradiction
    rw [hrest]
    exact ⟨_, (List.append_assoc ..).symm, .int hne hwhole hvalue, hdigit, hpoint⟩
  · rw [spanUnsigned_fraction hwhole hne hfraction hdigit] at htoken hrest
    obtain ⟨value, hvalue, rfl⟩ := Option.map_eq_some_iff.mp htoken
    have hne' : whole ≠ [] := by
      rintro rfl
      contradiction
    rw [hrest]
    exact ⟨_, by simp, .real hne' hwhole hne hfraction hvalue, hdigit⟩

theorem tagLexeme_of_scanTagBody {c : Char} {rest : List Char} {offset : Nat} {token : Token}
    {cursor : Cursor} (h : scanTagBody c rest offset = (.ok token, cursor)) :
    ∃ source, c :: rest = source ++ cursor.rest ∧ TagLexeme token source ∧
      token.EndsBefore cursor.rest := by
  unfold scanTagBody at h
  simp only at h
  split at h
  · next hclose =>
      cases h
      unfold closesTag at hclose
      split at hclose
      · next tail htail =>
          cases htail
          exact ⟨_, rfl, .close, trivial⟩
      · contradiction
  split at h
  · next hquote =>
      obtain ⟨spelling, content, rfl, hspelling, rfl⟩ := stringSpelling_of_scanString h
      exact ⟨_, by simp [hquote], .str hspelling, trivial⟩
  split at h
  · next hat =>
      split at h
      · next hletter =>
          cases h
          refine ⟨_, ?_, .function (isName_ofList_takeWhile hletter),
            startsWith_dropWhile isWordChar rest⟩
          rw [hat, String.toList_ofList, List.cons_append, Cursor.span,
            List.takeWhile_append_dropWhile]
      · cases h
  split at h
  · next hnumeral => exact tagLexeme_of_scanNumeral hnumeral h
  split at h
  · next hletter =>
      cases h
      refine ⟨_, ?_, .ident (isName_ofList_takeWhile hletter), startsWith_dropWhile isWordChar _⟩
      rw [String.toList_ofList, Cursor.span, List.takeWhile_append_dropWhile]
  next hnumeral _ =>
  split at h
  · next op hop =>
      cases h
      obtain rfl := Operator.symbol_eq_of_ofChar? hop
      refine ⟨_, rfl, .operator op, ?_⟩
      rintro rfl
      simpa [startsNumeral, Operator.symbol] using hnumeral
  · cases h

theorem tagStartLexeme_of_scanTagStart {c : Char} {rest : List Char} {offset : Nat} {token : Token}
    {cursor : Cursor} (h : scanTagStart c rest offset = (.ok token, cursor)) :
    ∃ source, c :: rest = source ++ cursor.rest ∧ TagStartLexeme token source ∧
      token.EndsBefore cursor.rest := by
  unfold scanTagStart at h
  split at h
  · next hc =>
      cases h
      exact ⟨['='], by rw [hc]; rfl, .echo, .inl rfl⟩
  split at h
  · next hletter =>
      cases h
      have hword := TagStartLexeme.word (@isName_ofList_takeWhile (c :: rest) hletter)
      rw [String.toList_ofList] at hword
      exact ⟨_, List.takeWhile_append_dropWhile.symm, hword,
        endsBefore_tagWord_iff.mpr (startsWith_dropWhile isWordChar (c :: rest))⟩
  · next hc hletter =>
      obtain ⟨source, hsource, hlexeme, hends⟩ := tagLexeme_of_scanTagBody h
      refine ⟨source, hsource, .other hlexeme ?_, hends⟩
      cases source with
      | nil => exact absurd rfl hlexeme.ne_nil
      | cons d source =>
          cases hsource
          rintro _ ⟨⟩
          exact ⟨hc, by simpa using hletter⟩

end TagTemplate
