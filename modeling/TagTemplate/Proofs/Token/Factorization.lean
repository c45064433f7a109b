import TagTemplate.Proofs.Rounding
import TagTemplate.Proofs.Token.Shape

/-!
A source is spelled by its tokens.

`Token.Spells token spelling` says what stands in a source for a token, with the values of numerals
and the meaning of escapes, and `WellPlaced` says where in a stream which tokens stand.  The
characters of a source are the spellings of its tokens one behind the other; only blanks at the end
of a source that ends inside a tag belong to none (`tokenize_factors`).
-/

namespace TagTemplate

/-! ## Values of numerals -/

namespace Numeral

def SpellsInt (spelling : List Char) (value : Int) : Prop :=
  ∃ negative digits, spelling = minusIf negative ++ digits ∧ isDigits digits = true ∧
    value = if negative then -(digitsValue digits : Int) else digitsValue digits

/-- The number is the nearest one to the decimal; a zero has a sign, too. -/
def SpellsReal (spelling : List Char) (value : Binary64) : Prop :=
  ∃ negative whole fraction, spelling = minusIf negative ++ (whole ++ '.' :: fraction) ∧
    isDigits whole = true ∧ isDigits fraction = true ∧
    value.isFinite = true ∧ value.isNegative = negative ∧
    Binary64.IsNearest ⟨digitsValue (whole ++ fraction), fraction.length⟩ value.magnitude

theorem isDigits_iff {text : List Char} :
    isDigits text = true ↔ text ≠ [] ∧ ∀ c ∈ text, c.isDigit = true := by
  simp [isDigits]

theorem splitSign_minusIf (negative : Bool) {unsigned : List Char}
    (h : startsWith Char.isDigit unsigned = true) :
    splitSign (minusIf negative ++ unsigned) = (negative, unsigned) := by
  cases negative with
  | true => rfl
  | false => exact splitSign_of_startsWith h

theorem integer?_of_int32? {text : List Char} {value : Int32} (h : int32? text = some value) :
    integer? text = some value.toInt := by
  obtain ⟨n, hread, h⟩ := Option.bind_eq_some_iff.mp h
  rw [hread]
  split at h
  · next hrange =>
      obtain ⟨hlow, hhigh⟩ := hrange
      rw [← Option.some.inj h, Int32.toInt_ofInt_of_le hlow (Int.lt_add_one_of_le hhigh)]
  · contradiction

theorem integer?_minusIf (negative : Bool) {digits : List Char} (hne : digits ≠ [])
    (hdigits : ∀ c ∈ digits, c.isDigit = true) :
    integer? (minusIf negative ++ digits) =
      some (if negative then -(digitsValue digits : Int) else digitsValue digits) := by
  have hfirst : startsWith Char.isDigit digits = true := by
    simpa using startsWith_append [] hne hdigits
  simp only [integer?, splitSign_minusIf negative hfirst, isDigits_iff.mpr ⟨hne, hdigits⟩, if_true]

theorem spellsInt_of_int32? {negative : Bool} {digits : List Char} {value : Int32}
    (hne : digits ≠ []) (hdigits : ∀ c ∈ digits, c.isDigit = true)
    (h : int32? (minusIf negative ++ digits) = some value) :
    SpellsInt (minusIf negative ++ digits) value.toInt := by
  have hread := integer?_of_int32? h
  rw [integer?_minusIf negative hne hdigits] at hread
  exact ⟨negative, digits, rfl, isDigits_iff.mpr ⟨hne, hdigits⟩, (Option.some.inj hread).symm⟩

theorem decimal?_append {whole fraction : List Char} (hne : whole ≠ [])
    (hwhole : ∀ c ∈ whole, c.isDigit = true) (hfraction : ∀ c ∈ fraction, c.isDigit = true) :
    decimal? (whole ++ '.' :: fraction) =
      some ⟨digitsValue (whole ++ fraction), fraction.length⟩ := by
  simp [decimal?, splitPoint_append hwhole hfraction, hne, exponent?, Decimal.ofScaled]

theorem real?_minusIf (negative : Bool) {whole fraction : List Char} (hne : whole ≠ [])
    (hwhole : ∀ c ∈ whole, c.isDigit = true) (hfraction : ∀ c ∈ fraction, c.isDigit = true) :
    real? (minusIf negative ++ (whole ++ '.' :: fraction)) =
      let magnitude :=
        Binary64.nearestDecimal ⟨digitsValue (whole ++ fraction), fraction.length⟩
      if magnitude < Binary64.infiniteMagnitude then
        some (Binary64.ofMagnitude negative magnitude)
      else none := by
  have hfirst := startsWith_append ('.' :: fraction) hne hwhole
  simp only [real?, splitSign_minusIf negative hfirst, decimal?_append hne hwhole hfraction]
  rw [Option.bind_eq_bind, Option.bind_some]

theorem spellsReal_of_real? {negative : Bool} {whole fraction : List Char} {value : Binary64}
    (hne : whole ≠ []) (hwhole : ∀ c ∈ whole, c.isDigit = true) (hne' : fraction ≠ [])
    (hfraction : ∀ c ∈ fraction, c.isDigit = true)
    (h : real? (minusIf negative ++ (whole ++ '.' :: fraction)) = some value) :
    SpellsReal (minusIf negative ++ (whole ++ '.' :: fraction)) value := by
  refine ⟨negative, whole, fraction, rfl, isDigits_iff.mpr ⟨hne, hwhole⟩,
    isDigits_iff.mpr ⟨hne', hfraction⟩, isFinite_of_real? h, ?_⟩
  rw [real?_minusIf negative hne hwhole hfraction] at h
  simp only at h
  split at h
  · next hmagnitude =>
      obtain rfl := Option.some.inj h
      rw [Binary64.isNegative_ofMagnitude _ hmagnitude,
        Binary64.magnitude_ofMagnitude _ hmagnitude]
      exact ⟨rfl, Binary64.isNearest_nearestDecimal _⟩
  · contradiction

end Numeral

/-! ## Spellings of tokens -/

namespace Token

/-- What stands in a tag for a token, behind the blanks in front of it. -/
def SpellsInTag : Token → List Char → Prop
  | tagClose, spelling => spelling = ['$', '}']
  | tagName name, spelling =>
      name = "=" ∧ spelling = ['='] ∨
        (name = "for" ∨ name = "end") ∧ spelling.map Char.toLower = name.toList
  | ident name, spelling => isName name = true ∧ spelling = name.toList
  | function name, spelling => isName name = true ∧ spelling = '@' :: name.toList
  | int value, spelling => Numeral.SpellsInt spelling value.toInt
  | real value, spelling => Numeral.SpellsReal spelling value
  | str content, spelling =>
      ∃ inside, spelling = '"' :: (inside ++ ['"']) ∧ StringSpelling inside content.toList
  | operator op, spelling => spelling = [op.symbol]
  | _, _ => False

def Spells : Token → List Char → Prop
  | text content, spelling => TextSpelling spelling content.toList ∧ content ≠ ""
  | tagOpen, spelling => spelling = ['{', '$']
  | token, spelling =>
      ∃ blanks lexeme, spelling = blanks ++ lexeme ∧ (∀ c ∈ blanks, Text.isBlank c = true) ∧
        token.SpellsInTag lexeme

/-- Texts and the openings of tags stand outside of tags. -/
def isOutside : Token → Bool
  | text _ | tagOpen => true
  | _ => false

theorem spells_of_spellsInTag {token : Token} {blanks lexeme : List Char}
    (hblanks : ∀ c ∈ blanks, Text.isBlank c = true) (h : token.SpellsInTag lexeme) :
    token.Spells (blanks ++ lexeme) := by
  cases token with
  | text content => exact h.elim
  | tagOpen => exact h.elim
  | _ => exact ⟨blanks, lexeme, rfl, hblanks, h⟩

theorem isOutside_of_spellsInTag {token : Token} {lexeme : List Char}
    (h : token.SpellsInTag lexeme) : token.isOutside = false := by
  cases token with
  | text content => exact h.elim
  | tagOpen => exact h.elim
  | _ => rfl

end Token

theorem TagLexeme.spellsInTag {token : Token} {source : List Char} (h : TagLexeme token source) :
    token.SpellsInTag source := by
  cases h with
  | close => rfl
  | str h => exact ⟨_, rfl, by rwa [String.toList_ofList]⟩
  | function h => exact ⟨h, rfl⟩
  | ident h => exact ⟨h, rfl⟩
  | int hne hwhole hvalue => exact Numeral.spellsInt_of_int32? hne hwhole hvalue
  | real hne hwhole hne' hfraction hvalue =>
      exact Numeral.spellsReal_of_real? hne hwhole hne' hfraction hvalue
  | operator op => rfl

theorem spellsInTag_tagWord {name : String} (h : isName name = true) :
    (tagWord name.toList).SpellsInTag name.toList := by
  unfold tagWord
  simp only
  split
  · next hname => exact .inr ⟨hname, String.toList_ofList.symm⟩
  · exact ⟨by rwa [String.ofList_toList], by rw [String.ofList_toList]⟩

theorem TagStartLexeme.spellsInTag {token : Token} {source : List Char}
    (h : TagStartLexeme token source) : token.SpellsInTag source := by
  cases h with
  | echo => exact .inl ⟨rfl, rfl⟩
  | word h => exact spellsInTag_tagWord h
  | other h => exact h.spellsInTag

namespace Lexeme

variable {place : Place} {token : Token} {source : List Char}

theorem spells (h : Lexeme place token source) : token.Spells source := by
  cases h with
  | text h hne => exact ⟨by rwa [String.toList_ofList], by simpa using hne⟩
  | tagOpen => rfl
  | tagStart hblanks h => exact Token.spells_of_spellsInTag hblanks h.spellsInTag
  | tag hblanks h => exact Token.spells_of_spellsInTag hblanks h.spellsInTag

theorem isOutside_iff (h : Lexeme place token source) :
    token.isOutside = true ↔ place = .text := by
  cases h with
  | text => exact iff_of_true rfl rfl
  | tagOpen => exact iff_of_true rfl rfl
  | tagStart _ h => simp [Token.isOutside_of_spellsInTag h.spellsInTag]
  | tag _ h => simp [Token.isOutside_of_spellsInTag h.spellsInTag]

theorem place_of_tagName {name : String} (h : Lexeme place (.tagName name) source) :
    place = .tagStart := by
  cases h with
  | tagStart => rfl
  | tag _ h => nomatch h

end Lexeme

/-! ## Places in a stream -/

/-- A tag has been opened since the last closing. -/
def InTag (before : List Token) : Prop :=
  ∃ front inner, before = front ++ .tagOpen :: inner ∧ .tagClose ∉ inner

structure WellPlaced (body : List Token) : Prop where
  eof_not_mem : .eof ∉ body
  texts_apart : body.IsChain fun a b => ¬(a.isText = true ∧ b.isText = true)
  isOutside_iff : ∀ before token after, body = before ++ token :: after →
    (token.isOutside = true ↔ ¬InTag before)
  name_first : ∀ before name after, body = before ++ .tagName name :: after →
    before.getLast? = some .tagOpen

theorem not_inTag_nil : ¬InTag [] := by
  simp [InTag]

theorem inTag_concat_iff {before : List Token} {token : Token} :
    InTag (before ++ [token]) ↔ token = .tagOpen ∨ InTag before ∧ token ≠ .tagClose := by
  constructor
  · rintro ⟨front, inner, hsplit, hclose⟩
    rcases inner.eq_nil_or_concat with rfl | ⟨inner, last, rfl⟩
    · exact .inl (by simpa using (List.append_inj' hsplit rfl).2)
    · rw [List.concat_eq_append, ← List.cons_append, ← List.append_assoc] at hsplit
      obtain ⟨rfl, hlast⟩ := List.append_inj' hsplit rfl
      cases hlast
      simp only [List.concat_eq_append, List.mem_append, List.mem_singleton, not_or] at hclose
      exact .inr ⟨⟨front, inner, rfl, hclose.1⟩, Ne.symm hclose.2⟩
  · rintro (rfl | ⟨⟨front, inner, rfl, hclose⟩, hne⟩)
    · exact ⟨before, [], rfl, by simp⟩
    · exact ⟨front, inner ++ [token], by simp, by simp [hclose, Ne.symm hne]⟩

namespace Place

theorem after_ne_text_iff (place : Place) (token : Token) :
    place.after token ≠ .text ↔ token = .tagOpen ∨ place ≠ .text ∧ token ≠ .tagClose := by
  cases place <;> cases token <;> simp [after]

theorem eq_tagOpen_of_after {place : Place} {token : Token} (h : place.after token = .tagStart) :
    token = .tagOpen := by
  cases place <;> cases token <;> simp_all [after]

theorem foldl_after_ne_text_iff (tokens : List Token) :
    tokens.foldl after .text ≠ .text ↔ InTag tokens := by
  induction tokens using List.reverseRecOn with
  | nil => simp [not_inTag_nil]
  | append_singleton tokens token ih =>
      rw [List.foldl_concat, inTag_concat_iff, ← ih, after_ne_text_iff]

theorem getLast?_of_foldl_after {tokens : List Token}
    (h : tokens.foldl after .text = .tagStart) : tokens.getLast? = some .tagOpen := by
  rcases tokens.eq_nil_or_concat with rfl | ⟨tokens, token, rfl⟩
  · cases h
  · rw [List.concat_eq_append, List.foldl_concat] at h
    rw [eq_tagOpen_of_after h, List.concat_eq_append, List.getLast?_concat]

end Place

namespace Lexer

/-! ## Runs -/

theorem Run.place_eq {lexer final : Lexer} {tokens : List Token} (h : lexer.Run tokens final) :
    final.place = tokens.foldl Place.after lexer.place := by
  induction h with
  | refl => rfl
  | next hnext hne _ ih => rw [ih, place_of_next hnext hne, List.foldl_cons]

theorem Run.factors {lexer final : Lexer} {tokens : List Token} (h : lexer.Run tokens final) :
    ∃ spellings, lexer.cursor.rest = spellings.flatten ++ final.cursor.rest ∧
      List.Forall₂ Token.Spells tokens spellings := by
  induction h with
  | refl => exact ⟨[], rfl, .nil⟩
  | next hnext hne _ ih =>
      obtain ⟨spelling, hsource, hlexeme, -⟩ := lexeme_of_next hnext hne
      obtain ⟨spellings, hrest, hspells⟩ := ih
      refine ⟨spelling :: spellings, ?_, .cons hlexeme.spells hspells⟩
      rw [hsource, List.flatten_cons, List.append_assoc, ← hrest]
      rfl

/-- A member of a run was read from the place to which the members before it lead. -/
theorem Run.exists_lexeme {lexer final : Lexer} {before after : List Token} {token : Token}
    (h : lexer.Run (before ++ token :: after) final) :
    ∃ source, Lexeme (before.foldl Place.after lexer.place) token source := by
  obtain ⟨mid, hbefore, hrest⟩ := h.split
  obtain ⟨_, hnext, hne, -⟩ := hrest.exists_next
  obtain ⟨source, -, hlexeme, -⟩ := lexeme_of_next hnext hne
  exact ⟨source, hbefore.place_eq ▸ hlexeme⟩

theorem Run.wellPlaced {lexer final : Lexer} {tokens : List Token} (h : lexer.Run tokens final)
    (hplace : lexer.place = .text) : WellPlaced tokens where
  eof_not_mem := h.eof_not_mem
  texts_apart := h.textsApart
  isOutside_iff := by
    rintro before token after rfl
    obtain ⟨source, hlexeme⟩ := h.exists_lexeme
    rw [hlexeme.isOutside_iff, hplace, ← Place.foldl_after_ne_text_iff, not_not]
  name_first := by
    rintro before name after rfl
    obtain ⟨source, hlexeme⟩ := h.exists_lexeme
    rw [hplace] at hlexeme
    exact Place.getLast?_of_foldl_after hlexeme.place_of_tagName

end Lexer

/--
The characters of a source are the spellings of its tokens, in their order; what is left are blanks
at the end of a source that ends inside a tag.
-/
theorem tokenize_factors {source : String} {tokens : List Token}
    (h : tokenize source = .ok tokens) :
    ∃ body spellings rest, tokens = body ++ [.eof] ∧ source.toList = spellings.flatten ++ rest ∧
      List.Forall₂ Token.Spells body spellings ∧
      (rest = [] ∨ InTag body ∧ ∀ c ∈ rest, Text.isBlank c = true) ∧ WellPlaced body := by
  obtain ⟨body, final, after, rfl, hrun, hnext⟩ := tokenize_eq_ok_iff.mp h
  obtain ⟨spellings, hsource, hspells⟩ := hrun.factors
  refine ⟨body, spellings, final.cursor.rest, rfl, hsource, hspells, ?_, hrun.wellPlaced rfl⟩
  cases hmode : final.mode with
  | text => exact .inl ((Lexer.next_eof_iff hmode).mp ⟨after, hnext⟩)
  | tag =>
      have hread := Lexer.read_of_next hnext
      rw [Lexer.read, hmode] at hread
      refine .inr ⟨?_, (Lexer.rest_of_readTag_eof hread).1⟩
      have hplace : final.place ≠ .text := by simp [Ne, Lexer.place_eq_text_iff, hmode]
      rw [hrun.place_eq] at hplace
      exact (Place.foldl_after_ne_text_iff body).mp hplace

/-- An escape in the text, a numeral with a leading zero, and a tag that is not closed. -/
theorem tokenize_factors_unclosed :
    let source := "a\\\x7b\x7b$ FoR i -05 \"\\n\" $\x7d\x7b$= 1.5 @sin  "
    let body : List Token :=
      [.text "a\x7b", .tagOpen, .tagName "for", .ident "i", .int (-5), .str "\n", .tagClose,
        .tagOpen, .tagName "=", .real ⟨0x3FF8000000000000⟩, .function "sin"]
    tokenize source = .ok (body ++ [.eof]) ∧
      (∃ spellings rest, source.toList = spellings.flatten ++ rest ∧
        List.Forall₂ Token.Spells body spellings ∧
        (rest = [] ∨ InTag body ∧ ∀ c ∈ rest, Text.isBlank c = true)) ∧
      WellPlaced body := by
  intro source body
  have htokens : tokenize source = .ok (body ++ [.eof]) := by decide +kernel
  obtain ⟨body', spellings, rest, hbody, hsource, hspells, hrest, hplaced⟩ :=
    tokenize_factors htokens
  obtain rfl := List.append_cancel_right hbody
  exact ⟨htokens, ⟨spellings, rest, hsource, hspells, hrest⟩, hplaced⟩

end TagTemplate
