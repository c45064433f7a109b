import TagTemplate.Token.Lexer

/-!
Token streams: the tokens of a whole source, up to and including the end of input, or up to the
first failure.

Each token other than `Token.eof` is read from at least one character, which is why collecting
them comes to an end (`Lexer.length_next_lt`).
-/

namespace TagTemplate

/-! ## Progress -/

theorem length_dropWhile_le (p : Char → Bool) (text : List Char) :
    (text.dropWhile p).length ≤ text.length := by
  induction text with
  | nil => simp
  | cons c rest ih =>
      simp only [List.dropWhile, List.length_cons]
      split
      · omega
      · simp only [List.length_cons, Nat.le_refl]

theorem length_dropWhile_lt {p : Char → Bool} {text : List Char} (h : startsWith p text = true) :
    (text.dropWhile p).length < text.length := by
  cases text with
  | nil => simp [startsWith] at h
  | cons c rest =>
      simp only [startsWith] at h
      simp only [List.dropWhile, h, List.length_cons]
      exact Nat.lt_succ_of_le (length_dropWhile_le p rest)

theorem length_scanText_le (read rest : List Char) (offset : Nat) :
    (scanText read rest offset).2.rest.length ≤ rest.length := by
  fun_induction scanText read rest offset <;> simp_all <;> omega

theorem length_scanText_lt {rest : List Char} {offset : Nat} {token : Token} {cursor : Cursor}
    (hopen : opensTag rest = false) (h : scanText [] rest offset = (.ok token, cursor))
    (hne : token ≠ .eof) : cursor.rest.length < rest.length := by
  cases rest with
  | nil =>
      simp only [scanText, textToken, List.reverse_nil, List.isEmpty_nil, if_true, Prod.mk.injEq,
        Except.ok.injEq] at h
      exact absurd h.1.symm hne
  | cons c rest =>
      unfold scanText at h
      rw [hopen] at h
      split at h
      · split at h
        · simp at h
        · rename_i escaped tail
          split at h
          · have := length_scanText_le [escaped] tail (offset + 2)
            rw [h] at this
            simp only [List.length_cons] at *
            omega
          · simp at h
      · have := length_scanText_le [c] rest (offset + c.utf8Size)
        simp only [Bool.false_eq_true, if_false] at h
        rw [h] at this
        simp only [List.length_cons] at *
        omega

theorem length_scanString_le (start : Nat) (read rest : List Char) (offset : Nat) :
    (scanString start read rest offset).2.rest.length ≤ rest.length := by
  fun_induction scanString start read rest offset <;> simp_all <;> omega

theorem length_spanUnsigned_le (text : List Char) :
    (spanUnsigned text).rest.length ≤ text.length := by
  have hwhole := length_dropWhile_le Char.isDigit text
  unfold spanUnsigned
  split
  · rename_i rest hrest
    rw [hrest] at hwhole
    have := length_dropWhile_le Char.isDigit rest
    simp only [List.length_cons] at hwhole
    split
    · simp only
      omega
    · simp only [List.length_cons]
      exact hwhole
  · simpa using hwhole

theorem length_spanUnsigned_lt {text : List Char} (h : startsWith Char.isDigit text = true) :
    (spanUnsigned text).rest.length < text.length := by
  have hwhole := length_dropWhile_lt h
  unfold spanUnsigned
  split
  · rename_i rest hrest
    rw [hrest] at hwhole
    have := length_dropWhile_le Char.isDigit rest
    simp only [List.length_cons] at hwhole
    split
    · simp only
      omega
    · simp only [List.length_cons]
      exact hwhole
  · simpa using hwhole

theorem length_spanNumeral_lt {text : List Char} (h : startsNumeral text = true) :
    (spanNumeral text).rest.length < text.length := by
  unfold startsNumeral at h
  unfold spanNumeral
  split at h
  · rename_i rest
    have := length_spanUnsigned_le rest
    simp only [List.length_cons]
    omega
  · exact length_spanUnsigned_lt h

theorem rest_scanNumeral (cursor : Cursor) :
    (scanNumeral cursor).2.rest = (spanNumeral cursor.rest).rest := by
  unfold scanNumeral
  simp only
  split <;> rfl

theorem startsWith_isWordChar {c : Char} {rest : List Char} (h : Text.isAlphabetic c = true) :
    startsWith isWordChar (c :: rest) = true := by
  simp [startsWith, isWordChar, h]

theorem length_scanTagBody_lt {c : Char} {rest : List Char} {offset : Nat} {token : Token}
    {cursor : Cursor} (h : scanTagBody c rest offset = (.ok token, cursor)) :
    cursor.rest.length < (c :: rest).length := by
  unfold scanTagBody at h
  simp only at h
  split at h
  · obtain ⟨-, rfl⟩ := Prod.mk.inj h
    simp only [List.length_tail, List.length_cons]
    omega
  split at h
  · have := length_scanString_le offset [] rest (offset + 1)
    simp only [h, List.length_cons] at this ⊢
    omega
  split at h
  · split at h
    · obtain ⟨-, rfl⟩ := Prod.mk.inj h
      have := length_dropWhile_le isWordChar rest
      simp only [Cursor.span, List.length_cons]
      omega
    · simp at h
  split at h
  · rename_i hnumeral
    have := rest_scanNumeral ⟨c :: rest, offset⟩
    rw [h] at this
    rw [this]
    exact length_spanNumeral_lt hnumeral
  split at h
  · rename_i hletter
    obtain ⟨-, rfl⟩ := Prod.mk.inj h
    exact length_dropWhile_lt (startsWith_isWordChar hletter)
  · split at h
    · obtain ⟨-, rfl⟩ := Prod.mk.inj h
      simp
    · simp at h

theorem length_scanTagStart_lt {c : Char} {rest : List Char} {offset : Nat} {token : Token}
    {cursor : Cursor} (h : scanTagStart c rest offset = (.ok token, cursor)) :
    cursor.rest.length < (c :: rest).length := by
  unfold scanTagStart at h
  split at h
  · obtain ⟨-, rfl⟩ := Prod.mk.inj h
    simp
  split at h
  · rename_i hletter
    obtain ⟨-, rfl⟩ := Prod.mk.inj h
    exact length_dropWhile_lt (startsWith_isWordChar hletter)
  · exact length_scanTagBody_lt h

namespace Lexer

theorem length_readText_lt {lexer : Lexer} {token : Token} {cursor : Cursor}
    (h : lexer.readText = (.ok token, cursor)) (hne : token ≠ .eof) :
    cursor.rest.length < lexer.cursor.rest.length := by
  unfold readText at h
  simp only at h
  split at h
  · rename_i hopen
    obtain ⟨-, rfl⟩ := Prod.mk.inj h
    unfold opensTag at hopen
    split at hopen
    · rename_i rest hrest
      simp only [hrest, List.drop_succ_cons, List.drop_zero, List.length_cons]
      omega
    · contradiction
  · rename_i hopen
    exact length_scanText_lt (by simpa using hopen) h hne

theorem length_readTag_lt {lexer : Lexer} {token : Token} {cursor : Cursor}
    (h : lexer.readTag = (.ok token, cursor)) (hne : token ≠ .eof) :
    cursor.rest.length < lexer.cursor.rest.length := by
  have hblank := length_dropWhile_le Text.isBlank lexer.cursor.rest
  unfold readTag at h
  simp only [Cursor.span] at h
  split at h
  · obtain ⟨htoken, -⟩ := Prod.mk.inj h
    exact absurd (Except.ok.inj htoken).symm hne
  · rename_i c rest hrest
    rw [hrest] at hblank
    split at h
    · exact Nat.lt_of_lt_of_le (length_scanTagStart_lt h) hblank
    · exact Nat.lt_of_lt_of_le (length_scanTagBody_lt h) hblank

theorem length_next_lt {lexer lexer' : Lexer} {token : Token}
    (h : lexer.next = (.ok token, lexer')) (hne : token ≠ .eof) :
    lexer'.cursor.rest.length < lexer.cursor.rest.length := by
  unfold next at h
  obtain ⟨hresult, rfl⟩ := Prod.mk.inj h
  have hread : lexer.read = (.ok token, lexer.read.2) := Prod.ext hresult rfl
  have hcursor : lexer.read.2.rest.length < lexer.cursor.rest.length := by
    unfold read at hread ⊢
    split at hread
    · exact length_readText_lt hread hne
    · exact length_readTag_lt hread hne
  exact hcursor

end Lexer

/-! ## Streams -/

/-- `failure` is what stopped reading before the end of the input. -/
structure TokenStream where
  tokens : List Token
  failure : Option LexError

namespace Lexer

def modeAfter (mode : Mode) : Token → Mode
  | .tagOpen => .tag
  | .tagClose => .text
  | _ => mode

/-- Collects the tokens ahead; `read` holds those already read, last first. -/
def collect (lexer : Lexer) (read : List Token) : TokenStream :=
  match h : lexer.next with
  | (.error e, _) => ⟨read.reverse, some e⟩
  | (.ok token, after) =>
      if heof : token = .eof then ⟨(token :: read).reverse, none⟩
      else
        have : after.cursor.rest.length < lexer.cursor.rest.length := length_next_lt h heof
        collect (after.setMode (modeAfter after.mode token)) (token :: read)
termination_by lexer.cursor.rest.length

end Lexer

namespace TokenStream

def ofSource (source : String) : TokenStream := (Lexer.ofSource source).collect []

def toExcept (stream : TokenStream) : Except LexError (List Token) :=
  match stream.failure with
  | none => .ok stream.tokens
  | some e => .error e

end TokenStream

def tokenize (source : String) : Except LexError (List Token) :=
  (TokenStream.ofSource source).toExcept

end TagTemplate
