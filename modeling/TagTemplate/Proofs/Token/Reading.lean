import Mathlib.Data.List.TakeWhile
import TagTemplate.Proofs.Token.Lexeme

/-!
Reading from a place.

The lexer stands at one of three places.  `Leads place source tokens place' rest` says that from
any lexer that stands at `place` before `source`, a run gives `tokens` and stops at `place'` before
`rest`.  A token is read exactly if a lexeme of it is ahead which ends there:
`Lexer.lexeme_of_next` finds the lexeme of a token that was read, and `leads_of_lexeme` reads a
lexeme from any lexer at its place.
-/

namespace TagTemplate

/-! ## Places -/

namespace Lexer

def place (lexer : Lexer) : Place :=
  match lexer.mode, lexer.atTagStart with
  | .text, _ => .text
  | .tag, true => .tagStart
  | .tag, false => .tag

theorem place_eq_text_iff {lexer : Lexer} : lexer.place = .text ↔ lexer.mode = .text := by
  unfold place
  split <;> simp_all

theorem place_ne_text_iff {lexer : Lexer} : lexer.place ≠ .text ↔ lexer.mode = .tag := by
  rw [Ne, place_eq_text_iff]
  cases lexer.mode <;> simp

/-- The lexer stands at a place, with `rest` ahead of it. -/
def Stands (lexer : Lexer) (rest : List Char) (place : Place) : Prop :=
  lexer.place = place ∧ lexer.cursor.rest = rest

end Lexer

def Place.after : Place → Token → Place
  | .text, .tagOpen => .tagStart
  | .text, _ => .text
  | _, .tagClose => .text
  | _, _ => .tag

/-- The scan of a character in a tag. -/
def Place.scanTag : Place → Char → List Char → Nat → Reading
  | .tagStart => scanTagStart
  | _ => scanTagBody

/--
From any lexer that stands at `place` before `source`, a run gives `tokens` and stops at `place'`
before `rest`.
-/
def Leads (place : Place) (source : List Char) (tokens : List Token) (place' : Place)
    (rest : List Char) : Prop :=
  ∀ lexer : Lexer, lexer.Stands source place →
    ∃ final, lexer.Run tokens final ∧ final.Stands rest place'

theorem Leads.refl (place : Place) (source : List Char) : Leads place source [] place source :=
  fun lexer h => ⟨lexer, .refl lexer, h⟩

theorem Leads.trans {place place' place'' : Place} {source mid rest : List Char}
    {tokens tokens' : List Token} (h : Leads place source tokens place' mid)
    (h' : Leads place' mid tokens' place'' rest) :
    Leads place source (tokens ++ tokens') place'' rest := by
  intro lexer hlexer
  obtain ⟨middle, hrun, hmiddle⟩ := h lexer hlexer
  obtain ⟨final, hrun', hfinal⟩ := h' middle hmiddle
  exact ⟨final, hrun.trans hrun', hfinal⟩

namespace Lexer

theorem next_of_read {lexer : Lexer} {token : Token} {cursor : Cursor}
    (h : lexer.read = (.ok token, cursor)) :
    lexer.next =
      (.ok token, ⟨cursor, lexer.mode, lexer.tagStartAfter (.ok token), some token⟩) := by
  simp [next, h]

theorem next_of_read_error {lexer : Lexer} {e : LexError} {cursor : Cursor}
    (h : lexer.read = (.error e, cursor)) :
    lexer.next =
      (.error e, ⟨cursor, lexer.mode, lexer.tagStartAfter (.error e), lexer.last⟩) := by
  simp [next, h]

theorem read_of_next {lexer after : Lexer} {result : Except LexError Token}
    (h : lexer.next = (result, after)) : lexer.read = (result, after.cursor) := by
  unfold next at h
  obtain ⟨hresult, rfl⟩ := Prod.mk.inj h
  exact Prod.ext hresult rfl

theorem place_resume (lexer : Lexer) {token : Token} (hne : token ≠ .eof) (cursor : Cursor)
    (last : Option Token) :
    (resume ⟨cursor, lexer.mode, lexer.tagStartAfter (.ok token), last⟩ token).place =
      lexer.place.after token := by
  obtain ⟨_, mode, atTagStart, _⟩ := lexer
  cases mode <;> cases atTagStart <;> cases token <;> first | rfl | contradiction

theorem place_of_next {lexer after : Lexer} {token : Token} (h : lexer.next = (.ok token, after))
    (hne : token ≠ .eof) : (after.resume token).place = lexer.place.after token := by
  have hafter := next_of_read (read_of_next h)
  rw [h] at hafter
  rw [(Prod.mk.inj hafter).2]
  exact lexer.place_resume hne after.cursor (some token)

/-! ## Blanks in a tag -/

theorem exists_char_or_blanks (source : List Char) :
    (∀ c ∈ source, Text.isBlank c = true) ∨
      ∃ blanks c tail, source = blanks ++ c :: tail ∧ (∀ d ∈ blanks, Text.isBlank d = true) ∧
        Text.isBlank c = false := by
  have hsplit := List.takeWhile_append_dropWhile (p := Text.isBlank) (l := source)
  have hstop := startsWith_dropWhile Text.isBlank source
  cases hdrop : source.dropWhile Text.isBlank with
  | nil => exact .inl (List.dropWhile_eq_nil_iff.mp hdrop)
  | cons c tail =>
      rw [hdrop] at hsplit hstop
      exact .inr ⟨_, c, tail, hsplit.symm, List.all_eq_true.mp List.all_takeWhile, hstop⟩

theorem read_of_blanks {lexer : Lexer} (hplace : lexer.place ≠ .text)
    (h : ∀ c ∈ lexer.cursor.rest, Text.isBlank c = true) :
    lexer.read = (.ok .eof, ⟨[], lexer.cursor.offset + byteLength lexer.cursor.rest⟩) := by
  have hmode := place_ne_text_iff.mp hplace
  have htake := @takeWhile_append_stop Text.isBlank lexer.cursor.rest [] h rfl
  have hdrop := @dropWhile_append_stop Text.isBlank lexer.cursor.rest [] h rfl
  rw [List.append_nil] at htake hdrop
  simp [read, hmode, readTag, Cursor.span, htake, hdrop]

/-- What a tag goes on with is scanned behind the blanks. -/
theorem read_behind_blanks {lexer : Lexer} (hplace : lexer.place ≠ .text) {blanks tail : List Char}
    {c : Char} (hrest : lexer.cursor.rest = blanks ++ c :: tail)
    (hblanks : ∀ d ∈ blanks, Text.isBlank d = true) (hblank : Text.isBlank c = false) :
    lexer.read = lexer.place.scanTag c tail (lexer.cursor.offset + byteLength blanks) := by
  have hmode := place_ne_text_iff.mp hplace
  have hstop : startsWith Text.isBlank (c :: tail) = false := hblank
  have htake := takeWhile_append_stop hblanks hstop
  have hdrop := dropWhile_append_stop hblanks hstop
  rw [← hrest] at htake hdrop
  cases hstart : lexer.atTagStart <;>
    simp [read, hmode, readTag, Cursor.span, htake, hdrop, hstart, place, Place.scanTag]

/-! ## The lexeme of a token that was read -/

theorem lexeme_of_readText {lexer : Lexer} {token : Token} {cursor : Cursor}
    (h : lexer.readText = (.ok token, cursor)) (hne : token ≠ .eof) :
    ∃ source, lexer.cursor.rest = source ++ cursor.rest ∧ Lexeme .text token source ∧
      token.EndsBefore cursor.rest := by
  unfold readText at h
  simp only at h
  split at h
  · next hopen =>
      obtain ⟨rest, hrest⟩ := opensTag_iff.mp hopen
      cases h
      rw [hrest]
      exact ⟨_, rfl, .tagOpen, trivial⟩
  · obtain ⟨spelling, content, hsource, hspelling, rfl, hends⟩ := textSpelling_of_scanText h
    rw [List.reverse_nil, List.nil_append] at hne ⊢
    unfold textToken at hne ⊢
    split at hne
    · contradiction
    · next hcontent =>
        rw [if_neg hcontent]
        exact ⟨spelling, hsource, .text hspelling (by simpa using hcontent), hends⟩

theorem lexeme_of_read_tag {lexer : Lexer} {token : Token} {cursor : Cursor}
    (hplace : lexer.place ≠ .text) (h : lexer.read = (.ok token, cursor)) (hne : token ≠ .eof) :
    ∃ source, lexer.cursor.rest = source ++ cursor.rest ∧ Lexeme lexer.place token source ∧
      token.EndsBefore cursor.rest := by
  rcases exists_char_or_blanks lexer.cursor.rest with hrest | ⟨blanks, c, tail, hrest, hblanks, hc⟩
  · rw [read_of_blanks hplace hrest] at h
    cases h
    contradiction
  rw [read_behind_blanks hplace hrest hblanks hc] at h
  cases hstands : lexer.place with
  | text => contradiction
  | tagStart =>
      rw [hstands] at h
      obtain ⟨source, hsource, hlexeme, hends⟩ := tagStartLexeme_of_scanTagStart h
      exact ⟨_, by rw [hrest, hsource, List.append_assoc], .tagStart hblanks hlexeme, hends⟩
  | tag =>
      rw [hstands] at h
      obtain ⟨source, hsource, hlexeme, hends⟩ := tagLexeme_of_scanTagBody h
      exact ⟨_, by rw [hrest, hsource, List.append_assoc], .tag hblanks hlexeme, hends⟩

theorem lexeme_of_next {lexer after : Lexer} {token : Token}
    (h : lexer.next = (.ok token, after)) (hne : token ≠ .eof) :
    ∃ source, lexer.cursor.rest = source ++ after.cursor.rest ∧
      Lexeme lexer.place token source ∧ token.EndsBefore after.cursor.rest := by
  have hread := read_of_next h
  by_cases hplace : lexer.place = .text
  · rw [read, place_eq_text_iff.mp hplace] at hread
    rw [hplace]
    exact lexeme_of_readText hread hne
  · exact lexeme_of_read_tag hplace hread hne

/-- Outside of tags the input ends where nothing is left. -/
theorem next_eof_iff {lexer : Lexer} (hmode : lexer.mode = .text) :
    (∃ after, lexer.next = (.ok .eof, after)) ↔ lexer.cursor.rest = [] := by
  constructor
  · rintro ⟨after, h⟩
    have hread := read_of_next h
    simp only [read, hmode, readText] at hread
    split at hread
    · cases hread
    · next hopen =>
        obtain ⟨spelling, content, hsource, hspelling, htoken, hends⟩ :=
          textSpelling_of_scanText hread
        have hcontent : content = [] := by
          by_contra hne
          simp [textToken, hne] at htoken
        subst hcontent
        cases hspelling
        rcases hends with hnil | hopens
        · rw [hsource, hnil]
          rfl
        · rw [hsource] at hopen
          contradiction
  · intro hrest
    have hread : lexer.read = (.ok .eof, ⟨[], lexer.cursor.offset⟩) := by
      simp [read, hmode, readText, hrest, opensTag, scanText, textToken]
    exact ⟨_, next_of_read hread⟩

/-- Inside a tag the input ends where only blanks are left, behind these. -/
theorem rest_of_readTag_eof {lexer : Lexer} {cursor : Cursor}
    (h : lexer.readTag = (.ok .eof, cursor)) :
    (∀ c ∈ lexer.cursor.rest, Text.isBlank c = true) ∧ cursor.rest = [] := by
  unfold readTag at h
  simp only [Cursor.span] at h
  split at h
  · next hnil =>
      cases h
      exact ⟨List.dropWhile_eq_nil_iff.mp hnil, hnil⟩
  · split at h
    · obtain ⟨source, -, hlexeme, -⟩ := tagStartLexeme_of_scanTagStart h
      exact absurd rfl hlexeme.ne_eof
    · obtain ⟨source, -, hlexeme, -⟩ := tagLexeme_of_scanTagBody h
      exact absurd rfl hlexeme.ne_eof

end Lexer

/-! ## Reading a lexeme -/

theorem leads_of_read {place : Place} {source rest : List Char} {token : Token}
    (hne : token ≠ .eof) (hread : ∀ lexer : Lexer, lexer.Stands source place →
      ∃ offset, lexer.read = (.ok token, ⟨rest, offset⟩)) :
    Leads place source [token] (place.after token) rest := by
  intro lexer hlexer
  obtain ⟨offset, hread⟩ := hread lexer hlexer
  refine ⟨_, .next (Lexer.next_of_read hread) hne (.refl _), ?_, rfl⟩
  rw [lexer.place_resume hne, hlexer.1]

theorem leads_of_scansBy {place : Place} {blanks source rest : List Char} {token : Token}
    (hplace : place ≠ .text) (hne : token ≠ .eof) (hblanks : ∀ c ∈ blanks, Text.isBlank c = true)
    (h : ScansBy place.scanTag source token rest) :
    Leads place (blanks ++ source) [token] (place.after token) rest := by
  obtain ⟨c, tail, rfl, hblank, hscan⟩ := h
  refine leads_of_read hne ?_
  rintro lexer ⟨rfl, hrest⟩
  rw [Lexer.read_behind_blanks hplace hrest hblanks hblank]
  exact hscan _

/-- A lexeme is read wherever the lexer stands at its place and the token ends behind it. -/
theorem leads_of_lexeme {place : Place} {token : Token} {source rest : List Char}
    (h : Lexeme place token source) (hends : token.EndsBefore rest) :
    Leads place (source ++ rest) [token] (place.after token) rest := by
  cases h with
  | text h hne =>
      refine leads_of_read (by simp) ?_
      rintro lexer ⟨hplace, hsource⟩
      obtain ⟨offset, hscan⟩ := h.scans hends [] lexer.cursor.offset
      refine ⟨offset, ?_⟩
      rw [Lexer.place_eq_text_iff] at hplace
      simpa [Lexer.read, hplace, Lexer.readText, hsource, h.opensTag_append_eq_false hne hends,
        textToken, hne] using hscan
  | tagOpen =>
      refine leads_of_read (by simp) ?_
      rintro lexer ⟨hplace, hsource⟩
      rw [Lexer.place_eq_text_iff] at hplace
      refine ⟨lexer.cursor.offset + 2, ?_⟩
      simp [Lexer.read, hplace, Lexer.readText, hsource, opensTag]
  | tagStart hblanks h =>
      rw [List.append_assoc]
      exact leads_of_scansBy (by simp) h.ne_eof hblanks (scansBy_of_tagStartLexeme h hends)
  | tag hblanks h =>
      rw [List.append_assoc]
      exact leads_of_scansBy (by simp) h.ne_eof hblanks (scansTag_of_tagLexeme h hends)

end TagTemplate
