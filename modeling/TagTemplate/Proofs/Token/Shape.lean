import Mathlib.Data.List.Chain
import TagTemplate.Proofs.Token.Reading

/-!
The shape of the tokens that are read.

Texts are not empty, names are names and reals are finite (`Lexer.Run.isShaped`).  A text is read
up to the next tag or the end of the input, so that no two texts follow each other in a run
(`Lexer.Run.textsApart`).
-/

namespace TagTemplate

namespace Token

def isText : Token → Bool
  | text _ => true
  | _ => false

def isShaped : Token → Bool
  | text content => content ≠ ""
  | ident name | function name => isName name
  | real x => x.isFinite
  | _ => true

end Token

theorem isShaped_tagWord {name : String} (h : isName name = true) :
    (tagWord name.toList).isShaped = true ∧ (tagWord name.toList).isText = false := by
  simp only [tagWord]
  split
  · exact ⟨rfl, rfl⟩
  · rw [String.ofList_toList]
    exact ⟨h, rfl⟩

theorem TagLexeme.isShaped {token : Token} {source : List Char} (h : TagLexeme token source) :
    token.isShaped = true ∧ token.isText = false := by
  cases h with
  | function h => exact ⟨h, rfl⟩
  | ident h => exact ⟨h, rfl⟩
  | real _ _ _ _ hvalue => exact ⟨Numeral.isFinite_of_real? hvalue, rfl⟩
  | _ => exact ⟨rfl, rfl⟩

theorem TagStartLexeme.isShaped {token : Token} {source : List Char}
    (h : TagStartLexeme token source) : token.isShaped = true ∧ token.isText = false := by
  cases h with
  | echo => exact ⟨rfl, rfl⟩
  | word h => exact isShaped_tagWord h
  | other h => exact h.isShaped

namespace Lexeme

variable {place : Place} {token : Token} {source : List Char}

theorem isShaped (h : Lexeme place token source) : token.isShaped = true := by
  cases h with
  | text _ hne => simpa [Token.isShaped] using hne
  | tagOpen => rfl
  | tagStart _ h => exact h.isShaped.1
  | tag _ h => exact h.isShaped.1

theorem place_of_isText (h : Lexeme place token source) (htext : token.isText = true) :
    place = .text := by
  cases h with
  | text => rfl
  | tagOpen => rfl
  | tagStart _ h => simp [h.isShaped.2] at htext
  | tag _ h => simp [h.isShaped.2] at htext

end Lexeme

namespace Lexer

/-- A text is followed by a tag or by the end of the input. -/
theorem endsText_of_next {lexer after : Lexer} {content : String}
    (h : lexer.next = (.ok (.text content), after)) :
    lexer.mode = .text ∧ EndsText after.cursor.rest := by
  obtain ⟨source, -, hlexeme, hends⟩ := lexeme_of_next h nofun
  exact ⟨place_eq_text_iff.mp (hlexeme.place_of_isText rfl), hends⟩

theorem isText_next_of_endsText {lexer after : Lexer} {token : Token} (hmode : lexer.mode = .text)
    (hends : EndsText lexer.cursor.rest) (h : lexer.next = (.ok token, after)) :
    token.isText = false := by
  have hread := read_of_next h
  simp only [read, hmode, readText, scanText_stop hends] at hread
  split at hread
  · obtain ⟨htoken, -⟩ := Prod.mk.inj hread
    rw [← Except.ok.inj htoken]
    rfl
  · obtain ⟨htoken, -⟩ := Prod.mk.inj hread
    rw [← Except.ok.inj htoken]
    rfl

theorem Run.isShaped {lexer final : Lexer} {tokens : List Token} (h : lexer.Run tokens final) :
    ∀ token ∈ tokens, token.isShaped = true := by
  induction h with
  | refl => simp
  | next hnext hne _ ih =>
      obtain ⟨source, -, hlexeme, -⟩ := lexeme_of_next hnext hne
      exact List.forall_mem_cons.mpr ⟨hlexeme.isShaped, ih⟩

theorem Run.textsApart {lexer final : Lexer} {tokens : List Token} (h : lexer.Run tokens final) :
    tokens.IsChain fun a b => ¬(a.isText = true ∧ b.isText = true) := by
  induction h with
  | refl => exact .nil
  | @next lexer after final token tokens hnext _ rest ih =>
      refine List.isChain_cons.mpr ⟨?_, ih⟩
      rintro next hhead ⟨htoken, htext⟩
      cases token with
      | text content =>
          obtain ⟨hmode, hends⟩ := endsText_of_next hnext
          cases rest with
          | refl => simp at hhead
          | next hnext' =>
              cases hhead
              have hmode' : (after.resume (.text content)).mode = .text := by
                simp [resume, modeAfter, mode_next hnext, hmode]
              rw [isText_next_of_endsText hmode' hends hnext'] at htext
              contradiction
      | _ => contradiction

end Lexer

end TagTemplate
