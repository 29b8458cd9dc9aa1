import Criteria.Expr.Render
import Criteria.Proofs.Token.Part

/-!
# Written strings are closed

A string literal that is written into a text ends where its written form ends.
Nothing in its content ends it before, and nothing behind it but a further quote
draws it on, not even a quote that is never closed.
-/

namespace Criteria

section Quotes

variable {content rest : List Char}

/-- A quoted text is one lexeme unless a further quote follows it. -/
theorem scan_quote (noQuote : rest.head? ≠ some '\'') (offset : Nat) :
    scan offset (quote content ++ rest) =
      Lexeme.toToken ⟨.string, content⟩ offset ::
        scan (offset + (quote content).length) rest := by
  have written : quote content ++ rest =
      '\'' :: (doubleQuotes content ++ '\'' :: rest) := by
    simp [quote]
  have spelled : Lexeme.spelling ⟨.string, content⟩ = quote content := rfl
  rw [written, scan, if_neg (by decide), readLexeme_string noQuote]
  simp only [spelled]

end Quotes

theorem Literal.toList_render_string (content : String) :
    (Literal.mk .string content).render.toList = quote content.toList :=
  String.toList_ofList

/-- Whatever a string contains, its written form in front of any text that does
not begin with a quote is a single token with the string as its text.  The other
tokens are those of the text behind it, moved by the length of the written
form. -/
theorem tokenize_render_append (content rest : String)
    (noQuote : rest.toList.head? ≠ some '\'') :
    tokenize ((Literal.mk .string content).render ++ rest) =
      ⟨.string, content, 0⟩ ::
        (tokenize rest).map
          (Token.shift (Literal.mk .string content).render.length) := by
  have form := Literal.toList_render_string content
  have size : (quote content.toList).length =
      (Literal.mk .string content).render.length := by
    rw [← form, String.length_toList]
  rw [tokenize, String.toList_append, form, scan_quote noQuote, size, scan_shift,
    Lexeme.toToken, String.ofList_toList]
  rfl

/-- Quotes at both ends of the content, and one behind it that is not closed. -/
theorem tokenize_render_append_of_unclosed_quote :
    "=''x' 'y".toList.head? ≠ some '\'' ∧
      tokenize ((Literal.mk .string "'it''s'").render ++ "=''x' 'y") =
        ⟨.string, "'it''s'", 0⟩ :: (tokenize "=''x' 'y").map (Token.shift 13) := by
  have noQuote : "=''x' 'y".toList.head? ≠ some '\'' := by decide
  have size : (Literal.mk .string "'it''s'").render.length = 13 := by decide
  exact ⟨noQuote, size ▸ tokenize_render_append "'it''s'" "=''x' 'y" noQuote⟩

end Criteria
