import Criteria.Proofs.Token.Lexical
import Criteria.Token.Canonical
import Criteria.Token.Layout
import Mathlib.Data.List.Forall2

/-!
# Tokens and their canonical forms

`RespelledAs` relates tokens to those of a canonical text.  Where the kind of a
token decides its text, up to letter case, it compares no texts: that they agree
follows once the tokens on both sides are known to be lexemes.
-/

namespace Criteria

/-- The kinds whose tokens have one text, up to letter case where a canonical
text may change it.  The sign `!` is not among them, as no canonical text has
it. -/
def Kind.fixesText (kind : Kind) : Bool :=
  Token.recasable kind ||
    (kind ≠ .negate && (symbols.map Kind.ofSymbol).contains kind)

/-- A token and the one that stands for it in a canonical text. -/
structure Token.RespelledAs (token written : Token) : Prop where
  noNegation : token.kind ≠ .negate
  kind : token.kind = written.kind
  text : token.kind.fixesText ∨ token.text = written.text

/-- Tokens and those of a canonical text: one stands for each, but two stand for
the operator `!=`. -/
inductive RespelledAs : List Token → List Token → Prop where
  | nil : RespelledAs [] []
  | cons {token written : Token} {tokens others : List Token}
      (first : token.RespelledAs written) (rest : RespelledAs tokens others) :
      RespelledAs (token :: tokens) (written :: others)
  | unequal {negate equals below above : Token} {tokens others : List Token}
      (negateKind : negate.kind = .negate) (equalsKind : equals.kind = .equals)
      (belowKind : below.kind = .lowerThan)
      (aboveKind : above.kind = .greaterThan)
      (rest : RespelledAs tokens others) :
      RespelledAs (negate :: equals :: tokens) (below :: above :: others)

theorem respelledAs_one {token written : Token}
    (respelled : token.RespelledAs written) : RespelledAs [token] [written] :=
  .cons respelled .nil

theorem RespelledAs.append {left right writtenLeft writtenRight : List Token}
    (respelledLeft : RespelledAs left writtenLeft)
    (respelledRight : RespelledAs right writtenRight) :
    RespelledAs (left ++ right) (writtenLeft ++ writtenRight) := by
  induction respelledLeft with
  | nil => exact respelledRight
  | cons first _ ih => exact .cons first ih
  | unequal negateKind equalsKind belowKind aboveKind _ ih =>
      exact .unequal negateKind equalsKind belowKind aboveKind ih

/-- A lexeme of the kind of a symbol is this symbol. -/
theorem Lexical.text_of_symbol {lexeme : Lexeme} {symbol : Char}
    (lexical : Lexical lexeme) (isSymbol : symbol ∈ symbols)
    (kind : lexeme.kind = .ofSymbol symbol) : lexeme.text = [symbol] := by
  cases lexical with
  | @symbol character isCharacter =>
      have injective : ∀ first ∈ symbols, ∀ second ∈ symbols,
          Kind.ofSymbol first = Kind.ofSymbol second → first = second := by
        simp [symbols, Kind.ofSymbol]
      rw [injective character isCharacter symbol isSymbol kind]
  | @word text _ =>
      have isWordLike : (Kind.ofSymbol symbol).isWordLike :=
        kind ▸ Kind.isWordLike_ofWord (String.ofList text)
      rw [isWordLike_ofSymbol] at isWordLike
      cases isWordLike
  | integer | float | manyPoints | string | numbered | named =>
      have others : ∀ symbol ∈ symbols,
          Kind.ofSymbol symbol ∉ [.unclassified, .integer, .float, .string] := by
        simp [symbols, Kind.ofSymbol]
      have noOther := others symbol isSymbol
      rw [← kind] at noOther
      simp at noOther

/-- A word of the kind of a keyword is its description, up to letter case. -/
theorem Kind.sameWord_describe {word : String}
    (isKeyword : (Kind.ofWord word).isKeyword) :
    sameWord (Kind.ofWord word).describe word := by
  unfold Kind.ofWord at *
  cases found : Kind.keywords.find? fun kind => sameWord kind.describe word with
  | none =>
      rw [found] at isKeyword
      cases isKeyword
  | some kind =>
      have matched := List.find?_some found
      exact matched

namespace Token

variable {token written : Token}

/-- Tokens of a kind that decides the text stand for each other. -/
theorem respelledAs_of_kind {kind : Kind} (fixed : kind.fixesText)
    (tokenKind : token.kind = kind) (writtenKind : written.kind = kind) :
    token.RespelledAs written where
  noNegation := by
    intro isNegation
    rw [← tokenKind, isNegation] at fixed
    cases fixed
  kind := tokenKind.trans writtenKind.symm
  text := .inl (tokenKind ▸ fixed)

theorem respelledAs_of_alike (noNegation : token.kind ≠ .negate)
    (alike : token.Alike written) : token.RespelledAs written :=
  ⟨noNegation, alike.1, .inr alike.2⟩

theorem IsLexical.text_of_symbol {symbol : Char} (lexical : token.IsLexical)
    (isSymbol : symbol ∈ symbols) (kind : token.kind = .ofSymbol symbol) :
    token.text.toList = [symbol] := by
  have classified : ∀ symbol ∈ symbols, Kind.ofSymbol symbol ≠ .unclassified := by
    simp [symbols, Kind.ofSymbol]
  have isLexical := lexical.resolve_left (kind ▸ classified symbol isSymbol)
  exact isLexical.text_of_symbol isSymbol kind

theorem IsLexical.sameWord_describe (lexical : token.IsLexical)
    (isKeyword : token.kind.isKeyword) :
    sameWord token.kind.describe token.text := by
  have spells := lexical.ofWord_text (Kind.isWordLike_iff.mpr (.inr isKeyword))
  rw [← spells] at isKeyword ⊢
  exact Kind.sameWord_describe isKeyword

theorem RespelledAs.sameReading (respelled : token.RespelledAs written)
    (lexical : token.IsLexical) (writtenLexical : written.IsLexical) :
    token.SameReading written := by
  have kind := respelled.kind
  refine ⟨kind, ?_⟩
  split
  · rename_i isRecasable
    have isKeyword : token.kind.isKeyword := by
      simp only [recasable, Bool.and_eq_true] at isRecasable
      exact isRecasable.1.1
    have described := lexical.sameWord_describe isKeyword
    have writtenDescribed := writtenLexical.sameWord_describe (kind ▸ isKeyword)
    rw [← kind] at writtenDescribed
    simp only [sameWord, decide_eq_true_eq] at described writtenDescribed ⊢
    exact described.symm.trans writtenDescribed
  · rename_i notRecasable
    rcases respelled.text with fixed | same
    · simp only [Kind.fixesText, notRecasable, Bool.false_or, Bool.and_eq_true,
        List.contains_iff_mem] at fixed
      obtain ⟨symbol, isSymbol, symbolKind⟩ := List.mem_map.mp fixed.2
      have text := lexical.text_of_symbol isSymbol symbolKind.symm
      have writtenText :=
        writtenLexical.text_of_symbol isSymbol (kind ▸ symbolKind.symm)
      simp [← String.toList_inj, text, writtenText]
    · simpa using same

theorem uniteUnequal_cons {first : Token} (noNegation : first.kind ≠ .negate)
    (others : List Token) :
    uniteUnequal (first :: others) = first :: uniteUnequal others := by
  cases others with
  | nil => rfl
  | cons second others => simp [uniteUnequal, noNegation]

end Token

section Kinds

variable {tokens written : List Token}

theorem respelledAs_of_kinds {kinds : List Kind}
    (fixed : kinds.all Kind.fixesText) (tokenKinds : tokens.map Token.kind = kinds)
    (writtenKinds : written.map Token.kind = kinds) :
    RespelledAs tokens written := by
  induction kinds generalizing tokens written with
  | nil =>
      rw [List.map_eq_nil_iff.mp tokenKinds, List.map_eq_nil_iff.mp writtenKinds]
      exact .nil
  | cons kind kinds ih =>
      obtain ⟨fixesFirst, fixesOthers⟩ := Bool.and_eq_true_iff.mp fixed
      obtain ⟨token, _, rfl, tokenKind, tokenRest⟩ :=
        List.map_eq_cons_iff.mp tokenKinds
      obtain ⟨standIn, _, rfl, writtenKind, writtenRest⟩ :=
        List.map_eq_cons_iff.mp writtenKinds
      exact .cons (Token.respelledAs_of_kind fixesFirst tokenKind writtenKind)
        (ih fixesOthers tokenRest writtenRest)

theorem RespelledAs.parenthesized {opening closing writtenOpening
      writtenClosing : Token} (respelled : RespelledAs tokens written)
    (isOpening : opening.kind = .openParen) (isClosing : closing.kind = .closeParen)
    (isWrittenOpening : writtenOpening.kind = .openParen)
    (isWrittenClosing : writtenClosing.kind = .closeParen) :
    RespelledAs (opening :: (tokens ++ [closing]))
      (writtenOpening :: (written ++ [writtenClosing])) := by
  have first := Token.respelledAs_of_kind rfl isOpening isWrittenOpening
  have last := Token.respelledAs_of_kind rfl isClosing isWrittenClosing
  exact .cons first (respelled.append (respelledAs_one last))

end Kinds

/-- Lexemes that stand for lexemes are read like them, once `!=` is replaced. -/
theorem RespelledAs.sameReading {tokens written : List Token}
    (respelled : RespelledAs tokens written) (lexical : AreLexical tokens)
    (writtenLexical : AreLexical written) :
    List.Forall₂ Token.SameReading (Token.uniteUnequal tokens) written := by
  induction respelled with
  | nil => exact .nil
  | cons first _ ih =>
      rw [Token.uniteUnequal_cons first.noNegation]
      exact .cons (first.sameReading lexical.head writtenLexical.head)
        (ih lexical.tail writtenLexical.tail)
  | @unequal negate equals below above tokens others negateKind equalsKind
      belowKind aboveKind _ ih =>
      have isBelow : '<' ∈ symbols := by decide
      have isAbove : '>' ∈ symbols := by decide
      simp only [Token.uniteUnequal, negateKind, equalsKind]
      refine .cons ?_ (.cons ?_ (ih lexical.tail.tail writtenLexical.tail.tail))
      · exact (Token.respelledAs_of_kind rfl rfl belowKind).sameReading
          (isLexical_symbol isBelow _) writtenLexical.head
      · exact (Token.respelledAs_of_kind rfl rfl aboveKind).sameReading
          (isLexical_symbol isAbove _) writtenLexical.tail.head

end Criteria
