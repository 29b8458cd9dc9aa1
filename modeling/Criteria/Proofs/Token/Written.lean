import Criteria.Proofs.Token.Rescan
import Criteria.Token.Layout

/-!
# Texts that are scanned on their own

`Scans` says that a text in front of any boundary is scanned independently of
what follows, and what its tokens mean.  Texts are put together from lexemes,
blanks and symbols, and their meanings are put together accordingly.
-/

namespace Criteria

/-- In front of a boundary the text has tokens of its own, with the meaning. -/
def Scans (text : List Char) (meaning : List Token → Prop) : Prop :=
  ∀ offset rest, isBoundary rest → ∃ tokens,
    scan offset (text ++ rest) = tokens ++ scan (offset + text.length) rest ∧
      meaning tokens

/-- The tokens are a single one with the meaning. -/
def Single (meaning : Token → Prop) (tokens : List Token) : Prop :=
  ∃ token, tokens = [token] ∧ meaning token

/-- The tokens are some with the first meaning and then some with the second. -/
def Followed (first second : List Token → Prop) (tokens : List Token) : Prop :=
  ∃ front back, tokens = front ++ back ∧ first front ∧ second back

namespace Scans

variable {left right text : List Char} {first second meaning : List Token → Prop}

theorem mono {weaker : List Token → Prop} (scans : Scans text meaning)
    (implies : ∀ tokens, meaning tokens → weaker tokens) : Scans text weaker := by
  intro offset rest boundary
  obtain ⟨tokens, same, holds⟩ := scans offset rest boundary
  exact ⟨tokens, same, implies tokens holds⟩

/-- A text with nothing behind it is followed by the end, which is a
boundary. -/
theorem scan (scans : Scans text meaning) (offset : Nat) :
    meaning (scan offset text) := by
  obtain ⟨tokens, same, holds⟩ := scans offset [] rfl
  have nothing : Criteria.scan (offset + text.length) [] = [] := by
    rw [Criteria.scan]
  rw [List.append_nil, nothing, List.append_nil] at same
  rw [same]
  exact holds

theorem tokenize {input : String} (scans : Scans input.toList meaning) :
    meaning (tokenize input) :=
  scans.scan 0

theorem append (scansLeft : Scans left first) (scansRight : Scans right second)
    (boundary : isBoundary right) :
    Scans (left ++ right) (Followed first second) := by
  intro offset rest behind
  obtain ⟨front, sameFront, frontHolds⟩ :=
    scansLeft offset (right ++ rest) (isBoundary_append boundary behind)
  obtain ⟨back, sameBack, backHolds⟩ :=
    scansRight (offset + left.length) rest behind
  refine ⟨front ++ back, ?_, front, back, rfl, frontHolds, backHolds⟩
  rw [List.append_assoc, sameFront, sameBack, List.append_assoc,
    List.length_append, Nat.add_assoc]

theorem blank (scansRight : Scans right meaning) :
    Scans (' ' :: right) meaning := by
  intro offset rest behind
  obtain ⟨tokens, same, holds⟩ := scansRight (offset + 1) rest behind
  refine ⟨tokens, ?_, holds⟩
  rw [List.cons_append, scan_blank (by decide), same, List.length_cons,
    Nat.add_assoc, Nat.add_comm 1]

/-- Two texts with a blank between them. -/
theorem spaced (scansLeft : Scans left first) (scansRight : Scans right second) :
    Scans (left ++ ' ' :: right) (Followed first second) :=
  scansLeft.append scansRight.blank rfl

theorem symbol {symbol : Char} (isSymbol : symbol ∈ symbols)
    (scansRight : Scans right meaning) :
    Scans (symbol :: right)
      (Followed (Single fun token => token.kind = .ofSymbol symbol) meaning) := by
  intro offset rest behind
  obtain ⟨tokens, same, holds⟩ := scansRight (offset + 1) rest behind
  let token := Lexeme.toToken ⟨.ofSymbol symbol, [symbol]⟩ offset
  refine ⟨token :: tokens, ?_, [token], tokens, rfl, ⟨token, rfl, rfl⟩, holds⟩
  rw [List.cons_append, scan_symbol isSymbol, same, List.length_cons,
    Nat.add_assoc, Nat.add_comm 1, List.cons_append]

end Scans

theorem scans_nil : Scans [] fun tokens => tokens = [] := by
  intro offset rest _
  exact ⟨[], rfl, rfl⟩

theorem scans_symbols {text : List Char}
    (areSymbols : ∀ symbol ∈ text, symbol ∈ symbols) :
    Scans text fun tokens => tokens.map Token.kind = text.map Kind.ofSymbol := by
  induction text with
  | nil =>
      apply scans_nil.mono
      intro tokens none
      rw [none]
      rfl
  | cons first others ih =>
      obtain ⟨isSymbol, areOthers⟩ := List.forall_mem_cons.mp areSymbols
      apply ((ih areOthers).symbol isSymbol).mono
      intro tokens parts
      obtain ⟨_, back, rfl, ⟨token, rfl, kind⟩, kinds⟩ := parts
      rw [List.singleton_append, List.map_cons, List.map_cons, kind, kinds]

theorem Scans.parenthesized {text : List Char} {meaning : List Token → Prop}
    (scans : Scans text meaning) :
    Scans ('(' :: (text ++ [')'])) fun tokens =>
      ∃ opening inner closing, tokens = opening :: (inner ++ [closing]) ∧
        opening.kind = .openParen ∧ meaning inner ∧
        closing.kind = .closeParen := by
  have isOpening : '(' ∈ symbols := by simp [symbols]
  have isClosing : ')' ∈ symbols := by simp [symbols]
  apply ((scans.append (scans_nil.symbol isClosing) rfl).symbol isOpening).mono
  intro tokens parts
  obtain ⟨_, _, rfl, ⟨opening, rfl, openingKind⟩, inner, _, rfl, holds, _, _, rfl,
    ⟨closing, rfl, closingKind⟩, rfl⟩ := parts
  exact ⟨opening, inner, closing, rfl, openingKind, holds, closingKind⟩

/-- The spelling of a classified token is scanned as a token like it. -/
theorem Token.IsLexical.scans {token : Token} (lexical : token.IsLexical)
    (classified : token.kind ≠ .unclassified) :
    Scans token.spelling (Single token.Alike) := by
  intro offset rest boundary
  have isLexical := lexical.resolve_left classified
  let written := Lexeme.toToken ⟨token.kind, token.text.toList⟩ offset
  refine ⟨[written], ?_, written, rfl, rfl, ?_⟩
  · exact scan_lexeme isLexical boundary offset
  · simp [written, Lexeme.toToken]

theorem Token.IsLexical.scansAs {token : Token} {text : List Char}
    {meaning : Token → Prop} (lexical : token.IsLexical)
    (classified : token.kind ≠ .unclassified) (spelled : text = token.spelling)
    (means : ∀ written, token.Alike written → meaning written) :
    Scans text (Single meaning) := by
  rw [spelled]
  apply (lexical.scans classified).mono
  intro tokens single
  obtain ⟨written, same, alike⟩ := single
  exact ⟨written, same, means written alike⟩

theorem isWord_describe {keyword : Kind} (isKeyword : keyword.isKeyword) :
    isWord keyword.describe.toList := by
  revert isKeyword
  cases keyword <;> decide

theorem isLexical_keyword {keyword : Kind} (isKeyword : keyword.isKeyword)
    (offset : Nat) : Token.IsLexical ⟨keyword, keyword.describe, offset⟩ := by
  right
  have lexical := Lexical.word (isWord_describe isKeyword)
  rwa [String.ofList_toList, Kind.ofWord_describe isKeyword] at lexical

theorem scans_keyword {keyword : Kind} (isKeyword : keyword.isKeyword) :
    Scans keyword.describe.toList
      (Single fun token => token.kind = keyword) := by
  have noString : keyword ≠ .string := by
    intro same
    subst same
    cases isKeyword
  have classified : keyword ≠ .unclassified := by
    intro same
    subst same
    cases isKeyword
  apply (isLexical_keyword isKeyword 0).scansAs classified
  · exact (Kind.spell_of_ne noString _).symm
  · intro written alike
    exact alike.1.symm

section Keywords

variable {keyword : Kind} {left right : List Char}
  {first second : List Token → Prop}

/-- A text with a keyword in front of it. -/
theorem Scans.introduced (isKeyword : keyword.isKeyword)
    (scansRight : Scans right second) :
    Scans (keyword.describe.toList ++ ' ' :: right) fun tokens =>
      ∃ token back, tokens = token :: back ∧ token.kind = keyword ∧
        second back := by
  apply ((scans_keyword isKeyword).spaced scansRight).mono
  intro tokens parts
  obtain ⟨_, back, rfl, ⟨token, rfl, kind⟩, holds⟩ := parts
  exact ⟨token, back, rfl, kind, holds⟩

/-- Two texts with a keyword between them. -/
theorem Scans.connected (isKeyword : keyword.isKeyword)
    (scansLeft : Scans left first) (scansRight : Scans right second) :
    Scans (left ++ ' ' :: (keyword.describe.toList ++ ' ' :: right)) fun tokens =>
      ∃ front separator back, tokens = front ++ separator :: back ∧
        first front ∧ separator.kind = keyword ∧ second back := by
  apply (scansLeft.spaced (scansRight.introduced isKeyword)).mono
  intro tokens parts
  obtain ⟨front, _, rfl, leftHolds, separator, back, rfl, kind, rightHolds⟩ :=
    parts
  exact ⟨front, separator, back, rfl, leftHolds, kind, rightHolds⟩

end Keywords

end Criteria
