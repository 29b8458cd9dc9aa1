import Criteria.Text.Word

/-!
# Kinds of tokens

The lexical categories in their order.  The order carries meaning: everything
from `identifier` on is spelled like a word, and what follows `identifier` is a
keyword.  The description of a kind is the text shown when it was expected; the
description of a keyword is also its spelling.
-/

namespace Criteria

/-- The lexical category of a token. -/
inductive Kind where
  /-- The end of the input, which no token has as its kind. -/
  | endOfInput
  /-- A piece of text that belongs to no other category. -/
  | unclassified
  | integer
  | float
  | string
  | openParen
  | closeParen
  | comma
  | equals
  | greaterThan
  | lowerThan
  | negate
  | identifier
  | andWord
  | betweenWord
  | falseWord
  | inWord
  | isWord
  | likeWord
  | notWord
  | nullWord
  | orWord
  | trueWord
  deriving DecidableEq, Repr, Inhabited

namespace Kind

/-- The place of a kind in the order of kinds. -/
def rank (kind : Kind) : Nat :=
  kind.ctorIdx

/-- Keywords come after `identifier`. -/
def isKeyword (kind : Kind) : Bool :=
  identifier.rank < kind.rank

/-- Identifiers and keywords are spelled like words. -/
def isWordLike (kind : Kind) : Bool :=
  identifier.rank ≤ kind.rank

/-- The text that names a kind in a diagnostic. -/
def describe : Kind → String
  | endOfInput => "end of string"
  | unclassified => "unknown token"
  | integer => "integer"
  | float => "float"
  | string => "string"
  | openParen => "'('"
  | closeParen => "')'"
  | comma => "','"
  | equals => "'='"
  | greaterThan => "'>'"
  | lowerThan => "'<'"
  | negate => "'!'"
  | identifier => "identifier"
  | andWord => "AND"
  | betweenWord => "BETWEEN"
  | falseWord => "FALSE"
  | inWord => "IN"
  | isWord => "IS"
  | likeWord => "LIKE"
  | notWord => "NOT"
  | nullWord => "NULL"
  | orWord => "OR"
  | trueWord => "TRUE"

instance : ToString Kind := ⟨describe⟩

/-- The keywords, in the order of kinds. -/
def keywords : List Kind :=
  [andWord, betweenWord, falseWord, inWord, isWord, likeWord, notWord,
    nullWord, orWord, trueWord]

/-- A word is the keyword it spells, in any letter case, or an identifier. -/
def ofWord (word : String) : Kind :=
  (keywords.find? fun keyword => sameWord keyword.describe word).getD identifier

/-- The kind of a character that is a token by itself. -/
def ofSymbol : Char → Kind
  | ',' => comma
  | '(' => openParen
  | ')' => closeParen
  | '=' => equals
  | '>' => greaterThan
  | '<' => lowerThan
  | '!' => negate
  | _ => unclassified

/-- Whether a token of kind `found` may stand where `wanted` is expected.  A
keyword may stand for an identifier. -/
def accepts (wanted found : Kind) : Bool :=
  found = wanted || (wanted = identifier && found.isWordLike)

/-- The kinds in their order; equal kinds are kept. -/
def sort (kinds : List Kind) : List Kind :=
  kinds.mergeSort fun left right => left.rank ≤ right.rank

theorem mem_keywords_iff {kind : Kind} : kind ∈ keywords ↔ kind.isKeyword := by
  cases kind <;> decide

theorem isWordLike_iff {kind : Kind} :
    kind.isWordLike ↔ kind = identifier ∨ kind.isKeyword := by
  cases kind <;> decide

/-- A keyword is recognised by its description. -/
theorem ofWord_describe {kind : Kind} (keyword : kind.isKeyword) :
    ofWord kind.describe = kind := by
  cases kind <;> revert keyword <;> decide

/-- Words are identifiers or keywords. -/
theorem isWordLike_ofWord (word : String) : (ofWord word).isWordLike := by
  unfold ofWord
  cases found : keywords.find? fun keyword => sameWord keyword.describe word with
  | none => decide
  | some keyword =>
      have member := List.mem_of_find?_eq_some found
      exact isWordLike_iff.mpr (.inr (mem_keywords_iff.mp member))

end Kind

end Criteria
