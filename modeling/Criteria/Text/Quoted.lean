/-!
# Quoted text

A text stands between single quotes, and a quote inside it is written twice.
`quote` writes this form and `readQuoted` reads it, after the opening quote has
been taken.  A text without a closing quote still ends at the first half of its
last doubled quote; without a doubled quote it is no quoted text at all.
-/

namespace Criteria

/-- The text with every quote written twice. -/
def doubleQuotes : List Char → List Char
  | [] => []
  | '\'' :: rest => '\'' :: '\'' :: doubleQuotes rest
  | character :: rest => character :: doubleQuotes rest

/-- The written form of a text: between quotes, inner quotes doubled. -/
def quote (content : List Char) : List Char :=
  '\'' :: (doubleQuotes content ++ ['\''])

/-- Split what follows an opening quote into the content, with doubled quotes
made single, and the characters after the closing quote.  When no closing quote
is left behind a doubled quote, the first half of that pair closes the text. -/
def readQuoted : List Char → Option (List Char × List Char)
  | [] => none
  | '\'' :: '\'' :: rest =>
      match readQuoted rest with
      | some (content, after) => some ('\'' :: content, after)
      | none => some ([], '\'' :: rest)
  | '\'' :: rest => some ([], rest)
  | character :: rest =>
      match readQuoted rest with
      | some (content, after) => some (character :: content, after)
      | none => none

/-- Reading loses nothing: content and remainder spell what was read. -/
theorem eq_of_readQuoted {input content after : List Char}
    (read : readQuoted input = some (content, after)) :
    input = doubleQuotes content ++ '\'' :: after := by
  fun_induction readQuoted input generalizing content after with
  | case1 => simp at read
  | case2 rest content' after' inner ih =>
      simp only [Option.some.injEq, Prod.mk.injEq] at read
      obtain ⟨rfl, rfl⟩ := read
      simp [doubleQuotes, ih inner]
  | case3 rest inner =>
      simp only [Option.some.injEq, Prod.mk.injEq] at read
      obtain ⟨rfl, rfl⟩ := read
      simp [doubleQuotes]
  | case4 rest noPair =>
      simp only [Option.some.injEq, Prod.mk.injEq] at read
      obtain ⟨rfl, rfl⟩ := read
      simp [doubleQuotes]
  | case5 character rest noPair noQuote content' after' inner ih =>
      simp only [Option.some.injEq, Prod.mk.injEq] at read
      obtain ⟨rfl, rfl⟩ := read
      simp [doubleQuotes, ih inner]
  | case6 => simp at read

end Criteria
