/-!
# Texts as bytes

The UTF-8 encoding of a text, and pieces of the text given by byte positions.
A piece exists only when its ends are in order, within the text, and between
two characters.
-/

namespace Criteria

/-- The UTF-8 encoding of a text. -/
def utf8 (text : List Char) : List UInt8 :=
  text.flatMap String.utf8EncodeChar

/-- The parts of a text before and after a byte position, unless the position
is inside a character or behind the end. -/
def splitAtByte? : List Char → Nat → Option (List Char × List Char)
  | text, 0 => some ([], text)
  | [], _ + 1 => none
  | character :: text, position + 1 =>
      if character.utf8Size ≤ position + 1 then
        match splitAtByte? text (position + 1 - character.utf8Size) with
        | some (before, after) => some (character :: before, after)
        | none => none
      else none

/-- The characters from a byte position to the end. -/
def sliceFrom? (text : List Char) (start : Nat) : Option (List Char) :=
  (splitAtByte? text start).map Prod.snd

/-- The characters between two byte positions. -/
def slice? (text : List Char) (start stop : Nat) : Option (List Char) :=
  if start ≤ stop then
    match sliceFrom? text start with
    | some after => (splitAtByte? after (stop - start)).map Prod.fst
    | none => none
  else none

theorem length_utf8_cons (character : Char) (text : List Char) :
    (utf8 (character :: text)).length =
      character.utf8Size + (utf8 text).length := by
  simp [utf8, String.length_utf8EncodeChar]

/-- The position behind some first characters splits the text there. -/
theorem splitAtByte?_length_utf8 (before after : List Char) :
    splitAtByte? (before ++ after) (utf8 before).length =
      some (before, after) := by
  induction before with
  | nil =>
      cases after <;> rfl
  | cons character before ih =>
      have positive := Char.utf8Size_pos character
      rw [length_utf8_cons, List.cons_append]
      obtain ⟨rest, total⟩ : ∃ rest,
          character.utf8Size + (utf8 before).length = rest + 1 :=
        ⟨character.utf8Size + (utf8 before).length - 1, by omega⟩
      rw [total, splitAtByte?]
      have fits : character.utf8Size ≤ rest + 1 := by omega
      have left : rest + 1 - character.utf8Size = (utf8 before).length := by
        omega
      simp [fits, left, ih]

end Criteria
