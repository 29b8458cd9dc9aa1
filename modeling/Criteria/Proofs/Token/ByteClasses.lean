import Criteria.Proofs.Text.Bytes
import Criteria.Token.ByteScan

/-!
# Classes of bytes

The tests of the scan of the bytes against the classes of characters.  The first
byte of a character passes a test exactly when the character belongs to the
class, so at the place of a character a test of one byte sees that character, and
a run of bytes that pass ends where the run of characters of the class does.
-/

namespace Criteria

namespace ByteScan

section Classes

variable (character : Char)

theorem toNat_code {symbol : Char} (ascii : symbol.toNat < 128) :
    (code symbol).toNat = symbol.toNat := by
  have same : symbol.val.toNat = symbol.toNat := rfl
  rw [code, Char.toUInt8, UInt32.toNat_toUInt8, same]
  omega

/-- The first byte of a character is that of an ASCII character only if the
characters are the same. -/
theorem leadByte_eq_code {symbol : Char} (ascii : symbol.toNat < 128) :
    leadByte character = code symbol ↔ character = symbol := by
  have range := @leadByte_in_range character symbol.toNat symbol.toNat ascii
  rw [← UInt8.toNat_inj, toNat_code ascii, ← Char.toNat_inj]
  omega

theorem isDigit_leadByte : isDigit (leadByte character) = character.isDigit := by
  have range := @leadByte_in_range character 48 57 (by decide)
  have low : (code '0').toNat = 48 := by decide
  have high : (code '9').toNat = 57 := by decide
  rw [Bool.eq_iff_iff, isDigit_iff, ← range]
  simp only [isDigit, Bool.and_eq_true, decide_eq_true_eq,
    UInt8.le_iff_toNat_le, low, high]

theorem isLetter_leadByte :
    isLetter (leadByte character) = character.isAlpha := by
  have upper := @leadByte_in_range character 65 90 (by decide)
  have lower := @leadByte_in_range character 97 122 (by decide)
  have lowUpper : (code 'A').toNat = 65 := by decide
  have highUpper : (code 'Z').toNat = 90 := by decide
  have lowLower : (code 'a').toNat = 97 := by decide
  have highLower : (code 'z').toNat = 122 := by decide
  rw [Bool.eq_iff_iff, isAlpha_iff, ← upper, ← lower]
  simp only [isLetter, Bool.and_eq_true, Bool.or_eq_true, decide_eq_true_eq,
    UInt8.le_iff_toNat_le, lowUpper, highUpper, lowLower, highLower]
  exact or_comm

theorem isWordStart_leadByte :
    isWordStart (leadByte character) = Criteria.isWordStart character := by
  have underscore := @leadByte_eq_code character '_' (by decide)
  simp only [isWordStart, Criteria.isWordStart, isLetter_leadByte, underscore]

theorem isWordPart_leadByte :
    isWordPart (leadByte character) = Criteria.isWordPart character := by
  have underscore := @leadByte_eq_code character '_' (by decide)
  have colon := @leadByte_eq_code character ':' (by decide)
  have backslash := @leadByte_eq_code character '\\' (by decide)
  simp only [isWordPart, Criteria.isWordPart, isLetter_leadByte,
    isDigit_leadByte, underscore, colon, backslash, Char.isAlphanum]

theorem isPlaceholderPart_leadByte :
    isPlaceholderPart (leadByte character) =
      Criteria.isPlaceholderPart character := by
  have underscore := @leadByte_eq_code character '_' (by decide)
  simp only [isPlaceholderPart, Criteria.isPlaceholderPart, isLetter_leadByte,
    isDigit_leadByte, underscore, Char.isAlphanum]

end Classes

/-- A test of bytes is passed by all bytes of the characters of a class, and not
by the first byte of any other character. -/
structure Tells (test : UInt8 → Bool) (part : Char → Bool) : Prop where
  passed : ∀ character, part character →
    ∀ byte ∈ String.utf8EncodeChar character, test byte
  stopped : ∀ character, part character = false →
    test (leadByte character) = false

namespace Tells

variable {test : UInt8 → Bool} {part : Char → Bool}

/-- It is enough to look at first bytes where the class is one of ASCII. -/
theorem of_leadByte (agrees : ∀ character, test (leadByte character) = part character)
    (inWord : ∀ character, part character → Criteria.isWordPart character) :
    Tells test part where
  passed := by
    intro character isPart byte member
    have ascii := (toNat_of_isWordPart (inWord character isPart)).2
    rw [encodeChar_of_ascii ascii, List.mem_singleton] at member
    rw [member, agrees, isPart]
  stopped := by
    intro character noPart
    rw [agrees, noPart]

theorem isDigit : Tells isDigit Char.isDigit :=
  of_leadByte isDigit_leadByte fun _ => isWordPart_of_isDigit

theorem isWordPart : Tells isWordPart Criteria.isWordPart :=
  of_leadByte isWordPart_leadByte fun _ => id

theorem isPlaceholderPart : Tells isPlaceholderPart Criteria.isPlaceholderPart :=
  of_leadByte isPlaceholderPart_leadByte fun _ => isWordPart_of_isPlaceholderPart

/-- No byte of another character is taken for a quote. -/
theorem noQuote : Tells (· ≠ code '\'') (· ≠ '\'') where
  passed := by
    intro character noQuote byte member
    have other : character ≠ '\'' := by simpa using noQuote
    by_cases ascii : character.toNat < 128
    · rw [encodeChar_of_ascii ascii, List.mem_singleton] at member
      rw [member]
      simpa [leadByte_eq_code] using other
    · have high := le_toNat_of_mem_encodeChar (Nat.le_of_not_lt ascii) byte member
      have quote : (code '\'').toNat = 39 := by decide
      have differs : byte ≠ code '\'' := by
        intro same
        rw [same] at high
        omega
      simpa using differs
  stopped := by
    intro character isQuote
    have same : character = '\'' := by simpa using isQuote
    simp [same, leadByte_eq_code]

end Tells

section Positions

variable {test : UInt8 → Bool} {part : Char → Bool} (front back : List Char)

/-- At the place of a front a test sees the next character. -/
theorem passes_place (test : UInt8 → Bool) :
    passes (utf8 (front ++ back)) (place front) test =
      back.head?.any fun character => test (leadByte character) := by
  rw [passes, getElem?_place]
  cases back <;> rfl

theorem passOver_of_passes {bytes : List UInt8} {position : Nat}
    (passed : passes bytes position test) :
    passOver bytes test position = passOver bytes test (position + 1) := by
  rw [passOver, dif_pos passed]

theorem passOver_of_not_passes {bytes : List UInt8} {position : Nat}
    (stopped : passes bytes position test = false) :
    passOver bytes test position = position := by
  rw [passOver, dif_neg (by simp [stopped])]

theorem passes_passOver (bytes : List UInt8) (test : UInt8 → Bool) (position : Nat) :
    passes bytes (passOver bytes test position) test = false := by
  fun_induction passOver bytes test position with
  | case1 position passed ih => exact ih
  | case2 position stopped => exact Bool.eq_false_iff.mpr stopped

/-- A run of bytes that all pass is passed over. -/
theorem passOver_append (first run rest : List UInt8)
    (passed : ∀ byte ∈ run, test byte) :
    passOver (first ++ (run ++ rest)) test first.length =
      passOver (first ++ (run ++ rest)) test (first ++ run).length := by
  induction run generalizing first with
  | nil => rw [List.append_nil]
  | cons byte run ih =>
      obtain ⟨bytePasses, othersPass⟩ := List.forall_mem_cons.mp passed
      have here : passes (first ++ (byte :: run ++ rest)) first.length test := by
        simp [passes, bytePasses]
      have next := ih (first ++ [byte]) othersPass
      rw [passOver_of_passes here]
      simpa using next

/-- A run of bytes of a class ends where the run of its characters does. -/
theorem passOver_place (tells : Tells test part) :
    passOver (utf8 (front ++ back)) test (place front) =
      place (front ++ back.takeWhile part) := by
  induction back generalizing front with
  | nil =>
      rw [List.takeWhile_nil, List.append_nil]
      apply passOver_of_not_passes
      have nothing := passes_place front [] test
      rwa [List.append_nil] at nothing
  | cons character back ih =>
      cases isPart : part character with
      | true =>
          have whole : utf8 (front ++ character :: back) =
              utf8 front ++ (String.utf8EncodeChar character ++ utf8 back) := by
            simp [utf8]
          have behind : (utf8 front ++ String.utf8EncodeChar character).length =
              place (front ++ [character]) := by
            simp [place, utf8]
          -- All bytes of the character are passed over before the rest is.
          have passed := tells.passed character isPart
          rw [whole, place, passOver_append (utf8 front) _ _ passed, behind, ← whole,
            List.append_cons, ih (front ++ [character]),
            List.takeWhile_cons_of_pos isPart, List.append_assoc,
            List.singleton_append]
      | false =>
          have stopped : passes (utf8 (front ++ character :: back)) (place front)
              test = false := by
            rw [passes_place]
            exact tells.stopped character isPart
          rw [passOver_of_not_passes stopped,
            List.takeWhile_cons_of_neg (by simp [isPart]), List.append_nil]

theorem place_behind {first : Char} (ascii : first.toNat < 128) :
    place front + 1 = place (front ++ [first]) := by
  simp [utf8Size_of_ascii ascii]

/-- Behind an ASCII character a run is passed over from the next byte on. -/
theorem passOver_behind (tells : Tells test part) {first : Char}
    (ascii : first.toNat < 128) :
    passOver (utf8 (front ++ first :: back)) test (place front + 1) =
      place (front ++ first :: back.takeWhile part) := by
  rw [place_behind front ascii, List.append_cons, passOver_place _ _ tells,
    ← List.append_cons]

/-- Behind an ASCII character a test sees what follows the character. -/
theorem passes_behind {first : Char} (ascii : first.toNat < 128)
    (test : UInt8 → Bool) :
    passes (utf8 (front ++ first :: back)) (place front + 1) test =
      passes (utf8 (front ++ [first] ++ back)) (place (front ++ [first])) test := by
  rw [place_behind front ascii, List.append_cons]

theorem passes_digit :
    passes (utf8 (front ++ back)) (place front) isDigit =
      startsWithDigit back := by
  rw [passes_place]
  cases back with
  | nil => rfl
  | cons first others => exact isDigit_leadByte first

theorem passes_letter :
    passes (utf8 (front ++ back)) (place front) isLetter =
      startsWithLetter back := by
  rw [passes_place]
  cases back with
  | nil => rfl
  | cons first others => exact isLetter_leadByte first

theorem passes_symbol {symbol : Char} (ascii : symbol.toNat < 128) :
    passes (utf8 (front ++ back)) (place front) (· = code symbol) =
      decide (back.head? = some symbol) := by
  rw [passes_place]
  cases back with
  | nil => rfl
  | cons first others => simp [leadByte_eq_code first ascii]

end Positions

end ByteScan

end Criteria
