import Criteria.Json.Read
import Criteria.Proofs.Token.Rescan
import Mathlib.Data.List.TakeDrop

/-!
# JSON texts read back

The reader of JSON takes back what the writer writes: a text from its escaped
form, whatever it contains, and a value whose numbers are spelled as numbers
from its compact text.  Blanks and other escapes, which the reader allows, do
not occur there.
-/

namespace Criteria

namespace Json

section Texts

variable {a b c d character mark : Char} {unit : Nat}

theorem hexDigitValue?_hexDigit :
    ∀ value, value < 16 → hexDigitValue? (hexDigit value) = some value := by
  decide

theorem codeUnit?_of_control (control : unit < 0x20) :
    codeUnit? '0' '0' (hexDigit (unit / 16)) (hexDigit (unit % 16)) =
      some unit := by
  have zero : hexDigitValue? '0' = some 0 := by decide
  have high := hexDigitValue?_hexDigit (unit / 16) (by omega)
  have low := hexDigitValue?_hexDigit (unit % 16) (by omega)
  simp only [codeUnit?, zero, high, low, Option.bind_eq_bind, Option.bind_some,
    Option.pure_def]
  congr 1
  omega

theorem readText_of_noCodeUnit (noUnit : codeUnit? a b c d = none)
    (rest : List Char) :
    readText ('\\' :: 'u' :: a :: b :: c :: d :: rest) = none := by
  by_cases second :
      ∃ e f g h others, rest = '\\' :: 'u' :: e :: f :: g :: h :: others
  · obtain ⟨e, f, g, h, others, rfl⟩ := second
    simp only [readText, noUnit]
  · rw [readText, noUnit]
    intro e f g h others same
    exact second ⟨e, f, g, h, others, same⟩

/-- A code unit that is no half of a pair stands for itself, also in front of
another code unit. -/
theorem readText_codeUnit (read : codeUnit? a b c d = some unit)
    (noHigh : isHighHalf unit = false) (noLow : isLowHalf unit = false)
    (rest : List Char) :
    readText ('\\' :: 'u' :: a :: b :: c :: d :: rest) =
      (readText rest).map (prepend (Char.ofNat unit)) := by
  by_cases second :
      ∃ e f g h others, rest = '\\' :: 'u' :: e :: f :: g :: h :: others
  · obtain ⟨e, f, g, h, others, rfl⟩ := second
    cases next : codeUnit? e f g h with
    | none =>
        rw [readText_of_noCodeUnit next]
        simp only [readText, read, next, Option.map_none]
    | some low => simp [readText, read, next, noHigh, noLow]
  · rw [readText, read]
    · simp [noHigh, noLow]
    · intro e f g h others same
      exact second ⟨e, f, g, h, others, same⟩

theorem readText_mark (meaning : unescape? mark = some character)
    (rest : List Char) :
    readText ('\\' :: mark :: rest) =
      (readText rest).map (prepend character) := by
  have noUnit : mark ≠ 'u' := by
    intro same
    rw [same] at meaning
    cases meaning
  rw [readText, meaning]
  · intro _ _ _ _ _ _ _ _ _ same _
    exact noUnit same
  · intro _ _ _ _ _ same _
    exact noUnit same

theorem readText_plain (noQuote : character ≠ '"')
    (noBackslash : character ≠ '\\') (noControl : ¬ character.toNat < 0x20)
    (rest : List Char) :
    readText (character :: rest) =
      (readText rest).map (prepend character) := by
  rw [readText]
  · rw [if_neg (by simp [noBackslash, noControl])]
  · exact noQuote
  · intro _ _ _ _ _ _ _ _ _ same _
    exact noBackslash same
  · intro _ _ _ _ _ same _
    exact noBackslash same
  · intro _ _ same _
    exact noBackslash same

/-- A character is read from the form in which it stands in a text, whatever
follows it. -/
theorem readText_escape (character : Char) (rest : List Char) :
    readText (escape character ++ rest) =
      (readText rest).map (prepend character) := by
  unfold escape
  split
  · subst character
    exact readText_mark rfl rest
  split
  · subst character
    exact readText_mark rfl rest
  split
  · rename_i control
    have noHigh : isHighHalf character.toNat = false := by
      simp [isHighHalf]
      omega
    have noLow : isLowHalf character.toNat = false := by
      simp [isLowHalf]
      omega
    have unit :=
      readText_codeUnit (codeUnit?_of_control control) noHigh noLow rest
    rw [Char.ofNat_toNat] at unit
    split
    any_goals exact readText_mark rfl rest
    exact unit
  · rename_i noQuote noBackslash noControl
    exact readText_plain noQuote noBackslash noControl rest

/-- A text is read back up to its closing quotation mark. -/
theorem readText_content (content after : List Char) :
    readText (content.flatMap escape ++ '"' :: after) =
      some (content, after) := by
  induction content with
  | nil => rw [List.flatMap_nil, List.nil_append, readText]
  | cons character content ih =>
      rw [List.flatMap_cons, List.append_assoc, readText_escape, ih]
      rfl

end Texts

/-- The spelling of a number: a numeral with at most one point, perhaps behind
a minus sign. -/
def IsSignedNumber (text : List Char) : Prop :=
  ∃ sign numeral, text = sign ++ numeral ∧ (sign = [] ∨ sign = ['-']) ∧
    IsNumber numeral

mutual

/-- Every number in the value is spelled as a number. -/
def WellSpelled : Json → Prop
  | number spelling => IsSignedNumber spelling.toList
  | list items => AreWellSpelled items
  | record members => HasWellSpelled members
  | null | bool _ | text _ => True

/-- Every item is well spelled. -/
def AreWellSpelled : List Json → Prop
  | [] => True
  | item :: items => item.WellSpelled ∧ AreWellSpelled items

/-- Every value among the members is well spelled. -/
def HasWellSpelled : List (String × Json) → Prop
  | [] => True
  | (_, value) :: members => value.WellSpelled ∧ HasWellSpelled members

end

/-- Whether the text begins with what stands behind a value, or is empty. -/
def endsValue : List Char → Bool
  | [] => true
  | character :: _ => character = ',' || character = ']' || character = '\x7d'

/-- Whether a written value may begin with the character. -/
def beginsValue (character : Char) : Bool :=
  character.isDigit || ['-', '"', '[', '\x7b', 'n', 't', 'f'].contains character

theorem skipBlanks_of_ne {first : Char} (noSpace : first ≠ ' ')
    (noTab : first ≠ '\t') (noFeed : first ≠ '\n') (noReturn : first ≠ '\r')
    (rest : List Char) : skipBlanks (first :: rest) = first :: rest := by
  simp [skipBlanks, noSpace, noTab, noFeed, noReturn]

theorem ne_of_beginsValue {first other : Char} (begins : beginsValue first)
    (never : beginsValue other = false) : first ≠ other := by
  intro same
  rw [same, never] at begins
  cases begins

theorem skipBlanks_of_beginsValue {first : Char} (begins : beginsValue first)
    (rest : List Char) : skipBlanks (first :: rest) = first :: rest :=
  skipBlanks_of_ne (ne_of_beginsValue begins (by decide))
    (ne_of_beginsValue begins (by decide))
    (ne_of_beginsValue begins (by decide))
    (ne_of_beginsValue begins (by decide)) rest

section Numbers

variable {rest : List Char}

theorem readNumeral_of_endsValue {text : List Char} {points : Nat}
    {hasExponent : Bool} (isNumeral : IsNumeral text points hasExponent)
    (ends : endsValue rest) :
    readNumeral (text ++ rest) = (⟨text, points, hasExponent⟩, rest) := by
  cases rest with
  | nil => apply readNumeral_of_ends isNumeral rfl <;> simp
  | cons first others =>
      have closing : (first = ',' ∨ first = ']') ∨ first = '\x7d' := by
        simpa [endsValue] using ends
      rcases closing with (rfl | rfl) | rfl
      all_goals apply readNumeral_of_ends isNumeral rfl <;> simp

/-- A number is read as it is spelled. -/
theorem readNumber_of_isSignedNumber {text : List Char}
    (isNumber : IsSignedNumber text) (ends : endsValue rest) :
    readNumber (text ++ rest) = some (number (String.ofList text), rest) := by
  obtain ⟨sign, numeral, rfl, isSign, points, hasExponent, isNumeral, few⟩ :=
    isNumber
  have starts := startsWithDigit_of_isNumeral isNumeral
  have reads := readNumeral_of_endsValue isNumeral ends
  cases numeral with
  | nil => cases starts
  | cons first others =>
      have digit : first.isDigit := starts
      have noMinus : first ≠ '-' := by
        intro same
        rw [same] at digit
        cases digit
      have span : (sign ++ first :: others ++ rest).span (· = '-') =
          (sign, first :: others ++ rest) := by
        rw [List.span_eq_takeWhile_dropWhile]
        rcases isSign with rfl | rfl <;> simp [noMinus]
      have short : sign.length ≤ 1 := by
        rcases isSign with rfl | rfl <;> simp
      have atDigit : startsWithDigit (first :: others ++ rest) := digit
      rw [readNumber, span]
      simp only [reads, short, atDigit, few, decide_true, Bool.and_self, if_true]

theorem exists_first_of_isSignedNumber {text : List Char}
    (isNumber : IsSignedNumber text) :
    ∃ first others, text = first :: others ∧
      (first = '-' ∨ first.isDigit) := by
  obtain ⟨sign, numeral, rfl, isSign, points, hasExponent, isNumeral, -⟩ :=
    isNumber
  have starts := startsWithDigit_of_isNumeral isNumeral
  rcases isSign with rfl | rfl
  · cases numeral with
    | nil => cases starts
    | cons first others => exact ⟨first, others, rfl, .inr starts⟩
  · exact ⟨'-', numeral, rfl, .inl rfl⟩

end Numbers

section Values

variable {bound : Nat} {rest : List Char}

theorem endsValue_writeItems (items : List Json) (rest : List Char) :
    endsValue (writeItems items ++ rest) := by
  cases items with
  | nil => rfl
  | cons item items => rfl

theorem endsValue_writeMembers (members : List (String × Json))
    (rest : List Char) : endsValue (writeMembers members ++ rest) := by
  cases members with
  | nil => rfl
  | cons member members => rfl

/-- The written form of a value shows at its first character that it is one. -/
theorem exists_first_of_write {json : Json} (spelled : json.WellSpelled) :
    ∃ first others, json.write = first :: others ∧ beginsValue first := by
  cases json with
  | null => exact ⟨_, _, rfl, by decide⟩
  | bool value => cases value <;> exact ⟨_, _, rfl, by decide⟩
  | number spelling =>
      obtain ⟨first, others, same, minus | digit⟩ :=
        exists_first_of_isSignedNumber spelled
      · exact ⟨first, others, same, by rw [minus]; decide⟩
      · exact ⟨first, others, same, by simp [beginsValue, digit]⟩
  | text content => exact ⟨_, _, rfl, by decide⟩
  | list items => cases items <;> exact ⟨_, _, rfl, by decide⟩
  | record members => cases members <;> exact ⟨_, _, rfl, by decide⟩

theorem writeText_append (content : String) (rest : List Char) :
    writeText content ++ rest =
      '"' :: (content.toList.flatMap escape ++ '"' :: rest) := by
  simp [writeText]

theorem readValue_text (content : String) (rest : List Char) :
    readValue (bound + 1) (writeText content ++ rest) =
      some (text content, rest) := by
  have opened (input : List Char) : readValue (bound + 1) ('"' :: input) =
      (readText input).map fun read => (text (String.ofList read.1), read.2) := by
    rw [readValue]
    rfl
  rw [writeText_append, opened, readText_content, Option.map_some,
    String.ofList_toList]

theorem readValue_number {spelling : String}
    (isNumber : IsSignedNumber spelling.toList) (ends : endsValue rest) :
    readValue (bound + 1) (spelling.toList ++ rest) =
      some (number spelling, rest) := by
  have reads := readNumber_of_isSignedNumber isNumber ends
  rw [String.ofList_toList] at reads
  obtain ⟨first, others, same, isFirst⟩ := exists_first_of_isSignedNumber isNumber
  have begins : beginsValue first := by
    rcases isFirst with rfl | digit
    · decide
    · simp [beginsValue, digit]
  have noOther {other : Char} (noMinus : '-' ≠ other)
      (noDigit : other.isDigit = false) : first ≠ other := by
    rintro rfl
    rcases isFirst with minus | digit
    · exact noMinus minus.symm
    · rw [noDigit] at digit
      cases digit
  rw [← reads, same, List.cons_append, readValue,
    skipBlanks_of_beginsValue begins]
  -- No other form of a value begins like a number.
  split
  case h_7 => rfl
  all_goals
    rename_i same
    exact (noOther (by decide) (by decide) (List.cons.inj same).1).elim

section Lists

variable {item : Json} {input after : List Char}

theorem readValue_list {first : Char} (begins : beginsValue first)
    (others : List Char) :
    readValue (bound + 1) ('[' :: first :: others) =
      (readItems bound (first :: others)).map fun read => (list read.1, read.2) := by
  have noBracket : first ≠ ']' := ne_of_beginsValue begins (by decide)
  have opening : skipBlanks ('[' :: first :: others) = '[' :: first :: others := rfl
  rw [readValue]
  simp only [opening, skipBlanks_of_beginsValue begins]
  split
  · rename_i same
    exact (noBracket (List.cons.inj same).1).elim
  · rfl

theorem readItems_one (read : readValue bound input = some (item, ']' :: after)) :
    readItems (bound + 1) input = some ([item], after) := by
  rw [readItems, read]
  rfl

theorem readItems_more (read : readValue bound input = some (item, ',' :: after)) :
    readItems (bound + 1) input =
      (readItems bound after).map fun read => (item :: read.1, read.2) := by
  rw [readItems, read]
  rfl

theorem readValue_record (others : List Char) :
    readValue (bound + 1) ('\x7b' :: '"' :: others) =
      (readMembers bound ('"' :: others)).map fun read =>
        (record read.1, read.2) := by
  rw [readValue]
  rfl

/-- A member is its name, a colon and its value. -/
theorem readMembers_one {name : String}
    (read : readValue bound input = some (item, '\x7d' :: after)) :
    readMembers (bound + 1) (writeText name ++ ':' :: input) =
      some ([(name, item)], after) := by
  have colon : skipBlanks (':' :: input) = ':' :: input := rfl
  rw [writeText_append, readMembers, skipBlanks_of_beginsValue (by decide)]
  simp only [readText_content, colon, read, String.ofList_toList]
  rfl

theorem readMembers_more {name : String}
    (read : readValue bound input = some (item, ',' :: after)) :
    readMembers (bound + 1) (writeText name ++ ':' :: input) =
      (readMembers bound after).map fun read =>
        ((name, item) :: read.1, read.2) := by
  have colon : skipBlanks (':' :: input) = ':' :: input := rfl
  rw [writeText_append, readMembers, skipBlanks_of_beginsValue (by decide)]
  simp only [readText_content, colon, read, String.ofList_toList]
  rfl

end Lists

/-- A written value takes at least one step of the bound. -/
theorem exists_bound_of_write (bound : Nat) {json : Json}
    (spelled : json.WellSpelled) (enough : 2 * json.write.length ≤ bound) :
    ∃ smaller, bound = smaller + 1 := by
  obtain ⟨first, others, same, -⟩ := exists_first_of_write spelled
  rw [same, List.length_cons] at enough
  exact ⟨bound - 1, by omega⟩

-- The writers of lists and records show a value first and then what stands
-- behind it, and so the readers are followed from a value that has been read.
mutual

/-- A written value is read back if the bound is twice its length. -/
theorem readValue_write : (json : Json) → json.WellSpelled →
    (bound : Nat) → 2 * json.write.length ≤ bound + 1 →
    ∀ {rest : List Char}, endsValue rest →
      readValue (bound + 1) (json.write ++ rest) = some (json, rest)
  | null, _, _, _, _, _ => rfl
  | bool true, _, _, _, _, _ => rfl
  | bool false, _, _, _, _, _ => rfl
  | number _, spelled, _, _, _, ends => readValue_number spelled ends
  | text content, _, _, _, rest, _ => readValue_text content rest
  | list [], _, _, _, _, _ => rfl
  | list (item :: items), spelled, bound, enough, rest, _ => by
      rw [write, List.length_cons, List.length_append] at enough
      obtain ⟨first, others, same, begins⟩ := exists_first_of_write spelled.1
      obtain ⟨middle, rfl⟩ : ∃ middle, bound = middle + 1 :=
        ⟨bound - 1, by omega⟩
      obtain ⟨inner, rfl⟩ :=
        exists_bound_of_write middle spelled.1 (by omega)
      have read := readValue_write item spelled.1 inner (by omega)
        (endsValue_writeItems items rest)
      have reads := readItems_write items spelled.2 read (by omega)
      have written : (list (item :: items)).write ++ rest =
          '[' :: (item.write ++ (writeItems items ++ rest)) := by
        simp [write]
      rw [written, same, List.cons_append, readValue_list begins,
        ← List.cons_append, ← same, reads, Option.map_some]
  | record [], _, _, _, _, _ => rfl
  | record ((name, value) :: members), spelled, bound, enough, rest, _ => by
      rw [write] at enough
      simp only [List.length_cons, List.length_append] at enough
      obtain ⟨middle, rfl⟩ : ∃ middle, bound = middle + 1 :=
        ⟨bound - 1, by omega⟩
      obtain ⟨inner, rfl⟩ :=
        exists_bound_of_write middle spelled.1 (by omega)
      have read := readValue_write value spelled.1 inner (by omega)
        (endsValue_writeMembers members rest)
      have reads := readMembers_write name members spelled.2 read (by omega)
      have written : (record ((name, value) :: members)).write ++ rest =
          '\x7b' :: (writeText name ++ ':' ::
            (value.write ++ (writeMembers members ++ rest))) := by
        simp [write]
      rw [written, writeText, List.cons_append, readValue_record,
        ← List.cons_append, ← writeText, reads, Option.map_some]

/-- The items behind the first one are read back. -/
theorem readItems_write : (items : List Json) → AreWellSpelled items →
    ∀ {bound : Nat} {item : Json} {input rest : List Char},
      readValue bound input = some (item, writeItems items ++ rest) →
      2 * (writeItems items).length ≤ bound + 1 →
      readItems (bound + 1) input = some (item :: items, rest)
  | [], _, _, _, _, _, read, _ => readItems_one read
  | next :: items, spelled, bound, item, input, rest, read, enough => by
      rw [writeItems, List.length_cons, List.length_append] at enough
      obtain ⟨middle, rfl⟩ : ∃ middle, bound = middle + 1 :=
        ⟨bound - 1, by omega⟩
      obtain ⟨inner, rfl⟩ :=
        exists_bound_of_write middle spelled.1 (by omega)
      have readNext := readValue_write next spelled.1 inner (by omega)
        (endsValue_writeItems items rest)
      have reads := readItems_write items spelled.2 readNext (by omega)
      rw [writeItems, List.cons_append, List.append_assoc] at read
      rw [readItems_more read, reads, Option.map_some]

/-- The members behind the first one are read back. -/
theorem readMembers_write (name : String) : (members : List (String × Json)) →
    HasWellSpelled members →
    ∀ {bound : Nat} {value : Json} {input rest : List Char},
      readValue bound input = some (value, writeMembers members ++ rest) →
      2 * (writeMembers members).length ≤ bound + 1 →
      readMembers (bound + 1) (writeText name ++ ':' :: input) =
        some ((name, value) :: members, rest)
  | [], _, _, _, _, _, read, _ => readMembers_one read
  | (next, nextValue) :: members, spelled, bound, value, input, rest, read,
      enough => by
      rw [writeMembers] at enough
      simp only [List.length_cons, List.length_append] at enough
      obtain ⟨middle, rfl⟩ : ∃ middle, bound = middle + 1 :=
        ⟨bound - 1, by omega⟩
      obtain ⟨inner, rfl⟩ :=
        exists_bound_of_write middle spelled.1 (by omega)
      have readNext := readValue_write nextValue spelled.1 inner (by omega)
        (endsValue_writeMembers members rest)
      have reads := readMembers_write next members spelled.2 readNext (by omega)
      rw [writeMembers, List.cons_append, List.append_assoc, List.cons_append,
        List.append_assoc] at read
      rw [readMembers_more read, reads, Option.map_some]

end

/-- The compact text of a well-spelled value is read back as the value. -/
theorem read?_compact {json : Json} (spelled : json.WellSpelled) :
    read? json.compact = some json := by
  have ends : endsValue [] := rfl
  have read := readValue_write json spelled (2 * json.write.length + 1)
    (by omega) ends
  rw [List.append_nil] at read
  rw [read?, compact, String.length_ofList, String.toList_ofList, read]
  rfl

end Values

end Json

end Criteria
