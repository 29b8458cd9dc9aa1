import Criteria.Proofs.Token.Rescan
import Criteria.Text.Bytes

/-!
# Characters among bytes

Where the characters of a text stand in its encoding.  The place behind some
first characters is the length of their encoding; it is there that pieces of the
text can be cut out and that the first byte of the next character is found.  An
ASCII character is its own single byte, and no byte of another character is one
of ASCII.
-/

namespace Criteria

/-- The bytes of a text are those of the string with its characters. -/
theorem toByteArray_utf8 (text : String) :
    (utf8 text.toList).toByteArray = text.toUTF8 := by
  conv => rhs; rw [← String.ofList_toList (s := text)]
  rfl

theorem utf8_append (front back : List Char) :
    utf8 (front ++ back) = utf8 front ++ utf8 back :=
  List.flatMap_append

/-- The byte position behind some first characters. -/
def place (front : List Char) : Nat :=
  (utf8 front).length

@[simp] theorem place_nil : place [] = 0 := rfl

@[simp] theorem place_append (front back : List Char) :
    place (front ++ back) = place front + place back := by
  simp [place, utf8_append]

@[simp] theorem place_cons (character : Char) (back : List Char) :
    place (character :: back) = character.utf8Size + place back :=
  length_utf8_cons character back

/-- The place behind a whole text is its size. -/
theorem place_toList (text : String) : place text.toList = text.utf8ByteSize := by
  have size := congrArg ByteArray.size (toByteArray_utf8 text)
  rwa [List.size_toByteArray] at size

theorem place_pos_iff {front : List Char} : 0 < place front ↔ front ≠ [] := by
  cases front with
  | nil => simp
  | cons character front =>
      have positive := Char.utf8Size_pos character
      simp [Nat.add_pos_left positive]

section Pieces

variable (front middle back : List Char)

theorem sliceFrom?_place :
    sliceFrom? (front ++ back) (place front) = some back := by
  rw [sliceFrom?, place, splitAtByte?_length_utf8, Option.map_some]

/-- Between the places of two fronts the text holds what one has more than the
other. -/
theorem slice?_place :
    slice? (front ++ (middle ++ back)) (place front) (place (front ++ middle)) =
      some middle := by
  have within : place front + place middle - place front = place middle :=
    Nat.add_sub_cancel_left _ _
  rw [place_append, slice?, if_pos (Nat.le_add_right _ _), sliceFrom?_place,
    within]
  simp only [place, splitAtByte?_length_utf8, Option.map_some]

end Pieces

/-- The first byte of a character. -/
def leadByte (character : Char) : UInt8 :=
  (String.utf8EncodeChar character).headD 0

theorem exists_encodeChar_eq_cons (character : Char) :
    ∃ more, String.utf8EncodeChar character = leadByte character :: more := by
  have size := String.length_utf8EncodeChar character
  have positive := Char.utf8Size_pos character
  cases encoded : String.utf8EncodeChar character with
  | nil =>
      rw [encoded, List.length_nil] at size
      omega
  | cons lead more => exact ⟨more, by rw [leadByte, encoded, List.headD_cons]⟩

/-- At the place of a front the next character begins. -/
theorem getElem?_place (front back : List Char) :
    (utf8 (front ++ back))[place front]? = back.head?.map leadByte := by
  rw [utf8_append, place, List.getElem?_append_right (Nat.le_refl _),
    Nat.sub_self]
  cases back with
  | nil => rfl
  | cons character others =>
      obtain ⟨more, encoded⟩ := exists_encodeChar_eq_cons character
      simp [utf8, encoded]

section Ascii

variable {character : Char}

theorem utf8Size_of_ascii (ascii : character.toNat < 128) :
    character.utf8Size = 1 := by
  rw [Char.utf8Size_eq_one_iff, UInt32.le_iff_toNat_le]
  exact Nat.le_of_lt_succ ascii

theorem encodeChar_of_ascii (ascii : character.toNat < 128) :
    String.utf8EncodeChar character = [leadByte character] := by
  rw [leadByte, String.utf8EncodeChar_eq_singleton (utf8Size_of_ascii ascii),
    List.headD_cons]

theorem toNat_leadByte_of_ascii (ascii : character.toNat < 128) :
    (leadByte character).toNat = character.toNat := by
  have same : character.val.toNat = character.toNat := rfl
  rw [leadByte, String.utf8EncodeChar_eq_singleton (utf8Size_of_ascii ascii),
    List.headD_cons, UInt32.toNat_toUInt8, same]
  omega

/-- No byte of a character outside ASCII is one of ASCII. -/
theorem le_toNat_of_mem_encodeChar (beyond : 128 ≤ character.toNat) :
    ∀ byte ∈ String.utf8EncodeChar character, 128 ≤ byte.toNat := by
  have same : character.val.toNat = character.toNat := rfl
  have high {value : Nat} (low : 128 ≤ value) (fits : value < 256) :
      128 ≤ (UInt8.ofNat value).toNat := by
    rw [UInt8.toNat_ofNat']
    omega
  intro byte member
  rw [String.utf8EncodeChar, same, if_neg (by omega)] at member
  split at member
  · simp only [List.mem_cons, List.not_mem_nil, or_false] at member
    rcases member with rfl | rfl <;> exact high (by omega) (by omega)
  split at member
  · simp only [List.mem_cons, List.not_mem_nil, or_false] at member
    rcases member with rfl | rfl | rfl <;> exact high (by omega) (by omega)
  · simp only [List.mem_cons, List.not_mem_nil, or_false] at member
    rcases member with rfl | rfl | rfl | rfl <;> exact high (by omega) (by omega)

theorem le_toNat_leadByte (beyond : 128 ≤ character.toNat) :
    128 ≤ (leadByte character).toNat := by
  obtain ⟨more, encoded⟩ := exists_encodeChar_eq_cons character
  apply le_toNat_of_mem_encodeChar beyond
  rw [encoded]
  exact List.mem_cons_self

/-- A range of ASCII is entered by the first byte of a character exactly when
the character lies in it. -/
theorem leadByte_in_range {low high : Nat} (ascii : high < 128) :
    (low ≤ (leadByte character).toNat ∧ (leadByte character).toNat ≤ high) ↔
      (low ≤ character.toNat ∧ character.toNat ≤ high) := by
  by_cases inside : character.toNat < 128
  · rw [toNat_leadByte_of_ascii inside]
  · have beyond := le_toNat_leadByte (Nat.le_of_not_lt inside)
    omega

end Ascii

end Criteria
