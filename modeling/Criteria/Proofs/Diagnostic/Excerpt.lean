import Criteria.Diagnostic
import Mathlib.Data.Nat.Find

/-!
# Where excerpts end

An excerpt should not cut a word: it ends at a space, or at the end of the text.
With a space behind its first twelve characters it does, and also when the text
has no more than twelve left.  Otherwise it ends after the twelve, wherever that
is.
-/

namespace Criteria

/-- Where an excerpt that begins at the given place should end: at the first
space behind twelve characters, or at the end of the text without such a space. -/
inductive IsExcerptEnd (text : List Char) (start : Nat) : Nat → Prop where
  | space {stop : Nat} (far : start + excerptLength ≤ stop)
      (isSpace : text[stop]? = some ' ')
      (first : ∀ place, start + excerptLength ≤ place → place < stop →
        text[place]? ≠ some ' ') : IsExcerptEnd text start stop
  | textEnd
      (noSpace : ∀ place, start + excerptLength ≤ place →
        text[place]? ≠ some ' ') : IsExcerptEnd text start text.length

/-- Where an excerpt begins: at its offset, which is no further than the end of
the text. -/
def excerptStart (text : String) (offset : Nat) : Nat :=
  min offset text.length

theorem exists_excerptEnd (text : List Char) (start : Nat) :
    ∃ stop, IsExcerptEnd text start stop := by
  by_cases present :
      ∃ place, start + excerptLength ≤ place ∧ text[place]? = some ' '
  · obtain ⟨far, isSpace⟩ := Nat.find_spec present
    refine ⟨_, .space far isSpace ?_⟩
    intro place behind before found
    exact Nat.find_min present before ⟨behind, found⟩
  · refine ⟨_, .textEnd ?_⟩
    intro place behind found
    exact present ⟨place, behind, found⟩

theorem takeWhile_eq_take_of_first {characters : List Char} {count : Nat}
    (isSpace : characters[count]? = some ' ')
    (first : ∀ place < count, characters[place]? ≠ some ' ') :
    characters.takeWhile (· ≠ ' ') = characters.take count := by
  induction characters generalizing count with
  | nil => simp at isSpace
  | cons character others ih =>
      cases count with
      | zero =>
          have same : character = ' ' := by simpa using isSpace
          simp [same]
      | succ count =>
          have different : character ≠ ' ' := by
            simpa using first 0 (Nat.succ_pos count)
          have later : ∀ place < count, others[place]? ≠ some ' ' :=
            fun place inside => by
              simpa using first (place + 1) (Nat.succ_lt_succ inside)
          rw [List.takeWhile_cons_of_pos (by simpa using different),
            List.take_succ_cons, ih (by simpa using isSpace) later]

theorem mem_drop_iff {characters : List Char} {count : Nat} :
    ' ' ∈ characters.drop count ↔
      ∃ place, count ≤ place ∧ characters[place]? = some ' ' := by
  rw [List.mem_iff_getElem?]
  constructor
  · rintro ⟨index, found⟩
    rw [List.getElem?_drop] at found
    exact ⟨count + index, Nat.le_add_right _ _, found⟩
  · rintro ⟨place, behind, found⟩
    refine ⟨place - count, ?_⟩
    rw [List.getElem?_drop, Nat.add_sub_cancel' behind, found]

/-- The part of a text between two places. -/
theorem drop_take_eq (text : List Char) (start count : Nat) :
    (text.take (start + count)).drop start = (text.drop start).take count := by
  rw [List.drop_take, Nat.add_sub_cancel_left]

/-- With a space behind the twelve characters, the excerpt ends at the first. -/
theorem toList_excerpt_of_space {text : String} {offset stop : Nat}
    (far : offset + excerptLength ≤ stop)
    (isSpace : text.toList[stop]? = some ' ')
    (first : ∀ place, offset + excerptLength ≤ place → place < stop →
      text.toList[place]? ≠ some ' ') :
    (excerpt text offset).toList = (text.toList.take stop).drop offset := by
  obtain ⟨count, rfl⟩ := Nat.exists_eq_add_of_le far
  have present : ((text.toList.drop offset).drop excerptLength).contains ' ' := by
    rw [List.contains_iff_mem, List.drop_drop, mem_drop_iff]
    exact ⟨_, far, isSpace⟩
  have tail : ((text.toList.drop offset).drop excerptLength).takeWhile (· ≠ ' ') =
      ((text.toList.drop offset).drop excerptLength).take count := by
    rw [List.drop_drop]
    apply takeWhile_eq_take_of_first
    · rwa [List.getElem?_drop]
    · intro place inside
      rw [List.getElem?_drop]
      exact first _ (Nat.le_add_right _ _) (Nat.add_lt_add_left inside _)
  simp only [excerpt, present, if_true, tail, String.toList_ofList]
  rw [Nat.add_assoc, drop_take_eq, List.take_add]

/-- Without a space behind them, the excerpt ends after the twelve characters. -/
theorem toList_excerpt_of_noSpace {text : String} {offset : Nat}
    (noSpace : ' ' ∉ text.toList.drop (offset + excerptLength)) :
    (excerpt text offset).toList =
      (text.toList.take (offset + excerptLength)).drop offset := by
  have absent : ((text.toList.drop offset).drop excerptLength).contains ' ' = false := by
    rw [← Bool.not_eq_true, List.contains_iff_mem, List.drop_drop]
    exact noSpace
  simp only [excerpt, absent, Bool.false_eq_true, if_false, List.append_nil,
    String.toList_ofList]
  rw [drop_take_eq]

theorem excerpt_start (text : String) (offset : Nat) :
    excerpt text (excerptStart text offset) = excerpt text offset := by
  have same : text.toList.drop (excerptStart text offset) =
      text.toList.drop offset := by
    unfold excerptStart
    rcases Nat.le_total offset text.length with inside | behind
    · rw [Nat.min_eq_left inside]
    · have length : text.toList.length = text.length := String.length_toList
      rw [Nat.min_eq_right behind, List.drop_of_length_le (by omega),
        List.drop_of_length_le (by omega)]
  unfold excerpt
  rw [same]

/-- An excerpt ends where it should exactly if a space follows its first twelve
characters or the text ends within them.  In any other case it shows twelve
characters, and a word may be cut. -/
theorem excerpt_ends_iff (text : String) (offset : Nat) :
    (∃ stop, IsExcerptEnd text.toList (excerptStart text offset) stop) ∧
    (∀ stop, IsExcerptEnd text.toList (excerptStart text offset) stop →
      ((excerpt text offset).toList =
          (text.toList.take stop).drop (excerptStart text offset) ↔
        ' ' ∈ text.toList.drop (excerptStart text offset + excerptLength) ∨
          text.length ≤ excerptStart text offset + excerptLength)) ∧
    (' ' ∉ text.toList.drop (excerptStart text offset + excerptLength) →
      (excerpt text offset).toList =
        (text.toList.take (excerptStart text offset + excerptLength)).drop
          (excerptStart text offset)) := by
  have length : text.toList.length = text.length := String.length_toList
  have within : excerptStart text offset ≤ text.length := Nat.min_le_right _ _
  rw [← excerpt_start text offset]
  generalize excerptStart text offset = start at within ⊢
  refine ⟨exists_excerptEnd _ _, ?_, toList_excerpt_of_noSpace⟩
  intro stop isEnd
  cases isEnd with
  | space far isSpace first =>
      have present : ' ' ∈ text.toList.drop (start + excerptLength) :=
        mem_drop_iff.mpr ⟨_, far, isSpace⟩
      exact iff_of_true (toList_excerpt_of_space far isSpace first) (.inl present)
  | textEnd noSpace =>
      have absent : ' ' ∉ text.toList.drop (start + excerptLength) := by
        intro present
        obtain ⟨place, behind, isSpace⟩ := mem_drop_iff.mp present
        exact noSpace place behind isSpace
      rw [toList_excerpt_of_noSpace absent]
      constructor
      · intro same
        right
        have lengths := congrArg List.length same
        simp only [List.length_drop, List.length_take] at lengths
        omega
      · rintro (present | short)
        · exact (absent present).elim
        · rw [List.take_of_length_le (by omega), List.take_of_length_le (by omega)]

/-- Without a space ahead, a word of more than twelve characters is cut. -/
theorem excerpt_cuts_word :
    IsExcerptEnd "unknown_field_name=3".toList 0 20 ∧
      excerpt "unknown_field_name=3" 0 = "unknown_fiel" ∧
      (excerpt "unknown_field_name=3" 0).toList ≠
        ("unknown_field_name=3".toList.take 20).drop 0 := by
  refine ⟨?_, by decide +kernel, by decide +kernel⟩
  apply IsExcerptEnd.textEnd
  intro place behind isSpace
  have present : ' ' ∈ "unknown_field_name=3".toList :=
    List.mem_of_getElem? isSpace
  revert present
  decide +kernel

end Criteria
