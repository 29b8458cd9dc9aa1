import Criteria.Proofs.Rule.Cut

/-!
# How deep a reading goes

Every level takes a token, so that a reading with one level more than there are
tokens is never cut short.  This reading decides what becomes of any other: it
is the same if the allowed levels suffice, and else it is cut at the first level
beyond them.
-/

namespace Criteria

theorem Run.height_le_iff {α : Type} {run : Run α} {bound : Nat} :
    run.height ≤ bound ↔ ∀ opening ∈ run.openings, opening.level ≤ bound := by
  unfold height
  generalize run.openings = openings
  induction openings with
  | nil => simp
  | cons first others ih =>
      rw [List.foldr_cons, Nat.max_le, ih, List.forall_mem_cons]

/-- Among the levels of the run that are deeper than so many, the given one is
opened at the leftmost place. -/
structure Run.FirstBeyond {α : Type} (run : Run α) (levels : Nat)
    (excess : Opening) : Prop where
  opened : excess ∈ run.openings
  beyond : levels < excess.level
  leftmost : ∀ other ∈ run.openings, levels < other.level →
    other.tokens <:+ excess.tokens

namespace Rule

variable {dispatch : Dispatch} {tokens : List Token} {allowance : Nat}

/-- The outermost level begins with the first token, and any other lies behind
an opener. -/
theorem filter_opening {opening : Opening}
    (member : opening ∈ (filter dispatch allowance tokens).openings) :
    opening.tokens = tokens ∧ opening.level ≤ 1 ∨
      ∃ before opener, tokens = before ++ opener :: opening.tokens ∧
        isOpener opener.kind ∧ opening.level ≤ before.length + 2 := by
  have orderly := (orderly_filter dispatch allowance).behindParen tokens
  obtain ⟨before, opener, place, isOpening, level⟩ :=
    orderly.behind opening member
  cases before with
  | nil =>
      have same := (List.cons.inj place).2
      exact .inl ⟨same.symm, level⟩
  | cons first others =>
      have same := (List.cons.inj place).2
      exact .inr ⟨others, opener, same, isOpening, level⟩

theorem level_le_length {opening : Opening}
    (member : opening ∈ (filter dispatch allowance tokens).openings) :
    opening.level ≤ tokens.length + 1 := by
  rcases filter_opening member with ⟨_, level⟩ | ⟨before, opener, place, _, level⟩
  · exact Nat.le_trans level (Nat.le_add_left 1 _)
  · have longer := congrArg List.length place
    rw [List.length_append, List.length_cons] at longer
    omega

/-- A reading with one level more than there are tokens is not cut short. -/
theorem result_filter_ne_tooDeep :
    (filter dispatch (tokens.length + 1) tokens).result ≠ .error .tooDeep := by
  intro failed
  have orderly :=
    (orderly_filter dispatch (tokens.length + 1)).behindParen tokens
  obtain ⟨opening, member, level⟩ := orderly.tooDeep failed
  have bounded := level_le_length member
  omega

/-- Levels that suffice for the deepest one are as good as any number. -/
theorem filter_of_height_le
    (fits : (filter dispatch (tokens.length + 1) tokens).height ≤ allowance) :
    filter dispatch allowance tokens =
      filter dispatch (tokens.length + 1) tokens := by
  have within := Run.height_le_iff.mp fits
  rcases Nat.le_total allowance (tokens.length + 1) with fewer | more
  · cases cuts_filter dispatch fewer tokens with
    | same _ equal => exact equal
    | @excess early late excess split _ beyond _ =>
        have member : excess ∈
            (filter dispatch (tokens.length + 1) tokens).openings := by
          rw [split]
          simp
        exact (Nat.not_le_of_gt beyond (within excess member)).elim
  · cases cuts_filter dispatch more tokens with
    | same _ equal => exact equal.symm
    | @excess early late excess split _ beyond _ =>
        have member : excess ∈ (filter dispatch allowance tokens).openings := by
          rw [split]
          simp
        exact (Nat.not_le_of_gt beyond (level_le_length member)).elim

theorem filter_of_length_le (enough : tokens.length + 1 ≤ allowance) :
    filter dispatch allowance tokens =
      filter dispatch (tokens.length + 1) tokens := by
  apply filter_of_height_le
  apply Run.height_le_iff.mpr
  intro opening member
  exact Nat.le_trans (level_le_length member) enough

/-- With too few levels the reading ends at the first one beyond them. -/
theorem filter_of_lt_height
    (deeper : allowance < (filter dispatch (tokens.length + 1) tokens).height) :
    ∃ excess,
      (filter dispatch (tokens.length + 1) tokens).FirstBeyond allowance excess ∧
      excess.level = allowance + 1 ∧
      (filter dispatch allowance tokens).result = .error .tooDeep ∧
      (filter dispatch allowance tokens).rest = excess.tokens ∧
      (filter dispatch allowance tokens).height = allowance + 1 := by
  have fewer : allowance ≤ tokens.length + 1 := by
    apply Nat.le_of_lt
    apply Nat.lt_of_lt_of_le deeper
    exact Run.height_le_iff.mpr fun opening member => level_le_length member
  cases cuts_filter dispatch fewer tokens with
  | same within _ =>
      exact (Nat.not_le_of_gt deeper (Run.height_le_iff.mpr within)).elim
  | @excess early late excess split within beyond ended =>
      have whole :=
        (orderly_filter dispatch (tokens.length + 1)).behindParen tokens
      have cut := (orderly_filter dispatch allowance).behindParen tokens
      have opened : excess ∈
          (filter dispatch (tokens.length + 1) tokens).openings := by
        rw [split]
        simp
      have last : excess ∈ (filter dispatch allowance tokens).openings := by
        rw [ended]
        simp
      have level : excess.level = allowance + 1 :=
        Nat.le_antisymm (cut.bounded excess last) beyond
      have leftmost : ∀ other ∈
          (filter dispatch (tokens.length + 1) tokens).openings,
          allowance < other.level → other.tokens <:+ excess.tokens := by
        intro other member deep
        have inside := (whole.between other member).1
        have excessInside := (whole.between excess opened).1
        apply List.suffix_of_suffix_length_le inside excessInside
        have ordered := whole.ordered
        rw [split] at ordered member
        have behind := (List.pairwise_append.mp ordered).2.1
        rcases List.mem_append.mp member with before | later
        · exact (Nat.not_lt_of_ge (within other before) deep).elim
        · rcases List.mem_cons.mp later with rfl | after
          · exact Nat.le_refl _
          · exact List.rel_of_pairwise_cons behind after
      have height : (filter dispatch allowance tokens).height = allowance + 1 := by
        apply Nat.le_antisymm (Run.height_le_iff.mpr cut.bounded)
        rw [← level]
        exact Run.height_le_iff.mp (Nat.le_refl _) excess last
      refine ⟨excess, ⟨opened, beyond, leftmost⟩, level, ?_, ?_, height⟩
      · rw [ended]
      · rw [ended]

/-- A reading that succeeds leaves nothing. -/
theorem rest_filter_of_ok {tree : Expr}
    (succeeded : (filter dispatch allowance tokens).result = .ok tree) :
    (filter dispatch allowance tokens).rest = [] := by
  have reads : (filter dispatch allowance).Reads tokens tree
      (filter dispatch allowance tokens).rest := ⟨succeeded, rfl⟩
  generalize (filter dispatch allowance tokens).rest = rest at reads ⊢
  simp only [filter, reads_bind, reads_finish, reads_pure] at reads
  obtain ⟨_, _, _, _, _, ⟨-, isEnd⟩, -, rfl⟩ := reads
  exact isEnd

/-- Without any level the reading ends before the first token. -/
theorem rest_filter_zero : (filter dispatch 0 tokens).rest = tokens :=
  rfl

end Rule

end Criteria
