import Criteria.Rule.Basic

/-!
# What a rule reads

`Reads` says that a rule succeeds on a list of tokens, with which value, and
which tokens it leaves.  Every way of putting rules together has a lemma that
tells what the whole reads from what its parts read, so that later proofs
never open a run.
-/

namespace Criteria

@[simp] theorem Token.headKind_cons (token : Token) (tokens : List Token) :
    headKind (token :: tokens) = token.kind :=
  rfl

namespace Rule

variable {α β : Type}

/-- The rule succeeds on the tokens with the value and leaves the rest. -/
def Reads (rule : Rule α) (tokens : List Token) (value : α)
    (rest : List Token) : Prop :=
  (rule tokens).result = .ok value ∧ (rule tokens).rest = rest

/-- Whatever the rule reads, the tokens that it consumes mean the value. -/
def Sound (rule : Rule α) (meaning : List Token → α → Prop) : Prop :=
  ∀ tokens value rest, rule.Reads tokens value rest →
    ∃ used, tokens = used ++ rest ∧ meaning used value

theorem Sound.imp {rule : Rule α} {strong weak : List Token → α → Prop}
    (sound : rule.Sound strong)
    (implies : ∀ used value, strong used value → weak used value) :
    rule.Sound weak := by
  intro tokens value rest reads
  obtain ⟨used, split, means⟩ := sound tokens value rest reads
  exact ⟨used, split, implies used value means⟩

theorem bind_of_ok {first : Rule α} (next : α → Rule β) {tokens : List Token}
    {value : α} (succeeded : (first tokens).result = .ok value) :
    (first >>= next) tokens =
      { next value (first tokens).rest with
        openings := (first tokens).openings ++
          (next value (first tokens).rest).openings
        unclosed := (first tokens).unclosed +
          (next value (first tokens).rest).unclosed } := by
  change Rule.bind first next tokens = _
  unfold Rule.bind
  generalize first tokens = run at succeeded ⊢
  obtain ⟨result, rest, openings, unclosed⟩ := run
  cases succeeded
  rfl

theorem bind_of_error {first : Rule α} (next : α → Rule β)
    {tokens : List Token} {fault : Fault}
    (failed : (first tokens).result = .error fault) :
    (first >>= next) tokens =
      ⟨.error fault, (first tokens).rest, (first tokens).openings,
        (first tokens).unclosed⟩ := by
  change Rule.bind first next tokens = _
  unfold Rule.bind
  generalize first tokens = run at failed ⊢
  obtain ⟨result, rest, openings, unclosed⟩ := run
  cases failed
  rfl

/-- A rule that opens no level hands over to the next one. -/
theorem bind_of_pass {first : Rule α} {next : α → Rule β}
    {tokens rest : List Token} {value : α}
    (passes : first tokens = ⟨.ok value, rest, [], 0⟩) :
    (first >>= next) tokens = next value rest := by
  rw [bind_of_ok next (by rw [passes]), passes]
  simp

theorem ask_eq (question : List Token → α) (tokens : List Token) :
    ask question tokens = ⟨.ok (question tokens), tokens, [], 0⟩ :=
  rfl

theorem upcoming_eq (tokens : List Token) :
    upcoming tokens = ⟨.ok (Token.headKind tokens), tokens, [], 0⟩ :=
  rfl

theorem optional_of_present {kind : Kind} {token : Token}
    (isKind : token.kind = kind) {tokens : List Token} :
    optional kind (token :: tokens) = ⟨.ok true, tokens, [], 0⟩ :=
  if_pos isKind

theorem optional_of_absent {kind : Kind} {tokens : List Token}
    (missing : Token.headKind tokens ≠ kind) :
    optional kind tokens = ⟨.ok false, tokens, [], 0⟩ := by
  cases tokens with
  | nil => rfl
  | cons first others => exact if_neg missing

@[simp] theorem reads_pure {value result : α} {tokens rest : List Token} :
    (pure value : Rule α).Reads tokens result rest ↔
      result = value ∧ rest = tokens := by
  constructor
  · intro reads
    obtain ⟨same, consumed⟩ := reads
    cases same
    exact ⟨rfl, consumed.symm⟩
  · intro reads
    obtain ⟨rfl, rfl⟩ := reads
    exact ⟨rfl, rfl⟩

theorem reads_bind {first : Rule α} {next : α → Rule β}
    {tokens rest : List Token} {result : β} :
    (first >>= next).Reads tokens result rest ↔
      ∃ value middle, first.Reads tokens value middle ∧
        (next value).Reads middle result rest := by
  constructor
  · intro reads
    obtain ⟨succeeded, consumed⟩ := reads
    cases outcome : (first tokens).result with
    | error fault =>
        rw [bind_of_error next outcome] at succeeded
        cases succeeded
    | ok value =>
        rw [bind_of_ok next outcome] at succeeded consumed
        exact ⟨value, (first tokens).rest, ⟨outcome, rfl⟩, succeeded, consumed⟩
  · intro reads
    obtain ⟨value, middle, ⟨outcome, rfl⟩, succeeded, consumed⟩ := reads
    unfold Reads
    rw [bind_of_ok next outcome]
    exact ⟨succeeded, consumed⟩

@[simp] theorem not_reads_fail {fault : Fault} {tokens rest : List Token}
    {value : α} : ¬ (fail fault : Rule α).Reads tokens value rest := by
  intro reads
  obtain ⟨succeeded, -⟩ := reads
  cases succeeded

theorem reads_ask_then {question : List Token → α} {next : α → Rule β}
    {tokens rest : List Token} {result : β} :
    (ask question >>= next).Reads tokens result rest ↔
      (next (question tokens)).Reads tokens result rest := by
  unfold Reads
  rw [bind_of_pass (ask_eq question tokens)]

theorem reads_upcoming_then {next : Kind → Rule β} {tokens rest : List Token}
    {result : β} :
    (upcoming >>= next).Reads tokens result rest ↔
      (next (Token.headKind tokens)).Reads tokens result rest :=
  reads_ask_then

@[simp] theorem reads_deepen {rule : Rule α} {tokens rest : List Token}
    {value : α} :
    (deepen rule).Reads tokens value rest ↔ rule.Reads tokens value rest :=
  Iff.rfl

@[simp] theorem not_reads_tooDeep {tokens rest : List Token} {value : α} :
    ¬ (tooDeep : Rule α).Reads tokens value rest :=
  not_reads_fail

theorem reads_expect {kind : Kind} {tokens rest : List Token} {token : Token} :
    (expect kind).Reads tokens token rest ↔
      tokens = token :: rest ∧ kind.accepts token.kind := by
  cases tokens with
  | nil => simp [Reads, expect]
  | cons first others =>
      by_cases accepted : kind.accepts first.kind
      · simp only [Reads, expect, accepted, if_true, Except.ok.injEq,
          List.cons.injEq]
        constructor
        · intro reads
          obtain ⟨rfl, rfl⟩ := reads
          exact ⟨⟨rfl, rfl⟩, accepted⟩
        · exact fun equal => equal.1
      · simp only [Reads, expect, accepted, List.cons.injEq]
        constructor
        · intro reads
          obtain ⟨succeeded, -⟩ := reads
          cases succeeded
        · intro reads
          obtain ⟨⟨rfl, -⟩, wrong⟩ := reads
          exact (accepted wrong).elim

/-- Only the kind that is wanted stands for itself, unless an identifier is
wanted. -/
theorem reads_expect_of_ne {kind : Kind} (other : kind ≠ .identifier)
    {tokens rest : List Token} {token : Token} :
    (expect kind).Reads tokens token rest ↔
      tokens = token :: rest ∧ token.kind = kind := by
  simp [reads_expect, Kind.accepts, other]

theorem reads_optional {kind : Kind} (inside : kind ≠ .endOfInput)
    {tokens rest : List Token} {found : Bool} :
    (optional kind).Reads tokens found rest ↔
      (found = true ∧ ∃ token, tokens = token :: rest ∧ token.kind = kind) ∨
        (found = false ∧ rest = tokens ∧ Token.headKind tokens ≠ kind) := by
  cases tokens with
  | nil =>
      have behind : Kind.endOfInput ≠ kind := inside.symm
      simp [Reads, optional, Token.headKind, behind, eq_comm]
  | cons first others =>
      by_cases same : first.kind = kind
      · simp only [Reads, optional, Token.headKind, same, if_true,
          Except.ok.injEq, List.cons.injEq]
        constructor
        · intro reads
          obtain ⟨rfl, rfl⟩ := reads
          exact .inl ⟨rfl, first, ⟨rfl, rfl⟩, same⟩
        · intro reads
          rcases reads with
            ⟨rfl, token, ⟨rfl, rfl⟩, -⟩ | ⟨-, -, other⟩
          · exact ⟨rfl, rfl⟩
          · exact (other rfl).elim
      · simp only [Reads, optional, Token.headKind, same, if_false,
          Except.ok.injEq, List.cons.injEq]
        constructor
        · intro reads
          obtain ⟨rfl, rfl⟩ := reads
          exact .inr ⟨rfl, rfl, same⟩
        · intro reads
          rcases reads with
            ⟨-, token, ⟨rfl, -⟩, isKind⟩ | ⟨rfl, rfl, -⟩
          · exact (same isKind).elim
          · exact ⟨rfl, rfl⟩

@[simp] theorem reads_finish {tokens rest : List Token} {value : Unit} :
    finish.Reads tokens value rest ↔ tokens = [] ∧ rest = [] := by
  cases tokens with
  | nil => simp [Reads, finish, eq_comm]
  | cons first others => simp [Reads, finish]

theorem reads_expect_then {kind : Kind} {next : Rule β}
    (other : kind ≠ .identifier) {tokens rest : List Token} {result : β} :
    (do let _ ← expect kind; next).Reads tokens result rest ↔
      ∃ token middle, tokens = token :: middle ∧ token.kind = kind ∧
        next.Reads middle result rest := by
  simp only [reads_bind, reads_expect_of_ne other, and_assoc]

theorem reads_expect_then_cons {kind : Kind} {next : Rule β}
    (other : kind ≠ .identifier) {token : Token} {tokens rest : List Token}
    {result : β} :
    (do let _ ← expect kind; next).Reads (token :: tokens) result rest ↔
      token.kind = kind ∧ next.Reads tokens result rest := by
  rw [reads_expect_then other]
  constructor
  · intro reads
    obtain ⟨_, _, same, isKind, reads⟩ := reads
    cases same
    exact ⟨isKind, reads⟩
  · intro reads
    exact ⟨token, tokens, rfl, reads⟩

theorem reads_optional_if_present {kind : Kind} {present absent : Rule β}
    {token : Token} (isKind : token.kind = kind) {tokens rest : List Token}
    {result : β} :
    (do if ← optional kind then present else absent).Reads (token :: tokens)
        result rest ↔ present.Reads tokens result rest := by
  unfold Reads
  rw [bind_of_pass (optional_of_present isKind)]
  rfl

theorem reads_optional_if_absent {kind : Kind} {present absent : Rule β}
    {tokens : List Token} (missing : Token.headKind tokens ≠ kind)
    {rest : List Token} {result : β} :
    (do if ← optional kind then present else absent).Reads tokens result rest ↔
      absent.Reads tokens result rest := by
  unfold Reads
  rw [bind_of_pass (optional_of_absent missing)]
  rfl

theorem reads_optional_if {kind : Kind} {present absent : Rule β}
    (inside : kind ≠ .endOfInput) {tokens rest : List Token} {result : β} :
    (do if ← optional kind then present else absent).Reads tokens result rest ↔
      (∃ token middle, tokens = token :: middle ∧ token.kind = kind ∧
        present.Reads middle result rest) ∨
      (Token.headKind tokens ≠ kind ∧ absent.Reads tokens result rest) := by
  by_cases found : Token.headKind tokens = kind
  · cases tokens with
    | nil => exact (inside found.symm).elim
    | cons first others =>
        rw [reads_optional_if_present found]
        constructor
        · intro reads
          exact .inl ⟨first, others, rfl, found, reads⟩
        · intro reads
          rcases reads with ⟨_, _, same, -, reads⟩ | ⟨missing, -⟩
          · cases same
            exact reads
          · exact (missing found).elim
  · rw [reads_optional_if_absent found]
    constructor
    · intro reads
      exact .inr ⟨found, reads⟩
    · intro reads
      rcases reads with ⟨token, middle, rfl, isKind, -⟩ | ⟨-, reads⟩
      · exact (found isKind).elim
      · exact reads

section Separated

variable {separator : Kind} {item : Rule α} {tokens rest : List Token}

theorem reads_sepByUpTo_one (inside : separator ≠ .endOfInput) {value : α}
    (isItem : item.Reads tokens value rest)
    (behind : Token.headKind rest ≠ separator) (bound : Nat) :
    (sepByUpTo separator item bound).Reads tokens [value] rest := by
  cases bound with
  | zero =>
      simp only [sepByUpTo, reads_bind, reads_pure]
      exact ⟨value, rest, isItem, rfl, rfl⟩
  | succ bound =>
      simp only [sepByUpTo, reads_bind]
      refine ⟨value, rest, isItem, false, rest, ?_, ?_⟩
      · exact (reads_optional inside).mpr (.inr ⟨rfl, rfl, behind⟩)
      · exact reads_pure.mpr ⟨rfl, rfl⟩

theorem reads_sepByUpTo_more (inside : separator ≠ .endOfInput) {token : Token}
    {others : List Token} {value : α} {values : List α} {bound : Nat}
    (isItem : item.Reads tokens value (token :: others))
    (isSeparator : token.kind = separator)
    (areItems : (sepByUpTo separator item bound).Reads others values rest) :
    (sepByUpTo separator item (bound + 1)).Reads tokens (value :: values)
      rest := by
  simp only [sepByUpTo, reads_bind]
  refine ⟨value, token :: others, isItem, true, others, ?_, ?_⟩
  · exact (reads_optional inside).mpr (.inl ⟨rfl, token, rfl, isSeparator⟩)
  · simp only [if_true, reads_bind, reads_pure]
    exact ⟨values, rest, areItems, rfl, rfl⟩

/-- The bound on the separators is no obstacle when it is the number of tokens:
every separator is one of them. -/
theorem reads_sepByUpTo_append (inside : separator ≠ .endOfInput) {token : Token}
    {used others : List Token} {value : α} {values : List α} {bound : Nat}
    (isItem : item.Reads (used ++ token :: (others ++ rest)) value
      (token :: (others ++ rest)))
    (isSeparator : token.kind = separator)
    (areItems : ∀ bound, others.length ≤ bound →
      (sepByUpTo separator item bound).Reads (others ++ rest) values rest)
    (enough : (used ++ token :: others).length ≤ bound) :
    (sepByUpTo separator item bound).Reads (used ++ token :: others ++ rest)
      (value :: values) rest := by
  cases bound with
  | zero => simp at enough
  | succ bound =>
      have fewer : others.length ≤ bound := by
        simp only [List.length_append, List.length_cons] at enough
        omega
      rw [List.append_assoc, List.cons_append]
      exact reads_sepByUpTo_more inside isItem isSeparator (areItems bound fewer)

theorem reads_sepBy {values : List α} :
    (sepBy separator item).Reads tokens values rest ↔
      (sepByUpTo separator item tokens.length).Reads tokens values rest :=
  Iff.rfl

/-- What is said of single items and kept when an item and a separator are put
in front holds of all that is read with separators. -/
theorem sound_sepBy {single : List Token → α → Prop}
    {several : List Token → List α → Prop} (inside : separator ≠ .endOfInput)
    (isItem : item.Sound single)
    (one : ∀ used value, single used value → several used [value])
    (more : ∀ used token others value values, single used value →
      token.kind = separator → several others values →
      several (used ++ token :: others) (value :: values)) :
    (sepBy separator item).Sound several := by
  intro tokens values rest areItems
  suffices bounded : ∀ bound tokens values,
      (sepByUpTo separator item bound).Reads tokens values rest →
        ∃ used, tokens = used ++ rest ∧ several used values from
    bounded tokens.length tokens values areItems
  intro bound
  induction bound with
  | zero =>
      intro tokens values reads
      simp only [sepByUpTo, reads_bind, reads_pure] at reads
      obtain ⟨value, _, first, rfl, rfl⟩ := reads
      obtain ⟨used, split, holds⟩ := isItem _ _ _ first
      exact ⟨used, split, one used value holds⟩
  | succ bound ih =>
      intro tokens values reads
      simp only [sepByUpTo, reads_bind] at reads
      obtain ⟨value, middle, first, found, behind, separated, reads⟩ := reads
      obtain ⟨used, rfl, holds⟩ := isItem _ _ _ first
      rcases (reads_optional inside).mp separated with
        ⟨rfl, token, rfl, isSeparator⟩ | ⟨rfl, rfl, -⟩
      · simp only [if_true, reads_bind, reads_pure] at reads
        obtain ⟨later, _, areLater, rfl, rfl⟩ := reads
        obtain ⟨others, rfl, laterHold⟩ := ih _ _ areLater
        refine ⟨used ++ token :: others, by simp, ?_⟩
        exact more used token others value later holds isSeparator laterHold
      · simp only [Bool.false_eq_true, if_false, reads_pure] at reads
        obtain ⟨rfl, rfl⟩ := reads
        exact ⟨used, rfl, one used value holds⟩

end Separated

end Rule

end Criteria
