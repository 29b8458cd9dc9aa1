import Criteria.Proofs.Rule.Reads

/-!
# What a fault leaves behind

A run that ends with a fault has consumed the beginning of something that has a
meaning: with a few tokens put behind, what was consumed would have been
accepted.  These tokens are samples of their kinds.  As for what is read, every
way of putting rules together has a lemma; what a first rule read is taken into
the meaning for the next one.
-/

namespace Criteria

/-- The text of a sample token. -/
def Kind.sampleText : Kind → List Char
  | .identifier => ['a']
  | .integer => ['1']
  | .equals => ['=']
  | .openParen => ['(']
  | .closeParen => [')']
  | keyword => keyword.describe.toList

def Kind.sample (kind : Kind) : Token :=
  ⟨kind, String.ofList kind.sampleText, 0⟩

/-- The kinds whose samples are read as tokens of the kind. -/
def Kind.hasSample (kind : Kind) : Bool :=
  kind.isKeyword ||
    [identifier, integer, equals, openParen, closeParen].contains kind

section Viable

variable {α β : Type} {used : List Token} {meaning : List Token → α → Prop}

/-- With samples of the missing kinds behind them the tokens have a meaning. -/
def Viable (meaning : List Token → α → Prop) (used : List Token) : Prop :=
  ∃ missing : List Kind, missing.all Kind.hasSample ∧
    ∃ value, meaning (used ++ missing.map Kind.sample) value

theorem Viable.of_meaning {value : α} (means : meaning used value) :
    Viable meaning used := by
  refine ⟨[], rfl, value, ?_⟩
  rwa [List.map_nil, List.append_nil]

/-- What completes a part completes the whole when the tokens around the part
are given. -/
theorem Viable.within {whole : List Token → β → Prop} (front : List Token)
    (back : List Kind) (samples : back.all Kind.hasSample)
    (viable : Viable meaning used)
    (implies : ∀ tokens value, meaning tokens value →
      ∃ other, whole (front ++ (tokens ++ back.map Kind.sample)) other) :
    Viable whole (front ++ used) := by
  obtain ⟨missing, areSamples, value, means⟩ := viable
  obtain ⟨other, means⟩ := implies _ _ means
  refine ⟨missing ++ back, ?_, other, ?_⟩
  · rw [List.all_append, areSamples, samples]
    rfl
  · simpa [List.append_assoc] using means

theorem Viable.mono {whole : List Token → β → Prop} (viable : Viable meaning used)
    (implies : ∀ tokens value, meaning tokens value →
      ∃ other, whole tokens other) : Viable whole used := by
  apply viable.within [] [] rfl
  intro tokens value means
  rw [List.map_nil, List.append_nil]
  exact implies tokens value means

end Viable

/-- If the run ended with a fault, what it consumed of the tokens is viable. -/
def Run.FailsViably {α β : Type} (meaning : List Token → β → Prop)
    (tokens : List Token) (run : Run α) : Prop :=
  ∀ fault, run.result = .error fault →
    ∃ used, tokens = used ++ run.rest ∧ Viable meaning used

theorem Run.FailsViably.mono {α β γ : Type} {strong : List Token → β → Prop}
    {weak : List Token → γ → Prop} {tokens : List Token} {run : Run α}
    (fails : run.FailsViably strong tokens)
    (implies : ∀ used value, strong used value → ∃ other, weak used other) :
    run.FailsViably weak tokens := by
  intro fault failed
  obtain ⟨used, split, viable⟩ := fails fault failed
  exact ⟨used, split, viable.mono implies⟩

namespace Rule

variable {α β γ : Type} {meaning : List Token → γ → Prop}

/-- What the rule consumed before a fault is viable. -/
def FailsViably (meaning : List Token → γ → Prop) (rule : Rule α) : Prop :=
  ∀ tokens, (rule tokens).FailsViably meaning tokens

/-- The rule consumes nothing when it finds a fault. -/
def Atomic (rule : Rule α) : Prop :=
  ∀ tokens fault, (rule tokens).result = .error fault →
    (rule tokens).rest = tokens

theorem Atomic.failsViably {rule : Rule α} (atomic : rule.Atomic)
    (viable : Viable meaning []) : rule.FailsViably meaning := by
  intro tokens fault failed
  exact ⟨[], (atomic tokens fault failed).symm, viable⟩

/-- What was consumed of a part is completed together with what closes the
part. -/
theorem FailsViably.closedBy {part : List Token → β → Prop} {rule : Rule α}
    (fails : rule.FailsViably part) (back : List Kind)
    (samples : back.all Kind.hasSample)
    (implies : ∀ used value, part used value →
      ∃ other, meaning (used ++ back.map Kind.sample) other) :
    rule.FailsViably meaning := by
  intro tokens fault failed
  obtain ⟨used, split, viable⟩ := fails tokens fault failed
  exact ⟨used, split, viable.within [] back samples implies⟩

theorem FailsViably.mono {part : List Token → β → Prop} {rule : Rule α}
    (fails : rule.FailsViably part)
    (implies : ∀ used value, part used value → ∃ other, meaning used other) :
    rule.FailsViably meaning := fun tokens =>
  (fails tokens).mono implies

theorem fails_bind_run {first : Rule α} {next : α → Rule β} {tokens : List Token}
    (isFirst : (first tokens).FailsViably meaning tokens)
    (isNext : ∀ value middle, first.Reads tokens value middle →
      ∃ used, tokens = used ++ middle ∧
        (next value middle).FailsViably (fun later => meaning (used ++ later))
          middle) :
    ((first >>= next) tokens).FailsViably meaning tokens := by
  intro fault failed
  cases outcome : (first tokens).result with
  | error earlier =>
      rw [bind_of_error next outcome]
      exact isFirst earlier outcome
  | ok value =>
      rw [bind_of_ok next outcome] at failed ⊢
      -- The second rule completes what it consumed to a whole that includes
      -- what the first one read.
      obtain ⟨used, split, fails⟩ := isNext value _ ⟨outcome, rfl⟩
      obtain ⟨later, consumed, missing, samples, value, means⟩ :=
        fails fault failed
      refine ⟨used ++ later, ?_, missing, samples, value, ?_⟩
      · rw [List.append_assoc, ← consumed]
        exact split
      · rw [List.append_assoc]
        exact means

theorem FailsViably.bind {first : Rule α} {next : α → Rule β}
    {part : List Token → α → Prop} (isFirst : first.FailsViably meaning)
    (sound : first.Sound part)
    (isNext : ∀ used value, part used value →
      (next value).FailsViably fun later => meaning (used ++ later)) :
    (first >>= next).FailsViably meaning := by
  intro tokens
  apply fails_bind_run (isFirst tokens)
  intro value middle reads
  obtain ⟨used, split, means⟩ := sound tokens value middle reads
  exact ⟨used, split, isNext used value means middle⟩

theorem fails_pure {value : α} : (pure value : Rule α).FailsViably meaning := by
  intro tokens fault failed
  cases failed

/-- Giving another value to what was read finds no fault of its own. -/
theorem error_of_bind_pure {first : Rule α} {value : α → β} {tokens : List Token}
    {fault : Fault}
    (failed : ((first >>= fun found => pure (value found)) tokens).result =
      .error fault) :
    (first tokens).result = .error fault ∧
      ((first >>= fun found => pure (value found)) tokens).rest =
        (first tokens).rest := by
  cases outcome : (first tokens).result with
  | error earlier =>
      rw [bind_of_error _ outcome] at failed ⊢
      cases failed
      exact ⟨rfl, rfl⟩
  | ok found =>
      rw [bind_of_ok _ outcome] at failed
      cases failed

theorem FailsViably.bind_pure {first : Rule α} {value : α → β}
    (isFirst : first.FailsViably meaning) :
    (first >>= fun found => pure (value found)).FailsViably meaning := by
  intro tokens fault failed
  obtain ⟨failed, same⟩ := error_of_bind_pure failed
  rw [same]
  exact isFirst tokens fault failed

theorem fails_optional {kind : Kind} : (optional kind).FailsViably meaning := by
  intro tokens fault failed
  by_cases found : Token.headKind tokens = kind
  · cases tokens with
    | nil => cases failed
    | cons first others =>
        rw [optional_of_present found] at failed
        cases failed
  · rw [optional_of_absent found] at failed
    cases failed

theorem fails_upcoming_then {next : Kind → Rule β}
    (isNext : ∀ kind, (next kind).FailsViably meaning) :
    (upcoming >>= next).FailsViably meaning := by
  intro tokens
  rw [bind_of_pass (upcoming_eq tokens)]
  exact isNext _ tokens

theorem fails_deepen {rule : Rule α} (isRule : rule.FailsViably meaning) :
    (deepen rule).FailsViably meaning :=
  isRule

theorem atomic_fail {fault : Fault} : (fail fault : Rule α).Atomic :=
  fun _ _ _ => rfl

theorem atomic_tooDeep : (tooDeep : Rule α).Atomic :=
  fun _ _ _ => rfl

theorem atomic_finish : finish.Atomic := by
  intro tokens fault failed
  cases tokens with
  | nil => rfl
  | cons first others => rfl

theorem atomic_expect {kind : Kind} : (expect kind).Atomic := by
  intro tokens fault failed
  cases tokens with
  | nil => rfl
  | cons first others =>
      by_cases accepted : kind.accepts first.kind
      · simp [expect, accepted] at failed
      · simp [expect, accepted]

theorem atomic_upcoming_then {next : Kind → Rule β}
    (isNext : ∀ kind, (next kind).Atomic) : (upcoming >>= next).Atomic := by
  intro tokens
  rw [bind_of_pass (upcoming_eq tokens)]
  exact isNext _ tokens

theorem Atomic.bind_pure {first : Rule α} {value : α → β} (atomic : first.Atomic) :
    (first >>= fun found => pure (value found)).Atomic := by
  intro tokens fault failed
  obtain ⟨failed, same⟩ := error_of_bind_pure failed
  rw [same]
  exact atomic tokens fault failed

theorem sound_expect {kind : Kind} (other : kind ≠ .identifier) :
    (expect kind).Sound fun used token => used = [token] ∧ token.kind = kind := by
  intro tokens token rest reads
  obtain ⟨rfl, isKind⟩ := (reads_expect_of_ne other).mp reads
  exact ⟨[token], rfl, rfl, isKind⟩

theorem sound_optional {kind : Kind} (inside : kind ≠ .endOfInput) :
    (optional kind).Sound fun used found =>
      used.map Token.kind = if found then [kind] else [] := by
  intro tokens found rest reads
  rcases (reads_optional inside).mp reads with
    ⟨rfl, token, rfl, isKind⟩ | ⟨rfl, rfl, -⟩
  · exact ⟨[token], rfl, by simp [isKind]⟩
  · exact ⟨[], rfl, rfl⟩

theorem fails_expect_then {kind : Kind} {next : Rule β}
    (other : kind ≠ .identifier) (viable : Viable meaning [])
    (isNext : ∀ token, token.kind = kind →
      next.FailsViably fun later => meaning (token :: later)) :
    (do let _ ← expect kind; next).FailsViably meaning := by
  apply (atomic_expect.failsViably viable).bind (sound_expect other)
  intro used token means
  obtain ⟨rfl, isKind⟩ := means
  exact isNext token isKind

/-- A part that is closed by a token: what is missing of the part is put in
front of the closing token. -/
theorem fails_closed {first : Rule α} {part : List Token → α → Prop}
    {closing : Kind} {value : α → β} (other : closing ≠ .identifier)
    (sampled : closing.hasSample) (sound : first.Sound part)
    (isFirst : first.FailsViably part)
    (closed : ∀ used found, part used found →
      ∃ result, meaning (used ++ [closing.sample]) result) :
    (do
      let found ← first
      let _ ← expect closing
      return value found : Rule β).FailsViably meaning := by
  have samples : [closing].all Kind.hasSample := by simpa using sampled
  apply (isFirst.closedBy [closing] samples closed).bind sound
  intro used found means
  apply fails_expect_then other
  · exact ⟨[closing], samples, closed used found means⟩
  · intro _ _
    exact fails_pure

/-- What is viable for a single item is viable for several. -/
theorem fails_sepBy {separator : Kind} {item : Rule α}
    {single : List Token → α → Prop} {several : List Token → List α → Prop}
    (inside : separator ≠ .endOfInput) (sound : item.Sound single)
    (isItem : item.FailsViably single)
    (one : ∀ used value, single used value → several used [value])
    (more : ∀ used token others value values, single used value →
      token.kind = separator → several others values →
      several (used ++ token :: others) (value :: values)) :
    (sepBy separator item).FailsViably several := by
  have isFirst : item.FailsViably several :=
    isItem.mono fun used value means => ⟨[value], one used value means⟩
  suffices bounded : ∀ bound, (sepByUpTo separator item bound).FailsViably several
    from fun tokens => bounded tokens.length tokens
  intro bound
  induction bound with
  | zero => exact isFirst.bind_pure
  | succ bound ih =>
      apply isFirst.bind sound
      intro used value means
      apply fails_optional.bind (sound_optional inside)
      intro behind found separated
      cases found with
      | false => exact fails_pure
      | true =>
          obtain ⟨token, rfl, isSeparator⟩ := List.map_eq_singleton_iff.mp separated
          apply FailsViably.bind_pure
          apply ih.mono
          intro others values areOthers
          exact ⟨value :: values,
            more used token others value values means isSeparator areOthers⟩

end Rule

end Criteria
