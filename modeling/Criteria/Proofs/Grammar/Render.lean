import Criteria.Expr.Render
import Criteria.Proofs.Grammar.Dispatch
import Criteria.Proofs.Token.Canonical
import Criteria.Proofs.Token.Written

/-!
# Canonical texts are sentences

The canonical text of a derived condition is scanned into tokens from which the
grammar derives the same condition, and which stand for the tokens that it was
derived from.  The induction is on the derivation: its leaves are tokens, whose
spellings are scanned as they are, and its nodes are texts with blanks or
parentheses between them.
-/

namespace Criteria

namespace Expr

theorem renderJoined_one (separator : String) (operand : Expr) :
    renderJoined separator [operand] = operand.render := by
  simp [renderJoined, renderFollowing]

theorem renderJoined_more (separator : String) (operand : Expr)
    {operands : List Expr} (others : operands ≠ []) :
    renderJoined separator (operand :: operands) =
      operand.render ++ (separator ++ renderJoined separator operands) := by
  cases operands with
  | nil => exact (others rfl).elim
  | cons second operands =>
      simp [renderJoined, renderFollowing, String.append_assoc]

theorem render_anyOf (terms : List Expr) :
    (anyOf terms).render = renderJoined " OR " terms := by
  unfold anyOf
  split
  · exact (renderJoined_one _ _).symm
  · rw [render]

theorem render_allOf (factors : List Expr) :
    (allOf factors).render = renderJoined " AND " factors := by
  unfold allOf
  split
  · exact (renderJoined_one _ _).symm
  · rw [render]

end Expr

/-- What is written for a part is written for a whole made of the same tokens. -/
theorem Scans.promote {text : List Char} {tokens : List Token}
    {part whole : List Token → Prop}
    (scans : Scans text fun written => part written ∧ RespelledAs tokens written)
    (isWhole : ∀ written, part written → whole written) :
    Scans text fun written => whole written ∧ RespelledAs tokens written :=
  scans.mono fun written both => ⟨isWhole written both.1, both.2⟩

namespace Grammar

section Leaves

variable {token written : Token} {value : Literal} {expression : Expr}

theorem IsLiteral.alike (isLiteral : IsLiteral token value)
    (alike : token.Alike written) : IsLiteral written value := by
  obtain ⟨kind, text⟩ := alike
  cases isLiteral with
  | string isKind =>
      rw [text]
      exact .string (kind ▸ isKind)
  | numeric isKind =>
      rw [text]
      exact .numeric (kind ▸ isKind)
  | boolean isKind =>
      rw [text]
      exact .boolean (kind ▸ isKind)

theorem IsOperand.alike (isOperand : IsOperand token expression)
    (alike : token.Alike written) : IsOperand written expression := by
  cases isOperand with
  | field isKind =>
      obtain ⟨kind, text⟩ := alike
      rw [text]
      exact .field (kind ▸ isKind)
  | literal isLiteral => exact .literal (isLiteral.alike alike)

theorem IsPattern.alike (isPattern : IsPattern token expression)
    (alike : token.Alike written) : IsPattern written expression := by
  obtain ⟨kind, text⟩ := alike
  cases isPattern with
  | field isKind =>
      rw [text]
      exact .field (kind ▸ isKind)
  | string isKind =>
      rw [text]
      exact .string (kind ▸ isKind)

theorem IsPattern.isOperand (isPattern : IsPattern token expression) :
    IsOperand token expression := by
  cases isPattern with
  | field isKind => exact .field isKind
  | string isKind => exact .literal (.string isKind)

theorem IsLiteral.classified (isLiteral : IsLiteral token value) :
    token.kind ≠ .unclassified := by
  cases isLiteral with
  | string isKind => simp [isKind]
  | numeric isKind => rcases isKind with isKind | isKind <;> simp [isKind]
  | boolean isKind => rcases isKind with isKind | isKind <;> simp [isKind]

theorem IsOperand.classified (isOperand : IsOperand token expression) :
    token.kind ≠ .unclassified := by
  cases isOperand with
  | field isKind => simp [isKind]
  | literal isLiteral => exact isLiteral.classified

theorem IsLiteral.render_eq (isLiteral : IsLiteral token value) :
    value.render.toList = token.spelling := by
  unfold Literal.render Token.spelling Kind.spell
  cases isLiteral with
  | string isKind => simp [isKind]
  | numeric isKind => rcases isKind with isKind | isKind <;> simp [isKind]
  | boolean isKind => rcases isKind with isKind | isKind <;> simp [isKind]

theorem IsOperand.render_eq (isOperand : IsOperand token expression) :
    expression.render.toList = token.spelling := by
  cases isOperand with
  | field isKind => simp [Expr.render, Token.spelling, Kind.spell, isKind]
  | literal isLiteral =>
      rw [Expr.render]
      exact isLiteral.render_eq

theorem IsOperand.respelledAs (isOperand : IsOperand token expression)
    (alike : token.Alike written) : token.RespelledAs written :=
  Token.respelledAs_of_alike (Rule.operand_kind_ne isOperand (by decide) rfl) alike

theorem IsLiteral.scans (isLiteral : IsLiteral token value)
    (lexical : token.IsLexical) :
    Scans value.render.toList (Single fun written =>
      IsLiteral written value ∧ token.RespelledAs written) :=
  lexical.scansAs isLiteral.classified isLiteral.render_eq fun _ alike =>
    ⟨isLiteral.alike alike, (IsOperand.literal isLiteral).respelledAs alike⟩

theorem IsOperand.scans (isOperand : IsOperand token expression)
    (lexical : token.IsLexical) :
    Scans expression.render.toList (Single fun written =>
      IsOperand written expression ∧ token.RespelledAs written) :=
  lexical.scansAs isOperand.classified isOperand.render_eq fun _ alike =>
    ⟨isOperand.alike alike, isOperand.respelledAs alike⟩

theorem IsPattern.scans (isPattern : IsPattern token expression)
    (lexical : token.IsLexical) :
    Scans expression.render.toList (Single fun written =>
      IsPattern written expression ∧ token.RespelledAs written) :=
  lexical.scansAs isPattern.isOperand.classified isPattern.isOperand.render_eq
    fun _ alike => ⟨isPattern.alike alike, isPattern.isOperand.respelledAs alike⟩

/-- Identifiers and keywords are subjects. -/
theorem scans_subject (lexical : token.IsLexical)
    (isWordLike : token.kind.isWordLike) :
    Scans token.text.toList (Single fun written =>
      token.Alike written ∧ token.RespelledAs written) := by
  have differs : ∀ kind : Kind, kind.isWordLike = false → token.kind ≠ kind := by
    intro kind noWord same
    rw [same, noWord] at isWordLike
    cases isWordLike
  have spelled := Kind.spell_of_ne (differs .string rfl) token.text.toList
  exact lexical.scansAs (differs .unclassified rfl) spelled.symm fun _ alike =>
    ⟨alike, Token.respelledAs_of_alike (differs .negate rfl) alike⟩

end Leaves

theorem mem_symbols_of_relOp (op : RelOp) :
    ∀ symbol ∈ op.symbol.toList, symbol ∈ symbols := by
  have areSymbols : op.symbol.toList.all fun symbol => symbols.contains symbol := by
    cases op <;> decide
  intro symbol member
  simpa using List.all_eq_true.mp areSymbols symbol member

theorem isRelOp_symbol (op : RelOp) :
    IsRelOp (op.symbol.toList.map Kind.ofSymbol) op := by
  cases op with
  | eq => exact .eq
  | lt => exact .lt
  | le => exact .le
  | ne => exact .ne
  | gt => exact .gt
  | ge => exact .ge

/-- The symbols of an operator stand for the tokens that it was read from. -/
theorem IsRelOp.respelledAs {operator written : List Token} {op : RelOp}
    (isOperator : IsRelOp (operator.map Token.kind) op)
    (kinds : written.map Token.kind = op.symbol.toList.map Kind.ofSymbol) :
    RespelledAs operator written := by
  generalize operatorKinds : operator.map Token.kind = found at isOperator
  cases isOperator with
  | eq | lt | le | ne | gt | ge =>
      exact respelledAs_of_kinds rfl operatorKinds kinds
  | unequal =>
      obtain ⟨negate, _, rfl, negateKind, rest⟩ := List.map_eq_cons_iff.mp operatorKinds
      obtain ⟨equals, rfl, equalsKind⟩ := List.map_eq_singleton_iff.mp rest
      obtain ⟨below, _, rfl, belowKind, rest⟩ := List.map_eq_cons_iff.mp kinds
      obtain ⟨above, rfl, aboveKind⟩ := List.map_eq_singleton_iff.mp rest
      exact .unequal negateKind equalsKind belowKind aboveKind .nil

theorem scans_relOp {operator : List Token} {op : RelOp}
    (isOperator : IsRelOp (operator.map Token.kind) op) :
    Scans op.symbol.toList fun written =>
      IsRelOp (written.map Token.kind) op ∧ RespelledAs operator written := by
  apply (scans_symbols (mem_symbols_of_relOp op)).mono
  intro written kinds
  have isWritten := isRelOp_symbol op
  rw [← kinds] at isWritten
  exact ⟨isWritten, isOperator.respelledAs kinds⟩

theorem IsOptionalNot.scans {nots : List Token} {negated : Bool}
    (optionalNot : IsOptionalNot nots negated) {text : List Char}
    {meaning : List Token → Prop} (scans : Scans text meaning) :
    Scans ((Expr.negationMark negated).toList ++ text)
      (Followed
        (fun written => IsOptionalNot written negated ∧ RespelledAs nots written)
        meaning) := by
  cases optionalNot with
  | absent =>
      apply scans.mono
      intro tokens holds
      exact ⟨[], tokens, rfl, ⟨.absent, .nil⟩, holds⟩
  | present isNot =>
      have isKeyword : Kind.notWord.isKeyword := rfl
      apply ((scans_keyword isKeyword).spaced scans).mono
      intro tokens parts
      obtain ⟨_, back, same, ⟨token, rfl, kind⟩, holds⟩ := parts
      have respelled := Token.respelledAs_of_kind rfl isNot kind
      exact ⟨[token], back, same, ⟨.present kind, respelledAs_one respelled⟩, holds⟩

theorem renderValues_cons (value : Literal) {values : List Literal}
    (others : values ≠ []) :
    (Expr.renderValues (value :: values)).toList =
      value.render.toList ++ ',' :: ' ' :: (Expr.renderValues values).toList := by
  cases values with
  | nil => exact (others rfl).elim
  | cons second values =>
      simp [Expr.renderValues]

theorem IsValues.ne_nil {tokens : List Token} {values : List Literal}
    (areValues : IsValues tokens values) : values ≠ [] := by
  cases areValues <;> simp

theorem IsValues.scans {tokens : List Token} {values : List Literal}
    (areValues : IsValues tokens values)
    (lexical : AreLexical tokens) :
    Scans (Expr.renderValues values).toList
      (fun written => IsValues written values ∧ RespelledAs tokens written) := by
  induction areValues with
  | one isLiteral =>
      have scans := isLiteral.scans lexical.head
      simp only [Expr.renderValues, List.map_cons, List.map_nil,
        String.intercalate_singleton]
      apply scans.mono
      intro tokens single
      obtain ⟨token, rfl, isWritten, respelled⟩ := single
      exact ⟨.one isWritten, respelledAs_one respelled⟩
  | more isLiteral separator areOthers ih =>
      have scans := isLiteral.scans lexical.head
      have others := ih lexical.tail.tail
      rw [renderValues_cons _ areOthers.ne_nil]
      have isComma : ',' ∈ symbols := by simp [symbols]
      apply (scans.append (others.blank.symbol isComma) rfl).mono
      intro tokens parts
      obtain ⟨_, _, rfl, ⟨token, rfl, isWritten, respelled⟩, _, back, rfl,
        ⟨comma, rfl, kind⟩, areWritten, respelledOthers⟩ := parts
      have respelledComma := Token.respelledAs_of_kind rfl separator kind
      exact ⟨.more isWritten kind areWritten,
        .cons respelled (.cons respelledComma respelledOthers)⟩

/-- The text behind the subject and the word `NOT` of a predicate. -/
theorem IsTail.scans {keyword : Kind} {tail : List Token}
    {denote : Field → Bool → Expr} (isTail : IsTail keyword tail denote)
    (lexical : AreLexical tail) :
    ∃ text, Scans text (fun written =>
        IsTail keyword written denote ∧ RespelledAs tail written) ∧
      ∀ subject negated, (denote subject negated).render.toList =
        subject.name.toList ++
          ' ' :: ((Expr.negationMark negated).toList ++ text) := by
  cases isTail with
  | @between keyword lowToken andToken highToken low high kind isLow isAnd
      isHigh =>
      have isKeyword : Kind.betweenWord.isKeyword := rfl
      have isConnective : Kind.andWord.isKeyword := rfl
      have scansLow := isLow.scans lexical.tail.head
      have scansHigh := isHigh.scans lexical.tail.tail.tail.head
      have scans := (scans_keyword isKeyword).spaced
        (scansLow.spaced ((scans_keyword isConnective).spaced scansHigh))
      refine ⟨_, scans.mono ?_, ?_⟩
      · intro tokens parts
        obtain ⟨_, _, rfl, ⟨_, rfl, writtenKind⟩, _, _, rfl,
          ⟨_, rfl, isLow, respelledLow⟩, _, _, rfl, ⟨_, rfl, writtenAnd⟩, _, rfl,
          isHigh, respelledHigh⟩ := parts
        have respelled := Token.respelledAs_of_kind rfl kind writtenKind
        have respelledAnd := Token.respelledAs_of_kind rfl isAnd writtenAnd
        exact ⟨.between writtenKind isLow writtenAnd isHigh,
          .cons respelled (.cons respelledLow (.cons respelledAnd
            (respelledAs_one respelledHigh)))⟩
      · intro subject negated
        simp [Expr.render, Kind.describe]
  | @like keyword patternToken pattern kind isPattern =>
      have isKeyword : Kind.likeWord.isKeyword := rfl
      have scans := (scans_keyword isKeyword).spaced
        (isPattern.scans lexical.tail.head)
      refine ⟨_, scans.mono ?_, ?_⟩
      · intro tokens parts
        obtain ⟨_, _, rfl, ⟨_, rfl, writtenKind⟩, _, rfl, isPattern,
          respelledPattern⟩ := parts
        have respelled := Token.respelledAs_of_kind rfl kind writtenKind
        exact ⟨.like writtenKind isPattern,
          .cons respelled (respelledAs_one respelledPattern)⟩
      · intro subject negated
        simp [Expr.render, Kind.describe]
  | @member keyword opening closing tokens values kind isOpening areValues
      isClosing =>
      have isKeyword : Kind.inWord.isKeyword := rfl
      have scansValues := areValues.scans lexical.tail.tail.left
      have scans := (scans_keyword isKeyword).spaced scansValues.parenthesized
      refine ⟨_, scans.mono ?_, ?_⟩
      · intro tokens parts
        obtain ⟨_, _, rfl, ⟨_, rfl, writtenKind⟩, _, _, _, rfl, writtenOpening,
          ⟨areValues, respelledValues⟩, writtenClosing⟩ := parts
        have respelled := Token.respelledAs_of_kind rfl kind writtenKind
        exact ⟨.member writtenKind writtenOpening areValues writtenClosing,
          .cons respelled (respelledValues.parenthesized isOpening isClosing
            writtenOpening writtenClosing)⟩
      · intro subject negated
        simp [Expr.render, Kind.describe]

theorem IsSimple.scans {tokens : List Token} {predicate : Expr}
    (isSimple : IsSimple tokens predicate)
    (lexical : AreLexical tokens) :
    Scans predicate.render.toList
      (fun written => IsSimple written predicate ∧ RespelledAs tokens written) := by
  cases isSimple with
  | @tailed keyword subject nots tail negated denote subjectKind optionalNot
      isTail =>
      obtain ⟨text, scansTail, rendered⟩ := isTail.scans lexical.tail.right
      have isWordLike := isWordLike_subject isTail subjectKind
      have scansSubject := scans_subject lexical.head isWordLike
      rw [rendered]
      apply (scansSubject.spaced (optionalNot.scans scansTail)).mono
      intro written parts
      obtain ⟨_, _, rfl, ⟨token, rfl, ⟨kind, same⟩, respelled⟩, nots, tail, rfl,
        ⟨optionalNot, respelledNots⟩, isTail, respelledTail⟩ := parts
      rw [same, List.singleton_append]
      exact ⟨.tailed (kind ▸ subjectKind) optionalNot isTail,
        .cons respelled (respelledNots.append respelledTail)⟩
  | @isNull subject isToken nullToken nots negated subjectKind isKind
      optionalNot nullKind =>
      have isKeyword : Kind.isWord.isKeyword := rfl
      have nullKeyword : Kind.nullWord.isKeyword := rfl
      have isWordLike : subject.kind.isWordLike := by
        rw [subjectKind]
        rfl
      have scansSubject := scans_subject lexical.head isWordLike
      have scans := scansSubject.spaced ((scans_keyword isKeyword).spaced
        (optionalNot.scans (scans_keyword nullKeyword)))
      have rendered : (Expr.isNull ⟨subject.text⟩ negated).render.toList =
          subject.text.toList ++ ' ' :: (Kind.isWord.describe.toList ++
            ' ' :: ((Expr.negationMark negated).toList ++
              Kind.nullWord.describe.toList)) := by
        simp [Expr.render, Kind.describe]
      rw [rendered]
      apply scans.mono
      intro written parts
      obtain ⟨_, _, rfl, ⟨token, rfl, ⟨kind, same⟩, respelled⟩, _, _, rfl,
        ⟨_, rfl, writtenIs⟩, nots, _, rfl, ⟨optionalNot, respelledNots⟩,
        ⟨_, rfl, writtenNull⟩⟩ := parts
      have respelledIs := Token.respelledAs_of_kind rfl isKind writtenIs
      have respelledNull := Token.respelledAs_of_kind rfl nullKind writtenNull
      rw [same]
      exact ⟨.isNull (kind ▸ subjectKind) writtenIs optionalNot writtenNull,
        .cons respelled (.cons respelledIs
          (respelledNots.append (respelledAs_one respelledNull)))⟩
  | @comparison leftToken rightToken operator left right op isLeft isOperator
      isRight =>
      have scansLeft := isLeft.scans lexical.head
      have scansRight := isRight.scans lexical.tail.right.head
      have scans := scansLeft.spaced ((scans_relOp isOperator).spaced scansRight)
      have rendered : (Expr.comparison left op right).render.toList =
          left.render.toList ++ ' ' :: (op.symbol.toList ++
            ' ' :: right.render.toList) := by
        simp [Expr.render]
      rw [rendered]
      apply scans.mono
      intro written parts
      obtain ⟨_, _, rfl, ⟨_, rfl, isLeft, respelledLeft⟩, operator, _, rfl,
        ⟨isOperator, respelledOperator⟩, ⟨_, rfl, isRight, respelledRight⟩⟩ := parts
      exact ⟨.comparison isLeft isOperator isRight, .cons respelledLeft
        (respelledOperator.append (respelledAs_one respelledRight))⟩

theorem IsNotSubject.scans {tokens : List Token} {predicate : Expr}
    (isNotSubject : IsNotSubject tokens predicate)
    (lexical : AreLexical tokens) :
    Scans predicate.render.toList (fun written =>
      IsNotSubject written predicate ∧ RespelledAs tokens written) := by
  cases isNotSubject with
  | @intro keyword subject tail denote subjectKind isTail =>
      obtain ⟨text, scansTail, rendered⟩ := isTail.scans lexical.tail
      have isWordLike : subject.kind.isWordLike := by
        rw [subjectKind]
        rfl
      have scansSubject := scans_subject lexical.head isWordLike
      rw [rendered]
      apply (scansSubject.spaced scansTail).mono
      intro written parts
      obtain ⟨_, tail, rfl, ⟨token, rfl, ⟨kind, same⟩, respelled⟩, isTail,
        respelledTail⟩ := parts
      rw [same]
      exact ⟨.intro (kind ▸ subjectKind) isTail, .cons respelled respelledTail⟩

theorem AreTerms.ne_nil {tokens : List Token} {terms : List Expr}
    (areTerms : AreTerms tokens terms) : terms ≠ [] := by
  cases areTerms <;> simp

theorem AreFactors.ne_nil {tokens : List Token} {factors : List Expr}
    (areFactors : AreFactors tokens factors) : factors ≠ [] := by
  cases areFactors <;> simp

/-- Operands with a connective between them are scanned one by one. -/
theorem scans_joined {connective : Kind} {separator : String} {operand : Expr}
    {operands : List Expr} {single : List Token → Prop}
    {several : List Token → Prop} (isKeyword : connective.isKeyword)
    (spelled : separator = " " ++ connective.describe ++ " ")
    (others : operands ≠ []) (scansOperand : Scans operand.render.toList single)
    (scansOthers :
      Scans (Expr.renderJoined separator operands).toList several) :
    Scans (Expr.renderJoined separator (operand :: operands)).toList
      fun tokens => ∃ front token back, tokens = front ++ token :: back ∧
        single front ∧ token.kind = connective ∧ several back := by
  have rendered :
      (Expr.renderJoined separator (operand :: operands)).toList =
        operand.render.toList ++ ' ' :: (connective.describe.toList ++
          ' ' :: (Expr.renderJoined separator operands).toList) := by
    rw [Expr.renderJoined_more _ _ others]
    simp [spelled]
  rw [rendered]
  exact scansOperand.connected isKeyword scansOthers

theorem scans_negation {inner : Expr} {meaning : List Token → Prop}
    (scansInner : Scans inner.render.toList meaning) :
    Scans (Expr.negation inner).render.toList fun tokens =>
      ∃ token back, tokens = token :: back ∧ token.kind = .notWord ∧
        meaning back := by
  have isKeyword : Kind.notWord.isKeyword := rfl
  have rendered : (Expr.negation inner).render.toList =
      Kind.notWord.describe.toList ++ ' ' :: inner.render.toList := by
    simp [Expr.render, Kind.describe]
  rw [rendered]
  exact scansInner.introduced isKeyword

mutual

theorem IsCondition.scans {tokens : List Token} {body : Expr} :
    IsCondition tokens body → AreLexical tokens →
      Scans body.render.toList
        (fun written => IsCondition written body ∧ RespelledAs tokens written)
  | .intro areTerms, lexical => by
      rw [Expr.render_anyOf]
      exact (areTerms.scans lexical).promote fun _ areWritten => .intro areWritten

theorem AreTerms.scans {tokens : List Token} {terms : List Expr} :
    AreTerms tokens terms → AreLexical tokens →
      Scans (Expr.renderJoined " OR " terms).toList
        (fun written => AreTerms written terms ∧ RespelledAs tokens written)
  | .one isTerm, lexical => by
      rw [Expr.renderJoined_one]
      exact (isTerm.scans lexical).promote fun _ isWritten => .one isWritten
  | .more isTerm isSeparator areTerms, lexical => by
      have scansTerm := isTerm.scans lexical.left
      have scansOthers := areTerms.scans lexical.right.tail
      have isKeyword : Kind.orWord.isKeyword := rfl
      apply (scans_joined isKeyword rfl areTerms.ne_nil scansTerm scansOthers).mono
      intro written parts
      obtain ⟨front, token, back, rfl, ⟨isFront, respelledFront⟩, kind, areBack,
        respelledBack⟩ := parts
      have respelled := Token.respelledAs_of_kind rfl isSeparator kind
      exact ⟨.more isFront kind areBack,
        respelledFront.append (.cons respelled respelledBack)⟩

theorem IsTerm.scans {tokens : List Token} {term : Expr} :
    IsTerm tokens term → AreLexical tokens →
      Scans term.render.toList
        (fun written => IsTerm written term ∧ RespelledAs tokens written)
  | .intro areFactors, lexical => by
      rw [Expr.render_allOf]
      exact (areFactors.scans lexical).promote fun _ areWritten => .intro areWritten

theorem AreFactors.scans {tokens : List Token} {factors : List Expr} :
    AreFactors tokens factors → AreLexical tokens →
      Scans (Expr.renderJoined " AND " factors).toList
        (fun written => AreFactors written factors ∧ RespelledAs tokens written)
  | .one isFactor, lexical => by
      rw [Expr.renderJoined_one]
      exact (isFactor.scans lexical).promote fun _ isWritten => .one isWritten
  | .more isFactor isSeparator areFactors, lexical => by
      have scansFactor := isFactor.scans lexical.left
      have scansOthers := areFactors.scans lexical.right.tail
      have isKeyword : Kind.andWord.isKeyword := rfl
      apply (scans_joined isKeyword rfl areFactors.ne_nil scansFactor
        scansOthers).mono
      intro written parts
      obtain ⟨front, token, back, rfl, ⟨isFront, respelledFront⟩, kind, areBack,
        respelledBack⟩ := parts
      have respelled := Token.respelledAs_of_kind rfl isSeparator kind
      exact ⟨.more isFront kind areBack,
        respelledFront.append (.cons respelled respelledBack)⟩

theorem IsFactor.scans {tokens : List Token} {factor : Expr} :
    IsFactor tokens factor → AreLexical tokens →
      Scans factor.render.toList
        (fun written => IsFactor written factor ∧ RespelledAs tokens written)
  | .primary isPrimary, lexical =>
      (isPrimary.scans lexical).promote fun _ isWritten => .primary isWritten
  | .negation isNot isPrimary, lexical => by
      have scansInner := isPrimary.scans lexical.tail
      apply (scans_negation scansInner).mono
      intro written parts
      obtain ⟨token, back, rfl, kind, isBack, respelledBack⟩ := parts
      have respelled := Token.respelledAs_of_kind rfl isNot kind
      exact ⟨.negation kind isBack, .cons respelled respelledBack⟩
  | .negatedSubject isNot isNotSubject, lexical => by
      have scansInner := isNotSubject.scans lexical.tail
      apply (scans_negation scansInner).mono
      intro written parts
      obtain ⟨token, back, rfl, kind, isBack, respelledBack⟩ := parts
      have respelled := Token.respelledAs_of_kind rfl isNot kind
      exact ⟨.negatedSubject kind isBack, .cons respelled respelledBack⟩

theorem IsPrimary.scans {tokens : List Token} {primary : Expr} :
    IsPrimary tokens primary → AreLexical tokens →
      Scans primary.render.toList
        (fun written => IsPrimary written primary ∧ RespelledAs tokens written)
  | .simple isSimple, lexical =>
      (isSimple.scans lexical).promote fun _ isWritten => .simple isWritten
  | @IsPrimary.group _ _ _ condition isOpening isCondition isClosing, lexical => by
      have scansInner := isCondition.scans lexical.tail.left
      have rendered : (Expr.group condition).render.toList =
          '(' :: (condition.render.toList ++ [')']) := by
        simp [Expr.render]
      rw [rendered]
      apply scansInner.parenthesized.mono
      intro written parts
      obtain ⟨opening, inner, closing, rfl, writtenOpening,
        ⟨isInner, respelledInner⟩, writtenClosing⟩ := parts
      exact ⟨.group writtenOpening isInner writtenClosing,
        respelledInner.parenthesized isOpening isClosing writtenOpening
          writtenClosing⟩

end

end Grammar

end Criteria
