import Tern.Proofs.Grammar.Tracking

namespace Tern

/-!
# The grammar keeps track

Every production closes the delimiters that it opens. Types, expressions and
what they are made of leave the waiting specifiers alone, a declaration takes
them, and a statement that none wait for leaves none waiting.
-/

/-- Whether a nonterminal leaves all that is kept track of as it is. -/
def Nonterminal.keepsTrack {Value : Type} : Nonterminal Value → Bool
  | .requirements => false
  | .statement => false
  | .unitStatements => false
  | .bracedStatements => false
  | .declaration => false
  | .specifiers => false
  | .templateParams => false
  | .conceptMembers => false
  | _ => true

namespace Rules

/-- All nonterminals keep track, each in its own way. -/
structure Tracking (rules : Rules) (input : ParserInput) : Prop where
  plain : ∀ {Value : Type} (nonterminal : Nonterminal Value) (opened :
    List Delimiter)
    (waiting : Specifiers → Prop), nonterminal.keepsTrack = true →
      Tracks input false anyKind opened waiting opened waiting
        (rules.parse nonterminal)
  callRequirements : ∀ opened waiting,
    Tracks input false anyKind (.brace :: opened) waiting opened waiting
      (rules.parse .requirements)
  callConceptMembers : ∀ opened waiting,
    Tracks input false anyKind (.brace :: opened) waiting opened waiting
      (rules.parse .conceptMembers)
  callStatement : ∀ opened (waiting : Specifiers → Prop), waiting .none →
    Tracks input false anyKind opened waiting opened waiting
      (rules.parse .statement)
  callUnitStatements : ∀ opened (waiting : Specifiers → Prop), waiting .none →
    Tracks input false anyKind opened waiting opened waiting
      (rules.parse .unitStatements)
  callBracedStatements : ∀ opened (waiting : Specifiers → Prop), waiting .none →
    Tracks input false anyKind (.brace :: opened) waiting opened waiting
      (rules.parse .bracedStatements)
  callDeclaration : ∀ opened,
    Tracks input false anyKind opened anyWaiting opened noneWaiting
      (rules.parse .declaration)
  callSpecifiers : ∀ opened,
    Tracks input false anyKind opened anyWaiting opened anyWaiting
      (rules.parse .specifiers)
  callTemplateParams : ∀ opened waiting,
    Tracks input true anyKind opened waiting opened waiting
      (rules.parse .templateParams)

namespace Tracking

open Tern.Tracks

variable {rules : Rules} {input : ParserInput} {inTemplate : Bool}
  {known : TokenKind → Prop}
  {opened : List Delimiter} {waiting : Specifiers → Prop}
    (tracking : rules.Tracking input)

include tracking

theorem call {Value : Type} (nonterminal : Nonterminal Value)
    (keeps : nonterminal.keepsTrack = true) :
    Tracks input inTemplate known opened waiting opened waiting
      (rules.parse nonterminal) :=
  (tracking.plain nonterminal opened waiting keeps).inside.forget

theorem expression :
    Tracks input inTemplate known opened waiting opened waiting
      rules.expression :=
  tracking.call (.tier .or) rfl

/-- A type is captured or parsed. -/
private theorem declaredType (terminators : List TokenKind) :
    Tracks input inTemplate known opened waiting opened waiting
      (rules.declaredType terminators) :=
  aside (fun _ => ⟨_, _, rfl, rfl, rfl⟩) fun _ => ite
    (bind (captureTo _) fun _ => ite
      (aside (fun _ => ⟨_, _, rfl, rfl, rfl⟩) fun _ => failAt)
      (aside (fun _ => ⟨_, _, rfl, rfl, rfl⟩) fun _ => idle fun _ =>
        ⟨_, _, rfl, rfl, rfl⟩))
    (tracking.call .type rfl)

/-- An initializer is captured or parsed. -/
private theorem initializer (terminators : List TokenKind) :
    Tracks input inTemplate known opened waiting opened waiting
      (rules.initializer terminators) :=
  aside (fun _ => ⟨_, _, rfl, rfl, rfl⟩) fun _ => ite
    (bind (captureTo _) fun _ => ite
      (aside (fun _ => ⟨_, _, rfl, rfl, rfl⟩) fun _ => failAt)
      (aside (fun _ => ⟨_, _, rfl, rfl, rfl⟩) fun _ => idle fun _ =>
        ⟨_, _, rfl, rfl, rfl⟩))
    tracking.expression

omit tracking in
/-- A term is added behind what was read of it. -/
private theorem spanned
    {Value : Type}
    (start : Span)
    {add : Span → Parser Value}
    (idles : ∀ span, (add span).Idles input) :
    Tracks input inTemplate known opened waiting opened waiting
      (Parser.spanFrom start >>= add) :=
  aside (fun _ => ⟨_, _, rfl, rfl, rfl⟩) fun span => idle (idles span)

omit tracking in
/-- Items up to a closer, perhaps none. -/
private theorem orNone
    {Item : Type}
    (closer : TokenKind)
    (items : Nonterminal (List Item))
    (tracks : Tracks input inTemplate anyKind opened waiting opened waiting
      (rules.parse items)) :
    Tracks input inTemplate known opened waiting opened waiting
      (rules.orNone closer items) :=
  check (pure _) tracks

omit tracking in
/-- An item of a repetition, and the items behind it up to a closing brace. -/
private theorem bracedItems
    {Item : Type}
    {item : Parser Item}
    {rest : Nonterminal (List Item)}
    (tracksItem : Tracks input inTemplate anyKind (.brace :: opened) waiting
      (.brace :: opened)
      waiting item)
    (tracksRest : Tracks input inTemplate anyKind (.brace :: opened) waiting
      opened waiting
      (rules.parse rest)) :
    Tracks input inTemplate known (.brace :: opened) waiting opened waiting
      (rules.bracedItems item rest) :=
  eat (Delimiter.follow_closer _ _) (pure _) <|
    aside (fun _ => ⟨_, _, rfl, rfl, rfl⟩) fun _ => ite
    (aside (fun _ => ⟨_, _, rfl, rfl, rfl⟩) fun _ => failAt)
    (bind tracksItem fun _ => bind tracksRest fun _ => pure _)

omit tracking in
/-- What is read between a delimiter's opener and its closer. -/
private theorem enclosed
    {Inner Value : Type}
    (delimiter : Delimiter)
    {parser : Parser Inner}
    {next : Inner → Parser Value}
    (tracks : Tracks input inTemplate anyKind (delimiter :: opened) waiting
      (delimiter :: opened)
      waiting parser)
    (rest : ∀ value, Tracks input inTemplate anyKind opened waiting opened
      waiting (next value)) :
    Tracks input inTemplate known opened waiting opened waiting
      (Parser.expect delimiter.opener >>= fun _ => parser >>= fun value =>
        Parser.expect delimiter.closer >>= fun _ => next value) :=
  bind (expect (Delimiter.follow_opener _ _)) fun _ => bind tracks fun value =>
    bind (expect (Delimiter.follow_closer _ _)) fun _ => rest value

private theorem typeArg :
    Tracks input inTemplate known opened waiting opened waiting rules.typeArg :=
  bind (tracking.call .type rfl) fun _ => peek fun _ => ite (pure _) failAt

private theorem exprArg :
    Tracks input inTemplate known opened waiting opened waiting rules.exprArg :=
  bind (tracking.call (.tier .shift) rfl) fun _ => pure _

theorem templateArg :
    Tracks input inTemplate known opened waiting opened waiting
      rules.templateArg :=
  either tracking.typeArg tracking.exprArg

private theorem templateArgs :
    Tracks input inTemplate known opened waiting opened waiting
      rules.templateArgs :=
  bind tracking.templateArg fun _ => eat rfl
    (bind (tracking.call .templateArgs rfl) fun _ => pure _) (pure _)

private theorem angledArgs :
    Tracks input inTemplate known opened waiting opened waiting
      rules.angledArgs :=
  bind (orNone _ _ (tracking.call .templateArgs rfl)) fun _ =>
    bind (expect rfl) fun _ => pure _

private theorem nameOf
    (decl : DeclId)
    (takesArgs : Bool)
    (name : Name)
    (span : Span) :
    Tracks input inTemplate known opened waiting opened waiting
      (rules.nameOf decl takesArgs name span) :=
  ite
    (eat rfl
      (bind tracking.angledArgs fun _ => spanned _ fun _ _ =>
        ⟨_, _, rfl, rfl, rfl⟩)
      (idle fun _ => ⟨_, _, rfl, rfl, rfl⟩))
    (idle fun _ => ⟨_, _, rfl, rfl, rfl⟩)

private theorem namedType :
    Tracks input inTemplate known opened waiting opened waiting
      rules.namedType := by
  refine bind expectIdentifier fun named =>
    aside (fun _ => ⟨_, _, rfl, rfl, rfl⟩) fun found => ?_
  split
  · exact aside (fun _ => ⟨_, _, rfl, rfl, rfl⟩) fun _ => failAt
  · refine aside (fun _ => ⟨_, _, rfl, rfl, rfl⟩) fun arena => ?_
    split
    · exact aside (fun _ => ⟨_, _, rfl, rfl, rfl⟩) fun _ => failAt
    · exact bind (tracking.nameOf _ _ _ _) fun _ => spanned _ fun _ _ =>
        ⟨_, _, rfl, rfl, rfl⟩

private theorem parenthesizedType :
    Tracks input inTemplate known opened waiting opened waiting
      rules.parenthesizedType := by
  refine aside (fun _ => ⟨_, _, rfl, rfl, rfl⟩) fun start =>
    enclosed .paren (tracking.call (.listedTypes _) rfl) fun listed => eat rfl
      (bind (tracking.call .type rfl) fun _ => spanned _ fun _ _ =>
        ⟨_, _, rfl, rfl, rfl⟩) ?_
  split
  · exact pure _
  · exact spanned _ fun _ _ => ⟨_, _, rfl, rfl, rfl⟩

private theorem decltype :
    Tracks input inTemplate (· = .keyword .decltypeWord) opened waiting opened
      waiting
      rules.decltype :=
  aside (fun _ => ⟨_, _, rfl, rfl, rfl⟩) fun _ =>
    bind (skip fun _ same => same ▸ rfl) fun _ =>
    enclosed .paren tracking.expression fun _ => spanned _ fun _ _ =>
      ⟨_, _, rfl, rfl, rfl⟩

private theorem primaryType :
    Tracks input inTemplate known opened waiting opened waiting
      rules.primaryType := by
  refine peek fun token => ?_
  split
  next => exact tracking.namedType.forget
  next => exact tracking.parenthesizedType.forget
  next same =>
    rw [same]
    exact tracking.decltype
  next =>
    split
    next type named =>
      have follows : Delimiter.follow opened token.kind = opened := by
        generalize token.kind = kind at named
        cases kind with
        | keyword word => rfl
        | _ => simp [BuiltinType.ofKind?] at named
      exact bind (skip fun _ same => same ▸ follows) fun _ => idle fun _ =>
        ⟨_, _, rfl, rfl, rfl⟩
    next => exact failAt

private theorem typeSuffix? (base : TypeId) :
    Tracks input inTemplate known opened waiting opened waiting
      (rules.typeSuffix? base) := by
  refine peekKind fun kind => ?_
  split
  next => exact bind (skip fun _ same => same ▸ rfl) fun _ => pure _
  next => exact bind (skip fun _ same => same ▸ rfl) fun _ => pure _
  next =>
    exact bind (skip fun _ same => same ▸ Delimiter.follow_opener _ .bracket)
        fun _ =>
      eat (Delimiter.follow_closer _ .bracket) (pure _)
        (bind tracking.expression fun _ =>
          bind (expect (Delimiter.follow_closer _ .bracket)) fun _ => pure _)
  next =>
    split
    next qualifiers qualifies =>
      have follows : Delimiter.follow opened kind = opened := by
        cases kind with
        | keyword word => rfl
        | _ => simp [Qualifiers.ofKind?] at qualifies
      exact bind (skip fun _ same => same ▸ follows) fun _ => pure _
    next => exact pure _

private theorem typeSuffixes (start : Span) (base : TypeId) :
    Tracks input inTemplate known opened waiting opened waiting
      (rules.typeSuffixes start base) := by
  refine bind (tracking.typeSuffix? base) fun form? => ?_
  split
  · exact aside (fun _ => ⟨_, _, rfl, rfl, rfl⟩) fun _ =>
      aside (fun _ => ⟨_, _, rfl, rfl, rfl⟩) fun _ =>
        tracking.call (.typeSuffixes _ _) rfl
  · exact pure _

private theorem unaryType :
    Tracks input inTemplate known opened waiting opened waiting
      rules.unaryType := by
  refine peek fun token => ?_
  split
  next qualifiers qualifies =>
    have follows : Delimiter.follow opened token.kind = opened := by
      generalize token.kind = kind at qualifies
      cases kind with
      | keyword word => rfl
      | _ => simp [Qualifiers.ofKind?] at qualifies
    exact bind (skip fun _ same => same ▸ follows) fun _ =>
      bind (tracking.call .unaryType rfl) fun _ => spanned _ fun _ _ =>
        ⟨_, _, rfl, rfl, rfl⟩
  next =>
    exact bind tracking.primaryType fun _ =>
      tracking.call (.typeSuffixes _ _) rfl

private theorem type :
    Tracks input inTemplate known opened waiting opened waiting rules.type :=
  aside (fun _ => ⟨_, _, rfl, rfl, rfl⟩) fun _ =>
    bind (tracking.call .unaryType rfl) fun _ =>
    eat rfl (spanned _ fun _ _ => ⟨_, _, rfl, rfl, rfl⟩) (pure _)

private theorem listedTypes (afterComma : Bool) :
    Tracks input inTemplate known opened waiting opened waiting
      (rules.listedTypes afterComma) :=
  check (pure _) (bind (tracking.call .type rfl) fun _ => eat rfl
    (bind (tracking.call (.listedTypes _) rfl) fun _ => pure _) (pure _))

private theorem operand (tier : Tier) :
    Tracks input inTemplate known opened waiting opened waiting
      (rules.operand tier) := by
  unfold Rules.operand
  split
  · exact tracking.call (.tier _) rfl
  · exact tracking.call .unary rfl

private theorem operations (tier : Tier) (left : ExprId) :
    Tracks input inTemplate known opened waiting opened waiting
      (rules.operations tier left) := by
  refine peekKind fun kind => ?_
  cases found : BinaryOp.ofKind? tier kind with
  | none => exact pure _
  | some op =>
      have isSymbol := List.find?_some found
      simp only [Bool.and_eq_true, decide_eq_true_eq] at isSymbol
      have follows : Delimiter.follow opened kind = opened := by
        rw [isSymbol.2]
        cases op <;> rfl
      exact bind (skip fun _ same => same ▸ follows) fun _ =>
        bind (tracking.operand tier) fun _ =>
        aside (fun _ => ⟨_, _, rfl, rfl, rfl⟩) fun _ =>
          aside (fun _ => ⟨_, _, rfl, rfl, rfl⟩)
          fun _ => tracking.call (.operations _ _) rfl

private theorem tiered (tier : Tier) :
    Tracks input inTemplate known opened waiting opened waiting
      (rules.tiered tier) :=
  bind (tracking.operand tier) fun _ => tracking.call (.operations _ _) rfl

private theorem expressions :
    Tracks input inTemplate known opened waiting opened waiting
      rules.expressions :=
  bind tracking.expression fun _ => eat rfl
    (bind (tracking.call .expressions rfl) fun _ => pure _) (pure _)

private theorem closedExpressions :
    Tracks input inTemplate known (.paren :: opened) waiting opened waiting
      rules.closedExpressions :=
  bind (orNone _ _ (tracking.call .expressions rfl)) fun _ =>
    bind (expect (Delimiter.follow_closer _ .paren)) fun _ => pure _

private theorem namedExpression :
    Tracks input inTemplate known opened waiting opened waiting
      rules.namedExpression := by
  refine bind expectIdentifier fun named =>
    aside (fun _ => ⟨_, _, rfl, rfl, rfl⟩) fun found => ?_
  split
  · exact aside (fun _ => ⟨_, _, rfl, rfl, rfl⟩) fun _ => failAt
  · exact aside (fun _ => ⟨_, _, rfl, rfl, rfl⟩) fun _ =>
      bind (tracking.nameOf _ _ _ _) fun _ =>
      spanned _ fun _ _ => ⟨_, _, rfl, rfl, rfl⟩
  · exact aside (fun _ => ⟨_, _, rfl, rfl, rfl⟩) fun _ =>
      spanned _ fun _ _ => ⟨_, _, rfl, rfl, rfl⟩

private theorem parenthesizedExpression :
    Tracks input inTemplate known opened waiting opened waiting
      rules.parenthesizedExpression :=
  aside (fun _ => ⟨_, _, rfl, rfl, rfl⟩) fun _ =>
    bind (expect (Delimiter.follow_opener _ .paren)) fun _ =>
      eat (Delimiter.follow_closer opened .paren)
        (spanned _ fun _ _ => ⟨_, _, rfl, rfl, rfl⟩)
        (bind tracking.expression fun _ =>
          eat (Delimiter.follow_closer opened .paren) (pure _)
          (bind (expect rfl) fun _ => bind tracking.closedExpressions fun _ =>
            spanned _ fun _ _ => ⟨_, _, rfl, rfl, rfl⟩))

private theorem requiresParams :
    Tracks input inTemplate known opened waiting opened waiting
      rules.requiresParams :=
  eat (Delimiter.follow_opener opened .paren)
    (bind (orNone _ _ (tracking.call (.params true) rfl)) fun _ =>
      bind (expect (Delimiter.follow_closer opened .paren)) fun _ => pure _)
    (pure _)

private theorem requiresBody :
    Tracks input inTemplate known opened waiting opened waiting
      rules.requiresBody :=
  bind tracking.requiresParams fun _ =>
    bind (expect (Delimiter.follow_opener opened .brace))
    fun _ => bind (tracking.callRequirements _ _).inside fun _ => pure _

private theorem requiresExpression :
    Tracks input inTemplate known opened waiting opened waiting
      rules.requiresExpression :=
  aside (fun _ => ⟨_, _, rfl, rfl, rfl⟩) fun _ => bind (expect rfl) fun _ =>
    aside (fun _ => ⟨_, _, rfl, rfl, rfl⟩) fun _ =>
      bind (within _ tracking.requiresBody) fun _ =>
      spanned _ fun _ _ => ⟨_, _, rfl, rfl, rfl⟩

omit tracking in
private theorem literal (form : ExprForm)
    (follows : ∀ kind, known kind → Delimiter.follow opened kind = opened) :
    Tracks input inTemplate known opened waiting opened waiting
      (Rules.literal form) :=
  bind (advance follows) fun _ => idle fun _ => ⟨_, _, rfl, rfl, rfl⟩

private theorem primary :
    Tracks input inTemplate known opened waiting opened waiting
      rules.primary := by
  refine peek fun token => ?_
  split
  next same => exact literal _ fun _ found => (found.trans same).symm ▸ rfl
  next same => exact literal _ fun _ found => (found.trans same).symm ▸ rfl
  next same => exact literal _ fun _ found => (found.trans same).symm ▸ rfl
  next => exact tracking.namedExpression.forget
  next => exact tracking.parenthesizedExpression.forget
  next => exact tracking.requiresExpression.forget
  next => exact failAt

private theorem postfix? (object : ExprId) :
    Tracks input inTemplate known opened waiting opened waiting
      (rules.postfix? object) := by
  refine peekKind fun kind => ?_
  split
  next =>
    exact bind (skip fun _ same => same ▸ Delimiter.follow_opener opened .paren)
        fun _ =>
      bind tracking.closedExpressions fun _ => pure _
  next =>
    exact bind (skip fun _ same => same ▸ rfl) fun _ => bind identifier fun _ =>
      pure _
  next =>
    exact bind (skip fun _ same =>
      same ▸ Delimiter.follow_opener opened .bracket) fun _ =>
      bind tracking.expression fun _ =>
        bind (expect (Delimiter.follow_closer opened .bracket)) fun _ => pure _
  next => exact pure _

private theorem postfixes (start : Span) (object : ExprId) :
    Tracks input inTemplate known opened waiting opened waiting
      (rules.postfixes start object) := by
  refine bind (tracking.postfix? object) fun form? => ?_
  split
  · exact aside (fun _ => ⟨_, _, rfl, rfl, rfl⟩) fun _ =>
      aside (fun _ => ⟨_, _, rfl, rfl, rfl⟩) fun _ =>
        tracking.call (.postfixes _ _) rfl
  · exact pure _

private theorem unary :
    Tracks input inTemplate known opened waiting opened waiting
    rules.unary := by
  refine peek fun token => ?_
  cases found : UnaryOp.ofKind? token.kind with
  | some op =>
      have isSymbol := List.find?_some found
      simp only [decide_eq_true_eq] at isSymbol
      have follows : Delimiter.follow opened token.kind = opened := by
        rw [isSymbol]
        cases op <;> rfl
      exact bind (skip fun _ same => same ▸ follows) fun _ =>
        bind (tracking.call .unary rfl)
        fun _ => spanned _ fun _ _ => ⟨_, _, rfl, rfl, rfl⟩
  | none =>
      exact bind tracking.primary fun _ => tracking.call (.postfixes _ _) rfl

omit tracking in
private theorem requirementOf {form : Parser ReqForm}
    (tracks : Tracks input inTemplate anyKind opened waiting opened waiting
      form) :
    Tracks input inTemplate known opened waiting opened waiting
      (Rules.requirementOf form) :=
  aside (fun _ => ⟨_, _, rfl, rfl, rfl⟩) fun _ => bind tracks.forget fun _ =>
    bind (expect rfl) fun _ => spanned _ fun _ _ => ⟨_, _, rfl, rfl, rfl⟩

private theorem typeRequirement :
    Tracks input inTemplate (· = .keyword .typenameWord) opened waiting opened
      waiting
      rules.typeRequirement :=
  bind (skip fun _ same => same ▸ rfl) fun _ =>
    bind (tracking.call .type rfl) fun _ => pure _

private theorem expressionRequirement :
    Tracks input inTemplate known opened waiting opened waiting
      rules.expressionRequirement :=
  bind tracking.expression fun _ => eat rfl
    (bind (tracking.call .type rfl) fun _ => pure _)
    (eat rfl (bind (tracking.call .type rfl) fun _ => pure _) (pure _))

theorem requirement :
    Tracks input inTemplate known opened waiting opened waiting
      rules.requirement :=
  requirementOf (check tracking.typeRequirement tracking.expressionRequirement)

private theorem requirements :
    Tracks input inTemplate known (.brace :: opened) waiting opened waiting
      rules.requirements :=
  bracedItems tracking.requirement (tracking.callRequirements _ _).inside

private theorem syntacticRequirement :
    Tracks input inTemplate known opened waiting opened waiting
      rules.syntacticRequirement :=
  requirementOf (bind (expect rfl) fun _ => bind tracking.expression fun _ =>
    pure _)

private theorem plainConceptMember :
    Tracks input inTemplate known opened waiting opened waiting
      rules.plainConceptMember :=
  requirementOf
    (check tracking.typeRequirement (bind tracking.expression fun _ => pure _))

theorem conceptMember :
    Tracks input inTemplate known opened waiting opened waiting
      rules.conceptMember :=
  check
    (either tracking.syntacticRequirement tracking.plainConceptMember).forget
    tracking.plainConceptMember

private theorem conceptMembers :
    Tracks input inTemplate known (.brace :: opened) waiting opened waiting
      rules.conceptMembers :=
  bracedItems tracking.conceptMember (tracking.callConceptMembers _ _).inside

private theorem declarationStatement (settles : waiting .none) :
    Tracks input inTemplate known opened waiting opened waiting
      rules.declarationStatement :=
  aside (fun _ => ⟨_, _, rfl, rfl, rfl⟩) fun _ =>
    bind ((tracking.callDeclaration _).inside.weaken (fun _ _ => trivial)
      fun _ none => none ▸ settles).forget fun _ =>
      spanned _ fun _ _ => ⟨_, _, rfl, rfl, rfl⟩

private theorem expressionToSemicolon :
    Tracks input inTemplate known opened waiting opened waiting
      rules.expressionToSemicolon :=
  bind tracking.expression fun _ => bind (expect rfl) fun _ => pure _

private theorem expressionStatement :
    Tracks input inTemplate known opened waiting opened waiting
      rules.expressionStatement :=
  aside (fun _ => ⟨_, _, rfl, rfl, rfl⟩) fun _ =>
    bind tracking.expressionToSemicolon fun _ =>
    spanned _ fun _ _ => ⟨_, _, rfl, rfl, rfl⟩

private theorem valueStatement (role : ValueRole)
    (follows : ∀ kind, known kind → Delimiter.follow opened kind = opened) :
    Tracks input inTemplate known opened waiting opened waiting
      (rules.valueStatement role) :=
  bind (advance follows) fun _ => bind tracking.expressionToSemicolon fun _ =>
    spanned _ fun _ _ => ⟨_, _, rfl, rfl, rfl⟩

private theorem condition :
    Tracks input inTemplate known opened waiting opened waiting
      rules.condition :=
  enclosed .paren tracking.expression fun _ => pure _

private theorem otherwise? (settles : waiting .none) :
    Tracks input inTemplate known opened waiting opened waiting
      rules.otherwise? :=
  eat rfl (bind (tracking.callStatement _ _ settles).inside fun _ => pure _)
    (pure _)

private theorem branchStatement (settles : waiting .none)
    (follows : ∀ kind, known kind → Delimiter.follow opened kind = opened) :
    Tracks input inTemplate known opened waiting opened waiting
      rules.branchStatement :=
  bind (advance follows) fun _ => bind tracking.condition fun _ =>
    bind (tracking.callStatement _ _ settles).inside fun _ =>
      bind (tracking.otherwise? settles) fun _ => spanned _ fun _ _ =>
        ⟨_, _, rfl, rfl, rfl⟩

private theorem loopStatement (settles : waiting .none)
    (follows : ∀ kind, known kind → Delimiter.follow opened kind = opened) :
    Tracks input inTemplate known opened waiting opened waiting
      rules.loopStatement :=
  bind (advance follows) fun _ => bind tracking.condition fun _ =>
    bind (tracking.callStatement _ _ settles).inside fun _ =>
      spanned _ fun _ _ => ⟨_, _, rfl, rfl, rfl⟩

omit tracking in
private theorem jumpStatement (jump : Jump)
    (follows : ∀ kind, known kind → Delimiter.follow opened kind = opened) :
    Tracks input inTemplate known opened waiting opened waiting
      (Rules.jumpStatement jump) :=
  bind (advance follows) fun _ => bind (expect rfl) fun _ =>
    spanned _ fun _ _ => ⟨_, _, rfl, rfl, rfl⟩

omit tracking in
private theorem emptyStatement
    (follows : ∀ kind, known kind → Delimiter.follow opened kind = opened) :
    Tracks input inTemplate known opened waiting opened waiting
      Rules.emptyStatement :=
  bind (advance follows) fun _ => spanned _ fun _ _ => ⟨_, _, rfl, rfl, rfl⟩

private theorem blockIn (settles : waiting .none) (scope : ScopeId) :
    Tracks input inTemplate known opened waiting opened waiting
      (rules.blockIn scope) :=
  aside (fun _ => ⟨_, _, rfl, rfl, rfl⟩) fun _ =>
    bind (expect (Delimiter.follow_opener opened .brace)) fun _ =>
      bind (within _ (tracking.callBracedStatements _ _ settles).inside)
          fun _ =>
        spanned _ fun _ _ => ⟨_, _, rfl, rfl, rfl⟩

theorem blockStatement (settles : waiting .none) :
    Tracks input inTemplate known opened waiting opened waiting
      rules.blockStatement :=
  aside (fun _ => ⟨_, _, rfl, rfl, rfl⟩) fun _ => tracking.blockIn settles _

theorem currentBlock (settles : waiting .none) :
    Tracks input inTemplate known opened waiting opened waiting
      rules.currentBlock :=
  aside (fun _ => ⟨_, _, rfl, rfl, rfl⟩) fun _ => tracking.blockIn settles _

theorem memberBody (settles : waiting .none) :
    Tracks input inTemplate known opened waiting opened waiting
      rules.memberBody :=
  aside (fun _ => ⟨_, _, rfl, rfl, rfl⟩) fun _ =>
    aside (fun _ => ⟨_, _, rfl, rfl, rfl⟩) fun _ =>
    bind (expect (Delimiter.follow_opener opened .brace)) fun _ =>
      bind (tracking.callBracedStatements _ _ settles).inside fun _ =>
        spanned _ fun _ _ => ⟨_, _, rfl, rfl, rfl⟩

private theorem tryDeclaration (settles : waiting .none) :
    Tracks input inTemplate known opened waiting opened waiting
      rules.tryDeclaration :=
  either (tracking.declarationStatement settles) tracking.expressionStatement

private theorem keywordStatement (settles : waiting .none) (keyword : Keyword) :
    Tracks input inTemplate (· = .keyword keyword) opened waiting opened waiting
      (rules.keywordStatement keyword) := by
  have follows (kind : TokenKind) (same : kind = .keyword keyword) :
      Delimiter.follow opened kind = opened := same ▸ rfl
  unfold Rules.keywordStatement
  split
  · exact tracking.valueStatement _ follows
  · exact tracking.valueStatement _ follows
  · exact tracking.branchStatement settles follows
  · exact tracking.loopStatement settles follows
  · exact jumpStatement _ follows
  · exact jumpStatement _ follows
  · exact ite (tracking.declarationStatement settles)
      (tracking.tryDeclaration settles)

private theorem statement (settles : waiting .none) :
    Tracks input inTemplate known opened waiting opened waiting
      rules.statement := by
  refine peekKind fun kind => ?_
  split
  · exact tracking.keywordStatement settles _
  · exact tracking.blockStatement settles
  · exact emptyStatement fun _ same => same ▸ rfl
  · exact tracking.tryDeclaration settles

private theorem unitStatements (settles : waiting .none) :
    Tracks input inTemplate known opened waiting opened waiting
      rules.unitStatements :=
  aside (fun _ => ⟨_, _, rfl, rfl, rfl⟩) fun _ => ite (pure _)
    (bind (tracking.callStatement _ _ settles).inside.forget fun _ =>
      bind (tracking.callUnitStatements _ _ settles).inside fun _ => pure _)

private theorem bracedStatements (settles : waiting .none) :
    Tracks input inTemplate known (.brace :: opened) waiting opened waiting
      rules.bracedStatements :=
  bracedItems (tracking.callStatement _ _ settles).inside
    (tracking.callBracedStatements _ _ settles).inside

theorem unit (settles : waiting .none) :
    Tracks input inTemplate known opened waiting opened waiting rules.unit :=
  aside (fun _ => ⟨_, _, rfl, rfl, rfl⟩) fun _ =>
    aside (fun _ => ⟨_, _, rfl, rfl, rfl⟩) fun _ =>
    bind (tracking.callUnitStatements _ _ settles).inside.forget fun _ =>
      aside (fun _ => ⟨_, _, rfl, rfl, rfl⟩) fun _ => idle fun _ =>
        ⟨_, _, rfl, rfl, rfl⟩

private theorem defaultType? :
    Tracks input inTemplate known opened waiting opened waiting
      rules.defaultType? :=
  eat rfl (bind (tracking.call .type rfl) fun _ => pure _) (pure _)

private theorem templateParam :
    Tracks input true known opened waiting opened waiting
      rules.templateParam := by
  refine aside (fun _ => ⟨_, _, rfl, rfl, rfl⟩) fun _ =>
    bind (expect rfl) fun _ =>
    bind (identifierOrPlaceholder _) fun _ =>
      bind tracking.defaultType? fun _ =>
      aside (fun _ => ⟨_, _, rfl, rfl, rfl⟩) fun track => ?_
  split
  · exact failAt
  · exact aside (fun _ => ⟨_, _, rfl, rfl, rfl⟩) fun _ =>
      aside (fun _ => ⟨_, _, rfl, rfl, rfl⟩) fun _ =>
        aside (fun _ => ⟨_, _, rfl, rfl, rfl⟩) fun _ => retemplate _

private theorem templateParams :
    Tracks input true known opened waiting opened waiting
      rules.templateParams :=
  bind tracking.templateParam fun _ =>
    eat rfl (tracking.callTemplateParams _ _) (pure _)

private theorem templateParamClause :
    Tracks input true known opened waiting opened waiting
      rules.templateParamClause :=
  bind (expect rfl) fun _ =>
    bind (check (pure _) (tracking.callTemplateParams _ _)) fun _ =>
    expect rfl

private theorem templateConstraint :
    Tracks input true known opened waiting opened waiting
      rules.templateConstraint :=
  eat rfl (bind (tracking.call (.tier .or) rfl) fun _ => retemplate _) (pure _)

private theorem templateBody :
    Tracks input true known opened anyWaiting opened noneWaiting
      rules.templateBody :=
  bind tracking.templateParamClause fun _ =>
    bind tracking.templateConstraint fun _ =>
    (tracking.callDeclaration _).inside

/--
The specifiers that wait before a template are taken by the declaration in it.
-/
theorem templateDeclaration :
    Tracks input inTemplate known opened anyWaiting opened noneWaiting
      rules.templateDeclaration :=
  aside (fun _ => ⟨_, _, rfl, rfl, rfl⟩) fun _ => bind (expect rfl) fun _ =>
    aside (fun _ => ⟨_, _, rfl, rfl, rfl⟩) fun _ =>
      aside (fun _ => ⟨_, _, rfl, rfl, rfl⟩) fun _ =>
      bind (within _ (withTemplate _ tracking.templateBody)) fun _ =>
        aside (fun _ => ⟨_, _, rfl, rfl, rfl⟩) fun _ =>
          aside (fun _ => ⟨_, _, rfl, rfl, rfl⟩) fun _ =>
            aside (fun _ => ⟨_, _, rfl, rfl, rfl⟩) fun _ => pure _

private theorem conceptDefinition :
    Tracks input inTemplate known opened waiting opened waiting
      rules.conceptDefinition :=
  aside (fun _ => ⟨_, _, rfl, rfl, rfl⟩) fun _ => eat rfl
    (bind tracking.expressionToSemicolon fun _ => spanned _ fun _ _ =>
      ⟨_, _, rfl, rfl, rfl⟩)
    (bind (expect (Delimiter.follow_opener opened .brace)) fun _ =>
      bind (tracking.callConceptMembers _ _).inside fun _ =>
        spanned _ fun _ _ => ⟨_, _, rfl, rfl, rfl⟩)

private theorem conceptBody :
    Tracks input inTemplate known opened waiting opened waiting
      rules.conceptBody :=
  bind (withTemplate _ tracking.templateParamClause) fun _ =>
    bind tracking.conceptDefinition fun _ => pure _

omit tracking in
/-- What is read of a declaration behind its specifiers, which it takes. -/
private theorem taking {Value : Type} {next : Span → Specifiers → Parser Value}
    (rest : ∀ start specifiers,
      Tracks input inTemplate anyKind opened noneWaiting opened
      noneWaiting (next start specifiers)) :
    Tracks input inTemplate known opened waiting opened noneWaiting
      (Parser.currentSpan >>= fun start =>
        Parser.takeSpecifiers >>= fun specifiers =>
        next start specifiers) :=
  aside (fun _ => ⟨_, _, rfl, rfl, rfl⟩) fun start =>
    bind takeSpecifiers fun specifiers => rest start specifiers

theorem conceptDeclaration :
    Tracks input inTemplate known opened waiting opened noneWaiting
      rules.conceptDeclaration :=
  taking fun _ _ => bind (expect rfl) fun _ => bind identifier fun _ =>
    aside (fun _ => ⟨_, _, rfl, rfl, rfl⟩) fun _ =>
      aside (fun _ => ⟨_, _, rfl, rfl, rfl⟩) fun _ =>
      aside (fun _ => ⟨_, _, rfl, rfl, rfl⟩) fun _ =>
        bind (within _ tracking.conceptBody) fun _ =>
        aside (fun _ => ⟨_, _, rfl, rfl, rfl⟩) fun _ =>
          aside (fun _ => ⟨_, _, rfl, rfl, rfl⟩) fun _ => pure _

private theorem initializer? :
    Tracks input inTemplate known opened waiting opened waiting
      rules.initializer? :=
  eat rfl (bind (tracking.initializer _) fun _ => pure _) (pure _)

private theorem typeAndInitializer :
    Tracks input inTemplate known opened waiting opened waiting
      rules.typeAndInitializer :=
  bind (tracking.declaredType _) fun _ => bind tracking.initializer? fun _ =>
    pure _

private theorem inferredOrTyped :
    Tracks input inTemplate known opened waiting opened waiting
      rules.inferredOrTyped :=
  check
    (aside (fun _ => ⟨_, _, rfl, rfl, rfl⟩) fun _ =>
      aside (fun _ => ⟨_, _, rfl, rfl, rfl⟩) fun _ =>
      bind tracking.initializer? fun _ => pure _)
    tracking.typeAndInitializer

omit tracking in
private theorem initializerDefinition (expr? : Option ExprId) :
    Tracks input inTemplate known opened waiting opened waiting
      (Rules.initializerDefinition expr?) := by
  cases expr? with
  | none =>
      exact aside (fun _ => ⟨_, _, rfl, rfl, rfl⟩) fun _ => idle fun _ =>
        ⟨_, _, rfl, rfl, rfl⟩
  | some expr =>
      exact aside (fun _ => ⟨_, _, rfl, rfl, rfl⟩) fun _ => idle fun _ =>
        ⟨_, _, rfl, rfl, rfl⟩

theorem variableDeclaration :
    Tracks input inTemplate known opened waiting opened noneWaiting
      rules.variableDeclaration :=
  taking fun _ _ => bind (expect rfl) fun _ => bind identifier fun _ =>
    bind (expect rfl) fun _ => bind tracking.inferredOrTyped fun _ =>
      bind (expect rfl) fun _ =>
      bind (initializerDefinition _) fun _ =>
        aside (fun _ => ⟨_, _, rfl, rfl, rfl⟩) fun _ =>
        aside (fun _ => ⟨_, _, rfl, rfl, rfl⟩) fun _ =>
          aside (fun _ => ⟨_, _, rfl, rfl, rfl⟩) fun _ =>
            aside (fun _ => ⟨_, _, rfl, rfl, rfl⟩) fun _ => pure _

theorem superDeclaration :
    Tracks input inTemplate known opened waiting opened noneWaiting
      rules.superDeclaration :=
  taking fun _ _ => bind (expect rfl) fun _ =>
    bind (identifierOrPlaceholder _) fun _ =>
    bind (expect rfl) fun _ => bind tracking.typeAndInitializer fun _ =>
      bind (expect rfl) fun _ =>
      bind (initializerDefinition _) fun _ =>
        aside (fun _ => ⟨_, _, rfl, rfl, rfl⟩) fun _ =>
        aside (fun _ => ⟨_, _, rfl, rfl, rfl⟩) fun _ =>
          aside (fun _ => ⟨_, _, rfl, rfl, rfl⟩) fun _ => pure _

private theorem paramType (bound : Bool) :
    Tracks input inTemplate known opened waiting opened waiting
      (rules.paramType bound) :=
  eat rfl (ite (tracking.call .type rfl) (tracking.declaredType _))
    (aside (fun _ => ⟨_, _, rfl, rfl, rfl⟩) fun _ => idle fun _ =>
      ⟨_, _, rfl, rfl, rfl⟩)

private theorem param (bound : Bool) :
    Tracks input inTemplate known opened waiting opened waiting
      (rules.param bound) :=
  aside (fun _ => ⟨_, _, rfl, rfl, rfl⟩) fun _ =>
    bind (tracking.call (.paramSpecifiers .none) rfl) fun _ =>
      bind identifier fun _ =>
      bind (tracking.paramType bound) fun _ => check
        (aside (fun _ => ⟨_, _, rfl, rfl, rfl⟩) fun _ => failAt)
        (aside (fun _ => ⟨_, _, rfl, rfl, rfl⟩) fun _ =>
          aside (fun _ => ⟨_, _, rfl, rfl, rfl⟩) fun _ =>
            ite (aside (fun _ => ⟨_, _, rfl, rfl, rfl⟩) fun _ => pure _)
              (pure _))

private theorem params (bound : Bool) :
    Tracks input inTemplate known opened waiting opened waiting
      (rules.params bound) :=
  bind (tracking.param bound) fun _ => eat rfl
    (bind (tracking.call (.params bound) rfl) fun _ => pure _) (pure _)

private theorem resultType :
    Tracks input inTemplate known opened waiting opened waiting
      rules.resultType :=
  eat rfl (tracking.declaredType _)
    (aside (fun _ => ⟨_, _, rfl, rfl, rfl⟩) fun _ => idle fun _ =>
      ⟨_, _, rfl, rfl, rfl⟩)

private theorem signature :
    Tracks input inTemplate known opened waiting opened waiting
      rules.signature :=
  bind (expect (Delimiter.follow_opener opened .paren)) fun _ =>
    aside (fun _ => ⟨_, _, rfl, rfl, rfl⟩) fun _ =>
      bind (orNone _ _ (tracking.call (.params _) rfl)) fun _ =>
        bind (expect (Delimiter.follow_closer opened .paren)) fun _ =>
          bind tracking.resultType fun _ => pure _

omit tracking in
private theorem keywordDefinition (keyword : Keyword) (form : DefForm) :
    Tracks input inTemplate known opened waiting opened waiting
      (Rules.keywordDefinition keyword form) :=
  bind (expect rfl) fun _ => bind (expect rfl) fun _ => pure _

private theorem expressionBody :
    Tracks input inTemplate known opened waiting opened waiting
      rules.expressionBody :=
  bind (tracking.initializer _) fun _ => bind (expect rfl) fun _ => pure _

private theorem assignedDefinition :
    Tracks input inTemplate (· = .symbol .assign) opened waiting opened waiting
      rules.assignedDefinition := by
  have follows (kind : TokenKind) (same : kind = .symbol .assign) :
      Delimiter.follow opened kind = opened := same ▸ rfl
  refine aside (fun _ => ⟨_, _, rfl, rfl, rfl⟩) fun behind =>
    bind (skip follows) fun _ => ?_
  split
  · exact keywordDefinition _ _
  · exact keywordDefinition _ _
  · exact tracking.expressionBody

private theorem functionDefinitionForm :
    Tracks input inTemplate known opened noneWaiting opened noneWaiting
      rules.functionDefinitionForm := by
  refine peekKind fun kind => ?_
  split
  · exact bind (bracedBody (tracking.currentBlock rfl)) fun _ => pure _
  · exact bind (skip fun _ same => same ▸ rfl) fun _ => pure _
  · exact tracking.assignedDefinition
  · exact tracking.expressionBody

private theorem functionDefinition :
    Tracks input inTemplate known opened noneWaiting opened noneWaiting
      rules.functionDefinition :=
  aside (fun _ => ⟨_, _, rfl, rfl, rfl⟩) fun _ =>
    bind tracking.functionDefinitionForm fun _ =>
    spanned _ fun _ _ => ⟨_, _, rfl, rfl, rfl⟩

private theorem callable
    (role : CallableRole)
    (start : Span)
    (specifiers : Specifiers)
    {definition : Parser DefId}
    (tracks : Tracks input inTemplate anyKind opened noneWaiting opened
      noneWaiting definition) :
    Tracks input inTemplate known opened noneWaiting opened noneWaiting
      (rules.callable role start specifiers definition) :=
  bind identifier fun _ => bind (eatPlain rfl) fun _ =>
    aside (fun _ => ⟨_, _, rfl, rfl, rfl⟩) fun _ =>
      aside (fun _ => ⟨_, _, rfl, rfl, rfl⟩) fun _ =>
      aside (fun _ => ⟨_, _, rfl, rfl, rfl⟩) fun _ =>
        bind (within _ (bind tracking.signature fun _ => bind tracks fun _ =>
          pure _)) fun _ =>
          aside (fun _ => ⟨_, _, rfl, rfl, rfl⟩) fun _ =>
            aside (fun _ => ⟨_, _, rfl, rfl, rfl⟩) fun _ => pure _

theorem functionDeclaration :
    Tracks input inTemplate known opened waiting opened noneWaiting
      rules.functionDeclaration :=
  taking fun _ _ => bind (expect rfl) fun _ =>
    aside (fun _ => ⟨_, _, rfl, rfl, rfl⟩) fun _ =>
      tracking.callable _ _ _ tracking.functionDefinition

theorem coroutineDeclaration :
    Tracks input inTemplate known opened waiting opened noneWaiting
      rules.coroutineDeclaration :=
  taking fun _ _ => bind (expect rfl) fun _ => tracking.callable _ _ _ <|
    aside (fun _ => ⟨_, _, rfl, rfl, rfl⟩) fun _ =>
      ite tracking.functionDefinition fail

private theorem classKind :
    Tracks input inTemplate known opened waiting opened waiting
      rules.classKind := by
  refine peekKind fun kind => ?_
  split
  · exact aside (fun _ => ⟨_, _, rfl, rfl, rfl⟩) fun _ => idle fun _ =>
      ⟨_, _, rfl, rfl, rfl⟩
  · exact aside (fun _ => ⟨_, _, rfl, rfl, rfl⟩) fun _ => idle fun _ =>
      ⟨_, _, rfl, rfl, rfl⟩
  · exact tracking.declaredType _

private theorem classDefinition (decl : DeclId) :
    Tracks input inTemplate known opened noneWaiting opened noneWaiting
      (rules.classDefinition decl) :=
  aside (fun _ => ⟨_, _, rfl, rfl, rfl⟩) fun _ => eat rfl
    (spanned _ fun _ _ => ⟨_, _, rfl, rfl, rfl⟩)
    (aside (fun _ => ⟨_, _, rfl, rfl, rfl⟩) fun _ =>
      bind (within _ (bracedBody (tracking.memberBody rfl))) fun _ =>
        spanned _ fun _ _ => ⟨_, _, rfl, rfl, rfl⟩)

theorem classDeclaration :
    Tracks input inTemplate known opened waiting opened noneWaiting
      rules.classDeclaration :=
  taking fun _ _ => bind (expect rfl) fun _ => bind identifier fun _ =>
    bind (eatPlain rfl) fun _ =>
      bind (tracking.call (.classSpecifiers _) rfl) fun _ =>
      aside (fun _ => ⟨_, _, rfl, rfl, rfl⟩) fun _ =>
        aside (fun _ => ⟨_, _, rfl, rfl, rfl⟩) fun _ =>
          bind tracking.classKind fun _ =>
          bind (tracking.classDefinition _) fun _ =>
            aside (fun _ => ⟨_, _, rfl, rfl, rfl⟩) fun _ =>
            aside (fun _ => ⟨_, _, rfl, rfl, rfl⟩) fun _ => pure _

theorem namespaceDeclaration :
    Tracks input inTemplate known opened waiting opened noneWaiting
      rules.namespaceDeclaration :=
  taking fun _ _ => bind (expect rfl) fun _ => bind identifier fun _ =>
    aside (fun _ => ⟨_, _, rfl, rfl, rfl⟩) fun _ =>
      aside (fun _ => ⟨_, _, rfl, rfl, rfl⟩) fun _ =>
      aside (fun _ => ⟨_, _, rfl, rfl, rfl⟩) fun _ =>
        bind (within _ (tracking.memberBody rfl)) fun _ =>
          aside (fun _ => ⟨_, _, rfl, rfl, rfl⟩) fun _ =>
            aside (fun _ => ⟨_, _, rfl, rfl, rfl⟩) fun _ => pure _

omit tracking in
/-- Specifiers are keywords. -/
private theorem follow_specifier
    {ofWord? : Keyword → Option Specifier}
    {kind : TokenKind}
    {specifier : Specifier} (found : Specifier.ofKind? ofWord? kind =
      some specifier) :
    Delimiter.follow opened kind = opened := by
  cases kind with
  | keyword word => rfl
  | _ => simp [Specifier.ofKind?] at found

private theorem specifiers :
    Tracks input inTemplate known opened anyWaiting opened anyWaiting
      rules.specifiers := by
  refine peekKind fun kind => ?_
  split
  next specifier found =>
    exact bind (skip fun _ same => same ▸ follow_specifier found) fun _ =>
      bind (addSpecifier _) fun _ => (tracking.callSpecifiers _).inside
  next => exact pure _

private theorem paramSpecifiers (read : Specifiers) :
    Tracks input inTemplate known opened waiting opened waiting
      (rules.paramSpecifiers read) := by
  refine peekKind fun kind => ?_
  split
  next specifier found =>
    exact bind (skip fun _ same => same ▸ follow_specifier found) fun _ =>
      tracking.call (.paramSpecifiers _) rfl
  next => exact pure _

private theorem classSpecifiers (read : Specifiers) :
    Tracks input inTemplate known opened waiting opened waiting
      (rules.classSpecifiers read) :=
  eat rfl (tracking.call (.classSpecifiers _) rfl) (pure _)

private theorem declaration :
    Tracks input inTemplate known opened anyWaiting opened noneWaiting
      rules.declaration := by
  refine bind (tracking.callSpecifiers _).inside.forget fun _ =>
    aside (fun _ => ⟨_, _, rfl, rfl, rfl⟩) fun token => ?_
  split
  · exact tracking.variableDeclaration
  · exact tracking.functionDeclaration
  · exact tracking.coroutineDeclaration
  · exact tracking.classDeclaration
  · exact tracking.superDeclaration
  · exact tracking.conceptDeclaration
  · exact tracking.templateDeclaration
  · exact tracking.namespaceDeclaration
  · exact failAt

private theorem produce : Rules.Tracking { parse := rules.produce } input where
  plain nonterminal opened waiting keeps := by
    cases nonterminal with
    | type => exact tracking.type
    | unaryType => exact tracking.unaryType
    | typeSuffixes start base => exact tracking.typeSuffixes start base
    | listedTypes afterComma => exact tracking.listedTypes afterComma
    | templateArgs => exact tracking.templateArgs
    | tier tier => exact tracking.tiered tier
    | operations tier left => exact tracking.operations tier left
    | unary => exact tracking.unary
    | postfixes start object => exact tracking.postfixes start object
    | expressions => exact tracking.expressions
    | paramSpecifiers read => exact tracking.paramSpecifiers read
    | classSpecifiers read => exact tracking.classSpecifiers read
    | params bound => exact tracking.params bound
    | _ => cases keeps
  callRequirements _ _ := tracking.requirements
  callConceptMembers _ _ := tracking.conceptMembers
  callStatement _ _ := tracking.statement
  callUnitStatements _ _ := tracking.unitStatements
  callBracedStatements _ _ := tracking.bracedStatements
  callDeclaration _ := tracking.declaration
  callSpecifiers _ := tracking.specifiers
  callTemplateParams _ _ := tracking.templateParams

end Tracking

/-- Whatever the bound on nested calls, the grammar keeps track. -/
theorem nested_tracking (input : ParserInput) (depth : Nat) :
    (nested depth).Tracking input := by
  induction depth with
  | zero =>
      constructor <;> intros <;> exact fun _ _ _ _ => trivial
  | succ depth inductionHypothesis => exact inductionHypothesis.produce

end Rules

end Tern
