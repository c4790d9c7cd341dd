import Tern.Proofs.Grammar.Capturing

namespace Tern

/-!
# What the grammar captures

Types, expressions and all that these are made of capture nothing. Declarations
capture their types, initializers and bodies, and statements what their
declarations do.
-/

/-- Whether a nonterminal may capture ranges of tokens. -/
def Nonterminal.mayCapture {Value : Type} : Nonterminal Value → Bool
  | .statement => true
  | .unitStatements => true
  | .bracedStatements => true
  | .declaration => true
  | .params bound => !bound
  | _ => false

namespace Rules

/-- All nonterminals capture what they store, and only some capture anything. -/
def Capturing (rules : Rules) (input : ParserInput) : Prop :=
  ∀ {Value : Type} (nonterminal : Nonterminal Value),
    Captures input nonterminal.mayCapture (rules.parse nonterminal)

namespace Capturing

open Tern.Captures

variable {rules : Rules} {input : ParserInput} {capturing : Bool}
  (closed : input.window.Closed) (calls : rules.Capturing input)

include calls

/-- A nonterminal that captures nothing. -/
theorem call {Value : Type} (nonterminal : Nonterminal Value)
    (captures : nonterminal.mayCapture = false) :
    Captures input capturing (rules.parse nonterminal) := by
  have quietly := calls nonterminal
  rw [captures] at quietly
  exact quietly.quiet

private theorem expression : Captures input capturing rules.expression :=
  calls.call (.tier .or) rfl

omit calls in
/-- Items up to a closer, perhaps none. -/
private theorem orNone
    {Item : Type}
    (closer : TokenKind)
    {items : Nonterminal (List Item)}
    (captures : Captures input capturing (rules.parse items)) :
    Captures input capturing (rules.orNone closer items) :=
  check (pure _) captures

omit calls in
/-- An item of a repetition, and the items behind it up to a closing brace. -/
private theorem bracedItems
    {Item : Type}
    {item : Parser Item}
    {rest : Nonterminal (List Item)}
    (capturesItem : Captures input capturing item)
    (capturesRest : Captures input capturing (rules.parse rest)) :
    Captures input capturing (rules.bracedItems item rest) :=
  eat (pure _) <| aside (fun _ => ⟨_, _, rfl, rfl, rfl⟩) fun _ => ite
    (aside (fun _ => ⟨_, _, rfl, rfl, rfl⟩) fun _ => failAt)
    (bind capturesItem fun _ => bind capturesRest fun _ => pure _)

private theorem typeArg : Captures input capturing rules.typeArg :=
  bind (calls.call .type rfl) fun _ => peek fun _ => ite (pure _) failAt

private theorem exprArg : Captures input capturing rules.exprArg :=
  bind (calls.call (.tier .shift) rfl) fun _ => pure _

private theorem templateArg : Captures input capturing rules.templateArg :=
  either calls.typeArg calls.exprArg

private theorem templateArgs : Captures input capturing rules.templateArgs :=
  bind calls.templateArg fun _ => eat
    (bind (calls.call .templateArgs rfl) fun _ => pure _) (pure _)

private theorem angledArgs : Captures input capturing rules.angledArgs :=
  bind (orNone _ (calls.call .templateArgs rfl)) fun _ =>
    bind (expect _) fun _ => pure _

private theorem nameOf
    (decl : DeclId)
    (takesArgs : Bool)
    (name : Name)
    (span : Span) :
    Captures input capturing (rules.nameOf decl takesArgs name span) :=
  ite
    (eat (bind calls.angledArgs fun _ => spanned _ fun _ => addName _ _)
      (addName _ _))
    (addName _ _)

private theorem namedType : Captures input capturing rules.namedType := by
  refine bind expectIdentifier fun named =>
    aside (fun _ => ⟨_, _, rfl, rfl, rfl⟩) fun found => ?_
  split
  · exact aside (fun _ => ⟨_, _, rfl, rfl, rfl⟩) fun _ => failAt
  · refine aside (fun _ => ⟨_, _, rfl, rfl, rfl⟩) fun arena => ?_
    split
    · exact aside (fun _ => ⟨_, _, rfl, rfl, rfl⟩) fun _ => failAt
    · exact bind (calls.nameOf _ _ _ _) fun _ => spanned _ fun _ =>
        addType rfl _

private theorem parenthesizedType :
    Captures input capturing rules.parenthesizedType := by
  refine aside (fun _ => ⟨_, _, rfl, rfl, rfl⟩) fun start =>
    bind (expect _) fun _ =>
    bind (calls.call (.listedTypes _) rfl) fun listed =>
      bind (expect _) fun _ => eat
      (bind (calls.call .type rfl) fun _ => spanned _ fun _ => addType rfl _) ?_
  split
  · exact pure _
  · exact spanned _ fun _ => addType rfl _

private theorem decltype : Captures input capturing rules.decltype :=
  aside (fun _ => ⟨_, _, rfl, rfl, rfl⟩) fun _ => bind skip fun _ =>
    bind (expect _) fun _ =>
    bind calls.expression fun _ => bind (expect _) fun _ => spanned _ fun _ =>
      addType rfl _

private theorem primaryType : Captures input capturing rules.primaryType := by
  refine peek fun token => ?_
  split
  · exact calls.namedType
  · exact calls.parenthesizedType
  · exact calls.decltype
  · split
    · exact bind skip fun _ => addType rfl _
    · exact failAt

/-- A suffix makes a type that is no range of tokens. -/
private theorem typeSuffix?
    (base : TypeId)
    {Value : Type}
    {next : Option TypeForm → Parser Value}
    (found : ∀ form : TypeForm, form.range? = none →
      Captures input capturing (next (some form)))
    (nothing : Captures input capturing (next none)) :
    Captures input capturing (rules.typeSuffix? base >>= next) := by
  have wrapped (wrapper : TypeWrapper) :
      Captures input capturing
        (Parser.skip >>= fun _ => next (some (.wrapped wrapper base))) :=
    bind skip fun _ => found _ rfl
  rw [Rules.typeSuffix?, bind_assoc]
  refine aside (fun _ => ⟨_, _, rfl, rfl, rfl⟩) fun kind => ?_
  split
  · exact wrapped .reference
  · exact wrapped .pointer
  · rw [bind_assoc]
    refine bind skip fun _ => ?_
    rw [bind_assoc]
    refine bind (eaten _) fun closes => ?_
    split
    · exact found _ rfl
    · rw [bind_assoc]
      refine bind calls.expression fun length => ?_
      rw [bind_assoc]
      exact bind (expect _) fun _ => found _ rfl
  · split
    · exact wrapped _
    · exact nothing

private theorem typeSuffixes (start : Span) (base : TypeId) :
    Captures input capturing (rules.typeSuffixes start base) :=
  calls.typeSuffix? base
    (fun _ parsed => spanned _ fun _ => bind (addType parsed _) fun _ =>
      calls.call (.typeSuffixes _ _) rfl)
    (pure _)

private theorem unaryType : Captures input capturing rules.unaryType := by
  refine peek fun token => ?_
  split
  · exact bind skip fun _ => bind (calls.call .unaryType rfl) fun _ =>
      spanned _ fun _ => addType rfl _
  · exact bind calls.primaryType fun _ => calls.call (.typeSuffixes _ _) rfl

private theorem type : Captures input capturing rules.type :=
  aside (fun _ => ⟨_, _, rfl, rfl, rfl⟩) fun _ =>
    bind (calls.call .unaryType rfl) fun _ =>
    eat (spanned _ fun _ => addType rfl _) (pure _)

private theorem listedTypes (afterComma : Bool) :
    Captures input capturing (rules.listedTypes afterComma) :=
  check (pure _) (bind (calls.call .type rfl) fun _ => eat
    (bind (calls.call (.listedTypes _) rfl) fun _ => pure _) (pure _))

private theorem operand (tier : Tier) :
    Captures input capturing (rules.operand tier) := by
  unfold Rules.operand
  split
  · exact calls.call (.tier _) rfl
  · exact calls.call .unary rfl

private theorem operations (tier : Tier) (left : ExprId) :
    Captures input capturing (rules.operations tier left) := by
  refine peekKind fun kind => ?_
  split
  · exact pure _
  · exact bind skip fun _ => bind (calls.operand tier) fun _ =>
      aside (fun _ => ⟨_, _, rfl, rfl, rfl⟩) fun _ =>
        bind (addExpr rfl _) fun _ =>
        calls.call (.operations _ _) rfl

private theorem tiered (tier : Tier) :
    Captures input capturing (rules.tiered tier) :=
  bind (calls.operand tier) fun _ => calls.call (.operations _ _) rfl

private theorem expressions : Captures input capturing rules.expressions :=
  bind calls.expression fun _ => eat
    (bind (calls.call .expressions rfl) fun _ => pure _) (pure _)

private theorem closedExpressions :
    Captures input capturing rules.closedExpressions :=
  bind (orNone _ (calls.call .expressions rfl)) fun _ =>
    bind (expect _) fun _ => pure _

private theorem namedExpression :
    Captures input capturing rules.namedExpression := by
  refine bind expectIdentifier fun named =>
    aside (fun _ => ⟨_, _, rfl, rfl, rfl⟩) fun found => ?_
  split
  · exact aside (fun _ => ⟨_, _, rfl, rfl, rfl⟩) fun _ => failAt
  · exact aside (fun _ => ⟨_, _, rfl, rfl, rfl⟩) fun _ =>
      bind (calls.nameOf _ _ _ _) fun _ =>
      spanned _ fun _ => addExpr rfl _
  · exact bind (addName _ _) fun _ => spanned _ fun _ => addExpr rfl _

private theorem parenthesizedExpression :
    Captures input capturing rules.parenthesizedExpression :=
  aside (fun _ => ⟨_, _, rfl, rfl, rfl⟩) fun _ => bind (expect _) fun _ =>
    eat (spanned _ fun _ => addExpr rfl _)
      (bind calls.expression fun _ => eat (pure _)
        (bind (expect _) fun _ => bind calls.closedExpressions fun _ =>
          spanned _ fun _ => addExpr rfl _))

private theorem requiresParams :
    Captures input capturing rules.requiresParams :=
  eat
    (bind (orNone _ (calls.call (.params true) rfl)) fun _ =>
      bind (expect _) fun _ => pure _)
    (pure _)

private theorem requiresBody : Captures input capturing rules.requiresBody :=
  bind calls.requiresParams fun _ => bind (expect _) fun _ =>
    bind (calls.call .requirements rfl) fun _ => pure _

private theorem requiresExpression :
    Captures input capturing rules.requiresExpression :=
  aside (fun _ => ⟨_, _, rfl, rfl, rfl⟩) fun _ => bind (expect _) fun _ =>
    aside (fun _ => ⟨_, _, rfl, rfl, rfl⟩) fun _ =>
      bind (within _ calls.requiresBody) fun _ =>
      spanned _ fun _ => addExpr rfl _

omit calls in
private theorem literal {form : ExprForm} (parsed : form.range? = none) :
    Captures input capturing (Rules.literal form) :=
  bind advance fun _ => addExpr parsed _

private theorem primary : Captures input capturing rules.primary := by
  refine peek fun token => ?_
  split
  · exact literal rfl
  · exact literal rfl
  · exact literal rfl
  · exact calls.namedExpression
  · exact calls.parenthesizedExpression
  · exact calls.requiresExpression
  · exact failAt

/-- What follows a primary expression makes one that is no range of tokens. -/
private theorem postfix?
    (object : ExprId)
    {Value : Type}
    {next : Option ExprForm → Parser Value}
    (found : ∀ form : ExprForm, form.range? = none →
      Captures input capturing (next (some form)))
    (nothing : Captures input capturing (next none)) :
    Captures input capturing (rules.postfix? object >>= next) := by
  rw [Rules.postfix?, bind_assoc]
  refine aside (fun _ => ⟨_, _, rfl, rfl, rfl⟩) fun kind => ?_
  split
  · rw [bind_assoc]
    refine bind skip fun _ => ?_
    rw [bind_assoc]
    exact bind calls.closedExpressions fun _ => found _ rfl
  · rw [bind_assoc]
    refine bind skip fun _ => ?_
    rw [bind_assoc]
    exact bind identifier fun _ => found _ rfl
  · rw [bind_assoc]
    refine bind skip fun _ => ?_
    rw [bind_assoc]
    refine bind calls.expression fun index => ?_
    rw [bind_assoc]
    exact bind (expect _) fun _ => found _ rfl
  · exact nothing

private theorem postfixes (start : Span) (object : ExprId) :
    Captures input capturing (rules.postfixes start object) :=
  calls.postfix? object
    (fun _ parsed => spanned _ fun _ => bind (addExpr parsed _) fun _ =>
      calls.call (.postfixes _ _) rfl)
    (pure _)

private theorem unary : Captures input capturing rules.unary := by
  refine peek fun token => ?_
  split
  · exact bind skip fun _ => bind (calls.call .unary rfl) fun _ =>
      spanned _ fun _ => addExpr rfl _
  · exact bind calls.primary fun _ => calls.call (.postfixes _ _) rfl

omit calls in
private theorem requirementOf
    {form : Parser ReqForm}
    (captures : Captures input capturing form) :
    Captures input capturing (Rules.requirementOf form) :=
  aside (fun _ => ⟨_, _, rfl, rfl, rfl⟩) fun _ => bind captures fun _ =>
    bind (expect _) fun _ =>
    spanned _ fun _ => addRequirement _ _

private theorem typeRequirement :
    Captures input capturing rules.typeRequirement :=
  bind skip fun _ => bind (calls.call .type rfl) fun _ => pure _

private theorem expressionRequirement :
    Captures input capturing rules.expressionRequirement :=
  bind calls.expression fun _ => eat
    (bind (calls.call .type rfl) fun _ => pure _)
    (eat (bind (calls.call .type rfl) fun _ => pure _) (pure _))

private theorem requirement : Captures input capturing rules.requirement :=
  requirementOf (check calls.typeRequirement calls.expressionRequirement)

private theorem requirements : Captures input capturing rules.requirements :=
  bracedItems calls.requirement (calls.call .requirements rfl)

private theorem plainConceptMember :
    Captures input capturing rules.plainConceptMember :=
  requirementOf
    (check calls.typeRequirement (bind calls.expression fun _ => pure _))

private theorem syntacticRequirement :
    Captures input capturing rules.syntacticRequirement :=
  requirementOf (bind (expect _) fun _ => bind calls.expression fun _ => pure _)

private theorem conceptMember : Captures input capturing rules.conceptMember :=
  check (either calls.syntacticRequirement calls.plainConceptMember)
    calls.plainConceptMember

private theorem conceptMembers :
    Captures input capturing rules.conceptMembers :=
  bracedItems calls.conceptMember (calls.call .conceptMembers rfl)

private theorem defaultType? : Captures input capturing rules.defaultType? :=
  eat (bind (calls.call .type rfl) fun _ => pure _) (pure _)

omit calls in
/-- A change of what is kept track of stores nothing. -/
private theorem retrack (change : ParserTrack → ParserTrack) :
    Captures input capturing (Parser.retrack change) :=
  step fun _ => ⟨_, _, rfl, rfl, fun _ => rfl⟩

private theorem templateParam :
    Captures input capturing rules.templateParam := by
  refine aside (fun _ => ⟨_, _, rfl, rfl, rfl⟩) fun start =>
    bind (expect _) fun _ =>
    bind (identifierOrPlaceholder _) fun _ => bind calls.defaultType? fun _ =>
      aside (fun _ => ⟨_, _, rfl, rfl, rfl⟩) fun track => ?_
  split
  · exact failAt
  · exact spanned _ fun _ => bind (addDecl _ _ _ _) fun _ =>
      aside (fun _ => ⟨_, _, rfl, rfl, rfl⟩) fun _ => retrack _

private theorem templateParams :
    Captures input capturing rules.templateParams :=
  bind calls.templateParam fun _ =>
    eat (calls.call .templateParams rfl) (pure _)

private theorem templateParamClause :
    Captures input capturing rules.templateParamClause :=
  bind (expect _) fun _ =>
    bind (check (pure _) (calls.call .templateParams rfl)) fun _ => expect _

private theorem templateConstraint :
    Captures input capturing rules.templateConstraint :=
  eat (bind calls.expression fun _ => retrack _) (pure _)

private theorem templateBody : Captures input true rules.templateBody :=
  bind calls.templateParamClause fun _ => bind calls.templateConstraint fun _ =>
    calls .declaration

private theorem templateDeclaration :
    Captures input true rules.templateDeclaration :=
  aside (fun _ => ⟨_, _, rfl, rfl, rfl⟩) fun _ => bind (expect _) fun _ =>
    bind (addDecl _ _ _ _) fun _ =>
      aside (fun _ => ⟨_, _, rfl, rfl, rfl⟩) fun _ =>
      bind (within _ (withTemplate _ calls.templateBody)) fun _ =>
        spanned _ fun _ =>
        bind (updateDecl _ _) fun _ =>
          aside (fun _ => ⟨_, _, rfl, rfl, rfl⟩) fun _ => pure _

private theorem conceptDefinition :
    Captures input capturing rules.conceptDefinition :=
  aside (fun _ => ⟨_, _, rfl, rfl, rfl⟩) fun _ => eat
    (bind (bind calls.expression fun _ => bind (expect _) fun _ =>
      pure _) fun _ =>
      spanned _ fun _ => addDefinition _ _)
    (bind (expect _) fun _ => bind (calls.call .conceptMembers rfl) fun _ =>
      spanned _ fun _ => addDefinition _ _)

private theorem conceptBody : Captures input capturing rules.conceptBody :=
  bind (withTemplate _ calls.templateParamClause) fun _ =>
    bind calls.conceptDefinition fun _ =>
    pure _

private theorem conceptDeclaration :
    Captures input capturing rules.conceptDeclaration :=
  aside (fun _ => ⟨_, _, rfl, rfl, rfl⟩) fun _ =>
    aside (fun _ => ⟨_, _, rfl, rfl, rfl⟩) fun _ =>
    bind (expect _) fun _ => bind identifier fun _ =>
      bind (addDecl _ _ _ _) fun _ =>
      aside (fun _ => ⟨_, _, rfl, rfl, rfl⟩) fun _ =>
        aside (fun _ => ⟨_, _, rfl, rfl, rfl⟩) fun _ =>
          bind (within _ calls.conceptBody) fun _ =>
          spanned _ fun _ => bind (completeDecl _ _ _) fun _ => pure _

/-- A type is captured or parsed. -/
private theorem declaredType (terminators : List TokenKind) :
    Captures input true (rules.declaredType terminators) := by
  refine aside (fun _ => ⟨_, _, rfl, rfl, rfl⟩) fun defers =>
    ite ?_ (calls.call .type rfl)
  refine keepTo (fun _ => ⟨_, rfl⟩) fun range state => ⟨_, _, rfl, rfl, ?_⟩
  refine (Arena.Adds.type _ _).storesOnly fun stored found => ?_
  rw [Arena.range?, Arena.type_addType] at found
  exact (Option.some.inj found).symm

/-- An initializer is captured or parsed. -/
private theorem initializer (terminators : List TokenKind) :
    Captures input true (rules.initializer terminators) := by
  refine aside (fun _ => ⟨_, _, rfl, rfl, rfl⟩) fun defers =>
    ite ?_ calls.expression
  refine keepTo (fun _ => ⟨_, rfl⟩) fun range state => ⟨_, _, rfl, rfl, ?_⟩
  refine (Arena.Adds.expr _ _).storesOnly fun stored found => ?_
  rw [Arena.range?, Arena.expr_addExpr] at found
  exact (Option.some.inj found).symm

include closed in
omit calls in
/-- A body is captured with its braces, or parsed. -/
private theorem bracedBody
    {body : Parser StmtId}
    (captures : Captures input true body) :
    Captures input true (Parser.bracedBody body) := by
  refine aside (fun _ => ⟨_, _, rfl, rfl, rfl⟩) fun defers => ite ?_ captures
  refine keepBraces closed fun range state => ⟨_, _, rfl, rfl, ?_⟩
  refine (Arena.Adds.stmt _ _).storesOnly fun stored found => ?_
  rw [Arena.range?, Arena.stmt_addStmt] at found
  exact (Option.some.inj found).symm

private theorem declarationStatement :
    Captures input true rules.declarationStatement :=
  aside (fun _ => ⟨_, _, rfl, rfl, rfl⟩) fun _ =>
    bind (calls .declaration) fun _ =>
    spanned _ fun _ => addStmt rfl _

private theorem expressionToSemicolon :
    Captures input capturing rules.expressionToSemicolon :=
  bind calls.expression fun _ => bind (expect _) fun _ => pure _

private theorem expressionStatement :
    Captures input capturing rules.expressionStatement :=
  aside (fun _ => ⟨_, _, rfl, rfl, rfl⟩) fun _ =>
    bind calls.expressionToSemicolon fun _ =>
    spanned _ fun _ => addStmt rfl _

private theorem valueStatement (role : ValueRole) :
    Captures input capturing (rules.valueStatement role) :=
  bind advance fun _ => bind calls.expressionToSemicolon fun _ =>
    spanned _ fun _ => addStmt rfl _

private theorem condition : Captures input capturing rules.condition :=
  bind (expect _) fun _ => bind calls.expression fun _ =>
    bind (expect _) fun _ => pure _

private theorem otherwise? : Captures input true rules.otherwise? :=
  eat (bind (calls .statement) fun _ => pure _) (pure _)

private theorem branchStatement : Captures input true rules.branchStatement :=
  bind advance fun _ => bind calls.condition fun _ =>
    bind (calls .statement) fun _ =>
    bind calls.otherwise? fun _ => spanned _ fun _ => addStmt rfl _

private theorem loopStatement : Captures input true rules.loopStatement :=
  bind advance fun _ => bind calls.condition fun _ =>
    bind (calls .statement) fun _ =>
    spanned _ fun _ => addStmt rfl _

omit calls in
private theorem jumpStatement (jump : Jump) :
    Captures input capturing (Rules.jumpStatement jump) :=
  bind advance fun _ => bind (expect _) fun _ => spanned _ fun _ =>
    addStmt rfl _

omit calls in
private theorem emptyStatement :
    Captures input capturing Rules.emptyStatement :=
  bind advance fun _ => spanned _ fun _ => addStmt rfl _

private theorem blockIn (scope : ScopeId) :
    Captures input true (rules.blockIn scope) :=
  aside (fun _ => ⟨_, _, rfl, rfl, rfl⟩) fun _ => bind (expect _) fun _ =>
    bind (Captures.within _ (calls .bracedStatements)) fun _ =>
      spanned _ fun _ => addStmt rfl _

private theorem blockStatement : Captures input true rules.blockStatement :=
  aside (fun _ => ⟨_, _, rfl, rfl, rfl⟩) fun _ => calls.blockIn _

private theorem currentBlock : Captures input true rules.currentBlock :=
  aside (fun _ => ⟨_, _, rfl, rfl, rfl⟩) fun _ => calls.blockIn _

private theorem memberBody : Captures input true rules.memberBody :=
  aside (fun _ => ⟨_, _, rfl, rfl, rfl⟩) fun _ =>
    aside (fun _ => ⟨_, _, rfl, rfl, rfl⟩) fun _ =>
    bind (expect _) fun _ => bind (calls .bracedStatements) fun _ =>
      spanned _ fun _ =>
      addStmt rfl _

private theorem tryDeclaration : Captures input true rules.tryDeclaration :=
  either calls.declarationStatement calls.expressionStatement

private theorem keywordStatement (keyword : Keyword) :
    Captures input true (rules.keywordStatement keyword) := by
  unfold Rules.keywordStatement
  split
  · exact calls.valueStatement _
  · exact calls.valueStatement _
  · exact calls.branchStatement
  · exact calls.loopStatement
  · exact jumpStatement _
  · exact jumpStatement _
  · exact ite calls.declarationStatement calls.tryDeclaration

private theorem statement : Captures input true rules.statement := by
  refine peekKind fun kind => ?_
  split
  · exact calls.keywordStatement _
  · exact calls.blockStatement
  · exact emptyStatement
  · exact calls.tryDeclaration

private theorem unitStatements : Captures input true rules.unitStatements :=
  aside (fun _ => ⟨_, _, rfl, rfl, rfl⟩) fun _ => ite (pure _)
    (bind (calls .statement) fun _ => bind (calls .unitStatements) fun _ =>
      pure _)

private theorem bracedStatements : Captures input true rules.bracedStatements :=
  bracedItems (calls .statement) (calls .bracedStatements)

theorem unit : Captures input true rules.unit :=
  aside (fun _ => ⟨_, _, rfl, rfl, rfl⟩) fun _ =>
    aside (fun _ => ⟨_, _, rfl, rfl, rfl⟩) fun _ =>
    bind (calls .unitStatements) fun _ =>
      aside (fun _ => ⟨_, _, rfl, rfl, rfl⟩) fun _ =>
      addStmt rfl _

private theorem initializer? : Captures input true rules.initializer? :=
  eat (bind (calls.initializer _) fun _ => pure _) (pure _)

private theorem typeAndInitializer :
    Captures input true rules.typeAndInitializer :=
  bind (calls.declaredType _) fun _ => bind calls.initializer? fun _ => pure _

private theorem inferredOrTyped : Captures input true rules.inferredOrTyped :=
  check
    (aside (fun _ => ⟨_, _, rfl, rfl, rfl⟩) fun _ =>
      bind (addType rfl _) fun _ =>
      bind calls.initializer? fun _ => pure _)
    calls.typeAndInitializer

omit calls in
private theorem initializerDefinition (initializer? : Option ExprId) :
    Captures input capturing (Rules.initializerDefinition initializer?) := by
  cases initializer? with
  | some expr => exact aside (fun _ => ⟨_, _, rfl, rfl, rfl⟩) fun _ =>
      addDefinition _ _
  | none => exact aside (fun _ => ⟨_, _, rfl, rfl, rfl⟩) fun _ =>
      addDefinition _ _

omit calls in
/-- A declaration is added and bound behind what was read of it. -/
private theorem declared
    (name : NameId)
    (specifiers : Specifiers)
    (form : DeclForm)
    (start : Span) :
    Captures input capturing (Parser.spanFrom start >>= fun span =>
      Parser.addDecl name specifiers form span >>= fun decl =>
        Parser.bindDecl decl >>= fun _ => Pure.pure decl) :=
  spanned _ fun _ => bind (addDecl _ _ _ _) fun _ =>
    aside (fun _ => ⟨_, _, rfl, rfl, rfl⟩) fun _ => pure _

private theorem variableDeclaration :
    Captures input true rules.variableDeclaration :=
  aside (fun _ => ⟨_, _, rfl, rfl, rfl⟩) fun _ =>
    aside (fun _ => ⟨_, _, rfl, rfl, rfl⟩) fun _ =>
    bind (expect _) fun _ => bind identifier fun _ => bind (expect _) fun _ =>
      bind calls.inferredOrTyped fun _ => bind (expect _) fun _ =>
        bind (initializerDefinition _) fun _ =>
          aside (fun _ => ⟨_, _, rfl, rfl, rfl⟩) fun _ =>
          declared _ _ _ _

private theorem superDeclaration : Captures input true rules.superDeclaration :=
  aside (fun _ => ⟨_, _, rfl, rfl, rfl⟩) fun _ =>
    aside (fun _ => ⟨_, _, rfl, rfl, rfl⟩) fun _ =>
    bind (expect _) fun _ => bind (identifierOrPlaceholder _) fun _ =>
      bind (expect _) fun _ =>
      bind calls.typeAndInitializer fun _ => bind (expect _) fun _ =>
        bind (initializerDefinition _) fun _ => declared _ _ _ _

/--
The type of a parameter is captured only if the parameter is not bound at once.
-/
private theorem paramType (bound : Bool) :
    Captures input (!bound) (rules.paramType bound) := by
  cases bound with
  | true =>
      exact eat (calls.call .type rfl)
          (aside (fun _ => ⟨_, _, rfl, rfl, rfl⟩) fun _ =>
        addType rfl _)
  | false =>
      exact eat (calls.declaredType _)
          (aside (fun _ => ⟨_, _, rfl, rfl, rfl⟩) fun _ =>
        addType rfl _)

private theorem param (bound : Bool) :
    Captures input (!bound) (rules.param bound) :=
  aside (fun _ => ⟨_, _, rfl, rfl, rfl⟩) fun _ =>
    bind (calls.call (.paramSpecifiers _) rfl) fun _ => bind identifier fun _ =>
      bind (calls.paramType bound) fun _ => check
        (aside (fun _ => ⟨_, _, rfl, rfl, rfl⟩) fun _ => failAt)
        (spanned _ fun _ => bind (addDecl _ _ _ _) fun _ =>
          ite (aside (fun _ => ⟨_, _, rfl, rfl, rfl⟩) fun _ => pure _) (pure _))

private theorem params (bound : Bool) :
    Captures input (!bound) (rules.params bound) :=
  bind (calls.param bound) fun _ => eat
    (bind (calls (.params bound)) fun _ => pure _) (pure _)

/-- Parameters are captured unless they are bound at once. -/
private theorem callParams (bound : Bool) :
    Captures input true (rules.parse (.params bound)) := by
  cases bound with
  | true => exact calls.call (.params true) rfl
  | false => exact calls (.params false)

private theorem resultType : Captures input true rules.resultType :=
  eat (calls.declaredType _) (aside (fun _ => ⟨_, _, rfl, rfl, rfl⟩) fun _ =>
    addType rfl _)

private theorem signature : Captures input true rules.signature :=
  bind (expect _) fun _ => aside (fun _ => ⟨_, _, rfl, rfl, rfl⟩) fun _ =>
    bind (orNone _ (calls.callParams _)) fun _ => bind (expect _) fun _ =>
      bind calls.resultType fun _ => pure _

omit calls in
private theorem keywordDefinition (keyword : Keyword) (form : DefForm) :
    Captures input capturing (Rules.keywordDefinition keyword form) :=
  bind (expect _) fun _ => bind (expect _) fun _ => pure _

private theorem expressionBody : Captures input true rules.expressionBody :=
  bind (calls.initializer _) fun _ => bind (expect _) fun _ => pure _

private theorem assignedDefinition :
    Captures input true rules.assignedDefinition := by
  refine aside (fun _ => ⟨_, _, rfl, rfl, rfl⟩) fun behind =>
    bind skip fun _ => ?_
  split
  · exact keywordDefinition _ _
  · exact keywordDefinition _ _
  · exact calls.expressionBody

include closed

private theorem functionDefinitionForm :
    Captures input true rules.functionDefinitionForm := by
  refine peekKind fun kind => ?_
  split
  · exact bind (bracedBody closed calls.currentBlock) fun _ => pure _
  · exact bind skip fun _ => pure _
  · exact calls.assignedDefinition
  · exact calls.expressionBody

private theorem functionDefinition :
    Captures input true rules.functionDefinition :=
  aside (fun _ => ⟨_, _, rfl, rfl, rfl⟩) fun _ =>
    bind (functionDefinitionForm closed calls) fun _ => spanned _ fun _ =>
      addDefinition _ _

omit closed in
private theorem callable
    (role : CallableRole)
    (start : Span)
    (specifiers : Specifiers)
    {definition : Parser DefId} (captures : Captures input true definition) :
    Captures input true (rules.callable role start specifiers definition) :=
  bind identifier fun _ => bind (eaten _) fun _ =>
    bind (addDecl _ _ _ _) fun _ =>
    aside (fun _ => ⟨_, _, rfl, rfl, rfl⟩) fun _ =>
      aside (fun _ => ⟨_, _, rfl, rfl, rfl⟩) fun _ =>
      bind (within _ (bind calls.signature fun _ => bind captures fun _ =>
        pure _)) fun _ =>
        spanned _ fun _ => bind (completeDecl _ _ _) fun _ => pure _

private theorem functionDeclaration :
    Captures input true rules.functionDeclaration :=
  aside (fun _ => ⟨_, _, rfl, rfl, rfl⟩) fun _ =>
    aside (fun _ => ⟨_, _, rfl, rfl, rfl⟩) fun _ =>
    bind (expect _) fun _ => aside (fun _ => ⟨_, _, rfl, rfl, rfl⟩) fun _ =>
      calls.callable _ _ _ (functionDefinition closed calls)

private theorem coroutineDefinition :
    Captures input true rules.coroutineDefinition :=
  peek fun _ => ite (functionDefinition closed calls) fail

private theorem coroutineDeclaration :
    Captures input true rules.coroutineDeclaration :=
  aside (fun _ => ⟨_, _, rfl, rfl, rfl⟩) fun _ =>
    aside (fun _ => ⟨_, _, rfl, rfl, rfl⟩) fun _ =>
    bind (expect _) fun _ =>
      calls.callable _ _ _ (coroutineDefinition closed calls)

omit closed in
private theorem classKind : Captures input true rules.classKind := by
  refine peekKind fun kind => ?_
  split
  · exact aside (fun _ => ⟨_, _, rfl, rfl, rfl⟩) fun _ => addType rfl _
  · exact aside (fun _ => ⟨_, _, rfl, rfl, rfl⟩) fun _ => addType rfl _
  · exact calls.declaredType _

private theorem classDefinition (decl : DeclId) :
    Captures input true (rules.classDefinition decl) :=
  aside (fun _ => ⟨_, _, rfl, rfl, rfl⟩) fun _ => eat
    (spanned _ fun _ => addDefinition _ _)
    (aside (fun _ => ⟨_, _, rfl, rfl, rfl⟩) fun _ =>
      bind (within _ (bracedBody closed calls.memberBody)) fun _ =>
        spanned _ fun _ => addDefinition _ _)

private theorem classDeclaration : Captures input true rules.classDeclaration :=
  aside (fun _ => ⟨_, _, rfl, rfl, rfl⟩) fun _ =>
    aside (fun _ => ⟨_, _, rfl, rfl, rfl⟩) fun _ =>
    bind (expect _) fun _ => bind identifier fun _ => bind (eaten _) fun _ =>
      bind (calls.call (.classSpecifiers _) rfl) fun _ =>
        bind (addDecl _ _ _ _) fun _ =>
        aside (fun _ => ⟨_, _, rfl, rfl, rfl⟩) fun _ =>
          bind calls.classKind fun _ =>
          bind (classDefinition closed calls _) fun _ => spanned _ fun _ =>
            bind (completeDecl _ _ _) fun _ => pure _

omit closed in
private theorem namespaceDeclaration :
    Captures input true rules.namespaceDeclaration :=
  aside (fun _ => ⟨_, _, rfl, rfl, rfl⟩) fun _ =>
    aside (fun _ => ⟨_, _, rfl, rfl, rfl⟩) fun _ =>
    bind (expect _) fun _ => bind identifier fun _ =>
      bind (addDecl _ _ _ _) fun _ =>
      aside (fun _ => ⟨_, _, rfl, rfl, rfl⟩) fun _ =>
        aside (fun _ => ⟨_, _, rfl, rfl, rfl⟩) fun _ =>
          bind (within _ calls.memberBody) fun _ =>
          spanned _ fun _ => bind (completeDecl _ _ _) fun _ => pure _

omit closed in
private theorem specifiers : Captures input capturing rules.specifiers := by
  refine peekKind fun kind => ?_
  split
  · exact bind skip fun _ => bind (retrack _) fun _ =>
      calls.call .specifiers rfl
  · exact pure _

omit closed in
private theorem paramSpecifiers (read : Specifiers) :
    Captures input capturing (rules.paramSpecifiers read) := by
  refine peekKind fun kind => ?_
  split
  · exact bind skip fun _ => calls.call (.paramSpecifiers _) rfl
  · exact pure _

omit closed in
private theorem classSpecifiers (read : Specifiers) :
    Captures input capturing (rules.classSpecifiers read) :=
  eat (calls.call (.classSpecifiers _) rfl) (pure _)

private theorem declaration : Captures input true rules.declaration := by
  refine bind (calls.call .specifiers rfl) fun _ => peek fun token => ?_
  split
  · exact calls.variableDeclaration
  · exact functionDeclaration closed calls
  · exact coroutineDeclaration closed calls
  · exact classDeclaration closed calls
  · exact calls.superDeclaration
  · exact calls.conceptDeclaration
  · exact calls.templateDeclaration
  · exact calls.namespaceDeclaration
  · exact failAt

private theorem produce : Rules.Capturing { parse := rules.produce } input := by
  intro Value nonterminal
  cases nonterminal with
  | type => exact calls.type
  | unaryType => exact calls.unaryType
  | typeSuffixes start base => exact calls.typeSuffixes start base
  | listedTypes afterComma => exact calls.listedTypes afterComma
  | templateArgs => exact calls.templateArgs
  | tier tier => exact calls.tiered tier
  | operations tier left => exact calls.operations tier left
  | unary => exact calls.unary
  | postfixes start object => exact calls.postfixes start object
  | expressions => exact calls.expressions
  | requirements => exact calls.requirements
  | statement => exact calls.statement
  | unitStatements => exact calls.unitStatements
  | bracedStatements => exact calls.bracedStatements
  | declaration => exact declaration closed calls
  | specifiers => exact calls.specifiers
  | paramSpecifiers read => exact calls.paramSpecifiers read
  | classSpecifiers read => exact calls.classSpecifiers read
  | params bound => exact calls.params bound
  | templateParams => exact calls.templateParams
  | conceptMembers => exact calls.conceptMembers

end Capturing

/-- Whatever the bound on nested calls, the grammar captures what it stores. -/
theorem nested_capturing
    {input : ParserInput}
    (closed : input.window.Closed)
    (depth : Nat) :
    (nested depth).Capturing input := by
  induction depth with
  | zero => exact fun _ _ => trivial
  | succ depth inductionHypothesis =>
      exact Capturing.produce closed inductionHypothesis

end Rules

end Tern
