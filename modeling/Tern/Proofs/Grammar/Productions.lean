import Tern.Proofs.Grammar.Production

namespace Tern

/-!
# The grammar is made of productions

Every production is derived from the steps it is put together from, in the
order of the grammar.
-/

namespace Production

variable {place : Place}

private theorem expression (smaller : 10 < place.rank) :
    Production place (fun _ => true) Rules.expression :=
  callSmaller (.tier .or) rfl smaller

theorem expressionBehind (behind : place.rank = Parser.ranks) :
    Production place (fun _ => true) Rules.expression :=
  callBehind (.tier .or) rfl behind

theorem orNone
    {Value : Type}
    (closer : TokenKind)
    (items : Nonterminal (List Value))
    (plain : (items.settled && !items.inTemplate) = true)
      (smaller : items.rank < place.rank) :
    Production place (fun _ => false)
      (fun rules => rules.orNone closer items) :=
  check (pure rfl) fun _ => maybe (callSmaller items plain smaller)

private theorem declaredType
    (terminators : List TokenKind)
    (smaller : 1 < place.rank) :
    Production place (fun _ => false)
      (fun rules => rules.declaredType terminators) :=
  bind defers fun _ => ite
    (bind (captureTo _) fun _ => ite
      (peek fun _ => failAt rfl)
      (bind (spanOfRange _) fun _ => addType _ _))
    (maybe (callSmaller .type rfl smaller))

private theorem initializer
    (terminators : List TokenKind)
    (smaller : 10 < place.rank) :
    Production place (fun _ => false)
      (fun rules => rules.initializer terminators) :=
  bind defers fun _ => ite
    (bind (captureTo _) fun _ => ite
      (peek fun _ => failAt rfl)
      (bind (spanOfRange _) fun _ => addExpr _ _))
    (maybe (expression smaller))

private theorem bracedBody {body : Rules → Parser StmtId}
    (production : Production (place.after false) (fun _ => true) body) :
    Production place (fun _ => true)
      (fun rules => Parser.bracedBody (body rules)) :=
  bind defers fun _ => ite
    (bind captureBraces fun _ => bind (spanOfRange _) fun _ => addStmt _ _)
    production

theorem args (smaller : 4 < place.rank) :
    Production place (fun _ => true) (fun rules => rules.angledArgs) := by
  by_cases settled : place.settled = true
  · exact angledArgs settled smaller
  · have listed : Production place (fun _ => false)
        (fun rules => rules.orNone (.symbol .greater) .templateArgs) :=
      check (pure rfl) fun _ =>
        maybe (call .templateArgs smaller nofun fun is => absurd is settled)
    exact bind listed fun _ => bind (expect nofun) fun _ => pure rfl

private theorem appliedName (decl : DeclId) (name : Name) (span : Span) :
    Production place (fun _ => false)
      (fun rules => rules.appliedName decl name span) :=
  eat nofun
    (bind (args (by decide : 4 < Parser.ranks)) fun _ =>
      bind (spanFrom _) fun _ => addName _ _)
    fun _ => addName _ _

theorem nameOf (decl : DeclId) (takesArgs : Bool) (name : Name) (span : Span) :
    Production place (fun _ => false)
      (fun rules => rules.nameOf decl takesArgs name span) :=
  ite (appliedName decl name span) (addName _ _)

private theorem namedType :
    Production place (fun _ => true) (fun rules => rules.namedType) := by
  refine bind expectIdentifier fun named => bind (lookup? _) fun found => ?_
  cases found with
  | none =>
      exact bind (textOf _) fun _ => failAt rfl
  | some decls =>
      refine bind arena fun arena => ?_
      cases arena.typeAmong? decls with
      | none =>
          exact bind (textOf _) fun _ => failAt rfl
      | some decl =>
          exact bind (nameOf _ _ _ _) fun _ => bind (spanFrom _) fun _ =>
            addType _ _

theorem parenthesizedType :
    Production place (fun _ => true)
      (fun rules => rules.parenthesizedType) := by
  refine peekSpan fun start => bind (expect nofun) fun _ =>
    bind (callBehind (.listedTypes _) rfl rfl) fun listed =>
      bind (expect nofun) fun _ => eat nofun
      (bind (callBehind .type rfl rfl) fun _ => bind (spanFrom _) fun _ =>
        addType _ _) fun _ => ?_
  split
  · exact pure rfl
  · exact bind (spanFrom _) fun _ => addType _ _

theorem decltype (unread : place.unread) :
    Production place (fun _ => true) (fun rules => rules.decltype) :=
  peekSpan fun _ => bind (skip unread) fun _ => bind (expect nofun) fun _ =>
    bind (expressionBehind rfl) fun _ => bind (expect nofun) fun _ =>
      bind (spanFrom _) fun _ => addType _ _

theorem primaryType :
    Production place (fun _ => true) (fun rules => rules.primaryType) := by
  refine peek fun token => ?_
  split
  next =>
    exact namedType
  next =>
    exact parenthesizedType
  next same =>
    exact decltype (by simp [Place.facing, same])
  next =>
    split
    next named =>
      exact bind (skip
          (by rintro same; simp [same, BuiltinType.ofKind?] at named)) fun _ =>
        addType _ _
    next =>
      exact failAt rfl

theorem typeSuffix? (base : TypeId) :
    Production place Option.isSome (fun rules => rules.typeSuffix? base) := by
  refine peekKind fun kind => ?_
  split
  next =>
    exact bind (skip nofun) fun _ => pure rfl
  next =>
    exact bind (skip nofun) fun _ => pure rfl
  next =>
    exact bind (skip nofun) fun _ => eat nofun (pure rfl) fun _ =>
      bind (expressionBehind rfl) fun _ => bind (expect nofun) fun _ => pure rfl
  next =>
    split
    next qualifies =>
      exact bind
          (skip (by rintro same; simp [same, Qualifiers.ofKind?] at qualifies))
          fun _ =>
        pure rfl
    next =>
      exact pure rfl

private theorem typeSuffixes (start : Span) (base : TypeId) :
    Production place (fun _ => false)
      (fun rules => rules.typeSuffixes start base) := by
  refine bind (typeSuffix? base) fun form? => ?_
  cases form? with
  | some form =>
      exact bind (spanFrom _) fun _ => bind (addType _ _) fun _ =>
        maybe (callBehind (.typeSuffixes _ _) rfl rfl)
  | none =>
      exact pure rfl

theorem unaryType :
    Production place (fun _ => true) (fun rules => rules.unaryType) := by
  refine peek fun token => ?_
  split
  next qualifies =>
    exact bind (skip
        (by rintro same; simp [same, Qualifiers.ofKind?] at qualifies)) fun _ =>
      bind (callBehind .unaryType rfl rfl) fun _ => bind (spanFrom _) fun _ =>
        addType _ _
  next =>
    exact bind primaryType fun _ =>
      maybe (callBehind (.typeSuffixes _ _) rfl rfl)

theorem type (smaller : 0 < place.rank) :
    Production place (fun _ => true) (fun rules => rules.type) :=
  peekSpan fun _ => bind (callSmaller .unaryType rfl smaller) fun _ =>
    eat nofun (bind (spanFrom _) fun _ => addType _ _) fun _ => pure rfl

private theorem listedTypes (afterComma : Bool) (smaller : 1 < place.rank) :
    Production place (fun _ => false)
      (fun rules => rules.listedTypes afterComma) :=
  check (pure rfl) fun _ => bind (callSmaller .type rfl smaller) fun _ =>
    eat nofun
    (bind (callBehind (.listedTypes _) rfl rfl) fun _ => pure rfl) fun _ =>
      pure rfl

theorem operand (tier : Tier) (smaller : tier.rank ≤ place.rank) :
    Production place (fun _ => true) (fun rules => rules.operand tier) := by
  unfold Rules.operand
  cases next : tier.tighter? with
  | some tighter =>
      exact callSmaller (.tier tighter) rfl
        (Nat.lt_of_lt_of_le (Tier.rank_lt_of_tighter? next) smaller)
  | none =>
      exact callSmaller .unary rfl (Nat.lt_of_lt_of_le tier.rank_pos smaller)

private theorem operations (tier : Tier) (left : ExprId) :
    Production place (fun _ => false)
      (fun rules => rules.operations tier left) := by
  refine peekKind fun kind => ?_
  cases found : BinaryOp.ofKind? tier kind with
  | none =>
      exact pure rfl
  | some op =>
      have isSymbol := List.find?_some found
      exact bind (skip (by rintro rfl; simp at isSymbol)) fun _ =>
        bind (operand tier (Nat.le_of_lt (Nonterminal.rank_lt (.tier tier))))
            fun _ =>
          bind arena fun _ => bind (addExpr _ _) fun _ =>
            maybe (callBehind (.operations _ _) rfl rfl)

private theorem tiered (tier : Tier) (smaller : tier.rank ≤ place.rank) :
    Production place (fun _ => true) (fun rules => rules.tiered tier) :=
  bind (operand tier smaller) fun _ =>
    maybe (callBehind (.operations _ _) rfl rfl)

private theorem expressions (smaller : 10 < place.rank) :
    Production place (fun _ => true) (fun rules => rules.expressions) :=
  bind (expression smaller) fun _ => eat nofun
    (bind (callBehind .expressions rfl rfl) fun _ => pure rfl) fun _ => pure rfl

theorem closedExpressions (behind : place.rank = Parser.ranks) :
    Production place (fun _ => true) (fun rules => rules.closedExpressions) :=
  bind (orNone _ .expressions rfl (behind ▸ Nonterminal.rank_lt _)) fun _ =>
    bind (expect nofun) fun _ => pure rfl

private theorem namedExpression :
    Production place (fun _ => true) (fun rules => rules.namedExpression) := by
  refine bind expectIdentifier fun named => bind (lookup? _) fun found => ?_
  split
  · exact bind (textOf _) fun _ => failAt rfl
  · exact bind arena fun _ => bind (nameOf _ _ _ _) fun _ =>
      bind (spanFrom _) fun _ => addExpr _ _
  · exact bind (addName _ _) fun _ => bind (spanFrom _) fun _ => addExpr _ _

theorem parenthesizedExpression :
    Production place (fun _ => true)
      (fun rules => rules.parenthesizedExpression) :=
  peekSpan fun _ => bind (expect nofun) fun _ => eat nofun
    (bind (spanFrom _) fun _ => addExpr _ _)
    fun _ => bind (expressionBehind rfl) fun _ => eat nofun (pure rfl) fun _ =>
      bind (expect nofun) fun _ => bind (closedExpressions rfl) fun _ =>
        bind (spanFrom _) fun _ => addExpr _ _

theorem requiresParams :
    Production place (fun _ => false) (fun rules => rules.requiresParams) :=
  eat nofun
    (bind (orNone _ (.params true) rfl (Nonterminal.rank_lt _)) fun _ =>
      bind (expect nofun) fun _ => pure rfl)
    fun _ => pure rfl

theorem requiresBody :
    Production place (fun _ => true) (fun rules => rules.requiresBody) :=
  bind requiresParams fun _ => bind (expect nofun) fun _ =>
    bind (callBehind .requirements rfl rfl) fun _ => pure rfl

theorem requiresExpression :
    Production place (fun _ => true) (fun rules => rules.requiresExpression) :=
  peekSpan fun _ => bind (expect nofun) fun _ => bind (pushScope _) fun _ =>
    bind (within _ requiresBody) fun _ => bind (spanFrom _) fun _ => addExpr _ _

private theorem literal (form : ExprForm) (unread : place.unread) :
    Production place (fun _ => true) (fun _ => Rules.literal form) :=
  bind (advance unread) fun _ => addExpr _ _

theorem primary :
    Production place (fun _ => true) (fun rules => rules.primary) := by
  refine peek fun token => ?_
  split
  next same =>
    exact literal _ (by simp [Place.facing, same])
  next same =>
    exact literal _ (by simp [Place.facing, same])
  next same =>
    exact literal _ (by simp [Place.facing, same])
  next =>
    exact namedExpression
  next =>
    exact parenthesizedExpression
  next =>
    exact requiresExpression
  next =>
    exact failAt rfl

theorem postfix? (object : ExprId) :
    Production place Option.isSome (fun rules => rules.postfix? object) := by
  refine peekKind fun kind => ?_
  split
  next =>
    exact bind (skip nofun) fun _ => bind (closedExpressions rfl) fun _ =>
      pure rfl
  next =>
    exact bind (skip nofun) fun _ => bind identifier fun _ => pure rfl
  next =>
    exact bind (skip nofun) fun _ => bind (expressionBehind rfl) fun _ =>
      bind (expect nofun) fun _ => pure rfl
  next =>
    exact pure rfl

private theorem postfixes (start : Span) (object : ExprId) :
    Production place (fun _ => false)
      (fun rules => rules.postfixes start object) := by
  refine bind (postfix? object) fun form? => ?_
  cases form? with
  | some form =>
      exact bind (spanFrom _) fun _ => bind (addExpr _ _) fun _ =>
        maybe (callBehind (.postfixes _ _) rfl rfl)
  | none =>
      exact pure rfl

theorem unary :
    Production place (fun _ => true) (fun rules => rules.unary) := by
  refine peek fun token => ?_
  cases found : UnaryOp.ofKind? token.kind with
  | some op =>
      have isSymbol := List.find?_some found
      exact bind (skip (by intro same; simp [same] at isSymbol)) fun _ =>
        bind (callBehind .unary rfl rfl) fun _ => bind (spanFrom _) fun _ =>
          addExpr _ _
  | none =>
      exact bind primary fun _ => maybe (callBehind (.postfixes _ _) rfl rfl)

theorem declarationStatement (smaller : 1 < place.rank) :
    Production place (fun _ => true)
      (fun rules => rules.declarationStatement) :=
  peekSpan fun _ => bind (callSmaller .declaration rfl smaller) fun _ =>
    bind (spanFrom _) fun _ => addStmt _ _

private theorem expressionToSemicolon (smaller : 10 < place.rank) :
    Production place (fun _ => true)
      (fun rules => rules.expressionToSemicolon) :=
  bind (expression smaller) fun _ => bind (expect nofun) fun _ => pure rfl

private theorem expressionStatement (smaller : 10 < place.rank) :
    Production place (fun _ => true) (fun rules => rules.expressionStatement) :=
  peekSpan fun _ => bind (expressionToSemicolon smaller) fun _ =>
    bind (spanFrom _) fun _ => addStmt _ _

private theorem valueStatement (role : ValueRole) (unread : place.unread) :
    Production place (fun _ => true) (fun rules => rules.valueStatement role) :=
  bind (advance unread) fun _ =>
    bind (expressionToSemicolon (by decide : 10 < Parser.ranks))
    fun _ => bind (spanFrom _) fun _ => addStmt _ _

private theorem condition :
    Production place (fun _ => true) (fun rules => rules.condition) :=
  bind (expect nofun) fun _ => bind (expressionBehind rfl) fun _ =>
    bind (expect nofun) fun _ =>
    pure rfl

private theorem otherwise? :
    Production place (fun _ => false) (fun rules => rules.otherwise?) :=
  eat nofun (bind (callBehind .statement rfl rfl) fun _ => pure rfl) fun _ =>
    pure rfl

private theorem branchStatement (unread : place.unread) :
    Production place (fun _ => true) (fun rules => rules.branchStatement) :=
  bind (advance unread) fun _ => bind condition fun _ =>
    bind (callBehind .statement rfl rfl) fun _ => bind otherwise? fun _ =>
      bind (spanFrom _) fun _ => addStmt _ _

private theorem loopStatement (unread : place.unread) :
    Production place (fun _ => true) (fun rules => rules.loopStatement) :=
  bind (advance unread) fun _ => bind condition fun _ =>
    bind (callBehind .statement rfl rfl) fun _ => bind (spanFrom _) fun _ =>
      addStmt _ _

private theorem jumpStatement (jump : Jump) (unread : place.unread) :
    Production place (fun _ => true) (fun _ => Rules.jumpStatement jump) :=
  bind (advance unread) fun _ => bind (expect nofun) fun _ =>
    bind (spanFrom _) fun _ =>
    addStmt _ _

private theorem emptyStatement (unread : place.unread) :
    Production place (fun _ => true) (fun _ => Rules.emptyStatement) :=
  bind (advance unread) fun _ => bind (spanFrom _) fun _ => addStmt _ _

theorem blockIn (scope : ScopeId) :
    Production place (fun _ => true) (fun rules => rules.blockIn scope) :=
  peekSpan fun _ => bind (expect nofun) fun _ =>
    bind (within _ (callBehind .bracedStatements rfl rfl)) fun _ =>
      bind (spanFrom _) fun _ => addStmt _ _

theorem blockStatement :
    Production place (fun _ => true) (fun rules => rules.blockStatement) :=
  bind (pushScope _) fun _ => blockIn _

theorem currentBlock :
    Production place (fun _ => true) (fun rules => rules.currentBlock) :=
  bind currentScope fun _ => blockIn _

theorem memberBody :
    Production place (fun _ => true) (fun rules => rules.memberBody) :=
  peekSpan fun _ => bind currentScope fun _ => bind (expect nofun) fun _ =>
    bind (callBehind .bracedStatements rfl rfl) fun _ =>
      bind (spanFrom _) fun _ => addStmt _ _

private theorem tryDeclaration
    (ordered : place.settled = true →
      EndsNoLater Rules.declarationStatement Rules.expressionStatement)
    (smaller : 10 < place.rank) :
    Production place (fun _ => true) (fun rules => rules.tryDeclaration) :=
  either (declarationStatement (Nat.lt_trans (by decide : 1 < 10) smaller))
    (expressionStatement smaller) ordered

private theorem keywordStatement
    (ordered : place.settled = true →
      EndsNoLater Rules.declarationStatement Rules.expressionStatement)
    (keyword : Keyword) (unread : place.unread) (smaller : 10 < place.rank) :
    Production place (fun _ => true)
      (fun rules => rules.keywordStatement keyword) := by
  unfold Rules.keywordStatement
  split
  · exact valueStatement _ unread
  · exact valueStatement _ unread
  · exact branchStatement unread
  · exact loopStatement unread
  · exact jumpStatement _ unread
  · exact jumpStatement _ unread
  · exact ite (declarationStatement (Nat.lt_trans (by decide) smaller))
      (tryDeclaration ordered smaller)

private theorem statement
    (ordered : place.settled = true →
      EndsNoLater Rules.declarationStatement Rules.expressionStatement)
    (smaller : 10 < place.rank) :
    Production place (fun _ => true) (fun rules => rules.statement) := by
  refine peekKind fun kind => ?_
  split
  · exact @keywordStatement (place.facing _) ordered _ nofun smaller
  · exact blockStatement
  · exact emptyStatement nofun
  · exact @tryDeclaration (place.facing _) ordered smaller

private theorem unitStatements
    (unsettled : place.settled = false)
    (smaller : 11 < place.rank) :
    Production place (fun _ => false) (fun rules => rules.unitStatements) :=
  peekEnd
    (fun _ => ite (pure rfl) (bind (callSmaller .statement rfl smaller) fun _ =>
      bind (call .unitStatements (Nonterminal.rank_lt _) nofun
        fun (settled : place.settled = true) =>
          by simp [unsettled] at settled) fun _ => pure rfl))
    (by simp [unsettled])

theorem moreItems
    {Item : Type}
    {item : Rules → Parser Item}
    (rest : Nonterminal (List Item))
    (plain : (rest.settled && !rest.inTemplate) = true)
    (production : Production place (fun _ => true) item) :
    Production place (fun _ => true)
      (fun rules => rules.moreItems (item rules) rest) :=
  peekEnd
    (fun _ => ite (peekSpan fun _ => failAt rfl)
      (bind production fun _ =>
        bind (maybe (callBehind rest plain rfl)) fun _ => pure rfl))
    (fun _ _ => rfl)

private theorem bracedItems
    {Item : Type}
    {item : Rules → Parser Item}
    (rest : Nonterminal (List Item))
    (plain : (rest.settled && !rest.inTemplate) = true)
    (production : ∀ other, Production (place.facing other) (fun _ => true)
      item) :
    Production place (fun _ => true)
      (fun rules => rules.bracedItems (item rules) rest) :=
  eat nofun (pure rfl) fun other => moreItems rest plain (production other)

private theorem bracedStatements (smaller : 11 < place.rank) :
    Production place (fun _ => true) (fun rules => rules.bracedStatements) :=
  bracedItems _ rfl fun _ => callSmaller .statement rfl smaller

theorem unit (unsettled : place.settled = false) (smaller : 12 < place.rank) :
    Production place (fun _ => false) (fun rules => rules.unit) :=
  peekSpan fun _ => bind currentScope fun _ =>
    bind (call .unitStatements smaller nofun
      fun (settled : place.settled = true) =>
        by simp [unsettled] at settled) fun _ =>
        peekSpan fun _ => addStmt _ _

private theorem defaultType? :
    Production place (fun _ => false) (fun rules => rules.defaultType?) :=
  eat nofun (bind (callBehind .type rfl rfl) fun _ => pure rfl) fun _ =>
    pure rfl

private theorem templateParam (inTemplate : place.inTemplate = true) :
    Production place (fun _ => true) (fun rules => rules.templateParam) :=
  peekSpan fun _ => bind (expect nofun) fun _ =>
    bind (identifierOrPlaceholder _) fun _ =>
    bind defaultType? fun _ => inContext inTemplate fun _ =>
      bind (spanFrom _) fun _ =>
      addDecl _ _ _ _ fun _ => bind (bindDecl _) fun _ => retemplate _

private theorem templateParams (inTemplate : place.inTemplate = true) :
    Production place (fun _ => true) (fun rules => rules.templateParams) :=
  bind (templateParam inTemplate) fun _ => eat nofun
    (maybe (call .templateParams (Nonterminal.rank_lt _) (fun _ => inTemplate)
      fun _ => rfl))
    fun _ => pure rfl

private theorem templateParamsOrNone
    (inTemplate : place.inTemplate = true)
    (smaller : 0 < place.rank) :
    Production place (fun _ => false)
      (fun rules => rules.templateParamsOrNone) :=
  check (pure rfl) fun _ =>
    maybe (call .templateParams smaller (fun _ => inTemplate) fun _ => rfl)

private theorem templateParamClause (inTemplate : place.inTemplate = true) :
    Production place (fun _ => true) (fun rules => rules.templateParamClause) :=
  bind (expect nofun) fun _ =>
    bind (templateParamsOrNone inTemplate (by decide : 0 < Parser.ranks))
        fun _ =>
      maybe (expect nofun)

private theorem templateConstraint :
    Production place (fun _ => false) (fun rules => rules.templateConstraint) :=
  eat nofun (bind (callBehind (.tier .or) rfl rfl) fun _ => retemplate _)
    fun _ => pure rfl

private theorem templateBody :
    Production { place with inTemplate := true } (fun _ => true)
      (fun rules => rules.templateBody) :=
  bind (templateParamClause rfl) fun _ => bind templateConstraint fun _ =>
    maybe (callBehind .declaration rfl rfl)

theorem templateDeclaration :
    Production place (fun _ => true) (fun rules => rules.templateDeclaration) :=
  peekSpan fun _ => bind (expect nofun) fun _ => addDecl _ _ _ _ fun _ =>
    bind (scopeFor _ _) fun _ =>
      bind (within _ (withTemplate _ templateBody)) fun ended =>
        bind (spanFrom _) fun span =>
        bind (updateDecl List.mem_cons_self fun arena old =>
          { old with
            name := (arena.decl ended.1).name
            span := span
            form := .template ended.2.parms ended.2.constraint? ended.1 })
              fun _ =>
          bind (bindDecl _) fun _ => pure rfl

private theorem requirementOf {form : Rules → Parser ReqForm}
    (production : Production place (fun _ => false) form) :
    Production place (fun _ => true)
      (fun rules => Rules.requirementOf (form rules)) :=
  peekSpan fun _ => bind production fun _ => bind (expect nofun) fun _ =>
    bind (spanFrom _) fun _ => addRequirement _ _

private theorem typeRequirement (unread : place.unread) :
    Production place (fun _ => true) (fun rules => rules.typeRequirement) :=
  bind (skip unread) fun _ => bind (callBehind .type rfl rfl) fun _ => pure rfl

private theorem expressionRequirement (smaller : 10 < place.rank) :
    Production place (fun _ => true)
      (fun rules => rules.expressionRequirement) :=
  bind (expression smaller) fun _ => eat nofun
    (bind (callBehind .type rfl rfl) fun _ => pure rfl)
    fun _ => eat nofun (bind (callBehind .type rfl rfl) fun _ => pure rfl)
      fun _ => pure rfl

theorem requirement (smaller : 10 < place.rank) :
    Production place (fun _ => true) (fun rules => rules.requirement) :=
  requirementOf (check (maybe (typeRequirement nofun)) fun _ =>
    maybe (expressionRequirement smaller))

private theorem requirements (smaller : 10 < place.rank) :
    Production place (fun _ => true) (fun rules => rules.requirements) :=
  bracedItems _ rfl fun _ => requirement smaller

theorem syntacticRequirement :
    Production place (fun _ => true)
      (fun rules => rules.syntacticRequirement) :=
  requirementOf (bind (expect nofun) fun _ =>
    bind (expressionBehind rfl) fun _ => pure rfl)

private theorem plainConceptMember (smaller : 10 < place.rank) :
    Production place (fun _ => true) (fun rules => rules.plainConceptMember) :=
  requirementOf (check (maybe (typeRequirement nofun)) fun _ =>
    bind (expression smaller) fun _ => pure rfl)

theorem conceptMember
    (ordered : place.settled = true →
      EndsNoLater Rules.syntacticRequirement Rules.plainConceptMember)
    (smaller : 10 < place.rank) :
    Production place (fun _ => true) (fun rules => rules.conceptMember) :=
  check (either syntacticRequirement (plainConceptMember smaller) fun settled =>
    ordered settled)
    fun _ => plainConceptMember smaller

private theorem conceptMembers
    (ordered : place.settled = true →
      EndsNoLater Rules.syntacticRequirement Rules.plainConceptMember)
    (smaller : 10 < place.rank) :
    Production place (fun _ => true) (fun rules => rules.conceptMembers) :=
  bracedItems _ rfl fun _ =>
    conceptMember (fun settled => ordered settled) smaller

private theorem conceptDefinition :
    Production place (fun _ => true) (fun rules => rules.conceptDefinition) :=
  peekSpan fun _ => eat nofun
    (bind (expressionToSemicolon (by decide : 10 < Parser.ranks)) fun _ =>
      bind (spanFrom _) fun _ => addDefinition _ _)
    fun _ => bind (expect nofun) fun _ =>
      bind (callBehind .conceptMembers rfl rfl) fun _ =>
      bind (spanFrom _) fun _ => addDefinition _ _

private theorem conceptBody :
    Production place (fun _ => true) (fun rules => rules.conceptBody) :=
  bind (withTemplate _ (templateParamClause rfl)) fun _ =>
    bind (maybe conceptDefinition) fun _ =>
    pure rfl

theorem conceptDeclaration :
    Production place (fun _ => true) (fun rules => rules.conceptDeclaration) :=
  peekSpan fun _ => bind takeSpecifiers fun _ => bind (expect nofun) fun _ =>
    bind identifier fun _ => addDecl _ _ _ _ fun _ => bind (bindDecl _) fun _ =>
      bind (scopeFor _ _) fun _ => bind (within _ conceptBody) fun _ =>
        bind (spanFrom _) fun _ =>
        bind (completeDecl List.mem_cons_self _ _) fun _ => pure rfl

private theorem specifiers :
    Production place (fun _ => false) (fun rules => rules.specifiers) := by
  refine peekKind fun kind => ?_
  split
  next found =>
    exact bind (skip (by rintro same; simp [same, Specifier.ofKind?] at found))
        fun _ =>
      bind (addSpecifier _) fun _ => maybe (callBehind .specifiers rfl rfl)
  next =>
    exact pure rfl

private theorem paramSpecifiers (read : Specifiers) :
    Production place (fun _ => false)
      (fun rules => rules.paramSpecifiers read) := by
  refine peekKind fun kind => ?_
  split
  next found =>
    exact bind (skip (by rintro same; simp [same, Specifier.ofKind?] at found))
        fun _ =>
      maybe (callBehind (.paramSpecifiers _) rfl rfl)
  next =>
    exact pure rfl

private theorem classSpecifiers (read : Specifiers) :
    Production place (fun _ => false)
      (fun rules => rules.classSpecifiers read) :=
  eat nofun (maybe (callBehind (.classSpecifiers _) rfl rfl)) fun _ => pure rfl

private theorem initializer? :
    Production place (fun _ => false) (fun rules => rules.initializer?) :=
  eat nofun (bind (initializer _ (by decide : 10 < Parser.ranks)) fun _ =>
    pure rfl) fun _ =>
    pure rfl

private theorem typeAndInitializer (smaller : 1 < place.rank) :
    Production place (fun _ => false) (fun rules => rules.typeAndInitializer) :=
  bind (declaredType _ smaller) fun _ => bind initializer? fun _ => pure rfl

private theorem inferredOrTyped (smaller : 1 < place.rank) :
    Production place (fun _ => false) (fun rules => rules.inferredOrTyped) :=
  check (peekSpan fun _ => bind (addType _ _) fun _ =>
    bind initializer? fun _ => pure rfl)
    fun _ => typeAndInitializer smaller

private theorem initializerDefinition (initializer? : Option ExprId) :
    Production place (fun _ => false)
      (fun _ => Rules.initializerDefinition initializer?) := by
  cases initializer? with
  | some expr =>
      exact bind arena fun _ => addDefinition _ _
  | none =>
      exact bind behindPrevious fun _ => addDefinition _ _

theorem variableDeclaration :
    Production place (fun _ => true) (fun rules => rules.variableDeclaration) :=
  peekSpan fun _ => bind takeSpecifiers fun _ => bind (expect nofun) fun _ =>
    bind identifier fun _ => bind (expect nofun) fun _ =>
      bind (inferredOrTyped (by decide : 1 < Parser.ranks)) fun _ =>
        bind (expect nofun) fun _ =>
        bind (initializerDefinition _) fun _ => bind (declaresMember _) fun _ =>
          bind (spanFrom _) fun _ => addDecl _ _ _ _ fun _ =>
            bind (bindDecl _) fun _ => pure rfl

theorem superDeclaration :
    Production place (fun _ => true) (fun rules => rules.superDeclaration) :=
  peekSpan fun _ => bind takeSpecifiers fun _ => bind (expect nofun) fun _ =>
    bind (identifierOrPlaceholder _) fun _ => bind (expect nofun) fun _ =>
      bind (typeAndInitializer (by decide : 1 < Parser.ranks)) fun _ =>
        bind (expect nofun) fun _ =>
        bind (initializerDefinition _) fun _ => bind (spanFrom _) fun _ =>
          addDecl _ _ _ _ fun _ => bind (bindDecl _) fun _ => pure rfl

private theorem paramType (bound : Bool) :
    Production place (fun _ => false) (fun rules => rules.paramType bound) :=
  eat nofun (ite (maybe (callBehind .type rfl rfl))
    (declaredType _ (by decide : 1 < Parser.ranks)))
    fun _ => bind behindPrevious fun _ => addType _ _

private theorem param (bound : Bool) (smaller : 0 < place.rank) :
    Production place (fun _ => true) (fun rules => rules.param bound) :=
  peekSpan fun _ => bind (callSmaller (.paramSpecifiers _) rfl smaller) fun _ =>
    bind identifier fun _ => bind (paramType bound) fun _ =>
      check (peekSpan fun _ => failAt rfl) fun _ => bind (spanFrom _) fun _ =>
        addDecl _ _ _ _ fun _ =>
          ite (bind (bindDecl _) fun _ => pure rfl) (pure rfl)

private theorem params (bound : Bool) (smaller : 0 < place.rank) :
    Production place (fun _ => true) (fun rules => rules.params bound) :=
  bind (param bound smaller) fun _ => eat nofun
    (bind (callBehind (.params _) rfl rfl) fun _ => pure rfl) fun _ => pure rfl

private theorem resultType :
    Production place (fun _ => false) (fun rules => rules.resultType) :=
  eat nofun (declaredType _ (by decide : 1 < Parser.ranks))
    fun _ => bind behindPrevious fun _ => addType _ _

private theorem signature :
    Production place (fun _ => true) (fun rules => rules.signature) :=
  bind (expect nofun) fun _ => bind defers fun _ =>
    bind (orNone _ (.params _) rfl (Nonterminal.rank_lt _)) fun _ =>
      bind (expect nofun) fun _ =>
      bind resultType fun _ => pure rfl

private theorem keywordDefinition (keyword : Keyword) (form : DefForm) :
    Production place (fun _ => true)
      (fun _ => Rules.keywordDefinition keyword form) :=
  bind (expect nofun) fun _ => bind (expect nofun) fun _ => pure rfl

private theorem expressionBody (smaller : 10 < place.rank) :
    Production place (fun _ => true) (fun rules => rules.expressionBody) :=
  bind (initializer _ smaller) fun _ => bind (expect nofun) fun _ => pure rfl

private theorem assignedDefinition (unread : place.unread) :
    Production place (fun _ => true)
      (fun rules => rules.assignedDefinition) := by
  refine peekBehind (fun behind => bind (skip unread) fun _ => ?_) fun _ => rfl
  split
  · exact maybe (keywordDefinition _ _)
  · exact maybe (keywordDefinition _ _)
  · exact maybe (expressionBody (by decide : 10 < Parser.ranks))

private theorem functionDefinitionForm (smaller : 10 < place.rank) :
    Production place (fun _ => true)
      (fun rules => rules.functionDefinitionForm) := by
  refine peekKind fun kind => ?_
  split
  · exact bind (bracedBody currentBlock) fun _ => pure rfl
  · exact bind (skip nofun) fun _ => pure rfl
  · exact assignedDefinition nofun
  · exact expressionBody smaller

private theorem functionDefinition (smaller : 10 < place.rank) :
    Production place (fun _ => true) (fun rules => rules.functionDefinition) :=
  peekSpan fun _ => bind (functionDefinitionForm smaller) fun _ =>
    bind (spanFrom _) fun _ =>
    addDefinition _ _

private theorem eatColon :
    Production place (fun _ => false) (fun _ => Parser.eat (.symbol .colon)) :=
  maybe (eats nofun)

private theorem callableBody {definition : Rules → Parser DefId}
    (production : ∀ {place : Place}, place.rank = Parser.ranks →
      Production place (fun _ => true) definition) :
    Production place (fun _ => true)
      (fun rules => rules.callableBody (definition rules)) :=
  bind signature fun _ => bind (production rfl) fun _ => pure rfl

private theorem callable
    (role : CallableRole)
    (start : Span)
    (specifiers : Specifiers)
    {definition : Rules → Parser DefId}
    (production : ∀ {place : Place}, place.rank = Parser.ranks →
      Production place (fun _ => true) definition) :
    Production place (fun _ => true)
      (fun rules => rules.callable role start specifiers (definition rules)) :=
  bind identifier fun _ => bind eatColon fun _ => addDecl _ _ _ _ fun _ =>
    bind (bindDecl _) fun _ => bind (scopeFor _ _) fun _ =>
      bind (within _ (callableBody production)) fun _ =>
        bind (spanFrom _) fun _ =>
        bind (completeDecl List.mem_cons_self _ _) fun _ => pure rfl

theorem functionDeclaration :
    Production place (fun _ => true) (fun rules => rules.functionDeclaration) :=
  peekSpan fun _ => bind takeSpecifiers fun _ => bind (expect nofun) fun _ =>
    bind (declaresMember _) fun _ => maybe (callable _ _ _ fun behind =>
      functionDefinition (behind ▸ by decide))

private theorem coroutineDefinition (smaller : 10 < place.rank) :
    Production place (fun _ => true) (fun rules => rules.coroutineDefinition) :=
  peek fun _ => ite (functionDefinition smaller) (fail rfl)

theorem coroutineDeclaration :
    Production place (fun _ => true)
      (fun rules => rules.coroutineDeclaration) :=
  peekSpan fun _ => bind takeSpecifiers fun _ => bind (expect nofun) fun _ =>
    maybe (callable _ _ _ fun behind =>
      coroutineDefinition (behind ▸ by decide))

private theorem classKind (smaller : 1 < place.rank) :
    Production place (fun _ => false) (fun rules => rules.classKind) := by
  refine peekKind fun kind => ?_
  split
  · exact bind behindPrevious fun _ => addType _ _
  · exact bind behindPrevious fun _ => addType _ _
  · exact declaredType _ smaller

private theorem classDefinition (decl : DeclId) :
    Production place (fun _ => true)
      (fun rules => rules.classDefinition decl) :=
  peekSpan fun _ => eat nofun (bind (spanFrom _) fun _ => addDefinition _ _)
    fun _ => bind (scopeFor _ _) fun _ =>
      bind (within _ (bracedBody memberBody)) fun _ =>
      bind (spanFrom _) fun _ => addDefinition _ _

theorem classDeclaration :
    Production place (fun _ => true) (fun rules => rules.classDeclaration) :=
  peekSpan fun _ => bind takeSpecifiers fun _ => bind (expect nofun) fun _ =>
    bind identifier fun _ => bind eatColon fun _ =>
      bind (callBehind (.classSpecifiers _) rfl rfl) fun _ =>
        addDecl _ _ _ _ fun _ =>
        bind (bindDecl _) fun _ =>
          bind (classKind (by decide : 1 < Parser.ranks)) fun _ =>
          bind (classDefinition _).maybe fun _ => bind (spanFrom _) fun _ =>
            bind (completeDecl List.mem_cons_self _ _) fun _ => pure rfl

theorem namespaceDeclaration :
    Production place (fun _ => true)
      (fun rules => rules.namespaceDeclaration) :=
  peekSpan fun _ => bind takeSpecifiers fun _ => bind (expect nofun) fun _ =>
    bind identifier fun _ => addDecl _ _ _ _ fun _ => bind (bindDecl _) fun _ =>
      bind (scopeFor _ _) fun _ => bind (within _ memberBody.maybe) fun _ =>
        bind (spanFrom _) fun _ =>
          bind (completeDecl List.mem_cons_self _ _) fun _ => pure rfl

private theorem declaration (smaller : 0 < place.rank) :
    Production place (fun _ => true) (fun rules => rules.declaration) := by
  refine bind (callSmaller .specifiers rfl smaller) fun _ =>
    peek fun token => ?_
  split
  · exact variableDeclaration
  · exact functionDeclaration
  · exact coroutineDeclaration
  · exact classDeclaration
  · exact superDeclaration
  · exact conceptDeclaration
  · exact templateDeclaration
  · exact namespaceDeclaration
  · exact failAt rfl

theorem typeArg (smaller : 1 < place.rank) :
    Production place (fun _ => true) (fun rules => rules.typeArg) :=
  bind (callSmaller .type rfl smaller) fun _ => peek fun _ =>
    ite (pure rfl) (failAt rfl)

theorem exprArg (smaller : 3 < place.rank) :
    Production place (fun _ => true) (fun rules => rules.exprArg) :=
  bind (callSmaller (.tier .shift) rfl smaller) fun _ => pure rfl

theorem templateArg
    (unsettled : place.settled = false)
    (smaller : 3 < place.rank) :
    Production place (fun _ => true) (fun rules => rules.templateArg) :=
  either (typeArg (Nat.lt_trans (by decide) smaller)) (exprArg smaller)
    (by simp [unsettled])

private theorem templateArgs
    (unsettled : place.settled = false)
    (smaller : 3 < place.rank) :
    Production place (fun _ => true) (fun rules => rules.templateArgs) :=
  bind (templateArg unsettled smaller) fun _ => eat nofun
    (bind (call .templateArgs (Nonterminal.rank_lt _) nofun
      fun (settled : place.settled = true) =>
        by simp [unsettled] at settled) fun _ => pure rfl)
    fun _ => pure rfl

variable
  (declarationFirst : place.settled = true →
    EndsNoLater Rules.declarationStatement Rules.expressionStatement)
  (requirementFirst : place.settled = true →
    EndsNoLater Rules.syntacticRequirement Rules.plainConceptMember)

include declarationFirst requirementFirst

/-- Every nonterminal is parsed by a production, at a place of its own rank. -/
theorem produce {Value : Type} (nonterminal : Nonterminal Value)
    (inTemplate : nonterminal.inTemplate = true → place.inTemplate = true)
    (settled : place.settled = true → nonterminal.settled = true)
    (ranked : place.rank = nonterminal.rank) :
    Production place (fun _ => nonterminal.reads)
      (fun rules => rules.produce nonterminal) := by
  cases nonterminal with
  | type => exact type (ranked ▸ by decide)
  | unaryType => exact unaryType
  | typeSuffixes start base => exact typeSuffixes start base
  | listedTypes afterComma =>
      exact listedTypes afterComma (by simp [ranked, Nonterminal.rank])
  | templateArgs =>
      exact templateArgs (by simpa [Nonterminal.settled] using settled)
        (ranked ▸ by decide)
  | tier tier => exact tiered tier (Nat.le_of_eq ranked.symm)
  | operations tier left => exact operations tier left
  | unary => exact unary
  | postfixes start object => exact postfixes start object
  | expressions => exact expressions (ranked ▸ by decide)
  | requirements => exact requirements (ranked ▸ by decide)
  | statement => exact statement declarationFirst (ranked ▸ by decide)
  | unitStatements =>
      exact unitStatements (by simpa [Nonterminal.settled] using settled)
        (ranked ▸ by decide)
  | bracedStatements => exact bracedStatements (ranked ▸ by decide)
  | declaration => exact declaration (ranked ▸ by decide)
  | specifiers => exact specifiers
  | paramSpecifiers read => exact paramSpecifiers read
  | classSpecifiers read => exact classSpecifiers read
  | params bound => exact params bound (by simp [ranked, Nonterminal.rank])
  | templateParams => exact templateParams (inTemplate rfl)
  | conceptMembers => exact conceptMembers requirementFirst (ranked ▸ by decide)

end Production

end Tern
