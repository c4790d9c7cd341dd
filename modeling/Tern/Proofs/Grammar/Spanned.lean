import Tern.Proofs.Grammar.Covered

namespace Tern

/-!
# Statements and declarations cover the text they are read from

Each production of a statement or a declaration is done with a term that covers
what the production has read, whether its parts are captured or parsed. With
that, whatever the bound on nested calls is, all nonterminals do so.
-/

namespace Rules.Spanning

open Tern.Spans

variable {rules : Rules} {input : ParserInput} {first position : Nat}
  {kept : List Term}
  (spanning : rules.Spanning input)

include spanning

/-- A type is captured or parsed. -/
private theorem declaredType (terminators : List TokenKind) (position : Nat) :
    Spans input position .here [] .past (fun type => [.type type])
      (rules.declaredType terminators) := by
  refine aside (fun _ => ⟨_, _, rfl, rfl, rfl, rfl⟩) fun deferred =>
    ite ?_ (spanning.type position)
  refine capturing spanning.aligned (captureTo spanning.aligned terminators)
    (fun _ _ _ => Parser.captureTo_done)
      (fun {position state type next} reached run => ?_) position
  split at run
  · cases run
  next filled =>
    cases run
    have apart : position ≠ state.position := by
      simpa [TokenRange.isEmpty] using filled
    exact ⟨Nat.lt_of_le_of_ne reached apart, _, rfl,
      state.arena.adding_addType _ _⟩

/-- An initializer is captured or parsed. -/
private theorem initializer (terminators : List TokenKind) (position : Nat) :
    Spans input position .here [] .past (fun expr => [.expr expr])
      (rules.initializer terminators) := by
  refine aside (fun _ => ⟨_, _, rfl, rfl, rfl, rfl⟩) fun deferred =>
    ite ?_ (spanning.expression position)
  refine capturing spanning.aligned (captureTo spanning.aligned terminators)
    (fun _ _ _ => Parser.captureTo_done)
      (fun {position state expr next} reached run => ?_) position
  split at run
  · cases run
  next filled =>
    cases run
    have apart : position ≠ state.position := by
      simpa [TokenRange.isEmpty] using filled
    exact ⟨Nat.lt_of_le_of_ne reached apart, _, rfl,
      state.arena.adding_addExpr _ _⟩

omit spanning in
/-- A body is captured with its braces, or parsed. -/
private theorem bracedBody
    (aligned : input.Aligned)
    {body : Parser StmtId}
    (spans : ∀ position,
      Spans input position .here [] .past (fun stmt => [.stmt stmt]) body)
    (position : Nat) :
    Spans input position .here [] .past (fun stmt => [.stmt stmt])
      (Parser.bracedBody body) := by
  refine aside (fun _ => ⟨_, _, rfl, rfl, rfl, rfl⟩) fun deferred =>
    ite ?_ (spans position)
  refine capturing aligned (captureBraces aligned)
    (fun _ _ _ => Parser.captureBraces_done)
    (fun {position state stmt next} reached run => ?_) position
  cases run
  exact ⟨reached, _, rfl, state.arena.adding_addStmt _ _⟩

omit spanning in
/-- An item of a repetition, and the items behind it up to a closing brace. -/
private theorem bracedItems
    {Item : Type}
    {item : Parser Item}
    {rest : Nonterminal (List Item)}
    {term : Item → Term}
    (aligned : input.Aligned)
    (one : ∀ position,
      Spans input position .here [] .past (fun item => [term item]) item)
    (more : ∀ position,
      Spans input position .here [] .past (fun items => items.map term)
      (rules.parse rest))
    (position : Nat) :
    Spans input position .here [] .past (fun items => items.map term)
      (rules.bracedItems item rest) :=
  eat aligned TokenKind.noConfusion (pure _ fun _ => id) <|
    aside (fun _ => ⟨_, _, rfl, rfl, rfl, rfl⟩) fun _ => ite
      (aside (fun _ => ⟨_, _, rfl, rfl, rfl, rfl⟩) fun _ => failAt)
      (bind aligned one fun _ => bind aligned more fun _ =>
        pure _ fun root listed => by
        simpa [or_comm] using listed)

private theorem declarationStatement (position : Nat) :
    Spans input position .here [] .past (fun stmt => [.stmt stmt])
      rules.declarationStatement :=
  begin <| bind spanning.aligned
    (fun position => spanning.spans .declaration position trivial)
    fun decl => spanned spanning.aligned
        (Parser.addsStmt (.declaration decl)) fun _ =>
      List.mem_append_left _

private theorem expressionToSemicolon (position : Nat) :
    Spans input position .here [] .past (fun expr => [.expr expr])
      rules.expressionToSemicolon :=
  bind spanning.aligned spanning.expression fun _ =>
    bind spanning.aligned (expect spanning.aligned TokenKind.noConfusion)
        fun _ =>
      pure _ fun _ => id

private theorem expressionStatement (position : Nat) :
    Spans input position .here [] .past (fun stmt => [.stmt stmt])
      rules.expressionStatement :=
  begin <| bind spanning.aligned spanning.expressionToSemicolon fun expr =>
    spanned spanning.aligned (Parser.addsStmt (.value .discard expr)) fun _ =>
      List.mem_append_left _

private theorem valueStatement (role : ValueRole) (position : Nat) :
    Spans input position .here [] .past (fun stmt => [.stmt stmt])
      (rules.valueStatement role) :=
  advance spanning.aligned <|
      bind spanning.aligned spanning.expressionToSemicolon fun expr =>
    spanned spanning.aligned (Parser.addsStmt (.value role expr)) fun _ =>
      List.mem_append_left _

private theorem condition (position : Nat) :
    Spans input position .here [] .past (fun expr => [.expr expr])
      rules.condition :=
  bind spanning.aligned (expect spanning.aligned TokenKind.noConfusion) fun _ =>
    bind spanning.aligned spanning.expression fun _ =>
      bind spanning.aligned (expect spanning.aligned TokenKind.noConfusion)
          fun _ =>
        pure _ fun _ => id

private theorem nestedStatement (position : Nat) :
    Spans input position .here [] .past (fun stmt => [.stmt stmt])
      (rules.parse .statement) :=
  spanning.spans .statement position trivial

private theorem otherwise? (position : Nat) :
    Spans input position .here [] .onward
      (fun stmt? => stmt?.toList.map Term.stmt)
      rules.otherwise? :=
  eat spanning.aligned TokenKind.noConfusion
    (onward <| bind spanning.aligned spanning.nestedStatement fun _ =>
      pure _ fun _ => id)
    (onward (pure _ fun _ => id))

private theorem branchStatement (position : Nat) :
    Spans input position .here [] .past (fun stmt => [.stmt stmt])
      rules.branchStatement :=
  advance spanning.aligned <|
      bind spanning.aligned spanning.condition fun condition =>
    bind spanning.aligned spanning.nestedStatement fun accepted =>
      bind spanning.aligned spanning.otherwise? fun rejected? =>
        spanned spanning.aligned
          (Parser.addsStmt (.branch condition accepted rejected?))
          fun child owned => by
            simpa [StmtForm.children, or_comm, or_left_comm, or_assoc]
              using owned

private theorem loopStatement (position : Nat) :
    Spans input position .here [] .past (fun stmt => [.stmt stmt])
      rules.loopStatement :=
  advance spanning.aligned <|
      bind spanning.aligned spanning.condition fun condition =>
    bind spanning.aligned spanning.nestedStatement fun body =>
      spanned spanning.aligned (Parser.addsStmt (.loop condition body))
        fun child owned => by
        simpa [StmtForm.children, or_comm] using owned

omit spanning in
private theorem jumpStatement
    (aligned : input.Aligned)
    (jump : Jump)
    (position : Nat) :
    Spans input position .here [] .past (fun stmt => [.stmt stmt])
      (Rules.jumpStatement jump) :=
  advance aligned <|
      bind aligned (expect aligned TokenKind.noConfusion) fun _ =>
    spanned aligned (Parser.addsStmt (.jump jump)) fun _ owned => nomatch owned

omit spanning in
private theorem emptyStatement (aligned : input.Aligned)
    (real : input.window.kindAt position ≠ .endOfInput) :
    Spans input position .here [] .past (fun stmt => [.stmt stmt])
      Rules.emptyStatement :=
  advanceReal aligned real <|
    spanned aligned (Parser.addsStmt .empty) fun _ owned => nomatch owned

private theorem nestedStatements (position : Nat) :
    Spans input position .here [] .past (fun stmts => stmts.map Term.stmt)
      (rules.parse .bracedStatements) :=
  spanning.spans .bracedStatements position trivial

omit spanning in
/-- A list of statements in braces, read in a scope or the current one. -/
private theorem statementList
    (aligned : input.Aligned)
    (role : ListRole)
    (scope : ScopeId)
    {items : Parser (List StmtId)}
    (spans : ∀ position,
      Spans input position .here [] .past (fun stmts => stmts.map Term.stmt)
      items) :
    Spans input first .here [] .past (fun stmt => [.stmt stmt])
      (Parser.expect (Delimiter.opener .brace) >>= fun _ =>
        items >>= fun stmts =>
        Parser.spanFrom (input.window.spanAt first) >>= fun span =>
          Parser.addStmt (.list role stmts scope) span) :=
  bind aligned (expect aligned TokenKind.noConfusion) fun _ =>
    bind aligned spans fun stmts =>
    spanned aligned (Parser.addsStmt (.list role stmts scope)) fun _ =>
      List.mem_append_left _

private theorem blockIn (scope : ScopeId) (position : Nat) :
    Spans input position .here [] .past (fun stmt => [.stmt stmt])
      (rules.blockIn scope) :=
  begin <| statementList spanning.aligned .block scope fun position =>
    within scope (spanning.nestedStatements position)

private theorem blockStatement (position : Nat) :
    Spans input position .here [] .past (fun stmt => [.stmt stmt])
      rules.blockStatement :=
  aside (fun _ => ⟨_, _, rfl, rfl, rfl, rfl⟩) fun _ =>
    spanning.blockIn _ position

theorem currentBlock (position : Nat) :
    Spans input position .here [] .past (fun stmt => [.stmt stmt])
      rules.currentBlock :=
  aside (fun _ => ⟨_, _, rfl, rfl, rfl, rfl⟩) fun _ =>
    spanning.blockIn _ position

theorem memberBody (position : Nat) :
    Spans input position .here [] .past (fun stmt => [.stmt stmt])
      rules.memberBody :=
  begin <| aside (fun _ => ⟨_, _, rfl, rfl, rfl, rfl⟩) fun scope =>
    statementList spanning.aligned .members scope spanning.nestedStatements

private theorem tryDeclaration (position : Nat) :
    Spans input position .here [] .past (fun stmt => [.stmt stmt])
      rules.tryDeclaration :=
  either spanning.sweeping.composed_declarationStatement
    (spanning.declarationStatement position)
    (spanning.expressionStatement position)

private theorem keywordStatement (keyword : Keyword) (position : Nat) :
    Spans input position .here [] .past (fun stmt => [.stmt stmt])
      (rules.keywordStatement keyword) := by
  unfold Rules.keywordStatement
  split
  · exact spanning.valueStatement .give position
  · exact spanning.valueStatement .yield position
  · exact spanning.branchStatement position
  · exact spanning.loopStatement position
  · exact jumpStatement spanning.aligned .leave position
  · exact jumpStatement spanning.aligned .restart position
  · exact ite (spanning.declarationStatement position)
      (spanning.tryDeclaration position)

private theorem statement (position : Nat) :
    Spans input position .here [] .past (fun stmt => [.stmt stmt])
      rules.statement := by
  refine peekKind ?_
  split
  · exact spanning.keywordStatement _ position
  · exact spanning.blockStatement position
  next found =>
    exact emptyStatement spanning.aligned (found ▸ TokenKind.noConfusion)
  · exact spanning.tryDeclaration position

private theorem unitStatements (position : Nat) :
    Spans input position .here [] .onward (fun stmts => stmts.map Term.stmt)
      rules.unitStatements :=
  aside (fun _ => ⟨_, _, rfl, rfl, rfl, rfl⟩) fun _ =>
    ite (onward (pure _ fun _ => id)) <|
    onward <| bind spanning.aligned spanning.nestedStatement fun _ =>
      bind spanning.aligned
        (fun position => spanning.spans .unitStatements position trivial)
        fun _ => pure _ fun root listed => by
          simpa [Nonterminal.terms, or_comm] using listed

private theorem defaultType? (position : Nat) :
    Spans input position .here [] .onward
      (fun type? => type?.toList.map Term.type)
      rules.defaultType? :=
  eat spanning.aligned TokenKind.noConfusion
    (onward <| bind spanning.aligned spanning.type fun _ => pure _ fun _ => id)
    (onward (pure _ fun _ => id))

private theorem templateParam (position : Nat) :
    Spans input position .here [] .past noRoots rules.templateParam := by
  refine begin <| bind spanning.aligned
      (expect spanning.aligned TokenKind.noConfusion) fun _ =>
    hand spanning.aligned (fun _ => id)
        (identifierOrPlaceholder spanning.aligned) fun name =>
      bind spanning.aligned spanning.defaultType? fun default? =>
        aside (fun _ => ⟨_, _, rfl, rfl, rfl, rfl⟩) fun track => ?_
  split
  · exact failAt
  next context _ =>
    refine through spanning.aligned
      (spanned spanning.aligned
        (Parser.addsDecl name .none (.typeParameter _ default?))
        fun child owned => ?_) fun decl =>
      aside (fun _ => ⟨_, _, rfl, rfl, rfl, rfl⟩) fun _ =>
        joinTemplate (List.mem_append_left _ (List.mem_singleton_self _))
    simpa [DeclForm.children, noRoots, or_comm] using owned

private theorem templateParams (position : Nat) :
    Spans input position .here [] .past noRoots rules.templateParams :=
  bind spanning.aligned spanning.templateParam fun _ =>
    eat spanning.aligned TokenKind.noConfusion
      (call spanning.aligned fun position =>
        spanning.spans .templateParams position trivial)
      (pure _ fun _ => id)

private theorem templateParamClause (position : Nat) :
    Spans input position .here [] .past noRoots rules.templateParamClause :=
  bind spanning.aligned (expect spanning.aligned TokenKind.noConfusion) fun _ =>
    bind spanning.aligned
      (fun position => check (onward (pure _ fun _ => id))
        (onward (spanning.spans .templateParams position trivial))) fun _ =>
      call spanning.aligned (expect spanning.aligned TokenKind.noConfusion)

private theorem templateConstraint (position : Nat) :
    Spans input position .here [] .onward noRoots rules.templateConstraint :=
  eat spanning.aligned TokenKind.noConfusion
    (onward <| bind spanning.aligned (spanning.tier .or) fun _ =>
      constrainTemplate (List.mem_append_left _ (List.mem_singleton_self _)))
    (onward (pure _ fun _ => id))

private theorem nestedDeclaration (position : Nat) :
    Spans input position .here [] .past (fun decl => [.decl decl])
      (rules.parse .declaration) :=
  spanning.spans .declaration position trivial

private theorem templateBody (position : Nat) :
    Spans input position .here [] .past (fun decl => [.decl decl])
      rules.templateBody :=
  bind spanning.aligned spanning.templateParamClause fun _ =>
    bind spanning.aligned spanning.templateConstraint fun _ =>
      call spanning.aligned spanning.nestedDeclaration

private theorem templateDeclaration (position : Nat) :
    Spans input position .here [] .past (fun decl => [.decl decl])
      rules.templateDeclaration := by
  refine begin <| bind spanning.aligned
      (expect spanning.aligned TokenKind.noConfusion) fun _ =>
    declare fun decl =>
      .aside (fun _ => ⟨_, _, rfl, rfl, rfl, rfl⟩) fun scope =>
      .bind spanning.aligned (call spanning.aligned fun position =>
          within scope (withTemplate spanning.aligned spanning.templateBody
            position))
        fun ⟨inner, context⟩ => ?_
  refine @Finalizes.update input _ decl _ _ _ spanning.aligned
    (fun span arena old => { old with
      name := (arena.decl inner).name
      span := span
      form := .template context.parms context.constraint? inner })
    (Parser.bindDecl decl >>= fun _ => Pure.pure decl) (fun _ _ _ => rfl)
    (fun _ _ _ child owned => ?_)
    (fun _ _ _ _ =>
      .inr ⟨inner, List.mem_append_left _ List.mem_cons_self, rfl⟩)
    fun _ => ⟨_, rfl, rfl, rfl, rfl⟩
  simpa [DeclForm.children, TemplateContext.terms, or_comm, or_left_comm,
    or_assoc] using owned

omit spanning in
private theorem requirementOf
    (aligned : input.Aligned)
    {form : Parser ReqForm}
    (spans : ∀ position,
      Spans input position .here [] .past ReqForm.children form)
    (position : Nat) :
    Spans input position .here [] .past (fun req => [.requirement req])
      (Rules.requirementOf form) :=
  begin <| bind aligned spans fun form =>
    bind aligned (expect aligned TokenKind.noConfusion) fun _ =>
      spanned aligned (Parser.addsRequirement form) fun _ =>
        List.mem_append_left _

private theorem typeRequirement (position : Nat) :
    Spans input position .here [] .past ReqForm.children
      rules.typeRequirement :=
  bind spanning.aligned (skip spanning.aligned) fun _ =>
    bind spanning.aligned spanning.type fun _ => pure _ fun _ => id

private theorem expressionRequirement (position : Nat) :
    Spans input position .here [] .past ReqForm.children
      rules.expressionRequirement := by
  have typed (role : TypedRole) (expr : ExprId) :
      Spans input position .past [.expr expr] .past ReqForm.children
        (rules.parse .type >>= fun type => Pure.pure (.typed role expr type)) :=
    bind spanning.aligned spanning.type fun type => pure _ fun root listed => by
      simpa [ReqForm.children, or_comm] using listed
  exact bind spanning.aligned spanning.expression fun expr =>
    eat spanning.aligned TokenKind.noConfusion (typed .conversion expr) <|
      eat spanning.aligned TokenKind.noConfusion (typed .deduction expr)
        (pure _ fun _ => id)

private theorem requirement (position : Nat) :
    Spans input position .here [] .past (fun req => [.requirement req])
      rules.requirement :=
  requirementOf spanning.aligned
    (fun position => check (spanning.typeRequirement position)
      (spanning.expressionRequirement position)) position

private theorem requirements (position : Nat) :
    Spans input position .here [] .past (fun reqs => reqs.map Term.requirement)
      rules.requirements :=
  bracedItems spanning.aligned spanning.requirement
    (fun position => spanning.spans .requirements position trivial) position

private theorem syntacticRequirement (position : Nat) :
    Spans input position .here [] .past (fun req => [.requirement req])
      rules.syntacticRequirement :=
  requirementOf spanning.aligned
    (fun _ => bind spanning.aligned
        (expect spanning.aligned TokenKind.noConfusion) fun _ =>
      bind spanning.aligned spanning.expression fun _ => pure _ fun _ => id)
        position

private theorem plainConceptMember (position : Nat) :
    Spans input position .here [] .past (fun req => [.requirement req])
      rules.plainConceptMember :=
  requirementOf spanning.aligned
    (fun position => check (spanning.typeRequirement position)
      (bind spanning.aligned spanning.expression fun _ => pure _ fun _ => id))
        position

private theorem conceptMember (position : Nat) :
    Spans input position .here [] .past (fun req => [.requirement req])
      rules.conceptMember :=
  check
    (either spanning.sweeping.composed_syntacticRequirement
      (spanning.syntacticRequirement position)
        (spanning.plainConceptMember position))
    (spanning.plainConceptMember position)

private theorem conceptMembers (position : Nat) :
    Spans input position .here [] .past (fun reqs => reqs.map Term.requirement)
      rules.conceptMembers :=
  bracedItems spanning.aligned spanning.conceptMember
    (fun position => spanning.spans .conceptMembers position trivial) position

private theorem conceptDefinition (position : Nat) :
    Spans input position .here [] .past
      (fun definition => [.definition definition])
      rules.conceptDefinition :=
  begin <| eat spanning.aligned TokenKind.noConfusion
    (bind spanning.aligned spanning.expressionToSemicolon fun expr =>
      spanned spanning.aligned (Parser.addsDefinition (.expression expr))
          fun _ =>
        List.mem_append_left _)
    (bind spanning.aligned (expect spanning.aligned TokenKind.noConfusion)
        fun _ =>
      bind spanning.aligned
        (fun position => spanning.spans .conceptMembers position trivial)
        fun reqs => spanned spanning.aligned
            (Parser.addsDefinition (.requirements reqs)) fun _ =>
          List.mem_append_left _)

private theorem conceptBody (position : Nat) :
    Spans input position .here [] .past
      (fun body => body.1.map Term.decl ++ [.definition body.2])
        rules.conceptBody :=
  bind spanning.aligned
    (withTemplate spanning.aligned spanning.templateParamClause)
    fun ⟨_, context⟩ =>
      bind spanning.aligned spanning.conceptDefinition fun _ =>
      pure _ fun root listed => by
        simp [TemplateContext.terms] at listed ⊢
        grind

private theorem conceptDeclaration (position : Nat) :
    Spans input position .here [] .past (fun decl => [.decl decl])
      rules.conceptDeclaration :=
  begin <| aside (fun _ => ⟨_, _, rfl, rfl, rfl, rfl⟩) fun _ =>
    bind spanning.aligned (expect spanning.aligned TokenKind.noConfusion)
        fun _ =>
      bind spanning.aligned (identifier spanning.aligned) fun _ =>
        declare fun _ => .aside (fun _ => ⟨_, _, rfl, rfl, rfl, rfl⟩) fun _ =>
          .aside (fun _ => ⟨_, _, rfl, rfl, rfl, rfl⟩) fun scope =>
            .bind spanning.aligned (call spanning.aligned fun position =>
                within scope (spanning.conceptBody position)) fun _ =>
              .complete spanning.aligned (fun _ => List.mem_append_left _)
                List.mem_cons_self

private theorem initializer? (position : Nat) :
    Spans input position .here [] .onward
      (fun expr? => expr?.toList.map Term.expr)
      rules.initializer? :=
  eat spanning.aligned TokenKind.noConfusion
    (onward <| bind spanning.aligned (spanning.initializer _) fun _ =>
      pure _ fun _ => id)
    (onward (pure _ fun _ => id))

private theorem typeAndInitializer (position : Nat) :
    Spans input position .here [] .past
      (fun pair => .type pair.1 :: pair.2.toList.map Term.expr)
        rules.typeAndInitializer :=
  bind spanning.aligned (spanning.declaredType _) fun _ =>
    bind spanning.aligned spanning.initializer? fun _ =>
      pure _ fun root listed => by
      simpa [or_comm] using listed

/--
A type to be inferred lies at the equals sign that announces the initializer.
-/
private theorem inferredOrTyped (position : Nat) :
    Spans input position .here [] .past
      (fun pair => .type pair.1 :: pair.2.toList.map Term.expr)
        rules.inferredOrTyped :=
  checkFirst
    (fun found => begin <|
      aheadOf spanning.aligned (Parser.addsType (.builtin .auto) _) found
      TokenKind.noConfusion fun type => by
        rw [bind_assoc]
        exact bind spanning.aligned (spanning.initializer _) fun expr =>
          pure _ fun root listed => by simpa [or_comm] using listed)
    (spanning.typeAndInitializer position)

omit spanning in
/--
The definition of an object has the span of its initializer, or lies behind what
was read.
-/
private theorem initializerDefinition
    (aligned : input.Aligned)
    (expr? : Option ExprId)
    (listed : ∀ expr ∈ expr?, .expr expr ∈ kept) :
    Spans input first .past kept .past
      (fun definition => [.definition definition])
      (Rules.initializerDefinition expr?) := by
  cases expr? with
  | none => exact pointed aligned (Parser.addsDefinition .empty)
  | some expr =>
      have isKept : .expr expr ∈ kept := listed expr rfl
      refine adds aligned (fun state => (state.arena.expr expr).span)
        (fun state => @Parser.addsDefinition input (.expression expr) _ state)
        (fun child owned => (List.mem_singleton.mp owned).symm ▸ isKept)
          fun stands => ?_
      have covers := stands.covers _ isKept
      exact ⟨covers.laid.here.encloses.forward, covers.start,
          covers.stop, fun child owned =>
        (List.mem_singleton.mp owned).symm ▸ Span.Within.refl _⟩

/--
Behind the name of an object stand its type and its initializer, which it owns.
-/
private theorem objectForm
    {Value : Type}
    {roots : Value → List Term}
    {name : NameId}
    {parser : Parser (TypeId × Option ExprId)}
    {next : TypeId × Option ExprId → DefId → Parser Value}
    (named : .name name ∈ kept)
    (spans : ∀ position, Spans input position .here [] .past
      (fun pair => .type pair.1 :: pair.2.toList.map Term.expr) parser)
    (rest : ∀ pair definition {more : List Term},
      (∀ role, ∀ child ∈ .name name :: (DeclForm.object role pair.1
        definition).children,
        child ∈ more) →
        Spans input first .past more .past roots (next pair definition)) :
    Spans input first .past kept .past roots
      (parser >>= fun pair => Parser.expect (.symbol .semicolon) >>= fun _ =>
        Rules.initializerDefinition pair.2 >>= next pair) := by
  refine bind spanning.aligned spans fun pair =>
    bind spanning.aligned (expect spanning.aligned TokenKind.noConfusion)
        fun _ =>
      hand spanning.aligned (fun _ => id)
        (initializerDefinition spanning.aligned pair.2 fun expr found => ?_)
        fun definition => rest pair definition fun role child owned => ?_
  · simp [noRoots, Option.mem_def.mp found]
  · simp only [DeclForm.children, List.mem_cons, List.not_mem_nil, or_false]
      at owned
    rcases owned with rfl | rfl | rfl <;> simp [noRoots, named]

private theorem variableDeclaration (position : Nat) :
    Spans input position .here [] .past (fun decl => [.decl decl])
      rules.variableDeclaration :=
  begin <| aside (fun _ => ⟨_, _, rfl, rfl, rfl, rfl⟩) fun _ =>
    bind spanning.aligned (expect spanning.aligned TokenKind.noConfusion)
        fun _ =>
      bind spanning.aligned (identifier spanning.aligned) fun _ =>
        bind spanning.aligned (expect spanning.aligned TokenKind.noConfusion)
            fun _ =>
          spanning.objectForm (List.mem_append_right _ List.mem_cons_self)
            spanning.inferredOrTyped
            fun _ _ _ owned =>
              aside (fun _ => ⟨_, _, rfl, rfl, rfl, rfl⟩) fun _ =>
              through spanning.aligned
                (spanned spanning.aligned (Parser.addsDecl _ _ _) (owned _))
                    fun _ =>
                aside (fun _ => ⟨_, _, rfl, rfl, rfl, rfl⟩) fun _ =>
                  pure _ fun _ => List.mem_append_left _

private theorem superDeclaration (position : Nat) :
    Spans input position .here [] .past (fun decl => [.decl decl])
      rules.superDeclaration :=
  begin <| aside (fun _ => ⟨_, _, rfl, rfl, rfl, rfl⟩) fun _ =>
    bind spanning.aligned (expect spanning.aligned TokenKind.noConfusion)
        fun _ =>
      hand spanning.aligned (fun _ => id)
          (identifierOrPlaceholder spanning.aligned) fun _ =>
        bind spanning.aligned (expect spanning.aligned TokenKind.noConfusion)
            fun _ =>
          spanning.objectForm (List.mem_append_right _ List.mem_cons_self)
            spanning.typeAndInitializer fun _ _ _ owned =>
              through spanning.aligned
                (spanned spanning.aligned (Parser.addsDecl _ _ _) (owned _))
                    fun _ =>
                aside (fun _ => ⟨_, _, rfl, rfl, rfl, rfl⟩) fun _ =>
                  pure _ fun _ => List.mem_append_left _

private theorem paramType (bound : Bool) :
    Spans input first .past kept .past (fun type => [.type type])
      (rules.paramType bound) :=
  eat spanning.aligned TokenKind.noConfusion
    (ite (call spanning.aligned spanning.type)
      (call spanning.aligned (spanning.declaredType _)))
    (pointed spanning.aligned (Parser.addsType (.builtin .auto)))

private theorem param (bound : Bool) (position : Nat) :
    Spans input position .here [] .past (fun decl => [.decl decl])
      (rules.param bound) :=
  begin <| bind spanning.aligned
    (fun position => spanning.spans (.paramSpecifiers .none) position trivial)
        fun _ =>
      bind spanning.aligned (identifier spanning.aligned) fun name =>
        hand spanning.aligned (fun _ => id)
            (spanning.paramType bound) fun type =>
          check (aside (fun _ => ⟨_, _, rfl, rfl, rfl, rfl⟩) fun _ => failAt) <|
            through spanning.aligned
              (spanned spanning.aligned
                (Parser.addsDecl name _ (.parameter type))
                fun child owned => by
                  simp only [DeclForm.children, List.mem_cons, List.not_mem_nil,
                    or_false] at owned
                  rcases owned with rfl | rfl <;> simp) fun _ =>
              ite (aside (fun _ => ⟨_, _, rfl, rfl, rfl, rfl⟩) fun _ =>
                  pure _ fun _ => List.mem_append_left _)
                (pure _ fun _ => List.mem_append_left _)

private theorem nestedParams (bound : Bool) (position : Nat) :
    Spans input position .here [] .past (fun params => params.map Term.decl)
      (rules.parse (.params bound)) :=
  spanning.spans (.params bound) position trivial

private theorem params (bound : Bool) (position : Nat) :
    Spans input position .here [] .past (fun params => params.map Term.decl)
      (rules.params bound) :=
  bind spanning.aligned (spanning.param bound) fun _ =>
    eat spanning.aligned TokenKind.noConfusion
      (bind spanning.aligned (spanning.nestedParams bound) fun _ =>
        pure _ fun root listed => by
        simpa [or_comm] using listed)
      (pure _ fun _ => id)

private theorem resultType :
    Spans input first .past kept .past (fun type => [.type type])
      rules.resultType :=
  eat spanning.aligned TokenKind.noConfusion
    (call spanning.aligned (spanning.declaredType _))
    (pointed spanning.aligned (Parser.addsType (.builtin .auto)))

private theorem signature (position : Nat) :
    Spans input position .here [] .past
      (fun signature => .type signature.2 :: signature.1.map Term.decl)
        rules.signature :=
  bind spanning.aligned (expect spanning.aligned TokenKind.noConfusion) fun _ =>
    aside (fun _ => ⟨_, _, rfl, rfl, rfl, rfl⟩) fun _ =>
      bind spanning.aligned
        (orNone _ (spanning.nestedParams _) rfl) fun _ =>
          bind spanning.aligned (expect spanning.aligned TokenKind.noConfusion)
              fun _ =>
            hand spanning.aligned (fun _ => id) spanning.resultType fun _ =>
              pure _ fun root listed => by
                simpa [noRoots, or_comm] using listed

omit spanning in
private theorem keywordDefinition
    (aligned : input.Aligned)
    (keyword : Keyword)
    {form : DefForm}
    (plain : form.children = []) (position : Nat) :
    Spans input position .here [] .past DefForm.children
      (Rules.keywordDefinition keyword form) :=
  bind aligned (expect aligned TokenKind.noConfusion) fun _ =>
    bind aligned (expect aligned TokenKind.noConfusion) fun _ =>
      pure _ fun _ listed => nomatch plain ▸ listed

private theorem expressionBody (position : Nat) :
    Spans input position .here [] .past DefForm.children rules.expressionBody :=
  bind spanning.aligned (spanning.initializer _) fun _ =>
    bind spanning.aligned (expect spanning.aligned TokenKind.noConfusion)
        fun _ =>
      pure _ fun _ => id

private theorem assignedDefinition (position : Nat) :
    Spans input position .here [] .past DefForm.children
      rules.assignedDefinition := by
  refine aside (fun _ => ⟨_, _, rfl, rfl, rfl, rfl⟩) fun behind =>
    bind spanning.aligned (skip spanning.aligned) fun _ => ?_
  split
  · exact call spanning.aligned (keywordDefinition spanning.aligned _ rfl)
  · exact call spanning.aligned (keywordDefinition spanning.aligned _ rfl)
  · exact call spanning.aligned spanning.expressionBody

private theorem functionDefinitionForm (position : Nat) :
    Spans input position .here [] .past DefForm.children
      rules.functionDefinitionForm := by
  refine peekKind ?_
  split
  · exact bind spanning.aligned
        (bracedBody spanning.aligned spanning.currentBlock) fun _ =>
      pure _ fun _ => id
  next found =>
    exact hand spanning.aligned (fun _ => id)
      (skipReal spanning.aligned (found ▸ TokenKind.noConfusion)) fun _ =>
        pure _ fun _ => id
  · exact spanning.assignedDefinition position
  · exact spanning.expressionBody position

private theorem functionDefinition (position : Nat) :
    Spans input position .here [] .past
      (fun definition => [.definition definition])
      rules.functionDefinition :=
  begin <| bind spanning.aligned spanning.functionDefinitionForm fun form =>
    spanned spanning.aligned (Parser.addsDefinition form) fun _ =>
      List.mem_append_left _

private theorem callableBody {definition : Parser DefId}
    (spans : ∀ position, Spans input position .here [] .past
      (fun definition => [.definition definition]) definition)
    (position : Nat) :
    Spans input position .here [] .past
      (fun found => found.1.map Term.decl ++
        [.type found.2.1, .definition found.2.2])
      (rules.callableBody definition) :=
  bind spanning.aligned spanning.signature fun _ =>
    bind spanning.aligned spans fun _ =>
    pure _ fun root listed => by
      simpa [or_comm, or_left_comm, or_assoc] using listed

private theorem callable
    (role : CallableRole)
    (specifiers : Specifiers)
    {definition : Parser DefId}
    (spans : ∀ position, Spans input position .here [] .past
      (fun definition => [.definition definition]) definition) :
    Spans input first .past kept .past (fun decl => [.decl decl])
      (rules.callable role (input.window.spanAt first) specifiers definition) :=
  bind spanning.aligned (identifier spanning.aligned) fun _ =>
    bind spanning.aligned (eatAny spanning.aligned _) fun _ =>
      declare fun _ => .aside (fun _ => ⟨_, _, rfl, rfl, rfl, rfl⟩) fun _ =>
        .aside (fun _ => ⟨_, _, rfl, rfl, rfl, rfl⟩) fun scope =>
          .bind spanning.aligned (call spanning.aligned fun position =>
              within scope (spanning.callableBody spans position)) fun _ =>
            .complete spanning.aligned (fun _ => List.mem_append_left _)
              (List.mem_append_right _ List.mem_cons_self)

private theorem functionDeclaration (position : Nat) :
    Spans input position .here [] .past (fun decl => [.decl decl])
      rules.functionDeclaration :=
  begin <| aside (fun _ => ⟨_, _, rfl, rfl, rfl, rfl⟩) fun _ =>
    bind spanning.aligned (expect spanning.aligned TokenKind.noConfusion)
        fun _ =>
      aside (fun _ => ⟨_, _, rfl, rfl, rfl, rfl⟩) fun _ =>
        spanning.callable _ _ spanning.functionDefinition

private theorem coroutineDefinition (position : Nat) :
    Spans input position .here [] .past
      (fun definition => [.definition definition])
      rules.coroutineDefinition :=
  aside (fun _ => ⟨_, _, rfl, rfl, rfl, rfl⟩) fun _ =>
    ite (spanning.functionDefinition position) fail

private theorem coroutineDeclaration (position : Nat) :
    Spans input position .here [] .past (fun decl => [.decl decl])
      rules.coroutineDeclaration :=
  begin <| aside (fun _ => ⟨_, _, rfl, rfl, rfl, rfl⟩) fun _ =>
    bind spanning.aligned (expect spanning.aligned TokenKind.noConfusion)
        fun _ =>
      spanning.callable _ _ spanning.coroutineDefinition

private theorem classKind :
    Spans input first .past kept .past (fun type => [.type type])
      rules.classKind := by
  refine aside (fun _ => ⟨_, _, rfl, rfl, rfl, rfl⟩) fun kind => ?_
  split
  · exact pointed spanning.aligned (Parser.addsType (.builtin .typename))
  · exact pointed spanning.aligned (Parser.addsType (.builtin .typename))
  · exact call spanning.aligned (spanning.declaredType _)

private theorem classDefinition (decl : DeclId) (position : Nat) :
    Spans input position .here [] .past
      (fun definition => [.definition definition])
      (rules.classDefinition decl) :=
  begin <| eat spanning.aligned TokenKind.noConfusion
    (spanned spanning.aligned (Parser.addsDefinition .empty) fun _ owned =>
      nomatch owned)
    (aside (fun _ => ⟨_, _, rfl, rfl, rfl, rfl⟩) fun scope =>
      bind spanning.aligned (fun position =>
          within scope (bracedBody spanning.aligned spanning.memberBody
              position)) fun body =>
        spanned spanning.aligned
            (Parser.addsDefinition (.members body)) fun _ =>
          List.mem_append_left _)

private theorem classDeclaration (position : Nat) :
    Spans input position .here [] .past (fun decl => [.decl decl])
      rules.classDeclaration :=
  begin <| aside (fun _ => ⟨_, _, rfl, rfl, rfl, rfl⟩) fun waiting =>
    bind spanning.aligned (expect spanning.aligned TokenKind.noConfusion)
        fun _ =>
      bind spanning.aligned (identifier spanning.aligned) fun _ =>
        bind spanning.aligned (eatAny spanning.aligned _) fun _ =>
          bind spanning.aligned
            (fun position => spanning.spans (.classSpecifiers waiting) position
                trivial) fun _ =>
              declare fun decl =>
                .aside (fun _ => ⟨_, _, rfl, rfl, rfl, rfl⟩) fun _ =>
                .bind spanning.aligned spanning.classKind fun _ =>
                  .bind spanning.aligned
                    (call spanning.aligned (spanning.classDefinition decl))
                    fun _ => .complete spanning.aligned (fun child owned => by
                      simpa [DeclForm.children, or_comm] using owned) (by
                      simp [noRoots, Nonterminal.terms])

private theorem namespaceDeclaration (position : Nat) :
    Spans input position .here [] .past (fun decl => [.decl decl])
      rules.namespaceDeclaration :=
  begin <| aside (fun _ => ⟨_, _, rfl, rfl, rfl, rfl⟩) fun _ =>
    bind spanning.aligned (expect spanning.aligned TokenKind.noConfusion)
        fun _ =>
      bind spanning.aligned (identifier spanning.aligned) fun _ =>
        declare fun _ => .aside (fun _ => ⟨_, _, rfl, rfl, rfl, rfl⟩) fun _ =>
          .aside (fun _ => ⟨_, _, rfl, rfl, rfl, rfl⟩) fun scope =>
            .bind spanning.aligned (call spanning.aligned fun position =>
                within scope (spanning.memberBody position)) fun _ =>
              .complete spanning.aligned (fun _ => List.mem_append_left _)
                List.mem_cons_self

private theorem specifiers (position : Nat) :
    Spans input position .here [] .onward noRoots rules.specifiers := by
  refine aside (fun _ => ⟨_, _, rfl, rfl, rfl, rfl⟩) fun kind => ?_
  split
  · exact bind spanning.aligned (skip spanning.aligned) fun _ =>
      aside (fun _ => ⟨_, _, rfl, rfl, rfl, rfl⟩) fun _ =>
        call spanning.aligned fun position =>
          spanning.spans .specifiers position trivial
  · exact onward (pure _ fun _ => id)

private theorem paramSpecifiers (read : Specifiers) (position : Nat) :
    Spans input position .here [] .onward noRoots
      (rules.paramSpecifiers read) := by
  refine aside (fun _ => ⟨_, _, rfl, rfl, rfl, rfl⟩) fun kind => ?_
  split
  next specifier _ =>
    exact bind spanning.aligned (skip spanning.aligned) fun _ =>
      call spanning.aligned fun position =>
        spanning.spans (.paramSpecifiers (read.insert specifier)) position
          trivial
  · exact onward (pure _ fun _ => id)

private theorem classSpecifiers (read : Specifiers) (position : Nat) :
    Spans input position .here [] .onward noRoots
      (rules.classSpecifiers read) :=
  eat spanning.aligned TokenKind.noConfusion
    (onward <| call spanning.aligned fun position =>
      spanning.spans (.classSpecifiers (read.insert .isVirtual)) position
        trivial)
    (onward (pure _ fun _ => id))

private theorem declaration (position : Nat) :
    Spans input position .here [] .past (fun decl => [.decl decl])
      rules.declaration := by
  refine bind spanning.aligned
    (fun position => spanning.spans .specifiers position trivial)
    fun _ => aside (fun _ => ⟨_, _, rfl, rfl, rfl, rfl⟩) fun token => ?_
  split
  · exact call spanning.aligned spanning.variableDeclaration
  · exact call spanning.aligned spanning.functionDeclaration
  · exact call spanning.aligned spanning.coroutineDeclaration
  · exact call spanning.aligned spanning.classDeclaration
  · exact call spanning.aligned spanning.superDeclaration
  · exact call spanning.aligned spanning.conceptDeclaration
  · exact call spanning.aligned spanning.templateDeclaration
  · exact call spanning.aligned spanning.namespaceDeclaration
  · exact failAt

private theorem produce {Value : Type} (nonterminal : Nonterminal Value)
    (begins : nonterminal.BeginsAt input first) :
    Spans input first nonterminal.begun nonterminal.given nonterminal.ended
      nonterminal.terms
      (rules.produce nonterminal) := by
  cases nonterminal with
  | type => exact spanning.typeWithPack first
  | unaryType => exact spanning.unaryType first
  | typeSuffixes start base => exact spanning.typeSuffixes start base begins
  | listedTypes afterComma => exact spanning.listedTypes afterComma first
  | templateArgs => exact spanning.templateArgs first
  | tier tier => exact spanning.tiered tier first
  | operations tier left => exact spanning.operations tier left
  | unary => exact spanning.unary first
  | postfixes start object => exact spanning.postfixes start object begins
  | expressions => exact spanning.expressions first
  | requirements => exact spanning.requirements first
  | statement => exact spanning.statement first
  | unitStatements => exact spanning.unitStatements first
  | bracedStatements =>
      exact bracedItems spanning.aligned spanning.nestedStatement
        spanning.nestedStatements first
  | declaration => exact spanning.declaration first
  | specifiers => exact spanning.specifiers first
  | paramSpecifiers read => exact spanning.paramSpecifiers read first
  | classSpecifiers read => exact spanning.classSpecifiers read first
  | params bound => exact spanning.params bound first
  | templateParams => exact spanning.templateParams first
  | conceptMembers => exact spanning.conceptMembers first

end Rules.Spanning

/--
Whatever the bound on nested calls, all nonterminals cover the text they are
read from.
-/
theorem Rules.nested_spanning
    {input : ParserInput}
    (aligned : input.Aligned)
    (depth : Nat) :
    (nested depth).Spanning input where
  aligned := aligned
  sweeping := nested_sweeping aligned.closed depth
  spans := by
    induction depth with
    | zero =>
        intro Value nonterminal first _ base joined state value next _ run
        cases run
    | succ depth inductionHypothesis =>
        intro Value nonterminal first begins
        exact Spanning.produce
          { aligned := aligned, sweeping := nested_sweeping aligned.closed depth
            spans := inductionHypothesis } nonterminal begins

end Tern
