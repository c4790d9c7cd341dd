import Tern.Proofs.Grammar.Sweeping

namespace Tern

/-!
# Statements and declarations sweep over tokens

Statements and declarations close what they open, in captured ranges as far as
these are known to do so. Each production passes tokens that may stand where
they do, and all that it captures is owned by what it is done with.
-/

namespace Parser

variable {input : ParserInput} {state after : ParserState}

/-- Behind a token the position is not before it. -/
theorem le_behind (input : ParserInput) (state : ParserState) :
    state.position ≤ (behind input state).position := by
  simp only [behind, Window.next]
  split
  · exact Nat.le_succ _
  · exact Nat.le_refl _

/-- Reading on to a terminator adds no terms. -/
private theorem skipTo_done
    {terminators : List TokenKind}
    {level fuel : Nat}
    {value : Unit}
    (run : skipTo terminators level fuel input state = .done value after) :
    state.position ≤ after.position ∧ after.arena = state.arena := by
  induction fuel generalizing state with
  | zero => cases run
  | succ fuel inductionHypothesis =>
      rw [skipTo_succ] at run
      dsimp only at run
      split at run
      · cases run
        exact ⟨Nat.le_refl _, rfl⟩
      · split at run
        · cases run
        · split at run
          · cases run
          · obtain ⟨order, arena⟩ := inductionHypothesis run
            exact ⟨Nat.le_trans (le_behind input state) order, arena⟩

/-- Reading on to a nesting level adds no terms. -/
theorem skipOut_done
    {opened : Span}
    {level fuel : Nat}
    {value : Unit}
    (run : skipOut opened level fuel input state = .done value after) :
    state.position ≤ after.position ∧ after.arena = state.arena := by
  induction fuel generalizing state with
  | zero => cases run
  | succ fuel inductionHypothesis =>
      rw [skipOut_succ] at run
      split at run
      · split at run
        · cases run
        · obtain ⟨order, arena⟩ := inductionHypothesis run
          exact ⟨Nat.le_trans (le_behind input state) order, arena⟩
      · cases run
        exact ⟨Nat.le_refl _, rfl⟩

variable {range : TokenRange}

theorem captureTo_done
    {terminators : List TokenKind}
    (run : captureTo terminators input state = .done range after) :
    range = { start := state.position, stop := after.position } ∧
      state.position ≤ after.position ∧ after.arena = state.arena := by
  have captured : (skipTo terminators state.track.depth
      (input.window.remaining state.position + 1) >>=
        fun _ => rangeFrom state.position) input state = .done range after :=
          run
  obtain ⟨_, middle, skipped, ranged⟩ := done_of_bind captured
  cases ranged
  exact ⟨rfl, skipTo_done skipped⟩

theorem captureBraces_done
    (run : captureBraces input state = .done range after) :
    range = { start := state.position, stop := after.position } ∧
      state.position ≤ after.position ∧ after.arena = state.arena := by
  have captured :
      (expect (Delimiter.opener .brace) >>= fun _ => remaining >>= fun left =>
      skipOut (input.window.tokenAt state.position).span state.track.depth
        (left + 1) >>=
        fun _ => rangeFrom state.position) input state = .done range after :=
          run
  obtain ⟨_, opened, opens, rest⟩ := done_of_bind captured
  obtain ⟨-, rfl⟩ := expect_done opens
  obtain ⟨left, _, counted, rest⟩ := done_of_bind rest
  cases counted
  obtain ⟨_, middle, skipped, ranged⟩ := done_of_bind rest
  cases ranged
  obtain ⟨order, arena⟩ := skipOut_done skipped
  exact ⟨rfl, Nat.le_trans (le_behind input state) order, arena⟩

end Parser

namespace Nonterminal

variable {Value : Type}

/--
The delimiters around the items of a nonterminal, the last of which it closes.
-/
def enclosing : Nonterminal Value → List Delimiter
  | .bracedStatements => [.brace]
  | .conceptMembers => [.brace]
  | _ => []

/-- The terms that own all that a nonterminal may capture. -/
def roots : Nonterminal Value → Value → List Term
  | .statement, stmt => [.stmt stmt]
  | .unitStatements, stmts => stmts.map Term.stmt
  | .bracedStatements, stmts => stmts.map Term.stmt
  | .declaration, decl => [.decl decl]
  | .params _, decls => decls.map Term.decl
  | _, _ => []

end Nonterminal

namespace Rules

/--
Types and expressions are passages, and all other nonterminals sweep over
tokens.
-/
structure Sweeping (rules : Rules) (input : ParserInput) : Prop where
  composed : rules.AllComposed
  passing : rules.Passing input
  sweeps : ∀ {Value : Type} (nonterminal : Nonterminal Value),
    nonterminal.inExpressions = false →
    Sweeps input anyKind nonterminal.enclosing [] [] nonterminal.roots
      (rules.parse nonterminal)

namespace Sweeping

open Tern.Sweeps

variable {rules : Rules} {input : ParserInput} {known : TokenKind → Prop}
  {opened : List Delimiter} (sweeping : rules.Sweeping input)
    (closed : input.window.Closed)

include sweeping

/-- What occurs in types and expressions captures nothing. -/
theorem plain {Value : Type} (nonterminal : Nonterminal Value)
    (occurs : nonterminal.inExpressions = true)
      (opens : nonterminal.opened = [])
    (roots : Value → List Term) :
    Sweeps input known opened [] opened roots (rules.parse nonterminal) := by
  have passes := sweeping.passing nonterminal occurs
  rw [opens] at passes
  exact quiet (sweeping.composed nonterminal _) passes roots

theorem call {Value : Type} (nonterminal : Nonterminal Value)
    (occurs : nonterminal.inExpressions = false) :
    Sweeps input known (nonterminal.enclosing ++ opened) [] opened
      nonterminal.roots
      (rules.parse nonterminal) :=
  (sweeping.sweeps nonterminal occurs).frame opened

private theorem expression (roots : ExprId → List Term) :
    Sweeps input known opened [] opened roots rules.expression :=
  sweeping.plain (.tier .or) rfl rfl roots

/-- A type is captured or parsed. -/
private theorem declaredType (terminators : List TokenKind) :
    Sweeps input known opened [] opened (fun type => [.type type])
      (rules.declaredType terminators) := by
  refine aside (fun _ => ⟨_, _, rfl, rfl, rfl⟩) fun deferred => ite ?_ ?_
  · refine capturing (fun _ _ _ => Parser.captureTo_done)
      fun range state type next run => ?_
    split at run
    · cases run
    · cases run
      refine ⟨rfl, state.arena.extends_addType _ _, Nat.lt_irrefl _, ?_⟩
      rw [Arena.range?, Arena.type_addType]
      rfl
  · exact sweeping.plain .type rfl rfl _

/-- An initializer is captured or parsed. -/
private theorem initializer (terminators : List TokenKind) :
    Sweeps input known opened [] opened (fun expr => [.expr expr])
      (rules.initializer terminators) := by
  refine aside (fun _ => ⟨_, _, rfl, rfl, rfl⟩) fun deferred => ite ?_ ?_
  · refine capturing (fun _ _ _ => Parser.captureTo_done)
      fun range state expr next run => ?_
    split at run
    · cases run
    · cases run
      refine ⟨rfl, state.arena.extends_addExpr _ _, Nat.lt_irrefl _, ?_⟩
      rw [Arena.range?, Arena.expr_addExpr]
      rfl
  · exact sweeping.expression _

omit sweeping in
/-- A body is captured with its braces, or parsed. -/
private theorem bracedBody
    {body : Parser StmtId}
    (sweeps : Sweeps input known opened [] opened (fun stmt => [.stmt stmt])
      body) :
    Sweeps input known opened [] opened (fun stmt => [.stmt stmt])
      (Parser.bracedBody body) := by
  refine aside (fun _ => ⟨_, _, rfl, rfl, rfl⟩) fun deferred => ite ?_ sweeps
  refine capturing (fun _ _ _ => Parser.captureBraces_done)
    fun range state stmt next run => ?_
  cases run
  refine ⟨rfl, state.arena.extends_addStmt _ _, Nat.lt_irrefl _, ?_⟩
  rw [Arena.range?, Arena.stmt_addStmt]
  rfl

/-- An item of a repetition, and the items behind it up to a closing brace. -/
private theorem bracedItems
    {Item : Type}
    {item : Parser Item}
    {rest : Nonterminal (List Item)}
    {itemRoots : Item → List Term} (closed : input.window.Closed)
    (occurs : rest.inExpressions = false) (encloses : rest.enclosing = [.brace])
    (sweeps : Sweeps input anyKind [.brace] [] [.brace] itemRoots item)
    (covers : ∀ head tail, ∀ root, root ∈ rest.roots tail ∨
      root ∈ itemRoots head →
      root ∈ rest.roots (head :: tail)) :
    Sweeps input known [.brace] [] [] rest.roots
      (rules.bracedItems item rest) := by
  have others := sweeping.sweeps rest occurs
  rw [encloses] at others
  refine eat closed (.closer .brace)
    (pure _ fun _ listed => absurd listed List.not_mem_nil) ?_
  refine aside (fun _ => ⟨_, _, rfl, rfl, rfl⟩) fun _ => ite
    (aside (fun _ => ⟨_, _, rfl, rfl, rfl⟩) fun _ => failAt)
    (bind sweeps fun head => bind others fun tail =>
      pure _ fun root listed => ?_)
  exact covers head tail root (by simpa using listed)

omit sweeping in
/-- Items up to a closer, perhaps none. -/
private theorem orNone
    {Item : Type}
    (closer : TokenKind)
    (items : Nonterminal (List Item))
    (roots : List Item → List Term)
    (sweeps : Sweeps input anyKind opened [] opened roots (rules.parse items)) :
    Sweeps input known opened [] opened roots (rules.orNone closer items) :=
  check (pure _ fun _ listed => absurd listed List.not_mem_nil) sweeps

private theorem declarationStatement :
    Sweeps input known opened [] opened (fun stmt => [.stmt stmt])
      rules.declarationStatement :=
  aside (fun _ => ⟨_, _, rfl, rfl, rfl⟩) fun _ =>
    bind (sweeping.call .declaration rfl) fun _ =>
    aside (fun _ => ⟨_, _, rfl, rfl, rfl⟩) fun _ => addStmt (fun _ => id) _

/-- A statement with a declaration is composed of steps. -/
theorem composed_declarationStatement :
    Composed [] rules.declarationStatement :=
  Composed.currentSpan.bind fun start =>
    (sweeping.composed .declaration []).bind fun _ =>
    .bind (.observe fun input view =>
      start.merge (input.window.spanBefore view.position)) fun _ =>
      .add fun arena => arena.extends_addStmt _ _

section

variable (closed : input.window.Closed)

include closed

private theorem expressionToSemicolon (roots : ExprId → List Term) :
    Sweeps input known opened [] opened roots rules.expressionToSemicolon :=
  bind (sweeping.expression roots) fun _ =>
    bind (expect closed (.symbol rfl)) fun _ =>
    pure _ fun root listed => by simpa [noRoots] using listed

private theorem expressionStatement :
    Sweeps input known opened [] opened (fun stmt => [.stmt stmt])
      rules.expressionStatement :=
  aside (fun _ => ⟨_, _, rfl, rfl, rfl⟩) fun _ =>
    bind (sweeping.expressionToSemicolon closed fun expr => [.expr expr])
        fun _ =>
      aside (fun _ => ⟨_, _, rfl, rfl, rfl⟩) fun _ => addStmt (fun _ => id) _

private theorem valueStatement (role : ValueRole)
    (readable : ∀ kind, known kind → Readable anyKind opened opened kind) :
    Sweeps input known opened [] opened (fun stmt => [.stmt stmt])
      (rules.valueStatement role) :=
  bind (advance closed readable) fun _ =>
    bind (sweeping.expressionToSemicolon closed fun expr => [.expr expr])
        fun _ =>
      aside (fun _ => ⟨_, _, rfl, rfl, rfl⟩) fun _ => addStmt (fun _ => id) _

private theorem condition :
    Sweeps input known opened [] opened (fun expr => [.expr expr])
      rules.condition :=
  bind (expect closed (.opener trivial)) fun _ =>
    bind (sweeping.expression fun expr => [.expr expr]) fun _ =>
      bind (expect closed (.closer _)) fun _ => pure _ fun _ => id

private theorem otherwise? :
    Sweeps input known opened [] opened
      (fun stmt? => stmt?.toList.map Term.stmt)
      rules.otherwise? :=
  eat closed (.keyword _)
    (bind (sweeping.call .statement rfl) fun _ => pure _ fun _ => id)
    (pure _ fun _ => id)

private theorem branchStatement
    (readable : ∀ kind, known kind → Readable anyKind opened opened kind) :
    Sweeps input known opened [] opened (fun stmt => [.stmt stmt])
      rules.branchStatement :=
  bind (advance closed readable) fun _ =>
    bind (sweeping.condition closed) fun _ =>
    bind (sweeping.call .statement rfl) fun _ =>
      bind (sweeping.otherwise? closed) fun _ =>
      aside (fun _ => ⟨_, _, rfl, rfl, rfl⟩) fun _ =>
        addStmt (fun root listed => by
        simp [noRoots, Nonterminal.roots, StmtForm.children] at listed ⊢
        tauto) _

private theorem loopStatement
    (readable : ∀ kind, known kind → Readable anyKind opened opened kind) :
    Sweeps input known opened [] opened (fun stmt => [.stmt stmt])
      rules.loopStatement :=
  bind (advance closed readable) fun _ =>
    bind (sweeping.condition closed) fun _ =>
    bind (sweeping.call .statement rfl) fun _ =>
      aside (fun _ => ⟨_, _, rfl, rfl, rfl⟩) fun _ =>
        addStmt (fun root listed => by
        simp [noRoots, Nonterminal.roots, StmtForm.children] at listed ⊢
        tauto) _

omit sweeping in
private theorem jumpStatement (jump : Jump)
    (readable : ∀ kind, known kind → Readable anyKind opened opened kind) :
    Sweeps input known opened [] opened (fun stmt => [.stmt stmt])
      (Rules.jumpStatement jump) :=
  bind (advance closed readable) fun _ =>
    bind (expect closed (.symbol rfl)) fun _ =>
    aside (fun _ => ⟨_, _, rfl, rfl, rfl⟩) fun _ =>
      addStmt (fun _ listed => absurd listed List.not_mem_nil) _

omit sweeping in
private theorem emptyStatement
    (readable : ∀ kind, known kind → Readable anyKind opened opened kind) :
    Sweeps input known opened [] opened (fun stmt => [.stmt stmt])
      Rules.emptyStatement :=
  bind (advance closed readable) fun _ =>
    aside (fun _ => ⟨_, _, rfl, rfl, rfl⟩) fun _ =>
    addStmt (fun _ listed => absurd listed List.not_mem_nil) _

omit sweeping in
/-- A list of statements in braces, read in a scope or the current one. -/
private theorem statementList (role : ListRole) (scope : ScopeId) (start : Span)
    {items : Parser (List StmtId)}
    (sweeps : Sweeps input anyKind (.brace :: opened) [] opened
      (fun stmts => stmts.map Term.stmt) items) :
    Sweeps input known opened [] opened (fun stmt => [.stmt stmt])
      (Parser.expect (Delimiter.opener .brace) >>= fun _ =>
        items >>= fun stmts =>
        Parser.spanFrom start >>= fun span =>
          Parser.addStmt (.list role stmts scope) span) :=
  bind (expect closed (.opener trivial)) fun _ => bind sweeps fun _ =>
    aside (fun _ => ⟨_, _, rfl, rfl, rfl⟩) fun _ =>
      addStmt (fun root listed => by
      simpa [noRoots, StmtForm.children] using listed) _

private theorem blockIn (scope : ScopeId) :
    Sweeps input known opened [] opened (fun stmt => [.stmt stmt])
      (rules.blockIn scope) :=
  aside (fun _ => ⟨_, _, rfl, rfl, rfl⟩) fun start =>
    statementList closed .block scope start
      (within scope (sweeping.call .bracedStatements rfl))

private theorem blockStatement :
    Sweeps input known opened [] opened (fun stmt => [.stmt stmt])
      rules.blockStatement :=
  aside (fun _ => ⟨_, _, rfl, rfl, rfl⟩) fun _ => sweeping.blockIn closed _

theorem currentBlock :
    Sweeps input known opened [] opened (fun stmt => [.stmt stmt])
      rules.currentBlock :=
  aside (fun _ => ⟨_, _, rfl, rfl, rfl⟩) fun _ => sweeping.blockIn closed _

theorem memberBody :
    Sweeps input known opened [] opened (fun stmt => [.stmt stmt])
      rules.memberBody :=
  aside (fun _ => ⟨_, _, rfl, rfl, rfl⟩) fun start =>
    aside (fun _ => ⟨_, _, rfl, rfl, rfl⟩) fun scope =>
      statementList closed .members scope start
        (sweeping.call .bracedStatements rfl)

private theorem tryDeclaration :
    Sweeps input known opened [] opened (fun stmt => [.stmt stmt])
      rules.tryDeclaration :=
  either sweeping.composed_declarationStatement sweeping.declarationStatement
    (sweeping.expressionStatement closed)

private theorem keywordStatement (keyword : Keyword) :
    Sweeps input (· = .keyword keyword) opened [] opened
      (fun stmt => [.stmt stmt])
      (rules.keywordStatement keyword) := by
  have readable (kind : TokenKind) (same : kind = .keyword keyword) :
      Readable anyKind opened opened kind := same ▸ .keyword keyword
  unfold Rules.keywordStatement
  split
  · exact sweeping.valueStatement closed _ readable
  · exact sweeping.valueStatement closed _ readable
  · exact sweeping.branchStatement closed readable
  · exact sweeping.loopStatement closed readable
  · exact jumpStatement closed _ readable
  · exact jumpStatement closed _ readable
  · exact ite sweeping.declarationStatement (sweeping.tryDeclaration closed)

private theorem statement :
    Sweeps input known opened [] opened (fun stmt => [.stmt stmt])
      rules.statement := by
  refine peekKind fun kind => ?_
  split
  · exact sweeping.keywordStatement closed _
  · exact sweeping.blockStatement closed
  · exact emptyStatement closed fun kind same => same ▸ .symbol rfl
  · exact sweeping.tryDeclaration closed

omit closed in
private theorem unitStatements :
    Sweeps input known opened [] opened (fun stmts => stmts.map Term.stmt)
      rules.unitStatements :=
  aside (fun _ => ⟨_, _, rfl, rfl, rfl⟩) fun _ => ite (pure _ fun _ => id)
    (bind (sweeping.call .statement rfl) fun _ =>
      bind (sweeping.call .unitStatements rfl) fun _ =>
      pure _ fun root listed => by
        simp [Nonterminal.roots] at listed ⊢
        tauto)

private theorem bracedStatements :
    Sweeps input known [.brace] [] [] (fun stmts => stmts.map Term.stmt)
      rules.bracedStatements :=
  sweeping.bracedItems closed rfl rfl (sweeping.call .statement rfl)
    fun head tail root listed => by
    simp [Nonterminal.roots] at listed ⊢
    tauto

private theorem defaultType? :
    Sweeps input known opened [] opened noRoots rules.defaultType? :=
  eat closed (.symbol rfl)
    (bind (sweeping.plain .type rfl rfl noRoots) fun _ => pure _ fun _ => id)
      (pure _ fun _ => id)

private theorem templateParam :
    Sweeps input known opened [] opened noRoots rules.templateParam := by
  refine aside (fun _ => ⟨_, _, rfl, rfl, rfl⟩) fun _ =>
    bind (expect closed (.keyword _)) fun _ =>
    bind (identifierOrPlaceholder closed _) fun _ =>
      bind (sweeping.defaultType? closed) fun _ =>
      aside (fun _ => ⟨_, _, rfl, rfl, rfl⟩) fun track => ?_
  split
  · exact failAt
  · exact aside (fun _ => ⟨_, _, rfl, rfl, rfl⟩) fun _ =>
      bind (addPlainDecl _ _ _ _) fun _ =>
        aside (fun _ => ⟨_, _, rfl, rfl, rfl⟩) fun _ =>
        apart fun _ => ⟨_, _, rfl, rfl, rfl⟩

private theorem templateParams :
    Sweeps input known opened [] opened noRoots rules.templateParams :=
  bind (sweeping.templateParam closed) fun _ => eat closed (.symbol rfl)
    (sweeping.call .templateParams rfl) (pure _ fun _ => id)

private theorem templateParamClause :
    Sweeps input known opened [] opened noRoots rules.templateParamClause :=
  bind (expect closed (.symbol rfl)) fun _ =>
    bind (check (pure _ fun _ => id) (sweeping.call .templateParams rfl))
        fun _ =>
      expect closed (.symbol rfl)

private theorem templateConstraint :
    Sweeps input known opened [] opened noRoots rules.templateConstraint :=
  eat closed (.keyword _)
    (bind (sweeping.plain (.tier .or) rfl rfl noRoots) fun _ =>
      apart fun _ => ⟨_, _, rfl, rfl, rfl⟩)
    (pure _ fun _ => id)

private theorem templateBody :
    Sweeps input known opened [] opened (fun decl => [.decl decl])
      rules.templateBody :=
  bind (sweeping.templateParamClause closed) fun _ =>
    bind (sweeping.templateConstraint closed) fun _ =>
      sweeping.call .declaration rfl

private theorem templateDeclaration :
    Sweeps input known opened [] opened (fun decl => [.decl decl])
      rules.templateDeclaration := by
  refine aside (fun _ => ⟨_, _, rfl, rfl, rfl⟩) fun start =>
    bind (expect closed (.keyword _))
    fun _ => declare fun decl =>
      .aside (fun _ => ⟨_, _, rfl, rfl, rfl⟩) fun scope =>
      .bind (within _ (withTemplate _ (sweeping.templateBody closed)))
          fun result =>
        .aside (fun _ => ⟨_, _, rfl, rfl, rfl⟩) fun span => ?_
  refine @Finishes.update input decl _ _ (fun arena old => { old with
    name := (arena.decl result.1).name
    span := span
    form := .template result.2.parms result.2.constraint? result.1 }) _ ?_
      fun _ => ⟨_, rfl, rfl, rfl⟩
  intro arena old root listed
  simp [DeclForm.children] at listed ⊢
  tauto

omit sweeping in
private theorem requirementOf {form : Parser ReqForm}
    (sweeps : Sweeps input anyKind opened [] opened noRoots form) :
    Sweeps input known opened [] opened noRoots (Rules.requirementOf form) :=
  aside (fun _ => ⟨_, _, rfl, rfl, rfl⟩) fun _ => bind sweeps.forget fun _ =>
    bind (expect closed (.symbol rfl)) fun _ =>
      aside (fun _ => ⟨_, _, rfl, rfl, rfl⟩) fun _ =>
      adds fun arena => arena.extends_addRequirement _ _

private theorem syntacticRequirement :
    Sweeps input known opened [] opened noRoots rules.syntacticRequirement :=
  requirementOf closed (bind (expect closed (.keyword _)) fun _ =>
    bind (sweeping.expression noRoots) fun _ => pure _ fun _ => id)

omit closed in
/-- An expression required by a keyword is read in steps. -/
theorem composed_syntacticRequirement :
    Composed [] rules.syntacticRequirement :=
  Composed.currentSpan.bind fun start =>
    .bind ((Composed.expect _).bind fun _ =>
      (sweeping.composed (.tier .or) []).bind fun _ =>
      .pure _) fun _ => (Composed.expect _).bind fun _ =>
        .bind (.observe fun input view =>
          start.merge (input.window.spanBefore view.position))
          fun _ => .add fun arena => arena.extends_addRequirement _ _

private theorem plainConceptMember :
    Sweeps input known opened [] opened noRoots rules.plainConceptMember :=
  requirementOf closed (check
    (bind (skip closed fun _ same => same ▸ .keyword _) fun _ =>
      bind (sweeping.plain .type rfl rfl noRoots) fun _ => pure _ fun _ => id)
    (bind (sweeping.expression noRoots) fun _ => pure _ fun _ => id))

private theorem conceptMember :
    Sweeps input known opened [] opened noRoots rules.conceptMember :=
  check
    (either sweeping.composed_syntacticRequirement
      (sweeping.syntacticRequirement closed)
      (sweeping.plainConceptMember closed))
    (sweeping.plainConceptMember closed)

private theorem conceptMembers :
    Sweeps input known [.brace] [] [] noRoots rules.conceptMembers :=
  sweeping.bracedItems closed rfl rfl (sweeping.conceptMember closed)
    fun _ _ _ listed => by
    simp [noRoots, Nonterminal.roots] at listed

private theorem conceptDefinition (roots : DefId → List Term) :
    Sweeps input known opened [] opened roots rules.conceptDefinition :=
  aside (fun _ => ⟨_, _, rfl, rfl, rfl⟩) fun _ => eat closed (.symbol rfl)
    (bind (sweeping.expressionToSemicolon closed noRoots) fun _ =>
      aside (fun _ => ⟨_, _, rfl, rfl, rfl⟩) fun _ =>
        adds fun arena => arena.extends_addDefinition _ _)
    (bind (expect closed (.opener trivial)) fun _ =>
      bind (sweeping.call .conceptMembers rfl)
      fun _ => aside (fun _ => ⟨_, _, rfl, rfl, rfl⟩) fun _ =>
        adds fun arena => arena.extends_addDefinition _ _)

private theorem conceptBody :
    Sweeps input known opened [] opened noRoots rules.conceptBody :=
  bind (withTemplate _ (sweeping.templateParamClause closed)) fun _ =>
    bind (sweeping.conceptDefinition closed noRoots) fun _ => pure _ fun _ => id

private theorem conceptDeclaration :
    Sweeps input known opened [] opened (fun decl => [.decl decl])
      rules.conceptDeclaration :=
  aside (fun _ => ⟨_, _, rfl, rfl, rfl⟩) fun _ =>
    aside (fun _ => ⟨_, _, rfl, rfl, rfl⟩) fun _ =>
    bind (expect closed (.keyword _)) fun _ => bind (identifier closed) fun _ =>
      declare fun _ => .aside (fun _ => ⟨_, _, rfl, rfl, rfl⟩) fun _ =>
        .aside (fun _ => ⟨_, _, rfl, rfl, rfl⟩) fun _ =>
          .bind (within _ (sweeping.conceptBody closed)) fun _ =>
            .aside (fun _ => ⟨_, _, rfl, rfl, rfl⟩) fun _ =>
              .complete _ fun _ listed => absurd listed List.not_mem_nil

private theorem initializer? :
    Sweeps input known opened [] opened
      (fun expr? => expr?.toList.map Term.expr)
      rules.initializer? :=
  eat closed (.symbol rfl)
    (bind (sweeping.initializer _) fun _ => pure _ fun _ => id)
      (pure _ fun _ => id)

private theorem typeAndInitializer :
    Sweeps input known opened [] opened
      (fun pair => .type pair.1 :: pair.2.toList.map Term.expr)
        rules.typeAndInitializer :=
  bind (sweeping.declaredType _) fun _ =>
    bind (sweeping.initializer? closed) fun _ =>
    pure _ fun root listed => by
      simp at listed ⊢
      tauto

private theorem inferredOrTyped :
    Sweeps input known opened [] opened
      (fun pair => .type pair.1 :: pair.2.toList.map Term.expr)
        rules.inferredOrTyped :=
  check
    (aside (fun _ => ⟨_, _, rfl, rfl, rfl⟩) fun _ =>
      bind (addType _ _ fun type => [.type type]) fun _ =>
        bind (sweeping.initializer? closed) fun _ =>
          pure _ fun root listed => by
          simp at listed ⊢
          tauto)
    (sweeping.typeAndInitializer closed)

omit sweeping closed in
/-- The definition of an object owns its initializer. -/
private theorem initializerDefinition (expr? : Option ExprId) :
    Sweeps input known opened (expr?.toList.map Term.expr) opened
      (fun definition => [.definition definition])
        (Rules.initializerDefinition expr?) := by
  cases expr? with
  | none => exact aside (fun _ => ⟨_, _, rfl, rfl, rfl⟩) fun _ =>
      addDefinition (fun _ => id) _
  | some expr => exact aside (fun _ => ⟨_, _, rfl, rfl, rfl⟩) fun _ =>
      addDefinition (fun _ => id) _

omit sweeping in
/-- What stands behind the name of an object: its type and its initializer. -/
private theorem objectForm
    {Value : Type}
    {roots : Value → List Term}
    {left : List Delimiter}
    {parser : Parser (TypeId × Option ExprId)}
      {next : TypeId × Option ExprId → DefId → Parser Value}
    (sweeps : Sweeps input anyKind opened [] opened
      (fun pair => .type pair.1 :: pair.2.toList.map Term.expr) parser)
    (rest : ∀ pair definition, Sweeps input anyKind opened
      [.definition definition, .type pair.1] left roots
        (next pair definition)) :
    Sweeps input known opened [] left roots
      (parser >>= fun pair => Parser.expect (.symbol .semicolon) >>= fun _ =>
        Rules.initializerDefinition pair.2 >>= next pair) :=
  bind sweeps.forget fun pair => bind (expect closed (.symbol rfl)) fun _ =>
    hand (pair.2.toList.map Term.expr) [.type pair.1] (fun root listed => by
        simpa [noRoots, or_comm] using listed)
      (initializerDefinition pair.2) fun definition => rest pair definition

private theorem variableDeclaration :
    Sweeps input known opened [] opened (fun decl => [.decl decl])
      rules.variableDeclaration :=
  aside (fun _ => ⟨_, _, rfl, rfl, rfl⟩) fun _ =>
    aside (fun _ => ⟨_, _, rfl, rfl, rfl⟩) fun _ =>
    bind (expect closed (.keyword _)) fun _ => bind (identifier closed) fun _ =>
      bind (expect closed (.symbol rfl)) fun _ =>
        objectForm closed (sweeping.inferredOrTyped closed) fun _ _ =>
          aside (fun _ => ⟨_, _, rfl, rfl, rfl⟩) fun _ =>
            aside (fun _ => ⟨_, _, rfl, rfl, rfl⟩) fun _ =>
              hand _ [] (fun _ => .inl) (addDecl _ _ (fun root listed => by
                  simp [DeclForm.children] at listed ⊢
                  tauto) _) fun _ =>
                aside (fun _ => ⟨_, _, rfl, rfl, rfl⟩) fun _ =>
                  pure _ fun _ => id

private theorem superDeclaration :
    Sweeps input known opened [] opened (fun decl => [.decl decl])
      rules.superDeclaration :=
  aside (fun _ => ⟨_, _, rfl, rfl, rfl⟩) fun _ =>
    aside (fun _ => ⟨_, _, rfl, rfl, rfl⟩) fun _ =>
    bind (expect closed (.keyword _)) fun _ =>
      bind (identifierOrPlaceholder closed _) fun _ =>
      bind (expect closed (.symbol rfl)) fun _ =>
        objectForm closed (sweeping.typeAndInitializer closed) fun _ _ =>
          aside (fun _ => ⟨_, _, rfl, rfl, rfl⟩) fun _ =>
            hand _ [] (fun _ => .inl) (addDecl _ _ (fun root listed => by
                simp [DeclForm.children] at listed ⊢
                tauto) _) fun _ =>
              aside (fun _ => ⟨_, _, rfl, rfl, rfl⟩) fun _ => pure _ fun _ => id

private theorem paramType (bound : Bool) :
    Sweeps input known opened [] opened (fun type => [.type type])
      (rules.paramType bound) :=
  eat closed (.symbol rfl)
    (ite (sweeping.plain .type rfl rfl _) (sweeping.declaredType _))
    (aside (fun _ => ⟨_, _, rfl, rfl, rfl⟩) fun _ => addType _ _ _)

private theorem param (bound : Bool) :
    Sweeps input known opened [] opened (fun decl => [.decl decl])
      (rules.param bound) :=
  aside (fun _ => ⟨_, _, rfl, rfl, rfl⟩) fun _ =>
    bind (sweeping.plain (.paramSpecifiers .none) rfl rfl noRoots) fun _ =>
      bind (identifier closed) fun _ =>
        bind (sweeping.paramType closed bound) fun _ =>
        check (aside (fun _ => ⟨_, _, rfl, rfl, rfl⟩) fun _ => failAt)
          (aside (fun _ => ⟨_, _, rfl, rfl, rfl⟩) fun _ =>
            hand _ [] (fun _ => .inl) (addDecl _ _ (fun _ => id) _) fun _ =>
              ite (aside (fun _ => ⟨_, _, rfl, rfl, rfl⟩) fun _ =>
                pure _ fun _ => id)
                (pure _ fun _ => id))

omit closed in
/-- Parameters are called for, whether they are bound at once or not. -/
private theorem callParams (bound : Bool) :
    Sweeps input known opened [] opened (fun params => params.map Term.decl)
      (rules.parse (.params bound)) := by
  cases bound with
  | true => exact sweeping.plain (.params true) rfl rfl _
  | false => exact sweeping.call (.params false) rfl

private theorem params (bound : Bool) :
    Sweeps input known opened [] opened (fun params => params.map Term.decl)
      (rules.params bound) :=
  bind (sweeping.param closed bound) fun _ => eat closed (.symbol rfl)
    (bind (sweeping.callParams bound) fun _ => pure _ fun root listed => by
      simp at listed ⊢
      tauto)
    (pure _ fun _ => id)

private theorem resultType :
    Sweeps input known opened [] opened (fun type => [.type type])
      rules.resultType :=
  eat closed (.symbol rfl) (sweeping.declaredType _)
    (aside (fun _ => ⟨_, _, rfl, rfl, rfl⟩) fun _ => addType _ _ _)

private theorem signature :
    Sweeps input known opened [] opened
      (fun signature => .type signature.2 :: signature.1.map Term.decl)
        rules.signature :=
  bind (expect closed (.opener trivial)) fun _ =>
    aside (fun _ => ⟨_, _, rfl, rfl, rfl⟩) fun _ =>
    bind (orNone _ _ _ (sweeping.callParams _)) fun _ =>
      bind (expect closed (.closer _)) fun _ =>
        bind (sweeping.resultType closed) fun _ =>
        pure _ fun root listed => by
          simp [noRoots] at listed ⊢
          tauto

omit sweeping in
private theorem keywordDefinition
    (keyword : Keyword)
    (form : DefForm)
    (roots : DefForm → List Term) :
    Sweeps input known opened [] opened roots
      (Rules.keywordDefinition keyword form) :=
  bind (expect closed (.keyword _)) fun _ =>
    bind (expect closed (.symbol rfl)) fun _ =>
    pure _ fun _ listed => absurd listed List.not_mem_nil

private theorem expressionBody :
    Sweeps input known opened [] opened DefForm.children rules.expressionBody :=
  bind (sweeping.initializer _) fun _ =>
    bind (expect closed (.symbol rfl)) fun _ =>
    pure _ fun _ => id

private theorem assignedDefinition :
    Sweeps input (· = .symbol .assign) opened [] opened DefForm.children
      rules.assignedDefinition := by
  have readable (kind : TokenKind) (same : kind = .symbol .assign) :
      Readable anyKind opened opened kind := same ▸ .symbol rfl
  refine aside (fun _ => ⟨_, _, rfl, rfl, rfl⟩) fun behind =>
    bind (skip closed readable) fun _ => ?_
  split
  · exact keywordDefinition closed _ _ _
  · exact keywordDefinition closed _ _ _
  · exact sweeping.expressionBody closed

private theorem functionDefinitionForm :
    Sweeps input known opened [] opened DefForm.children
      rules.functionDefinitionForm := by
  refine peekKind fun kind => ?_
  split
  · exact bind (bracedBody (sweeping.currentBlock closed)) fun _ =>
      pure _ fun _ => id
  · exact bind (skip closed fun kind same => same ▸ .symbol rfl) fun _ =>
      pure _ fun _ => id
  · exact sweeping.assignedDefinition closed
  · exact sweeping.expressionBody closed

private theorem functionDefinition :
    Sweeps input known opened [] opened
      (fun definition => [.definition definition])
      rules.functionDefinition :=
  aside (fun _ => ⟨_, _, rfl, rfl, rfl⟩) fun _ =>
    bind (sweeping.functionDefinitionForm closed) fun _ =>
      aside (fun _ => ⟨_, _, rfl, rfl, rfl⟩) fun _ =>
        addDefinition (fun root listed => by
        simpa using listed) _

private theorem callableBody {definition : Parser DefId}
    (sweeps : Sweeps input anyKind opened [] opened
      (fun definition => [.definition definition]) definition) :
    Sweeps input known opened [] opened
      (fun found => .definition found.2.2 :: .type found.2.1 ::
        found.1.map Term.decl)
      (rules.callableBody definition) :=
  bind (sweeping.signature closed) fun _ => bind sweeps fun _ =>
    pure _ fun root listed => by
    simp at listed ⊢
    tauto

private theorem callable
    (role : CallableRole)
    (start : Span)
    (specifiers : Specifiers)
    {definition : Parser DefId}
    (sweeps : Sweeps input anyKind opened [] opened
      (fun definition => [.definition definition]) definition) :
    Sweeps input known opened [] opened (fun decl => [.decl decl])
      (rules.callable role start specifiers definition) :=
  bind (identifier closed) fun _ =>
    bind (eatPlain closed (.symbol rfl)) fun _ =>
    declare fun _ => .aside (fun _ => ⟨_, _, rfl, rfl, rfl⟩) fun _ =>
      .aside (fun _ => ⟨_, _, rfl, rfl, rfl⟩) fun _ =>
        .bind (within _ (sweeping.callableBody closed sweeps)) fun _ =>
          .aside (fun _ => ⟨_, _, rfl, rfl, rfl⟩) fun _ =>
            .complete _ fun root listed => by
            simpa [DeclForm.children, or_comm, or_left_comm, or_assoc]
              using listed

private theorem functionDeclaration :
    Sweeps input known opened [] opened (fun decl => [.decl decl])
      rules.functionDeclaration :=
  aside (fun _ => ⟨_, _, rfl, rfl, rfl⟩) fun _ =>
    aside (fun _ => ⟨_, _, rfl, rfl, rfl⟩) fun _ =>
    bind (expect closed (.keyword _)) fun _ =>
      aside (fun _ => ⟨_, _, rfl, rfl, rfl⟩) fun _ =>
      sweeping.callable closed _ _ _ (sweeping.functionDefinition closed)

private theorem coroutineDefinition :
    Sweeps input known opened [] opened
      (fun definition => [.definition definition])
      rules.coroutineDefinition :=
  aside (fun _ => ⟨_, _, rfl, rfl, rfl⟩) fun _ =>
    ite (sweeping.functionDefinition closed) fail

private theorem coroutineDeclaration :
    Sweeps input known opened [] opened (fun decl => [.decl decl])
      rules.coroutineDeclaration :=
  aside (fun _ => ⟨_, _, rfl, rfl, rfl⟩) fun _ =>
    aside (fun _ => ⟨_, _, rfl, rfl, rfl⟩) fun _ =>
    bind (expect closed (.keyword _)) fun _ =>
      sweeping.callable closed _ _ _ (sweeping.coroutineDefinition closed)

omit closed in
private theorem classKind :
    Sweeps input known opened [] opened (fun type => [.type type])
      rules.classKind := by
  refine peekKind fun kind => ?_
  split
  · exact aside (fun _ => ⟨_, _, rfl, rfl, rfl⟩) fun _ => addType _ _ _
  · exact aside (fun _ => ⟨_, _, rfl, rfl, rfl⟩) fun _ => addType _ _ _
  · exact sweeping.declaredType _

private theorem classDefinition (decl : DeclId) :
    Sweeps input known opened [] opened
      (fun definition => [.definition definition])
      (rules.classDefinition decl) :=
  aside (fun _ => ⟨_, _, rfl, rfl, rfl⟩) fun _ => eat closed (.symbol rfl)
    (aside (fun _ => ⟨_, _, rfl, rfl, rfl⟩) fun _ =>
      addDefinition (fun _ => id) _)
    (aside (fun _ => ⟨_, _, rfl, rfl, rfl⟩) fun _ =>
      bind (within _ (bracedBody (sweeping.memberBody closed))) fun _ =>
        aside (fun _ => ⟨_, _, rfl, rfl, rfl⟩) fun _ =>
          addDefinition (fun _ => id) _)

private theorem classDeclaration :
    Sweeps input known opened [] opened (fun decl => [.decl decl])
      rules.classDeclaration :=
  aside (fun _ => ⟨_, _, rfl, rfl, rfl⟩) fun _ =>
    aside (fun _ => ⟨_, _, rfl, rfl, rfl⟩) fun _ =>
    bind (expect closed (.keyword _)) fun _ => bind (identifier closed) fun _ =>
      bind (eatPlain closed (.symbol rfl)) fun _ =>
        bind (sweeping.call (.classSpecifiers _) rfl) fun _ =>
          declare fun _ => .aside (fun _ => ⟨_, _, rfl, rfl, rfl⟩) fun _ =>
            .bind (sweeping.classKind) fun _ =>
              .bind (sweeping.classDefinition closed _) fun _ =>
                .aside (fun _ => ⟨_, _, rfl, rfl, rfl⟩) fun _ =>
                  .complete _ fun root listed => by
                  simp [DeclForm.children] at listed ⊢
                  tauto

private theorem namespaceDeclaration :
    Sweeps input known opened [] opened (fun decl => [.decl decl])
      rules.namespaceDeclaration :=
  aside (fun _ => ⟨_, _, rfl, rfl, rfl⟩) fun _ =>
    aside (fun _ => ⟨_, _, rfl, rfl, rfl⟩) fun _ =>
    bind (expect closed (.keyword _)) fun _ => bind (identifier closed) fun _ =>
      declare fun _ => .aside (fun _ => ⟨_, _, rfl, rfl, rfl⟩) fun _ =>
        .aside (fun _ => ⟨_, _, rfl, rfl, rfl⟩) fun _ =>
          .bind (within _ (sweeping.memberBody closed)) fun _ =>
            .aside (fun _ => ⟨_, _, rfl, rfl, rfl⟩) fun _ =>
              .complete _ fun _ => id

private theorem specifiers :
    Sweeps input known opened [] opened noRoots rules.specifiers := by
  refine peekKind fun kind => ?_
  split
  next found =>
    have plain : Readable anyKind opened opened kind := by
      cases kind with
      | keyword word => exact .keyword word
      | _ => simp [Specifier.ofKind?] at found
    exact bind (skip closed fun _ same => same ▸ plain) fun _ =>
      aside (fun _ => ⟨_, _, rfl, rfl, rfl⟩) fun _ =>
        sweeping.call .specifiers rfl
  next => exact pure _ fun _ => id

private theorem classSpecifiers (read : Specifiers) :
    Sweeps input known opened [] opened noRoots (rules.classSpecifiers read) :=
  eat closed (.keyword _) (sweeping.call (.classSpecifiers _) rfl)
    (pure _ fun _ => id)

private theorem declaration :
    Sweeps input known opened [] opened (fun decl => [.decl decl])
      rules.declaration := by
  refine bind (sweeping.call .specifiers rfl) fun _ =>
    aside (fun _ => ⟨_, _, rfl, rfl, rfl⟩) fun token => ?_
  split
  · exact sweeping.variableDeclaration closed
  · exact sweeping.functionDeclaration closed
  · exact sweeping.coroutineDeclaration closed
  · exact sweeping.classDeclaration closed
  · exact sweeping.superDeclaration closed
  · exact sweeping.conceptDeclaration closed
  · exact sweeping.templateDeclaration closed
  · exact sweeping.namespaceDeclaration closed
  · exact failAt

private theorem produce {Value : Type} (nonterminal : Nonterminal Value)
    (occurs : nonterminal.inExpressions = false) :
    Sweeps input anyKind nonterminal.enclosing [] [] nonterminal.roots
      (rules.produce nonterminal) := by
  cases nonterminal with
  | statement => exact sweeping.statement closed
  | unitStatements => exact sweeping.unitStatements
  | bracedStatements => exact sweeping.bracedStatements closed
  | declaration => exact sweeping.declaration closed
  | specifiers => exact sweeping.specifiers closed
  | classSpecifiers read => exact sweeping.classSpecifiers closed read
  | params bound => exact sweeping.params closed bound
  | templateParams => exact sweeping.templateParams closed
  | conceptMembers => exact sweeping.conceptMembers closed
  | _ => cases occurs

end

end Sweeping

/--
Whatever the bound on nested calls, statements and declarations sweep over
tokens.
-/
theorem nested_sweeping
    {input : ParserInput}
    (closed : input.window.Closed)
    (depth : Nat) :
    (nested depth).Sweeping input where
  composed := nested_allComposed depth
  passing := nested_passing closed depth
  sweeps := by
    induction depth with
    | zero =>
        intro Value nonterminal _ state value next _ run
        cases run
    | succ depth inductionHypothesis =>
        intro Value nonterminal occurs
        exact Sweeping.produce
          { composed := nested_allComposed depth,
            passing := nested_passing closed depth
            sweeps := inductionHypothesis } closed nonterminal occurs

end Rules

end Tern
