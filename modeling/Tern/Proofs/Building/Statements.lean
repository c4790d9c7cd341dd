import Tern.Proofs.Building.Expressions

namespace Tern

/-!
# Statements are built

A statement may bind declarations in the current scope; what is bound in the
braces of a block is bound in a scope of its own. A declaration that stands as a
statement is bound already.
-/

/--
A statement is given, and the right to bind in the scope for what follows.
-/
def givesStmt
    (scope : ScopeId)
    (later : Nat)
    (stmt : StmtId)
    (out : Stock) :
    Prop :=
  out = {.binder scope later} + {.term (.stmt stmt)}

namespace Rules.Build

open Tern.Builds

variable {order : Order} {input : ParserInput} {scope : ScopeId}
  {facts : List Piece}
  {start : Nat} {rules : Rules} (build : rules.Build order input)
    (room : .room scope ∈ facts)

/--
A statement that binds nothing in the current scope leaves the right to bind
there.
-/
private theorem unbinding
    {parser : Parser StmtId}
    (builds : Builds order input scope facts 0 start parser (gives .stmt)) :
    Builds order input scope facts {.binder scope start} start parser
      (givesStmt scope) := by
  rw [← add_zero {Piece.binder scope start}]
  exact besideBinder (Nat.le_refl _) (builds.weaken fun _ _ _ _ same =>
    same ▸ rfl)

/-- No statement is given. -/
private theorem noStatements :
    Builds order input scope facts {.binder scope start} start
      (Pure.pure ([] : List StmtId))
      fun later stmts out => out = {.binder scope later} +
          Piece.terms (stmts.map .stmt) := by
  rw [← add_zero {Piece.binder scope start}]
  exact pureRelaxed (Nat.le_refl _) fun _ _ => rfl

include build room

theorem expressionToSemicolon :
    Builds order input scope facts 0 start rules.expressionToSemicolon
      (gives .expr) :=
  given (build.expression room) fun _ _ _ => next (expectAny _) fun _ =>
    pure fun _ _ => add_zero _

private theorem condition :
    Builds order input scope facts 0 start rules.condition (gives .expr) :=
  next (expectAny _) fun _ => given (build.expression room) fun _ _ _ =>
    next (expectAny _) fun _ => pure fun _ _ => add_zero _

private theorem expressionStatement :
    Builds order input scope facts 0 start rules.expressionStatement
      (gives .stmt) :=
  next (observe _) fun _ =>
    given (build.expressionToSemicolon room) fun _ _ _ => spanned fun _ =>
    addStmt (by simp [StmtForm.children]) nofun nofun rfl rfl

private theorem valueStatement (role : ValueRole) :
    Builds order input scope facts 0 start (rules.valueStatement role)
      (gives .stmt) :=
  next ((advance build.reads).weaken fun _ _ _ _ => And.right) fun _ =>
    given (build.expressionToSemicolon room) fun _ _ _ => spanned fun _ =>
      addStmt (by simp [StmtForm.children]) nofun nofun rfl rfl

omit room in
private theorem jumpStatement (jump : Jump) :
    Builds order input scope facts 0 start (Rules.jumpStatement jump)
      (gives .stmt) :=
  next ((advance build.reads).weaken fun _ _ _ _ => And.right) fun _ =>
    next (expectAny _) fun _ =>
    spanned fun _ => addStmt rfl nofun nofun rfl rfl

omit room in
private theorem emptyStatement :
    Builds order input scope facts 0 start Rules.emptyStatement (gives .stmt) :=
  next ((advance build.reads).weaken fun _ _ _ _ => And.right) fun _ =>
    spanned fun _ => addStmt rfl nofun nofun rfl rfl

private theorem declarationStatement :
    Builds order input scope facts {.binder scope start} start
      rules.declarationStatement
      (givesStmt scope) := by
  refine next (observe _) fun _ => ?_
  rw [← add_zero {Piece.binder scope start}]
  refine build.binding room .declaration rfl (Nat.le_refl _) ?_
  rintro decl later _ - ⟨key, rfl⟩
  have regroup : {Piece.binder scope later} + {.term (.decl decl)} +
      {.bound decl scope key} + 0 =
      ({.bound decl scope key} +
        ({.binder scope later} + {.term (.decl decl)}) : Stock) := by abel
  rw [regroup]
  refine keep (spanned fun _ => besideBinder (Nat.le_refl _)
    ((addStmt ?_ ?_ ?_ rfl rfl).weaken fun _ _ _ _ same => same ▸ rfl))
  · simp [StmtForm.children]
  · rintro _ ⟨⟩
  · rintro _ ⟨⟩
    exact ⟨scope, key, List.mem_cons_self ..⟩

private theorem tryDeclaration :
    Builds order input scope facts {.binder scope start} start
      rules.tryDeclaration
      (givesStmt scope) :=
  either (build.composedOf ⟨[], true, 2, False, False⟩
    (.declarationStatement (by decide)) rfl) (build.declarationStatement room)
    (unbinding (build.expressionStatement room))

private theorem otherwise? :
    Builds order input scope facts {.binder scope start} start rules.otherwise?
      fun later rejected? out =>
        out = {.binder scope later} +
          Piece.terms (rejected?.toList.map .stmt) := by
  refine eaten ?_ ?_
  · rw [← add_zero {Piece.binder scope start}]
    refine build.binding room .statement rfl (Nat.le_refl _) ?_
    rintro stmt later _ - rfl
    rw [add_zero]
    exact pureRelaxed (Nat.le_refl _) fun _ _ => by simp
  · rw [← add_zero {Piece.binder scope start}]
    exact pureRelaxed (Nat.le_refl _) fun _ _ => rfl

private theorem branchStatement :
    Builds order input scope facts {.binder scope start} start
      rules.branchStatement
      (givesStmt scope) := by
  refine next ((advance build.reads).weaken fun _ _ _ _ => And.right) fun _ =>
    given (build.condition room) fun condition later onward => ?_
  rw [add_comm]
  refine build.binding room .statement rfl onward ?_
  rintro accepted middle _ - rfl
  refine bind (add_assoc _ _ _) (build.otherwise? room) ?_
  rintro rejected? last _ - rfl
  rw [add_assoc]
  refine spanned fun _ => besideBinder (Nat.le_refl _)
    ((addStmt ?_ ?_ ?_ rfl rfl).weaken fun _ _ _ _ same => same ▸ rfl)
  · simp only [StmtForm.children, Piece.terms_cons]
    abel
  · rintro _ ⟨⟩
  · rintro _ ⟨⟩

private theorem loopStatement :
    Builds order input scope facts {.binder scope start} start
      rules.loopStatement
      (givesStmt scope) := by
  refine next ((advance build.reads).weaken fun _ _ _ _ => And.right) fun _ =>
    given (build.condition room) fun condition later onward => ?_
  rw [add_comm]
  refine build.binding room .statement rfl onward ?_
  rintro body last _ - rfl
  rw [add_assoc]
  refine spanned fun _ => besideBinder (Nat.le_refl _)
    ((addStmt ?_ ?_ ?_ rfl rfl).weaken fun _ _ _ _ same => same ▸ rfl)
  · simp only [StmtForm.children, Piece.terms_cons, Piece.terms_nil]
    abel
  · rintro _ ⟨⟩
  · rintro _ ⟨⟩

/-- A statement and those behind it are given together. -/
private theorem statementsBehind
    {rest : Nonterminal (List StmtId)}
    (needs : ∀ start, rest.needs scope start = {.binder scope start})
    (given : ∀ start later stmts out, rest.Gives scope start later stmts out →
      out = {.binder scope later} + Piece.terms (stmts.map .stmt)) :
    Builds order input scope facts {.binder scope start} start
      (do
        let stmt ← rules.parse .statement
        let stmts ← rules.parse rest
        return stmt :: stmts)
      fun later stmts out => out = {.binder scope later} +
          Piece.terms (stmts.map .stmt) := by
  rw [← add_zero {Piece.binder scope start}]
  refine build.binding room .statement rfl (Nat.le_refl _) ?_
  rintro stmt middle _ - rfl
  rw [add_zero]
  refine build.binding room rest (needs middle) (Nat.le_refl _)
    fun stmts later out _ same => ?_
  rw [given _ _ _ _ same, add_assoc]
  refine pureRelaxed (Nat.le_refl _) fun _ _ => ?_
  simp only [List.map_cons, Piece.terms_cons]
  abel

theorem unitStatements :
    Builds order input scope facts {.binder scope start} start
      rules.unitStatements
      fun later stmts out => out = {.binder scope later} +
          Piece.terms (stmts.map .stmt) :=
  next (observe _) fun _ => ite (fun _ => noStatements) fun _ =>
    build.statementsBehind room (fun _ => rfl) fun _ _ _ _ => id

theorem bracedStatements :
    Builds order input scope facts {.binder scope start} start
      rules.bracedStatements
      fun later stmts out => out = {.binder scope later} +
          Piece.terms (stmts.map .stmt) :=
  eaten (noStatements) (next (observe _) fun _ =>
    ite (fun _ => next (observe _) fun _ => failAt _ _) fun _ =>
      build.statementsBehind room (fun _ => rfl) fun _ _ _ _ => id)

omit room in
/--
What is bound in the braces of a block is bound in the scope of the block.
-/
private theorem blockIn
    {region : ScopeId}
    {lower : Nat}
    (onward : lower ≤ start)
    (there : .room region ∈ facts) :
    Builds order input scope facts {.binder region lower} start
      (rules.blockIn region)
      (gives .stmt) := by
  refine next (observe _) fun _ => next (expectAny _) fun _ => ?_
  rw [← add_zero {Piece.binder region lower}]
  refine relaxed onward
    (bind rfl (within (build.parse .bracedStatements start there)) ?_)
  rintro stmts later _ - rfl
  rw [add_zero]
  refine drop (spanned fun _ => addStmt rfl ?_ nofun rfl rfl)
  rintro _ ⟨⟩
  exact there

private theorem blockStatement :
    Builds order input scope facts 0 start rules.blockStatement
      (gives .stmt) := by
  refine call (Builds.pushScope _ room) ?_
  rintro region later _ - rfl
  rw [add_zero]
  exact keep (build.blockIn (Nat.zero_le _) (List.mem_cons_self ..))

theorem currentBlock :
    Builds order input scope facts {.binder scope start} start
      rules.currentBlock (gives .stmt) := by
  rw [← add_zero {Piece.binder scope start}]
  refine bind (zero_add _).symm currentScope ?_
  rintro _ later _ onward ⟨rfl, rfl⟩
  rw [zero_add, add_zero]
  exact build.blockIn onward room

theorem memberBody :
    Builds order input scope facts {.binder scope start} start rules.memberBody
      (gives .stmt) := by
  refine next (observe _) fun _ => ?_
  rw [← add_zero {Piece.binder scope start}]
  refine bind (zero_add _).symm currentScope ?_
  rintro _ later _ onward ⟨rfl, rfl⟩
  rw [zero_add]
  refine next (expectAny _) fun _ =>
    build.binding room .bracedStatements rfl onward ?_
  rintro stmts last _ - rfl
  rw [add_zero]
  refine drop (spanned fun _ => addStmt rfl ?_ nofun rfl rfl)
  rintro _ ⟨⟩
  exact room

private theorem keywordStatement (keyword : Keyword) :
    Builds order input scope facts {.binder scope start} start
      (rules.keywordStatement keyword)
      (givesStmt scope) := by
  unfold Rules.keywordStatement
  split
  · exact unbinding (build.valueStatement room _)
  · exact unbinding (build.valueStatement room _)
  · exact build.branchStatement room
  · exact build.loopStatement room
  · exact unbinding (build.jumpStatement _)
  · exact unbinding (build.jumpStatement _)
  · exact ite (fun _ => build.declarationStatement room) fun _ =>
      build.tryDeclaration room

theorem statement :
    Builds order input scope facts {.binder scope start} start rules.statement
      (givesStmt scope) := by
  refine next (observe _) fun kind => ?_
  split
  · exact build.keywordStatement room _
  · exact unbinding (build.blockStatement room)
  · exact unbinding build.emptyStatement
  · exact build.tryDeclaration room

end Rules.Build

end Tern
