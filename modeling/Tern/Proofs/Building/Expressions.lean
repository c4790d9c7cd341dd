import Tern.Proofs.Building.Grammar

namespace Tern

/-!
# Expressions and requirements are built

An expression owns its operands and mentions what its names denote. What a
requires-expression binds is bound in a scope of its own.
-/

namespace Rules.Build

open Tern.Builds

variable {order : Order} {input : ParserInput} {scope : ScopeId}
  {facts : List Piece}
  {start : Nat} {rules : Rules} (build : rules.Build order input)
    (room : .room scope ∈ facts)

include build room

private theorem operand (tier : Tier) :
    Builds order input scope facts 0 start (rules.operand tier)
      (gives .expr) := by
  unfold Rules.operand
  split
  next tighter _ => exact build.parse (.tier tighter) start room
  next => exact build.parse .unary start room

theorem operations (tier : Tier) (left : ExprId) :
    Builds order input scope facts {.term (.expr left)} start
      (rules.operations tier left)
      (gives .expr) := by
  refine next (observe _) fun kind => ?_
  split
  · exact give
  next op _ =>
      refine next skip fun _ =>
        given (build.operand room tier) fun right later _ =>
        next (observe _) fun arena =>
          bind (add_zero _).symm (addExpr ?_ nofun nofun)
            fun joined last out _ same => ?_
      · simp only [ExprForm.children, Piece.terms_cons, Piece.terms_nil]
        abel
      · obtain rfl : out = _ := same
        rw [add_zero]
        exact build.parse (.operations tier joined) last room

theorem tiered (tier : Tier) :
    Builds order input scope facts 0 start (rules.tiered tier) (gives .expr) :=
  given (build.operand room tier) fun left later _ => by
    rw [add_zero]
    exact build.parse (.operations tier left) later room

theorem expressions :
    Builds order input scope facts 0 start rules.expressions (givesAll .expr) :=
  given (build.expression room) fun expr later _ => eaten
    (givenAll (build.parse .expressions later room) fun rest _ _ =>
      pure fun _ _ => by
      simp only [givesAll, List.map_cons, Piece.terms_cons]
      abel)
    (pure fun _ _ => by simp [givesAll])

private theorem closedExpressions :
    Builds order input scope facts 0 start rules.closedExpressions
      (givesAll .expr) :=
  givenAll (Builds.orNone (build.parse .expressions start room)) fun _ _ _ =>
    next (expectAny _) fun _ => pure fun _ _ => add_zero _

private theorem namedExpression :
    Builds order input scope facts 0 start rules.namedExpression
      (gives .expr) := by
  refine next ((expectIdentifier build.reads).weaken fun _ _ _ _ given =>
    given.2.2) ?_
  rintro ⟨name, span⟩
  refine call (lookup? name) ?_
  rintro found? later _ - ⟨region, rfl⟩
  refine keepAll ?_
  split
  · exact next (observe _) fun _ => failAt _ _
  next decl =>
    refine next (observe _) fun arena => ?_
    have bound : .bound decl region (.simple name) ∈
        Piece.bounds region (.simple name) [decl] ++ facts :=
      List.mem_append_left _ (Piece.mem_bounds (List.mem_singleton_self _))
    exact build.mentioned (List.mem_append_right _ room)
        bound fun id plain later =>
      spanned fun _ => addExpr rfl (List.forall_mem_singleton.mpr
        ⟨_, plain, region, List.mem_cons_self .., List.mem_cons_of_mem _ bound⟩)
          nofun
  next decls _ =>
    refine call (addSimple name span) ?_
    rintro id last _ - rfl
    rw [add_zero, add_comm]
    refine keep (spanned fun _ =>
      addExpr rfl (List.forall_mem_map.mpr fun decl listed => ?_) nofun)
    exact ⟨_, true, region, List.mem_cons_self ..,
      List.mem_cons_of_mem _ (List.mem_append_left _ (Piece.mem_bounds listed))⟩

private theorem parenthesizedExpression :
    Builds order input scope facts 0 start rules.parenthesizedExpression
      (gives .expr) := by
  refine next (observe _) fun _ => next (expectAny _) fun _ => eaten
    (spanned fun _ => addExpr rfl nofun nofun)
    (given (build.expression room) fun first _ _ =>
      eaten (pure fun _ _ => add_zero _) ?_)
  refine next (expectAny _) fun _ =>
    givenAll (build.closedExpressions room) fun rest _ _ =>
    spanned fun _ => addExpr ?_ nofun nofun
  simp only [ExprForm.children, List.map_cons, Piece.terms_cons]
  abel

omit room in
private theorem literal
    (form : ExprForm)
    (childless : form.children = [])
    (mentionless : form.mentions = [])
    (scopeless : form.scope? = none) :
    Builds order input scope facts 0 start (Rules.literal form) (gives .expr) :=
  next ((advance build.reads).weaken fun _ _ _ _ => And.right) fun _ =>
    addExpr (by simp [childless]) (by simp [mentionless]) (by simp [scopeless])

theorem typeRequirement :
    Builds order input scope facts 0 start rules.typeRequirement
      fun _ form out => out = Piece.terms form.children :=
  next skip fun _ => given (build.type room) fun type _ _ => pure fun _ _ => by
    simp [ReqForm.children]

private theorem expressionRequirement :
    Builds order input scope facts 0 start rules.expressionRequirement
      fun _ form out => out = Piece.terms form.children := by
  have typed (role : TypedRole) (later : Nat) (expr : ExprId) :
      Builds order input scope facts ({.term (.expr expr)} + 0) later
        (do let type ← rules.parse .type; Pure.pure (ReqForm.typed role expr
          type))
        fun _ form out => out = Piece.terms form.children :=
    given (build.type room) fun type _ _ => pure fun _ _ => by
      simp only [ReqForm.children, Piece.terms_cons, Piece.terms_nil]
      abel
  refine given (build.expression room) fun expr _ _ =>
    eaten (typed _ _ expr) (eaten (typed _ _ expr)
    (pure fun _ _ => by simp [ReqForm.children]))

omit build room in
/--
An item up to its semicolon is a requirement of all parts that it is read from.
-/
theorem requirementOf
    {form : Parser ReqForm}
    (builds : Builds order input scope facts 0 start form
      fun _ form out => out = Piece.terms form.children) :
    Builds order input scope facts 0 start (Rules.requirementOf form)
      (gives .requirement) := by
  refine next (observe _) fun _ => call builds ?_
  rintro form later _ - rfl
  exact next (expectAny _) fun _ => spanned fun _ => addRequirement (add_zero _)

private theorem requirement :
    Builds order input scope facts 0 start rules.requirement
      (gives .requirement) :=
  requirementOf
    (checked (build.typeRequirement room) (build.expressionRequirement room))

theorem requirements :
    Builds order input scope facts 0 start rules.requirements
      (givesAll .requirement) :=
  Builds.bracedItems (build.requirement room) fun later =>
    build.parse .requirements later room

/-- Parameters that are bound at once, perhaps none. -/
theorem boundParams (closer : TokenKind) :
    Builds order input scope facts {.binder scope start} start
      (rules.orNone closer (.params true))
        (Nonterminal.GivesParams scope start true) := by
  refine checked ?_ (build.parse (.params true) start room)
  rw [← add_zero {Piece.binder scope start}]
  exact pureRelaxed (Nat.le_refl _) fun later _ =>
    ⟨[], rfl, by simp [Piece.members]⟩

/-- The parameters of a requires-expression are bound in its scope. -/
private theorem requiresParams :
    Builds order input scope facts {.binder scope start} start
      rules.requiresParams
      (givesAll .decl) := by
  refine eaten (bind (add_zero _).symm (build.boundParams room _) ?_) ?_
  · rintro params later _ - ⟨keyed, -, rfl⟩
    refine next (expectAny _) fun _ => pureSome
      ({.binder scope later} + Piece.members scope keyed) ?_ fun _ _ => rfl
    rw [add_zero]
    abel
  · rw [← add_zero {Piece.binder scope start}]
    exact drop (pure fun _ _ => rfl)

private theorem requiresBody :
    Builds order input scope facts {.binder scope start} start
      rules.requiresBody
      fun _ parts out =>
        out = Piece.terms (parts.1.map .decl) +
          Piece.terms (parts.2.map .requirement) := by
  refine bind (add_zero _).symm (build.requiresParams room) ?_
  rintro params later _ - rfl
  rw [add_zero]
  refine next (expectAny _) fun _ =>
    givenAll (build.parse .requirements later room) fun reqs _ _ =>
    pure fun _ _ => add_comm _ _

private theorem requiresExpression :
    Builds order input scope facts 0 start rules.requiresExpression
      (gives .expr) := by
  refine next (observe _) fun _ => next (expectAny _) fun _ =>
    call (Builds.pushScope _ room) ?_
  rintro region later _ - rfl
  rw [add_zero]
  refine keep (bind (add_zero _).symm
    (enclosed (build.requiresBody (List.mem_cons_self ..))) ?_)
  rintro ⟨parms, reqs⟩ last _ - rfl
  refine spanned fun _ => addExpr ?_ nofun ?_
  · simp only [ExprForm.children, Piece.terms_append, add_zero]
  · rintro _ ⟨⟩
    exact List.mem_cons_self ..

private theorem primary :
    Builds order input scope facts 0 start rules.primary (gives .expr) := by
  refine next (observe _) fun token => ?_
  split
  · exact build.literal _ rfl rfl rfl
  · exact build.literal _ rfl rfl rfl
  · exact build.literal _ rfl rfl rfl
  · exact build.namedExpression room
  · exact build.parenthesizedExpression room
  · exact build.requiresExpression room
  · exact failAt _ _

/--
What follows an expression takes that, and is a form of which all parts are at
hand.
-/
private theorem postfix? (object : ExprId) :
    Builds order input scope facts {.term (.expr object)} start
      (rules.postfix? object)
      fun _ form? out => match form? with
        | some form => out = Piece.terms form.children ∧ form.mentions = [] ∧
            form.scope? = none
        | none => out = {.term (.expr object)} := by
  refine next (observe _) fun kind => ?_
  split
  · refine next skip fun _ =>
      givenAll (build.closedExpressions room) fun args _ _ =>
      pure fun _ _ => ⟨?_, rfl, rfl⟩
    simp only [ExprForm.children, Piece.terms_cons]
    abel
  · refine next skip fun _ => call (identifier build.reads) ?_
    rintro member later _ - ⟨-, -, spelling, rfl⟩
    refine pureSome {.named member (.simple spelling) true} ?_ fun _ _ =>
      ⟨rfl, rfl, rfl⟩
    simp only [ExprForm.children, Piece.terms_cons, Piece.terms_nil]
    abel
  · refine next skip fun _ => given (build.expression room) fun index _ _ =>
      next (expectAny _) fun _ => pure fun _ _ => ⟨?_, rfl, rfl⟩
    simp only [ExprForm.children, Piece.terms_cons, Piece.terms_nil]
    abel
  · exact pure fun _ _ => rfl

theorem postfixes (place : Span) (object : ExprId) :
    Builds order input scope facts {.term (.expr object)} start
      (rules.postfixes place object)
      (gives .expr) := by
  refine bind (add_zero _).symm (build.postfix? room object)
    fun form? later out _ same => ?_
  rw [add_zero]
  cases form? with
  | some form =>
      obtain ⟨rfl, plain, scopeless⟩ := same
      refine spanned fun _ => bind (add_zero _).symm
        (addExpr rfl (by simp [plain]) (by simp [scopeless])) ?_
      rintro next last _ - rfl
      rw [add_zero]
      exact build.parse (.postfixes place next) last room
  | none =>
      obtain rfl : out = _ := same
      exact give

theorem unary :
    Builds order input scope facts 0 start rules.unary (gives .expr) := by
  refine next (observe _) fun token => ?_
  split
  · exact next skip fun _ => given (build.parse .unary start room) fun _ _ _ =>
      spanned fun _ => addExpr (by simp [ExprForm.children]) nofun nofun
  · refine given (build.primary room) fun object later _ => ?_
    rw [add_zero]
    exact build.parse (.postfixes token.span object) later room

end Rules.Build

end Tern
