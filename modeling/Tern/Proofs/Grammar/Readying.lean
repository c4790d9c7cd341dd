import Tern.Proofs.Grammar.Yielded

namespace Tern

/-!
# Statements and declarations are ready

Whatever the mode, a statement or declaration that was parsed is ready to be
elaborated, with statement lists nested no deeper than four for each token that
was read for it.
-/

/-- What is ready stays so when more is read before and behind it. -/
private theorem Moment.Readies.widen
    {start middle later final : Moment}
    {term : Term}
    (before : start.Precedes middle)
    (behind : later.Precedes final)
    (ready : middle.Readies later term) :
    start.Readies final term := by
  have backward := before.onward
  have forward := behind.onward
  exact (behind.ready ready).weaken before.extended.decls.size_le (by omega)

/--
A statement list is ready, and stored behind the statements that were there
before.
-/
structure Moment.ReadiesList (start later : Moment) (stmt : StmtId) : Prop where
  new : start.arena.stmts.size ≤ stmt.raw
  ready : start.Readies later (.stmt stmt)

/--
A statement is ready or captured, bounded by the tokens read between two
moments.
-/
def Moment.ReadiesBody (start later : Moment) (stmt : StmtId) : Prop :=
  start.Readies later (.stmt stmt) ∨
    ∃ range : TokenRange, later.arena.Holds (.stmt stmt) ∧
      (later.arena.stmt stmt).form = .unparsed range ∧
        range.stop - range.start ≤ later.position - start.position

/-- What is ready or captured stays so when more is read behind it. -/
theorem Moment.ReadiesBody.later
    {start middle later : Moment}
    {stmt : StmtId}
    (ready : start.ReadiesBody middle stmt)
    (order : middle.Precedes later) :
    start.ReadiesBody later stmt := by
  have onward := order.onward
  rcases ready with inside | ⟨range, stored, captured, short⟩
  · exact .inl (inside.widen (.refl _) order)
  · refine .inr ⟨range, order.extended.holds stored, ?_, by omega⟩
    rw [order.extended.stmt_eq stored, captured]

/-- What a definition is made of is due, ready or captured. -/
def Moment.ReadiesForm (start later : Moment) : DefForm → Prop
  | .empty => True
  | .expression expr => later.arena.Due (.expr expr)
  | .body stmt => start.ReadiesBody later stmt
  | .members stmt => start.ReadiesBody later stmt
  | .requirements _ => False
  | .deleted => True
  | .defaulted => True

/-- A definition is ready, bounded by the tokens read between two moments. -/
def Moment.ReadiesDefinition (start later : Moment) (definition : DefId) :
    Prop :=
  later.arena.Ready start.arena.decls.size
    (4 * (later.position - start.position) + 1)
    (.definition definition)

/-- A definition is ready if what it is made of is. -/
private theorem Moment.ReadiesForm.definition
    {start middle later : Moment}
    {definition : DefId}
    {form : DefForm}
    (ready : start.ReadiesForm middle form)
    (order : middle.Precedes later)
    (held : later.arena.Holds (.definition definition))
    (same : (later.arena.definition definition).form = form) :
    start.ReadiesDefinition later definition := by
  have body {stmt : StmtId} (given : start.ReadiesBody middle stmt)
      (block : form.block? = some stmt) :
        start.ReadiesDefinition later definition := by
    rcases given.later order with inside | ⟨range, stored, captured, short⟩
    · exact .block held (same ▸ block) inside (Nat.le_refl _)
    · exact .capturedBlock held (same ▸ block) stored captured (by omega)
  have nothing (childless : form.children = []) (flat : form.block? = none) :
      start.ReadiesDefinition later definition := by
    refine .nothing (Arena.Throughout.intro ?_ ?_) (same ▸ flat)
    · exact ⟨⟨held, rfl⟩, fun _ other => Term.noConfusion other⟩
    · simp [Arena.children, same, childless]
  cases form with
  | empty => exact nothing rfl rfl
  | expression expr => exact .initializer held same (order.due ready)
  | body stmt => exact body ready rfl
  | members stmt => exact body ready rfl
  | requirements reqs => exact ready.elim
  | deleted => exact nothing rfl rfl
  | defaulted => exact nothing rfl rfl

namespace Yields

variable {input : ParserInput} {start : Moment}

/-- A flat statement added whose children are parsed is ready. -/
private theorem addFlatStmt
    {earlier : Moment}
    (form : StmtForm)
    (span : Span)
    (flat : form.isFlat = true)
    (parsed : ∀ child ∈ form.children, start.arena.Parsed child) :
    Yields input start (Parser.addStmt form span) fun later stmt =>
      earlier.Readies later (.stmt stmt) := by
  refine (addStmt form span).weaken fun later stmt order ⟨held, _, same⟩ => ?_
  refine .plain (Arena.Throughout.intro ?_ fun child owned => ?_) (same ▸ flat)
  · refine ⟨⟨held, ?_⟩, fun _ other => Term.noConfusion other⟩
    rw [Arena.isUnparsed, same]
    cases form with
    | unparsed range => cases flat
    | _ => rfl
  · rw [Arena.children, same] at owned
    exact order.parsed (parsed child owned)

/--
A statement list is ready if its statements are that stand behind its brace.
-/
private theorem addList
    {first second : Moment}
    (before : start.Precedes first)
    (past : start.position < first.position)
    (inside : first.Precedes second)
    {stmts : List StmtId}
    (ready : ∀ item ∈ stmts, first.Readies second (.stmt item))
    (role : ListRole)
    (scope : ScopeId)
    (span : Span) :
    Yields input second (Parser.addStmt (.list role stmts scope) span)
      start.ReadiesList := by
  refine (addStmt _ _).weaken fun later stmt order ⟨held, new, form⟩ => ?_
  have older := (before.trans inside).extended.stmts.size_le
  have onward := inside.onward
  have last := order.onward
  have items : ∀ item ∈ stmts, later.arena.Ready start.arena.decls.size
      (4 * (later.position - first.position)) (.stmt item) := by
    intro item listed
    have further : first.Readies later (.stmt item) :=
      (ready item listed).widen (.refl _) order
    exact further.weaken before.extended.decls.size_le (Nat.le_refl _)
  exact ⟨Nat.le_trans older new, .list held form items (by omega)⟩

/--
A braced body is ready, or captured as a range that is no longer than what was
read.
-/
theorem bracedBody
    {body : Parser StmtId}
    (ready : Yields input start body start.ReadiesList) :
    Yields input start (Parser.bracedBody body) start.ReadiesBody := by
  refine next (observe _) fun _ =>
    ite ?_ (ready.weaken fun _ _ _ list => .inl list.ready)
  refine bind captureBraces fun range middle _ ⟨first, last⟩ =>
    next (observe _) fun _ => ?_
  refine (addStmt _ _).weaken fun later stmt order ⟨held, _, form⟩ =>
    .inr ⟨range, held, form, ?_⟩
  have onward := order.onward
  omega

/-- A definition added is ready if what it is made of is. -/
theorem addReadyDefinition
    {middle : Moment}
    {form : DefForm}
    (ready : start.ReadiesForm middle form)
    (span : Span) :
    Yields input middle (Parser.addDefinition form span) fun later definition =>
      start.ReadiesDefinition later definition ∧
        (later.arena.definition definition).form = form :=
  (addDefinition form span).weaken fun _ _ order ⟨held, same⟩ =>
    ⟨ready.definition order held same, same⟩

end Yields

namespace Rules.Yield

open Tern.Yields

variable {rules : Rules} {input : ParserInput} {start : Moment}
  (yield : rules.Yield input)

include yield

private theorem declarationStatement :
    Yields input start rules.declarationStatement fun later stmt =>
      start.Readies later (.stmt stmt) := by
  refine next (observe _) fun _ => bind (yield.parse .declaration start trivial)
    fun decl middle before ⟨bound, room, declared⟩ => spanned fun _ => ?_
  refine (addStmt _ _).weaken fun later stmt order ⟨held, _, form⟩ => ?_
  have onward := order.onward
  refine .declaration held form (order.ready declared) ?_
  have cost : later.arena.wrapCost decl ≤ 3 := by
    unfold Arena.wrapCost
    split <;> decide
  omega

private theorem expressionStatement :
    Yields input start rules.expressionStatement fun later stmt =>
      start.Readies later (.stmt stmt) :=
  next (observe _) fun _ => bind yield.expressionToSemicolon fun _ _ _ parsed =>
    spanned fun _ =>
    addFlatStmt _ _ rfl (List.forall_mem_singleton.mpr parsed)

private theorem valueStatement (role : ValueRole) :
    Yields input start (rules.valueStatement role) fun later stmt =>
      start.Readies later (.stmt stmt) :=
  next advance fun _ => bind yield.expressionToSemicolon fun _ _ _ parsed =>
    spanned fun _ =>
    addFlatStmt _ _ rfl (List.forall_mem_singleton.mpr parsed)

/-- A condition is parsed, and its parentheses are read. -/
private theorem condition :
    Yields input start rules.condition fun later expr =>
      later.arena.Parsed (.expr expr) ∧ start.position < later.position :=
  bind (expect yield.closed nofun) fun _ _ _ past =>
    bind yield.expression fun _ _ order parsed =>
    next (expectAny _) fun _ => Yields.pure fun _ further =>
      ⟨further.parsed parsed,
        Nat.lt_of_lt_of_le past (order.trans further).onward⟩

private theorem otherwise? :
    Yields input start rules.otherwise? fun later rejected? =>
      ∀ rejected ∈ rejected?,
      start.Readies later (.stmt rejected) := by
  refine eaten ?_ (Yields.pure fun _ _ _ given => by cases given)
  refine bind (yield.parse .statement start trivial) fun stmt _ _ ready =>
    Yields.pure fun _ order => ?_
  rintro _ ⟨⟩
  exact ready.widen (.refl _) order

private theorem branchStatement :
    Yields input start rules.branchStatement fun later stmt =>
      start.Readies later (.stmt stmt) := by
  refine next advance fun _ =>
    bind yield.condition fun test first before ⟨parsed, past⟩ => ?_
  refine bind (yield.parse .statement first trivial)
    fun yes second toSecond ready => ?_
  refine bind yield.otherwise? fun no third toThird readyNo =>
    spanned fun _ => ?_
  refine (addStmt _ _).weaken fun later stmt order ⟨held, _, form⟩ => ?_
  have onward := toSecond.onward
  have further := toThird.onward
  have last := order.onward
  have readyYes : first.Readies later (.stmt yes) :=
    ready.widen (.refl _) (toThird.trans order)
  refine .branch held form
    ((toSecond.trans (toThird.trans order)).parsed parsed)
    (readyYes.weaken before.extended.decls.size_le (Nat.le_refl _))
      (fun rejected given => ?_)
    (by omega)
  have readyNo : first.Readies later (.stmt rejected) :=
    (readyNo rejected given).widen toSecond order
  exact readyNo.weaken before.extended.decls.size_le (Nat.le_refl _)

private theorem loopStatement :
    Yields input start rules.loopStatement fun later stmt =>
      start.Readies later (.stmt stmt) := by
  refine next advance fun _ =>
    bind yield.condition fun test first before ⟨parsed, past⟩ => ?_
  refine bind (yield.parse .statement first trivial)
    fun body second toSecond ready => spanned fun _ => ?_
  refine (addStmt _ _).weaken fun later stmt order ⟨held, _, form⟩ => ?_
  have onward := toSecond.onward
  have last := order.onward
  have again : first.Readies later (.stmt body) := ready.widen (.refl _) order
  exact .loop held form ((toSecond.trans order).parsed parsed)
    (again.weaken before.extended.decls.size_le (Nat.le_refl _)) (by omega)

private theorem blockIn (scope : ScopeId) :
    Yields input start (rules.blockIn scope) start.ReadiesList :=
  next (observe _) fun _ =>
    bind (expect yield.closed nofun) fun _ first before past =>
    bind (within scope (yield.parse .bracedStatements first trivial))
        fun _ _ inside ready =>
      spanned fun _ => addList before past inside ready _ _ _

theorem memberBody :
    Yields input start rules.memberBody start.ReadiesList :=
  next (observe _) fun _ => next (observe _) fun _ =>
    bind (expect yield.closed nofun) fun _ first before past =>
      bind (yield.parse .bracedStatements first trivial) fun _ _ inside ready =>
        spanned fun _ => addList before past inside ready _ _ _

theorem currentBlock :
    Yields input start rules.currentBlock start.ReadiesList :=
  next (observe _) fun _ => yield.blockIn _

private theorem tryDeclaration :
    Yields input start rules.tryDeclaration fun later stmt =>
      start.Readies later (.stmt stmt) :=
  either yield.declarationStatement yield.expressionStatement

private theorem keywordStatement (keyword : Keyword) :
    Yields input start (rules.keywordStatement keyword) fun later stmt =>
      start.Readies later (.stmt stmt) := by
  have jumps (jump : Jump) :
      Yields input start (Rules.jumpStatement jump) fun later stmt =>
      start.Readies later (.stmt stmt) :=
    next advance fun _ => next (expectAny _) fun _ => spanned fun _ =>
      addFlatStmt _ _ rfl (List.forall_mem_nil _)
  unfold Rules.keywordStatement
  split
  · exact yield.valueStatement _
  · exact yield.valueStatement _
  · exact yield.branchStatement
  · exact yield.loopStatement
  · exact jumps _
  · exact jumps _
  · exact ite yield.declarationStatement yield.tryDeclaration

theorem statement :
    Yields input start rules.statement fun later stmt =>
      start.Readies later (.stmt stmt) := by
  refine next (observe _) fun kind => ?_
  split
  · exact yield.keywordStatement _
  · exact next (pushScope _) fun _ =>
      (yield.blockIn _).weaken fun _ _ _ list => list.ready
  · exact next advance fun _ => spanned fun _ =>
      addFlatStmt _ _ rfl (List.forall_mem_nil _)
  · exact yield.tryDeclaration

theorem unitStatements :
    Yields input start rules.unitStatements fun later stmts =>
      ∀ stmt ∈ stmts, start.Readies later (.stmt stmt) :=
  next (observe _) fun _ => ite (Yields.pure fun _ _ => List.forall_mem_nil _)
    (itemsBehind (fun start later stmt => start.Readies later (.stmt stmt))
      Moment.Readies.widen
      (fun start => yield.parse .statement start trivial)
      fun start => yield.parse .unitStatements start trivial)

theorem bracedStatements :
    Yields input start rules.bracedStatements fun later stmts =>
      ∀ stmt ∈ stmts, start.Readies later (.stmt stmt) :=
  Yields.bracedItems (fun start later stmt => start.Readies later (.stmt stmt))
    Moment.Readies.widen (fun start => yield.parse .statement start trivial)
      fun start => yield.parse .bracedStatements start trivial

/-- A compilation unit is a list of statements that are ready. -/
theorem unit :
    Yields input start rules.unit fun later unit => ∃ stmts scope,
      later.arena.Holds (.stmt unit) ∧ (later.arena.stmt unit).form =
        .list .unit stmts scope ∧
        ∀ stmt ∈ stmts, start.Readies later (.stmt stmt) := by
  refine next (observe _) fun _ => next (observe _) fun scope => ?_
  refine bind (yield.parse .unitStatements start trivial) fun stmts _ _ ready =>
    ?_
  refine next (observe _) fun _ =>
    (addStmt _ _).weaken fun later unit order ⟨held, _, form⟩ => ?_
  exact ⟨stmts, scope, held, form, fun stmt listed =>
    (ready stmt listed).widen (.refl _) order⟩

end Rules.Yield

end Tern
