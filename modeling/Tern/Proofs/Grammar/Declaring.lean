import Tern.Proofs.Grammar.Readying

namespace Tern

/-!
# Declarations are ready

A declaration that was parsed is ready to be elaborated. One that is bound
before it has been read is completed in its slot; what it owns was added behind
it, so the change of its slot touches nothing of that.
-/

/--
A change of a declaration that is no parameter leaves all that stands behind it
as it is.
-/
private theorem Arena.succeeds_updateDecl_of_lt
    {arena : Arena}
    {decl : DeclId}
    {low : Nat}
    (other : (arena.decl decl).form.isParam = false)
    (older : decl.raw < low)
    (change : Decl → Decl) :
    arena.Succeeds (arena.updateDecl decl change) low :=
  succeeds_updateDecl (fun isParam => by simp [other] at isParam)
    fun _ new => absurd older (Nat.not_lt.mpr new)

/--
Between two moments terms were added and a declaration was completed in its
slot.
-/
structure Moment.Completes (start later : Moment) (decl : DeclId) : Prop where
  onward : start.position ≤ later.position
  held : later.arena.Holds (.decl decl)
  parsed : ∀ {term : Term}, start.arena.Parsed term → later.arena.Parsed term
  due : ∀ {term : Term}, start.arena.Due term → later.arena.Due term
  definitions : ∀ {definition : DefId},
    start.arena.Holds (.definition definition) →
    later.arena.definition definition = start.arena.definition definition
  ready : ∀ {low bound : Nat} {term : Term}, decl.raw < low →
    start.arena.Ready low bound term → later.arena.Ready low bound term

/-- A declaration that is no parameter is completed when its slot is changed. -/
private theorem Moment.completes_updateDecl
    {start later : Moment}
    {arena : Arena}
    {position : Nat}
    {decl : DeclId}
    {change : Decl → Decl}
    (extended : start.arena.Extends arena)
    (held : start.arena.Holds (.decl decl))
    (other : (start.arena.decl decl).form.isParam = false)
    (onward : start.position ≤ position)
    (order : Precedes
      { arena := arena.updateDecl decl change, position := position } later) :
    start.Completes later decl := by
  have kept : (arena.decl decl).form.isParam = false := by
    rw [extended.decl_eq held]
    exact other
  have succeeds {low : Nat} (older : decl.raw < low) :
      arena.Succeeds (arena.updateDecl decl change) low :=
    Arena.succeeds_updateDecl_of_lt kept older change
  have next := succeeds (Nat.lt_succ_self _)
  exact
    { onward := Nat.le_trans onward order.onward
      held := order.extended.holds (next.holds (extended.holds held))
      parsed :=
        fun parsed => order.parsed (next.parsed (extended.parsed parsed))
      due := fun due => order.due (next.due (extended.due due))
      definitions := fun {definition} stored => by
        have stored := extended.holds stored
        rw [order.extended.definition_eq (next.holds stored),
          next.definitions stored, extended.definition_eq ‹_›]
      ready := fun older ready => order.ready ((succeeds older).ready
        ((extended.succeeds _).ready ready)) }

/--
Behind the completion of a declaration only what is older may be relied on as it
was.
-/
private theorem YieldsOver.complete
    {Value : Type}
    {input : ParserInput}
    {frame start : Moment}
    {known : Moment → Value → Prop}
    {decl : DeclId}
    {change : Arena → Decl → Decl}
    {rest : Parser Value}
    {result : Value}
    (older : frame.Precedes start)
    (held : start.arena.Holds (.decl decl))
    (new : frame.arena.decls.size ≤ decl.raw)
    (other : (start.arena.decl decl).form.isParam = false)
    (phase : ∀ arena old, (change arena old).phase = old.phase)
    (indexes : ∀ arena old, start.arena.Extends arena →
      arena.Indexes 0 (change arena old).form.parms)
    (returns : ∀ updated, Yields input updated rest fun _ value =>
      value = result)
    (rely : ∀ arena later, start.arena.Extends arena →
      start.Completes later decl →
      later.arena.decl decl = change arena (start.arena.decl decl) →
        known later result) :
    YieldsOver input frame start
      (Action.modify (fun state : ParserState => { state with
        arena := state.arena.updateDecl decl (change state.arena) }) >>=
          fun _ => rest) known := by
  refine .update older held new other phase indexes
    fun arena position order => ?_
  refine (returns _).weaken fun later value further same => same ▸ ?_
  have stored := order.extended.holds held
  have updated : (arena.updateDecl decl (change arena)).Holds (.decl decl) :=
    (Arena.holds_updateDecl _ _).mpr stored
  refine rely arena later order.extended
    (Moment.completes_updateDecl order.extended held other order.onward further)
      ?_
  rw [further.extended.decl_eq updated, Arena.decl_updateDecl stored,
    order.extended.decl_eq held]

/-- A part that changes nothing older and of which nothing is to be known. -/
private theorem YieldsOver.next
    {Value First : Type}
    {input : ParserInput}
    {frame start : Moment}
    {known : Moment → Value → Prop}
    {before : Moment → First → Prop}
    (older : frame.Precedes start)
    {parser : Parser First}
    {next : First → Parser Value}
    (first : Yields input start parser before)
    (rest : ∀ value, YieldsOver input frame start (next value) known) :
    YieldsOver input frame start (parser >>= next) known :=
  .bind older first fun value _ order _ state further =>
    rest value state (order.trans further)

/-- A declaration gets its final form when it has been read. -/
private theorem YieldsOver.completeDecl
    {input : ParserInput}
    {frame start : Moment}
    {known : Moment → DeclId → Prop}
    {decl : DeclId}
    {place : Span}
    {form : DeclForm}
    (older : frame.Precedes start)
    (held : start.arena.Holds (.decl decl))
    (new : frame.arena.decls.size ≤ decl.raw)
    (other : (start.arena.decl decl).form.isParam = false)
    (indexes : start.arena.Indexes 0 form.parms)
    (rely : ∀ later, start.Completes later decl →
      (later.arena.decl decl).name = (start.arena.decl decl).name →
        (later.arena.decl decl).form = form → known later decl) :
    YieldsOver input frame start
      (Parser.spanFrom place >>= fun span =>
        Parser.completeDecl decl form span >>= fun _ =>
        Pure.pure decl) known := by
  refine .next older (.spanFrom place) fun span => ?_
  refine @YieldsOver.complete
    _ _ _ _ _ _ (fun _ old => { old with form := form, span := span }) _ _
    older held new other (fun _ _ => rfl)
    (fun _ _ extended => extended.indexes indexes)
    (fun _ => .pure fun _ _ => rfl) ?_
  intro arena later _ completes same
  exact rely later completes (by rw [same]) (by rw [same])

/-- A declaration with a definition is ready when its definition is. -/
private theorem Moment.ReadiesDecl.defined
    {start later : Moment}
    {decl : DeclId}
    {definition : DefId}
    {low inner : Nat}
    (held : later.arena.Holds (.decl decl))
    (new : start.arena.decls.size ≤ decl.raw)
    (name : later.arena.Parsed (.name (later.arena.decl decl).name))
    (heads : ∀ head ∈ (later.arena.decl decl).form.heads, later.arena.Due head)
    (defines : (later.arena.decl decl).form.definition? = some definition)
    (takes : (later.arena.decl decl).form.takes
      (later.arena.definition definition).form = true)
    (ready : later.arena.Ready low inner (.definition definition))
    (order : start.arena.decls.size ≤ low)
    (room : inner + 4 ≤ 4 * (later.position - start.position)) :
    start.ReadiesDecl later decl :=
  ⟨inner + 1, room, .defined held new name heads defines takes
    (ready.weaken order (Nat.le_refl _)) (Nat.le_refl _)⟩

/-- Whether callable declarations take a definition. -/
def DefForm.OfCallable (form : DefForm) : Prop :=
  ∀ role params result definition,
    (DeclForm.callable role params result definition).takes form = true

namespace Rules.Yield

open Tern.Yields

variable {rules : Rules} {input : ParserInput} {start : Moment}
  (yield : rules.Yield input)

include yield

private theorem declaredType (terminators : List TokenKind) :
    Yields input start (rules.declaredType terminators) fun later type =>
      later.arena.Due (.type type) :=
  next (observe _) fun _ => ite
    (next (captureTo _) fun _ => ite (next (observe _) fun _ => failAt _ _)
      (next (observe _) fun _ => addCapturedType _ _))
    ((yield.parse .type start trivial).weaken fun _ _ _ parsed =>
      .parsed parsed)

private theorem initializer (terminators : List TokenKind) :
    Yields input start (rules.initializer terminators) fun later expr =>
      later.arena.Due (.expr expr) :=
  next (observe _) fun _ => ite
    (next (captureTo _) fun _ => ite (next (observe _) fun _ => failAt _ _)
      (next (observe _) fun _ => addCapturedExpr _ _))
    (yield.expression.weaken fun _ _ _ parsed => .parsed parsed)

private theorem initializer? :
    Yields input start rules.initializer? fun later expr? =>
      ∀ expr ∈ expr?, later.arena.Due (.expr expr) := by
  refine eaten ?_ (pure fun _ _ _ given => by cases given)
  refine bind (yield.initializer _) fun expr _ _ due => pure fun _ order => ?_
  rintro _ ⟨⟩
  exact order.due due

private theorem typeAndInitializer :
    Yields input start rules.typeAndInitializer fun later typed =>
      later.arena.Due (.type typed.1) ∧ ∀ expr ∈ typed.2,
        later.arena.Due (.expr expr) :=
  bind (yield.declaredType _) fun _ _ _ dueType =>
    bind yield.initializer? fun _ _ order dueExpr =>
    pure fun _ further => ⟨(order.trans further).due dueType,
      fun expr given => further.due (dueExpr expr given)⟩

private theorem inferredOrTyped :
    Yields input start rules.inferredOrTyped fun later typed =>
      later.arena.Due (.type typed.1) ∧ ∀ expr ∈ typed.2,
        later.arena.Due (.expr expr) := by
  refine checked (next (observe _) fun _ => ?_) yield.typeAndInitializer
  exact bind (addType _ _ rfl (List.forall_mem_nil _)) fun _ _ _ parsed =>
    bind yield.initializer? fun _ _ order dueExpr => pure fun _ further =>
      ⟨.parsed ((order.trans further).parsed parsed),
        fun expr given => further.due (dueExpr expr given)⟩

omit yield in
/-- The definition of an object is ready. -/
private theorem initializerDefinition
    (expr? : Option ExprId)
    (due : ∀ expr ∈ expr?, start.arena.Due (.expr expr)) :
    Yields input start
        (Rules.initializerDefinition expr?) fun later definition =>
      start.ReadiesDefinition later definition ∧ ∀ role type other,
        (DeclForm.object role type other).takes
          (later.arena.definition definition).form =
          true := by
  cases expr? with
  | some expr =>
      have ready : start.ReadiesForm start (.expression expr) := due expr rfl
      exact next (observe _) fun _ => (addReadyDefinition ready _).weaken
        fun _ _ _ ⟨ready, form⟩ => ⟨ready, fun _ _ _ => form ▸ rfl⟩
  | none =>
      have ready : start.ReadiesForm start .empty := trivial
      exact next (observe _) fun _ => (addReadyDefinition ready _).weaken
        fun _ _ _ ⟨ready, form⟩ => ⟨ready, fun _ _ _ => form ▸ rfl⟩

omit yield in
/-- An object added is ready if its type is due and its definition ready. -/
private theorem addObject
    {second third : Moment}
    (before : start.Precedes second)
    (past : start.position + 2 ≤ second.position)
    (inside : second.Precedes third)
    {name : NameId}
    {type : TypeId}
    {definition : DefId}
    (parsed : third.arena.Parsed (.name name))
    (due : third.arena.Due (.type type))
    (ready : second.ReadiesDefinition third definition)
    (role : ObjectRole)
    (takes : (DeclForm.object role type definition).takes
      (third.arena.definition definition).form = true)
    (specifiers : Specifiers)
    (place : Span) :
    Yields input third
      (Parser.spanFrom place >>= fun span =>
        Parser.addDecl name specifiers (.object role type definition) span >>=
            fun decl =>
          Parser.bindDecl decl >>= fun _ => Pure.pure decl)
            start.ReadiesDecl := by
  refine spanned fun span =>
    Yields.bind (addDecl _ _ _ rfl) fun decl fourth order added => ?_
  obtain ⟨held, new, sameName, sameForm⟩ := added
  refine next (bindDecl _) fun _ => pure fun later further => ?_
  have all := order.trans further
  have same := further.extended.decl_eq held
  have onward := inside.onward
  have last := all.onward
  have older := (before.trans inside).extended.decls.size_le
  have kept := all.extended.definition_eq ready.holds
  refine .defined (further.extended.holds held) (Nat.le_trans older new) ?_
    ?_ ?_ ?_
    (all.ready ready) before.extended.decls.size_le (by omega)
  · rw [same, sameName]
    exact all.parsed parsed
  · rw [same, sameForm]
    exact List.forall_mem_singleton.mpr (all.due due)
  · rw [same, sameForm]
    rfl
  · rw [same, sameForm, kept]
    exact takes

private theorem variableDeclaration :
    Yields input start rules.variableDeclaration start.ReadiesDecl := by
  refine next (observe _) fun place => next takeSpecifiers fun specifiers => ?_
  refine bind (expect yield.closed nofun) fun _ first toFirst past => ?_
  refine bind (identifier yield.closed)
    fun name second toSecond ⟨parsed, further⟩ => ?_
  refine next (expectAny _) fun _ =>
    bind yield.inferredOrTyped fun typed third toThird due => ?_
  refine next (expectAny _) fun _ => ?_
  refine bind (initializerDefinition typed.2 due.2)
    fun definition fourth toFourth ready => ?_
  refine next (observe _) fun isMember => ?_
  have onward := toThird.onward
  have begun : start.position < first.position := past
  exact addObject (toFirst.trans (toSecond.trans toThird)) (by omega) toFourth
    ((toThird.trans toFourth).parsed parsed) (toFourth.due due.1) ready.1
      _ (ready.2 _ _ _) _ _

private theorem superDeclaration :
    Yields input start rules.superDeclaration start.ReadiesDecl := by
  refine next (observe _) fun place => next takeSpecifiers fun specifiers => ?_
  refine bind (expect yield.closed nofun) fun _ first toFirst past => ?_
  refine bind (identifierOrPlaceholder yield.closed _)
    fun name second toSecond parsed => ?_
  refine bind (expect yield.closed nofun) fun _ third toThird colon => ?_
  refine bind yield.typeAndInitializer fun typed fourth toFourth due =>
    next (expectAny _) fun _ => ?_
  refine bind (initializerDefinition typed.2 due.2)
    fun definition fifth toFifth ready => ?_
  have onward := toSecond.onward
  have last := toFourth.onward
  have begun : start.position < first.position := past
  have typed : second.position < third.position := colon
  exact addObject (toFirst.trans (toSecond.trans (toThird.trans toFourth)))
    (by omega) toFifth
    ((toThird.trans (toFourth.trans toFifth)).parsed parsed) (toFifth.due due.1)
      ready.1 _
    (ready.2 _ _ _) _ _

private theorem paramType (bound : Bool) :
    Yields input start (rules.paramType bound) fun later type =>
      later.arena.DueUnless bound (.type type) := by
  refine eaten ?_ (next (observe _) fun _ => ?_)
  · cases bound with
    | true => exact yield.parse .type start trivial
    | false => exact yield.declaredType _
  · refine (addType _ _ rfl (List.forall_mem_nil _)).weaken fun _ _ _ parsed =>
      ?_
    cases bound with
    | true => exact parsed
    | false => exact .parsed parsed

/-- A parameter is as its type is. -/
private theorem param (bound : Bool) :
    Yields input start (rules.param bound) fun later param =>
      later.arena.DueUnless bound (.decl param) := by
  refine next (observe _) fun _ =>
    next (yield.parse (.paramSpecifiers _) start trivial) fun _ => ?_
  refine bind (identifier yield.closed) fun name first _ ⟨parsed, _⟩ => ?_
  refine bind (yield.paramType bound) fun type second toSecond due => ?_
  refine checked (next (observe _) fun _ => failAt _ _) (spanned fun span => ?_)
  refine bind (addDecl _ _ _ rfl)
    fun decl third toThird ⟨held, _, sameName, sameForm⟩ => ?_
  have name : third.arena.Parsed (.name (third.arena.decl decl).name) := by
    rw [sameName]
    exact (toSecond.trans toThird).parsed parsed
  have parsedDecl (parsed : third.arena.Parsed (.type type)) :
      third.arena.Parsed (.decl decl) :=
    Arena.parsed_param held (by rw [sameForm]; rfl) name (by
      rw [sameForm]
      exact List.forall_mem_singleton.mpr parsed)
  cases bound with
  | true =>
      exact next (bindDecl _) fun _ => pure fun _ order =>
        order.parsed (parsedDecl (toThird.parsed due))
  | false =>
      refine pure fun _ order => order.due ?_
      cases toThird.due due with
      | parsed parsed => exact .parsed (parsedDecl parsed)
      | captured captured _ => exact .param held name sameForm captured

private theorem params (bound : Bool) :
    Yields input start (rules.params bound) fun later params =>
      ∀ param ∈ params, later.arena.DueUnless bound (.decl param) := by
  have grow {earlier later : Moment} (order : earlier.Precedes later)
      {term : Term}
      (due : earlier.arena.DueUnless bound term) :
        later.arena.DueUnless bound term := by
    cases bound with
    | true => exact order.parsed due
    | false => exact order.due due
  refine bind (yield.param bound) fun param _ _ first => eaten ?_ ?_
  · refine bind (yield.parse (.params bound) _ trivial)
        fun rest _ order others =>
      pure fun _ further => ?_
    exact List.forall_mem_cons.mpr
      ⟨grow (order.trans further) first, fun other listed =>
        grow further (others other listed)⟩
  · exact pure fun _ order => List.forall_mem_singleton.mpr (grow order first)

private theorem resultType :
    Yields input start rules.resultType fun later type =>
      later.arena.Due (.type type) :=
  eaten (yield.declaredType _) (next (observe _) fun _ =>
    (addType _ _ rfl (List.forall_mem_nil _)).weaken fun _ _ _ parsed =>
      .parsed parsed)

/--
The parameters and the result of a signature are due, and a token is read.
-/
private theorem signature :
    Yields input start rules.signature fun later signature =>
      (∀ param ∈ signature.1, later.arena.Due (.decl param)) ∧
        later.arena.Due (.type signature.2) ∧
          start.position < later.position := by
  refine bind (expect yield.closed nofun) fun _ first _ past =>
    next (observe _) fun defers => ?_
  refine bind (Yields.orNone (yield.parse (.params !defers) first trivial))
    fun params second toSecond due => ?_
  refine next (expectAny _) fun _ =>
    bind yield.resultType fun result third toThird dueResult => ?_
  refine pure fun _ order => ⟨fun param listed => ?_, order.due dueResult, ?_⟩
  · have given := due param listed
    refine (toThird.trans order).due ?_
    unfold Arena.DueUnless at given
    split at given
    · exact .parsed given
    · exact given
  · exact Nat.lt_of_lt_of_le past (toSecond.trans (toThird.trans order)).onward

private theorem expressionBody :
    Yields input start rules.expressionBody fun later form =>
      start.ReadiesForm later form ∧ form.OfCallable :=
  bind (yield.initializer _) fun _ _ _ due => next (expectAny _) fun _ =>
    pure fun _ order => ⟨order.due due, fun _ _ _ _ => rfl⟩

private theorem functionDefinitionForm :
    Yields input start rules.functionDefinitionForm fun later form =>
      start.ReadiesForm later form ∧ form.OfCallable := by
  have worded (keyword : Keyword) (form : DefForm)
      (ready : ∀ later, start.ReadiesForm later form)
      (takes : form.OfCallable) :
      Yields input start
          (Rules.keywordDefinition keyword form) fun later form =>
        start.ReadiesForm later form ∧ form.OfCallable :=
    next (expectAny _) fun _ => next (expectAny _) fun _ => pure fun _ _ =>
      ⟨ready _, takes⟩
  refine next (observe _) fun kind => ?_
  split
  · exact bind (bracedBody yield.currentBlock) fun body _ _ ready =>
      pure fun later order =>
      ⟨ready.later order, fun _ _ _ _ => rfl⟩
  · exact next skip fun _ => pure fun _ _ => ⟨trivial, fun _ _ _ _ => rfl⟩
  · refine next (observe _) fun behind => next skip fun _ => ?_
    split
    · exact worded _ _ (fun _ => trivial) fun _ _ _ _ => rfl
    · exact worded _ _ (fun _ => trivial) fun _ _ _ _ => rfl
    · exact yield.expressionBody
  · exact yield.expressionBody

private theorem functionDefinition :
    Yields input start rules.functionDefinition fun later definition =>
      start.ReadiesDefinition later definition ∧
        (later.arena.definition definition).form.OfCallable :=
  next (observe _) fun _ =>
    bind yield.functionDefinitionForm fun _ _ _ ⟨ready, takes⟩ =>
    spanned fun _ =>
      (addReadyDefinition ready _).weaken fun _ _ _ ⟨added, same⟩ =>
      ⟨added, same ▸ takes⟩

private theorem coroutineDefinition :
    Yields input start rules.coroutineDefinition fun later definition =>
      start.ReadiesDefinition later definition ∧
        (later.arena.definition definition).form.OfCallable :=
  next (observe _) fun _ => ite yield.functionDefinition (fail _)

/-- What stands in the scope of a callable is due or ready. -/
private theorem callableBody
    {definition : Parser DefId}
    (defines : ∀ moment, Yields input moment definition fun later definition =>
      moment.ReadiesDefinition later definition ∧
        (later.arena.definition definition).form.OfCallable) :
    Yields input start (rules.callableBody definition) fun later body =>
      ((∀ param ∈ body.1, later.arena.Due (.decl param)) ∧
        later.arena.Due (.type body.2.1)) ∧
        (later.arena.definition body.2.2).form.OfCallable ∧
          ∃ inner, inner + 3 ≤ 4 * (later.position - start.position) ∧
            later.arena.Ready start.arena.decls.size inner
              (.definition body.2.2) := by
  refine bind yield.signature
    fun signature first toFirst ⟨params, result, past⟩ => ?_
  refine bind (defines first) fun definition second toSecond ⟨ready, takes⟩ =>
    ?_
  refine pure fun later order => ⟨⟨fun param listed => ?_, ?_⟩, ?_, ?_⟩
  · exact (toSecond.trans order).due (params param listed)
  · exact (toSecond.trans order).due result
  · rw [order.extended.definition_eq ready.holds]
    exact takes
  · have onward := toSecond.onward
    have last := order.onward
    exact ⟨_, by omega,
      (order.ready ready).weaken toFirst.extended.decls.size_le (Nat.le_refl _)⟩

/-- A callable declaration is ready behind its keyword. -/
private theorem callable
    {first : Moment}
    (before : start.Precedes first)
    (past : start.position < first.position)
    (role : CallableRole)
    (place : Span)
    (specifiers : Specifiers)
    {definition : Parser DefId}
    (defines : ∀ moment, Yields input moment definition fun later definition =>
      moment.ReadiesDefinition later definition ∧
        (later.arena.definition definition).form.OfCallable) :
    Yields input first (rules.callable role place specifiers definition)
      start.ReadiesDecl := by
  refine bind (identifier yield.closed) fun name second toSecond ⟨parsed, _⟩ =>
    next (eat _) fun _ => ?_
  refine declare rfl
    fun decl frame third toFrame toThird new held sameName sameForm => ?_
  refine .next toThird (bindDecl _) fun _ =>
    .next toThird (scopeFor _ _) fun scope => ?_
  refine .bind toThird (within scope (yield.callableBody defines))
    fun body fourth toFourth known => ?_
  obtain ⟨due, takes, inner, room, ready⟩ := known
  have same := toFourth.extended.decl_eq held
  refine .completeDecl (toThird.trans toFourth)
    (toFourth.extended.holds held) new
    (by rw [same, sameForm]; rfl) (Arena.indexes_nil _ 0)
    fun later completes keptName form => ?_
  have onward := toSecond.onward
  have further := toFrame.onward
  have beyond := toThird.onward
  have last := completes.onward
  have behind : decl.raw < third.arena.decls.size := held
  have older : start.arena.decls.size ≤ frame.arena.decls.size :=
    (before.trans (toSecond.trans toFrame)).extended.decls.size_le
  refine .defined completes.held (Nat.le_trans older new) ?_ ?_ ?_ ?_
    (completes.ready behind ready) (by omega) (by omega)
  · rw [keptName, same, sameName]
    exact completes.parsed
      ((toFrame.trans (toThird.trans toFourth)).parsed parsed)
  · rw [form]
    refine List.forall_mem_append.mpr
      ⟨List.forall_mem_map.mpr fun param listed => ?_, ?_⟩
    · exact completes.due (due.1 param listed)
    · exact List.forall_mem_singleton.mpr (completes.due due.2)
  · rw [form]
    rfl
  · rw [form, completes.definitions ready.holds]
    exact takes _ _ _ _

private theorem functionDeclaration :
    Yields input start rules.functionDeclaration start.ReadiesDecl :=
  next (observe _) fun _ => next takeSpecifiers fun _ =>
    bind (expect yield.closed nofun) fun _ _ before past =>
      next (observe _) fun _ =>
      yield.callable before past _ _ _ fun _ => yield.functionDefinition

private theorem coroutineDeclaration :
    Yields input start rules.coroutineDeclaration start.ReadiesDecl :=
  next (observe _) fun _ => next takeSpecifiers fun _ =>
    bind (expect yield.closed nofun) fun _ _ before past =>
      yield.callable before past _ _ _ fun _ => yield.coroutineDefinition

private theorem classKind :
    Yields input start rules.classKind fun later type =>
      later.arena.Due (.type type) := by
  have typename : Yields input start
      (Parser.behindPrevious >>= fun span =>
        Parser.addType (.builtin .typename) span)
      fun later type => later.arena.Due (.type type) :=
    next (observe _) fun _ => (addType _ _ rfl (List.forall_mem_nil _)).weaken
      fun _ _ _ parsed => .parsed parsed
  refine next (observe _) fun kind => ?_
  split
  · exact typename
  · exact typename
  · exact yield.declaredType _

private theorem classDefinition (decl : DeclId) :
    Yields input start (rules.classDefinition decl) fun later definition =>
      start.ReadiesDefinition later definition ∧ ∀ kind other,
        (DeclForm.classType kind other).takes
          (later.arena.definition definition).form = true := by
  refine next (observe _) fun _ =>
    eaten ?_ (next (scopeFor _ _) fun scope => ?_)
  · have ready : start.ReadiesForm start .empty := trivial
    exact spanned fun _ => (addReadyDefinition ready _).weaken
      fun _ _ _ ⟨added, same⟩ => ⟨added, fun _ _ => same ▸ rfl⟩
  · refine bind (within scope (bracedBody yield.memberBody))
        fun body middle _ ready =>
      spanned fun _ => ?_
    have ready : start.ReadiesForm middle (.members body) := ready
    exact (addReadyDefinition ready _).weaken
      fun _ _ _ ⟨added, same⟩ => ⟨added, fun _ _ => same ▸ rfl⟩

private theorem classDeclaration :
    Yields input start rules.classDeclaration start.ReadiesDecl := by
  refine next (observe _) fun place => next takeSpecifiers fun waiting => ?_
  refine bind (expect yield.closed nofun) fun _ first toFirst past => ?_
  refine bind (identifier yield.closed)
    fun name second toSecond ⟨parsed, named⟩ => ?_
  refine next (eat _) fun _ =>
    next (yield.parse (.classSpecifiers _) second trivial) fun _ => ?_
  refine declare rfl
    fun decl frame third toFrame toThird new held sameName sameForm => ?_
  refine .next toThird (bindDecl _) fun _ => .bind toThird yield.classKind
    fun kind fourth toFourth due => ?_
  refine .bind (toThird.trans toFourth) (yield.classDefinition decl)
    fun definition fifth toFifth ⟨ready, takes⟩ => ?_
  have toLast := toFourth.trans toFifth
  have same := toLast.extended.decl_eq held
  refine .completeDecl (toThird.trans toLast) (toLast.extended.holds held) new
    (by rw [same, sameForm]; rfl) (Arena.indexes_nil _ 0)
    fun later completes keptName form => ?_
  have onward := (toFrame.trans (toThird.trans toFourth)).onward
  have beyond := toFifth.onward
  have last := completes.onward
  have begun : start.position < first.position := past
  have behind : decl.raw < fourth.arena.decls.size :=
    toFourth.extended.holds held
  have older : start.arena.decls.size ≤ frame.arena.decls.size :=
    (toFirst.trans (toSecond.trans toFrame)).extended.decls.size_le
  refine .defined completes.held (Nat.le_trans older new) ?_ ?_ ?_ ?_
    (completes.ready behind ready) (by omega) (by omega)
  · rw [keptName, same, sameName]
    exact completes.parsed
      ((toFrame.trans (toThird.trans toLast)).parsed parsed)
  · rw [form]
    exact List.forall_mem_singleton.mpr (completes.due (toFifth.due due))
  · rw [form]
    rfl
  · rw [form, completes.definitions ready.holds]
    exact takes _ _

private theorem namespaceDeclaration :
    Yields input start rules.namespaceDeclaration start.ReadiesDecl := by
  refine next (observe _) fun place => next takeSpecifiers fun waiting => ?_
  refine bind (expect yield.closed nofun) fun _ first toFirst past => ?_
  refine bind (identifier yield.closed) fun name second toSecond ⟨parsed, _⟩ =>
    ?_
  refine declare rfl
    fun decl frame third toFrame toThird new held sameName sameForm => ?_
  refine .next toThird (bindDecl _) fun _ =>
    .next toThird (scopeFor _ _) fun scope => ?_
  refine .bind toThird (within scope yield.memberBody)
    fun body fourth toFourth list => ?_
  have same := toFourth.extended.decl_eq held
  refine .completeDecl (toThird.trans toFourth)
    (toFourth.extended.holds held) new
    (by rw [same, sameForm]; rfl) (Arena.indexes_nil _ 0)
    fun later completes keptName form => ?_
  have onward := (toSecond.trans (toFrame.trans toThird)).onward
  have beyond := toFourth.onward
  have last := completes.onward
  have begun : start.position < first.position := past
  have behind : decl.raw < third.arena.decls.size := held
  have older : start.arena.decls.size ≤ frame.arena.decls.size :=
    (toFirst.trans (toSecond.trans toFrame)).extended.decls.size_le
  refine ⟨_, ?_, .namespaceBlock completes.held (Nat.le_trans older new) ?_ form
    ((completes.ready behind list.ready).weaken (by omega) (Nat.le_refl _))
      (Nat.le_refl _)⟩
  · omega
  · rw [keptName, same, sameName]
    exact completes.parsed
      ((toFrame.trans (toThird.trans toFourth)).parsed parsed)

private theorem conceptBody :
    Yields input start rules.conceptBody fun later body =>
      ((∀ parm ∈ body.1, later.arena.Parsed (.decl parm)) ∧
        later.arena.Indexes 0 body.1) ∧
        later.arena.Parsed (.definition body.2) ∧
          (later.arena.definition body.2).form.block? = none := by
  refine bind (withTemplate yield.templateParamClause)
    fun _ _ _ ⟨_, context⟩ => ?_
  refine bind yield.conceptDefinition fun _ _ order ⟨required, flat⟩ =>
    pure fun _ further => ?_
  have onward := order.trans further
  exact ⟨⟨fun parm listed => onward.parsed (context.parms parm listed),
      onward.extended.indexes context.indexes⟩,
    further.parsed required, further.extended.definition_eq required.here.1.1 ▸
      flat⟩

private theorem conceptDeclaration :
    Yields input start rules.conceptDeclaration start.ReadiesDecl := by
  refine next (observe _) fun place => next takeSpecifiers fun waiting => ?_
  refine bind (expect yield.closed nofun) fun _ first toFirst past => ?_
  refine bind (identifier yield.closed) fun name second toSecond ⟨parsed, _⟩ =>
    ?_
  refine declare rfl
    fun decl frame third toFrame toThird new held sameName sameForm => ?_
  refine .next toThird (bindDecl _) fun _ =>
    .next toThird (scopeFor _ _) fun scope => ?_
  refine .bind toThird (within scope yield.conceptBody)
    fun body fourth toFourth ⟨⟨parms, indexes⟩, required, flat⟩ => ?_
  have same := toFourth.extended.decl_eq held
  refine .completeDecl (toThird.trans toFourth)
    (toFourth.extended.holds held) new
    (by rw [same, sameForm]; rfl) indexes
    fun later completes keptName form => ?_
  have onward :=
    (toSecond.trans (toFrame.trans (toThird.trans toFourth))).onward
  have last := completes.onward
  have begun : start.position < first.position := past
  have older : start.arena.decls.size ≤ frame.arena.decls.size :=
    (toFirst.trans (toSecond.trans toFrame)).extended.decls.size_le
  refine ⟨0, by omega, .concept completes.held (Nat.le_trans older new) ?_ form
    (fun parm listed => completes.parsed (parms parm listed))
      (completes.parsed required)
    (completes.definitions required.here.1.1 ▸ flat)⟩
  rw [keptName, same, sameName]
  exact completes.parsed
    ((toFrame.trans (toThird.trans toFourth)).parsed parsed)

/-- What stands in the scope of a template is a declaration that is ready. -/
private theorem templateBody :
    Yields input start rules.templateBody start.ReadiesDecl :=
  next yield.templateParamClause fun _ => next yield.templateConstraint fun _ =>
    yield.parse .declaration start trivial

private theorem templateDeclaration :
    Yields input start rules.templateDeclaration start.ReadiesDecl := by
  refine next (observe _) fun place => ?_
  refine bind (expect yield.closed nofun) fun _ first toFirst past => ?_
  refine declare rfl
    fun decl frame second toFrame toSecond new held sameName sameForm => ?_
  refine .next toSecond (scopeFor _ _) fun scope => ?_
  refine .bind toSecond (within scope (withTemplate yield.templateBody))
    fun result third toThird ⟨⟨bound, room, ready⟩, known⟩ => ?_
  obtain ⟨inner, context⟩ := result
  have same := toThird.extended.decl_eq held
  refine .next (toSecond.trans toThird) (spanFrom _) fun span => ?_
  refine @YieldsOver.complete _ _ _ _ _ decl
    (fun arena old => { old with
      name := (arena.decl inner).name
      span := span
      form := .template context.parms context.constraint? inner })
    _ decl (toSecond.trans toThird) (toThird.extended.holds held) new
      (by rw [same, sameForm]; rfl)
    (fun _ _ => rfl) (fun _ _ extended => extended.indexes known.indexes)
    (fun _ => next (bindDecl _) fun _ => pure fun _ _ => rfl) ?_
  intro arena later extended completes changed
  have onward := (toFrame.trans toSecond).onward
  have beyond := toThird.onward
  have last := completes.onward
  have begun : start.position < first.position := past
  have behind : decl.raw < second.arena.decls.size := held
  have older : start.arena.decls.size ≤ frame.arena.decls.size :=
    (toFirst.trans toFrame).extended.decls.size_le
  have form : (later.arena.decl decl).form =
      .template context.parms context.constraint? inner := by
    rw [changed]
  have heads : ∀ head ∈ (later.arena.decl decl).form.heads,
      later.arena.Parsed head := by
    rw [form]
    refine List.forall_mem_append.mpr
      ⟨List.forall_mem_map.mpr fun parm listed => ?_,
      List.forall_mem_map.mpr fun expr listed => ?_⟩
    · exact completes.parsed (known.parms parm listed)
    · exact completes.parsed
        (known.constraint expr (Option.mem_toList.mp listed))
  refine ⟨bound + 1, by omega, .template completes.held (Nat.le_trans older new)
    ?_ form heads
    ((completes.ready behind ready).weaken (by omega) (Nat.le_refl _))
    (fun _ => Nat.lt_of_lt_of_le behind ready.new) (Nat.le_refl _)⟩
  rw [changed]
  simp only [extended.decl_eq ready.holds]
  exact completes.parsed ready.name

private theorem declaration :
    Yields input start rules.declaration start.ReadiesDecl := by
  refine next (yield.parse .specifiers start trivial) fun _ =>
    next (observe _) fun token => ?_
  split
  · exact yield.variableDeclaration
  · exact yield.functionDeclaration
  · exact yield.coroutineDeclaration
  · exact yield.classDeclaration
  · exact yield.superDeclaration
  · exact yield.conceptDeclaration
  · exact yield.templateDeclaration
  · exact yield.namespaceDeclaration
  · exact failAt _ _

/--
Every nonterminal is parsed to what is said of it, given that those in it are.
-/
private theorem produce
    {Value : Type}
    (nonterminal : Nonterminal Value)
    (given : nonterminal.Given start) :
    Yields input start (rules.produce nonterminal)
      (nonterminal.Yielded start) := by
  cases nonterminal with
  | type => exact yield.type
  | unaryType => exact yield.unaryType
  | typeSuffixes place base => exact yield.typeSuffixes place base given
  | listedTypes afterComma => exact yield.listedTypes afterComma
  | templateArgs => exact yield.templateArgs
  | tier tier => exact yield.tiered tier
  | operations tier left => exact yield.operations tier left given
  | unary => exact yield.unary
  | postfixes place object => exact yield.postfixes place object given
  | expressions => exact yield.expressions
  | requirements => exact yield.requirements
  | statement => exact yield.statement
  | unitStatements => exact yield.unitStatements
  | bracedStatements => exact yield.bracedStatements
  | declaration => exact yield.declaration
  | specifiers => exact yield.specifiers
  | paramSpecifiers read => exact yield.paramSpecifiers read
  | classSpecifiers read => exact yield.classSpecifiers read
  | params bound => exact yield.params bound
  | templateParams => exact yield.templateParams
  | conceptMembers => exact yield.conceptMembers

end Rules.Yield

/--
Whatever the bound on nested calls, all nonterminals are parsed to what is said
of them.
-/
theorem Rules.nested_yield
    {input : ParserInput}
    (closed : input.window.Closed)
    (depth : Nat) :
    (nested depth).Yield input := by
  induction depth with
  | zero =>
      exact { closed := closed, parse := fun _ _ _ _ _ _ => trivial }
  | succ depth inductionHypothesis =>
      exact
        { closed := closed
          parse := fun nonterminal _ given =>
            inductionHypothesis.produce nonterminal given }

end Tern
