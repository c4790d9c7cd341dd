import Tern.Grammar.Fragments
import Tern.Proofs.Grammar.Yielding

namespace Tern

/-!
# What the grammar yields

Types, expressions and requirements are parsed as a whole, in every mode. What
may be captured in their place is due; statements and declarations are ready to
be elaborated, with statement lists nested no deeper than the tokens allow that
were read for them.
-/

namespace Moment.Precedes

variable {earlier later : Moment} (order : earlier.Precedes later)

include order

theorem parsed {term : Term} (parsed : earlier.arena.Parsed term) :
    later.arena.Parsed term :=
  order.extended.parsed parsed

theorem due {term : Term} (due : earlier.arena.Due term) :
    later.arena.Due term :=
  order.extended.due due

theorem ready
    {low bound : Nat}
    {term : Term}
    (ready : earlier.arena.Ready low bound term) :
    later.arena.Ready low bound term :=
  (order.extended.succeeds low).ready ready

end Moment.Precedes

/-- A term is ready, bounded by the tokens read between two moments. -/
def Moment.Readies (start later : Moment) (term : Term) : Prop :=
  later.arena.Ready start.arena.decls.size
    (4 * (later.position - start.position)) term

/-- A declaration is ready, with room for a statement that holds it. -/
def Moment.ReadiesDecl (start later : Moment) (decl : DeclId) : Prop :=
  ∃ bound, bound + 3 ≤ 4 * (later.position - start.position) ∧
    later.arena.Ready start.arena.decls.size bound (.decl decl)

/-- A term is parsed if it is bound at once; otherwise it is due. -/
def Arena.DueUnless (arena : Arena) (bound : Bool) (term : Term) : Prop :=
  if bound then arena.Parsed term else arena.Due term

namespace Nonterminal

variable {Value : Type}

/-- What has to be known before a nonterminal is parsed. -/
def Given (start : Moment) : Nonterminal Value → Prop
  | .typeSuffixes _ base => start.arena.Parsed (.type base)
  | .operations _ left => start.arena.Parsed (.expr left)
  | .postfixes _ object => start.arena.Parsed (.expr object)
  | _ => True

/-- What is known of the value that a nonterminal is parsed to. -/
def Yielded (start : Moment) : Nonterminal Value → Moment → Value → Prop
  | .type => parsedAs .type
  | .unaryType => parsedAs .type
  | .typeSuffixes _ _ => parsedAs .type
  | .listedTypes _ => fun later types => allParsedAs .type later types.1
  | .templateArgs => allParsedAs TemplateArg.term
  | .tier _ => parsedAs .expr
  | .operations _ _ => parsedAs .expr
  | .unary => parsedAs .expr
  | .postfixes _ _ => parsedAs .expr
  | .expressions => allParsedAs .expr
  | .requirements => allParsedAs .requirement
  | .statement => fun later stmt => start.Readies later (.stmt stmt)
  | .unitStatements => fun later stmts =>
      ∀ stmt ∈ stmts, start.Readies later (.stmt stmt)
  | .bracedStatements => fun later stmts =>
      ∀ stmt ∈ stmts, start.Readies later (.stmt stmt)
  | .declaration => start.ReadiesDecl
  | .specifiers => anything
  | .paramSpecifiers _ => anything
  | .classSpecifiers _ => anything
  | .params bound => fun later params =>
      ∀ param ∈ params, later.arena.DueUnless bound (.decl param)
  | .templateParams => anything
  | .conceptMembers => allParsedAs .requirement

end Nonterminal

/-- Rules by which every nonterminal is parsed to what is said of it. -/
structure Rules.Yield (rules : Rules) (input : ParserInput) : Prop where
  closed : input.window.Closed
  parse : ∀ {Value : Type} (nonterminal : Nonterminal Value) (start : Moment),
    nonterminal.Given start →
      Yields input start (rules.parse nonterminal) (nonterminal.Yielded start)

namespace Yields

variable {Value : Type} {input : ParserInput} {start : Moment}
  {known : Moment → Value → Prop}

theorem spanFrom (place : Span) :
    Yields input start (Parser.spanFrom place) anything :=
  observe _

/-- A choice by whether a token is of a kind, which is read in that case. -/
theorem eaten
    {kind : TokenKind}
    {yes no : Parser Value}
    (yieldsYes : Yields input start yes known)
    (yieldsNo : Yields input start no known) :
    Yields input start (Parser.eat kind >>= fun found =>
      if found = true then yes else no) known :=
  next (eat _) fun _ => ite yieldsYes yieldsNo

/-- A choice by what the current token is. -/
theorem checked
    {kind : TokenKind}
    {yes no : Parser Value}
    (yieldsYes : Yields input start yes known)
    (yieldsNo : Yields input start no known) :
    Yields input start (Parser.check kind >>= fun found =>
      if found = true then yes else no) known :=
  next (observe _) fun _ => ite yieldsYes yieldsNo

/-- A term added behind a span whose children are parsed is parsed. -/
theorem spanned
    {place : Span}
    {add : Span → Parser Value}
    (yields : ∀ span, Yields input start (add span) known) :
    Yields input start (Parser.spanFrom place >>= add) known :=
  next (spanFrom _) yields

theorem identifier (closed : input.window.Closed) :
    Yields input start Parser.identifier fun later name =>
      later.arena.Parsed (.name name) ∧ start.position < later.position :=
  bind (expectIdentifier closed) fun _ _ _ past =>
    (addName _ _ (List.forall_mem_nil _)).weaken fun _ _ order parsed =>
      ⟨parsed, Nat.lt_of_lt_of_le past order.onward⟩

theorem identifierOrPlaceholder (closed : input.window.Closed) (place : Span) :
    Yields input start (Parser.identifierOrPlaceholder place)
      (parsedAs .name) :=
  next (observe _) fun _ =>
    ite ((identifier closed).weaken fun _ _ _ => And.left)
    (addPlaceholder place)

/--
A repetition that may be empty yields of all items what it yields of those that
it has.
-/
theorem orNone
    {Item : Type}
    {rules : Rules}
    {closer : TokenKind}
    {items : Nonterminal (List Item)}
    {good : Moment → Item → Prop}
    (yields : Yields input start (rules.parse items) fun later found =>
      ∀ item ∈ found, good later item) :
    Yields input start (rules.orNone closer items) fun later found =>
      ∀ item ∈ found, good later item :=
  checked (pure fun _ _ => List.forall_mem_nil _) yields

section

variable {rules : Rules} {Item : Type} {item : Parser Item}
  {rest : Nonterminal (List Item)}
  (good : Moment → Moment → Item → Prop)
  (widen : ∀ {start middle later final : Moment} {item : Item},
    start.Precedes middle →
    later.Precedes final → good middle later item → good start final item)
  (one : ∀ start, Yields input start item (good start))
  (more : ∀ start, Yields input start (rules.parse rest) fun later items =>
    ∀ item ∈ items, good start later item)

include widen one more

/-- An item and those behind it are as each of them is. -/
theorem itemsBehind :
    Yields input start (item >>= fun head => rules.parse rest >>= fun tail =>
      Pure.pure (head :: tail))
      fun later items => ∀ item ∈ items, good start later item := by
  refine bind (one start) fun head middle before first =>
    bind (more middle) fun tail _ order others =>
    pure fun _ behind => ?_
  refine List.forall_mem_cons.mpr
    ⟨widen (.refl _) (order.trans behind) first, ?_⟩
  exact fun other listed => widen before behind (others other listed)

/-- Items in braces are as each of them is. -/
theorem bracedItems :
    Yields input start (rules.bracedItems item rest) fun later items =>
      ∀ item ∈ items, good start later item :=
  eaten (pure fun _ _ => List.forall_mem_nil _) (next (observe _) fun _ =>
    ite (next (observe _) fun _ => failAt _ _)
      (itemsBehind good widen one more))

end

/-- An item up to its semicolon is a requirement if its children are parsed. -/
private theorem requirementOf
    {form : Parser ReqForm}
    (parsed : Yields input start form fun later form =>
      ∀ child ∈ form.children, later.arena.Parsed child) :
    Yields input start (Rules.requirementOf form) (parsedAs .requirement) :=
  next (observe _) fun _ => bind parsed fun _ _ _ children =>
    next (expectAny _) fun _ =>
    spanned fun _ => addRequirement _ _ children

end Yields

namespace Rules.Yield

open Tern.Yields

variable {rules : Rules} {input : ParserInput} {start : Moment}
  (yield : rules.Yield input)

include yield

theorem expression : Yields input start rules.expression (parsedAs .expr) :=
  yield.parse (.tier .or) start trivial

private theorem typeArg :
    Yields input start rules.typeArg (parsedAs TemplateArg.term) :=
  bind (yield.parse .type start trivial) fun _ _ _ parsed =>
    next (observe _) fun _ =>
    ite (pure fun _ order => order.parsed parsed) (failAt _ _)

private theorem exprArg :
    Yields input start rules.exprArg (parsedAs TemplateArg.term) :=
  bind (yield.parse (.tier .shift) start trivial) fun _ _ _ parsed =>
    pure fun _ order => order.parsed parsed

theorem templateArgs :
    Yields input start rules.templateArgs (allParsedAs TemplateArg.term) := by
  refine bind (either yield.typeArg yield.exprArg) fun arg _ _ first =>
    eaten ?_ ?_
  · refine bind (yield.parse .templateArgs _ trivial) fun rest _ order others =>
      pure fun _ further => ?_
    exact List.forall_mem_cons.mpr
      ⟨(order.trans further).parsed first, fun other listed =>
        further.parsed (others other listed)⟩
  · exact pure fun _ order => List.forall_mem_singleton.mpr (order.parsed first)

private theorem angledArgs :
    Yields input start rules.angledArgs (allParsedAs TemplateArg.term) :=
  bind (Yields.orNone (yield.parse .templateArgs start trivial))
      fun _ _ _ parsed =>
    next (expectAny _) fun _ => pure fun _ order arg listed =>
      order.parsed (parsed arg listed)

private theorem nameOf
    (decl : DeclId)
    (takesArgs : Bool)
    (name : Name)
    (span : Span) :
    Yields input start (rules.nameOf decl takesArgs name span)
      (parsedAs .name) := by
  have plain : Yields input start (Parser.addName (.simple name) span)
      (parsedAs .name) :=
    addName _ _ (List.forall_mem_nil _)
  refine ite (eaten ?_ plain) plain
  refine bind yield.angledArgs fun args _ _ parsed => spanned fun _ =>
    addName _ _ (List.forall_mem_map.mpr parsed)

private theorem namedType :
    Yields input start rules.namedType (parsedAs .type) := by
  refine next (expectIdentifier yield.closed) fun named =>
    next (observe _) fun found => ?_
  split
  · exact next (observe _) fun _ => failAt _ _
  · refine next (observe _) fun arena => ?_
    split
    · exact next (observe _) fun _ => failAt _ _
    · exact bind (yield.nameOf _ _ _ _) fun _ _ _ parsed => spanned fun _ =>
        addType _ _ rfl (List.forall_mem_singleton.mpr parsed)

private theorem parenthesizedType :
    Yields input start rules.parenthesizedType (parsedAs .type) := by
  refine next (observe _) fun _ => next (expectAny _) fun _ =>
    bind (yield.parse (.listedTypes false) start trivial)
        fun listed _ _ parsed =>
      next (expectAny _) fun _ => eaten ?_ ?_
  · refine bind (yield.parse .type _ trivial) fun result _ order parsedResult =>
      spanned fun _ =>
      addType _ _ rfl ?_
    refine List.forall_mem_append.mpr ⟨List.forall_mem_map.mpr fun type known =>
      ?_, ?_⟩
    · exact order.parsed (parsed type known)
    · exact List.forall_mem_singleton.mpr parsedResult
  · split
    next only same _ =>
      exact pure fun _ order => order.parsed (parsed only (by simp [same]))
    next =>
      exact spanned fun _ => addType _ _ rfl (List.forall_mem_map.mpr parsed)

private theorem decltype : Yields input start rules.decltype (parsedAs .type) :=
  next (observe _) fun _ => next skip fun _ => next (expectAny _) fun _ =>
    bind yield.expression fun _ _ _ parsed => next (expectAny _) fun _ =>
      spanned fun _ =>
      addType _ _ rfl (List.forall_mem_singleton.mpr parsed)

private theorem primaryType :
    Yields input start rules.primaryType (parsedAs .type) := by
  refine next (observe _) fun token => ?_
  split
  · exact yield.namedType
  · exact yield.parenthesizedType
  · exact yield.decltype
  · split
    · exact next skip fun _ => addType _ _ rfl (List.forall_mem_nil _)
    · exact failAt _ _

/-- A suffix behind a type is a form whose children are parsed. -/
private theorem typeSuffix?
    (base : TypeId)
    (parsed : start.arena.Parsed (.type base)) :
    Yields input start (rules.typeSuffix? base) fun later form? =>
      ∀ form ∈ form?,
      form.isUnparsed = false ∧ ∀ child ∈ form.children,
        later.arena.Parsed child := by
  have wraps (wrapper : TypeWrapper) :
      Yields input start (Pure.pure (some (TypeForm.wrapped wrapper base)))
          fun later form? =>
        ∀ form ∈ form?,
          form.isUnparsed = false ∧ ∀ child ∈ form.children,
            later.arena.Parsed child := by
    refine pure fun _ order => ?_
    rintro _ ⟨⟩
    exact ⟨rfl, List.forall_mem_singleton.mpr (order.parsed parsed)⟩
  refine next (observe _) fun kind => ?_
  split
  · exact next skip fun _ => wraps _
  · exact next skip fun _ => wraps _
  · refine next skip fun _ => eaten (wraps _) ?_
    refine bind yield.expression fun length _ order parsedLength =>
      next (expectAny _) fun _ =>
      pure fun _ further => ?_
    rintro _ ⟨⟩
    exact ⟨rfl, List.forall_mem_cons.mpr ⟨(order.trans further).parsed parsed,
      List.forall_mem_singleton.mpr (further.parsed parsedLength)⟩⟩
  · split
    · exact next skip fun _ => wraps _
    · exact pure fun _ _ => nofun

theorem typeSuffixes
    (place : Span)
    (base : TypeId)
    (parsed : start.arena.Parsed (.type base)) :
    Yields input start (rules.typeSuffixes place base) (parsedAs .type) := by
  refine bind (yield.typeSuffix? base parsed) fun form? _ order given => ?_
  cases form? with
  | some form =>
      obtain ⟨whole, children⟩ := given form rfl
      exact spanned fun _ =>
        bind (addType form _ whole children) fun next _ _ parsedNext =>
        yield.parse (.typeSuffixes place next) _ parsedNext
  | none => exact pure fun _ further => (order.trans further).parsed parsed

theorem unaryType : Yields input start rules.unaryType (parsedAs .type) := by
  refine next (observe _) fun token => ?_
  split
  · exact next skip fun _ =>
      bind (yield.parse .unaryType start trivial) fun _ _ _ parsed =>
      spanned fun _ => addType _ _ rfl (List.forall_mem_singleton.mpr parsed)
  · exact bind yield.primaryType fun base _ _ parsed =>
      yield.parse (.typeSuffixes _ base) _ parsed

theorem type : Yields input start rules.type (parsedAs .type) :=
  next (observe _) fun _ =>
    bind (yield.parse .unaryType start trivial) fun _ _ _ parsed => eaten
    (spanned fun _ => addType _ _ rfl (List.forall_mem_singleton.mpr parsed))
    (pure fun _ order => order.parsed parsed)

theorem listedTypes (afterComma : Bool) :
    Yields input start (rules.listedTypes afterComma)
      fun later types => allParsedAs .type later types.1 := by
  refine checked (pure fun _ _ => List.forall_mem_nil _) ?_
  refine bind (yield.parse .type start trivial) fun type _ _ first =>
    eaten ?_ ?_
  · refine bind (yield.parse (.listedTypes true) _ trivial)
        fun rest _ order others =>
      pure fun _ further => ?_
    exact List.forall_mem_cons.mpr
      ⟨(order.trans further).parsed first, fun other listed =>
        further.parsed (others other listed)⟩
  · exact pure fun _ order => List.forall_mem_singleton.mpr (order.parsed first)

private theorem operand (tier : Tier) :
    Yields input start (rules.operand tier) (parsedAs .expr) := by
  unfold Rules.operand
  split
  · exact yield.parse (.tier _) start trivial
  · exact yield.parse .unary start trivial

theorem operations
    (tier : Tier)
    (left : ExprId)
    (parsed : start.arena.Parsed (.expr left)) :
    Yields input start (rules.operations tier left) (parsedAs .expr) := by
  refine next (observe _) fun kind => ?_
  split
  · exact pure fun _ order => order.parsed parsed
  · refine next skip fun _ =>
      bind (yield.operand tier) fun right _ order parsedRight =>
      next (observe _) fun _ =>
        bind (addExpr _ _ rfl ?_) fun joined _ _ parsedJoined =>
        yield.parse (.operations tier joined) _ parsedJoined
    exact List.forall_mem_cons.mpr
      ⟨order.parsed parsed, List.forall_mem_singleton.mpr parsedRight⟩

theorem tiered (tier : Tier) :
    Yields input start (rules.tiered tier) (parsedAs .expr) :=
  bind (yield.operand tier) fun left _ _ parsed =>
    yield.parse (.operations tier left) _ parsed

theorem expressions :
    Yields input start rules.expressions (allParsedAs .expr) := by
  refine bind yield.expression fun expr _ _ first => eaten ?_ ?_
  · refine bind (yield.parse .expressions _ trivial) fun rest _ order others =>
      pure fun _ further => ?_
    exact List.forall_mem_cons.mpr
      ⟨(order.trans further).parsed first, fun other listed =>
        further.parsed (others other listed)⟩
  · exact pure fun _ order => List.forall_mem_singleton.mpr (order.parsed first)

private theorem closedExpressions :
    Yields input start rules.closedExpressions (allParsedAs .expr) :=
  bind (Yields.orNone (yield.parse .expressions start trivial))
      fun _ _ _ parsed =>
    next (expectAny _) fun _ => pure fun _ order expr listed =>
      order.parsed (parsed expr listed)

private theorem namedExpression :
    Yields input start rules.namedExpression (parsedAs .expr) := by
  refine next (expectIdentifier yield.closed) fun named =>
    next (observe _) fun found => ?_
  split
  · exact next (observe _) fun _ => failAt _ _
  · exact next (observe _) fun _ =>
      bind (yield.nameOf _ _ _ _) fun _ _ _ parsed =>
      spanned fun _ => addExpr _ _ rfl (List.forall_mem_singleton.mpr parsed)
  · exact bind (addName _ _ (List.forall_mem_nil _)) fun _ _ _ parsed =>
      spanned fun _ => addExpr _ _ rfl (List.forall_mem_singleton.mpr parsed)

private theorem parenthesizedExpression :
    Yields input start rules.parenthesizedExpression (parsedAs .expr) := by
  refine next (observe _) fun _ => next (expectAny _) fun _ => eaten
    (spanned fun _ => addExpr _ _ rfl (List.forall_mem_nil _)) ?_
  refine bind yield.expression fun first _ _ parsed => eaten
    (pure fun _ order => order.parsed parsed) ?_
  refine next (expectAny _) fun _ =>
    bind yield.closedExpressions fun rest _ order others =>
    spanned fun _ => addExpr _ _ rfl ?_
  exact List.forall_mem_cons.mpr
    ⟨order.parsed parsed, List.forall_mem_map.mpr others⟩

/-- The parameters of a requires-expression are parsed. -/
private theorem requiresParams :
    Yields input start rules.requiresParams (allParsedAs .decl) := by
  refine eaten ?_ (pure fun _ _ => List.forall_mem_nil _)
  refine bind (Yields.orNone (yield.parse (.params true) start trivial))
      fun _ _ _ parsed =>
    next (expectAny _) fun _ => pure fun _ order parm listed => ?_
  exact order.parsed (by simpa [Arena.DueUnless] using parsed parm listed)

private theorem requiresBody :
    Yields input start rules.requiresBody fun later body =>
      allParsedAs .decl later body.1 ∧ allParsedAs .requirement later body.2 :=
  bind yield.requiresParams fun _ _ _ parms => next (expectAny _) fun _ =>
    bind (yield.parse .requirements _ trivial) fun _ _ order reqs =>
      pure fun _ further =>
      ⟨fun parm listed => (order.trans further).parsed (parms parm listed),
        fun req listed => further.parsed (reqs req listed)⟩

private theorem requiresExpression :
    Yields input start rules.requiresExpression (parsedAs .expr) := by
  refine next (observe _) fun _ => next (expectAny _) fun _ =>
    next (pushScope _) fun scope =>
    bind (within scope yield.requiresBody) fun body _ _ parsed =>
      spanned fun _ =>
      addExpr _ _ rfl ?_
  exact List.forall_mem_append.mpr
    ⟨List.forall_mem_map.mpr parsed.1, List.forall_mem_map.mpr parsed.2⟩

private theorem primary :
    Yields input start rules.primary (parsedAs .expr) := by
  have literal (form : ExprForm) (whole : form.isUnparsed = false)
      (plain : form.children = []) :
      Yields input start (Rules.literal form) (parsedAs .expr) :=
    next advance fun _ => addExpr _ _ whole (by simp [plain])
  refine next (observe _) fun token => ?_
  split
  · exact literal _ rfl rfl
  · exact literal _ rfl rfl
  · exact literal _ rfl rfl
  · exact yield.namedExpression
  · exact yield.parenthesizedExpression
  · exact yield.requiresExpression
  · exact failAt _ _

/--
What stands behind a primary expression is a form whose children are parsed.
-/
private theorem postfix?
    (object : ExprId)
    (parsed : start.arena.Parsed (.expr object)) :
    Yields input start (rules.postfix? object) fun later form? =>
      ∀ form ∈ form?,
      form.isUnparsed = false ∧ ∀ child ∈ form.children,
        later.arena.Parsed child := by
  refine next (observe _) fun kind => ?_
  split
  · refine next skip fun _ =>
      bind yield.closedExpressions fun args _ order parsedArgs =>
      pure fun _ further => ?_
    rintro _ ⟨⟩
    exact ⟨rfl, List.forall_mem_cons.mpr ⟨(order.trans further).parsed parsed,
      List.forall_mem_map.mpr fun arg listed =>
        further.parsed (parsedArgs arg listed)⟩⟩
  · refine next skip fun _ =>
      bind (identifier yield.closed) fun member _ order parsedMember =>
      pure fun _ further => ?_
    rintro _ ⟨⟩
    exact ⟨rfl, List.forall_mem_cons.mpr ⟨(order.trans further).parsed parsed,
      List.forall_mem_singleton.mpr (further.parsed parsedMember.1)⟩⟩
  · refine next skip fun _ =>
      bind yield.expression fun index _ order parsedIndex =>
      next (expectAny _) fun _ => pure fun _ further => ?_
    rintro _ ⟨⟩
    exact ⟨rfl, List.forall_mem_cons.mpr ⟨(order.trans further).parsed parsed,
      List.forall_mem_singleton.mpr (further.parsed parsedIndex)⟩⟩
  · exact pure fun _ _ => nofun

theorem postfixes
    (place : Span)
    (object : ExprId)
    (parsed : start.arena.Parsed (.expr object)) :
    Yields input start (rules.postfixes place object) (parsedAs .expr) := by
  refine bind (yield.postfix? object parsed) fun form? _ order given => ?_
  cases form? with
  | some form =>
      obtain ⟨whole, children⟩ := given form rfl
      exact spanned fun _ =>
        bind (addExpr form _ whole children) fun next _ _ parsedNext =>
        yield.parse (.postfixes place next) _ parsedNext
  | none => exact pure fun _ further => (order.trans further).parsed parsed

theorem unary : Yields input start rules.unary (parsedAs .expr) := by
  refine next (observe _) fun token => ?_
  split
  · exact next skip fun _ =>
      bind (yield.parse .unary start trivial) fun _ _ _ parsed =>
      spanned fun _ => addExpr _ _ rfl (List.forall_mem_singleton.mpr parsed)
  · exact bind yield.primary fun object _ _ parsed =>
      yield.parse (.postfixes _ object) _ parsed

theorem expressionToSemicolon :
    Yields input start rules.expressionToSemicolon (parsedAs .expr) :=
  bind yield.expression fun _ _ _ parsed => next (expectAny _) fun _ =>
    pure fun _ order => order.parsed parsed

private theorem typeRequirement :
    Yields input start rules.typeRequirement fun later form =>
      ∀ child ∈ form.children, later.arena.Parsed child :=
  next skip fun _ => bind (yield.parse .type start trivial) fun _ _ _ parsed =>
    pure fun _ order => List.forall_mem_singleton.mpr (order.parsed parsed)

private theorem expressionRequirement :
    Yields input start rules.expressionRequirement fun later form =>
      ∀ child ∈ form.children, later.arena.Parsed child := by
  refine bind yield.expression fun expr middle _ parsed => ?_
  have typed (role : TypedRole) : Yields input middle
      (rules.parse .type >>= fun type =>
        Pure.pure (ReqForm.typed role expr type))
      fun later form => ∀ child ∈ form.children, later.arena.Parsed child :=
    bind (yield.parse .type middle trivial) fun _ _ order parsedType =>
      pure fun _ further =>
      List.forall_mem_cons.mpr ⟨(order.trans further).parsed parsed,
        List.forall_mem_singleton.mpr (further.parsed parsedType)⟩
  exact eaten (typed _) (eaten (typed _)
    (pure fun _ order => List.forall_mem_singleton.mpr (order.parsed parsed)))

private theorem requirement :
    Yields input start rules.requirement (parsedAs .requirement) :=
  Yields.requirementOf
    (checked yield.typeRequirement yield.expressionRequirement)

theorem requirements :
    Yields input start rules.requirements (allParsedAs .requirement) :=
  Yields.bracedItems (fun _ later req => later.arena.Parsed (.requirement req))
    (fun _ order parsed => order.parsed parsed) (fun _ => yield.requirement)
    fun start => yield.parse .requirements start trivial

private theorem conceptMember :
    Yields input start rules.conceptMember (parsedAs .requirement) := by
  have plain : Yields input start rules.plainConceptMember
      (parsedAs .requirement) :=
    Yields.requirementOf
        (checked yield.typeRequirement
          (bind yield.expression fun _ _ _ parsed =>
      pure fun _ order => List.forall_mem_singleton.mpr (order.parsed parsed)))
  have syntactic :
      Yields input start rules.syntacticRequirement (parsedAs .requirement) :=
    Yields.requirementOf (next (expectAny _) fun _ =>
      bind yield.expression fun _ _ _ parsed =>
      pure fun _ order => List.forall_mem_singleton.mpr (order.parsed parsed))
  exact checked (either syntactic plain) plain

theorem conceptMembers :
    Yields input start rules.conceptMembers (allParsedAs .requirement) :=
  Yields.bracedItems (fun _ later req => later.arena.Parsed (.requirement req))
    (fun _ order parsed => order.parsed parsed) (fun _ => yield.conceptMember)
    fun start => yield.parse .conceptMembers start trivial

/-- What a concept requires is parsed, and is no block. -/
theorem conceptDefinition :
    Yields input start rules.conceptDefinition fun later definition =>
      later.arena.Parsed (.definition definition) ∧
        (later.arena.definition definition).form.block? = none := by
  have adds {middle : Moment} (form : DefForm) (span : Span)
      (parsed : ∀ child ∈ form.children, middle.arena.Parsed child)
      (flat : form.block? = none) :
      Yields input middle
          (Parser.addDefinition form span) fun later definition =>
        later.arena.Parsed (.definition definition) ∧
          (later.arena.definition definition).form.block? = none := by
    refine inArena (fun arena => arena.extends_addDefinition form span)
      (fun _ => rfl)
      fun arena _ order =>
        ⟨?_, by rw [arena.definition_addDefinition]; exact flat⟩
    refine (arena.extends_addDefinition form span).parsed_added
      ⟨⟨by simp [Arena.Holds, Arena.addDefinition], rfl⟩, nofun⟩
        fun child listed => ?_
    rw [Arena.children, arena.definition_addDefinition] at listed
    exact order.parsed (parsed child listed)
  refine next (observe _) fun _ => eaten ?_ ?_
  · exact bind yield.expressionToSemicolon fun _ _ _ parsed => spanned fun _ =>
      adds _ _ (List.forall_mem_singleton.mpr parsed) rfl
  · exact next (expectAny _) fun _ =>
      bind (yield.parse .conceptMembers start trivial)
      fun _ _ _ parsed => spanned fun _ =>
        adds _ _ (List.forall_mem_map.mpr parsed) rfl

private theorem defaultType? :
    Yields input start rules.defaultType? fun later default? =>
      ∀ type ∈ default?, later.arena.Parsed (.type type) := by
  refine eaten ?_ (pure fun _ _ _ given => by cases given)
  refine bind (yield.parse .type start trivial) fun type _ _ parsed =>
    pure fun _ order => ?_
  rintro _ ⟨⟩
  exact order.parsed parsed

/--
A template parameter joins the template context as a parameter that is parsed.
-/
private theorem templateParam :
    Yields input start rules.templateParam anything := by
  refine next (observe _) fun _ => next (expectAny _) fun _ => ?_
  refine bind (identifierOrPlaceholder yield.closed _)
    fun name _ _ parsedName => ?_
  refine bind yield.defaultType? fun default? middle order parsedDefault => ?_
  exact joinParam (order.parsed parsedName) parsedDefault

theorem templateParams : Yields input start rules.templateParams anything :=
  next yield.templateParam fun _ =>
    eaten (yield.parse .templateParams start trivial)
    (pure fun _ _ => trivial)

theorem templateParamClause :
    Yields input start rules.templateParamClause anything :=
  next (expectAny _) fun _ => next
    (checked (pure fun _ _ => trivial)
        (yield.parse .templateParams start trivial)) fun _ =>
      (expectAny _)

theorem templateConstraint :
    Yields input start rules.templateConstraint anything :=
  eaten (bind (yield.parse (.tier .or) start trivial) fun _ _ _ parsed =>
    constrainTemplate parsed)
    (pure fun _ _ => trivial)

theorem specifiers : Yields input start rules.specifiers anything := by
  refine next (observe _) fun kind => ?_
  split
  · exact next skip fun _ => next (addSpecifier _) fun _ =>
      yield.parse .specifiers start trivial
  · exact pure fun _ _ => trivial

theorem paramSpecifiers (read : Specifiers) :
    Yields input start (rules.paramSpecifiers read) anything := by
  refine next (observe _) fun kind => ?_
  split
  · exact next skip fun _ => yield.parse (.paramSpecifiers _) start trivial
  · exact pure fun _ _ => trivial

theorem classSpecifiers (read : Specifiers) :
    Yields input start (rules.classSpecifiers read) anything :=
  eaten (yield.parse (.classSpecifiers _) start trivial)
    (pure fun _ _ => trivial)

end Rules.Yield

end Tern
