import Tern.Grammar.Templates
import Tern.Proofs.Grammar.Runs
import Tern.Proofs.Term.Indexing

namespace Tern

/-!
# What parsers yield

A parser is done with a value of which something is known in the arena that it
leaves. What was known before stays known, because parsing adds terms and
changes only declarations that it has added itself.
-/

/-- How far a parse has come. -/
structure Moment where
  arena : Arena
  position : Nat

/-- How far a parser has come. -/
def ParserState.moment (state : ParserState) : Moment :=
  { arena := state.arena, position := state.position }

/--
Between two moments terms and tokens were added. No declaration was elaborated,
and the parameters of templates and concepts that were added are indexed.
-/
structure Moment.Precedes (earlier later : Moment) : Prop where
  extended : earlier.arena.Extends later.arena
  onward : earlier.position ≤ later.position
  unelaborated : ∀ {decl : DeclId}, earlier.arena.decls.size ≤ decl.raw →
    (later.arena.decl decl).phase = .unelaborated
  indexed : later.arena.IndexedFrom earlier.arena.decls.size

/-- A declaration that is not stored is unelaborated. -/
theorem Arena.phase_of_size_le
    {arena : Arena}
    {decl : DeclId}
    (past : arena.decls.size ≤ decl.raw) :
    (arena.decl decl).phase = .unelaborated := by
  simp [Arena.decl, Array.getD_eq_getD_getElem?, past, Vacant.decl]

namespace Moment.Precedes

variable {earlier middle later : Moment}

theorem refl (earlier : Moment) : earlier.Precedes earlier where
  extended := .refl _
  onward := Nat.le_refl _
  unelaborated past := Arena.phase_of_size_le past
  indexed := earlier.arena.indexedFrom_size

theorem trans
    (first : earlier.Precedes middle)
    (second : middle.Precedes later) :
    earlier.Precedes later where
  extended := first.extended.trans second.extended
  onward := Nat.le_trans first.onward second.onward
  unelaborated {decl} past := by
    by_cases stored : decl.raw < middle.arena.decls.size
    · rw [second.extended.decl_eq stored]
      exact first.unelaborated past
    · exact second.unelaborated (Nat.le_of_not_lt stored)
  indexed := second.extended.indexedFrom first.indexed second.indexed

end Moment.Precedes

/--
The parameters of a template context are parsed and indexed, and its constraint
is parsed.
-/
structure TemplateContext.ParsedIn
    (arena : Arena)
    (context : TemplateContext) :
    Prop where
  parms : ∀ parm ∈ context.parms, arena.Parsed (.decl parm)
  indexes : arena.Indexes 0 context.parms
  constraint : ∀ constraint ∈ context.constraint?,
    arena.Parsed (.expr constraint)

/-- A template context of which nothing is read yet is parsed. -/
private theorem TemplateContext.parsedIn_empty (arena : Arena) :
    TemplateContext.empty.ParsedIn arena where
  parms _ listed := absurd listed List.not_mem_nil
  indexes := arena.indexes_nil 0
  constraint _ given := by cases given

/--
A context stays parsed when a type parameter is added that is parsed and has the
number of those before it as its index.
-/
private theorem TemplateContext.ParsedIn.join
    {arena : Arena}
    {context : TemplateContext}
    {added : Decl}
    {default? : Option TypeId}
    (parsed : context.ParsedIn arena)
    (form : added.form = .typeParameter context.parms.length default?)
    (parsedName : arena.Parsed (.name added.name))
    (parsedDefault : ∀ type ∈ default?, arena.Parsed (.type type)) :
    TemplateContext.ParsedIn (arena.addDecl added).2
      { context with
        parms := context.parms ++ [(arena.addDecl added).1] } where
  parms := by
    have extended := arena.extends_addDecl added
    refine List.forall_mem_append.mpr ⟨fun parm listed =>
      extended.parsed (parsed.parms parm listed),
      List.forall_mem_singleton.mpr (Arena.parsed_param ?_ ?_ ?_ ?_)⟩
    · simp [Arena.Holds, Arena.addDecl]
    · rw [arena.decl_addDecl, form]
      rfl
    · rw [arena.decl_addDecl]
      exact extended.parsed parsedName
    · rw [arena.decl_addDecl, form]
      refine List.forall_mem_map.mpr fun type listed =>
        extended.parsed (parsedDefault type ?_)
      simpa using listed
  indexes := by
    refine ((arena.extends_addDecl added).indexes parsed.indexes).append
      (Arena.indexes_singleton ?_)
    rw [arena.decl_addDecl, form]
    simp [DeclForm.index?]
  constraint expr given :=
    (arena.extends_addDecl added).parsed (parsed.constraint expr given)

/-- The template context, if one is in force, is parsed. -/
def ParserState.ContextParsed (state : ParserState) : Prop :=
  ∀ context ∈ state.track.template?, context.ParsedIn state.arena

/-- The template context stays parsed in a larger arena. -/
private theorem ParserState.ContextParsed.grow
    {state after : ParserState}
    (parsed : state.ContextParsed)
    (extended : state.arena.Extends after.arena)
    (same : after.track.template? = state.track.template?) :
    after.ContextParsed := by
  intro context given
  have known := parsed context (same ▸ given)
  exact
    { parms := fun parm listed => extended.parsed (known.parms parm listed)
      indexes := extended.indexes known.indexes
      constraint :=
        fun expr given => extended.parsed (known.constraint expr given) }

/--
What is said of the ending of a parser that began in a state beyond a frame.
-/
def Outcome.Yields
    {Value : Type}
    (frame : Moment)
    (known : Moment → Value → Prop) :
    Outcome ParseError ParserState Value → Prop
  | .done value after =>
      frame.Precedes after.moment ∧ after.ContextParsed ∧
        known after.moment value
  | .failed _ after => frame.arena.Extends after.arena
  | .exhausted => True

/--
From a moment on, a parser is done with values of which something is known.
-/
def Yields
    {Value : Type}
    (input : ParserInput)
    (start : Moment)
    (parser : Parser Value)
    (known : Moment → Value → Prop) : Prop :=
  ∀ state : ParserState, start.Precedes state.moment → state.ContextParsed →
    (parser input state).Yields state.moment known

/--
A parser that may change declarations added since a frame is done with values of
which something is known.
-/
def YieldsOver {Value : Type} (input : ParserInput) (frame start : Moment)
    (parser : Parser Value) (known : Moment → Value → Prop) : Prop :=
  ∀ state : ParserState, start.Precedes state.moment → state.ContextParsed →
    (parser input state).Yields frame known

/-- Nothing is known of a value. -/
def anything {Value : Type} (_ : Moment) (_ : Value) : Prop :=
  True

/-- The position has gone on. -/
def further
    {Value : Type}
    (start : Moment)
    (later : Moment)
    (_ : Value) :
    Prop :=
  start.position < later.position

/-- The term that a value is known by is parsed. -/
def parsedAs
    {Value : Type}
    (term : Value → Term)
    (later : Moment)
    (value : Value) :
    Prop :=
  later.arena.Parsed (term value)

/-- The terms that some values are known by are parsed. -/
def allParsedAs
    {Value : Type}
    (term : Value → Term)
    (later : Moment)
    (values : List Value) :
    Prop :=
  ∀ value ∈ values, later.arena.Parsed (term value)

namespace Outcome.Yields

variable {Value : Type} {frame : Moment} {known : Moment → Value → Prop}
  {outcome : Outcome ParseError ParserState Value}

theorem weaken
    (yields : outcome.Yields frame known)
    {earlier : Moment}
    (order : earlier.Precedes frame)
    {less : Moment → Value → Prop}
    (implied : ∀ later value, frame.Precedes later → known later value →
      less later value) :
    outcome.Yields earlier less := by
  cases outcome with
  | done value after =>
      obtain ⟨precedes, parsed, fact⟩ := yields
      exact ⟨order.trans precedes, parsed, implied _ _ precedes fact⟩
  | failed error after => exact order.extended.trans yields
  | exhausted => trivial

end Outcome.Yields

namespace Yields

variable {Value First : Type} {input : ParserInput} {start : Moment}
  {known : Moment → Value → Prop} {before : Moment → First → Prop}

theorem weaken
    {parser : Parser Value}
    {less : Moment → Value → Prop}
    (yields : Yields input start parser known)
    (implied : ∀ later value, start.Precedes later → known later value →
      less later value) :
    Yields input start parser less :=
  fun state order parsed => (yields state order parsed).weaken (.refl _)
    fun _ _ further => implied _ _ (order.trans further)

/-- What a parser yields from a moment on it yields from later ones on. -/
private theorem later
    {parser : Parser Value}
    (yields : Yields input start parser known)
    {later : Moment}
    (order : start.Precedes later) :
    Yields input later parser known :=
  fun state further => yields state (order.trans further)

theorem pure
    {value : Value}
    (fact : ∀ later, start.Precedes later → known later value) :
    Yields input start (Pure.pure value) known :=
  fun _ order parsed => ⟨.refl _, parsed, fact _ order⟩

theorem fail (error : ParseError) :
    Yields input start (Action.fail error) known :=
  fun _ _ _ => .refl _

theorem failAt (cause : ParseCause) (span : Span) :
    Yields input start (Parser.failAt cause span) known :=
  fail _

/-- A sequence yields what its rest yields from where the first part is done. -/
theorem bind
    {parser : Parser First}
    {next : First → Parser Value}
    (first : Yields input start parser before)
    (rest : ∀ value later, start.Precedes later → before later value →
      Yields input later (next value) known) :
    Yields input start (parser >>= next) known := by
  intro state order parsed
  have started := first state order parsed
  simp only [Bind.bind, Action.bind]
  cases ending : parser input state with
  | done value middle =>
      rw [ending] at started
      obtain ⟨precedes, parsedMiddle, fact⟩ := started
      have ended := rest value middle.moment (order.trans precedes) fact middle
        (.refl _) parsedMiddle
      exact ended.weaken precedes fun _ _ _ => id
  | failed error middle =>
      rw [ending] at started
      exact started
  | exhausted => trivial

/--
Behind a part of which nothing is to be known, the rest begins as if it were not
there.
-/
theorem next
    {parser : Parser First}
    {next : First → Parser Value}
    (first : Yields input start parser before)
    (rest : ∀ value, Yields input start (next value) known) :
    Yields input start (parser >>= next) known :=
  bind first fun value _ order _ => (rest value).later order

theorem ite {condition : Prop} [Decidable condition] {yes no : Parser Value}
    (yieldsYes : Yields input start yes known)
    (yieldsNo : Yields input start no known) :
    Yields input start (if condition then yes else no) known := by
  split
  · exact yieldsYes
  · exact yieldsNo

/-- What is observed is known of the present moment. -/
private theorem observeKnown
    (read : ParserInput → ParserState → Value)
    (fact : ∀ state : ParserState, start.Precedes state.moment →
      known state.moment (read input state)) :
    Yields input start (fun input state => .done (read input state) state)
      known :=
  fun state order parsed => ⟨.refl _, parsed, fact state order⟩

/-- An observation changes nothing. -/
theorem observe (read : ParserInput → ParserState → Value) :
    Yields input start (fun input state => .done (read input state) state)
      anything :=
  observeKnown read fun _ _ => trivial

/-- A change of the scopes or of the specifiers adds no terms. -/
private theorem aside
    {parser : Parser Value}
    (value : ParserState → Value)
    (change : ParserState → ParserState)
    (run : ∀ state, parser input state = .done (value state) (change state))
    (arena : ∀ state, (change state).arena = state.arena)
    (position : ∀ state, (change state).position = state.position)
    (template : ∀ state, (change state).track.template? =
      state.track.template?) :
    Yields input start parser anything := by
  intro state _ parsed
  rw [run]
  have extended : state.arena.Extends (change state).arena :=
    arena state ▸ .refl _
  have same : (change state).arena = state.arena := arena state
  refine ⟨⟨extended, Nat.le_of_eq (position state).symm, ?_,
      Arena.indexedFrom_of_decls_eq (congrArg Arena.decls same)⟩,
    parsed.grow extended (template state),
    trivial⟩
  intro decl past
  simp only [ParserState.moment, same]
  exact Arena.phase_of_size_le past

private theorem inScopes (change : Scopes → Value × Scopes) :
    Yields input start (Parser.inScopes change) anything :=
  aside (fun state => (change state.scopes).1)
    (fun state => { state with scopes := (change state.scopes).2 })
    (fun _ => rfl) (fun _ => rfl) (fun _ => rfl) (fun _ => rfl)

theorem pushScope (kind : ScopeKind) :
    Yields input start (Parser.pushScope kind) anything :=
  inScopes _

theorem scopeFor (decl : DeclId) (kind : ScopeKind) :
    Yields input start (Parser.scopeFor decl kind) anything :=
  inScopes _

theorem bindDecl (decl : DeclId) :
    Yields input start (Parser.bindDecl decl) anything :=
  aside (fun _ => ())
    (fun state => { state with
      scopes :=
        (state.scopes.declare state.scopes.current (state.arena.declKey decl)
          decl).2 })
    (fun _ => rfl) (fun _ => rfl) (fun _ => rfl) (fun _ => rfl)

theorem addSpecifier (specifier : Specifier) :
    Yields input start (Parser.addSpecifier specifier) anything :=
  aside (fun _ => ())
    (fun state => { state with track :=
      { state.track with specifiers := state.track.specifiers.insert specifier }
        })
    (fun _ => rfl) (fun _ => rfl) (fun _ => rfl) (fun _ => rfl)

theorem takeSpecifiers : Yields input start Parser.takeSpecifiers anything :=
  aside (fun state => state.track.specifiers)
    (fun state =>
      { state with track := { state.track with specifiers := .none } })
    (fun _ => rfl) (fun _ => rfl) (fun _ => rfl) (fun _ => rfl)

/-- Behind a token read, terms and the template context are as before. -/
private theorem behind
    {state : ParserState}
    (parsed : state.ContextParsed) :
    state.moment.Precedes (Parser.behind input state).moment ∧
      (Parser.behind input state).ContextParsed := by
  refine ⟨⟨.refl _, ?_, fun past => Arena.phase_of_size_le past,
      state.arena.indexedFrom_size⟩,
    parsed.grow (.refl _) (ParserTrack.follow_template? _ _)⟩
  simp only [ParserState.moment, Parser.behind, Window.next]
  split <;> omega

theorem advance : Yields input start Parser.advance anything :=
  fun _ _ parsed => ⟨(behind parsed).1, (behind parsed).2, trivial⟩

theorem skip : Yields input start Parser.skip anything :=
  next advance fun _ => pure fun _ _ => trivial

theorem eat (kind : TokenKind) :
    Yields input start (Parser.eat kind) anything :=
  next (observe _) fun _ => ite (next skip fun _ => pure fun _ _ => trivial)
    (pure fun _ _ => trivial)

/-- A token that has to be of a kind is read. -/
theorem expect
    (closed : input.window.Closed)
    {kind : TokenKind}
    (real : kind ≠ .endOfInput) :
    Yields input start (Parser.expect kind) (further start) := by
  intro state order parsed
  by_cases found : input.window.kindAt state.position = kind
  · rw [Parser.expect_run_of_eq found]
    refine ⟨(behind parsed).1, (behind parsed).2, ?_⟩
    have inside : state.position < input.window.stop :=
      closed.lt_stop (found ▸ real)
    have onward := order.onward
    simp only [further, ParserState.moment, Parser.behind_position inside]
      at onward ⊢
    omega
  · obtain ⟨failure, failed⟩ := Parser.expect_run_of_ne found
    rw [failed]
    exact .refl _

theorem expectAny (kind : TokenKind) :
    Yields input start (Parser.expect kind) anything := by
  refine next (observe _) fun token => ite skip ?_
  split
  · exact failAt _ _
  · exact failAt _ _

theorem expectIdentifier
    (closed : input.window.Closed) :
    Yields input start Parser.expectIdentifier (further start) := by
  intro state order parsed
  have token : Parser.current input state =
      .done (input.window.tokenAt state.position) state := rfl
  simp only [Parser.expectIdentifier, Bind.bind, Action.bind, token]
  cases same : (input.window.tokenAt state.position).kind with
  | identifier name =>
      refine ⟨(behind parsed).1, (behind parsed).2, ?_⟩
      have inside : state.position < input.window.stop :=
        closed.lt_stop (by simp [Window.kindAt, same])
      have onward := order.onward
      simp only [further, ParserState.moment, Window.next, inside, ↓reduceIte]
        at onward ⊢
      omega
  | _ => exact .refl _

private theorem skipTo (terminators : List TokenKind) (level fuel : Nat) :
    Yields input start (Parser.skipTo terminators level fuel) anything := by
  induction fuel with
  | zero =>
      exact fun _ _ _ => trivial
  | succ fuel inductionHypothesis =>
      exact next (observe _) fun _ => next (observe _) fun _ =>
        ite (pure fun _ _ => trivial) (ite (failAt _ _) (ite (failAt _ _)
          (next skip fun _ => inductionHypothesis)))

private theorem skipOut (opened : Span) (level fuel : Nat) :
    Yields input start (Parser.skipOut opened level fuel) anything := by
  induction fuel with
  | zero =>
      exact fun _ _ _ => trivial
  | succ fuel inductionHypothesis =>
      exact next (observe _) fun _ => ite
        (next (observe _) fun _ =>
          ite (failAt _ _) (next skip fun _ => inductionHypothesis))
        (pure fun _ _ => trivial)

theorem captureTo (terminators : List TokenKind) :
    Yields input start (Parser.captureTo terminators) anything :=
  next (observe _) fun _ => next (observe _) fun _ => next (observe _) fun _ =>
    next (skipTo _ _ _) fun _ => observe _

/--
A range captured in braces lies between the positions before and behind it.
-/
theorem captureBraces :
    Yields input start Parser.captureBraces fun later range =>
      start.position ≤ range.start ∧ range.stop ≤ later.position := by
  have begins : Yields input start Parser.position fun _ position =>
      start.position ≤ position :=
    observeKnown (fun _ state => state.position) fun _ order => order.onward
  refine bind begins fun position later _ beyond => ?_
  refine next (observe _) fun _ => next (observe _) fun _ =>
    next (expectAny _) fun _ =>
    next (observe _) fun _ => next (skipOut _ _ _) fun _ => ?_
  exact observeKnown
    (fun _ state => { start := position, stop := state.position : TokenRange })
    fun _ _ => ⟨beyond, Nat.le_refl _⟩

/-- A change that adds terms but no declarations. -/
theorem inArena
    {change : Arena → Value × Arena}
    (extending : ∀ arena : Arena, arena.Extends (change arena).2)
    (decls : ∀ arena : Arena, (change arena).2.decls = arena.decls)
    (fact : ∀ (arena : Arena) (position : Nat), start.arena.Extends arena →
      known { arena := (change arena).2, position := position }
        (change arena).1) :
    Yields input start (Parser.inArena change) known := by
  intro state order parsed
  have extended := extending state.arena
  refine ⟨⟨extended, Nat.le_refl _, ?_,
      Arena.indexedFrom_of_decls_eq (decls state.arena)⟩,
    parsed.grow extended rfl, fact _ _ order.extended⟩
  intro decl past
  apply Arena.phase_of_size_le
  simpa only [ParserState.moment, decls] using past

/-- A term added whose children are parsed is parsed. -/
private theorem added
    {change : Arena → Value × Arena}
    {term : Value → Term}
    {children : List Term}
    (extending : ∀ arena : Arena, arena.Extends (change arena).2)
    (decls : ∀ arena : Arena, (change arena).2.decls = arena.decls)
    (settled : ∀ arena : Arena,
      (change arena).2.Settled (term (change arena).1))
    (owned : ∀ arena : Arena,
      (change arena).2.children (term (change arena).1) = children)
    (parsed : ∀ child ∈ children, start.arena.Parsed child) :
    Yields input start (Parser.inArena change) (parsedAs term) := by
  refine inArena extending decls fun arena _ order => ?_
  refine (extending arena).parsed_added (settled arena) fun child listed => ?_
  rw [owned] at listed
  exact order.parsed (parsed child listed)

theorem addName
    (form : NameForm)
    (span : Span)
    (parsed : ∀ child ∈ form.children, start.arena.Parsed child) :
    Yields input start (Parser.addName form span) (parsedAs .name) :=
  added (fun arena => arena.extends_addName form span) (fun _ => rfl)
    (fun arena => ⟨⟨by simp [Arena.Holds, Arena.addName], rfl⟩, nofun⟩)
    (fun arena => by rw [Arena.children, arena.name_addName]) parsed

theorem addPlaceholder (span : Span) :
    Yields input start (Parser.inArena fun arena => arena.addPlaceholder span)
      (parsedAs .name) :=
  added (fun arena => arena.extends_addPlaceholder span) (fun _ => rfl)
    (fun arena =>
      ⟨⟨by simp [Arena.Holds, Arena.addPlaceholder, Arena.addName], rfl⟩,
        nofun⟩)
    (fun arena =>
      by rw [Arena.children, Arena.addPlaceholder, Arena.name_addName]; rfl)
    fun _ listed => absurd listed List.not_mem_nil

theorem addType
    (form : TypeForm)
    (span : Span)
    (whole : form.isUnparsed = false)
    (parsed : ∀ child ∈ form.children, start.arena.Parsed child) :
    Yields input start (Parser.addType form span) (parsedAs .type) :=
  added (fun arena => arena.extends_addType form span) (fun _ => rfl)
    (fun arena => ⟨⟨by simp [Arena.Holds, Arena.addType], by
      rw [Arena.isUnparsed, arena.type_addType]; exact whole⟩, nofun⟩)
    (fun arena => by rw [Arena.children, arena.type_addType]) parsed

theorem addExpr
    (form : ExprForm)
    (span : Span)
    (whole : form.isUnparsed = false)
    (parsed : ∀ child ∈ form.children, start.arena.Parsed child) :
    Yields input start (Parser.addExpr form span) (parsedAs .expr) :=
  added (fun arena => arena.extends_addExpr form span) (fun _ => rfl)
    (fun arena => ⟨⟨by simp [Arena.Holds, Arena.addExpr], by
      rw [Arena.isUnparsed, arena.expr_addExpr]; exact whole⟩, nofun⟩)
    (fun arena => by rw [Arena.children, arena.expr_addExpr]) parsed

theorem addRequirement
    (form : ReqForm)
    (span : Span)
    (parsed : ∀ child ∈ form.children, start.arena.Parsed child) :
    Yields input start (Parser.addRequirement form span)
      (parsedAs .requirement) :=
  added (fun arena => arena.extends_addRequirement form span) (fun _ => rfl)
    (fun arena => ⟨⟨by simp [Arena.Holds, Arena.addRequirement], rfl⟩, nofun⟩)
    (fun arena => by rw [Arena.children, arena.requirement_addRequirement])
      parsed

/-- A range of tokens added as a type is due. -/
theorem addCapturedType (range : TokenRange) (span : Span) :
    Yields input start (Parser.addType (.unparsed range) span)
      fun later type => later.arena.Due (.type type) :=
  inArena (fun arena => arena.extends_addType _ span)
      (fun _ => rfl) fun arena _ _ =>
    .captured ⟨by simp [Arena.Holds, Arena.addType], by
      rw [Arena.isUnparsed, arena.type_addType]; rfl⟩ Family.noConfusion

/-- A range of tokens added as an expression is due. -/
theorem addCapturedExpr (range : TokenRange) (span : Span) :
    Yields input start (Parser.addExpr (.unparsed range) span)
      fun later expr => later.arena.Due (.expr expr) :=
  inArena (fun arena => arena.extends_addExpr _ span)
      (fun _ => rfl) fun arena _ _ =>
    .captured ⟨by simp [Arena.Holds, Arena.addExpr], by
      rw [Arena.isUnparsed, arena.expr_addExpr]; rfl⟩ Family.noConfusion

/-- A statement added stands behind those stored before. -/
theorem addStmt (form : StmtForm) (span : Span) :
    Yields input start (Parser.addStmt form span) fun later stmt =>
      later.arena.Holds (.stmt stmt) ∧ start.arena.stmts.size ≤ stmt.raw ∧
        (later.arena.stmt stmt).form = form :=
  inArena (fun arena => arena.extends_addStmt form span)
      (fun _ => rfl) fun arena _ order =>
    ⟨by simp [Arena.Holds, Arena.addStmt],
      order.stmts.size_le, by rw [arena.stmt_addStmt]⟩

theorem addDefinition (form : DefForm) (span : Span) :
    Yields input start (Parser.addDefinition form span) fun later definition =>
      later.arena.Holds (.definition definition) ∧
        (later.arena.definition definition).form = form :=
  inArena (fun arena => arena.extends_addDefinition form span)
      (fun _ => rfl) fun arena _ _ =>
    ⟨by simp [Arena.Holds, Arena.addDefinition],
      by rw [arena.definition_addDefinition]⟩

/-- A declaration added stands behind those stored before. -/
theorem addDecl
    (name : NameId)
    (specifiers : Specifiers)
    {form : DeclForm}
    (span : Span)
    (bare : form.parms = []) :
    Yields input start (Parser.addDecl name specifiers form span)
        fun later decl =>
      later.arena.Holds (.decl decl) ∧ start.arena.decls.size ≤ decl.raw ∧
        (later.arena.decl decl).name = name ∧ (later.arena.decl decl).form =
          form := by
  intro state order parsed
  have position := order.extended.decls.size_le
  generalize new : ({ name := name, specifiers := specifiers, form := form,
                      span := span
                      scope := state.scopes.current, phase := .unelaborated } :
                        Decl) = added
  have run : Parser.addDecl name specifiers form span input state =
      .done (state.arena.addDecl added).1
        { state with arena := (state.arena.addDecl added).2 } := by
    subst new
    rfl
  have extended : state.arena.Extends (state.arena.addDecl added).2 :=
    state.arena.extends_addDecl added
  rw [run]
  have indexed : (state.arena.addDecl added).2.IndexedFrom
      state.arena.decls.size :=
    state.arena.indexedFrom_addDecl
      (by subst new; exact bare ▸ Arena.indexes_nil _ 0)
  refine ⟨⟨extended, Nat.le_refl _, ?_, indexed⟩, parsed.grow extended rfl, ?_,
    position, ?_⟩
  · intro decl past
    by_cases same : decl = (state.arena.addDecl added).1
    · subst same new
      simp only [ParserState.moment, Arena.decl_addDecl]
    · apply Arena.phase_of_size_le
      have apart : decl.raw ≠ state.arena.decls.size :=
        fun equal => same (by cases decl; simp_all [Arena.addDecl])
      simp only [ParserState.moment, Arena.addDecl, Array.size_push] at past ⊢
      omega
  · simp [ParserState.moment, Arena.Holds, Arena.addDecl]
  · subst new
    simp only [ParserState.moment, Arena.decl_addDecl, and_self]

theorem within
    (scope : ScopeId)
    {parser : Parser Value}
    (inner : Yields input start parser known) :
    Yields input start (Parser.within scope parser) known := by
  intro state order parsed
  have ended :=
    inner { state with scopes := state.scopes.enter scope } order parsed
  rw [Parser.within_run]
  cases ending :
      parser input { state with scopes := state.scopes.enter scope } with
  | done value after =>
      rw [ending] at ended
      exact ended
  | failed error after =>
      rw [ending] at ended
      exact ended
  | exhausted => trivial

/--
What is read in a template context of its own yields a context that is parsed.
-/
theorem withTemplate
    {parser : Parser Value}
    (inner : Yields input start parser known) :
    Yields input start (Parser.withTemplate .empty parser) fun later result =>
      known later result.1 ∧ result.2.ParsedIn later.arena := by
  intro state order parsed
  have empty : ParserState.ContextParsed
      { state with track := { state.track with template? := some .empty }
        } := by
    rintro context ⟨⟩
    exact TemplateContext.parsedIn_empty _
  have ended :=
    inner { state with track := { state.track with template? := some .empty } }
      order empty
  rw [Parser.withTemplate_run]
  cases ending : parser input
      { state with track := { state.track with template? := some .empty } } with
  | done value after =>
      rw [ending] at ended
      obtain ⟨precedes, parsedAfter, fact⟩ := ended
      refine ⟨precedes, parsed.grow precedes.extended rfl, fact, ?_⟩
      cases context : after.track.template? with
      | none => exact TemplateContext.parsedIn_empty _
      | some context' => exact parsedAfter context' context
  | failed error after =>
      rw [ending] at ended
      exact ended
  | exhausted => trivial

/--
A parser tried first yields as without the trial; if it fails, the other one
yields.
-/
theorem either
    {first second : Parser Value}
    (tried : Yields input start first known)
    (instead : Yields input start second known) :
    Yields input start (Parser.either first second) known := by
  intro state order parsed
  have ended := tried state.snapshot.2 order parsed
  simp only [Parser.either_run, Parser.attempt]
  cases ending : first input state.snapshot.2 with
  | done value after =>
      rw [ending] at ended
      exact ended
  | failed error after =>
      rw [ending] at ended
      have back : after.arena.rewind state.arena.mark = state.arena :=
        Arena.Extends.rewind_mark ended
      have restored : (after.restore state.snapshot.1).moment =
          state.moment := by
        simp only [ParserState.moment, ParserState.restore,
          ParserState.snapshot, back]
      have parsedAgain : (after.restore state.snapshot.1).ContextParsed := by
        apply parsed.grow
        · simp only [ParserState.restore, ParserState.snapshot, back]
          exact .refl _
        · rfl
      have again :=
        instead (after.restore state.snapshot.1) (restored ▸ order) parsedAgain
      rw [restored] at again
      exact again
  | exhausted => trivial

/--
A type parameter joins the template context. Its index is the number of those
before it.
-/
theorem joinParam
    {name : NameId}
    {default? : Option TypeId}
    {cause : ParseCause}
    {place : Span}
    (parsedName : start.arena.Parsed (.name name))
    (parsedDefault : ∀ type ∈ default?, start.arena.Parsed (.type type)) :
    Yields input start
      (Parser.tracked >>= fun track =>
        match track.template? with
        | none => Parser.failAt cause place
        | some context =>
            Parser.spanFrom place >>= fun span =>
            Parser.addDecl name .none
              (.typeParameter context.parms.length default?) span >>=
                fun decl =>
            Parser.bindDecl decl >>= fun _ =>
            Parser.joinTemplate decl)
      anything := by
  intro state order parsed
  have tracked : Parser.tracked input state = .done state.track state := rfl
  simp only [Bind.bind, Action.bind, tracked]
  cases template : state.track.template? with
  | none => exact .refl _
  | some context =>
      have adds : Yields input state.moment
          (Parser.addDecl name .none
            (.typeParameter context.parms.length default?)
            (place.merge (input.window.spanBefore state.position))) _ :=
        addDecl name .none _ rfl
      refine ⟨(adds state (.refl _) parsed).1, ?_, trivial⟩
      intro joined given
      obtain rfl : { context with parms := context.parms ++ [_] } = joined := by
        simpa [template] using given
      exact (parsed context template).join rfl
        (order.extended.parsed parsedName)
        fun type given => order.extended.parsed (parsedDefault type given)

/-- A constraint that is parsed joins the template context. -/
theorem constrainTemplate {constraint : ExprId}
    (parsedConstraint : start.arena.Parsed (.expr constraint)) :
    Yields input start (Parser.constrainTemplate constraint) anything := by
  intro state order parsed
  refine ⟨.refl _, ?_, trivial⟩
  intro context given
  simp only [Option.mem_def, Option.map_eq_some_iff] at given
  obtain ⟨old, oldGiven, rfl⟩ := given
  have known := parsed old oldGiven
  refine { parms := known.parms, indexes := known.indexes, constraint := ?_ }
  rintro _ ⟨⟩
  exact order.extended.parsed parsedConstraint

end Yields

namespace YieldsOver

variable {Value First : Type} {input : ParserInput} {frame start : Moment}
  {known : Moment → Value → Prop} {before : Moment → First → Prop}

/-- A part that changes nothing older yields what the rest needs. -/
theorem bind
    (older : frame.Precedes start)
    {parser : Parser First}
    {next : First → Parser Value}
    (first : Yields input start parser before)
    (rest : ∀ value later, start.Precedes later → before later value →
      YieldsOver input frame later (next value) known) :
    YieldsOver input frame start (parser >>= next) known := by
  intro state order parsed
  have started := first state order parsed
  simp only [Bind.bind, Action.bind]
  cases ending : parser input state with
  | done value middle =>
      rw [ending] at started
      obtain ⟨precedes, parsedMiddle, fact⟩ := started
      exact rest value middle.moment (order.trans precedes) fact middle
        (.refl _) parsedMiddle
  | failed error middle =>
      rw [ending] at started
      exact (older.trans order).extended.trans started
  | exhausted => trivial

/--
A change of a declaration added since the frame leaves what is older as it is.
-/
theorem update
    {decl : DeclId}
    {change : Arena → Decl → Decl}
    {rest : Parser Value}
    (older : frame.Precedes start)
    (held : start.arena.Holds (.decl decl))
    (new : frame.arena.decls.size ≤ decl.raw)
    (other : (start.arena.decl decl).form.isParam = false)
    (phase : ∀ arena old, (change arena old).phase = old.phase)
    (indexes : ∀ arena old, start.arena.Extends arena →
      arena.Indexes 0 (change arena old).form.parms)
    (yields : ∀ arena position,
      start.Precedes { arena := arena, position := position } →
      Yields input
        { arena := arena.updateDecl decl (change arena), position := position }
          rest known) :
    YieldsOver input frame start
      (Action.modify (fun state : ParserState => { state with
        arena := state.arena.updateDecl decl (change state.arena) }) >>=
          fun _ => rest) known := by
  intro state order parsed
  have same := order.extended.decl_eq held
  have heldNow : state.arena.Holds (.decl decl) := order.extended.holds held
  have keeps : state.arena.KeepsParam decl (change state.arena) := by
    intro isParam
    rw [show state.arena.decl decl = start.arena.decl decl from same, other]
      at isParam
    cases isParam
  have framed := older.trans order
  have precedes : frame.Precedes
      { arena := state.arena.updateDecl decl (change state.arena),
        position := state.position } := by
    refine ⟨framed.extended.updateDecl new _, framed.onward, ?_,
      framed.indexed.updateDecl keeps (indexes _ _ order.extended)⟩
    intro other past
    by_cases equal : other = decl
    · subst equal
      rw [Arena.decl_updateDecl heldNow, phase]
      exact framed.unelaborated past
    · rw [Arena.decl_updateDecl_of_ne equal]
      exact framed.unelaborated past
  have parsedAfter : ParserState.ContextParsed
      { state with arena := state.arena.updateDecl decl (change state.arena)
        } := by
    intro context given
    have known := parsed context given
    exact
      { parms := fun parm listed => (known.parms parm listed).updateDecl keeps
        indexes := known.indexes.updateDecl keeps
        constraint :=
          fun expr given => (known.constraint expr given).updateDecl keeps }
  have ended := yields state.arena state.position order
    { state with arena := state.arena.updateDecl decl (change state.arena) }
      (.refl _) parsedAfter
  exact ended.weaken precedes fun _ _ _ => id

end YieldsOver

/-- Behind the addition of a declaration that one may be changed. -/
theorem Yields.declare
    {Value : Type}
    {input : ParserInput}
    {start : Moment}
    {known : Moment → Value → Prop}
    {name : NameId}
    {specifiers : Specifiers}
    {form : DeclForm}
    {span : Span}
    {next : DeclId → Parser Value}
    (bare : form.parms = [])
    (rest : ∀ decl frame later, start.Precedes frame → frame.Precedes later →
      frame.arena.decls.size ≤ decl.raw → later.arena.Holds (.decl decl) →
      (later.arena.decl decl).name = name → (later.arena.decl decl).form =
        form →
      YieldsOver input frame later (next decl) known) :
    Yields input start (Parser.addDecl name specifiers form span >>= next)
      known := by
  intro state order parsed
  have adds : Yields input state.moment
      (Parser.addDecl name specifiers form span) _ :=
    Yields.addDecl name specifiers span bare
  have started := adds state (.refl _) parsed
  simp only [Bind.bind, Action.bind]
  cases ending : Parser.addDecl name specifiers form span input state with
  | done decl middle =>
      rw [ending] at started
      obtain ⟨precedes, parsedMiddle, held, new, sameName, sameForm⟩ := started
      exact rest decl state.moment middle.moment order precedes new held
        sameName sameForm middle
        (.refl _) parsedMiddle
  | failed error middle =>
      rw [ending] at started
      exact started
  | exhausted => trivial

end Tern
