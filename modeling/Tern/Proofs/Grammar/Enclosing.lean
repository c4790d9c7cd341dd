import Tern.Proofs.Grammar.Spanning

namespace Tern

/-!
# Terms that enclose what a production has read

A term is added with a span that fits what its production has read and keeps.
Most often that is the text from the first token of the production to the last
one read; a term that owns nothing may also have the span of the first token,
or lie behind the last one. A declaration that is added hollow is completed
with all that has been read by then.
-/

/--
A parser adds one term with a span, which owns terms and may be a range of
tokens.
-/
def Parser.AddsTerm {Value : Type} (input : ParserInput) (parser : Parser Value)
    (term : Value → Term) (children : List Term) (range? : Option TokenRange)
      (span : Span) :
    Prop :=
  ∀ state : ParserState, ∃ value arena,
    parser input state = .done value { state with arena := arena } ∧
      state.arena.Adding arena (term value) children range? span

namespace Parser

variable {input : ParserInput}

theorem addsName (form : NameForm) (span : Span) :
    (addName form span).AddsTerm input .name form.children none span :=
  fun state => ⟨_, _, rfl, state.arena.adding_addName form span⟩

private theorem addsPlaceholder (span : Span) :
    (inArena fun arena => arena.addPlaceholder span).AddsTerm input .name []
      none span :=
  fun state => ⟨_, _, rfl, state.arena.adding_addPlaceholder span⟩

theorem addsType (form : TypeForm) (span : Span) :
    (addType form span).AddsTerm input .type form.children form.range? span :=
  fun state => ⟨_, _, rfl, state.arena.adding_addType form span⟩

theorem addsExpr (form : ExprForm) (span : Span) :
    (addExpr form span).AddsTerm input .expr form.children form.range? span :=
  fun state => ⟨_, _, rfl, state.arena.adding_addExpr form span⟩

theorem addsStmt (form : StmtForm) (span : Span) :
    (addStmt form span).AddsTerm input .stmt form.children form.range? span :=
  fun state => ⟨_, _, rfl, state.arena.adding_addStmt form span⟩

theorem addsDecl
    (name : NameId)
    (specifiers : Specifiers)
    (form : DeclForm)
    (span : Span) :
    (addDecl name specifiers form span).AddsTerm input .decl
      (.name name :: form.children) none
      span :=
  fun state => ⟨_, _, rfl, state.arena.adding_addDecl
    { name := name, specifiers := specifiers, form := form, span := span
      scope := state.scopes.current, phase := .unelaborated }⟩

theorem addsDefinition (form : DefForm) (span : Span) :
    (addDefinition form span).AddsTerm input .definition form.children none
      span :=
  fun state => ⟨_, _, rfl, state.arena.adding_addDefinition form span⟩

theorem addsRequirement (form : ReqForm) (span : Span) :
    (addRequirement form span).AddsTerm input .requirement form.children none
      span :=
  fun state => ⟨_, _, rfl, state.arena.adding_addRequirement form span⟩

end Parser

section

variable {input : ParserInput} {state next : ParserState} {base : Arena}
  {joined : List Term}
  {first : Nat} {stage : Stage} {kept children : List Term}
    {range? : Option TokenRange}
  {span : Span}

/--
A span covers text that a production has read, and that of terms which it keeps.
-/
structure ParserState.Fits
    (state : ParserState)
    (input : ParserInput)
    (first : Nat)
    (children : List Term) (span : Span) : Prop where
  forward : span.Forward
  start : (input.window.tokens.spanAt first).start ≤ span.start
  stop : span.stop ≤ (input.window.tokens.spanAt (state.position - 1)).stop
  within : ∀ child ∈ children, (state.arena.spanOf child).Within span

/-- A term that is added with a fitting span covers what has been read. -/
private theorem ParserState.Stands.add
    {term : Term}
    {arena : Arena}
    (stands : state.Stands input base joined first .past kept)
    (aligned : input.Aligned)
    (adding : state.arena.Adding arena term children range? span)
    (owned : ∀ child ∈ children, child ∈ kept)
    (fits : state.Fits input first children span)
    (captured : ∀ range ∈ range?, range.Spans input.window.tokens span) :
    ParserState.Stands { state with arena := arena } input base joined first
      .past [term] := by
  have covers : ParserState.Covers { state with arena := arena } input base
      first term :=
    { laid := adding.laid stands.older fits.forward
        (fun child listed => ⟨(stands.covers child (owned child listed)).laid,
          fits.within child listed⟩) captured
      read := stands.reached
      start := adding.span_eq.symm ▸ fits.start
      stop := adding.span_eq.symm ▸ fits.stop }
  exact
    { inside := stands.inside
      older := stands.older.trans adding.extended
      reached := stands.reached
      covers := fun _ listed => List.mem_singleton.mp listed ▸ covers
      context :=
        fun term listed => (stands.context term listed).imp_right fun covers =>
        covers.later { state with arena := arena } aligned adding.extended
          (Nat.le_refl _) stands.inside }

/--
The text from the first token of a production to the last one read covers all
that it keeps.
-/
private theorem ParserState.Stands.fits
    (stands : state.Stands input base joined first .past kept)
    (aligned : input.Aligned)
    (owned : ∀ child ∈ children, child ∈ kept) :
    state.Fits input first children
      ((input.window.spanAt first).merge
        (input.window.spanBefore state.position)) := by
  have before : first < state.position := stands.reached
  have inside := stands.inside
  have bounded := aligned.inside
  rw [Window.spanAt_eq (by omega) bounded, Window.spanBefore_eq (by omega),
    aligned.tokens.merge_eq (by omega) (by omega)]
  exact
    { forward := Nat.le_trans (aligned.tokens.forward first)
        (aligned.tokens.stop_le (by omega) (by omega))
      start := Nat.le_refl _
      stop := Nat.le_refl _
      within := fun child listed =>
        ⟨(stands.covers child (owned child listed)).start,
          (stands.covers child (owned child listed)).stop⟩ }

/-- The first token of a production is part of what was read. -/
private theorem ParserState.Stands.fitsFirst
    (stands : state.Stands input base joined first .past kept)
    (aligned : input.Aligned) :
    state.Fits input first [] (input.window.spanAt first) := by
  have before : first < state.position := stands.reached
  have inside := stands.inside
  have bounded := aligned.inside
  rw [Window.spanAt_eq (by omega) bounded]
  exact
    { forward := aligned.tokens.forward first
      start := Nat.le_refl _
      stop := aligned.tokens.stop_le (by omega) (by omega)
      within := fun _ listed => absurd listed List.not_mem_nil }

end

namespace Spans

variable {Value First : Type} {input : ParserInput} {first : Nat}
  {stage middle ended : Stage}
  {kept children : List Term} {roots : Value → List Term} {term : Value → Term}
  {range? : Option TokenRange} {span : Span} (aligned : input.Aligned)

include aligned

/-- A term is added with a span that is read off the state. -/
theorem adds
    {parser : Parser Value}
    (span : ParserState → Span)
    (adds : ∀ state : ParserState, ∃ value arena,
      parser input state = .done value { state with arena := arena } ∧
        state.arena.Adding arena (term value) children none (span state))
    (owned : ∀ child ∈ children, child ∈ kept)
    (fits : ∀ {base joined} {state : ParserState},
      state.Stands input base joined first .past kept →
        state.Fits input first children (span state)) :
    Spans input first .past kept .past (fun value => [term value]) parser := by
  intro base joined state value next stands run
  obtain ⟨found, arena, ending, adding⟩ := adds state
  rw [ending] at run
  cases run
  exact ⟨stands.add aligned adding owned (fits stands)
    (fun _ found => nomatch found),
    adding.extended, Nat.le_refl _⟩

/-- A term that owns what is kept is added with all that was read. -/
theorem spanned
    {add : Span → Parser Value}
    (adding : ∀ span, (add span).AddsTerm input term children none span)
    (owned : ∀ child ∈ children, child ∈ kept) :
    Spans input first .past kept .past (fun value => [term value])
      (Parser.spanFrom (input.window.spanAt first) >>= add) :=
  adds aligned
    (fun state => (input.window.spanAt first).merge
      (input.window.spanBefore state.position))
    (fun state => adding _ state) owned fun stands => stands.fits aligned owned

/-- A term that owns nothing is added with the span of the first token. -/
theorem atFirst
    {parser : Parser Value}
    (adding : parser.AddsTerm input term [] none (input.window.spanAt first)) :
    Spans input first .past kept .past (fun value => [term value]) parser :=
  adds aligned (fun _ => input.window.spanAt first) (fun state => adding state)
    (fun _ listed => absurd listed List.not_mem_nil) fun stands =>
      stands.fitsFirst aligned

/--
A term that owns nothing is added with the span of the first token before that
one is read, which is done next.
-/
theorem aheadOf
    {Middle : Type}
    {parser : Parser First}
    {term : First → Term}
    {kind : TokenKind}
    {yes no : Parser Middle}
    {next : First → Middle → Parser Value}
    (adding : parser.AddsTerm input term [] none (input.window.spanAt first))
    (found : input.window.kindAt first = kind)
    (real : kind ≠ .endOfInput)
    (rest : ∀ value, Spans input first .past [term value] ended roots
      (yes >>= next value)) :
    Spans input first .here kept ended roots
      (parser >>= fun value => (Parser.eat kind >>= fun eaten =>
        if eaten = true then yes else no) >>= next value) := by
  intro base joined state value after stands run
  obtain rfl : state.position = first := stands.reached
  obtain ⟨added, _, ending, run⟩ := Parser.done_of_bind run
  obtain ⟨_, arena, adds, adding⟩ := adding state
  rw [adds] at ending
  cases ending
  obtain ⟨read, last, reads, run⟩ := Parser.done_of_bind run
  obtain ⟨_, _, eats, reads⟩ := Parser.done_of_bind reads
  rw [Parser.eat_run, if_pos found] at eats
  cases eats
  rw [if_pos rfl] at reads
  obtain ⟨further, extended, order⟩ := behindReal aligned stands (found ▸ real)
  have covers :=
    further.add aligned adding (fun _ listed => absurd listed List.not_mem_nil)
    (further.fitsFirst aligned) (fun _ none => nomatch none)
  obtain ⟨final, extendedAfter, orderAfter⟩ :=
    rest added base joined _ covers ((Parser.run_bind reads).trans run)
  exact ⟨final, adding.extended.trans extendedAfter,
    Nat.le_trans order orderAfter⟩

/-- A term that owns nothing is added behind the last token read. -/
theorem pointed
    {add : Span → Parser Value}
    (adding : ∀ span, (add span).AddsTerm input term [] none span) :
    Spans input first .past kept .past (fun value => [term value])
      (Parser.behindPrevious >>= add) :=
  adds aligned (fun state =>
    .point (input.window.spanBefore state.position).stop)
    (fun state => adding _ state)
      (fun _ listed => absurd listed List.not_mem_nil)
    fun {_ _ state} stands => by
      have before : first < state.position := stands.reached
      have inside := stands.inside
      have bounded := aligned.inside
      rw [Window.spanBefore_eq (by omega)]
      exact
        { forward := Nat.le_refl _
          start := Nat.le_trans (aligned.tokens.forward first)
            (aligned.tokens.stop_le (by omega) (by omega))
          stop := Nat.le_refl _
          within := fun _ listed => absurd listed List.not_mem_nil }

/-- A range of tokens that was passed over is added as a term. -/
theorem capturing
    {capture : Parser TokenRange}
    {rest : TokenRange → Parser Value}
    (passes : ∀ position, Spans input position .here [] middle noRoots capture)
    (takes : ∀ (state : ParserState) {range : TokenRange} {next : ParserState},
      capture input state = .done range next →
        range = { start := state.position, stop := next.position } ∧
          state.position ≤ next.position ∧ next.arena = state.arena)
    (fills : ∀ {position : Nat} {state : ParserState} {value :
      Value} {next : ParserState},
      middle.Reached position state.position →
        rest { start := position, stop := state.position } input state =
          .done value next →
          position < state.position ∧
            ∃ arena, next = { state with arena := arena } ∧
            state.arena.Adding arena (term value) []
              (some { start := position, stop := state.position })
              (input.window.tokens.spanOf
                { start := position, stop := state.position }))
    (position : Nat) :
    Spans input position .here [] .past (fun value => [term value])
      (capture >>= rest) := by
  intro base joined state value next stands run
  obtain ⟨range, behind, captured, run⟩ := Parser.done_of_bind run
  obtain ⟨rfl, -, -⟩ := takes state captured
  obtain rfl : state.position = position := stands.reached
  obtain ⟨further, extended, order⟩ :=
    passes state.position base joined state stands captured
  obtain ⟨nonempty, arena, rfl, adding⟩ := fills further.reached run
  have inside : behind.position ≤ input.window.tokens.size :=
    Nat.le_trans further.inside aligned.inside
  have spans : TokenRange.Spans
      { start := state.position, stop := behind.position }
      input.window.tokens (input.window.tokens.spanOf
        { start := state.position, stop := behind.position }) :=
          ⟨nonempty, inside, rfl⟩
  have shown := aligned.tokens.spanOf_eq spans.nonempty spans.inside
  have passed : behind.Stands input base joined state.position .past [] :=
    { further with reached := nonempty }
  refine ⟨passed.add aligned adding
    (fun _ listed => absurd listed List.not_mem_nil) ?_ ?_,
    extended.trans adding.extended, order⟩
  · rw [shown]
    exact
      { forward := Nat.le_trans (aligned.tokens.forward _)
          (aligned.tokens.stop_le (Nat.le_sub_one_of_lt nonempty)
            (by dsimp only; omega))
        start := Nat.le_refl _
        stop := Nat.le_refl _
        within := fun _ listed => absurd listed List.not_mem_nil }
  · rintro _ ⟨⟩
    exact spans

theorem identifier (position : Nat) :
    Spans input position .here [] .past (fun name => [.name name])
      Parser.identifier :=
  expectIdentifier aligned fun name =>
    atFirst aligned (Parser.addsName (.simple name) _)

/-- A name is read, or minted at the first token of the production. -/
theorem identifierOrPlaceholder :
    Spans input first .past kept .past (fun name => [.name name])
      (Parser.identifierOrPlaceholder (input.window.spanAt first)) :=
  aside (fun _ => ⟨_, _, rfl, rfl, rfl, rfl⟩) fun _ =>
    ite (call aligned (identifier aligned))
      (atFirst aligned (Parser.addsPlaceholder _))

omit aligned in
theorem within
    (scope : ScopeId)
    {parser : Parser Value}
    (inner : Spans input first stage kept ended roots parser) :
    Spans input first stage kept ended roots (Parser.within scope parser) := by
  intro base joined state value next stands run
  rw [Parser.within_run] at run
  cases ending :
      parser input { state with scopes := state.scopes.enter scope } with
  | done found after =>
      rw [ending] at run
      cases run
      obtain ⟨further, extended, order⟩ := inner base joined
        { state with scopes := state.scopes.enter scope }
          (stands.of_eq rfl rfl rfl) ending
      exact ⟨further.of_eq rfl rfl rfl, extended, order⟩
  | failed error after =>
      rw [ending] at run
      cases run
  | exhausted =>
      rw [ending] at run
      cases run

/-- What joins a template context of its own covers what is read in it. -/
theorem withTemplate
    {parser : Parser Value}
    (inner : ∀ position, Spans input position .here [] middle roots parser)
    (position : Nat) :
    Spans input position .here [] middle
      (fun result => roots result.1 ++ result.2.terms)
      (Parser.withTemplate .empty parser) := by
  intro base joined state value next stands run
  rw [Parser.withTemplate_run] at run
  cases ending : parser input
      { state with track := { state.track with template? := some .empty } } with
  | done found after =>
      rw [ending] at run
      cases run
      obtain rfl : state.position = position := stands.reached
      obtain ⟨further, extended, order⟩ := inner state.position base []
        { state with track := { state.track with template? := some .empty } }
        (.begin stands.inside stands.older) ending
      have covers (term : Term) (listed : term ∈ after.joined) :
          after.Covers input base state.position term :=
        (further.context term listed).resolve_left List.not_mem_nil
      have apart {term : Term}
          (covers : after.Covers input base state.position term) :
          ParserState.Covers
            { after with track :=
              { after.track with template? := state.track.template? } }
            input base state.position term :=
        ⟨covers.laid, covers.read, covers.start, covers.stop⟩
      refine ⟨⟨further.inside, further.older, further.reached,
        fun term listed => ?_,
        fun term listed => ?_⟩, extended, order⟩
      · exact apart ((List.mem_append.mp listed).elim (further.covers term)
          (covers term))
      · exact (stands.context term listed).imp_right fun covers =>
          covers.later
            { after with track :=
              { after.track with template? := state.track.template? } }
            aligned extended order further.inside
  | failed error after =>
      rw [ending] at run
      cases run
  | exhausted =>
      rw [ending] at run
      cases run

omit aligned in
/-- What is tried and fails is taken back before another parser runs. -/
theorem either
    {tried instead : Parser Value}
    (composed : Composed [] tried)
    (spansTried : Spans input first stage kept ended roots tried)
    (spansInstead : Spans input first stage kept ended roots instead) :
    Spans input first stage kept ended roots (Parser.either tried instead) := by
  intro base joined state value next stands run
  have leaves :=
    composed.leaves_extends input (Arena.Extends.refl state.snapshot.2.arena)
    fun _ listed => absurd listed List.not_mem_nil
  simp only [Parser.either_run, Parser.attempt] at run
  cases ending : tried input state.snapshot.2 with
  | done found after =>
      rw [ending] at run
      cases run
      obtain ⟨further, extended, order⟩ :=
        spansTried base joined state.snapshot.2 (stands.of_eq rfl rfl rfl)
          ending
      exact ⟨further.of_eq rfl rfl rfl, extended, order⟩
  | failed error after =>
      rw [ending] at run leaves
      have back : (after.restore state.snapshot.1).arena = state.arena :=
        Arena.Extends.rewind_mark leaves
      have spanned := spansInstead base joined (after.restore state.snapshot.1)
        (stands.of_eq rfl back rfl) run
      rwa [back] at spanned
  | exhausted =>
      rw [ending] at run
      cases run

omit aligned in
/-- The terms of the context in force are changed to others that are kept. -/
private theorem retrack
    {change : ParserTrack → ParserTrack}
    (covered : ∀ (state : ParserState), ∀ term ∈ ParserState.joined
      { state with track := change state.track }, term ∈ state.joined ∨
        term ∈ kept) :
    Spans input first stage kept stage noRoots (Parser.retrack change) := by
  intro base joined state value next stands run
  cases run
  refine ⟨⟨stands.inside, stands.older, stands.reached,
    fun _ listed => absurd listed List.not_mem_nil, fun term listed => ?_⟩,
      .refl _, Nat.le_refl _⟩
  have apart {term : Term} (covers : state.Covers input base first term) :
      ParserState.Covers { state with track := change state.track } input base
        first term :=
    ⟨covers.laid, covers.read, covers.start, covers.stop⟩
  rcases covered state term listed with before | isKept
  · exact (stands.context term before).imp_right apart
  · exact .inr (apart (stands.covers term isKept))

omit aligned in
theorem joinTemplate {parm : DeclId} (listed : .decl parm ∈ kept) :
    Spans input first stage kept stage noRoots (Parser.joinTemplate parm) := by
  refine retrack fun state term found => ?_
  simp only [ParserState.joined] at found ⊢
  cases context : state.track.template? with
  | none =>
      rw [context] at found
      exact .inl found
  | some context =>
      simp_all [TemplateContext.terms]
      grind

omit aligned in
theorem constrainTemplate
    {constraint : ExprId}
    (listed : .expr constraint ∈ kept) :
    Spans input first stage kept stage noRoots
      (Parser.constrainTemplate constraint) := by
  refine retrack fun state term found => ?_
  simp only [ParserState.joined] at found ⊢
  cases context : state.track.template? with
  | none =>
      rw [context] at found
      exact .inl found
  | some context =>
      simp_all [TemplateContext.terms]
      grind

end Spans

/--
What was stored since a declaration covers what it did when that one is changed.
-/
private theorem ParserState.Covers.updateDecl
    {input : ParserInput}
    {state : ParserState}
    {base larger : Arena}
    {first : Nat}
    {term : Term}
    {decl : DeclId}
    (covers : state.Covers input larger first term)
    (stored : larger.Holds (.decl decl))
    (older : base.Extends larger)
    (change : Decl → Decl) :
    ParserState.Covers
      { state with arena := state.arena.updateDecl decl change } input
      base first
      term := by
  have apart : term ≠ .decl decl :=
    fun same => covers.laid.here.new (same ▸ stored)
  have reads : state.arena.Reads (state.arena.updateDecl decl change) term :=
    Arena.reads_updateDecl apart change
  have same := reads.spanOf
  exact
    { laid := (covers.laid.updateDecl stored change).since older.holds
      read := covers.read
      start := same.symm ▸ covers.start
      stop := same.symm ▸ covers.stop }

/--
A parser completes a declaration that a production has added hollow. Its name
was kept before it was added, and what it is to own besides has been read since.
-/
def Finalizes
    (input : ParserInput)
    (first : Nat)
    (decl : DeclId)
    (name : NameId)
    (held : List Term) (stage : Stage) (kept : List Term)
      (parser : Parser DeclId) : Prop :=
  ∀ (base : Arena) (joined : List Term) (began : Stage) (start state :
    ParserState)
    (hollow : Decl) {value : DeclId} {next : ParserState},
    start.Stands input base joined first began held → decl =
      (start.arena.addDecl hollow).1 →
      hollow.name = name → start.position ≤ state.position →
        state.Stands input (start.arena.addDecl hollow).2 start.joined first
          stage kept →
          parser input state = .done value next →
            next.Stands input base joined first .past [.decl value] ∧
              start.arena.Extends next.arena ∧ start.position ≤ next.position

namespace Finalizes

variable {First : Type} {input : ParserInput} {first : Nat} {decl : DeclId}
  {name : NameId}
  {held kept : List Term} {stage middle : Stage}

theorem bind
    (aligned : input.Aligned)
    {parser : Parser First}
    {next : First → Parser DeclId}
    {mid : First → List Term}
    (begins : Spans input first stage [] middle mid parser)
    (rest : ∀ value,
      Finalizes input first decl name held middle (mid value ++ kept)
        (next value)) :
    Finalizes input first decl name held stage kept (parser >>= next) := by
  intro base joined began start state hollow value after started isDecl named
    order stands run
  obtain ⟨found, behind, ending, run⟩ := Parser.done_of_bind run
  obtain ⟨further, extended, onward⟩ :=
    begins _ start.joined state (stands.weaken id fun _ => nofun) ending
  refine rest found base joined began start behind hollow started isDecl named
    (Nat.le_trans order onward) { further with covers := fun term listed =>
      ?_ } run
  rcases List.mem_append.mp listed with isFound | isKept
  · exact further.covers term isFound
  · exact (stands.covers term isKept).later _ aligned extended onward
      further.inside

/-- Where a parser pauses, the rest begins as if it were not there. -/
theorem aside
    {parser : Parser First}
    {next : First → Parser DeclId}
    (pauses : parser.Pauses input)
    (rest : ∀ value, Finalizes input first decl name held stage kept
      (next value)) :
    Finalizes input first decl name held stage kept (parser >>= next) := by
  intro base joined began start state hollow value after started isDecl named
    order stands run
  obtain ⟨found, middle, ending, position, arena, template⟩ := pauses state
  rw [Parser.run_bind ending] at run
  exact rest found base joined began start middle hollow started isDecl named
    (position ▸ order)
    (stands.of_eq position arena template) run

/--
The declaration gets all that was read as its span, and a form that owns what
is kept. Its name is held from before, or is that of a declaration that is kept.
-/
theorem update
    (aligned : input.Aligned)
    {change : Span → Arena → Decl → Decl}
    {rest : Parser DeclId}
    (spans : ∀ span arena old, (change span arena old).span = span)
    (owned : ∀ span arena old, ∀ child ∈ (change span arena old).form.children,
      child ∈ kept)
    (named : ∀ span arena old, old.name = name →
      Term.name (change span arena old).name ∈ held ∨
        ∃ inner, Term.decl inner ∈ kept ∧ (change span arena old).name =
          (arena.decl inner).name)
    (ends : ∀ state : ParserState, ∃ after, rest input state =
      .done decl after ∧
      after.position = state.position ∧ after.arena = state.arena ∧
        after.track.template? = state.track.template?) :
    Finalizes input first decl name held .past kept
      (Parser.spanFrom (input.window.spanAt first) >>= fun span =>
        Action.modify (fun state : ParserState => { state with
          arena := state.arena.updateDecl decl (change span state.arena) }) >>=
            fun _ => rest) := by
  intro base joined began start state hollow value next started isDecl isName
    order stands run
  obtain ⟨span, _, looked, run⟩ := Parser.done_of_bind run
  cases looked
  obtain ⟨_, middle, updates, run⟩ := Parser.done_of_bind run
  cases updates
  generalize spanned : (input.window.spanAt first).merge
    (input.window.spanBefore state.position) = span at run
  obtain ⟨after, ending, position, arena, template⟩ := ends { state with
    arena := state.arena.updateDecl decl (change span state.arena) }
  rw [ending] at run
  cases run
  have added : start.arena.Extends (start.arena.addDecl hollow).2 :=
    start.arena.extends_addDecl hollow
  have stored : (start.arena.addDecl hollow).2.Holds (.decl decl) :=
    (Arena.holds_addDecl hollow).mpr (.inr (congrArg Term.decl isDecl))
  have held : state.arena.Holds (.decl decl) := stands.older.holds stored
  have past : start.arena.decls.size ≤ decl.raw := by
    rw [isDecl]
    exact Nat.le_refl _
  have extended :
      start.arena.Extends
      (state.arena.updateDecl decl (change span state.arena)) :=
    (added.trans stands.older).updateDecl past _
  have oldName : (state.arena.decl decl).name = name := by
    rw [stands.older.decl_eq stored, isDecl, Arena.decl_addDecl, isName]
  have shown := Arena.decl_updateDecl held (change span state.arena)
  let updated : ParserState := { state with
    arena := state.arena.updateDecl decl (change span state.arena) }
  have kept {term : Term}
      (covers : state.Covers input (start.arena.addDecl hollow).2 first term) :
      updated.Covers input base first term :=
    covers.updateDecl stored (started.older.trans added) _
  have earlier {term : Term} (covers : start.Covers input base first term) :
      updated.Covers input base first term :=
    covers.later updated aligned extended order stands.inside
  have children (child : Term)
      (listed : child ∈ updated.arena.children (.decl decl)) :
      updated.Covers input base first child := by
    rw [Arena.children, shown] at listed
    rcases List.mem_cons.mp listed with rfl | isPart
    · rcases named span state.arena (state.arena.decl decl) oldName with
        isHeld | ⟨inner, isKept, same⟩
      · exact earlier (started.covers _ isHeld)
      · rw [same]
        exact kept ((stands.covers _ isKept).child List.mem_cons_self)
    · exact kept (stands.covers _ (owned _ _ _ child isPart))
  have lies : updated.Covers input base first (.decl decl) := by
    refine .whole aligned stands.inside stands.reached
      ((Arena.holds_updateDecl _ _).mpr held)
      (fun was => ?_) rfl ?_ children
    · exact Nat.lt_irrefl _ (Nat.lt_of_lt_of_le was
        (Nat.le_trans started.older.decls.size_le past))
    · rw [Arena.spanOf, shown, spans, spanned]
  have final : updated.Stands input base joined first .past [.decl decl] :=
    { inside := stands.inside
      older := started.older.trans extended
      reached := stands.reached
      covers := fun _ listed => List.mem_singleton.mp listed ▸ lies
      context := fun term listed => by
        rcases stands.context term listed with before | found
        · exact (started.context term before).imp_right earlier
        · exact .inr (kept found) }
  refine ⟨final.of_eq position arena template, ?_, ?_⟩
  · rw [arena]
    exact extended
  · rw [position]
    exact order

/-- The declaration is given its final form and span. -/
theorem complete
    (aligned : input.Aligned)
    {form : DeclForm}
    (owned : ∀ child ∈ form.children, child ∈ kept)
    (named : Term.name name ∈ held) :
    Finalizes input first decl name held .past kept
      (Parser.spanFrom (input.window.spanAt first) >>= fun span =>
        Parser.completeDecl decl form span >>= fun _ => Pure.pure decl) :=
  @update input first decl name held kept aligned
    (fun span _ old => { old with form := form, span := span })
      _ (fun _ _ _ => rfl)
    (fun _ _ _ => owned) (fun _ _ _ same => .inl (same ▸ named))
    fun _ => ⟨_, rfl, rfl, rfl, rfl⟩

end Finalizes

/--
A declaration is added hollow under a name that is kept, and completed behind
that.
-/
theorem Spans.declare
    {input : ParserInput}
    {first : Nat}
    {stage : Stage}
    {kept : List Term}
    {name : NameId}
    {specifiers : Specifiers}
    {form : DeclForm}
    {span : Span}
    {next : DeclId → Parser DeclId}
    (rest : ∀ decl, Finalizes input first decl name kept stage [] (next decl)) :
    Spans input first stage kept .past (fun decl => [.decl decl])
      (Parser.addDecl name specifiers form span >>= next) := by
  intro base joined state value after stands run
  let hollow : Decl :=
    { name := name, specifiers := specifiers, form := form, span := span
      scope := state.scopes.current, phase := .unelaborated }
  let added : ParserState :=
    { state with arena := (state.arena.addDecl hollow).2 }
  obtain ⟨decl, middle, adds, run⟩ := Parser.done_of_bind run
  cases adds
  have began : added.Stands input (state.arena.addDecl hollow).2 state.joined
      first stage [] :=
    { inside := stands.inside
      older := .refl _
      reached := stands.reached
      covers := fun _ listed => absurd listed List.not_mem_nil
      context := fun _ listed => .inl listed }
  exact rest _ base joined stage state added hollow stands rfl rfl
    (Nat.le_refl _) began run

end Tern
