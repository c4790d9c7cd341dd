import Tern.Proofs.Grammar.Swept
import Tern.Proofs.Term.Covering

namespace Tern

/-!
# Parsers that cover the text they read

What a parser is done with covers no text but that of the tokens that the
parser has read. A production begins at some token and keeps terms that cover
text from there on; once a token is read, the text from that token to the last
one read encloses them all, and is the span of the term that owns them.
-/

/--
A window shows tokens of a list that lie one behind the other, and closes behind
them.
-/
structure ParserInput.Aligned (input : ParserInput) : Prop where
  closed : input.window.Closed
  tokens : input.window.tokens.Aligned
  inside : input.window.stop ≤ input.window.tokens.size

/-- How far a production has come from where it began. -/
inductive Stage where
  | here
  | onward
  | past
deriving DecidableEq

namespace Stage

/--
A position is reached at a stage of a production that began at another one.
-/
def Reached (first position : Nat) : Stage → Prop
  | .here => position = first
  | .onward => first ≤ position
  | .past => first < position

/-- The stage behind a part that is at a stage of its own. -/
def followedBy : Stage → Stage → Stage
  | .past, _ => .past
  | _, .past => .past
  | stage, .here => stage
  | _, .onward => .onward

variable {first middle position : Nat} {stage next : Stage}

private theorem Reached.le (reached : stage.Reached first position) :
    first ≤ position := by
  cases stage with
  | here => exact Nat.le_of_eq (Eq.symm reached)
  | onward => exact reached
  | past => exact Nat.le_of_lt reached

theorem Reached.trans
    (reached : stage.Reached first middle)
    (further : next.Reached middle position) :
    (stage.followedBy next).Reached first position := by
  cases stage <;> cases next <;> simp only [followedBy, Reached] at * <;> omega

end Stage

/-- The terms of a template context. -/
def TemplateContext.terms (context : TemplateContext) : List Term :=
  context.parms.map Term.decl ++ context.constraint?.toList.map Term.expr

/-- The terms of the template context in force. -/
def ParserState.joined (state : ParserState) : List Term :=
  (state.track.template?.getD .empty).terms

/--
A term lies in its place, within the text from a token to the last one read.
-/
structure ParserState.Covers
    (state : ParserState)
    (input : ParserInput)
    (base : Arena)
    (first : Nat) (term : Term) : Prop where
  laid : state.arena.Laid base input.window.tokens term
  read : first < state.position
  start : (input.window.tokens.spanAt first).start ≤
    (state.arena.spanOf term).start
  stop : (state.arena.spanOf term).stop ≤
    (input.window.tokens.spanAt (state.position - 1)).stop

/--
A production that began at a token is at a stage, past an arena and with terms
that cover what it has read. So do the terms that have joined the template
context since.
-/
structure ParserState.Stands
    (state : ParserState)
    (input : ParserInput)
    (base : Arena)
    (joined : List Term) (first : Nat) (stage : Stage) (kept : List Term) :
      Prop where
  inside : state.position ≤ input.window.stop
  older : base.Extends state.arena
  reached : stage.Reached first state.position
  covers : ∀ term ∈ kept, state.Covers input base first term
  context : ∀ term ∈ state.joined, term ∈ joined ∨
    state.Covers input base first term

section

variable {input : ParserInput} {state next : ParserState} {base : Arena}
  {joined : List Term}
  {first position : Nat} {stage : Stage} {kept : List Term} {term : Term}

/-- A term that covers what was read covers what has been read later on. -/
theorem ParserState.Covers.later
    (covers : state.Covers input base first term)
    (next : ParserState)
    (aligned : input.Aligned)
    (extended : state.arena.Extends next.arena)
    (order : state.position ≤ next.position)
    (inside : next.position ≤ input.window.stop) :
    next.Covers input base first term := by
  have bounded := aligned.inside
  have before := covers.read
  have same := (extended.reads covers.laid.here.held).spanOf
  refine ⟨covers.laid.of_extends extended, Nat.lt_of_lt_of_le before order,
    ?_, ?_⟩
  · rw [same]
    exact covers.start
  · rw [same]
    exact Nat.le_trans covers.stop
      (aligned.tokens.stop_le (by omega) (by omega))

/-- What was read from a token on was read from any token before. -/
private theorem ParserState.Covers.since
    (covers : state.Covers input base position term)
    (aligned : input.Aligned)
    (inside : state.position ≤ input.window.stop)
    (order : first ≤ position) :
    state.Covers input base first term := by
  have bounded := aligned.inside
  have before := covers.read
  exact ⟨covers.laid, Nat.lt_of_le_of_lt order before,
    Nat.le_trans (aligned.tokens.start_le order (by omega)) covers.start,
      covers.stop⟩

/-- What is owned by a term that covers what was read does so as well. -/
theorem ParserState.Covers.child
    {child : Term}
    (covers : state.Covers input base first term)
    (owned : child ∈ state.arena.children term) :
    state.Covers input base first child := by
  have within := covers.laid.here.encloses.within child owned
  exact ⟨covers.laid.child owned, covers.read,
    Nat.le_trans covers.start within.start,
    Nat.le_trans within.stop covers.stop⟩

/--
A term whose span is all that was read covers that, if what it owns does so.
-/
theorem ParserState.Covers.whole
    (aligned : input.Aligned)
    (inside : state.position ≤ input.window.stop)
    (read : first < state.position)
    (held : state.arena.Holds term)
    (new : ¬ base.Holds term)
    (parsed : state.arena.range? term = none)
    (spans : state.arena.spanOf term =
      (input.window.spanAt first).merge
        (input.window.spanBefore state.position))
    (owned : ∀ child ∈ state.arena.children term,
      state.Covers input base first child) :
    state.Covers input base first term := by
  have bounded := aligned.inside
  have bounds : state.arena.spanOf term =
      { start := (input.window.tokens.spanAt first).start
        stop := (input.window.tokens.spanAt (state.position - 1)).stop } := by
    rw [spans, Window.spanAt_eq (by omega) bounded, Window.spanBefore_eq
      (by omega), aligned.tokens.merge_eq (by omega) (by omega)]
  refine ⟨.intro ⟨held, new, .of_parsed parsed ?_ ?_⟩ fun child listed =>
    (owned child listed).laid,
    read, ?_, ?_⟩
  · rw [bounds]
    exact Nat.le_trans (aligned.tokens.forward first)
      (aligned.tokens.stop_le (by omega) (by omega))
  · rw [bounds]
    exact fun child listed =>
      ⟨(owned child listed).start, (owned child listed).stop⟩
  · rw [bounds]
  · rw [bounds]

namespace ParserState.Stands

/-- Fewer terms may be kept, and of the stage less may be known. -/
theorem weaken
    {less : Stage}
    {fewer : List Term}
    (stands : state.Stands input base joined first stage kept)
    (reaches : stage.Reached first state.position →
      less.Reached first state.position)
    (covered : ∀ term ∈ fewer, term ∈ kept) :
    state.Stands input base joined first less fewer where
  inside := stands.inside
  older := stands.older
  reached := reaches stands.reached
  covers term listed := stands.covers term (covered term listed)
  context := stands.context

/--
Where the position, the arena and the template context are the same, so is the
stage.
-/
theorem of_eq
    (stands : state.Stands input base joined first stage kept)
    (position : next.position = state.position)
    (arena : next.arena = state.arena)
    (template : next.track.template? = state.track.template?) :
    next.Stands input base joined first stage kept := by
  have covers {term : Term} (covers : state.Covers input base first term) :
      next.Covers input base first term :=
    ⟨arena ▸ covers.laid, position ▸ covers.read, arena ▸ covers.start,
      arena ▸ position ▸ covers.stop⟩
  refine ⟨position ▸ stands.inside, arena ▸ stands.older, position ▸
    stands.reached,
    fun term listed => covers (stands.covers term listed),
      fun term listed => ?_⟩
  rw [ParserState.joined, template] at listed
  exact (stands.context term listed).imp_right covers

/-- Every state stands where a production begins. -/
theorem begin
    (inside : state.position ≤ input.window.stop)
    (older : base.Extends state.arena) :
    state.Stands input base state.joined state.position .here [] where
  inside := inside
  older := older
  reached := rfl
  covers _ listed := absurd listed List.not_mem_nil
  context _ listed := .inl listed

/--
A part that began where a production stood has brought the production further.
-/
private theorem followedBy
    {later : Stage}
    {roots : List Term}
    (stands : state.Stands input base joined first stage kept)
    (aligned : input.Aligned)
    (further : next.Stands input base state.joined state.position later roots)
    (extended : state.arena.Extends next.arena)
    (order : state.position ≤ next.position) :
    next.Stands input base joined first (stage.followedBy later) (roots ++
        kept) where
  inside := further.inside
  older := further.older
  reached := stands.reached.trans further.reached
  covers term listed := by
    rcases List.mem_append.mp listed with found | isKept
    · exact (further.covers term found).since aligned further.inside
        stands.reached.le
    · exact (stands.covers term isKept).later _ aligned extended order
        further.inside
  context term listed := by
    rcases further.context term listed with before | found
    · exact (stands.context term before).imp_right fun covers =>
        covers.later _ aligned extended order further.inside
    · exact .inr (found.since aligned further.inside stands.reached.le)

end ParserState.Stands

end

/--
From a stage of a production that keeps terms on, a parser is done at another
stage with a value whose terms cover what has been read.
-/
def Spans
    {Value : Type}
    (input : ParserInput)
    (first : Nat)
    (stage : Stage)
    (kept : List Term)
    (ended : Stage) (roots : Value → List Term) (parser : Parser Value) :
      Prop :=
  ∀ (base : Arena) (joined : List Term) (state : ParserState) {value :
    Value} {next : ParserState},
    state.Stands input base joined first stage kept → parser input state =
      .done value next →
      next.Stands input base joined first ended (roots value) ∧
        state.arena.Extends next.arena ∧ state.position ≤ next.position

/--
A parser is done where it began, adds no terms and leaves the template context
alone.
-/
def Parser.Pauses
    {Value : Type}
    (input : ParserInput)
    (parser : Parser Value) :
    Prop :=
  ∀ state : ParserState, ∃ value after, parser input state = .done value after ∧
    after.position = state.position ∧ after.arena = state.arena ∧
      after.track.template? = state.track.template?

namespace Spans

variable {Value First : Type} {input : ParserInput} {first : Nat}
  {stage middle ended : Stage}
  {kept : List Term} {roots : Value → List Term}

theorem pure
    (value : Value)
    (covers : ∀ root ∈ roots value, root ∈ kept) :
    Spans input first stage kept stage roots (Pure.pure value) := by
  intro base joined state found next stands run
  cases run
  exact ⟨stands.weaken id covers, .refl _, Nat.le_refl _⟩

theorem failAt {cause : ParseCause} {span : Span} :
    Spans input first stage kept ended roots (Parser.failAt cause span) := by
  intro base joined state value next _ run
  cases run

theorem fail {error : ParseError} :
    Spans input first stage kept ended roots (Action.fail error) := by
  intro base joined state value next _ run
  cases run

/-- Some of what is kept may be owned by what the first part is done with. -/
theorem hand
    (aligned : input.Aligned)
    {parser : Parser First}
    {next : First → Parser Value}
    {taken : List Term}
    {mid : First → List Term}
    (some : ∀ term ∈ taken, term ∈ kept)
    (begins : Spans input first stage taken middle mid parser)
    (rest : ∀ value, Spans input first middle (mid value ++ kept) ended roots
      (next value)) :
    Spans input first stage kept ended roots (parser >>= next) := by
  intro base joined state value after stands run
  obtain ⟨found, behind, ending, run⟩ := Parser.done_of_bind run
  obtain ⟨further, extended, order⟩ :=
    begins base joined state (stands.weaken id some) ending
  have carried :
      behind.Stands input base joined first middle (mid found ++ kept) :=
    { further with
      covers := fun term listed =>
        (List.mem_append.mp listed).elim (further.covers term)
        fun isKept => (stands.covers term isKept).later _ aligned extended order
          further.inside }
  obtain ⟨final, extendedAfter, orderAfter⟩ :=
    rest found base joined behind carried run
  exact ⟨final, extended.trans extendedAfter, Nat.le_trans order orderAfter⟩

/-- Two parts that belong together are read before what is behind them. -/
theorem through
    (aligned : input.Aligned)
    {Middle : Type}
    {observe : Parser First}
    {add : First → Parser Middle}
    {next : Middle → Parser Value}
    {mid : Middle → List Term}
    (begins : Spans input first stage kept middle mid (observe >>= add))
    (rest : ∀ value, Spans input first middle (mid value ++ kept) ended roots
      (next value)) :
    Spans input first stage kept ended roots
      (observe >>= fun seen => add seen >>= next) := by
  rw [← bind_assoc]
  exact hand aligned (fun _ => id) begins rest

/--
What the first part is done with, from where it begins, is kept for the rest.
-/
theorem bind
    (aligned : input.Aligned)
    {parser : Parser First}
    {next : First → Parser Value}
    {mid : First → List Term}
    (begins : ∀ position, Spans input position .here [] middle mid parser)
    (rest : ∀ value,
      Spans input first (stage.followedBy middle) (mid value ++ kept) ended
        roots (next value)) :
    Spans input first stage kept ended roots (parser >>= next) := by
  intro base joined state value after stands run
  obtain ⟨found, behind, ending, run⟩ := Parser.done_of_bind run
  obtain ⟨further, extended, order⟩ :=
    begins state.position base state.joined state
      (.begin stands.inside stands.older) ending
  obtain ⟨final, extendedAfter, orderAfter⟩ :=
    rest found base joined behind
      (stands.followedBy aligned further extended order) run
  exact ⟨final, extended.trans extendedAfter, Nat.le_trans order orderAfter⟩

theorem ite {condition : Prop} [Decidable condition] {yes no : Parser Value}
    (spansYes : Spans input first stage kept ended roots yes)
    (spansNo : Spans input first stage kept ended roots no) :
    Spans input first stage kept ended roots
      (if condition then yes else no) := by
  split
  · exact spansYes
  · exact spansNo

/-- More may be kept, and of the last stage less may be known. -/
theorem weaken
    {fewer : List Term}
    {parser : Parser Value}
    {less : Stage}
    {known : Value → List Term}
    (spans : Spans input first stage fewer ended known parser)
    (covered : ∀ term ∈ fewer, term ∈ kept)
    (reaches : ∀ {position}, ended.Reached first position →
      less.Reached first position)
    (covers : ∀ value, ∀ root ∈ roots value, root ∈ known value) :
    Spans input first stage kept less roots parser := by
  intro base joined state value next stands run
  obtain ⟨further, extended, order⟩ :=
    spans base joined state (stands.weaken id covered) run
  exact ⟨further.weaken reaches (covers value), extended, order⟩

/-- Of where a parser is done it may be known only that it has not gone back. -/
theorem onward
    {parser : Parser Value}
    (spans : Spans input first stage kept ended roots parser) :
    Spans input first stage kept .onward roots parser :=
  spans.weaken (fun _ => id) Stage.Reached.le fun _ _ => id

/-- A parser that is called begins a production of its own. -/
theorem call
    (aligned : input.Aligned)
    {parser : Parser Value}
    (begins : ∀ position, Spans input position .here [] middle roots parser) :
    Spans input first stage kept (stage.followedBy middle) roots parser := by
  intro base joined state value next stands run
  obtain ⟨further, extended, order⟩ :=
    begins state.position base state.joined state
      (.begin stands.inside stands.older) run
  exact ⟨(stands.followedBy aligned further extended order).weaken id fun _ =>
    List.mem_append_left _, extended, order⟩

/-- Where a parser pauses, the rest begins as if it were not there. -/
theorem aside
    {parser : Parser First}
    {next : First → Parser Value}
    (pauses : parser.Pauses input)
    (rest : ∀ value, Spans input first stage kept ended roots (next value)) :
    Spans input first stage kept ended roots (parser >>= next) := by
  intro base joined state value after stands run
  obtain ⟨found, middle, ending, position, arena, template⟩ := pauses state
  rw [Parser.run_bind ending] at run
  have spanned :=
    rest found base joined middle (stands.of_eq position arena template) run
  rwa [position, arena] at spanned

/-- Where a production begins the current token is known. -/
theorem peek
    {next : Token → Parser Value}
    (rest : Spans input first .here kept ended roots
      (next (input.window.tokenAt first))) :
    Spans input first .here kept ended roots (Parser.current >>= next) := by
  intro base joined state value after stands run
  obtain rfl : state.position = first := stands.reached
  exact rest base joined state stands run

theorem peekKind
    {next : TokenKind → Parser Value}
    (rest : Spans input first .here kept ended roots
      (next (input.window.kindAt first))) :
    Spans input first .here kept ended roots (Parser.currentKind >>= next) := by
  intro base joined state value after stands run
  obtain rfl : state.position = first := stands.reached
  exact rest base joined state stands run

theorem begin
    {next : Span → Parser Value}
    (rest : Spans input first .here kept ended roots
      (next (input.window.spanAt first))) :
    Spans input first .here kept ended roots (Parser.currentSpan >>= next) := by
  intro base joined state value after stands run
  obtain rfl : state.position = first := stands.reached
  exact rest base joined state stands run

section

variable (aligned : input.Aligned)

include aligned

/--
Behind the current token a production stands as before, and has not gone back.
-/
private theorem behind
    {base : Arena}
    {joined : List Term}
    {state : ParserState}
    (stands : state.Stands input base joined first stage kept) :
    (Parser.behind input state).Stands input base joined first
      (stage.followedBy .onward) kept ∧
      state.arena.Extends (Parser.behind input state).arena ∧
        state.position ≤ (Parser.behind input state).position := by
  have order : state.position ≤ (Parser.behind input state).position :=
    Parser.le_behind input state
  have inside : (Parser.behind input state).position ≤ input.window.stop := by
    have before := stands.inside
    simp only [Parser.behind, Window.next]
    split <;> omega
  have here :
      (Parser.behind input state).Stands input base state.joined state.position
        .onward [] :=
    { inside := inside
      older := stands.older
      reached := order
      covers := fun _ listed => absurd listed List.not_mem_nil
      context := fun term listed => by
        rw [ParserState.joined,
          show (Parser.behind input state).track.template? =
          state.track.template? from ParserTrack.follow_template? _ _] at listed
        exact .inl listed }
  exact ⟨stands.followedBy aligned here (.refl _) order, .refl _, order⟩

/--
Behind a token that is not the end of the input a production has passed a token.
-/
theorem behindReal
    {base : Arena}
    {joined : List Term}
    {state : ParserState}
    (stands : state.Stands input base joined first stage kept)
    (real : input.window.kindAt state.position ≠ .endOfInput) :
    (Parser.behind input state).Stands input base joined first .past kept ∧
      state.arena.Extends (Parser.behind input state).arena ∧
        state.position ≤ (Parser.behind input state).position := by
  obtain ⟨further, extended, order⟩ := behind aligned stands
  have moved := Parser.behind_position (aligned.closed.lt_stop real)
  refine ⟨{ further with reached := ?_ }, extended, order⟩
  rw [Stage.Reached, moved]
  exact Nat.lt_succ_of_le stands.reached.le

/-- Where a production begins, the token that is read is the first one. -/
theorem advance
    {next : Token → Parser Value}
    (rest : Spans input first .onward kept ended roots
      (next (input.window.tokenAt first))) :
    Spans input first .here kept ended roots (Parser.advance >>= next) := by
  intro base joined state value after stands run
  obtain rfl : state.position = first := stands.reached
  obtain ⟨further, extended, order⟩ := behind aligned stands
  obtain ⟨final, extendedAfter, orderAfter⟩ := rest base joined _ further run
  exact ⟨final, extended.trans extendedAfter, Nat.le_trans order orderAfter⟩

/--
Where a production begins with a token that is no end of the input, it passes
that one.
-/
theorem advanceReal
    {next : Token → Parser Value}
    (real : input.window.kindAt first ≠ .endOfInput)
    (rest : Spans input first .past kept ended roots
      (next (input.window.tokenAt first))) :
    Spans input first .here kept ended roots (Parser.advance >>= next) := by
  intro base joined state value after stands run
  obtain rfl : state.position = first := stands.reached
  obtain ⟨further, extended, order⟩ := behindReal aligned stands real
  obtain ⟨final, extendedAfter, orderAfter⟩ := rest base joined _ further run
  exact ⟨final, extended.trans extendedAfter, Nat.le_trans order orderAfter⟩

theorem skip (position : Nat) :
    Spans input position .here [] .onward noRoots Parser.skip :=
  advance aligned (pure _ fun _ => id)

theorem skipReal
    (real : input.window.kindAt first ≠ .endOfInput) :
    Spans input first .here kept .past noRoots Parser.skip :=
  advanceReal aligned real
    (pure _ fun _ listed => absurd listed List.not_mem_nil)

theorem expect
    {kind : TokenKind}
    (real : kind ≠ .endOfInput)
    (position : Nat) :
    Spans input position .here [] .past noRoots (Parser.expect kind) := by
  intro base joined state value next stands run
  obtain ⟨found, rfl⟩ := Parser.expect_done run
  exact behindReal aligned stands (found ▸ real)

omit aligned in
theorem check
    {kind : TokenKind}
    {yes no : Parser Value}
    (spansYes : Spans input first stage kept ended roots yes)
    (spansNo : Spans input first stage kept ended roots no) :
    Spans input first stage kept ended roots
      (Parser.check kind >>= fun found => if found = true then yes else no) :=
  aside (fun _ => ⟨_, _, rfl, rfl, rfl, rfl⟩) fun _ => ite spansYes spansNo

omit aligned in
/-- Where a production begins it is known what a check has found. -/
theorem checkFirst
    {kind : TokenKind}
    {yes no : Parser Value}
    (spansYes : input.window.kindAt first = kind →
      Spans input first .here kept ended roots yes)
    (spansNo : Spans input first .here kept ended roots no) :
    Spans input first .here kept ended roots
      (Parser.check kind >>= fun found => if found = true then yes
        else no) := by
  intro base joined state value next stands run
  obtain rfl : state.position = first := stands.reached
  have run : (if decide (input.window.kindAt state.position = kind) =
      true then yes else no)
      input state = .done value next := run
  by_cases found : input.window.kindAt state.position = kind
  · simp only [found, decide_true, ↓reduceIte] at run
    exact spansYes found base joined state stands run
  · simp only [found, decide_false, Bool.false_eq_true, ↓reduceIte] at run
    exact spansNo base joined state stands run

/-- A token that may be there is passed if it is. -/
theorem eat
    {kind : TokenKind}
    {yes no : Parser Value}
    (real : kind ≠ .endOfInput)
    (spansYes : Spans input first .past kept ended roots yes)
    (spansNo : Spans input first stage kept ended roots no) :
    Spans input first stage kept ended roots
      (Parser.eat kind >>= fun found => if found = true then yes else no) := by
  intro base joined state value next stands run
  obtain ⟨found, middle, ending, run⟩ := Parser.done_of_bind run
  rw [Parser.eat_run] at ending
  split at ending
  next same =>
    cases ending
    obtain ⟨further, extended, order⟩ := behindReal aligned stands (same ▸ real)
    obtain ⟨final, extendedAfter, orderAfter⟩ :=
      spansYes base joined _ further run
    exact ⟨final, extended.trans extendedAfter, Nat.le_trans order orderAfter⟩
  next =>
    cases ending
    exact spansNo base joined state stands run

/-- A token that may be there is passed if it is, whatever follows. -/
theorem eatAny (kind : TokenKind) (position : Nat) :
    Spans input position .here [] .onward noRoots (Parser.eat kind) :=
  check (bind aligned (skip aligned) fun _ => pure _ fun _ => id)
    (onward (pure _ fun _ => id))

/-- A token that may be there is passed if it is, and then the rest is read. -/
theorem eatThen
    {kind : TokenKind}
    {yes no : Parser First}
    {next : First → Parser Value}
    (real : kind ≠ .endOfInput)
    (spansYes : Spans input first .past kept ended roots (yes >>= next))
    (spansNo : Spans input first stage kept ended roots (no >>= next)) :
    Spans input first stage kept ended roots
      ((Parser.eat kind >>= fun found => if found = true then yes else no) >>=
        next) := by
  have spread :
      (fun found : Bool => (if found = true then yes else no) >>= next) =
      fun found => if found = true then yes >>= next else no >>= next := by
    funext found
    split <;> rfl
  rw [bind_assoc, spread]
  exact eat aligned real spansYes spansNo

/--
Where a production begins with an identifier, its span is that of the first
token.
-/
theorem expectIdentifier
    {next : Name × Span → Parser Value}
    (rest : ∀ name, Spans input first .past kept ended roots
      (next (name, input.window.spanAt first))) :
    Spans input first .here kept ended roots
      (Parser.expectIdentifier >>= next) := by
  intro base joined state value after stands run
  obtain ⟨found, middle, ending, run⟩ := Parser.done_of_bind run
  obtain rfl : state.position = first := stands.reached
  have token : Parser.current input state =
      .done (input.window.tokenAt state.position) state := rfl
  rw [Parser.expectIdentifier, Parser.run_bind token] at ending
  cases same : (input.window.tokenAt state.position).kind with
  | identifier name =>
      rw [same] at ending
      cases ending
      have real : input.window.kindAt state.position ≠ .endOfInput := by
        rw [Window.kindAt, same]
        exact TokenKind.noConfusion
      obtain ⟨further, extended, order⟩ := behindReal aligned stands real
      obtain ⟨final, extendedAfter, orderAfter⟩ :=
        rest name base joined _ further run
      exact ⟨final, extended.trans extendedAfter, Nat.le_trans order orderAfter⟩
  | _ =>
      rw [same] at ending
      cases ending

end

section

variable (aligned : input.Aligned)

include aligned

private theorem skipTo
    (terminators : List TokenKind)
    (level fuel position : Nat) :
    Spans input position .here [] .onward noRoots
      (Parser.skipTo terminators level fuel) := by
  induction fuel generalizing position with
  | zero =>
      intro base joined state value next _ run
      cases run
  | succ fuel inductionHypothesis =>
      exact aside (fun _ => ⟨_, _, rfl, rfl, rfl, rfl⟩) fun _ =>
        aside (fun _ => ⟨_, _, rfl, rfl, rfl, rfl⟩) fun _ =>
          ite (onward (pure _ fun _ => id)) (ite failAt (ite failAt
            (bind aligned (skip aligned) fun _ =>
              call aligned inductionHypothesis)))

private theorem skipOut (opened : Span) (level fuel position : Nat) :
    Spans input position .here [] .onward noRoots
      (Parser.skipOut opened level fuel) := by
  induction fuel generalizing position with
  | zero =>
      intro base joined state value next _ run
      cases run
  | succ fuel inductionHypothesis =>
      exact aside (fun _ => ⟨_, _, rfl, rfl, rfl, rfl⟩) fun _ =>
        ite (aside (fun _ => ⟨_, _, rfl, rfl, rfl, rfl⟩) fun _ =>
            ite failAt (bind aligned (skip aligned) fun _ =>
              call aligned inductionHypothesis))
          (onward (pure _ fun _ => id))

theorem captureTo (terminators : List TokenKind) (position : Nat) :
    Spans input position .here [] .onward noRoots
      (Parser.captureTo terminators) :=
  aside (fun _ => ⟨_, _, rfl, rfl, rfl, rfl⟩) fun _ =>
    aside (fun _ => ⟨_, _, rfl, rfl, rfl, rfl⟩) fun _ =>
      aside (fun _ => ⟨_, _, rfl, rfl, rfl, rfl⟩) fun _ =>
        bind aligned (skipTo aligned _ _ _) fun _ =>
          aside (fun _ => ⟨_, _, rfl, rfl, rfl, rfl⟩) fun _ =>
            pure _ fun _ => id

theorem captureBraces (position : Nat) :
    Spans input position .here [] .past noRoots Parser.captureBraces :=
  aside (fun _ => ⟨_, _, rfl, rfl, rfl, rfl⟩) fun _ =>
    aside (fun _ => ⟨_, _, rfl, rfl, rfl, rfl⟩) fun _ =>
      aside (fun _ => ⟨_, _, rfl, rfl, rfl, rfl⟩) fun _ =>
        bind aligned (expect aligned TokenKind.noConfusion) fun _ =>
          aside (fun _ => ⟨_, _, rfl, rfl, rfl, rfl⟩) fun _ =>
            bind aligned (skipOut aligned _ _ _) fun _ =>
              aside (fun _ => ⟨_, _, rfl, rfl, rfl, rfl⟩) fun _ =>
                pure _ fun _ => id

end

end Spans

end Tern
