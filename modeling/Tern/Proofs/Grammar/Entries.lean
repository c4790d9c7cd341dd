import Tern.Compilation
import Tern.Proofs.Grammar.Declaring
import Tern.Proofs.Grammar.Placement
import Tern.Proofs.Grammar.Reparsing

namespace Tern

/-!
# What the entry points leave behind

An entry point is never exhausted. It fails with causes that can be met at any
place, and what it is done with is parsed as a whole or ready to be elaborated.
-/

/--
A parse is not exhausted and reports no declaration out of place. If it is done,
terms were added to an arena, none of their declarations is elaborated, the
parameters of their templates and concepts are indexed, and something is known
of the value.
-/
def Outcome.Parses
    {Value : Type}
    (arena : Arena)
    (known : Arena → Value → Prop) :
    Outcome ParseError ParserState Value → Prop
  | .done value after =>
      arena.Extends after.arena ∧
        (∀ decl : DeclId, (after.arena.decl decl).phase =
          (arena.decl decl).phase) ∧
        after.arena.IndexedFrom arena.decls.size ∧
          known after.arena value
  | .failed error _ => error.cause.isPlain = true
  | .exhausted => False

/-- Between two moments the phase of no declaration has changed. -/
private theorem Moment.Precedes.phase_eq
    {earlier later : Moment}
    (order : earlier.Precedes later)
    (decl : DeclId) :
    (later.arena.decl decl).phase = (earlier.arena.decl decl).phase := by
  by_cases stored : decl.raw < earlier.arena.decls.size
  · rw [order.extended.decl_eq stored]
  · have past := Nat.le_of_not_lt stored
    rw [order.unelaborated past, Arena.phase_of_size_le past]

/-- At the start of a window no template context is in force. -/
private theorem ParserState.contextParsed_start
    (window : Window)
    (scopes : Scopes)
    (arena : Arena) :
    (ParserState.start window scopes arena).ContextParsed := by
  rintro context ⟨⟩

/--
A production that stands in no template context parses with the rules of the
grammar.
-/
private theorem Production.parses
    {place : Place}
    {Value : Type}
    {reads : Value → Bool}
    {parser : Rules → Parser Value}
    (production : Production place reads parser)
    (outside : place.inTemplate = false)
    (ranked : place.rank = Parser.ranks)
    (notUnread : ¬ place.unread)
    {input : ParserInput}
    {scopes : Scopes}
    {arena : Arena}
    {known : Moment → Value → Prop}
    (closed : input.window.Closed)
    (yields : ∀ depth,
      Yields input { arena := arena, position := input.window.start }
      (parser (Rules.nested depth)) known) :
    (Parser.withRules parser input (.start input.window scopes arena)).Parses
      arena
      fun after value =>
        ∃ position, position ≤ max input.window.start input.window.stop ∧
        known { arena := after, position := position } value := by
  let depth : Nat :=
    Parser.ranks * (input.window.remaining input.window.start + 1)
  let start : ParserState := .start input.window scopes arena
  have yielded :=
    yields depth start (.refl _) (ParserState.contextParsed_start _ _ _)
  have placed := production.inPlace (Rules.nested_inPlace input depth) start
    (by simp [outside])
  have advances :=
    production.advances closed (Rules.nested_advance closed depth) start
    (by rw [ranked]; exact Fragment.suffices_ranks _ _) fun unread =>
      absurd unread notUnread
  have run : Parser.withRules parser input start =
      parser (Rules.nested depth) input start := rfl
  rw [run]
  cases ending : parser (Rules.nested depth) input start with
  | done value after =>
      rw [ending] at yielded advances
      obtain ⟨order, _, fact⟩ := yielded
      exact ⟨order.extended, order.phase_eq, order.indexed, after.position,
        advances.2.1, fact⟩
  | failed error after =>
      rw [ending] at placed
      exact placed
  | exhausted =>
      rw [ending] at advances
      exact advances

theorem Outcome.Parses.weaken
    {Value : Type}
    {outcome : Outcome ParseError ParserState Value}
    {arena : Arena}
    {known less : Arena → Value → Prop}
    (parses : outcome.Parses arena known)
    (implied : ∀ after value, known after value → less after value) :
    outcome.Parses arena less := by
  cases outcome with
  | done value after =>
      obtain ⟨extended, phases, indexed, known⟩ := parses
      exact ⟨extended, phases, indexed, implied _ _ known⟩
  | failed error after => exact parses
  | exhausted => exact parses

/--
A parser that has to read all tokens parses if it does so when it may leave
some.
-/
private theorem Outcome.Parses.toEnd
    {Value : Type}
    {parser : Parser Value}
    {input : ParserInput}
    {state : ParserState}
    {arena : Arena}
    {known : Arena → Value → Prop}
    (parses : (parser input state).Parses arena known) :
    (Parser.toEnd parser input state).Parses arena known := by
  simp only [Parser.toEnd, Bind.bind, Action.bind]
  cases ending : parser input state with
  | done value after =>
      rw [ending] at parses
      have endRead : Parser.atEnd input after =
          .done (input.window.atEnd after.position) after := rfl
      simp only [endRead]
      split
      · exact parses
      · rfl
  | failed error after =>
      rw [ending] at parses
      exact parses
  | exhausted =>
      rw [ending] at parses
      exact parses

namespace Fragment

variable {Value : Type}

/-- What a captured fragment is parsed to. -/
def Parsed (range : TokenRange) (older : Arena) :
    Fragment Value → Arena → Value → Prop
  | .type => fun arena type => arena.Parsed (.type type)
  | .expression => fun arena expr => arena.Parsed (.expr expr)
  | .body => fun arena stmt => older.stmts.size ≤ stmt.raw ∧
      arena.Ready older.decls.size (4 * (range.stop - range.start)) (.stmt stmt)
  | .members => fun arena stmt => older.stmts.size ≤ stmt.raw ∧
      arena.Ready older.decls.size (4 * (range.stop - range.start)) (.stmt stmt)

section

variable {start : Moment} {rules : Rules} {input : ParserInput}

/-- What is known of a fragment behind its last token. -/
def Yielded (start : Moment) : Fragment Value → Moment → Value → Prop
  | .type => parsedAs .type
  | .expression => parsedAs .expr
  | .body => start.ReadiesList
  | .members => start.ReadiesList

private theorem yields (fragment : Fragment Value) (yield : rules.Yield input) :
    Yields input start (fragment.parser rules) (fragment.Yielded start) := by
  cases fragment with
  | type => exact yield.parse .type start trivial
  | expression => exact yield.parse (.tier .or) start trivial
  | body => exact yield.currentBlock
  | members => exact yield.memberBody

end

/-- The parser of a captured fragment is composed of steps. -/
theorem captured_composed (fragment : Fragment Value) :
    Composed [] fragment.captured := by
  rw [captured_eq]
  refine .bind (Composed.remaining.bind fun _ =>
    (fragment.production false).composed (Rules.nested_allComposed _))
    fun _ => Composed.atEnd.bind fun _ => .ite (.pure _) ?_
  exact Composed.current.bind fun _ => .failAt _ _

/--
A captured fragment is parsed as a whole, or to a statement ready within its
range.
-/
theorem captured_parses
    (fragment : Fragment Value)
    (tokens : Tokens)
    (range : TokenRange)
    (names : Names)
    (mode : ParseMode)
    (scopes : Scopes)
    (arena : Arena) :
    (fragment.captured
      { window := .ofRange tokens range, names := names, mode := mode }
      (.start (.ofRange tokens range) scopes arena)).Parses arena
        (fragment.Parsed range arena) := by
  have closed : (Window.ofRange tokens range).Closed :=
    Window.ofRange_closed tokens range
  have stop : (Window.ofRange tokens range).stop ≤
      max range.stop range.start := by
    simp only [Window.ofRange]
    omega
  rw [captured_eq]
  refine Outcome.Parses.toEnd
    (Outcome.Parses.weaken ((fragment.production false).parses rfl rfl id
    closed fun depth => fragment.yields (Rules.nested_yield closed depth)) ?_)
  rintro after value ⟨position, inside, known⟩
  have inside : position ≤ max range.start (Window.ofRange tokens range).stop :=
    inside
  have shorter {stmt : StmtId}
      (ready : after.Ready arena.decls.size (4 * (position - range.start))
        (.stmt stmt)) :
      after.Ready arena.decls.size (4 * (range.stop - range.start))
        (.stmt stmt) :=
    ready.weaken (Nat.le_refl _) (by omega)
  cases fragment with
  | type => exact known
  | expression => exact known
  | body => exact ⟨known.new, shorter known.ready⟩
  | members => exact ⟨known.new, shorter known.ready⟩

end Fragment

/-- The window onto a whole list begins with the list. -/
theorem Window.whole_start (tokens : Tokens) :
    (Window.whole tokens).start = 0 := by
  unfold whole
  split
  · rfl
  · split <;> rfl

/--
A compilation unit is a list of statements that are ready within its tokens.
-/
theorem parseUnit_parses (names : Names) (tokens : Tokens) (mode : ParseMode) :
    (parseUnit names tokens mode).Parses .empty fun after unit =>
      ∃ stmts scope, after.Holds (.stmt unit) ∧
        (after.stmt unit).form = .list .unit stmts scope ∧
          ∀ stmt ∈ stmts, after.Ready 0 (4 * tokens.size) (.stmt stmt) := by
  have closed : (Window.whole tokens).Closed := Window.whole_closed tokens
  have production :
      Production (Fragment.place false) (fun _ => false) Rules.unit :=
    .unit rfl (by decide)
  have stop : (Window.whole tokens).stop ≤ tokens.size :=
    Window.whole_stop_le tokens
  have start : (Window.whole tokens).start = 0 := Window.whole_start tokens
  refine Outcome.Parses.weaken (production.parses rfl rfl id closed fun depth =>
    (Rules.nested_yield closed depth).unit) ?_
  rintro after unit ⟨position, inside, stmts, scope, held, form, ready⟩
  have inside : position ≤
      max (Window.whole tokens).start (Window.whole tokens).stop := inside
  refine ⟨stmts, scope, held, form, fun stmt listed => ?_⟩
  exact Arena.Ready.weaken (ready stmt listed) (Nat.le_refl _)
    (by dsimp only; omega)

end Tern
