import Tern.Grammar.Fragments
import Tern.Proofs.Token.Passage

namespace Tern

/-!
# How parsers run

What running a parser comes to, in terms of running the parsers that it is made
of, where these run in changed states or are chosen by the current token.
-/

/-- A sequence is done when its first part is done and then the rest of it. -/
theorem Action.done_of_bind
    {Environment Failure State First Value : Type}
    {action : Action Environment Failure State First}
    {next : First → Action Environment Failure State Value}
    {environment : Environment}
    {state after : State}
    {value : Value}
    (run : (action >>= next) environment state = .done value after) :
    ∃ first middle, action environment state = .done first middle ∧
      next first environment middle = .done value after := by
  simp only [Bind.bind, Action.bind] at run
  cases ending : action environment state with
  | done first middle =>
      rw [ending] at run
      exact ⟨first, middle, rfl, run⟩
  | failed error middle =>
      rw [ending] at run
      cases run
  | exhausted =>
      rw [ending] at run
      cases run

/-- Behind a part that is done the rest of a sequence runs. -/
theorem Action.run_bind
    {Environment Failure State First Value : Type}
    {action : Action Environment Failure State First}
    {next : First → Action Environment Failure State Value}
    {environment : Environment}
    {state middle : State}
    {first : First}
    (run : action environment state = .done first middle) :
    (action >>= next) environment state = next first environment middle := by
  simp only [Bind.bind, Action.bind, run]

namespace Parser

variable {Value : Type}

/--
A parser that is a sequence is done when its first part is done and then the
rest of it.
-/
theorem done_of_bind
    {First : Type}
    {parser : Parser First}
    {next : First → Parser Value}
    {input : ParserInput}
    {state after : ParserState}
    {value : Value}
    (run : (parser >>= next) input state = .done value after) :
    ∃ first middle,
      parser input state = .done first middle ∧
        next first input middle = .done value after :=
  Action.done_of_bind run

/-- Behind a part that is done the rest of a sequence runs. -/
theorem run_bind
    {First : Type}
    {parser : Parser First}
    {next : First → Parser Value}
    {input : ParserInput}
    {state middle : ParserState}
    {first : First}
    (run : parser input state = .done first middle) :
    (parser >>= next) input state = next first input middle :=
  Action.run_bind run

/--
A parser runs in the entered scope, and the former one is current again behind
it.
-/
theorem within_run
    (scope : ScopeId)
    (parser : Parser Value)
    (input : ParserInput)
    (state : ParserState) :
    within scope parser input state =
      match parser input { state with scopes := state.scopes.enter scope } with
      | .done value after =>
          .done value { after with
                        scopes := after.scopes.enter state.scopes.current }
      | .failed failure after =>
          .failed failure
            { after with scopes := after.scopes.enter state.scopes.current }
      | .exhausted => .exhausted := by
  simp only [within, Bind.bind, Action.bind, currentScope, Action.state,
    Pure.pure, Action.pure, Action.modify, Action.ensure]
  cases parser input { state with scopes := state.scopes.enter scope } <;> rfl

/--
A parser runs in a template context of its own, and the former one is in force
behind it.
-/
theorem withTemplate_run
    (context : TemplateContext)
    (parser : Parser Value)
    (input : ParserInput)
    (state : ParserState) :
    withTemplate context parser input state =
      match parser input
          { state with track := { state.track with template? := some context } }
            with
      | .done value after =>
          .done (value, after.track.template?.getD .empty)
            { after with track :=
              { after.track with template? := state.track.template? } }
      | .failed failure after =>
          .failed failure
            { after with track :=
              { after.track with template? := state.track.template? } }
      | .exhausted => .exhausted := by
  simp only [withTemplate, Bind.bind, Action.bind, tracked, Action.state,
    Pure.pure, Action.pure, retrack, Action.modify, Action.ensure]
  cases parser input
    { state with track := { state.track with template? := some context } } <;>
    rfl

/-- The second parser runs from where the first one began, if that fails. -/
theorem either_run
    (first second : Parser Value)
    (input : ParserInput)
    (state : ParserState) :
    either first second input state =
      match attempt first input state with
      | .done value after => .done value after
      | .failed _ restored => second input restored
      | .exhausted => .exhausted := by
  simp only [either, trial, Bind.bind, Action.bind, Action.orElse, Functor.map]
  cases attempt first input state <;> rfl

/-- The state behind the current token. -/
def behind (input : ParserInput) (state : ParserState) : ParserState :=
  { state with
    position := input.window.next state.position
    track := state.track.follow (input.window.kindAt state.position) }

/-- The current token is read when it is of the kind that has to be. -/
theorem expect_run_of_eq
    {kind : TokenKind}
    {input : ParserInput}
    {state : ParserState}
    (found : input.window.kindAt state.position = kind) :
    expect kind input state = .done () (behind input state) := by
  have tokenFound : (input.window.tokenAt state.position).kind = kind := found
  have token : current input state =
      .done (input.window.tokenAt state.position) state := rfl
  simp only [expect, Bind.bind, Action.bind, token, tokenFound, ↓reduceIte]
  rfl

/--
Nothing is read when the current token is of another kind than it has to be.
-/
theorem expect_run_of_ne
    {kind : TokenKind}
    {input : ParserInput}
    {state : ParserState}
    (found : input.window.kindAt state.position ≠ kind) :
    ∃ failure, expect kind input state = .failed failure state := by
  have tokenFound : (input.window.tokenAt state.position).kind ≠ kind := found
  have token : current input state =
      .done (input.window.tokenAt state.position) state := rfl
  simp only [expect, Bind.bind, Action.bind, token, tokenFound, ↓reduceIte]
  cases (input.window.tokenAt state.position).kind <;> cases kind.closes? <;>
    exact ⟨_, rfl⟩

/-- Behind a token before the end the position is one further. -/
theorem behind_position
    {input : ParserInput}
    {state : ParserState}
    (inside : state.position < input.window.stop) :
    (behind input state).position = state.position + 1 := by
  simp [behind, Window.next, inside]

/-- The delimiters open behind a token that closes none of the outer ones. -/
theorem behind_delimiters
    {input : ParserInput}
    {state : ParserState}
    {opened outer : List Delimiter}
    (opens : state.track.delimiters = opened ++ outer)
    (nested : (input.window.kindAt state.position).closes?.isSome = true →
      opened ≠ []) :
    (behind input state).track.delimiters =
      Delimiter.follow opened (input.window.kindAt state.position) ++
        outer := by
  rw [← Delimiter.follow_append nested, ← opens]
  exact ParserTrack.follow_delimiters _ _

/-- A token that had to be of a kind and has been read was of that kind. -/
theorem expect_done
    {kind : TokenKind}
    {input : ParserInput}
    {state after : ParserState}
    {value : Unit}
    (run : expect kind input state = .done value after) :
    input.window.kindAt state.position = kind ∧ after = behind input state := by
  by_cases found : input.window.kindAt state.position = kind
  · rw [expect_run_of_eq found] at run
    cases run
    exact ⟨found, rfl⟩
  · obtain ⟨failure, failed⟩ := expect_run_of_ne found
    rw [failed] at run
    cases run

/-- A token that may be of a kind is read exactly if it is of that kind. -/
theorem eat_run
    (kind : TokenKind)
    (input : ParserInput)
    (state : ParserState) :
    eat kind input state =
      if input.window.kindAt state.position =
        kind then .done true (behind input state)
      else .done false state := by
  have checked : check kind input state =
      .done (decide (input.window.kindAt state.position = kind)) state :=
    rfl
  by_cases found : input.window.kindAt state.position = kind
  · simp only [eat, Bind.bind, Action.bind, checked, found, decide_true,
      ↓reduceIte]
    subst found
    rfl
  · simp only [eat, Bind.bind, Action.bind, checked, found, decide_false,
      Bool.false_eq_true, ↓reduceIte]
    rfl

/--
A repetition that may be empty is so exactly if the token that ends it is next.
-/
theorem orNone_run
    (rules : Rules)
    (closer : TokenKind)
    (items : Nonterminal (List Value))
    (input : ParserInput)
    (state : ParserState) :
    rules.orNone closer items input state =
      if input.window.kindAt state.position = closer then .done [] state
      else rules.parse items input state := by
  have checked : check closer input state =
      .done (decide (input.window.kindAt state.position = closer)) state :=
    rfl
  by_cases found : input.window.kindAt state.position = closer
  · simp only [Rules.orNone, Bind.bind, Action.bind, checked, found,
      decide_true, ↓reduceIte]
    rfl
  · simp only [Rules.orNone, Bind.bind, Action.bind, checked, found,
      decide_false, Bool.false_eq_true, ↓reduceIte]

/-- Reading on to a terminator is decided by the current token. -/
theorem skipTo_succ
    (terminators : List TokenKind)
    (level fuel : Nat)
    (input : ParserInput)
    (state : ParserState) :
    skipTo terminators level (fuel + 1) input state =
      let token := input.window.tokenAt state.position
      let failure : ParseCause → Outcome ParseError ParserState Unit :=
        fun cause => .failed (.of cause token.span) state
      if state.track.depth = level ∧ token.kind ∈ terminators then
        .done () state
      else if token.kind = .endOfInput then
        failure (missingTerminator terminators level state.track token.kind)
      else if state.track.depth = level ∧ token.kind.closes?.isSome then
        failure (.unexpectedToken (describeChoice terminators) token.kind)
      else
        skipTo terminators level fuel input (behind input state) := by
  simp only [skipTo, Bind.bind, Action.bind, current, Action.environment,
    Action.state, Pure.pure, Action.pure, tracked]
  split
  · rfl
  · split
    · rfl
    · split
      · rfl
      · rfl

/--
Reading on to a nesting level is decided by whether it is reached, or the end
is.
-/
theorem skipOut_succ
    (opened : Span)
    (level fuel : Nat)
    (input : ParserInput)
    (state : ParserState) :
    skipOut opened level (fuel + 1) input state =
      if level < state.track.depth then
        if input.window.atEnd state.position then
          .failed (.of (.unclosedDelimiter (Delimiter.opener .brace)) opened)
            state
        else
          skipOut opened level fuel input (behind input state)
      else
        .done () state := by
  have depthRead : depth input state = .done state.track.depth state := rfl
  have endRead : atEnd input state =
      .done (input.window.atEnd state.position) state := rfl
  by_cases deeper : level < state.track.depth
  · by_cases ended : input.window.atEnd state.position = true
    · simp only [skipOut, Bind.bind, Action.bind, depthRead, deeper, ↓reduceIte,
        endRead, ended]
      rfl
    · simp only [skipOut, Bind.bind, Action.bind, depthRead, deeper, ↓reduceIte,
        endRead, ended]
      rfl
  · simp only [skipOut, Bind.bind, Action.bind, depthRead, deeper, ↓reduceIte]
    rfl

end Parser

end Tern
