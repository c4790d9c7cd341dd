import Tern.Proofs.Grammar.Balance

namespace Tern

/-!
# Parsing halts and goes on

Started anywhere in any token list or range of one, every production is done or
has failed within the bound that the tokens left set to its nested calls. When
it is done it stands no further than the end of what it may read, and further on
than before if it is to read a token. A compilation unit is done at that end.
-/

/-- A place at which any nonterminal may be called. -/
def Place.outermost : Place :=
  { own := [], inTemplate := true, rank := Parser.ranks, unread := False,
    settled := false }

/-- A window onto a whole token list, or onto a range of one. -/
inductive Window.Onto (tokens : Tokens) : Window → Prop where
  | whole : Window.Onto tokens (.whole tokens)
  | range (range : TokenRange) : Window.Onto tokens (.ofRange tokens range)

/-- All windows onto token lists are closed by the end of the input. -/
theorem Window.Onto.closed
    {tokens : Tokens}
    {window : Window}
    (onto : window.Onto tokens) :
    window.Closed := by
  cases onto with
  | whole => exact whole_closed tokens
  | range range => exact ofRange_closed tokens range

namespace Parser

variable {Value : Type} {reads : Value → Bool} {parser : Rules → Parser Value}

/-- The tokens left bound the nested calls of every production. -/
theorem withRules_advances
    (production : Production .outermost reads parser)
    {input : ParserInput}
    (closed : input.window.Closed)
    (state : ParserState) :
    (withRules parser input state).Advances reads state.position
      input.window.stop :=
  production.advances closed (Rules.nested_advance closed _) state
    (Fragment.suffices_ranks _ _)
    False.elim

/-- They do so whatever nonterminal is parsed. -/
private theorem parse_advances
    (nonterminal : Nonterminal Value)
    {input : ParserInput}
    (closed : input.window.Closed)
    (state : ParserState) :
    (parse nonterminal input state).Advances (fun _ => nonterminal.reads)
      state.position
      input.window.stop :=
  withRules_advances
    (.call nonterminal nonterminal.rank_lt (fun _ => rfl) nofun) closed state

/--
A parser that has to read all tokens of the window advances as it does without
that.
-/
private theorem toEnd_advances
    {parser : Parser Value}
    {input : ParserInput}
    {state : ParserState}
    {start stop : Nat}
    (advances : (parser input state).Advances reads start stop) :
    (toEnd parser input state).Advances reads start stop := by
  simp only [toEnd, Bind.bind, Action.bind]
  cases ending : parser input state with
  | done value after =>
      rw [ending] at advances
      have looked : atEnd input after =
          .done (input.window.atEnd after.position) after := rfl
      simp only [looked]
      cases input.window.atEnd after.position with
      | true => exact advances
      | false => trivial
  | failed error after => trivial
  | exhausted =>
      rw [ending] at advances
      exact advances

end Parser

/--
Every fragment is parsed by a production at a place where any nonterminal may be
called.
-/
theorem Fragment.production_outermost
    {Value : Type}
    (fragment : Fragment Value) :
    Production .outermost (fun _ => true) fragment.parser := by
  cases fragment with
  | type => exact .callBehind .type rfl rfl
  | expression => exact .callBehind (.tier .or) rfl rfl
  | body => exact .currentBlock
  | members => exact .memberBody

/-- A captured fragment is parsed on from where it begins. -/
private theorem Fragment.captured_advances
    {Value : Type}
    (fragment : Fragment Value)
    {input : ParserInput}
    (closed : input.window.Closed)
    (state : ParserState) :
    (fragment.captured input state).Advances (fun _ => true) state.position
      input.window.stop := by
  rw [captured_eq]
  exact Parser.toEnd_advances
    (Parser.withRules_advances fragment.production_outermost closed state)

/--
Whatever is parsed from a state halts, and if it is done it stands no further
than the end of the window. What has to read a token stands further on than it
began, and a compilation unit stands at the end.
-/
structure Parser.ProgressesFrom (input : ParserInput) (state : ParserState) :
    Prop where
  production : ∀ {Value : Type} {reads : Value → Bool} {parser : Rules →
    Parser Value},
    Production .outermost reads parser →
      (withRules parser input state).Advances reads state.position
        input.window.stop
  nonterminal : ∀ {Value : Type} (nonterminal : Nonterminal Value),
    (parse nonterminal input state).Advances (fun _ => nonterminal.reads)
      state.position
      input.window.stop
  fragment : ∀ {Value : Type} (fragment : Fragment Value),
    (fragment.captured input state).Advances (fun _ => true) state.position
      input.window.stop
  type : (parse .type input state).Advances (fun _ => true) state.position
    input.window.stop
  expression : ∀ tier,
    (parse (.tier tier) input state).Advances (fun _ => true) state.position
      input.window.stop
  statement :
    (parse .statement input state).Advances (fun _ => true) state.position
      input.window.stop
  declaration :
    (parse .declaration input state).Advances (fun _ => true) state.position
      input.window.stop
  requirement : (withRules Rules.requirement input state).Advances
    (fun _ => true) state.position
    input.window.stop
  conceptMember :
    (withRules Rules.conceptMember input state).Advances (fun _ => true)
    state.position input.window.stop
  templateArg : (withRules Rules.templateArg input state).Advances
    (fun _ => true) state.position
    input.window.stop
  unit : (unit input state).Advances (fun _ => false) state.position
    input.window.stop
  unitAtEnd : ∀ stmt after, Parser.unit input state = .done stmt after →
    input.window.stop ≤ after.position

/--
In any window onto any token list, in both modes and from any position, arena
and scopes, all that the grammar parses halts and goes on.
-/
theorem parsing_progresses
    {tokens : Tokens}
    {window : Window}
    (onto : window.Onto tokens)
    (names : Names)
    (mode : ParseMode)
    (state : ParserState) :
    Parser.ProgressesFrom { window := window, names := names, mode := mode }
      state where
  production production :=
    Parser.withRules_advances production onto.closed state
  nonterminal nonterminal := Parser.parse_advances nonterminal onto.closed state
  fragment fragment := fragment.captured_advances onto.closed state
  type := Parser.parse_advances .type onto.closed state
  expression tier := Parser.parse_advances (.tier tier) onto.closed state
  statement := Parser.parse_advances .statement onto.closed state
  declaration := Parser.parse_advances .declaration onto.closed state
  requirement :=
    Parser.withRules_advances (.requirement (by decide)) onto.closed state
  conceptMember :=
    Parser.withRules_advances (.conceptMember nofun (by decide))
      onto.closed state
  templateArg :=
    Parser.withRules_advances (.templateArg rfl (by decide)) onto.closed state
  unit := Parser.withRules_advances (.unit rfl (by decide)) onto.closed state
  unitAtEnd _ _ run := Parser.unit_atEnd run

/--
From within its parenthesis the pair is parsed on to a comma before its end.
-/
theorem parsing_progresses_pointer :
    (Window.whole pairOfTypes).Onto pairOfTypes ∧
      ∃ after : ParserState,
        Parser.parse .type
          { window := .whole pairOfTypes, names := ⟨[]⟩, mode := .deferred }
            insideParenthesis = .done { raw := 1 } after ∧
          1 < after.position ∧ after.position ≤ 6 := by
  have advances :=
    (@parsing_progresses pairOfTypes _ .whole ⟨[]⟩ .deferred
      insideParenthesis).type
  obtain ⟨after, run⟩ : ∃ after : ParserState,
      Parser.parse .type
        { window := .whole pairOfTypes, names := ⟨[]⟩, mode := .deferred }
        insideParenthesis = .done { raw := 1 } after :=
    ⟨_, rfl⟩
  rw [run] at advances
  exact ⟨.whole, after, run, advances.2.2 rfl, advances.2.1⟩

end Tern
