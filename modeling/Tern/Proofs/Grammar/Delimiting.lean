import Tern.Proofs.Grammar.Halting
import Tern.Proofs.Grammar.Passing

namespace Tern

/-!
# Captures delimit what is parsed

A capture knows nothing of the grammar: it counts delimiters, and ends at the
first terminator at the level at which it began. Where a type or an initializer
is parsed up to a terminator it is a passage, which closes what it opens and
goes over no terminator at its own level, so that a capture goes over the same
tokens.
-/

/-- The state at a position with some delimiters open, and all else as it is. -/
def ParserState.landed
    (state : ParserState)
    (position : Nat)
    (delimiters : List Delimiter) :
    ParserState :=
  { state with
    position := position
    track := { state.track with delimiters := delimiters } }

/-- Reading a token changes the position and the delimiters only. -/
theorem Parser.behind_landed
    (input : ParserInput)
    (state : ParserState)
    (position : Nat)
    (delimiters : List Delimiter) :
    (Parser.behind input state).landed position delimiters =
      state.landed position delimiters := by
  simp only [ParserState.landed, Parser.behind, ParserTrack.follow_specifiers,
    ParserTrack.follow_template?]

namespace Parser

variable {input : ParserInput} {state : ParserState}
  {terminators : List TokenKind}
  {clear : TokenKind → Prop} {opened outer : List Delimiter}
    {position stop fuel : Nat}

/--
A token that a passage goes over ends no capture that began outside the passage.
-/
private theorem skipTo_onward
    (apart : ∀ kind ∈ terminators, ¬ clear kind)
    (opens : state.track.delimiters = opened ++ outer)
    (real : input.window.kindAt state.position ≠ .endOfInput)
    (cleared : opened = [] → clear (input.window.kindAt state.position))
    (nested : (input.window.kindAt state.position).closes?.isSome = true →
      opened ≠ []) :
    skipTo terminators outer.length (fuel + 1) input state =
      skipTo terminators outer.length fuel input (behind input state) := by
  have level : state.track.depth = outer.length → opened = [] := by
    intro same
    rw [ParserTrack.depth, opens, List.length_append] at same
    exact List.eq_nil_of_length_eq_zero (by omega)
  have goesOn : ¬ (state.track.depth = outer.length ∧
      (input.window.tokenAt state.position).kind ∈ terminators) := by
    rintro ⟨same, terminates⟩
    exact apart _ terminates (cleared (level same))
  have closesNone : ¬ (state.track.depth = outer.length ∧
      (input.window.tokenAt state.position).kind.closes?.isSome = true) := by
    rintro ⟨same, closes⟩
    exact nested closes (level same)
  have goingOn : (input.window.tokenAt state.position).kind ≠ .endOfInput :=
    real
  rw [skipTo_succ]
  dsimp only
  rw [if_neg goesOn, if_neg goingOn, if_neg closesNone]

/--
Reading on to a terminator from within a passage goes to the end of the passage.
The level stays the outer one; what the passage has open of its own comes before
it.
-/
private theorem skipTo_of_passage
    (apart : ∀ kind ∈ terminators, ¬ clear kind)
    {left : List Delimiter}
    (passage : Passage input.window clear position opened stop left)
    (atLevel : left = [])
    (terminates : input.window.kindAt stop ∈ terminators)
    (stands : state.position = position)
    (opens : state.track.delimiters = opened ++ outer)
    (enough : input.window.remaining position < fuel) :
    skipTo terminators outer.length fuel input state =
      .done () (state.landed stop outer) := by
  induction passage generalizing state fuel with
  | here position opened =>
      subst stands atLevel
      obtain ⟨more, rfl⟩ :=
        Nat.exists_eq_succ_of_ne_zero (Nat.ne_zero_of_lt enough)
      have ended : state.track.depth = outer.length ∧
          (input.window.tokenAt state.position).kind ∈ terminators :=
        ⟨congrArg List.length opens, terminates⟩
      have landed : state.landed state.position outer = state := by
        rw [← List.nil_append outer, ← opens]
        rfl
      rw [skipTo_succ, landed]
      exact if_pos ended
  | read inside real cleared nested rest inductionHypothesis =>
      subst stands
      obtain ⟨more, rfl⟩ :=
        Nat.exists_eq_succ_of_ne_zero (Nat.ne_zero_of_lt enough)
      rw [skipTo_onward apart opens real cleared nested,
        inductionHypothesis atLevel terminates (behind_position inside)
          (behind_delimiters opens nested)
            (by simp only [Window.remaining] at enough ⊢; omega),
        behind_landed]

/-- A capture goes to the end of a passage that a terminator stands behind. -/
private theorem captureTo_of_passage
    (apart : ∀ kind ∈ terminators, ¬ clear kind)
    (passage : Passage input.window clear state.position [] stop [])
    (terminates : input.window.kindAt stop ∈ terminators) :
    captureTo terminators input state =
      .done { start := state.position, stop := stop }
        { state with position := stop } := by
  have skipped : skipTo terminators state.track.depth
      (input.window.remaining state.position + 1) input state =
        .done () { state with position := stop } :=
    skipTo_of_passage apart passage rfl terminates rfl rfl (Nat.lt_succ_self _)
  exact run_bind skipped

/--
A capture delimits what a parser reads: wherever the parser is done before a
terminator, the capture from the same state covers the tokens that the parser
has read. It changes nothing but the position, and like the parser it leaves the
delimiters that are open as they are.
-/
def Delimits {Value : Type} (input : ParserInput) (terminators : List TokenKind)
    (parser : Parser Value) (state : ParserState) : Prop :=
  ∀ (value : Value) (after : ParserState), parser input state =
    .done value after →
    input.window.kindAt after.position ∈ terminators →
    captureTo terminators input state =
        .done { start := state.position, stop := after.position }
          { state with position := after.position } ∧
      after.track.delimiters = state.track.delimiters

/--
A capture up to terminators delimits each nonterminal of types and expressions.
-/
private theorem delimits_nested
    (closed : input.window.Closed)
    (terminate : ∀ kind ∈ terminators, Terminator kind)
    {Value : Type}
    {nonterminal : Nonterminal Value}
    (occurs : nonterminal.inExpressions = true)
    (opens : nonterminal.opened = [])
    (depth : Nat) :
    Delimits input terminators ((Rules.nested depth).parse nonterminal)
      state := by
  intro value after run terminates
  have passes : Passes input unterminated anyKind [] (fun _ => [])
      ((Rules.nested depth).parse nonterminal) :=
    Rules.Passing.call (Rules.nested_passing closed depth) nonterminal
      occurs opens
  obtain ⟨delimiters, passage, -⟩ :=
    passes state state.track.delimiters trivial rfl run
  have apart (kind : TokenKind) (listed : kind ∈ terminators) :
      ¬ unterminated kind :=
    fun clear => clear (terminate kind listed)
  exact ⟨captureTo_of_passage apart passage terminates, delimiters⟩

/--
A capture delimits a nonterminal on its own as it does within what is parsed.
-/
private theorem delimits_parse
    (closed : input.window.Closed)
    (terminate : ∀ kind ∈ terminators, Terminator kind)
    {Value : Type}
    {nonterminal : Nonterminal Value}
    (occurs : nonterminal.inExpressions = true)
    (opens : nonterminal.opened = []) :
    Delimits input terminators (parse nonterminal) state :=
  fun value after run =>
    delimits_nested closed terminate occurs opens
      (ranks * (input.window.remaining state.position + 1)) value after run

/--
What captures delimit from a state: expressions up to semicolons, and types up
to semicolons and assignments, both within what is parsed with calls nested to
some depth and on their own.
-/
structure DelimitedFrom (input : ParserInput) (state : ParserState) : Prop where
  initializer : ∀ depth,
    Delimits input [.symbol .semicolon] (Rules.nested depth).expression state
  expression : Delimits input [.symbol .semicolon] (parse (.tier .or)) state
  declaredType : ∀ depth,
    Delimits input [.symbol .semicolon, .symbol .assign]
      ((Rules.nested depth).parse .type) state
  type : Delimits input [.symbol .semicolon, .symbol .assign]
    (parse .type) state

end Parser

/--
In any window onto any token list, in both modes and from any state, a capture
covers the expression or the type that parsing would read there.
-/
theorem captures_delimit
    {tokens : Tokens}
    {window : Window}
    (onto : window.Onto tokens)
    (names : Names)
    (mode : ParseMode)
    (state : ParserState) :
    Parser.DelimitedFrom { window := window, names := names, mode := mode }
      state := by
  have semicolon (kind : TokenKind) (listed : kind ∈ [.symbol .semicolon]) :
      Terminator kind :=
    List.mem_singleton.mp listed ▸ .semicolon
  have either (kind : TokenKind)
      (listed : kind ∈ [.symbol .semicolon, .symbol .assign]) :
      Terminator kind := by
    rcases List.mem_pair.mp listed with rfl | rfl
    · exact .semicolon
    · exact .assign
  exact {
    initializer :=
      fun depth => Parser.delimits_nested onto.closed semicolon rfl rfl depth
    expression := Parser.delimits_parse onto.closed semicolon rfl rfl
    declaredType :=
      fun depth => Parser.delimits_nested onto.closed either rfl rfl depth
    type := Parser.delimits_parse onto.closed either rfl rfl }

/--
A pointer as a declared type, and an initializer with a semicolon between its
braces.
-/
def requiringInitializer : Tokens :=
  #[{ kind := .keyword .intWord, span := { start := 0, stop := 3 } },
    { kind := .symbol .star, span := { start := 3, stop := 4 } },
    { kind := .symbol .assign, span := { start := 5, stop := 6 } },
    { kind := .keyword .requiresWord, span := { start := 7, stop := 15 } },
    { kind := .symbol (.opening .brace), span := { start := 16, stop := 17 } },
    { kind := .integer 1, span := { start := 18, stop := 19 } },
    { kind := .symbol .semicolon, span := { start := 19, stop := 20 } },
    { kind := .symbol (.closing .brace), span := { start := 21, stop := 22 } },
    { kind := .symbol .semicolon, span := { start := 22, stop := 23 } }]

/-- A parser inside a brace, at a position. -/
def insideBraceAt (position : Nat) : ParserState :=
  { position := position
    track := { delimiters := [.brace], specifiers := .none, template? := none }
    scopes := .initial
    arena := .empty }

/--
The type is captured up to the assignment, and the initializer up to the second
semicolon, for the first one stands between braces.
-/
theorem captures_delimit_requiringInitializer :
    (Window.whole requiringInitializer).Onto requiringInitializer ∧
      (∃ type after,
        Parser.parse .type
            { window := .whole requiringInitializer, names := ⟨[]⟩,
              mode := .deferred }
            (insideBraceAt 0) = .done type after ∧
          Parser.captureTo [.symbol .semicolon, .symbol .assign]
              { window := .whole requiringInitializer, names := ⟨[]⟩,
                mode := .deferred }
              (insideBraceAt 0) =
            .done { start := 0, stop := 2 } (insideBraceAt 2) ∧
          after.track.delimiters = [.brace]) ∧
      ∃ expr after,
        Parser.parse (.tier .or)
            { window := .whole requiringInitializer, names := ⟨[]⟩,
              mode := .deferred }
            (insideBraceAt 3) = .done expr after ∧
          Parser.captureTo [.symbol .semicolon]
              { window := .whole requiringInitializer, names := ⟨[]⟩,
                mode := .deferred }
              (insideBraceAt 3) =
            .done { start := 3, stop := 8 } (insideBraceAt 8) ∧
          after.track.delimiters = [.brace] := by
  have delimited :=
    @captures_delimit requiringInitializer _ .whole ⟨[]⟩ .deferred
  obtain ⟨type, typeEnd, typeRun, typeStop⟩ : ∃ type after,
      Parser.parse .type
          { window := .whole requiringInitializer, names := ⟨[]⟩,
            mode := .deferred }
          (insideBraceAt 0) = .done type after ∧
        after.position = 2 :=
    ⟨_, _, rfl, rfl⟩
  obtain ⟨expr, exprEnd, exprRun, exprStop⟩ : ∃ expr after,
      Parser.parse (.tier .or)
          { window := .whole requiringInitializer, names := ⟨[]⟩,
            mode := .deferred }
          (insideBraceAt 3) = .done expr after ∧
        after.position = 8 :=
    ⟨_, _, rfl, rfl⟩
  have typed := (delimited (insideBraceAt 0)).type type typeEnd typeRun
  have valued := (delimited (insideBraceAt 3)).expression expr exprEnd exprRun
  rw [typeStop] at typed
  rw [exprStop] at valued
  exact ⟨.whole, ⟨type, typeEnd, typeRun, typed (by decide)⟩,
    expr, exprEnd, exprRun, valued (by decide)⟩

end Tern
