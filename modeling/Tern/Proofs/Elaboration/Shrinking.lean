import Tern.Proofs.Elaboration.Defining
import Tern.Proofs.Grammar.Capture

namespace Tern

/-!
# Captured ranges shrink

What is parsed from a range of tokens captures ranges within it only, a body
ranges behind its opening brace, and a type or an expression none at all. So the
ranges that elaboration parses get ever shorter, and it ends.
-/

/-- Behind a token that has to be read all ranges captured begin behind it. -/
private theorem Captures.behindToken
    {Value : Type}
    {input : ParserInput}
    (closed : input.window.Closed)
    {kind : TokenKind}
    (real : kind ≠ .endOfInput)
    {next : Unit → Parser Value}
    (rest : ∀ value, Captures input true (next value))
    (state : ParserState) :
    ((Parser.expect kind >>= next) input state).Leaves fun after =>
      state.arena.StoresOnly after.arena fun range =>
        range.Between (state.position + 1) input.window.stop := by
  by_cases found : input.window.kindAt state.position = kind
  · rw [Parser.run_bind (Parser.expect_run_of_eq found)]
    have inside : state.position < input.window.stop :=
      closed.lt_stop (found ▸ real)
    have position := Parser.behind_position inside
    have ended := rest () (Parser.behind input state)
    have between (range : TokenRange)
        (captured : Captured true (Parser.behind input state).position
          input.window.stop range) :
        range.Between (state.position + 1) input.window.stop := by
      obtain ⟨-, behind, nonempty, before⟩ := captured
      exact ⟨position ▸ behind, nonempty, by omega⟩
    generalize next () input (Parser.behind input state) = outcome at ended
    cases outcome with
    | done value after => exact ended.2.2.weaken between
    | failed error after => exact Arena.StoresOnly.weaken ended between
    | exhausted => trivial
  · obtain ⟨failure, failed⟩ := Parser.expect_run_of_ne found
    simp only [Bind.bind, Action.bind, failed]
    exact .refl state.arena

theorem Outcome.Leaves.weaken
    {Failure State Value : Type}
    {outcome : Outcome Failure State Value}
    {property more : State → Prop}
    (implied : ∀ state, property state → more state)
    (leaves : outcome.Leaves property) :
    outcome.Leaves more := by
  cases outcome with
  | done value state => exact implied state leaves
  | failed failure state => exact implied state leaves
  | exhausted => trivial

/--
What a parser leaves behind that has to read all tokens is what it leaves
without that.
-/
private theorem Outcome.Leaves.toEnd
    {Value : Type}
    {parser : Parser Value}
    {input : ParserInput}
    {state : ParserState}
    {property : ParserState → Prop}
    (leaves : (parser input state).Leaves property) :
    (Parser.toEnd parser input state).Leaves property := by
  simp only [Parser.toEnd, Bind.bind, Action.bind]
  cases ending : parser input state with
  | done value after =>
      rw [ending] at leaves
      have looked : Parser.atEnd input after =
          .done (input.window.atEnd after.position) after := rfl
      simp only [looked]
      cases input.window.atEnd after.position <;> exact leaves
  | failed error after =>
      rw [ending] at leaves
      exact leaves
  | exhausted => trivial

/-- The ranges that the fragments in a range of tokens may capture. -/
def Fragment.MayCapture {Value : Type} (within : TokenRange) :
    Fragment Value → TokenRange → Prop
  | .type, _ => False
  | .expression, _ => False
  | .body, range => range.Between (within.start + 1) within.stop
  | .members, range => range.Between (within.start + 1) within.stop

/-- What captures nothing leaves no new ranges. -/
private theorem Captures.leavesNone
    {Value : Type}
    {input : ParserInput}
    {parser : Parser Value}
    (captures : Captures input false parser)
    (state : ParserState) :
    (parser input state).Leaves fun after =>
      state.arena.StoresOnly after.arena fun _ => False := by
  have ended := captures state
  have none (range : TokenRange)
      (captured : Captured false state.position input.window.stop range) :
        False :=
    nomatch captured.1
  generalize parser input state = outcome at ended
  cases outcome with
  | done value after => exact ended.2.2.weaken none
  | failed error after => exact Arena.StoresOnly.weaken ended none
  | exhausted => trivial

/-- A fragment captures less than the range that it is parsed from. -/
private theorem Fragment.captured_leaves
    {Value : Type}
    (fragment : Fragment Value)
    (tokens : Tokens)
    (range : TokenRange)
    (names : Names)
    (mode : ParseMode)
    (scopes : Scopes)
    (arena : Arena) :
    let window := Window.ofRange tokens range
    (fragment.captured { window := window, names := names, mode := mode }
      (.start window scopes arena)).Leaves fun after =>
        arena.StoresOnly after.arena (fragment.MayCapture range) := by
  intro window
  let input : ParserInput := { window := window, names := names, mode := mode }
  let start : ParserState := .start window scopes arena
  have closed : input.window.Closed := Window.ofRange_closed tokens range
  let rules : Rules :=
    .nested (Parser.ranks * (window.remaining window.start + 1))
  have calls : rules.Capturing input := Rules.nested_capturing closed _
  have stop : window.stop = max (min range.stop tokens.size) range.start := rfl
  have shorter (captured : TokenRange)
      (between : captured.Between (range.start + 1) window.stop) :
      captured.Between (range.start + 1) range.stop := by
    obtain ⟨behind, nonempty, before⟩ := between
    exact ⟨behind, nonempty, by omega⟩
  have opens : Delimiter.opener .brace ≠ .endOfInput := nofun
  rw [captured_eq]
  refine Outcome.Leaves.toEnd ?_
  cases fragment with
  | type => exact Captures.leavesNone (calls .type) start
  | expression => exact Captures.leavesNone (calls (.tier .or)) start
  | body =>
      have rest (_ : Unit) : Captures input true (do
          let stmts ← Parser.within start.scopes.current
              (rules.parse .bracedStatements)
          Parser.addStmt (.list .block stmts start.scopes.current)
            (← Parser.spanFrom (window.tokenAt window.start).span)) :=
        Captures.bind (Captures.within _ (calls .bracedStatements)) fun _ =>
          Captures.spanned _ fun _ => Captures.addStmt rfl _
      exact Outcome.Leaves.weaken (fun _ stores => stores.weaken shorter)
        (Captures.behindToken closed opens rest start)
  | members =>
      have rest (_ : Unit) : Captures input true (do
          let stmts ← rules.parse .bracedStatements
          Parser.addStmt (.list .members stmts start.scopes.current)
            (← Parser.spanFrom (window.tokenAt window.start).span)) :=
        Captures.bind (calls .bracedStatements) fun _ =>
          Captures.spanned _ fun _ => Captures.addStmt rfl _
      exact Outcome.Leaves.weaken (fun _ stores => stores.weaken shorter)
        (Captures.behindToken closed opens rest start)

/-- A compilation unit captures ranges of the whole token list. -/
private theorem Parser.unit_leaves
    (tokens : Tokens)
    (names : Names)
    (mode : ParseMode)
    (scopes : Scopes)
    (arena : Arena) :
    let window := Window.whole tokens
    (Parser.unit { window := window, names := names, mode := mode }
      (.start window scopes arena)).Leaves fun after =>
        arena.StoresOnly after.arena fun range =>
          range.Between 0 tokens.size := by
  intro window
  let input : ParserInput := { window := window, names := names, mode := mode }
  have calls :
      (Rules.nested (Parser.ranks *
        (window.remaining window.start + 1))).Capturing input :=
    Rules.nested_capturing (Window.whole_closed tokens) _
  have ended := calls.unit (.start window scopes arena)
  have start : window.start = 0 := Window.whole_start tokens
  have stop : window.stop ≤ tokens.size := Window.whole_stop_le tokens
  have between (range : TokenRange)
      (captured : Captured true window.start window.stop range) :
      range.Between 0 tokens.size := by
    obtain ⟨-, -, nonempty, before⟩ := captured
    exact ⟨Nat.zero_le _, nonempty, by omega⟩
  have run : Parser.unit input (.start window scopes arena) =
      (Rules.nested (Parser.ranks * (window.remaining window.start + 1))).unit
        input
        (.start window scopes arena) := rfl
  rw [run]
  generalize Rules.unit _ input (.start window scopes arena) = outcome at ended
  cases outcome with
  | done value after => exact ended.2.2.weaken between
  | failed error after => exact Arena.StoresOnly.weaken ended between
  | exhausted => trivial

/-- Whatever compilation unit is parsed, elaborating it ends. -/
private theorem elaborateUnit_ne_exhausted
    (names : Names)
    (tokens : Tokens)
    (mode : ParseMode)
    (options : ElabOptions)
    {unit : StmtId}
    {parsed : ParserState}
    (run : parseUnit names tokens mode = .done unit parsed) :
    (Elab.elaborateUnit unit).run
      { tokens := tokens, names := names, options := options }
      (.afterParsing parsed) ≠ .exhausted := by
  have parses := parseUnit_parses names tokens mode
  rw [run] at parses
  obtain ⟨-, phases, -, stmts, scope, held, form, ready⟩ := parses
  have outcome := @Completes.elaborateUnit
    { tokens := tokens, names := names, options := options } _ unit _ _ held
      form ready
    (.afterParsing parsed) rfl (.of_unelaborated phases)
  intro exhausted
  rw [Action.run] at exhausted
  rw [exhausted] at outcome
  exact outcome

/--
Captured ranges shrink. Whatever a compilation unit is parsed from, done or
failed, the ranges that it stores are not empty and lie within the tokens. What
is parsed from a range of tokens, into any arena and any scopes, stores no
ranges if it is a type or an expression, and if it is a body or the members of a
class, ranges that are not empty and lie behind the first token of the range. So
every text is parsed and elaborated to an end, whatever the modes and options.
-/
theorem captures_shrink :
    (∀ tokens names mode scopes arena,
      (Parser.unit { window := .whole tokens, names := names, mode := mode }
        (.start (.whole tokens) scopes arena)).Leaves fun after =>
          arena.StoresOnly after.arena fun captured =>
            captured.Between 0 tokens.size) ∧
      (∀ tokens range names mode scopes arena,
        let input : ParserInput :=
          { window := .ofRange tokens range, names := names, mode := mode }
        let start : ParserState := .start input.window scopes arena
        let storesNone (after : ParserState) : Prop :=
          arena.StoresOnly after.arena fun _ => False
        let storesProper (after : ParserState) : Prop :=
          arena.StoresOnly after.arena fun captured =>
            captured.Between (range.start + 1) range.stop
        (Parser.typeFragment input start).Leaves storesNone ∧
          (Parser.expressionFragment input start).Leaves storesNone ∧
          (Parser.bodyFragment input start).Leaves storesProper ∧
          (Parser.memberFragment input start).Leaves storesProper) ∧
      ∀ source mode options,
        let (tokens, names) := scan .initial source
        match parseUnit names tokens mode with
        | .done unit parsed =>
            (Elab.elaborateUnit unit).run
              { tokens := tokens, names := names, options := options }
              (.afterParsing parsed) ≠ .exhausted
        | .failed _ _ => True
        | .exhausted => False := by
  refine ⟨fun tokens names mode scopes arena =>
    Parser.unit_leaves tokens names mode scopes arena,
    fun tokens range names mode scopes arena =>
      ⟨?_, ?_, ?_, ?_⟩, fun source mode options => ?_⟩
  · exact Fragment.type.captured_leaves tokens range names mode scopes arena
  · exact Fragment.expression.captured_leaves tokens range names mode
      scopes arena
  · exact Fragment.body.captured_leaves tokens range names mode scopes arena
  · exact Fragment.members.captured_leaves tokens range names mode scopes arena
  · have parses :=
      parseUnit_parses (scan .initial source).2 (scan .initial source).1 mode
    dsimp only
    cases ending : parseUnit (scan .initial source).2 (scan .initial source).1
        mode with
    | done unit parsed =>
        exact elaborateUnit_ne_exhausted _ _ mode options ending
    | failed error parsed => trivial
    | exhausted =>
        rw [ending] at parses
        exact parses

end Tern
