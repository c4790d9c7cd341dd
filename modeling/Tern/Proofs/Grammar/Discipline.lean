import Tern.Proofs.Grammar.Halting
import Tern.Proofs.Grammar.Tracked

namespace Tern

/-!
# The discipline of productions

Whatever state a production begins in, it leaves no delimiter open and closes
none that was, leaves no template context behind, and is in the scope in which
it began. Specifiers wait for their own declaration only. What has failed may
have left delimiters open and specifiers waiting, but it keeps the scope and the
template context as well.
-/

/--
What a production keeps of the state that it began in. It is not exhausted; if
it is done, something is known of the specifiers that wait.
-/
def Outcome.KeepsState
    {Value : Type}
    (start : ParserState)
    (settled : Specifiers → Prop) :
    Outcome ParseError ParserState Value → Prop
  | .done _ after =>
      after.track.delimiters = start.track.delimiters ∧
        after.track.template? = start.track.template? ∧
          after.scopes.current = start.scopes.current ∧
            settled after.track.specifiers
  | .failed _ after =>
      after.track.template? = start.track.template? ∧
        after.scopes.current = start.scopes.current
  | .exhausted => False

/--
What keeps track, keeps its scope and halts keeps the state that it began in.
-/
private theorem Outcome.Tracked.keepsState
    {Value : Type}
    {start : ParserState}
    {settled : Specifiers → Prop}
    {reads : Value → Bool}
    {stop : Nat}
    {outcome : Outcome ParseError ParserState Value}
    (tracked : outcome.Tracked false start.track start.track.delimiters settled)
    (stays : outcome.Leaves fun after => after.scopes.current =
      start.scopes.current)
    (advances : outcome.Advances reads start.position stop) :
    outcome.KeepsState start settled := by
  cases outcome with
  | done value after => exact ⟨tracked.1, tracked.2.2 rfl, stays, tracked.2.1⟩
  | failed error after => exact ⟨tracked rfl, stays⟩
  | exhausted => exact advances

namespace Parser

variable {Value : Type} {reads : Value → Bool} {parser : Rules → Parser Value}
  {input : ParserInput} {waiting settled : Specifiers → Prop}

/-- A production that keeps track keeps the state that it began in. -/
private theorem withRules_keepsState
    (production : Production .outermost reads parser)
    (closed : input.window.Closed)
    (tracks : ∀ {rules : Rules} {opened : List Delimiter},
      rules.Tracking input →
      Tracks input false anyKind opened waiting opened settled (parser rules))
    {state : ParserState}
    (waits : waiting state.track.specifiers) :
    (withRules parser input state).KeepsState state settled :=
  Outcome.Tracked.keepsState
    (tracks (Rules.nested_tracking input _) state trivial rfl waits)
    ((production.composed (Rules.nested_allComposed _)).leaves_current input
      state)
    (withRules_advances production closed state)

/--
A parser that has to read all tokens of the window keeps the state as it does
without that.
-/
private theorem toEnd_keepsState
    {parser : Parser Value}
    {state : ParserState}
    (keeps : (parser input state).KeepsState state settled) :
    (toEnd parser input state).KeepsState state settled := by
  simp only [toEnd, Bind.bind, Action.bind]
  generalize parser input state = outcome at keeps
  cases outcome with
  | done value after =>
      have looked : atEnd input after =
          .done (input.window.atEnd after.position) after := rfl
      simp only [looked]
      cases input.window.atEnd after.position with
      | true => exact keeps
      | false => exact ⟨keeps.2.1, keeps.2.2.1⟩
  | failed error after => exact keeps
  | exhausted => exact keeps

end Parser

namespace Rules

/-- The productions of the forms of declarations, behind their specifiers. -/
def declarationForms : List (Rules → Parser DeclId) :=
  [variableDeclaration, functionDeclaration, coroutineDeclaration,
    classDeclaration,
    superDeclaration, conceptDeclaration, templateDeclaration,
      namespaceDeclaration]

/-- Each form of a declaration is a production. -/
private theorem production_of_mem_declarationForms
    {form : Rules → Parser DeclId}
    (listed : form ∈ declarationForms) :
    Production .outermost (fun _ => true) form := by
  simp only [declarationForms, List.mem_cons, List.not_mem_nil, or_false]
    at listed
  rcases listed with rfl | rfl | rfl | rfl | rfl | rfl | rfl | rfl
  · exact .variableDeclaration
  · exact .functionDeclaration
  · exact .coroutineDeclaration
  · exact .classDeclaration
  · exact .superDeclaration
  · exact .conceptDeclaration
  · exact .templateDeclaration
  · exact .namespaceDeclaration

/-- Each form of a declaration takes the specifiers that wait. -/
private theorem Tracking.of_mem_declarationForms
    {rules : Rules}
    {input : ParserInput}
    (tracking : rules.Tracking input)
    {form : Rules → Parser DeclId}
    (listed : form ∈ declarationForms)
    {opened : List Delimiter} :
    Tracks input false anyKind opened anyWaiting opened noneWaiting
      (form rules) := by
  simp only [declarationForms, List.mem_cons, List.not_mem_nil, or_false]
    at listed
  rcases listed with rfl | rfl | rfl | rfl | rfl | rfl | rfl | rfl
  · exact tracking.variableDeclaration
  · exact tracking.functionDeclaration
  · exact tracking.coroutineDeclaration
  · exact tracking.classDeclaration
  · exact tracking.superDeclaration
  · exact tracking.conceptDeclaration
  · exact tracking.templateDeclaration
  · exact tracking.namespaceDeclaration

/-- Fragments keep track. -/
private theorem Tracking.fragment
    {rules : Rules}
    {input : ParserInput}
    (tracking : rules.Tracking input)
    {Value : Type}
    (fragment : Fragment Value)
    {waiting : Specifiers → Prop}
    (settles : waiting .none)
    {opened : List Delimiter} :
    Tracks input false anyKind opened waiting opened waiting
      (fragment.parser rules) := by
  cases fragment with
  | type => exact tracking.call .type rfl
  | expression => exact tracking.expression
  | body => exact tracking.currentBlock settles
  | members => exact tracking.memberBody settles

end Rules

/-- If no specifiers waited at first, none wait now. -/
def ParserState.unleaked (start : ParserState) (waiting : Specifiers) : Prop :=
  start.track.specifiers = .none → waiting = .none

/--
All that is parsed from a state keeps it. Types, expressions, names with their
arguments and requirements leave the waiting specifiers alone, declarations take
them, and what consists of statements leaves none waiting if none did.
-/
structure Parser.KeepsStateFrom (input : ParserInput) (state : ParserState) :
    Prop where
  type : (parse .type input state).KeepsState state (· = state.track.specifiers)
  expression : ∀ tier,
    (parse (.tier tier) input state).KeepsState state
      (· = state.track.specifiers)
  part : ∀ {Value : Type} (nonterminal : Nonterminal Value),
    nonterminal.keepsTrack = true →
    (parse nonterminal input state).KeepsState state
      (· = state.track.specifiers)
  templateArg :
    (withRules Rules.templateArg input state).KeepsState state
      (· = state.track.specifiers)
  requirement :
    (withRules Rules.requirement input state).KeepsState state
      (· = state.track.specifiers)
  conceptMember :
    (withRules Rules.conceptMember input state).KeepsState state
      (· = state.track.specifiers)
  declaration : (parse .declaration input state).KeepsState state noneWaiting
  declarationForm : ∀ form ∈ Rules.declarationForms,
    (withRules form input state).KeepsState state noneWaiting
  statement : (parse .statement input state).KeepsState state state.unleaked
  block : (withRules Rules.blockStatement input state).KeepsState state
    state.unleaked
  unit : (unit input state).KeepsState state state.unleaked
  fragment : ∀ {Value : Type} (fragment : Fragment Value),
    (fragment.captured input state).KeepsState state state.unleaked

/--
In any window onto any token list, in both modes and from any state, all that
the grammar parses keeps the delimiters, the template context and the scope, and
no specifiers wait for another declaration than their own.
-/
theorem productions_keep_state
    {tokens : Tokens}
    {window : Window}
    (onto : window.Onto tokens)
    (names : Names)
    (mode : ParseMode)
    (state : ParserState) :
    Parser.KeepsStateFrom { window := window, names := names, mode := mode }
      state where
  type := Parser.withRules_keepsState (.callBehind .type rfl rfl) onto.closed
    (fun tracking => tracking.call .type rfl) rfl
  expression tier :=
    Parser.withRules_keepsState (.callBehind (.tier tier) rfl rfl) onto.closed
    (fun tracking => tracking.call (.tier tier) rfl) rfl
  part nonterminal keeps := Parser.withRules_keepsState
    (.call nonterminal nonterminal.rank_lt (fun _ => rfl) nofun) onto.closed
    (fun tracking => tracking.call nonterminal keeps) rfl
  templateArg :=
    Parser.withRules_keepsState (.templateArg rfl (by decide)) onto.closed
    (fun tracking => tracking.templateArg) rfl
  requirement :=
    Parser.withRules_keepsState (.requirement (by decide)) onto.closed
    (fun tracking => tracking.requirement) rfl
  conceptMember :=
    Parser.withRules_keepsState (.conceptMember nofun (by decide)) onto.closed
    (fun tracking => tracking.conceptMember) rfl
  declaration :=
    Parser.withRules_keepsState (.callBehind .declaration rfl rfl) onto.closed
    (fun tracking => tracking.callDeclaration _) trivial
  declarationForm form listed := Parser.withRules_keepsState
    (Rules.production_of_mem_declarationForms listed) onto.closed
    (fun tracking => tracking.of_mem_declarationForms listed) trivial
  statement :=
    Parser.withRules_keepsState (.callBehind .statement rfl rfl) onto.closed
    (fun tracking => tracking.callStatement _ _ fun _ => rfl) id
  block := Parser.withRules_keepsState .blockStatement onto.closed
    (fun tracking => tracking.blockStatement fun _ => rfl) id
  unit := Parser.withRules_keepsState (.unit rfl (by decide)) onto.closed
    (fun tracking => tracking.unit fun _ => rfl) id
  fragment fragment := by
    rw [fragment.captured_eq]
    exact Parser.toEnd_keepsState
      (Parser.withRules_keepsState fragment.production_outermost
      onto.closed (fun tracking => tracking.fragment fragment fun _ => rfl) id)

/--
A template whose parameter stands between a specifier and the variable that it
is for.
-/
def specifiedTemplate : Tokens :=
  #[{ kind := .keyword .staticWord, span := { start := 0, stop := 6 } },
    { kind := .keyword .templateWord, span := { start := 7, stop := 15 } },
    { kind := .symbol .less, span := { start := 15, stop := 16 } },
    { kind := .keyword .typenameWord, span := { start := 16, stop := 24 } },
    { kind := .identifier { number := 1 },
      span := { start := 25, stop := 26 } },
    { kind := .symbol .greater, span := { start := 26, stop := 27 } },
    { kind := .keyword .varWord, span := { start := 28, stop := 31 } },
    { kind := .identifier { number := 2 },
      span := { start := 32, stop := 33 } },
    { kind := .symbol .colon, span := { start := 33, stop := 34 } },
    { kind := .identifier { number := 1 },
      span := { start := 35, stop := 36 } },
    { kind := .symbol .semicolon, span := { start := 36, stop := 37 } }]

/-- A parser inside a brace, in a template whose parameters are still read. -/
def insideBrace : ParserState :=
  { position := 0
    track :=
      { delimiters := [.brace], specifiers := .none, template? := some .empty }
    scopes := .initial
    arena := .empty }

/--
The specifier is taken by the variable, and the parameter joins the inner
template only.
-/
theorem productions_keep_state_specifiedTemplate :
    (Window.whole specifiedTemplate).Onto specifiedTemplate ∧
      ∃ after : ParserState,
        Parser.parse .declaration
            { window := .whole specifiedTemplate, names := ⟨[]⟩,
              mode := .eager } insideBrace =
          .done { raw := 0 } after ∧
        (after.arena.decl { raw := 2 }).specifiers =
          Specifiers.none.insert .isStatic ∧
        after.track.delimiters = [.brace] ∧ after.track.template? =
          some .empty ∧
        after.scopes.current = { raw := 0 } ∧ after.track.specifiers =
          .none := by
  have kept :=
    (@productions_keep_state specifiedTemplate _ .whole ⟨[]⟩ .eager
      insideBrace).declaration
  obtain ⟨after, run, taken⟩ : ∃ after : ParserState,
      Parser.parse .declaration
          { window := .whole specifiedTemplate, names := ⟨[]⟩, mode := .eager }
            insideBrace =
        .done { raw := 0 } after ∧
      (after.arena.decl { raw := 2 }).specifiers =
        Specifiers.none.insert .isStatic :=
    ⟨_, rfl, rfl⟩
  rw [run] at kept
  exact ⟨.whole, after, run, taken, kept.1, kept.2.1, kept.2.2.1, kept.2.2.2⟩

end Tern
