import Tern.Proofs.Grammar.Productions
import Tern.Proofs.Grammar.Runs

namespace Tern

/-!
# Template parameters are in place

A template parameter is read where a template context is in force, and nowhere
else. So the grammar reports no declaration that is out of place, whatever the
text, the mode and the bound on nested calls.
-/

/--
The codes of faults within the compiler: a template parameter outside of a
template, a term that no pass handles, and a term that the passes left unparsed.
-/
def Code.internal : List Code :=
  [.invalidDeclaration, .unhandledTerm, .residualTerm]

/--
What can be met at any place is not reported as a fault within the compiler.
-/
theorem ParseCause.code_of_isPlain
    {cause : ParseCause}
    (plain : cause.isPlain = true) :
    cause.code ∉ Code.internal := by
  cases cause with
  | unexpectedToken expected found =>
      simp only [code]
      split <;> decide
  | expectedExpression found =>
      simp only [code]
      split <;> decide
  | invalidDeclaration message => cases plain
  | other code message => cases plain
  | _ => simp [code, Code.internal]

/-- A missing terminator may be met at any place. -/
private theorem Parser.isPlain_missingTerminator
    (terminators : List TokenKind)
    (level : Nat)
    (track : ParserTrack)
    (found : TokenKind) :
    (missingTerminator terminators level track found).isPlain = true := by
  unfold missingTerminator
  split
  · split <;> rfl
  · rfl

/-- Whether a template context is in force. -/
def ParserState.inTemplate (state : ParserState) : Bool :=
  state.track.template?.isSome

/--
A parser leaves a template context in force if one was, and fails only as it may
at any place.
-/
def Outcome.Placed {Value : Type} (inTemplate : Bool) :
    Outcome ParseError ParserState Value → Prop
  | .done _ after => after.inTemplate = inTemplate
  | .failed error _ => error.cause.isPlain = true
  | .exhausted => True

/--
A parser that is in place in a template context, and if it does not need one,
everywhere.
-/
def InPlace
    {Value : Type}
    (needed : Bool)
    (input : ParserInput)
    (parser : Parser Value) :
    Prop :=
  ∀ state : ParserState, (needed = true → state.inTemplate = true) →
    (parser input state).Placed state.inTemplate

/-- All nonterminals are in place where the grammar calls them. -/
def Rules.InPlace (rules : Rules) (input : ParserInput) : Prop :=
  ∀ {Value : Type} (nonterminal : Nonterminal Value),
    Tern.InPlace nonterminal.inTemplate input (rules.parse nonterminal)

namespace InPlace

variable {Value First : Type} {needed : Bool} {input : ParserInput}

theorem bind
    {parser : Parser First}
    {next : First → Parser Value}
    (first : InPlace needed input parser)
    (rest : ∀ value, InPlace needed input (next value)) :
    InPlace needed input (parser >>= next) := by
  intro state inside
  have started := first state inside
  simp only [Bind.bind, Action.bind]
  cases ending : parser input state with
  | done value middle =>
      rw [ending] at started
      have same : middle.inTemplate = state.inTemplate := started
      rw [← same]
      exact rest value middle (same ▸ inside)
  | failed error middle =>
      rw [ending] at started
      exact started
  | exhausted => trivial

/-- A token read changes no template context. -/
private theorem behind (state : ParserState) :
    (Parser.behind input state).inTemplate = state.inTemplate := by
  simp only [ParserState.inTemplate, Parser.behind,
    ParserTrack.follow_template?]

private theorem expect (kind : TokenKind) :
    InPlace needed input (Parser.expect kind) := by
  intro state _
  by_cases found : input.window.kindAt state.position = kind
  · rw [Parser.expect_run_of_eq found]
    exact behind state
  · have token : Parser.current input state =
        .done (input.window.tokenAt state.position) state := rfl
    have other : (input.window.tokenAt state.position).kind ≠ kind := found
    simp only [Parser.expect, Bind.bind, Action.bind, token, other, ↓reduceIte]
    cases (input.window.tokenAt state.position).kind <;>
      cases kind.closes? <;> rfl

private theorem skipTo (terminators : List TokenKind) (level fuel : Nat) :
    InPlace needed input (Parser.skipTo terminators level fuel) := by
  induction fuel with
  | zero =>
      exact fun _ _ => trivial
  | succ fuel inductionHypothesis =>
      intro state inside
      rw [Parser.skipTo_succ]
      dsimp only
      split
      · rfl
      · split
        · exact Parser.isPlain_missingTerminator _ _ _ _
        · split
          · rfl
          · rw [← @behind input state]
            exact inductionHypothesis _ (by simpa only [behind] using inside)

private theorem skipOut (opened : Span) (level fuel : Nat) :
    InPlace needed input (Parser.skipOut opened level fuel) := by
  induction fuel with
  | zero =>
      exact fun _ _ => trivial
  | succ fuel inductionHypothesis =>
      intro state inside
      rw [Parser.skipOut_succ]
      split
      · split
        · rfl
        · rw [← @behind input state]
          exact inductionHypothesis _ (by simpa only [behind] using inside)
      · rfl

/-- An observation changes nothing. -/
private theorem observe (read : ParserInput → ParserState → Value) :
    InPlace needed input (fun input state => .done (read input state) state) :=
  fun _ _ => rfl

private theorem captureTo (terminators : List TokenKind) :
    InPlace needed input (Parser.captureTo terminators) :=
  bind (observe _) fun _ => bind (observe _) fun _ => bind (observe _) fun _ =>
    bind (skipTo _ _ _) fun _ => observe _

private theorem captureBraces : InPlace needed input Parser.captureBraces :=
  bind (observe _) fun _ => bind (observe _) fun _ => bind (observe _) fun _ =>
    bind (expect _) fun _ => bind (observe _) fun _ =>
      bind (skipOut _ _ _) fun _ => observe _

private theorem within
    (scope : ScopeId)
    {parser : Parser Value}
    (inner : InPlace needed input parser) :
    InPlace needed input (Parser.within scope parser) := by
  intro state inside
  have ended := inner { state with scopes := state.scopes.enter scope } inside
  rw [Parser.within_run]
  cases ending :
      parser input { state with scopes := state.scopes.enter scope } with
  | done value after =>
      rw [ending] at ended
      exact ended
  | failed error after =>
      rw [ending] at ended
      exact ended
  | exhausted => trivial

/-- What is parsed in a template context of its own may need one. -/
private theorem withTemplate
    (context : TemplateContext)
    {parser : Parser Value}
    (inner : InPlace true input parser) :
    InPlace needed input (Parser.withTemplate context parser) := by
  intro state _
  have ended :=
    inner { state with track := { state.track with template? := some context } }
    fun _ => rfl
  rw [Parser.withTemplate_run]
  cases ending : parser input
      { state with track := { state.track with template? := some context } }
        with
  | done value after => rfl
  | failed error after =>
      rw [ending] at ended
      exact ended
  | exhausted => trivial

private theorem either
    {first second : Parser Value}
    (tried : InPlace needed input first)
    (instead : InPlace needed input second) :
    InPlace needed input (Parser.either first second) := by
  intro state inside
  have ended := tried state.snapshot.2 inside
  simp only [Parser.either_run, Parser.attempt]
  cases ending : first input state.snapshot.2 with
  | done value after =>
      rw [ending] at ended
      exact ended
  | failed error after => exact instead (after.restore state.snapshot.1) inside
  | exhausted => trivial

end InPlace

/--
A production is in place where it stands, if the nonterminals are that it calls.
-/
theorem Production.inPlace
    {place : Place}
    {Value : Type}
    {reads : Value → Bool}
    {parser : Rules → Parser Value}
    (production : Production place reads parser)
    {rules : Rules}
    {input : ParserInput}
    (inPlace : rules.InPlace input) :
    InPlace place.inTemplate input (parser rules) := by
  induction production with
  | fail plain => exact fun _ _ => plain
  | bind _ _ first rest =>
      exact first.bind fun value => by simpa using rest value
  | forget _ _ inner => exact inner
  | peek _ rest =>
      exact fun state => rest (input.window.tokenAt state.position) state
  | peekBehind _ _ rest => exact fun state => rest _ state
  | peekEnd _ _ rest => exact fun state => rest _ state
  | peekSpan _ rest => exact fun state => rest _ state
  | advance _ => exact fun state _ => InPlace.behind state
  | retemplate change =>
      intro state _
      simp [Parser.retrack, Action.modify, Outcome.Placed,
        ParserState.inTemplate]
  | inContext inTemplate _ rest =>
      intro state inside
      obtain ⟨context, given⟩ := Option.isSome_iff_exists.mp (inside inTemplate)
      have tracked : Parser.tracked input state = .done state.track state := rfl
      simp only [Bind.bind, Action.bind, tracked, given]
      exact rest context state inside
  | captureTo terminators => exact .captureTo terminators
  | captureBraces => exact .captureBraces
  | call nonterminal _ inTemplate _ =>
      exact fun state inside => inPlace nonterminal state fun needed =>
        inside (inTemplate needed)
  | angledArgs _ _ =>
      refine .bind (fun state _ => ?_) fun _ => .bind (.expect _) fun _ =>
        fun _ _ => rfl
      rw [Parser.orNone_run]
      split
      · rfl
      · exact inPlace .templateArgs state Bool.false_ne_true.elim
  | within scope _ inner => exact inner.within scope
  | withTemplate context _ inner => exact inner.withTemplate context
  | either _ _ _ tried instead => exact tried.either instead
  | addDecl _ _ _ _ _ rest => exact fun state inside => rest _ _ inside
  | _ => exact fun _ _ => rfl

/--
Whatever the bound on nested calls, all nonterminals are in place where they are
called.
-/
theorem Rules.nested_inPlace (input : ParserInput) (depth : Nat) :
    (nested depth).InPlace input := by
  induction depth with
  | zero =>
      exact fun _ _ _ => trivial
  | succ depth inductionHypothesis =>
      intro Value nonterminal
      have production : Production
          { own := [], inTemplate := nonterminal.inTemplate,
            rank := nonterminal.rank
            unread := False, settled := false }
          (fun _ => nonterminal.reads)
            (fun rules => rules.produce nonterminal) :=
        .produce (by simp) (by simp) nonterminal id (by simp) rfl
      exact production.inPlace inductionHypothesis

end Tern
