import Tern.Grammar.Fragments
import Tern.Proofs.Term.Growth

namespace Tern

/-!
# Parsers composed of steps

All parsers are put together from a few kinds of steps. They observe the
input and the state but for the journal of the scopes, move on, add terms,
scopes and bindings, fail, and speculate. The only terms that they change are
declarations that they have added themselves.

What is said here of steps holds of every parser that is composed of them, by
induction on `Composed`.
-/

/--
What a parser can observe of a state: all but the bookkeeping of its marks.
-/
structure ParserView where
  position : Nat
  track : ParserTrack
  table : ScopeTable
  current : ScopeId
  saved : List (DeclId × ScopeId)
  arena : Arena

/-- What can be observed of a state. -/
def ParserState.view (state : ParserState) : ParserView :=
  { position := state.position
    track := state.track
    table := state.scopes.table
    current := state.scopes.current
    saved := state.scopes.saved
    arena := state.arena }

namespace Parser

variable {Value : Type}

/--
Take a snapshot and run a parser, then release the snapshot if its ending is to
be kept and restore it otherwise. The ending is given either way.
-/
def speculate (keeps : Except ParseError Value → Bool) (parser : Parser Value) :
    Parser (Except ParseError Value) :=
  fun input state =>
    let (snapshot, watched) := state.snapshot
    let settle (ending : Except ParseError Value) (after : ParserState) :
        Outcome ParseError ParserState (Except ParseError Value) :=
      .done ending (if keeps ending then after.release
        else after.restore snapshot)
    match parser input watched with
    | .done value after => settle (.ok value) after
    | .failed error after => settle (.error error) after
    | .exhausted => .exhausted

/-- An ending as a parser that does nothing but end like this. -/
def ofEnding : Except ParseError Value → Parser Value
  | .ok value => pure value
  | .error error => Action.fail error

/-- Trying a parser is speculating and keeping what succeeds. -/
private theorem attempt_eq_speculate (parser : Parser Value) :
    attempt parser = speculate Except.isOk parser >>= ofEnding := by
  funext input state
  simp only [bind, Action.bind, attempt, speculate]
  cases parser input state.snapshot.2 <;> rfl

end Parser

/--
A parser that is composed of steps. The declarations listed were added by the
composition that the parser is part of, which may change them.
-/
inductive Composed : List DeclId → {Value : Type} → Parser Value → Prop where
  | pure {own : List DeclId} {Value : Type} (value : Value) :
      Composed own (Pure.pure value : Parser Value)
  | bind {own : List DeclId} {First Value : Type} {parser : Parser First}
      {next : First → Parser Value} (first : Composed own parser)
      (rest : ∀ value, Composed own (next value)) :
      Composed own (parser >>= next)
  | observe {own : List DeclId} {Value : Type}
      (read : ParserInput → ParserView → Value) :
      Composed own (fun input state => .done (read input state.view) state)
  | /-- Change the position and what is kept track of. -/
    move {own : List DeclId} {Value : Type}
      (read : ParserInput → ParserView → Value × Nat × ParserTrack) :
      Composed own (fun input state =>
        .done (read input state.view).1
          { state with
            position := (read input state.view).2.1
            track := (read input state.view).2.2 })
  | fail {own : List DeclId} {Value : Type} (error : ParseError) :
      Composed own (Action.fail error : Parser Value)
  | exhaust {own : List DeclId} {Value : Type} :
      Composed own (Action.exhaust : Parser Value)
  | /-- Go on after a failure. -/
    orElse {own : List DeclId} {Value : Type} {parser : Parser Value}
      {handle : ParseError → Parser Value} (first : Composed own parser)
      (rest : ∀ error, Composed own (handle error)) :
      Composed own (Action.orElse parser handle)
  | /-- Whatever is speculated on can be taken back,
      so it changes no older declarations. -/
    speculate {own : List DeclId} {Value : Type}
      (keeps : Except ParseError Value → Bool)
      {parser : Parser Value} (inner : Composed [] parser) :
      Composed own (Parser.speculate keeps parser)
  | within {own : List DeclId} {Value : Type} (scope : ScopeId)
      {parser : Parser Value}
      (inner : Composed own parser) :
      Composed own (Parser.within scope parser)
  | withTemplate {own : List DeclId} {Value : Type} (context : TemplateContext)
      {parser : Parser Value} (inner : Composed own parser) :
      Composed own (Parser.withTemplate context parser)
  | add {own : List DeclId} {Value : Type} {change : Arena → Value × Arena}
      (extending : ∀ arena : Arena, arena.Extends (change arena).2) :
      Composed own (Parser.inArena change)
  | /-- Add a declaration and go on with it as an own one. -/
    addDecl {own : List DeclId} {Value : Type} (name : NameId)
      (specifiers : Specifiers)
      (form : DeclForm) (span : Span) {next : DeclId → Parser Value}
      (rest : ∀ decl, Composed (decl :: own) (next decl)) :
      Composed own (Parser.addDecl name specifiers form span >>= next)
  | /-- Change an own declaration. -/
    updateDecl {own : List DeclId} {decl : DeclId} (added : decl ∈ own)
      (change : ParserView → Decl → Decl) :
      Composed own (Action.modify fun state => { state with
        arena := state.arena.updateDecl decl (change state.view) })
  | pushScope {own : List DeclId} (kind : ScopeKind) :
      Composed own (Parser.pushScope kind)
  | scopeFor {own : List DeclId} (decl : DeclId) (kind : ScopeKind) :
      Composed own (Parser.scopeFor decl kind)
  | bindDecl {own : List DeclId} (decl : DeclId) :
      Composed own (Parser.bindDecl decl)

namespace Composed

variable {own : List DeclId} {Value : Type}

theorem ite {condition : Prop} [Decidable condition] {yes no : Parser Value}
    (composedYes : Composed own yes)
    (composedNo : Composed own no) :
    Composed own (if condition then yes else no) := by
  split
  · exact composedYes
  · exact composedNo

theorem failAt (cause : ParseCause) (span : Span) :
    Composed own (Parser.failAt cause span : Parser Value) :=
  fail _

private theorem position : Composed own Parser.position :=
  observe fun _ view => view.position

theorem current : Composed own Parser.current :=
  observe fun input view => input.window.tokenAt view.position

theorem currentSpan : Composed own Parser.currentSpan :=
  observe fun input view => (input.window.tokenAt view.position).span

theorem nextKind : Composed own Parser.nextKind :=
  observe fun input view => input.window.ahead view.position 1

theorem atEnd : Composed own Parser.atEnd :=
  observe fun input view => input.window.atEnd view.position

theorem check (kind : TokenKind) : Composed own (Parser.check kind) :=
  observe fun input view =>
    decide ((input.window.tokenAt view.position).kind = kind)

theorem advance : Composed own Parser.advance :=
  move fun input view =>
    (input.window.tokenAt view.position, input.window.next view.position,
      view.track.follow (input.window.tokenAt view.position).kind)

private theorem skip : Composed own Parser.skip :=
  advance.bind fun _ => pure ()

theorem expect (kind : TokenKind) : Composed own (Parser.expect kind) := by
  refine current.bind fun token => ite skip ?_
  split
  · exact failAt _ _
  · exact failAt _ _

theorem tracked : Composed own Parser.tracked :=
  observe fun _ view => view.track

theorem retrack (change : ParserTrack → ParserTrack) :
    Composed own (Parser.retrack change) :=
  move fun _ view => ((), view.position, change view.track)

private theorem attempt {parser : Parser Value} (inner : Composed [] parser) :
    Composed own (Parser.attempt parser) := by
  rw [Parser.attempt_eq_speculate]
  refine (speculate _ inner).bind fun ending => ?_
  cases ending with
  | ok value => exact pure value
  | error error => exact fail error

private theorem trial {parser : Parser Value} (inner : Composed [] parser) :
    Composed own (Parser.trial parser) :=
  orElse ((attempt inner).bind fun _ => pure _) fun _ => pure none

theorem either {first second : Parser Value}
    (composedFirst : Composed [] first)
    (composedSecond : Composed own second) :
    Composed own (Parser.either first second) := by
  refine (trial composedFirst).bind fun value? => ?_
  cases value? with
  | some value => exact pure value
  | none => exact composedSecond

private theorem depth : Composed own Parser.depth :=
  tracked.bind fun _ => pure _

theorem remaining : Composed own Parser.remaining :=
  observe fun input view => input.window.remaining view.position

private theorem rangeFrom (start : Nat) :
    Composed own (Parser.rangeFrom start) :=
  position.bind fun _ => pure _

private theorem skipTo (terminators : List TokenKind) (level fuel : Nat) :
    Composed own (Parser.skipTo terminators level fuel) := by
  induction fuel with
  | zero =>
      exact exhaust
  | succ fuel inductionHypothesis =>
      exact current.bind fun _ => tracked.bind fun _ =>
        ite (pure ()) (ite (failAt _ _) (ite (failAt _ _)
          (skip.bind fun _ => inductionHypothesis)))

private theorem skipOut (opened : Span) (level fuel : Nat) :
    Composed own (Parser.skipOut opened level fuel) := by
  induction fuel with
  | zero =>
      exact exhaust
  | succ fuel inductionHypothesis =>
      exact depth.bind fun _ =>
        ite (atEnd.bind fun _ =>
          ite (failAt _ _) (skip.bind fun _ => inductionHypothesis))
          (pure ())

theorem captureTo (terminators : List TokenKind) :
    Composed own (Parser.captureTo terminators) :=
  position.bind fun _ => depth.bind fun _ =>
    remaining.bind fun _ => (skipTo _ _ _).bind fun _ => rangeFrom _

theorem captureBraces : Composed own Parser.captureBraces :=
  position.bind fun _ => currentSpan.bind fun _ =>
    depth.bind fun _ => (expect _).bind fun _ => remaining.bind fun _ =>
      (skipOut _ _ _).bind fun _ => rangeFrom _

end Composed

end Tern
