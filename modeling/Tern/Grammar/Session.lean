import Tern.Grammar.Fragments

namespace Tern

/-!
# Sessions

A session carries out a script of parser calls over one arena and one table of
scopes and notes what each call came to. Trials in a script rewind the parser,
but never the notes. In a nested script the first failure ends it; at the top
a failure is noted and the script goes on.
-/

/-- The entry points that a script can call. -/
inductive Entry where
  | unit | type | expression | body | members
deriving DecidableEq

/-- The parser of an entry point. -/
def Entry.parser : Entry → Parser Term
  | .unit => Term.stmt <$> Parser.unit
  | .type => Term.type <$> Parser.typeFragment
  | .expression => Term.expr <$> Parser.expressionFragment
  | .body => Term.stmt <$> Parser.bodyFragment
  | .members => Term.stmt <$> Parser.memberFragment

/-- One step of a script. -/
inductive Step where
  | parse (entry : Entry)
  | /-- Take a snapshot and lay it on the stack. -/
    snapshot
  | /-- Go back to the snapshot on top of the stack. -/
    restore
  | /-- Give up the snapshot on top of the stack. -/
    release
  | /-- Try a script, failing as it fails. -/
    attempt (steps : List Step)
  | /-- Try a script, without failing. -/
    trial (steps : List Step)
  | /-- Carry out a script with a template context of its own. -/
    withTemplate (parms : List DeclId) (steps : List Step)
  | fail (message : String)

/-- What a step came to. -/
inductive StepResult where
  | done
  | /-- The stack of snapshots was empty. -/
    noSnapshot
  | kept
  | rewound
  | context (parms : List DeclId)
  | failed (error : ParseError)
deriving DecidableEq

/-- The note on a step: what it came to, and where the parser stood then. -/
structure StepNote where
  result : StepResult
  position : Nat
  track : ParserTrack
deriving DecidableEq

/-- What a session changes. -/
structure Session where
  parser : ParserState
  /--
  The stack of snapshots, each with the number of terms remembered when it was
  taken.
  -/
  snapshots : List (Snapshot × Nat)
  /-- The terms parsed and not taken back, each with the number of its step. -/
  terms : List (Nat × Term)
  /-- The notes on the steps, in the order in which the steps began. -/
  notes : Array StepNote

namespace Session

/-- A session at its start. -/
def initial : Session :=
  { parser := { position := 0, track := .initial, scopes := .initial,
                arena := .empty }
    snapshots := [], terms := [], notes := #[] }

/-- A session with a new parser on a window and an empty stack. -/
def onWindow (session : Session) (window : Window) : Session :=
  { session with
    parser := .start window session.parser.scopes session.parser.arena
    snapshots := [] }

/-- Forget all terms remembered but the first ones. -/
def forgetAfter (session : Session) (count : Nat) : Session :=
  { session with terms := session.terms.take count }

/-- Lay a snapshot on the stack. -/
def pushSnapshot (session : Session) : Session :=
  let (snapshot, parser) := session.parser.snapshot
  { session with
    parser := parser
    snapshots := (snapshot, session.terms.length) :: session.snapshots }

/-- Go back to the snapshot on top of the stack, if there is one. -/
def popRestore (session : Session) : StepResult × Session :=
  match session.snapshots with
  | [] => (.noSnapshot, session)
  | (snapshot, count) :: rest =>
      (.done,
        { session with
          parser := session.parser.restore snapshot
          snapshots := rest
          terms := session.terms.take count })

/-- Give up the snapshot on top of the stack, if there is one. -/
def popRelease (session : Session) : StepResult × Session :=
  match session.snapshots with
  | [] => (.noSnapshot, session)
  | _ :: rest =>
      (.done, { session with parser := session.parser.release,
                             snapshots := rest })

/-- Begin the note on a step, giving its number. -/
def beginNote (session : Session) : Nat × Session :=
  let note : StepNote :=
    { result := .done, position := session.parser.position,
      track := session.parser.track }
  (session.notes.size, { session with notes := session.notes.push note })

/-- Fill in the note on a step. -/
def endNote
    (session : Session)
    (number : Nat)
    (result : StepResult) :
    Session :=
  let note : StepNote :=
    { result := result, position := session.parser.position,
      track := session.parser.track }
  { session with notes := session.notes.setIfInBounds number note }

end Session

/-- A part of a script being carried out. -/
abbrev Script (Value : Type) := Action ParserInput ParseError Session Value

namespace Script

variable {Value : Type}

/-- Run a parser within a session. -/
def ofParser (parser : Parser Value) : Script Value :=
  fun input session =>
    match parser input session.parser with
    | .done value parser => .done value { session with parser := parser }
    | .failed error parser => .failed error { session with parser := parser }
    | .exhausted => .exhausted

/--
Try a script: if it fails, so does the trial, but the parser is as it was
before.
-/
def attempt (script : Script Value) : Script Value :=
  fun input session =>
    let (snapshot, watched) := session.parser.snapshot
    match script input { session with parser := watched } with
    | .done value after =>
        .done value { after with parser := after.parser.release }
    | .failed error after =>
        let back := { after with parser := after.parser.restore snapshot }
        .failed error (back.forgetAfter session.terms.length)
    | .exhausted => .exhausted

/-- Parse an entry point and remember the term under the number of its step. -/
def parseEntry (number : Nat) (entry : Entry) : Script StepResult := do
  let term ← ofParser entry.parser
  Action.modify fun session =>
    { session with terms := session.terms ++ [(number, term)] }
  return .done

/--
Carry out a script with a template context; the former one is in force again
after it.
-/
def withTemplate (parms : List DeclId) (script : Script Unit) :
    Script StepResult := do
  let outer? := (← ofParser Parser.tracked).template?
  ofParser (Parser.retrack fun track =>
    { track with template? := some { parms := parms, constraint? := none } })
  Action.ensure
    (do
      script
      let context := ((← ofParser Parser.tracked).template?).getD .empty
      return .context context.parms)
    fun session =>
      { session with
        parser := { session.parser with
          track := { session.parser.track with template? := outer? } } }

/-- Note what a step comes to under its number. -/
def noted (step : Nat → Script StepResult) : Script Unit := do
  let number ← Action.update Session.beginNote
  let result ← Action.orElse (step number) fun error => do
    Action.modify fun session => session.endNote number (.failed error)
    Action.fail error
  Action.modify fun session => session.endNote number result

/-- Try a script and tell whether its effects were kept. -/
def tried (script : Script Unit) : Script StepResult :=
  Action.orElse (do attempt script; return .kept) fun _ => return .rewound

mutual

/-- Carry out one step. -/
def runStep : Step → Script Unit
  | .parse entry => noted fun number => parseEntry number entry
  | .snapshot => noted fun _ => do
      Action.modify Session.pushSnapshot
      return .done
  | .restore => noted fun _ => Action.update Session.popRestore
  | .release => noted fun _ => Action.update Session.popRelease
  | .attempt steps => noted fun _ => do
      attempt (runSteps steps)
      return .kept
  | .trial steps => noted fun _ => tried (runSteps steps)
  | .withTemplate parms steps => noted fun _ =>
      withTemplate parms (runSteps steps)
  | .fail message => noted fun _ =>
      ofParser (Parser.failAt (.invalidDeclaration message) .synthetic)

/-- Carry out steps up to the first failure. -/
def runSteps : List Step → Script Unit
  | [] => return ()
  | step :: rest => do
      runStep step
      runSteps rest

end

/-- Carry out steps, going on after failures. -/
def runAll (steps : List Step) : Script Unit :=
  steps.forM fun step => Action.orElse (runStep step) fun _ => return ()

end Script

/--
Carry out scripts in turn, each with a new parser on a window, going on after
failures.
-/
def Session.run? (names : Names) (mode : ParseMode) :
    List (Window × List Step) → Session → Option Session
  | [], session => some session
  | (window, steps) :: rest, session =>
      let input : ParserInput :=
        { window := window, names := names, mode := mode }
      match (Script.runAll steps).run input (session.onWindow window) with
      | .done _ after => Session.run? names mode rest after
      | .failed _ after => Session.run? names mode rest after
      | .exhausted => none

end Tern
