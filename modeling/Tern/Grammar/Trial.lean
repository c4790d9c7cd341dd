import Tern.Grammar.Parser

namespace Tern

/-!
# Trials

Where the next tokens do not settle which production applies, one is tried. A
trial takes a snapshot of everything that a parser can change. If the tried
production fails, the snapshot is restored, so that a failed alternative leaves
no trace.
-/

/-- What it takes to go back to a moment of a parse. -/
structure Snapshot where
  position : Nat
  track : ParserTrack
  scope : ScopeId
  scopes : ScopesMark
  arena : ArenaMark
deriving DecidableEq

namespace ParserState

/-- Take a snapshot; it is to be restored or released once. -/
def snapshot (state : ParserState) : Snapshot × ParserState :=
  let (mark, scopes) := state.scopes.mark
  ({ position := state.position
     track := state.track
     scope := state.scopes.current
     scopes := mark
     arena := state.arena.mark },
    { state with scopes := scopes })

/-- Go back to a snapshot. -/
def restore (state : ParserState) (snapshot : Snapshot) : ParserState :=
  { position := snapshot.position
    track := snapshot.track
    scopes := (state.scopes.goBack snapshot.scopes).enter snapshot.scope
    arena := state.arena.rewind snapshot.arena }

/-- Give a snapshot up and keep what was done since. -/
def release (state : ParserState) : ParserState :=
  { state with scopes := state.scopes.release }

end ParserState

namespace Parser

variable {Value : Type}

/--
Try a parser: if it fails, so does the trial, but everything is as it was
before.
-/
def attempt (parser : Parser Value) : Parser Value :=
  fun input state =>
    let (snapshot, watched) := state.snapshot
    match parser input watched with
    | .done value after => .done value after.release
    | .failed failure after => .failed failure (after.restore snapshot)
    | .exhausted => .exhausted

/-- Try a parser: if it fails, everything is as it was before. -/
def trial (parser : Parser Value) : Parser (Option Value) :=
  Action.orElse (some <$> attempt parser) fun _ => pure none

/-- Try a parser, and run another one if it fails. -/
def either (first second : Parser Value) : Parser Value := do
  match ← trial first with
  | some value => return value
  | none => second

end Parser

end Tern
