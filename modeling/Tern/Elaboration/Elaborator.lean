import Tern.Elaboration.Fault
import Tern.Elaboration.OpenMethods
import Tern.Elaboration.TypeShape
import Tern.Grammar.Fragments
import Tern.Term.Walk

namespace Tern

/-!
# Elaborators

Elaboration completes what parsing left unparsed and checks the declarations of
each statement list against each other. This module holds what an elaborator
reads and changes, and the steps that its passes are made of.
-/

/-- How to elaborate. -/
structure ElabOptions where
  /-- How to parse the captured fragments. -/
  mode : ParseMode
  /-- Whether to register open methods. -/
  openMethods : Bool
deriving DecidableEq

/-- What an elaborator reads. -/
structure ElabInput where
  tokens : Tokens
  names : Names
  options : ElabOptions

/--
The standing of a declaration in its overload set when it was confirmed there.
-/
structure Membership where
  scope : ScopeId
  decl : DeclId
  position : Nat
  setSize : Nat
deriving DecidableEq

/-- Forward declarations and what each was merged into, in order of merging. -/
abbrev Merges := List (DeclId × DeclId)

/--
Note what a declaration was merged into, in place of what was noted before.
-/
def Merges.note : Merges → DeclId → DeclId → Merges
  | [], source, target => [(source, target)]
  | (known, old) :: rest, source, target =>
      if known = source then (known, target) :: rest
      else (known, old) :: Merges.note rest source target

/-- What an elaborator finds besides the completed terms. -/
structure Findings where
  openMethods : OpenMethods
  faults : List StructuralFault
  merges : Merges
  memberships : List Membership
deriving DecidableEq

/-- Nothing found yet. -/
def Findings.none : Findings :=
  { openMethods := .empty, faults := [], merges := [], memberships := [] }

/-- What an elaborator changes. -/
structure ElabState where
  arena : Arena
  scopes : Scopes
  shapes : TypeShapes
  findings : Findings
deriving DecidableEq

/-- An elaborator. -/
abbrev Elab (Value : Type) := Action ElabInput ElabError ElabState Value

namespace Elab

variable {Value : Type}

/-- The arena. -/
def arena : Elab Arena := do
  return (← Action.state).arena

/-- The scopes. -/
def scopes : Elab Scopes := do
  return (← Action.state).scopes

/-- Change the arena. -/
def changeArena (change : Arena → Arena) : Elab Unit :=
  Action.modify fun state => { state with arena := change state.arena }

/-- Change the arena and give a value of it. -/
def inArena (change : Arena → Value × Arena) : Elab Value :=
  Action.update fun state =>
    let changed := change state.arena
    (changed.1, { state with arena := changed.2 })

/-- Change the scopes. -/
def changeScopes (change : Scopes → Scopes) : Elab Unit :=
  Action.modify fun state => { state with scopes := change state.scopes }

/-- Change the scopes and give a value of them. -/
def inScopes (change : Scopes → Value × Scopes) : Elab Value :=
  Action.update fun state =>
    let changed := change state.scopes
    (changed.1, { state with scopes := changed.2 })

/-- Change the findings. -/
def find (change : Findings → Findings) : Elab Unit :=
  Action.modify fun state => { state with findings := change state.findings }

/-- Number the shapes of types. -/
def shaping (compute : Arena → Shaping Value) : Elab Value :=
  Action.update fun state =>
    let (value, shapes) := (compute state.arena).run state.shapes
    (value, { state with shapes := shapes })

/-- Record a fault of a declaration. -/
def recordFault (decl : DeclId) (cause : FaultCause) : Elab Unit := do
  let arena ← arena
  let fault : StructuralFault :=
    { decl := decl, cause := cause, span := (arena.decl decl).span }
  find fun findings => { findings with faults := findings.faults ++ [fault] }

/-- Let a declaration reach a phase. -/
def raise (decl : DeclId) (phase : Phase) : Elab Unit :=
  changeArena fun arena => arena.updateDecl decl fun old => old.raiseTo phase

/-- Let declarations reach a phase. -/
def raiseAll (decls : List DeclId) (phase : Phase) : Elab Unit :=
  decls.forM fun decl => raise decl phase

/--
Let the parameters of the requires-expressions within a declaration reach a
phase. No statement lists them, so they follow the declaration that owns them.
-/
def raiseRequiresParams (decl : DeclId) (phase : Phase) : Elab Unit := do
  let arena ← arena
  raiseAll (arena.ownedRequiresParams (.decl decl)) phase

/--
Parse a range of tokens in a scope; the former scope is current again
afterwards.
-/
def parseRange
    (scope : ScopeId)
    (range : TokenRange)
    (parser : Parser Value) :
    Elab Value :=
  fun input state =>
    let window := Window.ofRange input.tokens range
    let parserInput : ParserInput :=
      { window := window, names := input.names, mode := input.options.mode }
    let outer := state.scopes.current
    let settle (after : ParserState) : ElabState :=
      { state with arena := after.arena, scopes := after.scopes.enter outer }
    match parser.run parserInput
        (.start window (state.scopes.enter scope) state.arena) with
    | .done value after => .done value (settle after)
    | .failed error after => .failed (.parse error) (settle after)
    | .exhausted => .exhausted

/-- Parse a type in a scope if it is unparsed. -/
def completeType (type : TypeId) (scope : ScopeId) : Elab Unit := do
  let arena ← arena
  match (arena.type type).form with
  | .unparsed range =>
      let parsed ← parseRange scope range Parser.typeFragment
      changeArena fun arena => arena.moveType type parsed
  | _ => return ()

/-- Parse an expression in a scope if it is unparsed. -/
def completeExpr (expr : ExprId) (scope : ScopeId) : Elab Unit := do
  let arena ← arena
  match (arena.expr expr).form with
  | .unparsed range =>
      let parsed ← parseRange scope range Parser.expressionFragment
      changeArena fun arena => arena.moveExpr expr parsed
  | _ => return ()

/-- Parse a statement in a scope with a parser of its kind if it is unparsed. -/
def completeStmt
    (stmt : StmtId)
    (scope : ScopeId)
    (parser : Parser StmtId) :
    Elab Unit := do
  let arena ← arena
  match (arena.stmt stmt).form with
  | .unparsed range =>
      let parsed ← parseRange scope range parser
      changeArena fun arena => arena.moveStmt stmt parsed
  | _ => return ()

/-- The declaration that a statement holds. -/
def declarationOf? (stmt : StmtId) : Elab (Option DeclId) := do
  let arena ← arena
  match (arena.stmt stmt).form with
  | .declaration decl => return some decl
  | _ => return none

end Elab

end Tern
