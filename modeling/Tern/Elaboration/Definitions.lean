import Tern.Elaboration.DeclaredTypes
import Tern.Elaboration.Membership
import Tern.Elaboration.Merging

namespace Tern

/-!
# Definitions

The fourth pass completes the definitions of a statement list, with all of its
declarations visible. Class bodies and the blocks of function bodies are
statement lists again, over which all four passes run. Each pass is over before
the next one begins.
-/

/-- What elaboration is recursive in. -/
inductive ElabTask where
  | /-- All passes over statements that belong to a scope. -/
    statements (stmts : List StmtId) (scope : ScopeId)
  | /-- The statement lists within a statement that belongs to a scope. -/
    statement (stmt : StmtId) (scope : ScopeId)
  | /-- The definition of a declaration. -/
    definition (decl : DeclId)

namespace Elab

section Passes

/-! The passes, given how the tasks nested in them are carried out. -/

variable (perform : ElabTask → Elab Unit)

/-- Complete the initializer that a definition is, if it is one. -/
def elaborateInitializer (definition : DefId) (scope : ScopeId) :
    Elab Unit := do
  match ((← arena).definition definition).form with
  | .expression expr => completeExpr expr scope
  | _ => return ()

/-- Complete the body of a function and elaborate what it declares. -/
def elaborateBody (definition : DefId) (scope : ScopeId) : Elab Unit := do
  match ((← arena).definition definition).form with
  | .body stmt =>
      completeStmt stmt scope Parser.bodyFragment
      perform (.statement stmt scope)
  | .expression expr => completeExpr expr scope
  | _ => return ()

/-- Complete the body of a class and elaborate its members. -/
def elaborateMembers (definition : DefId) (scope : ScopeId) : Elab Unit := do
  match ((← arena).definition definition).form with
  | .members stmt =>
      completeStmt stmt scope Parser.memberFragment
      perform (.statement stmt scope)
  | _ => return ()

/-- Bind a parameter in the scope of its function, unless it is bound there. -/
def bindParam (scope : ScopeId) (param : DeclId) : Elab Unit := do
  let key := (← arena).declKey param
  ensureMember scope key param
  raise param .definitionElaborated

/--
Complete the definition of a callable declaration, its parameters being visible
in it.
-/
def elaborateCallable
    (decl : DeclId)
    (params : List DeclId)
    (definition : DefId)
    (parent : ScopeId) : Elab Unit := do
  let scope ← inScopes fun scopes => scopes.scopeFor decl parent .function
  params.forM (bindParam scope)
  elaborateBody perform definition scope

/-- Complete the definition of a class. -/
def elaborateClass
    (decl : DeclId)
    (definition : DefId)
    (parent : ScopeId) :
    Elab Unit := do
  let scope ← inScopes fun scopes => scopes.scopeFor decl parent .classType
  elaborateMembers perform definition scope

/-- Complete the definition of a declaration, by its form. -/
def elaborateForm (decl : DeclId) (scope : ScopeId) : DeclForm → Elab Unit
  | .object _ _ definition => elaborateInitializer definition scope
  | .callable _ params _ definition =>
      elaborateCallable perform decl params definition scope
  | .classType _ definition => elaborateClass perform decl definition scope
  | .template parms _ inner => do
      raiseAll parms .definitionElaborated
      perform (.definition inner)
  | .concept parms _ => raiseAll parms .definitionElaborated
  | .parameter _ => return ()
  | .typeParameter _ _ => return ()
  | .namespaceBlock _ => refuseNamespace decl

/-- Complete the definition of a declaration, unless that is done. -/
def elaborateDefinition (decl : DeclId) : Elab Unit := do
  let found := (← arena).decl decl
  if found.phase = .definitionElaborated then
    return ()
  else
    elaborateForm perform decl found.scope found.form
    raise decl .definitionElaborated

/-- Elaborate the statement lists within a statement. -/
def elaborateStatement (stmt : StmtId) (scope : ScopeId) : Elab Unit := do
  match ((← arena).stmt stmt).form with
  | .list _ stmts inner => perform (.statements stmts inner)
  | .branch _ accepted rejected? => do
      perform (.statement accepted scope)
      rejected?.toList.forM fun rejected => perform (.statement rejected scope)
  | .loop _ body => perform (.statement body scope)
  | .declaration _ => perform (.statements [stmt] scope)
  | _ => return ()

/--
Complete the definition that a statement holds, or the statement lists within
it.
-/
def defineStatement (scope : ScopeId) (stmt : StmtId) : Elab Unit := do
  match ← declarationOf? stmt with
  | some decl =>
      perform (.definition decl)
      raiseRequiresParams decl .definitionElaborated
  | none => perform (.statement stmt scope)

/-- All four passes over statements that belong to a scope. -/
def elaborateStatements (stmts : List StmtId) (scope : ScopeId) :
    Elab Unit := do
  stmts.forM elaborateTypes
  stmts.forM confirmMembership
  mergeForwardDeclarations stmts
  stmts.forM (defineStatement perform scope)

/-- Carry out one task. -/
def elaborateTask : ElabTask → Elab Unit
  | .statements stmts scope => elaborateStatements perform stmts scope
  | .statement stmt scope => elaborateStatement perform stmt scope
  | .definition decl => elaborateDefinition perform decl

end Passes

/-- Carry out a task with the tasks in it nested no deeper than a bound. -/
def nested : Nat → ElabTask → Elab Unit
  | 0, _ => Action.exhaust
  | depth + 1, task => elaborateTask (nested depth) task

/--
Carry out a task. A task passes on terms that lie deeper in the tree or come
from a shorter range of tokens, so nesting is bounded by the size of both.
-/
def carryOut (task : ElabTask) : Elab Unit := do
  let input ← Action.environment
  let arena ← arena
  nested (4 * (arena.termCount + input.tokens.size + 1)) task

/-- Fail if a term of a compilation unit is still unparsed. -/
def refuseResidual (unit : StmtId) : Elab Unit := do
  let arena ← arena
  match arena.firstUnparsed? unit with
  | none => return ()
  | some term => Action.fail (.residual term.family (arena.spanOf term))

/-- Elaborate a compilation unit; afterwards nothing in it is unparsed. -/
def elaborateUnit (unit : StmtId) : Elab Unit := do
  let found := (← arena).stmt unit
  match found.form with
  | .list .unit stmts scope =>
      carryOut (.statements stmts scope)
      refuseResidual unit
  | form => Action.fail (.unhandled .statement form.kindName found.span)

end Elab

end Tern
