import Tern.Elaboration.Elaborator

namespace Tern

/-!
# Merging of forward declarations

The third pass compares the declarations of a statement list that share scope
and key, in order and pairwise. Of two with the same signature, a forward
declaration leaves its overload set for the definition, or for the earlier
forward declaration; two definitions are a fault. So are two declarations one
of which has no signature. Different signatures are overloads.
-/

/-- What declarations of one key are told apart by. -/
inductive Signature where
  | callable (isCoroutine : Bool) (params : List TypeHandle)
      (result : TypeHandle)
  | classType (kind : TypeHandle)
  | template (count : Nat) (inner : Signature)
deriving DecidableEq

/-- Whether a callable declaration is a coroutine. -/
def CallableRole.isCoroutine : CallableRole → Bool
  | .function _ => false
  | .coroutine => true

namespace Arena

/-- The number of the shape of a parameter's type. -/
def identifyParam? (arena : Arena) (param : DeclId) :
    Shaping (Option TypeHandle) :=
  match (arena.decl param).form with
  | .parameter type => do return some (← arena.identify type)
  | _ => return none

/--
The signature of a declaration that may be declared more than once, below some
templates.
-/
def signatureWithin? (arena : Arena) : Nat → DeclId → Shaping (Option Signature)
  | 0, _ => return none
  | depth + 1, decl =>
      match (arena.decl decl).form with
      | .callable role params result _ => do
          let params ← params.mapM arena.identifyParam?
          let result ← arena.identify result
          return some (.callable role.isCoroutine (params.filterMap id) result)
      | .classType kind _ => do return some (.classType (← arena.identify kind))
      | .template parms _ inner => do
          let inner? ← arena.signatureWithin? depth inner
          return inner?.map (.template parms.length)
      | _ => return none

/-- The signature of a declaration that may be declared more than once. -/
def signature? (arena : Arena) (decl : DeclId) : Shaping (Option Signature) :=
  arena.signatureWithin? (arena.decls.size + 1) decl

/-- Whether a declaration defines what it declares, below some templates. -/
def isDefinitionWithin (arena : Arena) : Nat → DeclId → Bool
  | 0, _ => false
  | depth + 1, decl =>
      match (arena.decl decl).form with
      | .template _ _ inner => arena.isDefinitionWithin depth inner
      | form =>
          match form.definition? with
          | some definition => (arena.definition definition).form.isDefining
          | none => false

/-- Whether a declaration defines what it declares. -/
def isDefinition (arena : Arena) (decl : DeclId) : Bool :=
  arena.isDefinitionWithin (arena.decls.size + 1) decl

end Arena

/-- What becomes of two declarations of one key. -/
inductive MergeVerdict where
  | distinct
  | fault (cause : FaultCause)
  | /-- The source leaves the overload set for the target. -/
    merge (source target : DeclId)
deriving DecidableEq

/-- A declaration with its scope and key. -/
structure BoundDecl where
  scope : ScopeId
  key : Key
  decl : DeclId
deriving DecidableEq

namespace Arena

/-- Judge two declarations of one key, the earlier one first. -/
def judge (arena : Arena) (earlier later : DeclId) : Shaping MergeVerdict := do
  let earlierSignature? ← arena.signature? earlier
  let laterSignature? ← arena.signature? later
  match earlierSignature?, laterSignature? with
  | some earlierSignature, some laterSignature =>
      if earlierSignature ≠ laterSignature then
        return .distinct
      else
        match arena.isDefinition earlier, arena.isDefinition later with
        | true, true => return .fault (.redefinition earlier)
        | false, true => return .merge earlier later
        | _, false => return .merge later earlier
  | _, _ => return .fault (.conflictingDeclaration earlier)

end Arena

namespace Elab

/-- Let a declaration leave its overload set for another one. -/
def mergeAway (bound : BoundDecl) (source target : DeclId) : Elab Unit := do
  changeScopes fun scopes =>
    (scopes.removeMember? bound.scope bound.key source).getD scopes
  find fun findings =>
    { findings with merges := findings.merges.note source target }

/--
Compare a declaration with earlier ones of its scope and key. Gives the
declarations still alive, this one included unless it was merged away.
-/
def mergeWith (bound : BoundDecl) :
    List BoundDecl → List BoundDecl → Elab (List BoundDecl)
  | [], alive => return alive ++ [bound]
  | earlier :: rest, alive => do
      match ← shaping fun arena => arena.judge earlier.decl bound.decl with
      | .distinct => mergeWith bound rest alive
      | .fault cause =>
          recordFault bound.decl cause
          mergeWith bound rest alive
      | .merge source target =>
          mergeAway bound source target
          let left := alive.filter fun other => other.decl ≠ source
          if source = bound.decl then
            return left
          else
            mergeWith bound rest left

/--
Compare a declaration with those alive before it that share its scope and key.
-/
def mergeOne (alive : List BoundDecl) (decl : DeclId) :
    Elab (List BoundDecl) := do
  let arena ← arena
  let bound : BoundDecl :=
    { scope := (arena.decl decl).scope, key := arena.declKey decl,
      decl := decl }
  let earlier :=
    alive.filter fun other => other.scope = bound.scope ∧ other.key = bound.key
  mergeWith bound earlier alive

/-- The declarations that statements hold, in order. -/
def declarationsOf : List StmtId → Elab (List DeclId)
  | [] => return []
  | stmt :: rest => do
      let decl? ← declarationOf? stmt
      let decls ← declarationsOf rest
      return decl?.toList ++ decls

/-- Merge the forward declarations among statements. -/
def mergeForwardDeclarations (stmts : List StmtId) : Elab Unit := do
  let decls ← declarationsOf stmts
  let _ ← decls.foldlM mergeOne []
  return ()

end Elab

end Tern
