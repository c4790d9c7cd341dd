import Tern.Elaboration.Elaborator

namespace Tern

/-!
# Membership in overload sets

The second pass makes sure that every declaration of a statement list is a
member of the overload set of its key, and reports where in the set it stands.
-/

namespace Elab

/-- Make a declaration a member of the overload set of its key. -/
def ensureMember (scope : ScopeId) (key : Key) (decl : DeclId) : Elab Unit :=
  changeScopes fun scopes =>
    if scopes.contains scope key decl then scopes
      else (scopes.declare scope key decl).2

/-- Report where a declaration stands in the overload set of its key. -/
def reportMember (scope : ScopeId) (key : Key) (decl : DeclId) : Elab Unit := do
  let set := ((← scopes).findLocal? scope key).getD []
  match set.idxOf? decl with
  | none => return ()
  | some position =>
      let membership : Membership :=
        { scope := scope, decl := decl, position := position,
          setSize := set.length }
      find fun findings =>
        { findings with memberships := findings.memberships ++ [membership] }

/-- Confirm the declaration that a statement holds in its overload set. -/
def confirmMembership (stmt : StmtId) : Elab Unit := do
  match ← declarationOf? stmt with
  | none => return ()
  | some decl =>
      let arena ← arena
      let scope := (arena.decl decl).scope
      let key := arena.declKey decl
      ensureMember scope key decl
      reportMember scope key decl

end Elab

end Tern
