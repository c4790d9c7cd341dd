import Tern.Scope.Table

namespace Tern

/-!
# Scopes with a journal

Parsing may have to take back what it declared. While a mark is outstanding,
every change to the scopes is written down in a journal, latest first, and
taking changes back undoes the entries made since the mark. Without an
outstanding mark nothing is written down.
-/

/-- A change that can be undone. -/
inductive ScopeChange where
  | /-- A scope was added at the end of the table. -/
    scopeAdded
  | /-- A declaration got a scope of its own. -/
    scopeSaved (decl : DeclId)
  | /-- A declaration was added at the end of a set. -/
    declared (scope : ScopeId) (key : Key)
  | /-- The member at a position took the place of another one. -/
    replaced (scope : ScopeId) (key : Key) (position : Nat) (previous : DeclId)
  | /-- A member was removed from a position. -/
    removed (scope : ScopeId) (key : Key) (position : Nat) (decl : DeclId)
deriving DecidableEq

/-- The length of the journal at some moment. -/
structure ScopesMark where
  length : Nat
deriving DecidableEq

/-- The scopes of one compilation. -/
structure Scopes where
  table : ScopeTable
  current : ScopeId
  /-- The scope that each declaration opened. -/
  saved : List (DeclId × ScopeId)
  journal : List ScopeChange
  /-- Number of marks neither released nor gone back to. -/
  outstanding : Nat
deriving DecidableEq

/-- What became of a declaration's key. -/
inductive Declared where
  | /-- The key was new to the scope. -/
    fresh
  | /-- The key had a set, and the declaration stands at this position of it. -/
    merged (position : Nat)
deriving DecidableEq

namespace Scopes

/-- The scopes before anything is parsed. -/
def initial : Scopes :=
  { table := .initial, current := ScopeTable.root, saved := [], journal := [],
    outstanding := 0 }

/-- Make a scope the current one. -/
def enter (scopes : Scopes) (scope : ScopeId) : Scopes :=
  { scopes with current := scope }

/-- The overload set of a key in one scope. -/
def findLocal?
    (scopes : Scopes)
    (scope : ScopeId)
    (key : Key) :
    Option OverloadSet :=
  scopes.table.findLocal? scope key

/-- The overload set of a key in the nearest scope outward that binds it. -/
def find?
    (scopes : Scopes)
    (scope : ScopeId)
    (key : Key) :
    Option OverloadSet :=
  scopes.table.find? scope key

/-- Whether a declaration is in the set of a key in one scope. -/
def contains
    (scopes : Scopes)
    (scope : ScopeId)
    (key : Key)
    (decl : DeclId) :
    Bool :=
  match scopes.findLocal? scope key with
  | some set => set.contains decl
  | none => false

/-- The scope that a declaration opened. -/
def savedScope? (scopes : Scopes) (decl : DeclId) : Option ScopeId :=
  scopes.saved.lookup decl

/-- Write down a change, if a mark is outstanding. -/
def record (scopes : Scopes) (change : ScopeChange) : Scopes :=
  if scopes.outstanding = 0 then scopes
  else { scopes with journal := change :: scopes.journal }

/-- Add a scope inside another one. -/
def push
    (scopes : Scopes)
    (kind : ScopeKind)
    (parent : ScopeId) :
    ScopeId × Scopes :=
  let added := { scopes with
    table :=
      scopes.table.push { parent? := some parent, kind := kind, bindings := [] }
        }
  ({ raw := scopes.table.size }, added.record .scopeAdded)

/-- The scope of a declaration, added inside another one at first use. -/
def scopeFor
    (scopes : Scopes)
    (decl : DeclId)
    (parent : ScopeId)
    (kind : ScopeKind) :
    ScopeId × Scopes :=
  match scopes.savedScope? decl with
  | some scope => (scope, scopes)
  | none =>
      let (scope, pushed) := scopes.push kind parent
      let saved := { pushed with saved := (decl, scope) :: pushed.saved }
      (scope, saved.record (.scopeSaved decl))

/-- Add a declaration at the end of the set of a key in one scope. -/
def declare
    (scopes : Scopes)
    (scope : ScopeId)
    (key : Key)
    (decl : DeclId) :
    Declared × Scopes :=
  let set := (scopes.findLocal? scope key).getD []
  let bound :=
    { scopes with table := scopes.table.put scope key (set ++ [decl]) }
  (if set.isEmpty then .fresh else .merged set.length,
    bound.record (.declared scope key))

/--
Put a declaration in the place of another one, if that is in the set of the key.
-/
def replaceMember?
    (scopes : Scopes)
    (scope : ScopeId)
    (key : Key)
    (previous next : DeclId) :
    Option Scopes :=
  match scopes.findLocal? scope key with
  | none => none
  | some set =>
      match set.idxOf? previous with
      | none => none
      | some position =>
          let changed :=
            { scopes with table := scopes.table.put scope key
                            (set.set position next) }
          some (changed.record (.replaced scope key position previous))

/-- Remove a declaration, if it is in the set of the key. -/
def removeMember?
    (scopes : Scopes)
    (scope : ScopeId)
    (key : Key)
    (decl : DeclId) :
    Option Scopes :=
  match scopes.findLocal? scope key with
  | none => none
  | some set =>
      match set.idxOf? decl with
      | none => none
      | some position =>
          let changed :=
            { scopes with table := scopes.table.put scope key
                            (set.eraseIdx position) }
          some (changed.record (.removed scope key position decl))

/-- Start writing changes down. -/
def mark (scopes : Scopes) : ScopesMark × Scopes :=
  ({ length := scopes.journal.length },
    { scopes with outstanding := scopes.outstanding + 1 })

/--
Keep what was done since a mark; without an outstanding mark the journal is
dropped.
-/
def release (scopes : Scopes) : Scopes :=
  { scopes with
    outstanding := scopes.outstanding - 1
    journal := if scopes.outstanding - 1 = 0 then [] else scopes.journal }

/-- Undo one change. -/
def undo (scopes : Scopes) : ScopeChange → Scopes
  | .scopeAdded => { scopes with table := scopes.table.pop }
  | .scopeSaved decl =>
      { scopes with saved := scopes.saved.filter fun entry => entry.1 ≠ decl }
  | .declared scope key =>
      match scopes.findLocal? scope key with
      | none => scopes
      | some set =>
          { scopes with table := scopes.table.put scope key set.dropLast }
  | .replaced scope key position previous =>
      match scopes.findLocal? scope key with
      | none => scopes
      | some set =>
          { scopes with table := scopes.table.put scope key
                          (set.set position previous) }
  | .removed scope key position decl =>
      let set := (scopes.findLocal? scope key).getD []
      { scopes with table := scopes.table.put scope key
                      (set.insertIdx position decl) }

/--
Undo the changes made since a mark and give the mark back; the current scope
stays.
-/
def goBack (scopes : Scopes) (mark : ScopesMark) : Scopes :=
  let made := scopes.journal.length - mark.length
  let undone := (scopes.journal.take made).foldl undo scopes
  release { undone with journal := scopes.journal.drop made }

end Scopes

end Tern
