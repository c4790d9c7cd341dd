import Tern.Term.Basic

namespace Tern

/-!
# Scopes

Scopes form a tree through their parents and are stored in one table. A scope
binds keys to overload sets: the declarations of one key, in the order in which
they were declared. A key without declarations is not bound at all.
-/

/-- What opens a scope. -/
inductive ScopeKind where
  | unit | namespaceBlock | classType | function | block | template | requires
deriving DecidableEq

/-- The word for what opens a scope. -/
def ScopeKind.describe : ScopeKind → String
  | .unit => "translation"
  | .namespaceBlock => "namespace"
  | .classType => "class"
  | .function => "function"
  | .block => "block"
  | .template => "template"
  | .requires => "requires"

/-- Everything that opens a scope. -/
def ScopeKind.all : List ScopeKind :=
  [.unit, .namespaceBlock, .classType, .function, .block, .template, .requires]

/-- The declarations of one key in one scope, in order of declaration. -/
abbrev OverloadSet := List DeclId

/-- The overload sets of one scope by key. -/
abbrev Bindings := List (Key × OverloadSet)

namespace Bindings

/-- The overload set of a key. -/
def find? (bindings : Bindings) (key : Key) : Option OverloadSet :=
  bindings.lookup key

/-- Forget a key. -/
def erase (bindings : Bindings) (key : Key) : Bindings :=
  bindings.filter fun binding => binding.1 ≠ key

/-- Give a key an overload set in place of the one it has. -/
def assign : Bindings → Key → OverloadSet → Bindings
  | [], _, _ => []
  | (bound, old) :: rest, key, set =>
      if bound = key then (bound, set) :: rest else (bound, old) ::
        assign rest key set

/-- Give a key an overload set; a key with an empty set is forgotten. -/
def put (bindings : Bindings) (key : Key) (set : OverloadSet) : Bindings :=
  match set, bindings.find? key with
  | [], _ => bindings.erase key
  | _ :: _, some _ => bindings.assign key set
  | _ :: _, none => (key, set) :: bindings

end Bindings

/-- A scope. -/
structure Scope where
  parent? : Option ScopeId
  kind : ScopeKind
  bindings : Bindings
deriving DecidableEq

/-- All scopes of one compilation; a slot is a position in the table. -/
abbrev ScopeTable := Array Scope

namespace ScopeTable

/-- The scope of a whole compilation unit. -/
def root : ScopeId :=
  { raw := 0 }

/-- The table that holds only the scope of a compilation unit. -/
def initial : ScopeTable :=
  #[{ parent? := none, kind := .unit, bindings := [] }]

/-- What opened a scope. -/
def kindOf? (table : ScopeTable) (scope : ScopeId) : Option ScopeKind :=
  table[scope.raw]?.map Scope.kind

/-- The scope around a scope. -/
def parentOf? (table : ScopeTable) (scope : ScopeId) : Option ScopeId :=
  table[scope.raw]?.bind Scope.parent?

/-- The overload set of a key in one scope. -/
def findLocal?
    (table : ScopeTable)
    (scope : ScopeId)
    (key : Key) :
    Option OverloadSet :=
  table[scope.raw]?.bind fun found => found.bindings.find? key

/--
Give a key an overload set in one scope; a key with an empty set is forgotten.
-/
def put
    (table : ScopeTable)
    (scope : ScopeId)
    (key : Key)
    (set : OverloadSet) :
    ScopeTable :=
  match table[scope.raw]? with
  | none => table
  | some found =>
      table.setIfInBounds scope.raw
        { found with bindings := found.bindings.put key set }

/--
The overload set of a key in the nearest of a bounded number of scopes outward.
-/
def findWithin? (table : ScopeTable) (key : Key) :
    Nat → ScopeId → Option OverloadSet
  | 0, _ => none
  | fuel + 1, scope =>
      match table.findLocal? scope key with
      | some set => some set
      | none =>
          match table.parentOf? scope with
          | some parent => table.findWithin? key fuel parent
          | none => none

/-- The overload set of a key in the nearest scope outward that binds it. -/
def find?
    (table : ScopeTable)
    (scope : ScopeId)
    (key : Key) :
    Option OverloadSet :=
  table.findWithin? key (table.size + 1) scope

/--
Whether the nearest of a bounded number of scopes that is no template is a
class.
-/
def isClassWithin (table : ScopeTable) : Nat → ScopeId → Bool
  | 0, _ => false
  | fuel + 1, scope =>
      match table.kindOf? scope, table.parentOf? scope with
      | some .template, some parent => table.isClassWithin fuel parent
      | some kind, _ => kind = .classType
      | none, _ => false

/--
Whether a declaration in a scope is a class member; template scopes do not
count.
-/
def isClassLevel (table : ScopeTable) (scope : ScopeId) : Bool :=
  table.isClassWithin (table.size + 1) scope

end ScopeTable

end Tern
