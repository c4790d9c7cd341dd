import Tern.Term.Basic

namespace Tern

/-!
# Open methods

A function with a `virtual` parameter joins the open method of its name. The
first one registered is the base of that method, and all of them, the base
included, override it in order of registration. One list stands for both tables,
that of the bases and that of the overriders: a name's base is the head of its
functions.
-/

/--
The open methods: each name's functions in order of registration, first names
first.
-/
structure OpenMethods where
  methods : List (Name × List DeclId)
deriving DecidableEq

namespace OpenMethods

/-- No open methods. -/
def empty : OpenMethods :=
  { methods := [] }

/-- Add a function at the end of the functions of its name. -/
def addTo (name : Name) (decl : DeclId) :
    List (Name × List DeclId) → List (Name × List DeclId)
  | [] => [(name, [decl])]
  | (known, decls) :: rest =>
      if known = name then (known, decls ++ [decl]) :: rest
      else (known, decls) :: addTo name decl rest

/-- Register a function under its name. -/
def register
    (methods : OpenMethods)
    (name : Name)
    (decl : DeclId) :
    OpenMethods :=
  { methods := addTo name decl methods.methods }

/-- The functions registered under a name. -/
def overriders (methods : OpenMethods) (name : Name) : List DeclId :=
  (methods.methods.lookup name).getD []

/-- The first function registered under a name. -/
def base? (methods : OpenMethods) (name : Name) : Option DeclId :=
  (methods.overriders name).head?

/-- Number of names with an open method. -/
def count (methods : OpenMethods) : Nat :=
  methods.methods.length

/-- Whether there are no open methods. -/
def isEmpty (methods : OpenMethods) : Bool :=
  methods.methods.isEmpty

end OpenMethods

end Tern
