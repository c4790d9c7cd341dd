import Tern.Source.Span

namespace Tern

/-!
# Slots

Terms and scopes are stored in numbered slots and refer to each other by slot.
A slot is typed by what it holds, so a slot of a type can not be read as an
expression. One number, the largest word, marks a slot that is not known yet.
-/

/-- What a numbered store holds: terms of one family, or scopes. -/
inductive Space where
  | name | type | expression | statement | declaration | definition
  | requirement | scope
deriving DecidableEq

/-- The word for the slots of a space. -/
def Space.slotLabel : Space → String
  | .name => "NameId"
  | .type => "TyId"
  | .expression => "ExprId"
  | .statement => "StmtId"
  | .declaration => "DeclId"
  | .definition => "DefId"
  | .requirement => "ReqId"
  | .scope => "ScopeId"

/-- A numbered slot of one space. -/
structure Slot (space : Space) where
  raw : Nat
deriving DecidableEq

namespace Slot

variable {space : Space}

/-- The mark of a slot that is not known yet. -/
def invalid : Slot space :=
  { raw := largestWord }

instance : Inhabited (Slot space) :=
  ⟨invalid⟩

/--
The slot with a number; a number that fits no word gives the invalid slot.
-/
def ofNumber (number : Nat) : Slot space :=
  { raw := min number largestWord }

/-- Whether a slot is known. -/
def isValid (slot : Slot space) : Bool :=
  slot.raw != largestWord

/-- The written form of a slot, naming its space. -/
def render (slot : Slot space) : String :=
  if slot.isValid then
    space.slotLabel ++ "(" ++ toString slot.raw ++ ")"
  else
    space.slotLabel ++ "::INVALID"

end Slot

/-- A slot of the names of the arena. -/
abbrev NameId := Slot .name

/-- A slot of the types of the arena. -/
abbrev TypeId := Slot .type

/-- A slot of the expressions of the arena. -/
abbrev ExprId := Slot .expression

/-- A slot of the statements of the arena. -/
abbrev StmtId := Slot .statement

/-- A slot of the declarations of the arena. -/
abbrev DeclId := Slot .declaration

/-- A slot of the definitions of the arena. -/
abbrev DefId := Slot .definition

/-- A slot of the requirements of the arena. -/
abbrev ReqId := Slot .requirement

/-- A slot of the scope table. -/
abbrev ScopeId := Slot .scope

end Tern
