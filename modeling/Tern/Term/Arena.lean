import Tern.Term.Basic

namespace Tern

/-!
# The arena

The arena stores the terms of one compilation, one array for each family, and
counts the placeholder names minted so far. A term added gets the next slot of
its family, whose number is not bounded: an arena with no more terms than a word
can count has the slots that fit words. Unparsed terms are completed in place:
the term parsed later moves into their slot, so slots held elsewhere keep
pointing at the right term.

Reading a slot that holds nothing gives a vacant term, which is also what a move
leaves behind.
-/

/-- The terms of one compilation. -/
structure Arena where
  names : Array (Node NameForm)
  types : Array (Node TypeForm)
  exprs : Array (Node ExprForm)
  stmts : Array (Node StmtForm)
  decls : Array Decl
  definitions : Array (Node DefForm)
  requirements : Array (Node ReqForm)
  /-- Number of placeholder names minted so far. -/
  placeholders : Nat
deriving DecidableEq

/-- The sizes of an arena at some moment. -/
structure ArenaMark where
  names : Nat
  types : Nat
  exprs : Nat
  stmts : Nat
  decls : Nat
  definitions : Nat
  requirements : Nat
  placeholders : Nat
deriving DecidableEq

namespace Vacant

/-- The name read from a slot that holds none. -/
def name : Node NameForm :=
  { form := .simple .empty, span := .synthetic }

/-- The type read from a slot that holds none. -/
def type : Node TypeForm :=
  { form := .builtin .void, span := .synthetic }

/-- The expression read from a slot that holds none. -/
def expr : Node ExprForm :=
  { form := .bool false, span := .synthetic }

/-- The statement read from a slot that holds none. -/
def stmt : Node StmtForm :=
  { form := .empty, span := .synthetic }

/-- The declaration read from a slot that holds none. -/
def decl : Decl :=
  { name := .invalid
    specifiers := .none
    form := .parameter .invalid
    span := .synthetic
    scope := .invalid
    phase := .unelaborated }

/-- The definition read from a slot that holds none. -/
def definition : Node DefForm :=
  { form := .empty, span := .synthetic }

/-- The requirement read from a slot that holds none. -/
def requirement : Node ReqForm :=
  { form := .type .invalid, span := .synthetic }

end Vacant

namespace Arena

/-- An arena without terms. -/
def empty : Arena :=
  { names := #[], types := #[], exprs := #[], stmts := #[], decls := #[]
    definitions := #[], requirements := #[], placeholders := 0 }

/-- The name in a slot. -/
def name (arena : Arena) (id : NameId) : Node NameForm :=
  arena.names.getD id.raw Vacant.name

/-- The type in a slot. -/
def type (arena : Arena) (id : TypeId) : Node TypeForm :=
  arena.types.getD id.raw Vacant.type

/-- The expression in a slot. -/
def expr (arena : Arena) (id : ExprId) : Node ExprForm :=
  arena.exprs.getD id.raw Vacant.expr

/-- The statement in a slot. -/
def stmt (arena : Arena) (id : StmtId) : Node StmtForm :=
  arena.stmts.getD id.raw Vacant.stmt

/-- The declaration in a slot. -/
def decl (arena : Arena) (id : DeclId) : Decl :=
  arena.decls.getD id.raw Vacant.decl

/-- The definition in a slot. -/
def definition (arena : Arena) (id : DefId) : Node DefForm :=
  arena.definitions.getD id.raw Vacant.definition

/-- The requirement in a slot. -/
def requirement (arena : Arena) (id : ReqId) : Node ReqForm :=
  arena.requirements.getD id.raw Vacant.requirement

/-- The span of a term. -/
def spanOf (arena : Arena) : Term → Span
  | .name id => (arena.name id).span
  | .type id => (arena.type id).span
  | .expr id => (arena.expr id).span
  | .stmt id => (arena.stmt id).span
  | .decl id => (arena.decl id).span
  | .definition id => (arena.definition id).span
  | .requirement id => (arena.requirement id).span

/-- Number of terms of all families. -/
def termCount (arena : Arena) : Nat :=
  arena.names.size + arena.types.size + arena.exprs.size + arena.stmts.size
    + arena.decls.size + arena.definitions.size + arena.requirements.size

/--
Follow applied names to the name of their template, for a bounded number of
steps.
-/
def keyWithin (arena : Arena) : Nat → NameId → Key
  | 0, _ => .simple .empty
  | fuel + 1, id =>
      match (arena.name id).form with
      | .simple name => .simple name
      | .placeholder number => .placeholder number
      | .applied template _ => arena.keyWithin fuel (arena.decl template).name

/-- What a name is bound under; an applied name has the key of its template. -/
def keyOf (arena : Arena) (id : NameId) : Key :=
  arena.keyWithin (arena.names.size + 1) id

/-- What a declaration is bound under. -/
def declKey (arena : Arena) (id : DeclId) : Key :=
  arena.keyOf (arena.decl id).name

/-- Add a name. -/
def addName (arena : Arena) (form : NameForm) (span : Span) : NameId × Arena :=
  ({ raw := arena.names.size },
    { arena with names := arena.names.push { form := form, span := span } })

/-- Add a name with a fresh placeholder number. -/
def addPlaceholder (arena : Arena) (span : Span) : NameId × Arena :=
  let numbered := { arena with placeholders := arena.placeholders + 1 }
  numbered.addName (.placeholder arena.placeholders) span

/-- Add a type. -/
def addType (arena : Arena) (form : TypeForm) (span : Span) : TypeId × Arena :=
  ({ raw := arena.types.size },
    { arena with types := arena.types.push { form := form, span := span } })

/-- Add an expression. -/
def addExpr (arena : Arena) (form : ExprForm) (span : Span) : ExprId × Arena :=
  ({ raw := arena.exprs.size },
    { arena with exprs := arena.exprs.push { form := form, span := span } })

/-- Add a statement. -/
def addStmt (arena : Arena) (form : StmtForm) (span : Span) : StmtId × Arena :=
  ({ raw := arena.stmts.size },
    { arena with stmts := arena.stmts.push { form := form, span := span } })

/-- Add a declaration. -/
def addDecl (arena : Arena) (decl : Decl) : DeclId × Arena :=
  ({ raw := arena.decls.size }, { arena with decls := arena.decls.push decl })

/-- Add a definition. -/
def addDefinition
    (arena : Arena)
    (form : DefForm)
    (span : Span) :
    DefId × Arena :=
  ({ raw := arena.definitions.size },
    { arena with definitions := arena.definitions.push
                   { form := form, span := span } })

/-- Add a requirement. -/
def addRequirement
    (arena : Arena)
    (form : ReqForm)
    (span : Span) :
    ReqId × Arena :=
  ({ raw := arena.requirements.size },
    { arena with requirements := arena.requirements.push
                   { form := form, span := span } })

/-- Change a declaration in its slot. -/
def updateDecl (arena : Arena) (id : DeclId) (change : Decl → Decl) : Arena :=
  { arena with decls := arena.decls.setIfInBounds id.raw
                 (change (arena.decl id)) }

/-- Change the form of a statement in its slot. -/
def setStmtForm (arena : Arena) (id : StmtId) (form : StmtForm) : Arena :=
  { arena with stmts := arena.stmts.setIfInBounds id.raw
                 { arena.stmt id with form := form } }

/-- Move a type into the slot of another, leaving a vacant type behind. -/
def moveType (arena : Arena) (target source : TypeId) : Arena :=
  if target = source then arena
  else
    { arena with
      types := (arena.types.setIfInBounds source.raw Vacant.type).setIfInBounds
        target.raw
        (arena.type source) }

/-- Move an expression into the slot of another, leaving a vacant one behind. -/
def moveExpr (arena : Arena) (target source : ExprId) : Arena :=
  if target = source then arena
  else
    { arena with
      exprs := (arena.exprs.setIfInBounds source.raw Vacant.expr).setIfInBounds
        target.raw
        (arena.expr source) }

/-- Move a statement into the slot of another, leaving a vacant one behind. -/
def moveStmt (arena : Arena) (target source : StmtId) : Arena :=
  if target = source then arena
  else
    { arena with
      stmts := (arena.stmts.setIfInBounds source.raw Vacant.stmt).setIfInBounds
        target.raw
        (arena.stmt source) }

/-- The present sizes. -/
def mark (arena : Arena) : ArenaMark :=
  { names := arena.names.size
    types := arena.types.size
    exprs := arena.exprs.size
    stmts := arena.stmts.size
    decls := arena.decls.size
    definitions := arena.definitions.size
    requirements := arena.requirements.size
    placeholders := arena.placeholders }

/-- Drop every term added since a mark was taken. -/
def rewind (arena : Arena) (mark : ArenaMark) : Arena :=
  { names := arena.names.take mark.names
    types := arena.types.take mark.types
    exprs := arena.exprs.take mark.exprs
    stmts := arena.stmts.take mark.stmts
    decls := arena.decls.take mark.decls
    definitions := arena.definitions.take mark.definitions
    requirements := arena.requirements.take mark.requirements
    placeholders := mark.placeholders }

end Arena

end Tern
