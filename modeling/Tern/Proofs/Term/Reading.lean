import Tern.Proofs.Term.Standing

namespace Tern

/-!
# Reading single slots

Most changes of an arena concern one slot: a term is added, or a declaration is
changed. All other terms read the same afterwards, and so does whatever is read
off them: what they own, the declarations that they mention, and the scope that
they keep.
-/

/-- The key of a name that is no applied one. -/
def NameForm.key? : NameForm → Option Key
  | .simple name => some (.simple name)
  | .placeholder number => some (.placeholder number)
  | .applied _ _ => none

/-- The template or concept that a name applies. -/
def NameForm.template? : NameForm → Option DeclId
  | .applied template _ => some template
  | _ => none

/--
The declarations that a type mentions, each with the name it is mentioned by.
-/
def TypeForm.mentions : TypeForm → List (NameId × DeclId)
  | .declared decl name => [(name, decl)]
  | _ => []

/--
The declarations that an expression mentions, each with the name it is mentioned
by.
-/
def ExprForm.mentions : ExprForm → List (NameId × DeclId)
  | .reference decl name => [(name, decl)]
  | .overload name decls => decls.map fun decl => (name, decl)
  | _ => []

/-- The scope that an expression keeps. -/
def ExprForm.scope? : ExprForm → Option ScopeId
  | .requires _ _ scope => some scope
  | _ => none

/-- The scope that a statement keeps. -/
def StmtForm.scope? : StmtForm → Option ScopeId
  | .list _ _ scope => some scope
  | _ => none

/-- The declaration that a statement holds. -/
def StmtForm.declared? : StmtForm → Option DeclId
  | .declaration decl => some decl
  | _ => none

/-- Whether a statement is a whole compilation unit. -/
def StmtForm.isUnit : StmtForm → Bool
  | .list .unit _ _ => true
  | _ => false

namespace Arena

/--
The declarations that a term mentions without owning them, each with its name.
-/
def mentions (arena : Arena) : Term → List (NameId × DeclId)
  | .type id => (arena.type id).form.mentions
  | .expr id => (arena.expr id).form.mentions
  | _ => []

/-- The template or concept that a term applies, if it is an applied name. -/
def template? (arena : Arena) : Term → Option DeclId
  | .name id => (arena.name id).form.template?
  | _ => none

/-- The scope that a term keeps, if it keeps one. -/
def scope? (arena : Arena) : Term → Option ScopeId
  | .expr id => (arena.expr id).form.scope?
  | .stmt id => (arena.stmt id).form.scope?
  | .decl id => some (arena.decl id).scope
  | _ => none

/-- The declaration that a term holds, if it is such a statement. -/
def declared? (arena : Arena) : Term → Option DeclId
  | .stmt id => (arena.stmt id).form.declared?
  | _ => none

/-- Whether a term is a whole compilation unit. -/
def isUnit (arena : Arena) : Term → Bool
  | .stmt id => (arena.stmt id).form.isUnit
  | _ => false

/-- A term reads the same in two arenas. -/
def Reads (older newer : Arena) : Term → Prop
  | .name id => newer.name id = older.name id
  | .type id => newer.type id = older.type id
  | .expr id => newer.expr id = older.expr id
  | .stmt id => newer.stmt id = older.stmt id
  | .decl id => newer.decl id = older.decl id
  | .definition id => newer.definition id = older.definition id
  | .requirement id => newer.requirement id = older.requirement id

namespace Reads

variable {older newer : Arena} {term : Term}

theorem refl (arena : Arena) (term : Term) : arena.Reads arena term := by
  cases term <;> rfl

theorem trans
    {middle : Arena}
    (first : older.Reads middle term)
    (second : middle.Reads newer term) :
    older.Reads newer term := by
  cases term <;> exact Eq.trans second first

theorem children (reads : older.Reads newer term) :
    newer.children term = older.children term := by
  cases term <;> simp only [Reads] at reads <;>
    simp only [Arena.children, reads]

theorem mentions (reads : older.Reads newer term) :
    newer.mentions term = older.mentions term := by
  cases term <;> simp only [Reads] at reads <;>
    simp only [Arena.mentions, reads]

theorem template? (reads : older.Reads newer term) :
    newer.template? term = older.template? term := by
  cases term <;> simp only [Reads] at reads <;>
    simp only [Arena.template?, reads]

theorem scope? (reads : older.Reads newer term) :
    newer.scope? term = older.scope? term := by
  cases term <;> simp only [Reads] at reads <;> simp only [Arena.scope?, reads]

theorem isUnit (reads : older.Reads newer term) :
    newer.isUnit term = older.isUnit term := by
  cases term <;> simp only [Reads] at reads <;> simp only [Arena.isUnit, reads]

end Reads

/-- What an older arena holds reads the same in an arena that extends it. -/
theorem Extends.reads
    {older newer : Arena}
    (extended : older.Extends newer)
    {term : Term}
    (held : older.Holds term) :
    older.Reads newer term := by
  cases term with
  | name id => exact extended.name_eq held
  | type id => exact extended.type_eq held
  | expr id => exact extended.expr_eq held
  | stmt id => exact extended.stmt_eq held
  | decl id => exact extended.decl_eq held
  | definition id => exact extended.definition_eq held
  | requirement id => exact extended.requirement_eq held

/-- One term that is no declaration is added to an arena. -/
inductive Adds (arena : Arena) : Term → Arena → Prop where
  | name (form : NameForm) (span : Span) :
      Adds arena (.name (arena.addName form span).1) (arena.addName form span).2
  | placeholder (span : Span) :
      Adds arena (.name (arena.addPlaceholder span).1)
        (arena.addPlaceholder span).2
  | type (form : TypeForm) (span : Span) :
      Adds arena (.type (arena.addType form span).1) (arena.addType form span).2
  | expr (form : ExprForm) (span : Span) :
      Adds arena (.expr (arena.addExpr form span).1) (arena.addExpr form span).2
  | stmt (form : StmtForm) (span : Span) :
      Adds arena (.stmt (arena.addStmt form span).1) (arena.addStmt form span).2
  | definition (form : DefForm) (span : Span) :
      Adds arena (.definition (arena.addDefinition form span).1)
        (arena.addDefinition form span).2
  | requirement (form : ReqForm) (span : Span) :
      Adds arena (.requirement (arena.addRequirement form span).1)
        (arena.addRequirement form span).2

section

variable {arena after : Arena} {term other : Term}

/--
An element behind the end of an array is read from the element added there.
-/
private theorem getD_push_of_ne
    {Element : Type}
    (elements : Array Element)
    (element vacant : Element)
    {place : Nat}
    (apart : place ≠ elements.size) :
    (elements.push element).getD place vacant = elements.getD place vacant := by
  simp [Array.getD_eq_getD_getElem?, Array.getElem?_push, apart]

/--
The slots of an arena in which a term was added are the old ones and its own.
-/
theorem Adds.holds (adds : arena.Adds term after) :
    after.Holds other ↔ arena.Holds other ∨ other = term := by
  cases adds <;> cases other <;>
    simp [Holds, addName, addPlaceholder, addType, addExpr, addStmt,
      addDefinition, addRequirement, eq_iff_raw_eq] <;>
    omega

/-- A term added was not there before. -/
theorem Adds.new (adds : arena.Adds term after) : ¬ arena.Holds term := by
  cases adds <;> exact Nat.lt_irrefl _

/-- Adding a term changes no other one. -/
theorem Adds.reads (adds : arena.Adds term after) (apart : other ≠ term) :
    arena.Reads after other := by
  have slot {space : Space} {id last : Slot space} {make : Slot space → Term}
      (apart : make id ≠ make last) : id.raw ≠ last.raw :=
    fun same => apart (congrArg make (eq_iff_raw_eq.mpr same))
  cases adds <;> cases other <;>
    first
    | rfl
    | exact getD_push_of_ne _ _ _ (slot apart)

/-- No declaration is changed when a term is added that is none. -/
theorem Adds.decls_eq (adds : arena.Adds term after) :
    after.decls = arena.decls := by
  cases adds <;> rfl

/--
The slots of an arena in which a declaration was added are the old ones and its
own.
-/
theorem holds_addDecl (decl : Decl) :
    (arena.addDecl decl).2.Holds other ↔
      arena.Holds other ∨ other = .decl (arena.addDecl decl).1 := by
  cases other <;> simp [Holds, addDecl, eq_iff_raw_eq]
  omega

/-- Adding a declaration changes no other term. -/
theorem reads_addDecl
    {decl : Decl}
    (apart : other ≠ .decl (arena.addDecl decl).1) :
    arena.Reads (arena.addDecl decl).2 other := by
  cases other with
  | decl id => exact decl_addDecl_of_ne fun same => apart (congrArg _ same)
  | _ => rfl

/-- A declaration added was not there before. -/
theorem not_holds_addDecl (decl : Decl) :
    ¬ arena.Holds (.decl (arena.addDecl decl).1) :=
  Nat.lt_irrefl _

/-- Changing a declaration changes no other term. -/
theorem reads_updateDecl
    {decl : DeclId}
    (apart : other ≠ .decl decl)
    (change : Decl → Decl) :
    arena.Reads (arena.updateDecl decl change) other := by
  cases other with
  | decl id => exact decl_updateDecl_of_ne (fun same =>
      apart (congrArg _ same)) change
  | _ => rfl

/-- Changing the form of a statement changes no other term. -/
theorem reads_setStmtForm
    {stmt : StmtId}
    (apart : other ≠ .stmt stmt)
    (form : StmtForm) :
    arena.Reads (arena.setStmtForm stmt form) other := by
  cases other with
  | stmt id => exact stmt_setStmtForm_of_ne fun same => apart (congrArg _ same)
  | _ => rfl

end

end Arena

end Tern
