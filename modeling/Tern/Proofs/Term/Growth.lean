import Tern.Term.Arena

namespace Tern

/-!
# Growth of the arena

One arena extends another when it holds the same terms in all slots that the
other one has. Adding terms and changing slots added since extend an arena, and
rewinding an arena that extends another one gives the other one back.
-/

/-- One array agrees with another one wherever the other one has elements. -/
def Agrees {Element : Type} (older newer : Array Element) : Prop :=
  ∀ place, place < older.size → newer[place]? = older[place]?

namespace Agrees

variable {Element : Type} {older middle newer : Array Element}

/-- An array agrees with itself. -/
theorem refl (older : Array Element) : Agrees older older :=
  fun _ _ => rfl

/-- An array that agrees with another one is at least as long. -/
theorem size_le (agrees : Agrees older newer) : older.size ≤ newer.size := by
  apply Nat.le_of_not_lt
  intro inBounds
  have same := agrees newer.size inBounds
  simp [Array.getElem?_eq_getElem inBounds] at same

/-- Agreement is transitive. -/
theorem trans
    (first : Agrees older middle)
    (second : Agrees middle newer) :
    Agrees older newer := by
  intro place inBounds
  have inMiddle : place < middle.size :=
    Nat.lt_of_lt_of_le inBounds first.size_le
  rw [second place inMiddle, first place inBounds]

/-- Adding an element at the end changes no other one. -/
private theorem push
    (agrees : Agrees older newer)
    (element : Element) :
    Agrees older (newer.push element) := by
  intro place inBounds
  have inNewer : place < newer.size :=
    Nat.lt_of_lt_of_le inBounds agrees.size_le
  rw [Array.getElem?_push_lt inNewer, ← agrees place inBounds,
    Array.getElem?_eq_getElem inNewer]

/-- Changing an element past the older array changes none of its own. -/
private theorem setIfInBounds
    (agrees : Agrees older newer)
    {place : Nat}
    (past : older.size ≤ place)
    (element : Element) :
    Agrees older (newer.setIfInBounds place element) := by
  intro other inBounds
  have different : place ≠ other := by omega
  rw [Array.getElem?_setIfInBounds_ne different, agrees other inBounds]

/-- What is left after cutting back to the older size is the older array. -/
private theorem take_eq (agrees : Agrees older newer) :
    newer.take older.size = older := by
  apply Array.ext_getElem?
  intro place
  by_cases inBounds : place < older.size
  · have inNewer : place < newer.size :=
      Nat.lt_of_lt_of_le inBounds agrees.size_le
    have inBoth : place < min older.size newer.size := by omega
    rw [← agrees place inBounds]
    simp [inBoth, Array.getElem?_eq_getElem inNewer]
  · have notInBoth : ¬ place < min older.size newer.size := by omega
    simp [notInBoth, Nat.le_of_not_lt inBounds]

end Agrees

namespace Arena

/--
One arena holds all terms of another one in the slots that they have there.
-/
structure Extends (older newer : Arena) : Prop where
  names : Agrees older.names newer.names
  types : Agrees older.types newer.types
  exprs : Agrees older.exprs newer.exprs
  stmts : Agrees older.stmts newer.stmts
  decls : Agrees older.decls newer.decls
  definitions : Agrees older.definitions newer.definitions
  requirements : Agrees older.requirements newer.requirements

namespace Extends

variable {older newer : Arena}

/-- An arena extends itself. -/
theorem refl (older : Arena) : older.Extends older where
  names := .refl _
  types := .refl _
  exprs := .refl _
  stmts := .refl _
  decls := .refl _
  definitions := .refl _
  requirements := .refl _

/-- Extending is transitive. -/
theorem trans
    {middle : Arena}
    (first : older.Extends middle)
    (second : middle.Extends newer) :
    older.Extends newer where
  names := first.names.trans second.names
  types := first.types.trans second.types
  exprs := first.exprs.trans second.exprs
  stmts := first.stmts.trans second.stmts
  decls := first.decls.trans second.decls
  definitions := first.definitions.trans second.definitions
  requirements := first.requirements.trans second.requirements

/-- Changing a declaration added since keeps all older terms. -/
theorem updateDecl
    (extended : older.Extends newer)
    {decl : DeclId}
    (past : older.decls.size ≤ decl.raw)
    (change : Decl → Decl) :
    older.Extends (newer.updateDecl decl change) :=
  { extended with decls := extended.decls.setIfInBounds past _ }

/-- Rewinding to a mark gives the arena of the mark back. -/
theorem rewind_mark (extended : older.Extends newer) :
    newer.rewind older.mark = older := by
  simp only [rewind, mark, extended.names.take_eq, extended.types.take_eq,
    extended.exprs.take_eq, extended.stmts.take_eq, extended.decls.take_eq,
    extended.definitions.take_eq, extended.requirements.take_eq]

end Extends

variable (arena : Arena)

/-- Adding a name extends the arena. -/
theorem extends_addName (form : NameForm) (span : Span) :
    arena.Extends (arena.addName form span).2 :=
  { Extends.refl arena with names := (Agrees.refl _).push _ }

/-- Minting a name extends the arena. -/
theorem extends_addPlaceholder (span : Span) :
    arena.Extends (arena.addPlaceholder span).2 :=
  { Extends.refl arena with names := (Agrees.refl _).push _ }

/-- Adding a type extends the arena. -/
theorem extends_addType (form : TypeForm) (span : Span) :
    arena.Extends (arena.addType form span).2 :=
  { Extends.refl arena with types := (Agrees.refl _).push _ }

/-- Adding an expression extends the arena. -/
theorem extends_addExpr (form : ExprForm) (span : Span) :
    arena.Extends (arena.addExpr form span).2 :=
  { Extends.refl arena with exprs := (Agrees.refl _).push _ }

/-- Adding a statement extends the arena. -/
theorem extends_addStmt (form : StmtForm) (span : Span) :
    arena.Extends (arena.addStmt form span).2 :=
  { Extends.refl arena with stmts := (Agrees.refl _).push _ }

/-- Adding a declaration extends the arena. -/
theorem extends_addDecl (decl : Decl) :
    arena.Extends (arena.addDecl decl).2 :=
  { Extends.refl arena with decls := (Agrees.refl _).push _ }

/-- Adding a definition extends the arena. -/
theorem extends_addDefinition (form : DefForm) (span : Span) :
    arena.Extends (arena.addDefinition form span).2 :=
  { Extends.refl arena with definitions := (Agrees.refl _).push _ }

/-- Adding a requirement extends the arena. -/
theorem extends_addRequirement (form : ReqForm) (span : Span) :
    arena.Extends (arena.addRequirement form span).2 :=
  { Extends.refl arena with requirements := (Agrees.refl _).push _ }

end Arena

end Tern
