import Tern.Proofs.Term.Growth
import Tern.Term.Walk

namespace Tern

/-!
# Ownership

What is said of all terms that a term owns is shown by giving terms that are
closed under ownership, so it does not matter whether ownership runs in circles.
A term is complete when all terms it owns are stored and parsed.
-/

namespace Arena

/-- A term is stored in the arena. -/
def Holds (arena : Arena) : Term → Prop
  | .name id => id.raw < arena.names.size
  | .type id => id.raw < arena.types.size
  | .expr id => id.raw < arena.exprs.size
  | .stmt id => id.raw < arena.stmts.size
  | .decl id => id.raw < arena.decls.size
  | .definition id => id.raw < arena.definitions.size
  | .requirement id => id.raw < arena.requirements.size

instance (arena : Arena) (term : Term) : Decidable (arena.Holds term) :=
  match term with
  | .name id => inferInstanceAs (Decidable (id.raw < arena.names.size))
  | .type id => inferInstanceAs (Decidable (id.raw < arena.types.size))
  | .expr id => inferInstanceAs (Decidable (id.raw < arena.exprs.size))
  | .stmt id => inferInstanceAs (Decidable (id.raw < arena.stmts.size))
  | .decl id => inferInstanceAs (Decidable (id.raw < arena.decls.size))
  | .definition id =>
      inferInstanceAs (Decidable (id.raw < arena.definitions.size))
  | .requirement id =>
      inferInstanceAs (Decidable (id.raw < arena.requirements.size))

/-- A term is reached from another one through ownership. -/
inductive Owns (arena : Arena) (root : Term) : Term → Prop where
  | self : Owns arena root root
  | child {owner term : Term} (reached : Owns arena root owner)
      (owned : term ∈ arena.children owner) :
      Owns arena root term

/-- A property of a term and all terms it owns. -/
def Throughout (arena : Arena) (good : Term → Prop) (root : Term) : Prop :=
  ∀ term, arena.Owns root term → good term

namespace Throughout

variable {arena : Arena} {good better : Term → Prop} {root : Term}

theorem here (throughout : arena.Throughout good root) : good root :=
  throughout root .self

/-- What a term owned owns is owned as well. -/
theorem below
    (throughout : arena.Throughout good root)
    {term : Term}
    (reached : arena.Owns root term) :
    arena.Throughout good term := by
  intro other further
  apply throughout
  induction further with
  | self =>
      exact reached
  | child _ owned inductionHypothesis =>
      exact .child inductionHypothesis owned

theorem child
    (throughout : arena.Throughout good root)
    {term : Term}
    (owned : term ∈ arena.children root) :
    arena.Throughout good term :=
  throughout.below (.child .self owned)

/-- Terms closed under ownership that all have a property have it throughout. -/
theorem of_closed
    (closed : Term → Prop)
    (holds : ∀ term, closed term → good term)
    (children : ∀ owner, closed owner → ∀ term ∈ arena.children owner,
      closed term)
    (start : closed root) :
    arena.Throughout good root := by
  intro term reached
  apply holds
  induction reached with
  | self =>
      exact start
  | child _ owned inductionHypothesis =>
      exact children _ inductionHypothesis _ owned

/--
A property holds throughout a term if it does so throughout what the term owns.
-/
theorem intro
    (holds : good root)
    (children : ∀ term ∈ arena.children root, arena.Throughout good term) :
    arena.Throughout good root := by
  refine of_closed (fun term => term = root ∨ arena.Throughout good term) ?_ ?_
    (.inl rfl)
  · rintro term (rfl | throughout)
    · exact holds
    · exact throughout.here
  · rintro owner (rfl | throughout) term owned
    · exact .inr (children term owned)
    · exact .inr (throughout.child owned)

theorem weaken
    (throughout : arena.Throughout good root)
    (implied : ∀ term, good term → better term) :
    arena.Throughout better root :=
  fun term reached => implied term (throughout term reached)

end Throughout

/-- A term is stored and is no range of tokens. -/
def Present (arena : Arena) (term : Term) : Prop :=
  arena.Holds term ∧ arena.isUnparsed term = false

/-- Nothing that a term owns is a range of tokens. -/
def Complete (arena : Arena) (term : Term) : Prop :=
  arena.Throughout arena.Present term

/-- The search for unparsed terms finds none in a complete term. -/
private theorem Complete.firstUnparsedWithin?_eq_none
    {arena : Arena}
    {term : Term}
    (complete : arena.Complete term)
    (depth : Nat) :
    arena.firstUnparsedWithin? depth term = none := by
  induction depth generalizing term with
  | zero =>
      rfl
  | succ depth inductionHypothesis =>
      have present : arena.isUnparsed term = false := complete.here.2
      simp only [firstUnparsedWithin?, present, Bool.false_eq_true, ↓reduceIte,
        List.findSome?_eq_none_iff]
      intro child owned
      exact inductionHypothesis (complete.child owned)

/-- The search for unparsed terms finds none in a complete statement. -/
theorem Complete.firstUnparsed?_eq_none
    {arena : Arena}
    {stmt : StmtId}
    (complete : arena.Complete (.stmt stmt)) :
    arena.firstUnparsed? stmt = none :=
  complete.firstUnparsedWithin?_eq_none _

/-- The walk over a term lists only terms it owns. -/
theorem owns_of_mem_preorderWithin
    {arena : Arena}
    {root term found : Term}
    {depth : Nat}
    (reached : arena.Owns root term)
    (listed : found ∈ arena.preorderWithin depth term) :
    arena.Owns root found := by
  induction depth generalizing term with
  | zero =>
      simp [preorderWithin] at listed
  | succ depth inductionHypothesis =>
      rcases List.mem_cons.mp listed with rfl | later
      · exact reached
      · obtain ⟨child, owned, inside⟩ := List.mem_flatMap.mp later
        exact inductionHypothesis (.child reached owned) inside

/-- The walk over a term lists only terms it owns. -/
theorem owns_of_mem_preorder
    {arena : Arena}
    {root found : Term}
    (listed : found ∈ arena.preorder root) :
    arena.Owns root found := by
  rw [preorder_eq] at listed
  exact owns_of_mem_preorderWithin .self listed

end Arena

namespace Arena

variable (arena : Arena)

theorem name_addName (form : NameForm) (span : Span) :
    (arena.addName form span).2.name (arena.addName form span).1 =
      { form := form, span := span } := by
  simp [Arena.name, addName, Array.getD_eq_getD_getElem?]

theorem type_addType (form : TypeForm) (span : Span) :
    (arena.addType form span).2.type (arena.addType form span).1 =
      { form := form, span := span } := by
  simp [Arena.type, addType, Array.getD_eq_getD_getElem?]

theorem expr_addExpr (form : ExprForm) (span : Span) :
    (arena.addExpr form span).2.expr (arena.addExpr form span).1 =
      { form := form, span := span } := by
  simp [Arena.expr, addExpr, Array.getD_eq_getD_getElem?]

theorem stmt_addStmt (form : StmtForm) (span : Span) :
    (arena.addStmt form span).2.stmt (arena.addStmt form span).1 =
      { form := form, span := span } := by
  simp [Arena.stmt, addStmt, Array.getD_eq_getD_getElem?]

theorem decl_addDecl (decl : Decl) :
    (arena.addDecl decl).2.decl (arena.addDecl decl).1 = decl := by
  simp [Arena.decl, addDecl, Array.getD_eq_getD_getElem?]

theorem definition_addDefinition (form : DefForm) (span : Span) :
    (arena.addDefinition form span).2.definition
      (arena.addDefinition form span).1 =
      { form := form, span := span } := by
  simp [Arena.definition, addDefinition, Array.getD_eq_getD_getElem?]

theorem requirement_addRequirement (form : ReqForm) (span : Span) :
    (arena.addRequirement form span).2.requirement
      (arena.addRequirement form span).1 =
      { form := form, span := span } := by
  simp [Arena.requirement, addRequirement, Array.getD_eq_getD_getElem?]

end Arena

private theorem Agrees.getD_eq
    {Element : Type}
    {older newer : Array Element}
    (agrees : Agrees older newer)
    {place : Nat}
    (inBounds : place < older.size)
    (vacant : Element) :
    newer.getD place vacant = older.getD place vacant := by
  simp only [Array.getD_eq_getD_getElem?, agrees place inBounds]

namespace Arena.Extends

variable {older newer : Arena}

theorem holds
    (extended : older.Extends newer)
    {term : Term}
    (held : older.Holds term) :
    newer.Holds term := by
  cases term with
  | name id => exact Nat.lt_of_lt_of_le held extended.names.size_le
  | type id => exact Nat.lt_of_lt_of_le held extended.types.size_le
  | expr id => exact Nat.lt_of_lt_of_le held extended.exprs.size_le
  | stmt id => exact Nat.lt_of_lt_of_le held extended.stmts.size_le
  | decl id => exact Nat.lt_of_lt_of_le held extended.decls.size_le
  | definition id => exact Nat.lt_of_lt_of_le held extended.definitions.size_le
  | requirement id =>
      exact Nat.lt_of_lt_of_le held extended.requirements.size_le

theorem name_eq
    (extended : older.Extends newer)
    {id : NameId}
    (held : older.Holds (.name id)) :
    newer.name id = older.name id :=
  extended.names.getD_eq held _

theorem type_eq
    (extended : older.Extends newer)
    {id : TypeId}
    (held : older.Holds (.type id)) :
    newer.type id = older.type id :=
  extended.types.getD_eq held _

theorem expr_eq
    (extended : older.Extends newer)
    {id : ExprId}
    (held : older.Holds (.expr id)) :
    newer.expr id = older.expr id :=
  extended.exprs.getD_eq held _

theorem stmt_eq
    (extended : older.Extends newer)
    {id : StmtId}
    (held : older.Holds (.stmt id)) :
    newer.stmt id = older.stmt id :=
  extended.stmts.getD_eq held _

theorem decl_eq
    (extended : older.Extends newer)
    {id : DeclId}
    (held : older.Holds (.decl id)) :
    newer.decl id = older.decl id :=
  extended.decls.getD_eq held _

theorem definition_eq
    (extended : older.Extends newer)
    {id : DefId}
    (held : older.Holds (.definition id)) :
    newer.definition id = older.definition id :=
  extended.definitions.getD_eq held _

theorem requirement_eq
    (extended : older.Extends newer)
    {id : ReqId}
    (held : older.Holds (.requirement id)) :
    newer.requirement id = older.requirement id :=
  extended.requirements.getD_eq held _

end Arena.Extends

end Tern
