import Tern.Proofs.Term.Tidiness
import Tern.Proofs.Token.Layout

namespace Tern

/-!
# Where terms lie

The text of a term contains the text of the terms that it owns, and the text of
a range of tokens is that of its tokens. This is said of all that a term owns,
as far as it was stored since an earlier arena, so it holds on as long as
nothing but the terms of that arena is changed.
-/

/-- Tokens stand in a range, and a span covers exactly those. -/
structure TokenRange.Spans
    (range : TokenRange)
    (tokens : Tokens)
    (span : Span) :
    Prop where
  nonempty : range.start < range.stop
  inside : range.stop ≤ tokens.size
  span_eq : span = tokens.spanOf range

namespace Arena

variable {arena older newer base : Arena} {tokens : Tokens} {term root : Term}

/-- A term that reads the same has the same span. -/
theorem Reads.spanOf (reads : older.Reads newer term) :
    newer.spanOf term = older.spanOf term := by
  cases term <;> simp only [Reads] at reads <;> simp only [Arena.spanOf, reads]

/--
The span of a term does not end before it starts, and encloses those of the
terms owned.
-/
structure Encloses (arena : Arena) (tokens : Tokens) (term : Term) : Prop where
  forward : (arena.spanOf term).Forward
  within : ∀ child ∈ arena.children term,
    (arena.spanOf child).Within (arena.spanOf term)
  captured : ∀ range, arena.range? term = some range →
    range.Spans tokens (arena.spanOf term)

/-- A term was stored since an earlier arena and encloses what it owns. -/
structure Lies (arena base : Arena) (tokens : Tokens) (term : Term) : Prop where
  held : arena.Holds term
  new : ¬ base.Holds term
  encloses : arena.Encloses tokens term

/--
A term and all that it owns were stored since an earlier arena and enclose what
they own.
-/
def Laid (arena base : Arena) (tokens : Tokens) (root : Term) : Prop :=
  arena.Throughout (arena.Lies base tokens) root

/-- A term that is no range of tokens encloses what it owns if its span does. -/
theorem Encloses.of_parsed
    (parsed : arena.range? term = none)
    (forward : (arena.spanOf term).Forward)
    (within : ∀ child ∈ arena.children term,
      (arena.spanOf child).Within (arena.spanOf term)) :
    arena.Encloses tokens term where
  forward := forward
  within := within
  captured := by simp [parsed]

/--
A term that reads the same as before, as do its children, encloses what it owns.
-/
theorem Encloses.of_reads
    (encloses : older.Encloses tokens term)
    (reads : older.Reads newer term)
    (children : ∀ child ∈ older.children term, older.Reads newer child) :
    newer.Encloses tokens term where
  forward := reads.spanOf ▸ encloses.forward
  within := by
    rw [reads.children, reads.spanOf]
    intro child listed
    rw [(children child listed).spanOf]
    exact encloses.within child listed
  captured := by
    rw [reads.range?, reads.spanOf]
    exact encloses.captured

namespace Laid

/--
What lies in its place goes on doing so while the terms stored since read the
same.
-/
private theorem of_reads
    (laid : older.Laid base tokens root)
    (holds : ∀ {term}, older.Holds term → newer.Holds term)
    (reads : ∀ {term}, older.Holds term → ¬ base.Holds term →
      older.Reads newer term) :
    newer.Laid base tokens root := by
  have same {term : Term} (lies : older.Lies base tokens term) :
      older.Reads newer term :=
    reads lies.held lies.new
  refine .of_closed (older.Laid base tokens) (fun term whole => ?_)
    (fun owner whole term owned => ?_) laid
  · exact ⟨holds whole.here.held, whole.here.new,
      whole.here.encloses.of_reads (same whole.here)
      fun child listed => same (whole.child listed).here⟩
  · rw [(same whole.here).children] at owned
    exact whole.child owned

theorem of_extends
    (laid : older.Laid base tokens root)
    (extended : older.Extends newer) :
    newer.Laid base tokens root :=
  laid.of_reads extended.holds fun held _ => extended.reads held

/-- What lies in its place does not own a declaration that was stored before. -/
theorem updateDecl
    {decl : DeclId}
    (laid : arena.Laid base tokens root)
    (stored : base.Holds (.decl decl))
    (change : Decl → Decl) :
    (arena.updateDecl decl change).Laid base tokens root := by
  refine laid.of_reads (holds_updateDecl change _).mpr fun _ new =>
    reads_updateDecl ?_ change
  rintro rfl
  exact new stored

/-- What was stored since an arena was stored since the arenas before it. -/
theorem since
    {larger : Arena}
    (laid : arena.Laid larger tokens root)
    (stored : ∀ {term}, base.Holds term → larger.Holds term) :
    arena.Laid base tokens root :=
  laid.weaken fun _ lies =>
    ⟨lies.held, fun was => lies.new (stored was), lies.encloses⟩

end Laid

/--
A term with a span is added that owns terms, and may be a range of tokens.
-/
structure Adding (older newer : Arena) (term : Term) (children : List Term)
    (range? : Option TokenRange) (span : Span) : Prop where
  extended : older.Extends newer
  new : ¬ older.Holds term
  held : newer.Holds term
  children_eq : newer.children term = children
  range?_eq : newer.range? term = range?
  span_eq : newer.spanOf term = span

/-- A term is added that encloses what it owns. -/
theorem Adding.laid
    {children : List Term}
    {range? : Option TokenRange}
    {span : Span}
    (adding : older.Adding newer term children range? span)
    (before : base.Extends older)
    (forward : span.Forward)
    (owned : ∀ child ∈ children, older.Laid base tokens child ∧
      (older.spanOf child).Within span)
    (captured : ∀ range ∈ range?, range.Spans tokens span) :
    newer.Laid base tokens term := by
  refine .intro ⟨adding.held, fun was => adding.new (before.holds was), ?_, ?_,
    ?_⟩ ?_
  · rw [adding.span_eq]
    exact forward
  · rw [adding.children_eq, adding.span_eq]
    intro child listed
    obtain ⟨laid, within⟩ := owned child listed
    rwa [(adding.extended.reads laid.here.held).spanOf]
  · rw [adding.range?_eq, adding.span_eq]
    exact captured
  · rw [adding.children_eq]
    exact fun child listed => (owned child listed).1.of_extends adding.extended

variable (arena)

theorem adding_addName (form : NameForm) (span : Span) :
    arena.Adding (arena.addName form span).2 (.name (arena.addName form span).1)
      form.children none
      span where
  extended := arena.extends_addName form span
  new := (Adds.name form span).new
  held := (Adds.name form span).holds.mpr (.inr rfl)
  children_eq := by rw [children, name_addName]
  range?_eq := rfl
  span_eq := by rw [spanOf, name_addName]

theorem adding_addPlaceholder (span : Span) :
    arena.Adding (arena.addPlaceholder span).2
      (.name (arena.addPlaceholder span).1) [] none
      span where
  extended := arena.extends_addPlaceholder span
  new := (Adds.placeholder span).new
  held := (Adds.placeholder span).holds.mpr (.inr rfl)
  children_eq := by
    rw [children, addPlaceholder, name_addName]
    rfl
  range?_eq := rfl
  span_eq := by rw [spanOf, addPlaceholder, name_addName]

theorem adding_addType (form : TypeForm) (span : Span) :
    arena.Adding (arena.addType form span).2 (.type (arena.addType form span).1)
      form.children
      form.range? span where
  extended := arena.extends_addType form span
  new := (Adds.type form span).new
  held := (Adds.type form span).holds.mpr (.inr rfl)
  children_eq := by rw [children, type_addType]
  range?_eq := by rw [range?, type_addType]
  span_eq := by rw [spanOf, type_addType]

theorem adding_addExpr (form : ExprForm) (span : Span) :
    arena.Adding (arena.addExpr form span).2 (.expr (arena.addExpr form span).1)
      form.children
      form.range? span where
  extended := arena.extends_addExpr form span
  new := (Adds.expr form span).new
  held := (Adds.expr form span).holds.mpr (.inr rfl)
  children_eq := by rw [children, expr_addExpr]
  range?_eq := by rw [range?, expr_addExpr]
  span_eq := by rw [spanOf, expr_addExpr]

theorem adding_addStmt (form : StmtForm) (span : Span) :
    arena.Adding (arena.addStmt form span).2 (.stmt (arena.addStmt form span).1)
      form.children
      form.range? span where
  extended := arena.extends_addStmt form span
  new := (Adds.stmt form span).new
  held := (Adds.stmt form span).holds.mpr (.inr rfl)
  children_eq := by rw [children, stmt_addStmt]
  range?_eq := by rw [range?, stmt_addStmt]
  span_eq := by rw [spanOf, stmt_addStmt]

theorem adding_addDecl (decl : Decl) :
    arena.Adding (arena.addDecl decl).2 (.decl (arena.addDecl decl).1)
      (.name decl.name :: decl.form.children) none decl.span where
  extended := arena.extends_addDecl decl
  new := not_holds_addDecl decl
  held := (holds_addDecl decl).mpr (.inr rfl)
  children_eq := by rw [children, decl_addDecl]
  range?_eq := rfl
  span_eq := by rw [spanOf, decl_addDecl]

theorem adding_addDefinition (form : DefForm) (span : Span) :
    arena.Adding (arena.addDefinition form span).2
      (.definition (arena.addDefinition form span).1) form.children none
        span where
  extended := arena.extends_addDefinition form span
  new := (Adds.definition form span).new
  held := (Adds.definition form span).holds.mpr (.inr rfl)
  children_eq := by rw [children, definition_addDefinition]
  range?_eq := rfl
  span_eq := by rw [spanOf, definition_addDefinition]

theorem adding_addRequirement (form : ReqForm) (span : Span) :
    arena.Adding (arena.addRequirement form span).2
      (.requirement (arena.addRequirement form span).1) form.children none
        span where
  extended := arena.extends_addRequirement form span
  new := (Adds.requirement form span).new
  held := (Adds.requirement form span).holds.mpr (.inr rfl)
  children_eq := by rw [children, requirement_addRequirement]
  range?_eq := rfl
  span_eq := by rw [spanOf, requirement_addRequirement]

end Arena

end Tern
