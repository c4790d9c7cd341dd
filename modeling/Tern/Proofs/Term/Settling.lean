import Tern.Proofs.Term.Covering

namespace Tern

/-!
# Terms that stay in their place

One slot of an arena may change, and other terms may be added. What lay in its
place before goes on doing so if the slot still encloses what it owns, and lies
within the text that it covered. A range of tokens covers their text, so what is
parsed from them may move into its slot.
-/

namespace Arena

variable {arena older middle newer base : Arena} {tokens : Tokens}
  {term root : Term}

namespace Laid

/-- What a term owns lies in its place, within the text of the term. -/
theorem owned
    {child : Term}
    (laid : arena.Laid base tokens root)
    (listed : child ∈ arena.children root) :
    arena.Laid base tokens child ∧
      (arena.spanOf child).Within (arena.spanOf root) :=
  ⟨laid.child listed, laid.here.encloses.within child listed⟩

/-- So does what is owned further below. -/
theorem within_of_owns
    (laid : arena.Laid base tokens root)
    (owns : arena.Owns root term) :
    (arena.spanOf term).Within (arena.spanOf root) := by
  induction owns with
  | self => exact .refl _
  | child reached listed inductionHypothesis =>
      have inside : arena.Laid base tokens _ := laid.below reached
      exact (inside.owned listed).2.trans inductionHypothesis

end Laid

theorem spanOf_moveType
    {target : TypeId}
    (held : arena.Holds (.type target))
    (source : TypeId) :
    (arena.moveType target source).spanOf (.type target) =
      arena.spanOf (.type source) := by
  simp [Arena.spanOf, type_moveType held]

theorem spanOf_moveExpr
    {target : ExprId}
    (held : arena.Holds (.expr target))
    (source : ExprId) :
    (arena.moveExpr target source).spanOf (.expr target) =
      arena.spanOf (.expr source) := by
  simp [Arena.spanOf, expr_moveExpr held]

theorem spanOf_moveStmt
    {target : StmtId}
    (held : arena.Holds (.stmt target))
    (source : StmtId) :
    (arena.moveStmt target source).spanOf (.stmt target) =
      arena.spanOf (.stmt source) := by
  simp [Arena.spanOf, stmt_moveStmt held]

/--
As tokens are aligned, what lies in its place goes on doing so, within the text
it covered.
-/
def Settles (tokens : Tokens) (older newer : Arena) : Prop :=
  tokens.Aligned → ∀ root, older.Laid .empty tokens root →
    newer.Laid .empty tokens root ∧
      (newer.spanOf root).Within (older.spanOf root)

namespace Settles

theorem refl (tokens : Tokens) (arena : Arena) : Settles tokens arena arena :=
  fun _ _ laid => ⟨laid, .refl _⟩

theorem trans
    (first : Settles tokens older middle)
    (second : Settles tokens middle newer) :
    Settles tokens older newer := by
  intro aligned root laid
  obtain ⟨laidMiddle, withinOlder⟩ := first aligned root laid
  obtain ⟨laidNewer, withinMiddle⟩ := second aligned root laidMiddle
  exact ⟨laidNewer, withinMiddle.trans withinOlder⟩

theorem of_extends (extended : older.Extends newer) :
    Settles tokens older newer := by
  intro _ root laid
  refine ⟨laid.of_extends extended, ?_⟩
  rw [(extended.reads laid.here.held).spanOf]
  exact .refl _

/--
One slot may change. It and what is new own what lay in its place before or is
new as well.
-/
private theorem of_slot
    (slot : Term)
    (new : Term → Prop)
    (holds : ∀ {term}, older.Holds term → newer.Holds term)
    (reads : ∀ {term}, older.Holds term → term ≠ slot → older.Reads newer term)
    (changed : tokens.Aligned → older.Laid .empty tokens slot →
      newer.Encloses tokens slot ∧
        (newer.spanOf slot).Within (older.spanOf slot) ∧
        ∀ child ∈ newer.children slot, older.Laid .empty tokens child ∨
          new child)
    (added : ∀ term, new term → newer.Holds term ∧ newer.Encloses tokens term ∧
      ∀ child ∈ newer.children term, older.Laid .empty tokens child ∨
        new child) :
    Settles tokens older newer := by
  intro aligned root laid
  have covered {term : Term} (laid : older.Laid .empty tokens term) :
      (newer.spanOf term).Within (older.spanOf term) := by
    by_cases same : term = slot
    · subst same
      exact (changed aligned laid).2.1
    · rw [(reads laid.here.held same).spanOf]
      exact .refl _
  refine ⟨.of_closed (fun term => older.Laid .empty tokens term ∨ new term) ?_
    ?_ (.inl laid),
    covered laid⟩
  · rintro term (old | fresh)
    · refine ⟨holds old.here.held, not_holds_empty term, ?_⟩
      by_cases same : term = slot
      · subst same
        exact (changed aligned old).1
      · have reading := reads old.here.held same
        refine ⟨reading.spanOf ▸ old.here.encloses.forward, fun child listed =>
          ?_, ?_⟩
        · rw [reading.children] at listed
          rw [reading.spanOf]
          exact (covered (old.child listed)).trans (old.owned listed).2
        · rw [reading.range?, reading.spanOf]
          exact old.here.encloses.captured
    · exact ⟨(added term fresh).1, not_holds_empty term, (added term fresh).2.1⟩
  · rintro owner (old | fresh) child listed
    · by_cases same : owner = slot
      · subst same
        exact (changed aligned old).2.2 child listed
      · rw [(reads old.here.held same).children] at listed
        exact .inl (old.child listed)
    · exact (added owner fresh).2.2 child listed

/--
A slot may come to own just a new term that owns nothing and covers the same
text.
-/
theorem of_leaf
    {slot leaf : Term}
    (holds : ∀ {term}, older.Holds term → newer.Holds term)
    (reads : ∀ {term}, older.Holds term → term ≠ slot → older.Reads newer term)
    (covered : newer.spanOf slot = older.spanOf slot)
    (owned : newer.children slot = [leaf])
    (parsed : newer.range? slot = none)
    (held : newer.Holds leaf)
    (covers : newer.spanOf leaf = older.spanOf slot)
    (alone : newer.children leaf = [])
    (parsedLeaf : newer.range? leaf = none) :
    Settles tokens older newer := by
  refine of_slot slot (fun term => term = leaf ∧ older.Laid .empty tokens slot)
    holds reads
    (fun _ laid => ⟨.of_parsed parsed ?_ ?_, ?_, ?_⟩) ?_
  · rw [covered]
    exact laid.here.encloses.forward
  · rw [owned, covered, List.forall_mem_singleton, covers]
    exact .refl _
  · rw [covered]
    exact .refl _
  · rw [owned, List.forall_mem_singleton]
    exact .inr ⟨rfl, laid⟩
  · rintro term ⟨rfl, laid⟩
    refine ⟨held, .of_parsed parsedLeaf ?_ ?_, ?_⟩
    · rw [covers]
      exact laid.here.encloses.forward
    · simp [alone]
    · simp [alone]

/--
A statement may come to hold a new template around the declaration that it held,
if the parameters lie within the text of the declaration.
-/
theorem of_wrapper
    {stmt : StmtId}
    {decl wrapper : DeclId}
    {parms : List DeclId}
    (holds : ∀ {term}, older.Holds term → newer.Holds term)
    (reads : ∀ {term}, older.Holds term → term ≠ .stmt stmt →
      older.Reads newer term)
    (form : (older.stmt stmt).form = .declaration decl)
    (now : newer.stmt stmt =
      { form := .declaration wrapper, span := (older.stmt stmt).span })
    (held : newer.Holds (.decl wrapper))
    (name : (newer.decl wrapper).name = (older.decl decl).name)
    (span : (newer.decl wrapper).span = (older.decl decl).span)
    (template : (newer.decl wrapper).form = .template parms none decl)
    (lies : older.Laid .empty tokens (.decl decl) → ∀ parm ∈ parms,
      older.Laid .empty tokens (.decl parm) ∧
        (older.spanOf (.decl parm)).Within (older.spanOf (.decl decl))) :
    Settles tokens older newer := by
  have before : older.children (.stmt stmt) = [.decl decl] := by
    rw [Arena.children, form]
    rfl
  have holdsNow : newer.children (.stmt stmt) = [.decl wrapper] := by
    rw [Arena.children, now]
    rfl
  have covered : newer.spanOf (.stmt stmt) = older.spanOf (.stmt stmt) := by
    rw [Arena.spanOf, now]
    rfl
  have covers : newer.spanOf (.decl wrapper) = older.spanOf (.decl decl) := span
  have inside (laid : older.Laid .empty tokens (.decl decl)) {child : Term}
      (listed : child ∈ newer.children (.decl wrapper)) :
      older.Laid .empty tokens child ∧
        (older.spanOf child).Within (older.spanOf (.decl decl)) ∧
        child ≠ .stmt stmt := by
    simp only [Arena.children, name, template, DeclForm.children,
      Option.toList_none, List.map_nil, List.append_nil, List.mem_cons,
      List.mem_append, List.mem_map, List.not_mem_nil, or_false] at listed
    rcases listed with rfl | ⟨parm, listed, rfl⟩ | rfl
    · obtain ⟨laidName, within⟩ := laid.owned (List.mem_cons_self ..)
      exact ⟨laidName, within, Term.noConfusion⟩
    · obtain ⟨laidParm, within⟩ := lies laid parm listed
      exact ⟨laidParm, within, Term.noConfusion⟩
    · exact ⟨laid, .refl _, Term.noConfusion⟩
  refine of_slot (.stmt stmt)
    (fun term => term = .decl wrapper ∧ older.Laid .empty tokens (.decl decl))
      holds reads
    (fun _ laid => ?_) ?_
  · obtain ⟨laidDecl, within⟩ := laid.owned (before ▸ List.mem_singleton_self _)
    refine ⟨.of_parsed (by rw [Arena.range?, now]; rfl) ?_ ?_, ?_, ?_⟩
    · rw [covered]
      exact laid.here.encloses.forward
    · rw [holdsNow, covered, List.forall_mem_singleton, covers]
      exact within
    · rw [covered]
      exact .refl _
    · rw [holdsNow, List.forall_mem_singleton]
      exact .inr ⟨rfl, laidDecl⟩
  · rintro term ⟨rfl, laid⟩
    refine ⟨held, .of_parsed rfl ?_ fun child listed => ?_,
      fun child listed => .inl (inside laid listed).1⟩
    · rw [covers]
      exact laid.here.encloses.forward
    · obtain ⟨laidChild, within, apart⟩ := inside laid listed
      rw [covers, (reads laidChild.here.held apart).spanOf]
      exact within

/--
A declaration may change as long as it covers the same text and what it owns
lies in that.
-/
theorem updateDecl
    {decl : DeclId}
    {change : Decl → Decl}
    (stored : arena.Holds (.decl decl))
    (covers : (change (arena.decl decl)).span = (arena.decl decl).span)
    (owned : arena.Laid .empty tokens (.decl decl) →
      ∀ child ∈ (arena.updateDecl decl change).children (.decl decl),
        arena.Laid .empty tokens child ∧
          (arena.spanOf child).Within (arena.spanOf (.decl decl))) :
    Settles tokens arena (arena.updateDecl decl change) := by
  have reads {term : Term} (apart : term ≠ .decl decl) :
      arena.Reads (arena.updateDecl decl change) term :=
    reads_updateDecl apart change
  have spanOf (term : Term) : (arena.updateDecl decl change).spanOf term =
      arena.spanOf term := by
    by_cases same : term = .decl decl
    · subst same
      rw [Arena.spanOf, decl_updateDecl stored, covers]
      rfl
    · exact (reads same).spanOf
  refine of_slot (.decl decl) (fun _ => False) (holds_updateDecl change _).mpr
    (fun _ => reads)
    (fun _ laid => ⟨.of_parsed rfl ?_ fun child listed => ?_, ?_,
      fun child listed => .inl (owned laid child listed).1⟩) fun _ => False.elim
  · rw [spanOf]
    exact laid.here.encloses.forward
  · rw [spanOf, spanOf]
    exact (owned laid child listed).2
  · rw [spanOf]
    exact .refl _

/--
What a range of tokens is parsed to may move into the slot of the range, if it
lies within the text of the range and does not own itself.
-/
theorem of_shifts
    {slot parsed : Term}
    {range : TokenRange}
    (extended : older.Extends middle)
    (captured : older.range? slot = some range)
    (fresh : ¬ older.Holds parsed)
    (shifts : middle.Shifts newer slot parsed)
    (filled : newer.range? slot = middle.range? parsed ∧ newer.spanOf slot =
      middle.spanOf parsed)
    (unowned : ∀ owner, middle.Owns parsed owner →
      parsed ∉ middle.children owner)
    (lies : tokens.Aligned → range.start < range.stop →
      range.stop ≤ tokens.size →
      middle.Laid older tokens parsed ∧
        (middle.spanOf parsed).Within (tokens.spanOf range)) :
    Settles tokens older newer := by
  have stored := holds_of_range? captured
  let new (term : Term) : Prop :=
    middle.Laid older tokens term ∧ middle.Owns parsed term ∧ term ≠ parsed
  have reads {term : Term} (inside : new term) : middle.Reads newer term := by
    refine shifts.reads term ?_ inside.2.2
    rintro rfl
    exact inside.1.here.new stored
  have below {owner : Term} (laid : middle.Laid older tokens owner)
      (owns : middle.Owns parsed owner) {child : Term}
        (listed : child ∈ middle.children owner) :
      new child := by
    refine ⟨laid.child listed, .child owns listed, ?_⟩
    rintro rfl
    exact unowned owner owns listed
  refine of_slot slot new
    (fun held => (shifts.holds _).mpr (extended.holds held))
    (fun held other => ?_) (fun aligned laid => ?_) fun term inside => ?_
  · refine (extended.reads held).trans (shifts.reads _ other ?_)
    rintro rfl
    exact fresh held
  · obtain ⟨nonempty, inside, covers⟩ :=
      laid.here.encloses.captured range captured
    obtain ⟨laidParsed, within⟩ := lies aligned nonempty inside
    have inner {child : Term} (listed : child ∈ newer.children slot) :
        new child ∧ child ∈ middle.children parsed := by
      rw [shifts.filled.1] at listed
      exact ⟨below laidParsed .self listed, listed⟩
    refine ⟨⟨?_, fun child listed => ?_, ?_⟩, ?_, fun child listed =>
      .inr (inner listed).1⟩
    · rw [filled.2]
      exact laidParsed.here.encloses.forward
    · rw [filled.2, (reads (inner listed).1).spanOf]
      exact (laidParsed.owned (inner listed).2).2
    · rw [filled.1, filled.2]
      exact laidParsed.here.encloses.captured
    · rw [filled.2, covers]
      exact within
  · have children {child : Term} (listed : child ∈ middle.children term) :
        new child :=
      below inside.1 inside.2.1 listed
    refine ⟨(shifts.holds term).mpr inside.1.here.held,
      inside.1.here.encloses.of_reads (reads inside) fun child listed =>
        reads (children listed),
      fun child listed => .inr (children ?_)⟩
    rwa [(reads inside).children] at listed

end Settles

end Arena

end Tern
