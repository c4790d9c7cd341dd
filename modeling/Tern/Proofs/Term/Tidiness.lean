import Tern.Proofs.Building.Rework
import Tern.Proofs.Token.Nesting

namespace Tern

/-!
# Tidy terms

A term is tidy if the delimiters match each other in every range of tokens that
is still to be parsed in it. What was stored in an earlier arena does not count,
so a fragment may be tidy while the range that it was captured as is not yet
known to be. Whoever finds a term tidy in a later arena finds it so in earlier
ones, for what was a range before has been parsed since.
-/

namespace Arena

variable {arena older middle newer base : Arena} {term root : Term}
  {range : TokenRange}

/-- A term that reads the same is the same range of tokens. -/
theorem Reads.range? (reads : older.Reads newer term) :
    newer.range? term = older.range? term := by
  cases term <;> simp_all [Reads, Arena.range?]

/-- A range of tokens is not parsed and owns nothing. -/
theorem unparsed_of_range? (captured : arena.range? term = some range) :
    arena.isUnparsed term = true ∧ arena.children term = [] := by
  cases term with
  | type id =>
      simp only [Arena.range?] at captured
      simp only [isUnparsed, children]
      cases form : (arena.type id).form <;>
        simp_all [TypeForm.range?, TypeForm.isUnparsed,
        TypeForm.children]
  | expr id =>
      simp only [Arena.range?] at captured
      simp only [isUnparsed, children]
      cases form : (arena.expr id).form <;>
        simp_all [ExprForm.range?, ExprForm.isUnparsed,
        ExprForm.children]
  | stmt id =>
      simp only [Arena.range?] at captured
      simp only [isUnparsed, children]
      cases form : (arena.stmt id).form <;>
        simp_all [StmtForm.range?, StmtForm.isUnparsed,
        StmtForm.children]
  | _ => cases captured

/-- A range of tokens is stored. -/
theorem holds_of_range? (captured : arena.range? term = some range) :
    arena.Holds term := by
  by_contra missing
  cases term with
  | type id =>
      have past : arena.types.size ≤ id.raw := Nat.le_of_not_lt missing
      simp [Arena.range?, Arena.type, Array.getD_eq_getD_getElem?, past,
        Vacant.type, TypeForm.range?] at captured
  | expr id =>
      have past : arena.exprs.size ≤ id.raw := Nat.le_of_not_lt missing
      simp [Arena.range?, Arena.expr, Array.getD_eq_getD_getElem?, past,
        Vacant.expr, ExprForm.range?] at captured
  | stmt id =>
      have past : arena.stmts.size ≤ id.raw := Nat.le_of_not_lt missing
      simp [Arena.range?, Arena.stmt, Array.getD_eq_getD_getElem?, past,
        Vacant.stmt, StmtForm.range?] at captured
  | _ => cases captured

theorem range?_moveType
    {target : TypeId}
    (held : arena.Holds (.type target))
    (source : TypeId) :
    (arena.moveType target source).range? (.type target) =
      arena.range? (.type source) := by
  simp [Arena.range?, type_moveType held]

theorem range?_moveExpr
    {target : ExprId}
    (held : arena.Holds (.expr target))
    (source : ExprId) :
    (arena.moveExpr target source).range? (.expr target) =
      arena.range? (.expr source) := by
  simp [Arena.range?, expr_moveExpr held]

theorem range?_moveStmt
    {target : StmtId}
    (held : arena.Holds (.stmt target))
    (source : StmtId) :
    (arena.moveStmt target source).range? (.stmt target) =
      arena.range? (.stmt source) := by
  simp [Arena.range?, stmt_moveStmt held]

/--
A term is reached from another one through terms that are stored, but were not
so before.
-/
inductive Reaches (arena base : Arena) (root : Term) : Term → Prop where
  | self : Reaches arena base root root
  | child {owner term : Term} (reached : Reaches arena base root owner)
      (held : arena.Holds owner) (new : ¬ base.Holds owner)
      (owned : term ∈ arena.children owner) :
      Reaches arena base root term

/-- What is reached from a term is owned by it. -/
theorem Reaches.owns (reached : arena.Reaches base root term) :
    arena.Owns root term := by
  induction reached with
  | self => exact .self
  | child _ _ _ owned inductionHypothesis =>
      exact .child inductionHypothesis owned

theorem Reaches.trans
    {other : Term}
    (reached : arena.Reaches base root term)
    (further : arena.Reaches base term other) :
    arena.Reaches base root other := by
  induction further with
  | self => exact reached
  | child _ held new owned inductionHypothesis =>
      exact .child inductionHypothesis held new owned

/-- Fewer terms are reached past an arena that stores more. -/
private theorem Reaches.anti
    {larger : Arena}
    (stored : ∀ {term}, base.Holds term → larger.Holds term)
    (reached : arena.Reaches larger root term) :
    arena.Reaches base root term := by
  induction reached with
  | self => exact .self
  | child _ held new owned inductionHypothesis =>
      exact .child inductionHypothesis held (fun was => new (stored was)) owned

/--
In all ranges that are reached from a term past an earlier arena delimiters
match.
-/
def Tidy (arena base : Arena) (tokens : Tokens) (root : Term) : Prop :=
  ∀ term range, arena.Reaches base root term → ¬ base.Holds term →
    arena.range? term = some range → tokens.Balances range

variable {tokens : Tokens}

namespace Tidy

theorem below
    (tidy : arena.Tidy base tokens root)
    (reached : arena.Reaches base root term) :
    arena.Tidy base tokens term :=
  fun other range further => tidy other range (reached.trans further)

theorem anti
    {larger : Arena}
    (tidy : arena.Tidy base tokens root)
    (stored : ∀ {term}, base.Holds term → larger.Holds term) :
    arena.Tidy larger tokens root :=
  fun term range reached new => tidy term range (reached.anti stored) fun was =>
    new (stored was)

end Tidy

/-- What a complete term owns is tidy, for it is parsed. -/
theorem Complete.tidy (complete : arena.Complete root) :
    arena.Tidy base tokens root := by
  intro term range reached _ captured
  have parsed := (complete term reached.owns).2
  rw [(unparsed_of_range? captured).1] at parsed
  cases parsed

/--
What was reached past an earlier arena still is, and ranges of tokens are still
there.
-/
structure Unfolds (base older newer : Arena) : Prop where
  reaches : ∀ {owner term}, older.Holds owner → ¬ base.Holds owner →
    term ∈ older.children owner →
    newer.Reaches base owner term
  ranges : ∀ {term range}, ¬ base.Holds term → older.range? term = some range →
    newer.range? term = some range

namespace Unfolds

private theorem reaches_of
    (unfolds : Unfolds base older newer)
    (reached : older.Reaches base root term) :
    newer.Reaches base root term := by
  induction reached with
  | self => exact .self
  | child _ held new owned inductionHypothesis =>
      exact inductionHypothesis.trans (unfolds.reaches held new owned)

/-- A term that is tidy in the later arena is so in the earlier one. -/
theorem tidy
    (unfolds : Unfolds base older newer)
    (tidy : newer.Tidy base tokens root) :
    older.Tidy base tokens root :=
  fun term range reached new captured =>
    tidy term range (unfolds.reaches_of reached) new
      (unfolds.ranges new captured)

/-- Arenas that show the same terms past an earlier one unfold. -/
private theorem of_reads
    (holds : ∀ {term}, older.Holds term → newer.Holds term)
    (reads : ∀ {term}, older.Holds term → ¬ base.Holds term →
      older.Reads newer term) :
    Unfolds base older newer where
  reaches held new owned :=
    .child .self (holds held) new ((reads held new).children ▸ owned)
  ranges new captured :=
    (reads (holds_of_range? captured) new).range?.trans captured

theorem of_extends (extended : older.Extends newer) :
    Unfolds base older newer :=
  of_reads extended.holds fun held _ => extended.reads held

/--
One slot may change that is no range, if what it owned is reached from it still.
-/
theorem of_slot
    {slot : Term}
    (holds : ∀ {term}, older.Holds term → newer.Holds term)
    (reads : ∀ {term}, older.Holds term → term ≠ slot → older.Reads newer term)
    (parsed : older.range? slot = none)
    (reaches : ∀ term ∈ older.children slot, newer.Reaches base slot term) :
    Unfolds base older newer where
  reaches {owner term} held new owned := by
    by_cases same : owner = slot
    · subst same
      exact reaches term owned
    · exact .child .self (holds held) new ((reads held same).children ▸ owned)
  ranges {term range} _ captured := by
    by_cases same : term = slot
    · rw [same, parsed] at captured
      cases captured
    · exact (reads (holds_of_range? captured) same).range?.trans captured

/-- A declaration of the earlier arena may change. -/
theorem updateDecl
    {decl : DeclId}
    (stored : base.Holds (.decl decl))
    (change : Decl → Decl) :
    Unfolds base arena (arena.updateDecl decl change) := by
  refine of_reads (holds_updateDecl change _).mpr fun _ new =>
    reads_updateDecl ?_ change
  rintro rfl
  exact new stored

end Unfolds

/-- Terms that are tidy in the later arena were so in the earlier one. -/
def Carries (tokens : Tokens) (older newer : Arena) : Prop :=
  ∀ root, older.Holds root → newer.Tidy .empty tokens root →
    older.Tidy .empty tokens root

namespace Carries

theorem refl (tokens : Tokens) (arena : Arena) : Carries tokens arena arena :=
  fun _ _ tidy => tidy

theorem trans
    (holds : ∀ {term}, older.Holds term → middle.Holds term)
    (first : Carries tokens older middle)
    (second : Carries tokens middle newer) :
    Carries tokens older newer :=
  fun root held tidy => first root held (second root (holds held) tidy)

theorem of_unfolds (unfolds : Unfolds .empty older newer) :
    Carries tokens older newer :=
  fun _ _ tidy => unfolds.tidy tidy

theorem of_extends (extended : older.Extends newer) :
    Carries tokens older newer :=
  of_unfolds (.of_extends extended)

end Carries

/-- Nothing is stored in the empty arena. -/
theorem not_holds_empty (term : Term) : ¬ Arena.empty.Holds term := by
  cases term <;> exact Nat.not_lt_zero _

/-- A declaration may change as long as it owns what it owned. -/
theorem Carries.updateDecl
    {decl : DeclId}
    {change : Decl → Decl}
    (stored : arena.Holds (.decl decl))
    (owned : ∀ term ∈ arena.children (.decl decl),
      term ∈ (arena.updateDecl decl change).children (.decl decl)) :
    Carries tokens arena (arena.updateDecl decl change) := by
  have holds {term : Term} : (arena.updateDecl decl change).Holds term ↔
      arena.Holds term :=
    holds_updateDecl change term
  refine of_unfolds
    (.of_slot holds.mpr (fun _ apart => reads_updateDecl apart change) rfl
    fun term listed => ?_)
  exact .child .self (holds.mpr stored) (not_holds_empty _) (owned term listed)

/--
What a range of tokens was parsed to is reached from the slot that it has moved
to.
-/
private theorem Shifts.reaches_of
    {slot parsed : Term}
    (extended : older.Extends middle)
    (stored : older.Holds slot)
    (shifts : middle.Shifts newer slot parsed)
    (reached : middle.Reaches older parsed term) :
    term = parsed ∨ newer.Reaches .empty slot term := by
  induction reached with
  | self => exact .inl rfl
  | @child owner term _ held new owned inductionHypothesis =>
      refine .inr ?_
      by_cases moved : owner = parsed
      · rw [moved, ← shifts.filled.1] at owned
        exact .child .self ((shifts.holds slot).mpr (extended.holds stored))
          (not_holds_empty _) owned
      · have apart : owner ≠ slot := fun same => new (same ▸ stored)
        rw [← (shifts.reads owner apart moved).children] at owned
        exact .child (inductionHypothesis.resolve_left moved)
          ((shifts.holds owner).mpr held)
          (not_holds_empty _) owned

/--
A range of tokens has been parsed: it balances if what it was parsed to is tidy.
A range owns nothing, so no way that leads somewhere leads through its slot.
-/
theorem Carries.of_shifts
    {slot parsed : Term}
    (extended : older.Extends middle)
    (captured : older.range? slot = some range)
    (fresh : ¬ older.Holds parsed)
    (shifts : middle.Shifts newer slot parsed)
    (filled : newer.range? slot = middle.range? parsed)
    (balances : middle.Tidy older tokens parsed → tokens.Balances range) :
    Carries tokens older newer := by
  intro root _ tidy
  have stored := holds_of_range? captured
  have reads {term : Term} (held : older.Holds term) (other : term ≠ slot) :
      older.Reads newer term :=
    (extended.reads held).trans (shifts.reads term other fun same =>
      fresh (same ▸ held))
  have onward {term : Term} (reached : older.Reaches .empty root term) :
      newer.Reaches .empty root term := by
    induction reached with
    | self => exact .self
    | @child owner term _ held new owned inductionHypothesis =>
        have other : owner ≠ slot := by
          rintro rfl
          rw [(unparsed_of_range? captured).2] at owned
          cases owned
        refine .child inductionHypothesis
          ((shifts.holds owner).mpr (extended.holds held)) new ?_
        rwa [(reads held other).children]
  intro term other reached new found
  by_cases same : term = slot
  · subst same
    obtain rfl : range = other := Option.some.inj (captured.symm.trans found)
    refine balances fun inner innerRange innerReached innerNew innerCaptured =>
      ?_
    by_cases moved : inner = parsed
    · refine tidy term innerRange (onward reached) new (filled.trans ?_)
      exact moved ▸ innerCaptured
    · have apart : inner ≠ term := fun same => innerNew (same ▸ stored)
      have inside :=
        (shifts.reaches_of extended stored innerReached).resolve_left moved
      exact tidy inner innerRange ((onward reached).trans inside)
        (not_holds_empty _)
        ((shifts.reads inner apart moved).range?.trans innerCaptured)
  · exact tidy term other (onward reached) new
      ((reads (holds_of_range? found) same).range?.trans found)

end Arena

end Tern
