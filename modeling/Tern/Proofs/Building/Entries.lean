import Tern.Proofs.Building.Callables
import Tern.Proofs.Grammar.Reparsing

namespace Tern

/-!
# What entry points build

Fragments, compilation units and the nonterminals that go on with no term parsed
before build wherever a parser stands in a stored scope. They need no more than
the right to bind in that scope.
-/

/-- A nonterminal goes on with no term that was parsed before. -/
def Nonterminal.standsAlone {Value : Type} : Nonterminal Value → Bool
  | .typeSuffixes _ _ => false
  | .operations _ _ => false
  | .postfixes _ _ => false
  | _ => true

namespace Fragment

variable {Value : Type}

/-- The pieces that a fragment takes. -/
def needs (scope : ScopeId) (start : Nat) : Fragment Value → Stock
  | .type => 0
  | .expression => 0
  | .body => {.binder scope start}
  | .members => {.binder scope start}

end Fragment

namespace Builds

variable {Value : Type} {order : Order} {input : ParserInput} {scope : ScopeId}
  {facts : List Piece} {pre : Stock} {start : Nat}
    {post : Nat → Value → Stock → Prop}

/-- A parser made of the rules builds what it does for all rules that build. -/
private theorem withRules
    {parser : Rules → Parser Value}
    (reads : order.Reads input)
    (builds : ∀ rules : Rules, rules.Build order input →
      Builds order input scope facts pre start (parser rules) post) :
    Builds order input scope facts pre start (Parser.withRules parser) post :=
  next (observe _) fun _ => builds _ (Rules.nested_build reads _)

/-- Whether all tokens are read is of no account to the term that is given. -/
private theorem toEnd
    {parser : Parser Value}
    {term : Value → Term}
    (builds : Builds order input scope facts pre start parser (gives term)) :
    Builds order input scope facts pre start (Parser.toEnd parser)
      (gives term) :=
  bind (add_zero pre).symm builds fun value _ _ _ same =>
    next (observe _) fun _ =>
    ite (fun _ => pure fun _ _ => by rw [add_zero]; exact same) fun _ =>
      next (observe _) fun _ => failAt _ _

end Builds

section

variable {Value : Type} {order : Order} {input : ParserInput} {scope : ScopeId}
  {facts : List Piece} {start : Nat} (reads : order.Reads input)
    (room : .room scope ∈ facts)

include reads room

/-- A captured fragment builds the term that it is parsed to. -/
theorem Fragment.builds (fragment : Fragment Value) :
    Builds order input scope facts (fragment.needs scope start) start
      fragment.captured
      (gives fragment.term) := by
  rw [captured_eq]
  refine .toEnd (.withRules reads fun rules build => ?_)
  cases fragment with
  | type => exact build.type room
  | expression => exact build.expression room
  | body => exact build.currentBlock room
  | members => exact build.memberBody room

/-- A nonterminal builds the term that it is parsed to. -/
theorem Nonterminal.builds (nonterminal : Nonterminal Value) :
    Builds order input scope facts (nonterminal.needs scope start) start
      (Parser.parse nonterminal) (nonterminal.Gives scope start) :=
  .withRules reads fun _ build => build.parse nonterminal start room

/-- A compilation unit is built on top of its statements. -/
theorem Builds.unit :
    Builds order input scope facts {.binder scope start} start Parser.unit
      nothing := by
  refine .withRules reads fun rules build => .next (.observe _) fun _ => ?_
  rw [← add_zero {Piece.binder scope start}]
  refine .bind (zero_add _).symm .currentScope ?_
  rintro _ later _ onward ⟨rfl, rfl⟩
  rw [zero_add]
  refine build.binding room .unitStatements rfl onward ?_
  rintro stmts last _ - rfl
  rw [add_zero]
  exact .drop (.next (.observe _) fun _ => .addUnit rfl room)

end

/--
A parser that has to read all tokens is composed of steps if it is so otherwise.
-/
private theorem Composed.toEnd
    {own : List DeclId}
    {Value : Type}
    {parser : Parser Value}
    (composed : Composed own parser) :
    Composed own (Parser.toEnd parser) := by
  refine .bind composed fun _ => .bind .atEnd fun _ => ?_
  split
  · exact .pure _
  · exact .bind .current fun _ => .failAt _ _

theorem Fragment.composed {Value : Type} (fragment : Fragment Value) :
    Composed [] fragment.captured := by
  rw [captured_eq]
  exact .toEnd (.bind .remaining fun _ =>
    (fragment.production false).composed (Rules.nested_allComposed _))

theorem Composed.unit : Composed [] Parser.unit :=
  .bind .remaining fun depth =>
    have production :
        Production (Fragment.place false) (fun _ => false) Rules.unit :=
      .unit rfl (by decide)
    production.composed (Rules.nested_allComposed _)

/--
A term at hand behind a step that is no declaration was at hand before, or was
not stored.
-/
private theorem BuildStep.new
    {order : Order}
    {before after : Worksite}
    (step : BuildStep order before after)
    {term : Term}
    (inline : ∀ decl, term ≠ .decl decl)
    (given : Piece.term term ∈ after.stock) :
    Piece.term term ∈ before.stock ∨ ¬ before.arena.Holds term := by
  cases step with
  | add adds spelled warranted =>
      rcases Multiset.mem_add.mp given with new | old
      · obtain ⟨same, -⟩ | ⟨name, key, -, other, -⟩ := Worksite.mem_loose new
        · exact .inr (Piece.term.inj same ▸ adds.new)
        · cases other
      · exact .inl (Multiset.mem_add.mpr (.inr old))
  | @mint arena table saved rest span =>
      rcases Worksite.mem_of_mintName span given with same | same |
          ⟨_, _, same⟩ | old
      · cases same
      · have adds : arena.Adds _ _ := .placeholder span
        exact .inr (Piece.term.inj same ▸ adds.new)
      · cases same
      · exact .inl old
  | complete located named starts rests =>
      rcases Multiset.mem_cons.mp given with same | old
      · exact absurd (Piece.term.inj same) (inline _)
      · exact .inl (by simp [old])
  | dub named entitled plain starts =>
      have old := (Multiset.mem_cons.mp given).resolve_left fun same =>
        inline _ (Piece.term.inj same)
      exact .inl (by simpa using .inr (.inr (by simpa using old)))
  | relax onward stock => exact .inl (by simpa [stock] using given)
  | doze saved rising before stock => exact .inl (by simp_all)
  | _ => exact .inl (by simpa using given)

/-- So it is behind any number of steps. -/
theorem BuildSteps.new
    {order : Order}
    {before after : Worksite}
    (steps : BuildSteps order before after)
    (sound : before.Sound)
    {term : Term}
    (inline : ∀ decl, term ≠ .decl decl)
    (given : Piece.term term ∈ after.stock) :
    Piece.term term ∈ before.stock ∨ ¬ before.arena.Holds term := by
  induction steps with
  | refl => exact .inl given
  | tail steps step inductionHypothesis =>
      rcases step.new inline given with old | new
      · exact inductionHypothesis old
      · exact .inr fun held => new ((BuildSteps.sound steps sound).1.held held)

/--
What a parser is done with is a statement list of a role, which it added last.
-/
def Parser.AddsList (role : ListRole) (parser : Parser StmtId) : Prop :=
  ∀ (input : ParserInput) (state : ParserState) (stmt : StmtId) (after :
    ParserState),
    parser input state = .done stmt after → after.arena.Holds (.stmt stmt) ∧
      ∃ stmts scope, (after.arena.stmt stmt).form = .list role stmts scope

namespace Parser.AddsList

variable {First : Type} {role : ListRole}

private theorem behind
    {parser : Parser First}
    {next : First → Parser StmtId}
    (rest : ∀ value, AddsList role (next value)) :
    AddsList role (parser >>= next) := by
  intro input state stmt after run
  obtain ⟨value, middle, -, finish⟩ := done_of_bind run
  exact rest value _ _ _ _ finish

private theorem addStmt (stmts : List StmtId) (scope : ScopeId) (span : Span) :
    AddsList role (Parser.addStmt (.list role stmts scope) span) := by
  rintro input state stmt after ⟨⟩
  refine ⟨by simp [Arena.Holds, Arena.addStmt], stmts, scope, ?_⟩
  simp only [Arena.stmt_addStmt]

private theorem toEnd
    {parser : Parser StmtId}
    (adds : AddsList role parser) :
    AddsList role (Parser.toEnd parser) := by
  intro input state stmt after run
  obtain ⟨value, middle, first, finish⟩ := done_of_bind run
  obtain ⟨ended, last, reads, finish⟩ := done_of_bind finish
  cases reads
  split at finish
  · cases finish
    exact adds _ _ _ _ first
  · cases finish

theorem unit : AddsList .unit Parser.unit :=
  behind fun _ => behind fun _ => behind fun _ => behind fun _ =>
    behind fun _ => addStmt _ _ _

theorem bodyFragment : AddsList .block Parser.bodyFragment :=
  toEnd (behind fun _ => behind fun _ => behind fun _ => behind fun _ =>
    behind fun _ =>
    behind fun _ => addStmt _ _ _)

theorem memberFragment : AddsList .members Parser.memberFragment :=
  toEnd (behind fun _ => behind fun _ => behind fun _ => behind fun _ =>
    behind fun _ =>
    behind fun _ => addStmt _ _ _)

end Parser.AddsList

end Tern
