import Tern.Proofs.Building.Primitives

namespace Tern

/-!
# Adding terms

A term is added on top of the pieces that its parts are, and is a piece itself
then. The declarations that it mentions have to be bound already, and the scope
that it keeps has to be there.
-/

namespace Builds

variable {Value First : Type} {order : Order} {input : ParserInput}
  {scope : ScopeId}
  {facts : List Piece} {pre kept : Stock} {start : Nat}
    {post : Nat → Value → Stock → Prop}

/--
A term is added on top of the pieces of what it owns, and may then be noted.
-/
private theorem added
    {change : Arena → Value × Arena}
    (term : Value → Term)
    (kept : Stock)
    (adds : ∀ arena : Arena,
      arena.Adds (term (change arena).1) (change arena).2)
    (spelled : ∀ arena : Arena, (change arena).2.Spells (term (change arena).1))
    (children : ∀ arena : Arena,
      pre = Piece.terms ((change arena).2.children (term (change arena).1)) +
        kept)
    (warranted : ∀ (arena : Arena) (stock : Stock),
      (∀ fact ∈ facts, fact ∈ stock) →
      stock.Warrants order (change arena).2 (term (change arena).1))
    (given : ∀ (state : ParserState) (rest : Stock), start ≤ state.position →
      (∀ fact ∈ facts, fact ∈ rest) →
        ∃ out, post state.position (change state.arena).1 out ∧
        BuildSteps order
          (ParserState.site { state with arena := (change state.arena).2 }
            ((change state.arena).2.loose (term (change state.arena).1) + kept +
              rest))
          (ParserState.site { state with arena := (change state.arena).2 }
            (out + rest))) :
    Builds order input scope facts pre start (Parser.inArena change) post :=
  of_done fun state rest stands known _ => by
    obtain ⟨out, gives, notes⟩ := given state rest stands.onward known
    refine ⟨_, _, out, rfl, { stands with onward := Nat.le_refl _ }, fun _ =>
      rfl, gives,
      .head ?_ notes⟩
    rw [children state.arena, add_assoc, add_assoc]
    exact .add (adds state.arena) (spelled state.arena)
        (warranted state.arena (kept + rest) fun fact listed =>
      Multiset.mem_add.mpr (.inr (known fact listed)))

/-- What a term that is no name is at hand as. -/
theorem loose_eq
    {arena : Arena}
    (term : Term)
    (plain : arena.isUnit term = false)
    (other : ∀ name, term ≠ .name name) :
    arena.loose term = {.term term} := by
  cases term with
  | name name => exact absurd rfl (other name)
  | _ => simp [Arena.loose, plain]

/-- What a name is at hand as, by whether it has a key of its own. -/
theorem loose_name
    {arena : Arena}
    {name : NameId}
    {key? : Option Key}
    (keyed : (arena.name name).form.key? = key?) :
    arena.loose (.name name) = {.term (.name name)} +
      Piece.naming name key? := by
  simp only [Arena.loose, keyed, Multiset.singleton_add]

/-- The pieces at hand may be put in another order. -/
theorem regroup
    {arena : Arena}
    {table : ScopeTable}
    {saved : List (DeclId × ScopeId)}
    {first second : Stock}
    (same : first = second) :
    BuildSteps order
      { arena := arena, table := table, saved := saved, stock := first }
      { arena := arena, table := table, saved := saved, stock := second } :=
  same ▸ .refl

/-- A note is taken of what is at hand. -/
private theorem noted
    {arena : Arena}
    {table : ScopeTable}
    {saved : List (DeclId × ScopeId)}
    {note : Piece}
    {held rest : Stock}
    (step : BuildStep order
      { arena := arena, table := table, saved := saved, stock := held + rest }
      { arena := arena, table := table, saved := saved,
        stock := note ::ₘ (held + rest) }) :
    BuildSteps order
      { arena := arena, table := table, saved := saved, stock := held + rest }
      { arena := arena, table := table, saved := saved, stock := held + {note} +
        rest } := by
  refine .head step (regroup ?_)
  rw [← Multiset.singleton_add]
  abel

/-- A simple name is added. -/
theorem addSimple (name : Name) (span : Span) :
    Builds order input scope facts 0 start (Parser.addName (.simple name) span)
      fun _ id out =>
        out = {.term (.name id)} + {.named id (.simple name) true} := by
  have found (arena : Arena) := arena.name_addName (.simple name) span
  refine added Term.name 0 (fun arena => .name _ span)
    (fun arena number => by simp [found])
    (fun arena => by simp [Arena.children, found, NameForm.children])
    (fun arena stock known =>
      ⟨by rintro _ ⟨⟩,
        by simp [Arena.template?, found, NameForm.template?],
        by rintro _ ⟨⟩,
        by rintro _ ⟨⟩,
        fun _ _ _ => Term.noConfusion⟩)
    fun state rest _ known => ⟨_, rfl, ?_⟩
  rw [loose_name (congrArg (fun node => node.form.key?) (found state.arena)),
    add_zero]
  exact .refl

/-- A name is minted, and is not spent on a declaration. -/
theorem addPlaceholder (span : Span) :
    Builds order input scope facts 0 start
      (Parser.inArena fun arena => arena.addPlaceholder span)
      fun _ id out => ∃ number, out =
        {.term (.name id)} +
          ({.named id (.placeholder number) true} + {.unspent id}) :=
  of_done fun state rest stands _ _ => by
    have keyed : ((state.arena.addPlaceholder span).2.name
        (state.arena.addPlaceholder span).1).form.key? =
          some (.placeholder state.arena.placeholders) :=
      congrArg (fun node => node.form.key?) (Arena.name_addName _ _ _)
    refine ⟨_, _, _, rfl, { stands with onward := Nat.le_refl _ }, fun _ => rfl,
      ⟨state.arena.placeholders, rfl⟩, .head (.mint span) (regroup ?_)⟩
    simp only [loose_name keyed, Piece.naming, ← Multiset.singleton_add]
    abel

/-- A name that applies a declaration has the key under which that is bound. -/
theorem addApplied
    {template : DeclId}
    {region : ScopeId}
    {key : Key}
    {args : List TemplateArg}
    {span : Span}
    (children : pre = Piece.terms (args.map TemplateArg.term))
    (bound : .bound template region key ∈ facts) :
    Builds order input scope facts pre start
      (Parser.addName (.applied template args) span)
      fun _ id out => out = {.term (.name id)} + {.named id key false} := by
  have found (arena : Arena) := arena.name_addName (.applied template args) span
  refine added Term.name 0 (fun arena => .name _ span)
    (fun arena number => by simp [found])
    (fun arena => ?_) (fun arena stock known => ?_) fun state rest _ known =>
      ⟨_, rfl, ?_⟩
  · rw [Arena.children, found, add_zero]
    exact children
  · refine ⟨by rintro _ ⟨⟩, fun other applied =>
      ?_, by rintro _ ⟨⟩, by rintro _ ⟨⟩,
      fun _ _ _ => Term.noConfusion⟩
    rw [Arena.template?, found] at applied
    obtain rfl := Option.some.inj applied
    exact ⟨region, key, known _ bound⟩
  · rw [loose_name (congrArg (fun node => node.form.key?) (found state.arena))]
    simp only [NameForm.key?, Piece.naming, add_zero]
    refine noted (.noteApplied ((Arena.Adds.name _ span).holds.mpr (.inr rfl))
      (by rw [found]; rfl) (Multiset.mem_add.mpr (.inr (known _ bound))))

/--
What a type mentions is bound under the key of the name it is mentioned by.
-/
theorem addType
    {form : TypeForm}
    {span : Span}
    (children : pre = Piece.terms form.children)
    (mentions : ∀ mention ∈ form.mentions, ∃ key plain region,
      .named mention.1 key plain ∈ facts ∧ .bound mention.2 region key ∈
        facts) :
    Builds order input scope facts pre start (Parser.addType form span)
      (gives .type) := by
  refine added Term.type 0 (fun arena => .type form span) (fun _ => trivial)
    (fun arena => ?_)
    (fun arena stock known => ?_) fun state rest _ known => ⟨_, rfl, ?_⟩
  · simpa only [Arena.children, arena.type_addType, add_zero] using children
  · refine ⟨fun mention listed =>
      ?_, by rintro _ ⟨⟩, by rintro _ ⟨⟩, by rintro _ ⟨⟩,
      fun _ _ _ => Term.noConfusion⟩
    rw [Arena.mentions, arena.type_addType] at listed
    obtain ⟨key, plain, region, named, bound⟩ := mentions mention listed
    exact ⟨key, plain, region, known _ named, known _ bound⟩
  · rw [loose_eq (.type _) rfl fun _ => Term.noConfusion, add_zero]

/--
What an expression mentions is bound under the key of its name, and its scope is
there.
-/
theorem addExpr
    {form : ExprForm}
    {span : Span}
    (children : pre = Piece.terms form.children)
    (mentions : ∀ mention ∈ form.mentions, ∃ key plain region,
      .named mention.1 key plain ∈ facts ∧ .bound mention.2 region key ∈ facts)
    (room : ∀ region ∈ form.scope?, .room region ∈ facts) :
    Builds order input scope facts pre start (Parser.addExpr form span)
      (gives .expr) := by
  refine added Term.expr 0 (fun arena => .expr form span) (fun _ => trivial)
    (fun arena => ?_)
    (fun arena stock known => ?_) fun state rest _ known => ⟨_, rfl, ?_⟩
  · simpa only [Arena.children, arena.expr_addExpr, add_zero] using children
  · refine ⟨fun mention listed => ?_, by rintro _ ⟨⟩, fun region kept => ?_,
      by rintro _ ⟨⟩, fun _ _ _ => Term.noConfusion⟩
    · rw [Arena.mentions, arena.expr_addExpr] at listed
      obtain ⟨key, plain, region, named, bound⟩ := mentions mention listed
      exact ⟨key, plain, region, known _ named, known _ bound⟩
    · rw [Arena.scope?, arena.expr_addExpr] at kept
      exact known _ (room region kept)
  · rw [loose_eq (.expr _) rfl fun _ => Term.noConfusion, add_zero]

/-- A requirement is added. -/
theorem addRequirement
    {form : ReqForm}
    {span : Span}
    (children : pre = Piece.terms form.children) :
    Builds order input scope facts pre start (Parser.addRequirement form span)
      (gives .requirement) := by
  refine added Term.requirement 0 (fun arena => .requirement form span)
    (fun _ => trivial) (fun arena => ?_)
    (fun arena stock known =>
      ⟨by rintro _ ⟨⟩, by rintro _ ⟨⟩, by rintro _ ⟨⟩, by rintro _ ⟨⟩,
      fun _ _ _ => Term.noConfusion⟩)
    fun state rest _ known => ⟨_, rfl, ?_⟩
  · simpa only [Arena.children, arena.requirement_addRequirement, add_zero]
      using children
  · rw [loose_eq (.requirement _) rfl fun _ => Term.noConfusion, add_zero]

/--
The scope of a statement is there, and the declaration that it holds is bound.
-/
private theorem addAnyStmt
    {form : StmtForm}
    {span : Span}
    (children : pre = Piece.terms form.children)
    (room : ∀ region ∈ form.scope?, .room region ∈ facts)
    (declared : ∀ decl ∈ form.declared?, ∃ region key, .bound decl region key ∈
      facts)
    (inline : order.kept → order.eager → form.isUnparsed = false) :
    Builds order input scope facts pre start
        (Parser.addStmt form span) fun _ stmt out =>
      out = if form.isUnit then 0 else {.term (.stmt stmt)} := by
  refine added Term.stmt 0 (fun arena => .stmt form span) (fun _ => trivial)
    (fun arena => ?_)
    (fun arena stock known => ?_) fun state rest _ known => ⟨_, rfl, ?_⟩
  · simpa only [Arena.children, arena.stmt_addStmt, add_zero] using children
  · refine ⟨by rintro _ ⟨⟩, by rintro _ ⟨⟩, fun region kept =>
      ?_, fun decl held => ?_,
      fun ordered eager stmt same => ?_⟩
    · rw [Arena.scope?, arena.stmt_addStmt] at kept
      exact known _ (room region kept)
    · rw [Arena.declared?, arena.stmt_addStmt] at held
      obtain ⟨region, key, bound⟩ := declared decl held
      exact ⟨region, key, known _ bound⟩
    · obtain rfl := Term.stmt.inj same
      rw [arena.stmt_addStmt]
      exact inline ordered eager
  · simp only [Arena.loose, Arena.isUnit, Arena.stmt_addStmt, add_zero]
    exact .refl

/-- A statement that is no whole unit is at hand as soon as it is added. -/
theorem addStmt
    {form : StmtForm}
    {span : Span}
    (children : pre = Piece.terms form.children)
    (room : ∀ region ∈ form.scope?, .room region ∈ facts)
    (declared : ∀ decl ∈ form.declared?, ∃ region key, .bound decl region key ∈
      facts)
    (parsed : form.isUnparsed = false)
    (part : form.isUnit = false) :
    Builds order input scope facts pre start (Parser.addStmt form span)
      (gives .stmt) :=
  (addAnyStmt children room declared fun _ _ => parsed).weaken
    fun _ _ _ _ same => by
    rwa [part] at same

/-- A whole unit is at hand for nobody. -/
theorem addUnit
    {stmts : List StmtId}
    {region : ScopeId}
    {span : Span}
    (children : pre = Piece.terms (stmts.map .stmt))
    (room : .room region ∈ facts) :
    Builds order input scope facts pre start
      (Parser.addStmt (.list .unit stmts region) span)
      nothing :=
  addAnyStmt children (by rintro _ ⟨⟩; exact room) (by rintro _ ⟨⟩) fun _ _ =>
    rfl

/-- A captured body begins where its range does. -/
theorem addCapturedStmt
    {range : TokenRange}
    {span : Span}
    (deferred : order.kept → ¬ order.eager) :
    Builds order input scope facts 0 start
      (Parser.addStmt (.unparsed range) span)
      fun _ stmt out => out = {.term (.stmt stmt)} +
          {.opens (.stmt stmt) (some range.start)} := by
  refine added Term.stmt 0 (fun arena => .stmt _ span) (fun _ => trivial)
    (fun arena => ?_)
    (fun arena stock known => ?_) fun state rest _ known => ⟨_, rfl, ?_⟩
  · simp [Arena.children, arena.stmt_addStmt, StmtForm.children]
  · exact ⟨by rintro _ ⟨⟩, by rintro _ ⟨⟩,
      by simp [Arena.scope?, arena.stmt_addStmt, StmtForm.scope?],
      by simp [Arena.declared?, arena.stmt_addStmt, StmtForm.declared?],
      fun ordered eager => absurd eager (deferred ordered)⟩
  · have found := state.arena.stmt_addStmt (.unparsed range) span
    rw [loose_eq (.stmt _) (by rw [Arena.isUnit, found]; rfl) fun _ =>
      Term.noConfusion, add_zero]
    have held : (state.arena.addStmt (.unparsed range) span).2.Holds
        (.stmt (state.arena.addStmt (.unparsed range) span).1) :=
      (Arena.Adds.stmt _ span).holds.mpr (.inr rfl)
    refine noted (.noteOpens held fun other same => ?_)
    rw [found] at same
    obtain rfl := StmtForm.unparsed.inj same
    exact ⟨_, rfl, Nat.le_refl _⟩

/--
Where bodies are captured, it is noted of a definition where its body begins.
-/
theorem addDefinition
    {form : DefForm}
    {span : Span}
    (place? : Option Nat)
    (children : pre = Piece.terms form.children)
    (opens : order.kept → ¬ order.eager → ∀ stmt, form.block? = some stmt →
      .opens (.stmt stmt) place? ∈ facts) :
    Builds order input scope facts pre start (Parser.addDefinition form span)
      fun _ definition out => ∃ notes : List Piece, out =
        {.term (.definition definition)} + ↑notes ∧
        (order.kept → ¬ order.eager → .opens (.definition definition) place? ∈
          notes) := by
  refine added Term.definition 0 (fun arena => .definition form span)
    (fun _ => trivial) (fun arena => ?_)
    (fun arena stock known =>
      ⟨by rintro _ ⟨⟩, by rintro _ ⟨⟩, by rintro _ ⟨⟩, by rintro _ ⟨⟩,
      fun _ _ _ => Term.noConfusion⟩)
    fun state rest _ known => ?_
  · simpa only [Arena.children, arena.definition_addDefinition, add_zero]
      using children
  · have found := state.arena.definition_addDefinition form span
    have held : (state.arena.addDefinition form span).2.Holds
        (.definition (state.arena.addDefinition form span).1) :=
      (Arena.Adds.definition _ span).holds.mpr (.inr rfl)
    rw [loose_eq (.definition _) rfl fun _ => Term.noConfusion, add_zero]
    by_cases captured : order.kept ∧ ¬ order.eager
    · refine ⟨_, ⟨[.opens (.definition _) place?], rfl, fun _ _ =>
        List.mem_singleton_self _⟩,
        noted ?_⟩
      cases block : form.block? with
      | none =>
          refine .noteOpens held fun stmt body => ?_
          rw [found, block] at body
          cases body
      | some stmt =>
          refine .noteBody held (by rw [found, block]) ?_
          exact Multiset.mem_add.mpr
            (.inr (known _ (opens captured.1 captured.2 stmt block)))
    · refine ⟨_, ⟨[], rfl, fun ordered deferred =>
        absurd ⟨ordered, deferred⟩ captured⟩, ?_⟩
      rw [Multiset.coe_nil, add_zero]

end Builds

end Tern
