import Tern.Elaboration.DeclaredTypes
import Tern.Proofs.Building.Entries
import Tern.Proofs.Grammar.Entries

namespace Tern

/-!
# The frame of elaboration

Elaboration leaves most of what was parsed as it was. Here it is said slot by
slot what may have become of a term: a range of tokens is parsed, a type to be
inferred for a parameter is a type parameter, a declaration is wrapped in a
template, a template has got more parameters, and a declaration is further
elaborated. Nothing else changes, and one run may follow another.
-/

/-- A node is what a fragment captured as a range of tokens is parsed to. -/
def ElabInput.Parses
    {Value Node : Type}
    (input : ElabInput)
    (fragment : Fragment Value)
    (read : Arena → Value → Node) (range : TokenRange) (node : Node) : Prop :=
  ∃ (scopes : Scopes) (arena : Arena) (value : Value) (after : ParserState),
    fragment.captured
        { window := .ofRange input.tokens range, names := input.names,
          mode := input.options.mode }
        (.start (.ofRange input.tokens range) scopes arena) =
          .done value after ∧
      node = read after.arena value

namespace Arena

/-- A type is found in another one below references and qualifiers only. -/
inductive Below (arena : Arena) : TypeId → TypeId → Prop where
  | refl (type : TypeId) : Below arena type type
  | reference {outer inner slot : TypeId}
      (form : (arena.type outer).form = .wrapped .reference inner)
      (below : Below arena inner slot) : Below arena outer slot
  | qualified {outer inner slot : TypeId} {qualifiers : Qualifiers}
      (form : (arena.type outer).form = .wrapped (.qualified qualifiers) inner)
      (below : Below arena inner slot) : Below arena outer slot

/--
A type is found so in the type of a parameter of a function or a coroutine.
-/
structure BelowParam (arena : Arena) (slot : TypeId) : Prop where
  intro ::
  found : ∃ (decl : DeclId) (role : CallableRole) (params :
    List DeclId) (result : TypeId)
    (definition : DefId) (param : DeclId) (type : TypeId),
      (arena.decl decl).form = .callable role params result definition ∧
        param ∈ params ∧
        arena.Holds (.decl param) ∧ (arena.decl param).form = .parameter type ∧
          arena.Below type slot

/--
A type is found as deep in another one as long as the types around it stay.
-/
theorem Below.mono
    {older newer : Arena}
    (same : ∀ {type inner : TypeId} {wrapper : TypeWrapper},
      (older.type type).form = .wrapped wrapper inner → newer.type type =
        older.type type)
    {type slot : TypeId}
    (below : older.Below type slot) :
    newer.Below type slot := by
  induction below with
  | refl type => exact .refl type
  | reference form _ inductionHypothesis =>
      exact .reference (same form ▸ form) inductionHypothesis
  | qualified form _ inductionHypothesis =>
      exact .qualified (same form ▸ form) inductionHypothesis

/-- A declaration that is no parameter is stored. -/
theorem holds_of_form
    {arena : Arena}
    {decl : DeclId}
    {form : DeclForm}
    (found : (arena.decl decl).form = form)
    (plain : ∀ type, form ≠ .parameter type) :
    arena.Holds (.decl decl) := by
  by_contra missing
  have past : arena.decls.size ≤ decl.raw := Nat.le_of_not_lt missing
  refine plain .invalid (found.symm.trans ?_)
  simp [Arena.decl, Array.getD_eq_getD_getElem?, past, Vacant.decl]

/-- A type made of another one is stored. -/
theorem holds_of_wrapped
    {arena : Arena}
    {type inner : TypeId}
    {wrapper : TypeWrapper}
    (found : (arena.type type).form = .wrapped wrapper inner) :
    arena.Holds (.type type) := by
  by_contra missing
  have past : arena.types.size ≤ type.raw := Nat.le_of_not_lt missing
  simp [Arena.type, Array.getD_eq_getD_getElem?, past, Vacant.type] at found

/--
So it is in the type of a parameter as long as the declarations stay as well.
-/
theorem BelowParam.mono
    {older newer : Arena}
    (held : ∀ {term}, older.Holds term → newer.Holds term)
    (types : ∀ {type inner : TypeId} {wrapper : TypeWrapper},
      (older.type type).form = .wrapped wrapper inner → newer.type type =
        older.type type)
    (decls : ∀ {decl : DeclId}, older.Holds (.decl decl) →
      (older.decl decl).form.isTemplate = false →
        (newer.decl decl).form = (older.decl decl).form)
    {slot : TypeId}
    (below : older.BelowParam slot) :
    newer.BelowParam slot := by
  obtain ⟨decl, role, params, result, definition, param, type, callable, listed,
      stored, form,
    inside⟩ := below.found
  refine ⟨decl, role, params, result, definition, param, type, ?_, listed,
    held stored, ?_,
    inside.mono types⟩
  · exact (decls (holds_of_form callable nofun) (by rw [callable]; rfl)).trans
      callable
  · exact (decls stored (by rw [form]; rfl)).trans form

variable (input : ElabInput) (origin older newer : Arena)

/-- A type parameter was not there at first. -/
structure Minted (parm : DeclId) : Prop where
  fresh : ¬ origin.Holds (.decl parm)
  held : newer.Holds (.decl parm)
  form : ∃ index, (newer.decl parm).form = .typeParameter index none

/--
A template without a constraint is around a declaration; neither it nor its
parameters were there at first.
-/
structure Wraps (decl wrapper : DeclId) : Prop where
  fresh : ¬ origin.Holds (.decl wrapper)
  held : newer.Holds (.decl wrapper)
  name : (newer.decl wrapper).name = (newer.decl decl).name
  span : (newer.decl wrapper).span = (newer.decl decl).span
  scope : (newer.decl wrapper).scope = (newer.decl decl).scope
  form : ∃ parms, (newer.decl wrapper).form = .template parms none decl ∧
    ∀ parm ∈ parms, Minted origin newer parm

/-- What may have become of a type. -/
inductive TypeFramed (type : TypeId) : Prop where
  | same (same : newer.type type = older.type type)
  | /-- A range of tokens was parsed. -/
    parsed {range : TokenRange}
      (captured : (older.type type).form = .unparsed range)
      (parses : input.Parses .type Arena.type range (newer.type type))
  | /-- A type to be inferred for a parameter, which may have been parsed first,
      was minted. -/
    minted {node : Node TypeForm} {parm : DeclId} {name : NameId}
      (before : node = older.type type ∨ ∃ range, (older.type type).form =
        .unparsed range ∧
        input.Parses .type Arena.type range node)
      (inferred : node.form = .builtin .auto)
      (now : newer.type type =
        { form := .declared parm name, span := node.span })
      (new : Minted origin newer parm)
      (named : (newer.decl parm).name = name ∧ (newer.decl parm).span =
        node.span)
      (reached : newer.BelowParam type)

/-- What may have become of an expression. -/
inductive ExprFramed (expr : ExprId) : Prop where
  | same (same : newer.expr expr = older.expr expr)
  | /-- A range of tokens was parsed. -/
    parsed {range : TokenRange}
      (captured : (older.expr expr).form = .unparsed range)
      (parses : input.Parses .expression Arena.expr range (newer.expr expr))

/-- What may have become of a statement. -/
inductive StmtFramed (stmt : StmtId) : Prop where
  | same (same : newer.stmt stmt = older.stmt stmt)
  | /-- A range of tokens was parsed as a body, to a statement list. -/
    parsed {range : TokenRange} {fragment : Fragment StmtId}
      (block : fragment = .body ∨ fragment = .members)
      (captured : (older.stmt stmt).form = .unparsed range)
      (parses : input.Parses fragment Arena.stmt range (newer.stmt stmt))
  | /-- A function or a coroutine was wrapped in a template. -/
    wrapped {decl wrapper : DeclId} {role : CallableRole} {params : List DeclId}
      {result : TypeId} {definition : DefId}
      (form : (older.stmt stmt).form = .declaration decl)
      (callable : (newer.decl decl).form =
        .callable role params result definition)
      (now : newer.stmt stmt =
        { form := .declaration wrapper, span := (older.stmt stmt).span })
      (wraps : Wraps origin newer decl wrapper)

/-- What may have become of a declaration. -/
structure DeclFramed (decl : DeclId) : Prop where
  name : (newer.decl decl).name = (older.decl decl).name
  specifiers : (newer.decl decl).specifiers = (older.decl decl).specifiers
  span : (newer.decl decl).span = (older.decl decl).span
  scope : (newer.decl decl).scope = (older.decl decl).scope
  phase : (older.decl decl).phase.rank ≤ (newer.decl decl).phase.rank
  form : (newer.decl decl).form = (older.decl decl).form ∨
    ∃ parms constraint? inner more, (older.decl decl).form =
      .template parms constraint? inner ∧
      (newer.decl decl).form = .template (parms ++ more) constraint? inner ∧
        ∀ parm ∈ more, Minted origin newer parm

/-- What may have become of a term. -/
def TermFramed : Term → Prop
  | .name name => newer.name name = older.name name
  | .type type => TypeFramed input origin older newer type
  | .expr expr => ExprFramed input older newer expr
  | .stmt stmt => StmtFramed input origin older newer stmt
  | .decl decl => DeclFramed origin older newer decl
  | .definition definition => newer.definition definition =
      older.definition definition
  | .requirement requirement => newer.requirement requirement =
      older.requirement requirement

/--
Each term of an older arena is in a newer one as elaboration may have left it.
What elaboration itself adds was not in the arena that it began with.
-/
structure Framed : Prop where
  held : ∀ {term}, older.Holds term → newer.Holds term
  name : ∀ {name}, older.Holds (.name name) → newer.name name = older.name name
  type : ∀ {type}, older.Holds (.type type) →
    TypeFramed input origin older newer type
  expr : ∀ {expr}, older.Holds (.expr expr) → ExprFramed input older newer expr
  stmt : ∀ {stmt}, older.Holds (.stmt stmt) →
    StmtFramed input origin older newer stmt
  decl : ∀ {decl}, older.Holds (.decl decl) → DeclFramed origin older newer decl
  definition : ∀ {definition}, older.Holds (.definition definition) →
    newer.definition definition = older.definition definition
  requirement : ∀ {requirement}, older.Holds (.requirement requirement) →
    newer.requirement requirement = older.requirement requirement

end Arena

namespace ElabInput.Parses

variable {input : ElabInput} {range : TokenRange}

/-- A captured type is parsed to one that is no range of tokens. -/
private theorem type_form
    {node : Node TypeForm}
    (parses : input.Parses .type Arena.type range node)
    (other : TokenRange) :
    node.form ≠ .unparsed other := by
  obtain ⟨scopes, arena, type, after, run, rfl⟩ := parses
  have parsed :=
    Fragment.captured_parses .type input.tokens range input.names
      input.options.mode
    scopes arena
  rw [run] at parsed
  intro form
  simpa [Arena.isUnparsed, form, TypeForm.isUnparsed]
    using parsed.2.2.2.here.1.2

/-- A captured expression is parsed to one that is no range of tokens. -/
private theorem expr_form
    {node : Node ExprForm}
    (parses : input.Parses .expression Arena.expr range node)
    (other : TokenRange) :
    node.form ≠ .unparsed other := by
  obtain ⟨scopes, arena, expr, after, run, rfl⟩ := parses
  have parsed :=
    Fragment.captured_parses .expression input.tokens range input.names
    input.options.mode scopes arena
  rw [run] at parsed
  intro form
  simpa [Arena.isUnparsed, form, ExprForm.isUnparsed]
    using parsed.2.2.2.here.1.2

/-- A captured body is parsed to a statement list. -/
theorem stmt_form
    {fragment : Fragment StmtId}
    {node : Node StmtForm}
    (block : fragment = .body ∨ fragment = .members)
    (parses : input.Parses fragment Arena.stmt range node) :
    ∃ role stmts scope, node.form = .list role stmts scope := by
  obtain ⟨scopes, arena, stmt, after, run, rfl⟩ := parses
  rcases block with rfl | rfl
  · exact ⟨_, (Parser.AddsList.bodyFragment _ _ _ _ run).2⟩
  · exact ⟨_, (Parser.AddsList.memberFragment _ _ _ _ run).2⟩

end ElabInput.Parses

namespace Arena

variable {input : ElabInput} {origin older middle newer : Arena}

/-- A type made of another one stays so. -/
theorem TypeFramed.wrapped_eq
    {type inner : TypeId}
    {wrapper : TypeWrapper}
    (framed : TypeFramed input origin older newer type)
    (form : (older.type type).form = .wrapped wrapper inner) :
    newer.type type = older.type type := by
  cases framed with
  | same same => exact same
  | parsed captured _ => simp [form] at captured
  | minted before inferred _ _ _ _ =>
      rcases before with rfl | ⟨range, captured, _⟩
      · simp [form] at inferred
      · simp [form] at captured

/-- A term that reads the same is within the frame. -/
private theorem Reads.framed
    (input : ElabInput)
    (origin : Arena)
    {term : Term}
    (reads : older.Reads newer term) :
    TermFramed input origin older newer term := by
  cases term with
  | type type => exact .same reads
  | expr expr => exact .same reads
  | stmt stmt => exact .same reads
  | decl decl =>
      have same : newer.decl decl = older.decl decl := reads
      exact { name := by rw [same], specifiers := by rw [same],
              span := by rw [same]
              scope := by rw [same], phase := by rw [same], form :=
                .inl (by rw [same]) }
  | _ => exact reads

namespace Framed

/-- All terms are within the frame if each of them is. -/
private theorem of_terms
    (held : ∀ {term}, older.Holds term → newer.Holds term)
    (framed : ∀ {term}, older.Holds term →
      TermFramed input origin older newer term) :
    Framed input origin older newer where
  held := held
  name held := framed held
  type held := framed held
  expr held := framed held
  stmt held := framed held
  decl held := framed held
  definition held := framed held
  requirement held := framed held

/--
All terms are within the frame if one of them is and the others read the same.
-/
theorem of_slot
    {slot : Term}
    (held : ∀ {term}, older.Holds term → newer.Holds term)
    (reads : ∀ {term}, older.Holds term → term ≠ slot → older.Reads newer term)
    (framed : TermFramed input origin older newer slot) :
    Framed input origin older newer :=
  of_terms held fun {term} stored => by
    by_cases same : term = slot
    · exact same ▸ framed
    · exact (reads stored same).framed input origin

theorem refl (input : ElabInput) (origin arena : Arena) :
    Framed input origin arena arena :=
  of_terms id fun _ => (Reads.refl _ _).framed input origin

/-- Terms that are added change none that were there. -/
theorem of_extends
    (input : ElabInput)
    (origin : Arena)
    (extended : older.Extends newer) :
    Framed input origin older newer :=
  of_terms extended.holds fun stored =>
    (extended.reads stored).framed input origin

variable (first : Framed input origin older middle)
  (second : Framed input origin middle newer)

include second

theorem minted {parm : DeclId} (minted : origin.Minted middle parm) :
    origin.Minted newer parm where
  fresh := minted.fresh
  held := second.held minted.held
  form := by
    obtain ⟨index, form⟩ := minted.form
    rcases (second.decl minted.held).form with same |
        ⟨parms, constraint?, inner, more, template, -⟩
    · exact ⟨index, same.trans form⟩
    · rw [form] at template
      cases template

/-- A declaration that is no template has the form that it had. -/
theorem form_eq
    {decl : DeclId}
    (held : middle.Holds (.decl decl))
    (plain : (middle.decl decl).form.isTemplate = false) :
    (newer.decl decl).form = (middle.decl decl).form := by
  refine (second.decl held).form.resolve_right ?_
  rintro ⟨parms, constraint?, inner, more, template, -⟩
  rw [template] at plain
  cases plain

private theorem belowParam {slot : TypeId} (below : middle.BelowParam slot) :
    newer.BelowParam slot :=
  below.mono second.held
    (fun form => (second.type (holds_of_wrapped form)).wrapped_eq form)
      second.form_eq

private theorem wraps
    {decl wrapper : DeclId}
    (held : middle.Holds (.decl decl))
    (wraps : origin.Wraps middle decl wrapper) :
    origin.Wraps newer decl wrapper := by
  obtain ⟨parms, form, new⟩ := wraps.form
  have inner := second.decl held
  have after := second.decl wraps.held
  refine ⟨wraps.fresh, second.held wraps.held,
    after.name.trans (wraps.name.trans inner.name.symm),
    after.span.trans (wraps.span.trans inner.span.symm),
    after.scope.trans (wraps.scope.trans inner.scope.symm), ?_⟩
  rcases after.form with same |
      ⟨old, constraint?, inner, more, template, now, added⟩
  · exact ⟨parms, same.trans form, fun parm listed =>
      second.minted (new parm listed)⟩
  · rw [form] at template
    cases template
    refine ⟨_, now, fun parm listed => ?_⟩
    rcases List.mem_append.mp listed with old | last
    · exact second.minted (new parm old)
    · exact added parm last

include first

private theorem typeTrans {type : TypeId} (held : older.Holds (.type type)) :
    TypeFramed input origin older newer type := by
  have before := first.type held
  have after := second.type (first.held held)
  cases before with
  | same same =>
      cases after with
      | same sameNow => exact .same (sameNow.trans same)
      | parsed captured parses => exact .parsed (same ▸ captured) parses
      | minted before inferred now new named reached =>
          exact .minted (same ▸ before) inferred now new named reached
  | parsed captured parses =>
      cases after with
      | same sameNow => exact .parsed captured (sameNow ▸ parses)
      | parsed again _ => exact absurd again (parses.type_form _)
      | minted before inferred now new named reached =>
          rcases before with rfl | ⟨range, again, -⟩
          · exact .minted (.inr ⟨_, captured, parses⟩) inferred now new named
              reached
          · exact absurd again (parses.type_form _)
  | minted before inferred now new named reached =>
      cases after with
      | same sameNow =>
          obtain ⟨name, span⟩ := named
          have parm := second.decl new.held
          exact .minted before inferred (sameNow.trans now) (second.minted new)
            ⟨parm.name.trans name, parm.span.trans span⟩
              (second.belowParam reached)
      | parsed captured _ => simp [now] at captured
      | minted again inferredAgain _ _ _ _ =>
          rcases again with rfl | ⟨range, captured, -⟩
          · simp [now] at inferredAgain
          · simp [now] at captured

private theorem exprTrans {expr : ExprId} (held : older.Holds (.expr expr)) :
    ExprFramed input older newer expr := by
  have before := first.expr held
  have after := second.expr (first.held held)
  cases before with
  | same same =>
      cases after with
      | same sameNow => exact .same (sameNow.trans same)
      | parsed captured parses => exact .parsed (same ▸ captured) parses
  | parsed captured parses =>
      cases after with
      | same sameNow => exact .parsed captured (sameNow ▸ parses)
      | parsed again _ => exact absurd again (parses.expr_form _)

private theorem stmtTrans {stmt : StmtId} (held : older.Holds (.stmt stmt)) :
    StmtFramed input origin older newer stmt := by
  have before := first.stmt held
  have after := second.stmt (first.held held)
  cases before with
  | same same =>
      cases after with
      | same sameNow => exact .same (sameNow.trans same)
      | parsed block captured parses =>
          exact .parsed block (same ▸ captured) parses
      | wrapped form callable now wraps =>
          exact .wrapped (same ▸ form) callable (same ▸ now) wraps
  | parsed block captured parses =>
      obtain ⟨role, stmts, scope, list⟩ := parses.stmt_form block
      cases after with
      | same sameNow => exact .parsed block captured (sameNow ▸ parses)
      | parsed _ again _ => simp [list] at again
      | wrapped form _ _ _ => simp [list] at form
  | wrapped form callable now wraps =>
      cases after with
      | same sameNow =>
          have held := holds_of_form callable nofun
          have kept := second.form_eq held (by rw [callable]; rfl)
          exact .wrapped form (kept.trans callable) (sameNow.trans now)
            (second.wraps held wraps)
      | parsed _ captured _ => simp [now] at captured
      | wrapped again callableNow _ _ =>
          obtain ⟨parms, template, -⟩ :=
            (second.wraps (holds_of_form callable nofun) wraps).form
          obtain rfl :=
            StmtForm.declaration.inj ((congrArg Node.form now).symm.trans again)
          simp [template] at callableNow

private theorem declTrans {decl : DeclId} (held : older.Holds (.decl decl)) :
    DeclFramed origin older newer decl := by
  have before := first.decl held
  have after := second.decl (first.held held)
  refine ⟨after.name.trans before.name,
    after.specifiers.trans before.specifiers,
    after.span.trans before.span, after.scope.trans before.scope,
    Nat.le_trans before.phase after.phase, ?_⟩
  rcases before.form with same |
      ⟨parms, constraint?, inner, more, template, now, new⟩
  · rcases after.form with sameNow |
        ⟨parms, constraint?, inner, more, template, now, new⟩
    · exact .inl (sameNow.trans same)
    · exact .inr ⟨parms, constraint?, inner, more, same ▸ template, now, new⟩
  · rcases after.form with sameNow |
        ⟨_, _, _, further, templateNow, nowLater, newLater⟩
    · exact .inr ⟨parms, constraint?, inner, more, template,
          sameNow.trans now, fun parm listed =>
        second.minted (new parm listed)⟩
    · rw [now] at templateNow
      cases templateNow
      refine .inr ⟨parms, constraint?, inner, more ++ further, template, ?_,
        fun parm listed => ?_⟩
      · rw [nowLater, List.append_assoc]
      · rcases List.mem_append.mp listed with old | last
        · exact second.minted (new parm old)
        · exact newLater parm last

/--
What may become of the terms of an arena in two runs may become of them in one.
-/
theorem trans : Framed input origin older newer where
  held was := second.held (first.held was)
  name was := (second.name (first.held was)).trans (first.name was)
  type was := first.typeTrans second was
  expr was := first.exprTrans second was
  stmt was := first.stmtTrans second was
  decl was := first.declTrans second was
  definition was :=
    (second.definition (first.held was)).trans (first.definition was)
  requirement was :=
    (second.requirement (first.held was)).trans (first.requirement was)

end Framed

end Arena

end Tern
