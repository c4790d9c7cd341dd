import Tern.Proofs.Elaboration.Visiting

namespace Tern

/-!
# Tours

Elaboration on record goes through a term as a walk through what the term is in
the end: it comes by the same statement lists, visits each of them once, and
ends each declaration where the walk comes by its end.
-/

/-- What a walk through the terms of a task comes by. -/
def ElabTask.landmarks (arena : Arena) : ElabTask → List Landmark
  | .statements stmts _ => .list stmts :: stmts.flatMap fun stmt =>
      arena.walk (arena.inside stmt)
  | .statement stmt _ => arena.walk (.stmt stmt)
  | .definition decl => arena.walk (.decl decl)

namespace ElabState

/--
Elaboration has come past landmarks: the statements of lists and the ends of
declarations.
-/
def Past (state : ElabState) (log : List Landmark) : Prop :=
  state.Abreast (log.filterMap Landmark.list?).flatten
    (log.filterMap Landmark.list?).flatten
    (log.filterMap Landmark.finish?)

/--
From one state to another elaboration comes past landmarks, if it has passed
none of their marks before. Meanwhile it respects what was typed, and the lists
among the landmarks are visited.
-/
def Follows
    (input : ElabInput)
    (origin final : Arena)
    (marks : List Landmark)
    (visits : List Visit)
    (state after : ElabState) : Prop :=
  ∀ log, state.Past log → ((log ++ marks).flatMap final.marks).Nodup →
    after.Past (log ++ marks) ∧ state.arena.Respects after.arena ∧
      (after.arena.Respects final →
        Visit.Reports input origin final state after
          (marks.filterMap Landmark.list?) visits)

namespace Follows

variable {input : ElabInput} {origin final : Arena}
  {state middle after : ElabState}
  {site between later : Worksite} {marks more : List Landmark}
    {visits others : List Visit}

/-- Calm elaboration that reports nothing comes past no landmarks. -/
private theorem calm
    (goes : Goes input origin state after site later)
    (calm : site.Calm later)
    (hushes : state.Hushes after) :
    state.Follows input origin final [] [] after :=
  fun log past _ =>
    ⟨(List.append_nil log).symm ▸ Abreast.calm past goes calm,
      goes.respects (calm.restrained.weaken False.elim), fun _ => .none hushes⟩

theorem append
    (first : state.Follows input origin final marks visits middle)
    (second : middle.Follows input origin final more others after)
    (goes : Goes input origin state middle site between)
    (goesOn : Goes input origin middle after between later) :
    state.Follows input origin final (marks ++ more) (visits ++ others)
      after := by
  intro log past distinct
  rw [← List.append_assoc] at distinct
  have before : ((log ++ marks).flatMap final.marks).Nodup := by
    rw [List.flatMap_append] at distinct
    exact (List.nodup_append.mp distinct).1
  obtain ⟨pastFirst, respects, reportsFirst⟩ := first log past before
  obtain ⟨pastSecond, respectsOn, reportsSecond⟩ :=
    second (log ++ marks) pastFirst distinct
  rw [List.filterMap_append, ← List.append_assoc]
  refine ⟨pastSecond, respects.trans respectsOn goes.toward.framed,
    fun respectsLast => ?_⟩
  have respectsMiddle := respectsOn.trans respectsLast goesOn.toward.framed
  exact (reportsFirst respectsMiddle).append (reportsSecond respectsLast)

/--
A declaration that was typed comes to its end behind what else is come past.
-/
private theorem finish
    {decl : DeclId}
    (follows : state.Follows input origin final marks visits after)
    (framed : Arena.Framed input origin state.arena after.arena)
    (step : Arena.Framed input origin after.arena
      (after.arena.updateDecl decl fun old =>
        old.raiseTo .definitionElaborated))
    (reached : (after.arena.decl decl).phase ≠ .unelaborated) :
    state.Follows input origin final (marks ++ [.finish decl]) visits
      { after with
        arena := after.arena.updateDecl decl fun old =>
          old.raiseTo .definitionElaborated } := by
  intro log past distinct
  rw [← List.append_assoc, List.flatMap_append] at distinct
  obtain ⟨pastMarks, respects, reports⟩ :=
    follows log past (List.nodup_append.mp distinct).1
  have lists (log : List Landmark) :
      (log ++ [Landmark.finish decl]).filterMap Landmark.list? =
      log.filterMap Landmark.list? := by simp [Landmark.list?]
  have ends (log : List Landmark) :
      (log ++ [Landmark.finish decl]).filterMap Landmark.finish? =
      log.filterMap Landmark.finish? ++ [decl] := by simp [Landmark.finish?]
  rw [← List.append_assoc, Past, lists, lists, ends]
  have raised : after.arena.Respects (after.arena.updateDecl decl fun old =>
      old.raiseTo .definitionElaborated) := .raise _ _ _
  refine ⟨Abreast.finish pastMarks reached, respects.trans raised framed,
    fun respectsLast => ?_⟩
  exact { reports (raised.trans respectsLast step) with }

/-- No declaration comes to its end twice. -/
private theorem of_ended
    {decl : DeclId}
    (finished : (state.arena.decl decl).phase = .definitionElaborated)
    (plain : (state.arena.decl decl).form.isParam = false) :
    state.Follows input origin final (marks ++ [.finish decl]) visits
      after := by
  intro log past distinct
  obtain ⟨landmark, listed, isEnd⟩ :=
    List.mem_filterMap.mp (past.ended finished plain)
  obtain rfl : landmark = .finish decl := by
    cases landmark <;> simp_all [Landmark.finish?]
  have before : Term.decl decl ∈ (log ++ marks).flatMap final.marks :=
    List.mem_flatMap.mpr
      ⟨_, List.mem_append_left _ listed, List.mem_singleton_self _⟩
  rw [← List.append_assoc, List.flatMap_append, List.flatMap_singleton]
    at distinct
  exact absurd rfl
    ((List.nodup_append.mp distinct).2.2 _ before _ (List.mem_singleton_self _))

end Follows

end ElabState

/--
An action that is done is calm and reports nothing, and something is known then.
-/
def Calms
    {Value : Type}
    (input : ElabInput)
    (origin : Arena)
    (site : Worksite)
    (action : Elab Value)
    (known : Worksite → Value → Prop) : Prop :=
  ∀ ⦃state after : ElabState⦄ ⦃value : Value⦄, state.At origin site →
    action input state = .done value after →
      ∃ later, ElabState.Goes input origin state after site later ∧
        site.Calm later ∧
        state.Hushes after ∧ known later value

/--
What works, completes what it has to and is hushed is calm if its result is.
-/
private theorem Works.calms
    {Value : Type}
    {input : ElabInput}
    {origin : Arena}
    {site : Worksite}
    {action : Elab Value}
    {leads known : Worksite → Value → Prop}
    {fact : Arena → Value → Prop}
    (works : Works input origin site action leads)
    (completes : Completes input site.arena.Typed [] site.arena action fact)
    (hushed : action.Hushed)
    (calm : ∀ later value, site.Onward input origin later →
      site.arena.Later site.arena.Typed later.arena → leads later value →
        fact later.arena value →
        site.Calm later ∧ known later value) :
    Calms input origin site action known := by
  intro state after value start run
  obtain ⟨later, goes, led, fact⟩ := works.goes completes start run
  obtain ⟨calm, known⟩ := calm later value goes.onward goes.later led fact
  exact ⟨later, goes, calm, hushed run, known⟩

namespace Calms

variable {input : ElabInput} {origin : Arena} {site : Worksite}

/-- An expression that is due is parsed. -/
private theorem completeExpr
    {expr : ExprId}
    {scope : ScopeId}
    (room : scope.raw < site.table.size)
    (whole : site.Whole (.expr expr))
    (due : site.arena.Due (.expr expr)) :
    Calms input origin site (Elab.completeExpr expr scope) fun later _ =>
      later.arena.Parsed (.expr expr) :=
  (Works.completeExpr room whole).calms (Completes.completeExpr scope due)
    (Elab.Hushed.completeExpr expr scope) fun _ _ _ _ calm parsed =>
      ⟨calm, parsed⟩

/-- The expression that an initializer is is parsed. -/
private theorem elaborateInitializer
    {bound : Nat}
    {definition : DefId}
    {scope : ScopeId}
    (room : scope.raw < site.table.size)
    (whole : site.Whole (.definition definition))
    (ready : site.arena.Ready 0 bound (.definition definition)) :
    Calms input origin site (Elab.elaborateInitializer definition scope)
        fun later _ =>
      ∀ expr, (site.arena.definition definition).form = .expression expr →
        later.arena.Parsed (.expr expr) := by
  have completes : Completes input site.arena.Typed [] site.arena
      (Elab.elaborateInitializer definition scope) fun later _ =>
        ∀ expr, (site.arena.definition definition).form = .expression expr →
          later.Parsed (.expr expr) := by
    refine Completes.observe ?_
    cases form : (site.arena.definition definition).form with
    | expression expr =>
        refine (Completes.completeExpr scope (ready.due_expr form)).weaken
          fun _ _ _ _ parsed => ?_
        rintro _ ⟨⟩
        exact parsed
    | _ => exact Completes.pure nofun
  exact (Works.elaborateInitializer whole room).calms completes
    (Elab.Hushed.elaborateInitializer definition scope)
      fun _ _ _ _ calm parsed => ⟨calm, parsed⟩

/-- The block of a definition is parsed to a statement that is ready. -/
private theorem completeStmt
    {fragment : Fragment StmtId}
    {bound : Nat}
    {definition : DefId}
    {stmt : StmtId}
    {scope : ScopeId}
    (block : fragment = .body ∨ fragment = .members)
    (lists : ∀ range older later stmt, fragment.Parsed range older later stmt →
      older.stmts.size ≤ stmt.raw ∧
        later.Ready older.decls.size (4 * (range.stop - range.start))
          (.stmt stmt))
    (room : scope.raw < site.table.size)
    (whole : site.Whole (.stmt stmt))
    (ready : site.arena.Ready 0 bound (.definition definition))
    (form : (site.arena.definition definition).form.block? = some stmt) :
    Calms input origin site (Elab.completeStmt stmt scope fragment.captured)
        fun later _ =>
      later.Whole (.stmt stmt) ∧ ∃ inner, inner + 1 ≤ bound ∧
        later.arena.Ready 0 inner (.stmt stmt) :=
  (Works.completeStmt room block whole).calms
    (Completes.completeStmt block lists scope ready form fun _ => id)
    (Elab.Hushed.completeStmt stmt scope fragment)
        fun _ _ onward _ calm within =>
      ⟨calm, onward.keeps.whole whole, within⟩

/-- Parameters reach a phase. -/
private theorem raiseAll
    {decls : List DeclId}
    (phase : Phase)
    (whole : ∀ decl ∈ decls, site.Whole (.decl decl))
    (parsed : ∀ decl ∈ decls, site.arena.Parsed (.decl decl)) :
    Calms input origin site (Elab.raiseAll decls phase) fun _ _ => True :=
  (Works.raiseAll phase whole).calms (Completes.raiseAll phase parsed)
    (Elab.Hushed.raiseAll decls phase) fun _ _ _ later steady _ =>
      ⟨steady.calm fun decl listed =>
        (later.parsed (parsed decl listed)).here.2 decl rfl, trivial⟩

/-- The parameters of requires-expressions reach a phase. -/
theorem raiseRequiresParams
    {bound : Nat}
    {decl : DeclId}
    (phase : Phase)
    (whole : site.Whole (.decl decl))
    (ready : site.arena.Ready 0 bound (.decl decl)) :
    Calms input origin site (Elab.raiseRequiresParams decl phase) fun _ _ =>
      True :=
  (Works.raiseRequiresParams phase whole).calms
    (Completes.raiseRequiresParams phase ready)
    (Elab.Hushed.raiseRequiresParams decl phase) fun _ _ _ later steady _ =>
      ⟨steady.calm fun param listed =>
        (later.parsed (ready.parsed_ownedRequiresParams listed)).here.2 param
          rfl, trivial⟩

/-- The scope of a declaration is looked up, or added. -/
private theorem scopeFor
    {decl : DeclId}
    {parent : ScopeId}
    (kind : ScopeKind)
    (held : site.arena.Holds (.decl decl))
    (room : parent.raw < site.table.size) :
    Calms input origin site (Elab.inScopes fun scopes =>
      scopes.scopeFor decl parent kind)
      fun later scope => scope.raw < later.table.size :=
  (Works.scopeFor kind held room).calms (Completes.beside (.inScopes _))
    (Elab.Hushed.inScopes _) fun _ _ _ _ known _ => ⟨known.2.2.2, known.1⟩

/--
The scope of a function is looked up, or added, and its parameters are bound
there.
-/
private theorem bindParams
    {decl : DeclId}
    {role : CallableRole}
    {params : List DeclId}
    {result : TypeId}
    {definition : DefId}
    {parent : ScopeId}
    (whole : site.Whole (.decl decl))
    (form : (site.arena.decl decl).form =
      .callable role params result definition)
    (room : parent.raw < site.table.size)
    (parsed : ∀ param ∈ params, site.arena.Parsed (.decl param)) :
    Calms input origin site
      (do
        let scope ← Elab.inScopes fun scopes =>
            scopes.scopeFor decl parent .function
        params.forM (Elab.bindParam scope)
        return scope) fun later scope => scope.raw < later.table.size :=
  (Works.bindParams whole form room).calms
    (.next (.inScopes _) fun scope => .bind (Performs.bindParams scope parsed)
      fun _ _ _ bound => .pure bound)
    (Elab.Hushed.bind (Elab.Hushed.inScopes _) fun scope =>
      Elab.Hushed.bind (Elab.Hushed.forM (Elab.Hushed.bindParam scope) params)
          fun _ =>
        Elab.Hushed.pure scope)
    fun _ _ _ later known _ => ⟨known.2.calm fun param listed =>
      (later.parsed (parsed param listed)).here.2 param rfl, known.1⟩

end Calms

/--
A recording that is done visits lists so that elaboration comes past landmarks,
told in an arena that it leads to, where some terms are bounded.
-/
def Tours
    (input : ElabInput)
    (origin final : Arena)
    (terms : List Term)
    (site : Worksite)
    (recording : Elab (List Visit)) (marks : List Landmark) : Prop :=
  ∀ ⦃state after : ElabState⦄ ⦃visits : List Visit⦄, state.At origin site →
    recording input state = .done visits after →
      ∃ later, ElabState.Goes input origin state after site later ∧
        (Arena.Toward input origin after.arena final →
          (∀ term ∈ terms, final.Bounded term) →
          state.Follows input origin final marks visits after)

namespace Tours

variable {input : ElabInput} {origin final : Arena} {terms others : List Term}
  {site : Worksite}
  {recording : Elab (List Visit)} {marks more : List Landmark}

/-- What is known of a worksite may be used. -/
theorem given
    (tours : site.Sound → site.arena.Standing [] →
      Tours input origin final terms site recording marks) :
    Tours input origin final terms site recording marks :=
  fun _ _ _ start => tours start.since.sound start.standing start

/--
Landmarks and terms may be put differently, as they are in the arena that is led
to.
-/
theorem reckon
    (tours : Tours input origin final terms site recording marks)
    (same : Arena.Toward input origin site.arena final →
      (∀ term ∈ others, final.Bounded term) →
      more = marks ∧ ∀ term ∈ terms, final.Bounded term) :
    Tours input origin final others site recording more := by
  intro state after visits start run
  obtain ⟨later, goes, follows⟩ := tours start run
  refine ⟨later, goes, fun toward bounded => ?_⟩
  obtain ⟨rfl, known⟩ :=
    same (start.shows.arena ▸ goes.toward.trans toward) bounded
  exact follows toward known

private theorem none : Tours input origin final terms site (pure []) [] := by
  rintro state _ _ start ⟨⟩
  exact ⟨site, .refl start, fun _ _ =>
    .calm (.refl start) (.refl site) (.refl state)⟩

/-- Nothing is recorded of a calm action. -/
private theorem plain
    {action : Elab Unit}
    {known : Worksite → Unit → Prop}
    (calms : Calms input origin site action known)
    (nothing : ∀ later, site.arena.Later site.arena.Typed later.arena →
      known later () →
      Arena.Toward input origin later.arena final →
        (∀ term ∈ terms, final.Bounded term) →
        marks = []) :
    Tours input origin final terms site
      (do
        action
        return []) marks := by
  intro state after visits start run
  obtain ⟨_, _, first, last⟩ := Action.done_of_bind run
  cases last
  obtain ⟨later, goes, calm, hushes, known⟩ := calms start first
  refine ⟨later, goes, fun toward bounded => ?_⟩
  rw [nothing later goes.later known (goes.behind.shows.arena ▸ toward) bounded]
  exact .calm goes calm hushes

/-- The arena is read first. -/
private theorem observe
    {recording : Arena → Elab (List Visit)}
    (tours : Tours input origin final terms site (recording site.arena) marks) :
    Tours input origin final terms site (Elab.arena >>= recording) marks := by
  intro state after visits start run
  have read : (Elab.arena >>= recording) input state =
      recording state.arena input state := rfl
  rw [read, start.shows.arena] at run
  exact tours start run

/-- Something calm is done first. -/
theorem bind
    {Value : Type}
    {action : Elab Value}
    {recording : Value → Elab (List Visit)}
    {known : Worksite → Value → Prop}
    (calms : Calms input origin site action known)
    (rest : ∀ later value, site.Onward input origin later →
      site.arena.Later site.arena.Typed later.arena → known later value →
        Tours input origin final terms later (recording value) marks) :
    Tours input origin final terms site (action >>= recording) marks := by
  intro state after visits start run
  obtain ⟨value, middle, first, last⟩ := Action.done_of_bind run
  obtain ⟨between, goes, calm, hushes, known⟩ := calms start first
  obtain ⟨later, goesOn, follows⟩ :=
    rest between value goes.onward goes.later known goes.behind last
  exact ⟨later, goes.trans goesOn, fun toward bounded =>
    (ElabState.Follows.calm goes calm hushes).append (follows toward bounded)
      goes goesOn⟩

/-- Something calm is done behind what is on record. -/
theorem before
    {last : Elab Unit}
    {known : Worksite → Unit → Prop}
    (tours : Tours input origin final terms site recording marks)
    (calms : ∀ later, site.Onward input origin later →
      site.arena.Later site.arena.Typed later.arena →
        Calms input origin later last known) :
    Tours input origin final terms site
      (do
        let visits ← recording
        last
        return visits) marks := by
  intro state after visits start run
  obtain ⟨found, middle, first, run⟩ := Action.done_of_bind run
  obtain ⟨_, _, ending, run⟩ := Action.done_of_bind run
  cases run
  obtain ⟨between, goes, follows⟩ := tours start first
  obtain ⟨later, goesOn, calm, hushes, -⟩ :=
    calms between goes.onward goes.later goes.behind ending
  refine ⟨later, goes.trans goesOn, fun toward bounded => ?_⟩
  have both := (follows (goesOn.toward.trans toward) bounded).append
    (ElabState.Follows.calm goesOn calm hushes) goes goesOn
  rwa [List.append_nil, List.append_nil] at both

/-- Two recordings follow each other. -/
theorem append
    {further : Elab (List Visit)}
    (tours : Tours input origin final terms site recording marks)
    (rest : ∀ later, site.Onward input origin later →
      site.arena.Later site.arena.Typed later.arena →
        Tours input origin final terms later further more) :
    Tours input origin final terms site
      (do
        let first ← recording
        let others ← further
        return first ++ others) (marks ++ more) := by
  intro state after visits start run
  obtain ⟨found, middle, first, run⟩ := Action.done_of_bind run
  obtain ⟨others, _, second, run⟩ := Action.done_of_bind run
  cases run
  obtain ⟨between, goes, follows⟩ := tours start first
  obtain ⟨later, goesOn, followsOn⟩ :=
    rest between goes.onward goes.later goes.behind second
  exact ⟨later, goes.trans goesOn, fun toward bounded =>
    (follows (goesOn.toward.trans toward) bounded).append
      (followsOn toward bounded) goes goesOn⟩

/--
What is recorded of each item, each of which stays in order, is recorded of all.
-/
theorem each
    {Item : Type}
    {items : List Item}
    {action : Item → Elab (List Visit)}
    {fit : Worksite → Item → Prop}
    {landmarks : Item → List Landmark}
    (kept : ∀ {older newer : Worksite} {item : Item},
      older.Onward input origin newer →
      older.arena.Later older.arena.Typed newer.arena → fit older item →
        fit newer item)
    (tours : ∀ item ∈ items, ∀ site, fit site item →
      Tours input origin final terms site (action item) (landmarks item))
    (fits : ∀ item ∈ items, fit site item) :
    Tours input origin final terms site (Elab.recordEach action items)
      (items.flatMap landmarks) := by
  induction items generalizing site with
  | nil => exact none
  | cons item items inductionHypothesis =>
      obtain ⟨first, others⟩ := List.forall_mem_cons.mp fits
      obtain ⟨toursFirst, toursOthers⟩ := List.forall_mem_cons.mp tours
      rw [List.flatMap_cons]
      exact Tours.append (toursFirst site first) fun later onward order =>
        inductionHypothesis toursOthers fun other listed =>
          kept onward order (others other listed)

end Tours

namespace Arena.Toward

variable {input : ElabInput} {origin older final : Arena}
  (toward : Arena.Toward input origin older final)

include toward

/-- A typed statement has the form it has in the end. -/
theorem form_eq {stmt : StmtId} (typed : older.Typed stmt) :
    (final.stmt stmt).form = (older.stmt stmt).form :=
  toward.later.stmts typed typed.held

theorem inside_eq {stmt : StmtId} (typed : older.Typed stmt) :
    final.inside stmt = older.inside stmt := by
  rw [Arena.inside, Arena.inside, toward.form_eq typed]

section

variable {bound : Nat} {definition : DefId}
  (ready : older.Ready 0 bound (.definition definition))
  (bounded : final.Bounded (.definition definition))

include ready bounded

/-- A walk goes through a definition as it was when it was ready. -/
private theorem walk_definition :
    final.walk (.definition definition) =
      (older.definition definition).form.children.flatMap final.walk := by
  rw [bounded.walk_definition, toward.later.definition_eq ready.holds]

/-- A walk comes by nothing in a definition that is no block. -/
private theorem walk_flat
    (flat : (older.definition definition).form.block? = none)
    (parsed : ∀ expr, (older.definition definition).form = .expression expr →
      final.Parsed (.expr expr)) :
    final.walk (.definition definition) = [] := by
  cases ready with
  | nothing whole _ =>
      refine (toward.later.parsed whole).walk_definition ?_
      rw [toward.later.definition_eq whole.here.1.1]
      exact flat
  | initializer held form due =>
      rw [toward.walk_definition
        (.initializer held form due : older.Ready 0 bound _) bounded, form,
        DefForm.children, List.flatMap_singleton]
      exact (parsed _ form).walk_eq_nil rfl
  | block _ form _ _ => cases form.symm.trans flat
  | capturedBlock _ form _ _ _ => cases form.symm.trans flat

end

section

variable {bound : Nat} {decl : DeclId}
  (ready : older.Ready 0 bound (.decl decl))
  (bounded : final.Bounded (.decl decl))

include ready bounded

private theorem bounded_definition
    {definition : DefId}
    (defines : (older.decl decl).form.definition? = some definition) :
    final.Bounded (.definition definition) := by
  refine bounded.child
    (List.mem_cons_of_mem _ (DeclForm.mem_children.mpr (.inr (.inl ?_))))
  rw [(toward.later.owned_eq ready.holds).1, defines]
  rfl

private theorem bounded_wrapped
    {term : Term}
    (wraps : (older.decl decl).form.wrapped? = some term) :
    final.Bounded term := by
  refine bounded.child
    (List.mem_cons_of_mem _ (DeclForm.mem_children.mpr (.inr (.inr ?_))))
  rw [(toward.later.owned_eq ready.holds).2, wraps]

/--
A walk goes through a typed declaration as it was when it was ready, and to its
end.
-/
private theorem walk_decl
    (standing : final.Standing [])
    (elaborated : (older.decl decl).phase ≠ .unelaborated) :
    final.walk (.decl decl) =
      ((older.decl decl).form.definition?.toList.flatMap fun definition =>
        final.walk (.definition definition)) ++
          (older.decl decl).form.wrapped?.toList.flatMap final.walk ++
            [.finish decl] := by
  obtain ⟨sameDefinition, sameWrapped⟩ := toward.later.owned_eq ready.holds
  rw [← sameDefinition, ← sameWrapped]
  refine bounded.walk_decl ?_ ?_
    (standing.heads (toward.later.phase_ne elaborated))
  · rw [(toward.framed.decl ready.holds).isParam_eq, ready.isParam_eq_false]
  · exact toward.later.name_eq ready.holds ▸ toward.later.parsed ready.name

end

end Arena.Toward

namespace Tours

variable {input : ElabInput} {origin final : Arena} {site : Worksite}
  {depth : Nat}

/-- A task that fits a depth is carried out on record past its landmarks. -/
def Carried (input : ElabInput) (origin final : Arena) (depth : Nat) : Prop :=
  ∀ {site : Worksite} (task : ElabTask), site.Awaits task →
    site.arena.Fits depth task →
    Tours input origin final task.terms site (Elab.recorded depth task)
      (task.landmarks final)

section Definitions

variable {bound : Nat} {definition : DefId} {scope : ScopeId}
  (whole : site.Whole (.definition definition))
  (ready : site.arena.Ready 0 bound (.definition definition))
  (room : scope.raw < site.table.size)

include whole ready room

/-- An initializer comes past no landmark. -/
private theorem initializer
    (flat : (site.arena.definition definition).form.block? = .none) :
    Tours input origin final [.definition definition] site
      (do
        Elab.elaborateInitializer definition scope
        return []) (final.walk (.definition definition)) := by
  refine plain (Calms.elaborateInitializer room whole ready) ?_
  intro later order parsed toward bounded
  refine toward.walk_flat (order.ready ready)
    (bounded _ (List.mem_singleton_self _)) ?_ ?_
  · rwa [order.definition_eq ready.holds]
  · rw [order.definition_eq ready.holds]
    exact fun expr form => toward.later.parsed (parsed expr form)

variable (carried : Carried input origin final depth)
  (enough : bound + 1 ≤ depth)

include carried enough

/--
The block of a definition is parsed, and the statement lists within it are
visited.
-/
private theorem block
    {fragment : Fragment StmtId}
    {stmt : StmtId}
    (isBlock : fragment = .body ∨ fragment = .members)
    (lists : ∀ range older later stmt, fragment.Parsed range older later stmt →
      older.stmts.size ≤ stmt.raw ∧
        later.Ready older.decls.size (4 * (range.stop - range.start))
          (.stmt stmt))
    (form : (site.arena.definition definition).form.block? = some stmt) :
    Tours input origin final [.definition definition] site
      (do
        Elab.completeStmt stmt scope fragment.captured
        Elab.recorded depth (.statement stmt scope))
          (final.walk (.definition definition)) := by
  have children := DefForm.children_of_block? form
  refine given fun sound _ => ?_
  have wholeStmt : site.Whole (.stmt stmt) :=
    sound.whole_of_definition whole rfl
      (by rw [children]; exact List.mem_singleton_self _)
  refine bind (Calms.completeStmt isBlock lists room wholeStmt ready form) ?_
  rintro later _ _ order ⟨wholeNow, inner, within, readyNow⟩
  refine (carried (.statement stmt scope) wholeNow
    ⟨inner, by omega, readyNow⟩).reckon ?_
  intro toward bounded
  have bounded := bounded _ (List.mem_singleton_self _)
  have readyAgain := order.ready ready
  have same := order.definition_eq ready.holds
  refine ⟨?_, List.forall_mem_singleton.mpr (bounded.child ?_)⟩
  · rw [toward.walk_definition readyAgain bounded, same, children,
      List.flatMap_singleton]
    rfl
  · rw [Arena.children, toward.later.definition_eq readyAgain.holds, same,
      children]
    exact List.mem_singleton_self _

/-- The body of a function is elaborated on record. -/
private theorem body
    {role : CallableRole}
    {params : List DeclId}
    {result : TypeId}
    (takes : (DeclForm.callable role params result definition).takes
      (site.arena.definition definition).form = true) :
    Tours input origin final [.definition definition] site
      (Elab.recordBody (Elab.recorded depth) definition scope)
      (final.walk (.definition definition)) := by
  refine given fun sound _ => observe ?_
  have nothing
      (flat : (site.arena.definition definition).form.block? = .none)
      (unlike : ∀ expr, (site.arena.definition definition).form ≠
        .expression expr) :
      Tours input origin final [.definition definition] site (pure [])
        (final.walk (.definition definition)) :=
    none.reckon fun toward bounded =>
      ⟨toward.walk_flat ready (bounded _ (List.mem_singleton_self _))
      flat fun expr form => absurd form (unlike expr), bounded⟩
  cases form : (site.arena.definition definition).form with
  | body stmt =>
      exact block whole ready room carried enough
        (.inl (rfl : Fragment.body = _))
        (fun _ _ _ _ => id) (by rw [form]; rfl)
  | expression expr =>
      refine plain (Calms.completeExpr room
        (sound.whole_of_definition whole form (by simp [DefForm.children]))
          (ready.due_expr form)) ?_
      intro later order parsed toward bounded
      have same := order.definition_eq ready.holds
      refine toward.walk_flat (order.ready ready)
        (bounded _ (List.mem_singleton_self _))
        (by rw [same, form]; rfl) fun other formToo => ?_
      rw [same, form] at formToo
      cases formToo
      exact toward.later.parsed parsed
  | members _ =>
      rw [form] at takes
      cases takes
  | _ =>
      exact nothing (by rw [form]; rfl) fun _ same => by
        cases form.symm.trans same

/-- The members of a class are elaborated on record. -/
private theorem members
    {kind : TypeId}
    (takes : (DeclForm.classType kind definition).takes
      (site.arena.definition definition).form = true) :
    Tours input origin final [.definition definition] site
      (Elab.recordMembers (Elab.recorded depth) definition scope)
      (final.walk (.definition definition)) := by
  refine observe ?_
  cases form : (site.arena.definition definition).form with
  | members stmt =>
      exact block whole ready room carried enough
        (.inr (rfl : Fragment.members = _))
        (fun _ _ _ _ => id) (by rw [form]; rfl)
  | empty =>
      refine none.reckon fun toward bounded => ⟨?_, bounded⟩
      exact toward.walk_flat ready (bounded _ (List.mem_singleton_self _))
        (by rw [form]; rfl)
        fun _ same => by cases form.symm.trans same
  | _ =>
      rw [form] at takes
      cases takes

end Definitions

section Declarations

variable {decl : DeclId} (whole : site.Whole (.decl decl))
  (elaborated : (site.arena.decl decl).phase ≠ .unelaborated)
  (carried : Carried input origin final depth)

include whole elaborated carried

/--
The definition of an object, a function or a class is elaborated on record.
-/
private theorem defined
    {inner : Nat}
    {definition : DefId}
    (defines : (site.arena.decl decl).form.definition? = some definition)
    (takes : (site.arena.decl decl).form.takes
      (site.arena.definition definition).form = true)
    (inside : site.arena.Ready 0 inner (.definition definition))
    (enough : inner + 1 ≤ depth) :
    Tours input origin final [.definition definition] site
      (Elab.recordForm (Elab.recorded depth) decl (site.arena.decl decl).scope
        (site.arena.decl decl).form)
      (final.walk (.definition definition)) := by
  refine given fun sound standing => ?_
  have wholeInside : site.Whole (.definition definition) :=
    sound.whole_of_form whole rfl
      (DeclForm.mem_children.mpr (.inr (.inl (by rw [defines]; rfl))))
  have roomy := sound.room_of_held whole.1
  cases form : (site.arena.decl decl).form with
  | object role type other =>
      rw [form] at defines takes
      cases defines
      refine initializer wholeInside inside roomy ?_
      cases found : (site.arena.definition definition).form <;>
        rw [found] at takes <;>
        first | rfl | cases takes
  | callable role params result other =>
      have heads := standing.heads elaborated
      rw [form] at defines takes heads
      cases defines
      have opened : Tours input origin final [.definition definition] site
          ((do
            let scope ← Elab.inScopes fun scopes =>
              scopes.scopeFor decl (site.arena.decl decl).scope .function
            params.forM (Elab.bindParam scope)
            return scope) >>= fun scope =>
              Elab.recordBody (Elab.recorded depth) definition scope)
          (final.walk (.definition definition)) := by
        refine bind (Calms.bindParams whole form roomy fun param listed =>
          heads _ (by simp [DeclForm.heads, listed]))
            fun later scope onward order room => ?_
        rw [← order.definition_eq inside.holds] at takes
        exact body (onward.keeps.whole wholeInside) (order.ready inside) room
          carried enough takes
      simpa only [bind_assoc, pure_bind, Elab.recordForm, Elab.recordCallable]
        using opened
  | classType kind other =>
      rw [form] at defines takes
      cases defines
      refine bind (Calms.scopeFor .classType whole.1 roomy)
        fun later scope onward order room => ?_
      rw [← order.definition_eq inside.holds] at takes
      exact members (onward.keeps.whole wholeInside) (order.ready inside) room
        carried enough takes
  | concept parms other =>
      rw [form] at takes
      cases takes
  | _ =>
      rw [form] at defines
      cases defines

variable {bound : Nat} (ready : site.arena.Ready 0 bound (.decl decl))
  (room : bound ≤ depth)

include ready room

/-- What a declaration defines or wraps is elaborated on record. -/
private theorem form :
    Tours input origin final [.decl decl] site
      (Elab.recordForm (Elab.recorded depth) decl (site.arena.decl decl).scope
        (site.arena.decl decl).form)
      (((site.arena.decl decl).form.definition?.toList.flatMap fun definition =>
        final.walk (.definition definition)) ++
          (site.arena.decl decl).form.wrapped?.toList.flatMap final.walk) := by
  refine given fun sound standing => ?_
  have heads := standing.heads elaborated
  cases ready with
  | @defined _ inner _ definition held new name due defines takes inside more =>
      refine (defined whole elaborated carried defines takes inside
        (by omega)).reckon fun toward bounded => ⟨?_, ?_⟩
      · simp [defines, DeclForm.wrapped?_eq_none defines]
      · exact List.forall_mem_singleton.mpr (toward.bounded_definition
          (.defined held new name due defines takes inside more)
          (bounded _ (List.mem_singleton_self _)) defines)
  | @concept _ _ parms definition held new name form parameters required flat =>
      rw [form]
      refine plain
        (Calms.raiseAll _ (fun parm listed => sound.whole_of_form whole form
        (by simp [DeclForm.children, listed])) parameters)
          fun later order _ toward bounded => ?_
      have same := order.definition_eq required.here.1.1
      have nothing :=
        (toward.later.parsed (order.parsed required)).walk_definition (by
        rw [toward.later.definition_eq (order.holds required.here.1.1), same]
        exact flat)
      simp [DeclForm.definition?, DeclForm.wrapped?, nothing]
  | @template _ inner _ wrapped parms constraint? held new name form listed
      inside order more =>
      have readyDecl : site.arena.Ready 0 bound (.decl decl) :=
        .template held new name form listed inside order more
      rw [form] at heads ⊢
      have within := standing.wrapped List.not_mem_nil elaborated form
      have wholeWithin : site.Whole (.decl wrapped) :=
        sound.whole_of_form whole form (by simp [DeclForm.children])
      refine bind
        (Calms.raiseAll _ (fun parm listed => sound.whole_of_form whole form
        (by simp [DeclForm.children, listed])) fun parm listed =>
          heads _ (by simp [DeclForm.heads, listed]))
            fun later _ onward order _ => ?_
      refine (carried (.definition wrapped) (onward.keeps.whole wholeWithin)
        ⟨inner, by omega, order.ready inside, order.phase_ne within⟩).reckon
          fun toward bounded => ⟨?_, ?_⟩
      · simp [DeclForm.definition?, DeclForm.wrapped?, ElabTask.landmarks]
      · refine List.forall_mem_singleton.mpr
          (toward.bounded_wrapped (order.ready readyDecl)
          (bounded _ (List.mem_singleton_self _)) ?_)
        rw [(order.owned_eq held).2, form]
        rfl
  | namespaceBlock _ _ _ form _ _ =>
      rw [form]
      rintro _ _ _ _ ⟨⟩

/-- A declaration comes to its end, past the landmark that says so. -/
theorem definition (standing : final.Standing []) :
    Tours input origin final [.decl decl] site
      (Elab.recordDefinition (Elab.recorded depth) decl)
      (final.walk (.decl decl)) := by
  intro state after visits start run
  have arena := start.shows.arena
  have moves :=
    (Elab.Records.definition (Elab.Records.nested depth) decl).run_eq
      input state
  rw [run] at moves
  obtain ⟨later, goes, -, -⟩ :=
    (Works.elaborateDefinition (fun task => Works.nested task) whole).goes
    (Performs.elaborateDefinition (Performs.nested input depth) (fun _ => id)
      ready room elaborated)
    start moves
  refine ⟨later, goes, fun toward bounded => ?_⟩
  have onward : Arena.Toward input origin site.arena final :=
    arena ▸ goes.toward.trans toward
  rw [onward.walk_decl ready (bounded _ (List.mem_singleton_self _)) standing
    elaborated]
  obtain ⟨_, _, observed, run⟩ := Action.done_of_bind run
  cases observed
  dsimp only at run
  by_cases finished : (state.arena.decl decl).phase = .definitionElaborated
  · exact .of_ended finished (arena ▸ ready.isParam_eq_false)
  · rw [if_neg finished, arena] at run
    obtain ⟨found, middle, first, run⟩ := Action.done_of_bind run
    obtain ⟨_, _, raised, run⟩ := Action.done_of_bind run
    cases run
    obtain ⟨between, goesForm, follows⟩ :=
      form whole elaborated carried ready room start first
    have wholeNow := goesForm.onward.keeps.whole whole
    have worked :=
      @Works.raise input origin _ _ .definitionElaborated wholeNow middle
      goesForm.behind.shows goesForm.behind.since
    rw [raised] at worked
    obtain ⟨last, shows, -, onward, -⟩ := worked
    cases raised
    have step : Arena.Toward input origin middle.arena
        (middle.arena.updateDecl decl fun old =>
          old.raiseTo .definitionElaborated) := by
      refine ⟨.single (Arena.progress_raise decl _) fun _ _ => rfl, ?_⟩
      have framed := onward.framed
      rwa [← goesForm.behind.shows.arena, ← shows.arena] at framed
    have reached : (middle.arena.decl decl).phase ≠ .unelaborated := by
      rw [goesForm.behind.shows.arena]
      exact goesForm.later.phase_ne elaborated
    exact (follows (step.trans toward) bounded).finish goesForm.toward.framed
      step.framed reached

end Declarations

section Statements

variable {bound : Nat} {stmt : StmtId} (whole : site.Whole (.stmt stmt))
  (carried : Carried input origin final depth)

include whole carried

/-- The statement lists within a statement are elaborated on record. -/
theorem statement
    (scope : ScopeId)
    (ready : site.arena.Ready 0 bound (.stmt stmt))
    (room : bound ≤ depth) :
    Tours input origin final [.stmt stmt] site
      (Elab.recordStatement (Elab.recorded depth) stmt scope)
        (final.walk (.stmt stmt)) := by
  refine given fun sound _ => observe ?_
  have known := ready
  have alone {other : StmtId} {form : StmtForm}
      (found : (site.arena.stmt stmt).form = form)
      (owned : .stmt other ∈ form.children) : site.Whole (.stmt other) :=
    sound.whole_of_stmt whole found owned
  have perform {other : StmtId} {inner : Nat} {later : Worksite}
      (wholeOther : later.Whole (.stmt other))
      (readyOther : later.arena.Ready 0 inner (.stmt other))
      (enough : inner + 1 ≤ depth) :
      Tours input origin final [.stmt other] later
        (Elab.recorded depth (.statement other scope))
        (final.walk (.stmt other)) :=
    carried (.statement other scope) wholeOther ⟨inner, enough, readyOther⟩
  have below {child : Term} {later : Worksite}
      (typed : site.arena.Typed stmt)
      (order : site.arena.Later site.arena.Typed later.arena)
      (owned : child ∈ (site.arena.stmt stmt).form.children)
      (toward : Arena.Toward input origin later.arena final)
      (bounded : ∀ term ∈ [Term.stmt stmt], final.Bounded term) :
        final.Bounded child := by
    refine (bounded _ (List.mem_singleton_self _)).child ?_
    rwa [Arena.children, toward.form_eq (order.typed typed typed),
      order.stmts typed typed.held]
  cases ready with
  | plain parsed flat =>
      have nothing
          (plain : (site.arena.stmt stmt).form.isDeclaration = false) :
          Tours input origin final [.stmt stmt] site (pure [])
            (final.walk (.stmt stmt)) := by
        refine none.reckon fun toward bounded => ⟨?_, bounded⟩
        have same := toward.form_eq (known.typed plain)
        exact (bounded _ (List.mem_singleton_self _)).walk_flat
          (toward.later.parsed parsed)
          (same ▸ flat)
      cases form : (site.arena.stmt stmt).form with
      | empty => exact nothing (by rw [form]; rfl)
      | value _ _ => exact nothing (by rw [form]; rfl)
      | jump _ => exact nothing (by rw [form]; rfl)
      | _ =>
          rw [form] at flat
          cases flat
  | @list _ nested _ role stmts inner held form items more =>
      have typed := known.typed (by rw [form]; rfl)
      rw [form]
      have fits : site.arena.Fits depth (.statements stmts inner) :=
        ⟨by omega, fun item listed =>
          ⟨nested, items item listed, by omega, fun _ => by omega⟩⟩
      refine (carried (.statements stmts inner) (fun item listed =>
        alone form (by simp [StmtForm.children, listed])) fits).reckon
          fun toward bounded => ?_
      refine ⟨(bounded _ (List.mem_singleton_self _)).walk_list
        ((toward.form_eq typed).trans form),
        List.forall_mem_map.mpr fun item listed =>
          below typed (.refl _) ?_ toward bounded⟩
      simp [form, StmtForm.children, listed]
  | @branch _ inner _ condition accepted rejected? held form test yes no more =>
      have typed := known.typed (by rw [form]; rfl)
      rw [form]
      have first : Tours input origin final [.stmt stmt] site
          (Elab.recorded depth (.statement accepted scope))
            (final.walk (.stmt accepted)) :=
        (perform (alone form (by simp [StmtForm.children])) yes
          (by omega)).reckon
          fun toward bounded => ⟨rfl, List.forall_mem_singleton.mpr
            (below typed (.refl _) (by simp [form, StmtForm.children]) toward
              bounded)⟩
      let fit (later : Worksite) (rejected : StmtId) : Prop :=
        later.Whole (.stmt rejected) ∧
          later.arena.Ready 0 inner (.stmt rejected) ∧
          site.arena.Later site.arena.Typed later.arena
      have rest (later : Worksite)
          (onward : site.Onward input origin later)
          (order : site.arena.Later site.arena.Typed later.arena) :
          Tours input origin final [.stmt stmt] later
            (Elab.recordEach
              (fun rejected => Elab.recorded depth (.statement rejected scope))
              rejected?.toList)
            (rejected?.toList.flatMap fun rejected =>
              final.walk (.stmt rejected)) := by
        refine @each input origin final [.stmt stmt] later StmtId _ _ fit _
          (fun onward next known =>
            ⟨onward.keeps.whole known.1, next.ready known.2.1,
              known.2.2.trans
                (next.weaken fun _ typed => known.2.2.typed typed typed)⟩)
          (fun rejected listed between known => ?_)
          fun rejected listed => ⟨onward.keeps.whole (alone form ?_),
            order.ready (no rejected (Option.mem_toList.mp listed)), order⟩
        · obtain ⟨wholeOther, readyOther, before⟩ := known
          refine (perform wholeOther readyOther (by omega)).reckon
              fun toward bounded =>
            ⟨rfl, List.forall_mem_singleton.mpr
              (below typed before ?_ toward bounded)⟩
          simp [form, StmtForm.children, Option.mem_toList.mp listed]
        · simp [StmtForm.children, Option.mem_toList.mp listed]
      refine (first.append rest).reckon fun toward bounded => ⟨?_, bounded⟩
      exact (bounded _ (List.mem_singleton_self _)).walk_branch
        ((toward.form_eq typed).trans form) (toward.later.parsed test)
  | @loop _ inner _ condition body held form test again more =>
      have typed := known.typed (by rw [form]; rfl)
      rw [form]
      refine (perform (alone form (by simp [StmtForm.children])) again
        (by omega)).reckon
        fun toward bounded => ?_
      refine ⟨(bounded _ (List.mem_singleton_self _)).walk_loop
        ((toward.form_eq typed).trans form)
        (toward.later.parsed test), List.forall_mem_singleton.mpr
          (below typed (.refl _) ?_ toward bounded)⟩
      simp [form, StmtForm.children]
  | @declaration _ inner _ decl held form declared more =>
      rw [form]
      have enters : site.arena.Enters depth stmt := by
        refine ⟨bound, known, room, fun plain => ?_⟩
        rw [form] at plain
        cases plain
      have cost := site.arena.two_le_wrapCost decl
      refine (carried (.statements [stmt] scope)
        (List.forall_mem_singleton.mpr whole)
        ⟨by omega, List.forall_mem_singleton.mpr enters⟩).reckon
          fun toward bounded => ⟨?_, bounded⟩
      obtain ⟨outer, same, -⟩ := toward.framed.declaration form
      rw [(bounded _ (List.mem_singleton_self _)).walk_declaration same]
      simp [ElabTask.landmarks, Arena.inside, same]

end Statements

end Tours

end Tern
