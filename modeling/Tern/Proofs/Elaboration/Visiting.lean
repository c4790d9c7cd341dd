import Tern.Proofs.Elaboration.Recording
import Tern.Proofs.Elaboration.Sealing
import Tern.Proofs.Elaboration.Signing
import Tern.Proofs.Term.Lists

namespace Tern

/-!
# Visits of statement lists

A visit takes a statement list through the first three passes. If no statement
of it was visited before, each declaration in it is typed and registered now, is
a member of its overload set between the passes, and is reported as it stands
there.
-/

namespace Arena

variable {input : ElabInput} {origin older final : Arena}

theorem mem_declarationsAmong
    {arena : Arena}
    {stmts : List StmtId}
    {decl : DeclId} :
    decl ∈ arena.declarationsAmong stmts ↔
      ∃ stmt ∈ stmts, (arena.stmt stmt).form = .declaration decl := by
  rw [declarationsAmong, List.mem_filterMap]
  refine exists_congr fun stmt => and_congr_right fun _ => ?_
  cases (arena.stmt stmt).form <;> simp

/-- Statements that are typed go on to hold what they hold. -/
private theorem Later.declarationsAmong_eq
    {stmts : List StmtId}
    {older newer : Arena}
    (later : older.Later older.Typed newer)
    (typed : ∀ stmt ∈ stmts, older.Typed stmt) :
    newer.declarationsAmong stmts = older.declarationsAmong stmts :=
  List.filterMap_congr fun stmt listed => by
    rw [later.stmts (typed stmt listed) (typed stmt listed).held]

/-- The declarations below the templates that statements hold. -/
def innermostAmong (arena : Arena) (stmts : List StmtId) : List DeclId :=
  (arena.declarationsAmong stmts).map arena.innermost

private theorem innermostAmong_append
    (arena : Arena)
    (stmts more : List StmtId) :
    arena.innermostAmong (stmts ++ more) = arena.innermostAmong stmts ++
      arena.innermostAmong more := by
  simp [innermostAmong, declarationsAmong]

/--
The function that a declaration is below its templates joins the same open
method later.
-/
private theorem Framed.joining_innermost
    {bound depth : Nat}
    {decl held : DeclId}
    (framed : Arena.Framed input origin older final)
    (ready : older.Ready 0 bound (.decl decl))
    (fresh : ∀ inner, older.Houses decl inner → (older.decl inner).phase =
      .unelaborated)
    (deep : older.decls.size < depth + decl.raw)
    (houses : final.Houses held decl)
    (shallow : final.Shallow (final.termCount + 1) (.decl held)) :
    older.joining [older.innermostWithin depth decl] =
      final.joining [final.innermost held] := by
  obtain ⟨below, plain⟩ := ready.houses_innermostWithin fresh deep
  obtain ⟨_, readyInner⟩ := ready.of_houses below
  have form := framed.form_eq readyInner.holds plain
  have same : final.innermost held = older.innermostWithin depth decl :=
    innermostWithin_of_houses shallow (houses.trans (framed.houses below))
      (form ▸ plain)
  rw [same, joining, joining, List.filterMap_cons, List.filterMap_cons,
    framed.labels.openName?_eq readyInner form, List.filterMap_nil,
      List.filterMap_nil]

end Arena

namespace ElabState

variable {input : ElabInput} {origin : Arena} {state after : ElabState}
  {site : Worksite}
  {typed listed : List StmtId} {ended : List DeclId}

/--
The functions registered are those that join open methods in any later arena.
-/
def Joins
    (input : ElabInput)
    (origin : Arena)
    (state after : ElabState)
    (stmts : List StmtId) :
    Prop :=
  ∀ final, Arena.Toward input origin after.arena final →
    (∀ stmt ∈ stmts, final.Shallow (final.termCount + 1) (final.inside stmt)) →
      state.Registers after (input.joining final (final.innermostAmong stmts))

/-- The functions that statements hold in any later arena were signed. -/
def Signed
    (input : ElabInput)
    (origin : Arena)
    (after : ElabState)
    (stmts : List StmtId)
    (signings : List Signing) : Prop :=
  ∀ final, Arena.Toward input origin after.arena final →
    after.arena.Respects final → final.AllSigned stmts signings

/--
The types of the declaration that a statement holds are completed, and with them
the signature of the function that it is below its templates.
-/
private theorem At.recordTypeWithin_signs
    {bound : Nat}
    {stmt : StmtId}
    {decl : DeclId}
    {middle : ElabState}
    {final : Arena}
    {signings : List Signing}
    (start : state.At origin site)
    (whole : site.Whole (.stmt stmt))
    (ready : state.arena.Ready 0 bound (.decl decl))
    (fresh : ∀ inner, state.arena.Houses decl inner →
      (state.arena.decl inner).phase = .unelaborated)
    (form : (state.arena.stmt stmt).form = .declaration decl)
    (typing : Elab.recordTypeWithin (state.arena.decls.size + 1) (some stmt)
      none decl input state = .done signings middle)
    (framed : Arena.Framed input origin state.arena final)
    (onward : Arena.Framed input origin middle.arena final)
    (respects : middle.arena.Respects final)
    (kept : (final.stmt stmt).form = (middle.arena.stmt stmt).form) :
    final.AllSigned [stmt] signings := by
  have formSite : (site.arena.stmt stmt).form = .declaration decl :=
    start.shows.arena ▸ form
  have enters : site.Enters (some stmt) none decl :=
    ⟨stmt, rfl, whole, formSite⟩
  obtain ⟨inner, houses, plain, signs⟩ :=
    Elab.recordTypeWithin_signs start.shows start.since
      (start.since.sound.whole_of_stmt whole formSite
        (by simp [StmtForm.children])) enters ready fresh typing
  obtain ⟨_, readyInner⟩ := ready.of_houses houses
  have formInner := framed.form_eq readyInner.holds plain
  refine List.forall_mem_singleton.mpr
    fun {outer other} holds below _ _ _ _ callable => ?_
  obtain ⟨_, now, around⟩ := framed.declaration form
  cases holds.symm.trans now
  obtain rfl : inner = other :=
    (around.trans (framed.houses houses)).unique (by rw [formInner, plain])
      below (by rw [callable]; rfl)
  obtain ⟨signing, listed, same, inStmt, inWrapper, signed⟩ :=
    signs (formInner.symm.trans callable)
  refine ⟨signing, listed, same,
    signed onward respects (by rintro _ ⟨⟩; exact kept),
    fun given among => ?_, fun wrapper given => ?_⟩
  · cases inStmt given among
    rfl
  · rcases inWrapper wrapper given with none | within
    · cases none
    · exact around.trans (framed.houses within)

/-- What is below a statement that was not typed is not elaborated. -/
private theorem Abreast.unelaborated_of_houses
    {bound : Nat}
    {stmt : StmtId}
    {decl inner : DeclId}
    (abreast : state.Abreast typed listed ended)
    (start : state.At origin site)
    (ready : site.arena.Ready 0 bound (.decl decl))
    (form : (site.arena.stmt stmt).form = .declaration decl)
    (new : stmt ∉ typed)
    (houses : state.arena.Houses decl inner) :
    (state.arena.decl inner).phase = .unelaborated := by
  have arena := start.shows.arena
  by_contra reached
  obtain ⟨_, readyInner⟩ := ready.of_houses (arena ▸ houses)
  obtain ⟨other, among, outer, formToo, housesToo⟩ := abreast.typed reached
    (arena ▸ readyInner.isParam_eq_false)
  obtain rfl := start.since.sound.holder_unique form (arena ▸ formToo)
    (arena ▸ houses) (arena ▸ housesToo)
  exact new among

/-- The declaration that a statement holds is registered for the statement. -/
private theorem Joins.of_declaration
    {bound depth : Nat}
    {stmt : StmtId}
    {decl : DeclId}
    (ready : state.arena.Ready 0 bound (.decl decl))
    (fresh : ∀ inner, state.arena.Houses decl inner →
      (state.arena.decl inner).phase = .unelaborated)
    (deep : state.arena.decls.size < depth + decl.raw)
    (form : (state.arena.stmt stmt).form = .declaration decl)
    (toAfter : Arena.Toward input origin state.arena after.arena)
    (registers : state.Registers after (input.joining state.arena
      [state.arena.innermostWithin depth decl])) :
    Joins input origin state after [stmt] := by
  intro final toward shallow
  have onward := (toAfter.trans toward).framed
  obtain ⟨held, formNow, houses⟩ := onward.declaration form
  have within : final.inside stmt = .decl held := by
    simp [Arena.inside, formNow]
  have among : final.innermostAmong [stmt] = [final.innermost held] := by
    simp [Arena.innermostAmong, Arena.declarationsAmong, formNow]
  have joining := onward.joining_innermost ready fresh deep houses
    (within ▸ shallow stmt (List.mem_singleton_self _))
  rw [among, ElabInput.joining, ← joining]
  exact registers

/-- A statement that was not typed is typed and registered. -/
private theorem Abreast.recordTypes
    {bound : Nat}
    {stmt : StmtId}
    {signings : List Signing}
    (abreast : state.Abreast typed listed ended)
    (start : state.At origin site)
    (ready : site.arena.Ready 0 bound (.stmt stmt))
    (new : (state.arena.stmt stmt).form.isDeclaration = true → stmt ∉ typed)
    (run : Elab.recordTypes stmt input state = .done signings after) :
    ∃ later, Goes input origin state after site later ∧
      state.arena.Respects after.arena ∧ later.arena.Typed stmt ∧
      after.Abreast (typed ++ [stmt]) listed ended ∧
        Joins input origin state after [stmt] ∧
        Signed input origin after [stmt] signings := by
  have whole : site.Whole (.stmt stmt) := ⟨ready.holds, nofun⟩
  obtain ⟨last, goesAll, -, typedNow⟩ :=
    (@Works.elaborateTypes input origin site stmt whole).goes
    (Completes.elaborateTypes ready fun _ => id) start
      ((Elab.Records.types stmt).done run)
  have arena := start.shows.arena
  obtain ⟨_, _, read, run⟩ := Action.done_of_bind run
  cases (Elab.declarationOf?_run stmt input state).symm.trans read
  cases form : (state.arena.stmt stmt).form with
  | declaration decl =>
      rw [form] at run
      have formSite : (site.arena.stmt stmt).form = .declaration decl :=
        arena ▸ form
      have inside : site.Whole (.decl decl) :=
        start.since.sound.whole_of_stmt whole formSite
          (by simp [StmtForm.children])
      obtain ⟨bound, -, readyDecl⟩ := ready.declared formSite
      have fresh : ∀ inner, state.arena.Houses decl inner →
          (state.arena.decl inner).phase = .unelaborated := fun _ =>
        abreast.unelaborated_of_houses start readyDecl formSite
          (new (by rw [form]; rfl))
      have around : ∀ other ∈ some stmt, site.arena.Holds (.stmt other) ∧
          (site.arena.stmt other).form = .declaration decl := by
        rintro _ ⟨⟩
        exact ⟨whole.1, formSite⟩
      have enters : site.Enters (some stmt) none decl :=
        ⟨stmt, rfl, whole, formSite⟩
      obtain ⟨_, _, observed, run⟩ := Action.done_of_bind run
      cases observed
      obtain ⟨found, middle, signing, run⟩ := Action.done_of_bind run
      obtain ⟨_, _, raising, run⟩ := Action.done_of_bind run
      cases run
      have typing := (Elab.Records.typeWithin _ _ _ _).done signing
      have deep : state.arena.decls.size < state.arena.decls.size + 1 +
          decl.raw := by omega
      obtain ⟨between, goes, types, -⟩ :=
        (@Works.elaborateTypeWithin input origin site _ _ _ _ inside
        enters).goes (Completes.elaborateTypeWithin readyDecl (arena ▸ deep)
          (fun _ => id) (fun _ given => by cases given) around) start typing
      have readyBetween := goes.later.ready readyDecl
      obtain ⟨later, goesOn, steady, -⟩ :=
        (@Works.raiseRequiresParams input origin between decl
        .typeElaborated (goes.onward.keeps.whole inside)).goes
          (Completes.raiseRequiresParams _ readyBetween) goes.behind raising
      have calm := steady.calm fun param listed =>
        (goesOn.later.parsed
          (readyBetween.parsed_ownedRequiresParams listed)).here.2 param rfl
      have parms : ∀ inner, middle.arena.Houses decl inner →
          ∀ parm ∈ (middle.arena.decl inner).form.parms,
            (middle.arena.decl parm).form.isParam = true := by
        rw [goes.behind.shows.arena]
        intro inner below parm listed
        obtain ⟨_, readyInner⟩ := readyBetween.of_houses below
        exact readyInner.isParam_of_parms listed
      have registers :=
        (Elab.elaborateTypeWithin_registers (arena ▸ readyDecl) fresh
        typing).trans_hushes (Elab.Hushed.raiseRequiresParams _ _ raising)
      have respects := (goes.respects types.restrained).trans
        (goesOn.respects (calm.restrained.weaken False.elim))
        goes.toward.framed
      refine ⟨later, goes.trans goesOn, respects, ?_,
        (abreast.types goes types form parms).calm goesOn calm,
        .of_declaration (arena ▸ readyDecl) fresh deep form goesAll.toward
          registers, fun final toward respectsOn => ?_⟩
      · exact goesAll.behind.shows.arena.symm.trans goesOn.behind.shows.arena ▸
          typedNow
      · obtain ⟨_, _, observed, raising⟩ := Action.done_of_bind raising
        cases observed
        obtain ⟨_, rfl, rephased, -⟩ := Elab.raiseAll_done raising
        rw [← goesAll.behind.shows.arena] at typedNow
        have kept := toward.later.stmts typedNow typedNow.held
        rw [rephased.arena] at kept
        exact start.recordTypeWithin_signs whole (arena ▸ readyDecl) fresh form
          signing (goesAll.toward.trans toward).framed
          (goesOn.toward.trans toward).framed
          ((goesOn.respects (calm.restrained.weaken False.elim)).trans
            respectsOn goesOn.toward.framed) kept
  | _ =>
      have plain : (state.arena.stmt stmt).form.isDeclaration = false := by
        rw [form]; rfl
      rw [form] at run
      cases run
      have kept {final : Arena}
          (toward : Arena.Toward input origin state.arena final) :
          (final.stmt stmt).form = (state.arena.stmt stmt).form :=
        toward.later.stmts (arena ▸ ready.typed (arena ▸ plain))
          (arena ▸ whole.1)
      refine ⟨site, .refl start, .refl _, ready.typed (arena ▸ plain),
        abreast.weaken (by simp), fun final toward shallow => ?_,
        fun final toward _ => List.forall_mem_singleton.mpr fun holds => ?_⟩
      · have among : final.innermostAmong [stmt] = [] := by
          simp [Arena.innermostAmong, Arena.declarationsAmong, kept toward,
            form]
        rw [among, ElabInput.joining_nil]
        exact (Hushes.refl state).registers
      · cases (kept toward).symm.trans holds |>.symm.trans form

/-- What two lists of statements register they register one behind the other. -/
theorem Joins.trans
    {state middle after : ElabState}
    {between later : Worksite}
    {stmts more : List StmtId}
    (first : Joins input origin state middle stmts)
    (second : Joins input origin middle after more)
    (goes : Goes input origin middle after between later) :
    Joins input origin state after (stmts ++ more) := by
  intro final toward shallow
  rw [Arena.innermostAmong_append, ElabInput.joining_append]
  exact (first final (goes.toward.trans toward) fun stmt listed =>
      shallow stmt (List.mem_append_left _ listed)).trans
    (second final toward fun stmt listed =>
      shallow stmt (List.mem_append_right _ listed))

/--
The first pass over statements that were not typed types and registers them all.
-/
private theorem Abreast.recordAllTypes
    {stmts : List StmtId}
    {signings : List Signing}
    (abreast : state.Abreast typed listed ended)
    (start : state.At origin site)
    (ready : ∀ stmt ∈ stmts, ∃ bound, site.arena.Ready 0 bound (.stmt stmt))
    (new : ∀ stmt ∈ stmts, (state.arena.stmt stmt).form.isDeclaration = true →
      stmt ∉ typed)
    (distinct : (stmts.filter fun stmt =>
      (state.arena.stmt stmt).form.isDeclaration).Nodup)
    (run : Elab.recordEach Elab.recordTypes stmts input state =
      .done signings after) :
    ∃ later, Goes input origin state after site later ∧
      state.arena.Respects after.arena ∧
        (∀ stmt ∈ stmts, later.arena.Typed stmt) ∧
          after.Abreast (typed ++ stmts) listed ended ∧
            Joins input origin state after stmts ∧
            Signed input origin after stmts signings := by
  induction stmts generalizing state site typed signings with
  | nil =>
      cases run
      refine ⟨site, .refl start, .refl _, List.forall_mem_nil _,
        abreast.weaken (by simp), fun final _ _ => ?_,
        fun _ _ _ => List.forall_mem_nil _⟩
      rw [Arena.innermostAmong, Arena.declarationsAmong_nil, List.map_nil,
        ElabInput.joining_nil]
      exact (Hushes.refl _).registers
  | cons stmt stmts inductionHypothesis =>
      obtain ⟨⟨bound, readyFirst⟩, readyRest⟩ := List.forall_mem_cons.mp ready
      obtain ⟨newFirst, newRest⟩ := List.forall_mem_cons.mp new
      obtain ⟨signings, middle, first, run⟩ := Action.done_of_bind run
      obtain ⟨others, _, rest, run⟩ := Action.done_of_bind run
      cases run
      obtain ⟨between, goes, respects, typedFirst, abreastFirst, joins,
          signed⟩ :=
        abreast.recordTypes start readyFirst newFirst first
      have same : ∀ other ∈ stmts,
          (middle.arena.stmt other).form.isDeclaration =
          (state.arena.stmt other).form.isDeclaration := fun other listed =>
        have ⟨_, held⟩ := readyRest other listed
        goes.toward.framed.isDeclaration_eq (start.shows.arena ▸ held.holds)
      have distinctRest : (stmts.filter fun other =>
          (state.arena.stmt other).form.isDeclaration).Nodup :=
        distinct.sublist ((List.sublist_cons_self stmt stmts).filter _)
      have apart : ∀ other ∈ stmts,
          (middle.arena.stmt other).form.isDeclaration = true →
          other ∉ typed ++ [stmt] := by
        intro other listed declares among
        rw [same other listed] at declares
        rcases List.mem_append.mp among with before | here
        · exact newRest other listed declares before
        · obtain rfl := List.mem_singleton.mp here
          rw [List.filter_cons, if_pos declares] at distinct
          exact (List.nodup_cons.mp distinct).1
            (List.mem_filter.mpr ⟨listed, declares⟩)
      obtain ⟨later, goesOn, respectsOn, typedRest, abreastRest, joinsRest,
          signedRest⟩ :=
        inductionHypothesis abreastFirst goes.behind
          (fun other listed => (readyRest other listed).imp fun _ =>
            goes.later.ready) apart
          (by rwa [List.filter_congr same]) rest
      refine ⟨later, goes.trans goesOn,
        respects.trans respectsOn goes.toward.framed,
        List.forall_mem_cons.mpr ⟨?_, typedRest⟩, ?_,
        joins.trans joinsRest goesOn, fun final toward respectsFinal => ?_⟩
      · exact goesOn.later.typed typedFirst typedFirst
      · simpa using abreastRest
      · have here := signed final (goesOn.toward.trans toward)
          (respectsOn.trans respectsFinal goesOn.toward.framed)
        exact here.append (signedRest final toward respectsFinal)

/-- Memberships are reported. -/
def report (state : ElabState) (memberships : List Membership) : ElabState :=
  { state with
    findings := { state.findings with
      memberships := state.findings.memberships ++ memberships } }

private theorem report_report
    (state : ElabState)
    (memberships more : List Membership) :
    (state.report memberships).report more =
      state.report (memberships ++ more) := by
  simp only [report, List.append_assoc]

/-- A state that differs in what is reported shows the same worksite. -/
private theorem At.report
    (start : state.At origin site)
    (memberships : List Membership) :
    (state.report memberships).At origin site where
  shows :=
    ⟨start.shows.arena, start.shows.table, start.shows.saved,
      start.shows.wellFormed⟩
  since := start.since
  standing := start.standing

end ElabState

/--
The declaration that a statement holds, being a member of its overload set, is
reported.
-/
private theorem Elab.confirmMembership_run
    {input : ElabInput}
    {state : ElabState}
    {stmt : StmtId}
    (enlisted : ∀ decl ∈ state.arena.declarationsAmong [stmt],
      decl ∈ state.overloads decl) :
    Elab.confirmMembership stmt input state =
      .done () (state.report
        ((state.arena.declarationsAmong [stmt]).map state.standing)) := by
  have read : Elab.declarationOf? stmt input state = _ :=
    Elab.declarationOf?_run stmt input state
  cases form : (state.arena.stmt stmt).form with
  | declaration decl =>
      have among : state.arena.declarationsAmong [stmt] = [decl] := by
        simp [Arena.declarationsAmong, form]
      have member := enlisted decl (among ▸ List.mem_singleton_self _)
      have contained : state.scopes.contains (state.arena.decl decl).scope
          (state.arena.declKey decl) decl = true := by
        cases found : state.scopes.findLocal? (state.arena.decl decl).scope
            (state.arena.declKey decl) with
        | none => simp [ElabState.overloads, Scopes.setAt, found] at member
        | some set =>
            simpa [Scopes.contains, found, ElabState.overloads, Scopes.setAt]
              using member
      have place : (state.overloads decl).idxOf? decl =
          some ((state.overloads decl).idxOf decl) :=
        List.findIdx?_eq_some_iff_findIdx_eq.mpr
          ⟨List.idxOf_lt_length_of_mem member, rfl⟩
      rw [ElabState.overloads, Scopes.setAt] at place
      rw [form] at read
      simp only [Elab.confirmMembership, Elab.ensureMember, Elab.reportMember,
        bind, Action.bind, read, Elab.arena, Elab.scopes, Action.state,
        Elab.changeScopes, Action.modify, contained, if_true, place, Elab.find,
        pure, Action.pure, among, List.map_cons, List.map_nil]
      rfl
  | _ =>
      have among : state.arena.declarationsAmong [stmt] = [] := by
        simp [Arena.declarationsAmong, form]
      rw [form] at read
      simp only [Elab.confirmMembership, bind, Action.bind, read, among,
        List.map_nil, ElabState.report, List.append_nil]
      rfl

/-- Members of their overload sets are reported as they stand there. -/
private theorem Elab.confirmMemberships_run
    {input : ElabInput}
    {state : ElabState}
    {stmts : List StmtId}
    (enlisted : ∀ decl ∈ state.arena.declarationsAmong stmts,
      decl ∈ state.overloads decl) :
    stmts.forM Elab.confirmMembership input state =
      .done () (state.report
        ((state.arena.declarationsAmong stmts).map state.standing)) := by
  induction stmts generalizing state with
  | nil =>
      rw [Arena.declarationsAmong_nil, List.map_nil, ElabState.report,
        List.append_nil]
      rfl
  | cons stmt stmts inductionHypothesis =>
      rw [Arena.declarationsAmong_cons] at enlisted
      obtain ⟨first, others⟩ := List.forall_mem_append.mp enlisted
      let confirmed :=
        state.report ((state.arena.declarationsAmong [stmt]).map state.standing)
      have rest : stmts.forM Elab.confirmMembership input confirmed = _ :=
        inductionHypothesis others
      have chained : (stmt :: stmts).forM Elab.confirmMembership =
          (do
            Elab.confirmMembership stmt
            stmts.forM Elab.confirmMembership) := rfl
      rw [Arena.declarationsAmong_cons, List.map_append,
        ← ElabState.report_report, chained]
      simp only [bind, Action.bind, Elab.confirmMembership_run first]
      exact rest

/--
From between the passes elaboration leads to an arena, and respects what was
typed, as are the statements visited.
-/
structure Visit.Leads
    (input : ElabInput)
    (origin final : Arena)
    (visit : Visit) : Prop where
  site : ∃ site, visit.between.At origin site
  toward : Arena.Toward input origin visit.between.arena final
  respects : visit.between.arena.Respects final
  typed : ∀ stmt ∈ visit.stmts, visit.between.arena.Typed stmt

/-- What the third pass notes of a visit. -/
def Visit.Notes (visit : Visit) (noted : Merges) : Prop :=
  ∃ alive faults,
    Merging visit.between.arena visit.declared alive faults noted

/--
What visits to statement lists report, told in an arena that elaboration leads
to.
-/
structure Visit.Reports
    (input : ElabInput)
    (origin final : Arena)
    (state after : ElabState)
    (lists : List (List StmtId)) (visits : List Visit) : Prop where
  stmts : visits.map Visit.stmts = lists
  leads : ∀ visit ∈ visits, visit.Leads input origin final
  declared : ∀ visit ∈ visits, visit.declared =
    final.declarationsAmong visit.stmts
  enlisted : ∀ visit ∈ visits, ∀ decl ∈ visit.declared,
    decl ∈ visit.between.overloads decl
  bound : ∀ visit ∈ visits, ∀ decl ∈ visit.declared,
    (visit.between.arena.decl decl).scope = (final.decl decl).scope ∧
      visit.between.arena.declKey decl = final.declKey decl
  plain : ∀ visit ∈ visits, ∀ decl ∈ final.declarationsAmong visit.stmts,
    (final.decl decl).form.isParam = false
  seals : ∀ visit ∈ visits, ∀ decl ∈ visit.declared,
    final.Sealed input origin decl
  signs : ∀ visit ∈ visits, final.AllSigned visit.stmts visit.signings
  memberships : after.findings.memberships = state.findings.memberships ++
    visits.flatMap fun visit => visit.declared.map visit.between.standing
  openMethods : after.findings.openMethods =
    state.findings.openMethods.registerAll
    (input.joining final (final.innermostAmong lists.flatten))
  merges : ∃ noted, List.Forall₂ Visit.Notes visits noted ∧
    after.findings.merges = state.findings.merges.noteAll noted.flatten

namespace Visit.Reports

variable {input : ElabInput} {origin final : Arena}
  {state middle after : ElabState}
  {lists more : List (List StmtId)} {visits others : List Visit}

theorem none (hushes : state.Hushes after) :
    Reports input origin final state after [] [] where
  stmts := rfl
  leads := List.forall_mem_nil _
  declared := List.forall_mem_nil _
  enlisted := List.forall_mem_nil _
  bound := List.forall_mem_nil _
  plain := List.forall_mem_nil _
  seals := List.forall_mem_nil _
  signs := List.forall_mem_nil _
  memberships := by rw [hushes.memberships, List.flatMap_nil, List.append_nil]
  openMethods := by
    rw [hushes.openMethods, List.flatten_nil, Arena.innermostAmong,
      Arena.declarationsAmong_nil, List.map_nil, ElabInput.joining_nil]
    rfl
  merges := ⟨[], .nil, hushes.merges⟩

theorem append
    (first : Reports input origin final state middle lists visits)
    (second : Reports input origin final middle after more others) :
    Reports input origin final state after (lists ++ more)
      (visits ++ others) where
  stmts := by rw [List.map_append, first.stmts, second.stmts]
  leads := List.forall_mem_append.mpr ⟨first.leads, second.leads⟩
  declared := List.forall_mem_append.mpr ⟨first.declared, second.declared⟩
  enlisted := List.forall_mem_append.mpr ⟨first.enlisted, second.enlisted⟩
  bound := List.forall_mem_append.mpr ⟨first.bound, second.bound⟩
  plain := List.forall_mem_append.mpr ⟨first.plain, second.plain⟩
  seals := List.forall_mem_append.mpr ⟨first.seals, second.seals⟩
  signs := List.forall_mem_append.mpr ⟨first.signs, second.signs⟩
  memberships := by
    rw [second.memberships, first.memberships, List.flatMap_append,
      List.append_assoc]
  openMethods := by
    rw [second.openMethods, first.openMethods, List.flatten_append,
      Arena.innermostAmong_append, ElabInput.joining_append,
      OpenMethods.registerAll_append]
  merges := by
    obtain ⟨noted, notes, now⟩ := first.merges
    obtain ⟨further, notesToo, later⟩ := second.merges
    refine ⟨noted ++ further, List.rel_append notes notesToo, ?_⟩
    rw [later, now, Merges.noteAll, Merges.noteAll, Merges.noteAll,
      List.flatten_append, List.foldl_append]

end Visit.Reports

/-- A whole declaration keeps its scope and its key. -/
theorem Worksite.Sound.bound_eq
    {input : ElabInput}
    {origin final : Arena}
    {site : Worksite}
    {decl : DeclId}
    (sound : site.Sound)
    (framed : Arena.Framed input origin site.arena final)
    (whole : site.Whole (.decl decl)) :
    (site.arena.decl decl).scope = (final.decl decl).scope ∧
      site.arena.declKey decl = final.declKey decl := by
  obtain ⟨key, held, -, name, named⟩ := sound.keyed_of_whole whole
  refine ⟨(framed.decl held).scope.symm, ?_⟩
  have namedNow : (final.name (final.decl decl).name).form.key? = some key := by
    rw [(framed.decl held).name, framed.name name, named]
  rw [Arena.declKey, Arena.declKey, Arena.keyOf_of_key? named,
    Arena.keyOf_of_key? namedNow]

namespace ElabState

variable {input : ElabInput} {origin : Arena}
  {state middle between after : ElabState}
  {site : Worksite} {typed listed : List StmtId} {ended : List DeclId}
    {stmts : List StmtId}

/--
Members of overload sets are members of the sets of their keys in their own
scopes.
-/
private theorem At.mem_overloads
    {decl : DeclId}
    (start : state.At origin site)
    (enlists : state.scopes.table.Enlists decl) :
    decl ∈ state.overloads decl := by
  obtain ⟨set, found, member⟩ :=
    start.since.sound.member_of_enlists (start.shows.table ▸ enlists)
  rw [← start.shows.arena, ← start.shows.table] at found
  simpa [overloads, Scopes.setAt, Scopes.findLocal?, found] using member

/-- What a statement that was ready comes to hold is no parameter. -/
private theorem At.isParam_eq_false
    {final : Arena}
    {stmt : StmtId}
    {decl : DeclId}
    (start : state.At origin site)
    (ready : ∃ bound, site.arena.Ready 0 bound (.stmt stmt))
    (framed : Arena.Framed input origin state.arena final)
    (form : (final.stmt stmt).form = .declaration decl) :
    (final.decl decl).form.isParam = false := by
  obtain ⟨bound, ready⟩ := ready
  rw [← start.shows.arena] at ready
  have declares : (state.arena.stmt stmt).form.isDeclaration = true := by
    rw [← framed.isDeclaration_eq ready.holds, form]
    rfl
  cases held : (state.arena.stmt stmt).form with
  | declaration former =>
      obtain ⟨_, now, houses⟩ := framed.declaration held
      cases form.symm.trans now
      obtain ⟨_, -, inside⟩ := ready.declared held
      cases houses with
      | refl =>
          rw [(framed.decl inside.holds).isParam_eq, inside.isParam_eq_false]
      | template around _ => rw [around]; rfl
  | _ =>
      rw [held] at declares
      cases declares

/-- What a statement holds keeps its scope and its key. -/
private theorem At.bound_eq
    {final : Arena}
    {stmt : StmtId}
    {decl : DeclId}
    (start : state.At origin site)
    (framed : Arena.Framed input origin state.arena final)
    (form : (state.arena.stmt stmt).form = .declaration decl) :
    (state.arena.decl decl).scope = (final.decl decl).scope ∧
      state.arena.declKey decl = final.declKey decl := by
  rw [start.shows.arena] at framed form ⊢
  exact start.since.sound.bound_eq framed (start.since.sound.whole_of_stmt
    ⟨Arena.holds_of_declaration form, fun _ => Term.noConfusion⟩ form
    (List.mem_singleton_self _))

/--
The first three passes go on from a state, after which the statements are typed.
-/
theorem At.visit
    (start : state.At origin site)
    (ready : ∀ stmt ∈ stmts, ∃ bound, site.arena.Ready 0 bound (.stmt stmt))
    (typing : stmts.forM Elab.elaborateTypes input state = .done () middle)
    (confirming : stmts.forM Elab.confirmMembership input middle =
      .done () between)
    (merging : Elab.mergeForwardDeclarations stmts input between =
      .done () after) :
    ∃ later, Goes input origin state after site later ∧
      ∀ stmt ∈ stmts, later.arena.Typed stmt := by
  let fit (site : Worksite) (stmt : StmtId) : Prop := site.Whole (.stmt stmt)
  have kept {older newer : Worksite} {stmt : StmtId}
      (onward : older.Onward input origin newer)
      (was : fit older stmt) : fit newer stmt := onward.keeps.whole was
  have pass {action : StmtId → Elab Unit} {site : Worksite}
      (each : ∀ stmt (middle : Worksite), middle.Whole (.stmt stmt) →
        Works input origin middle (action stmt) fun _ _ => True)
      (fits : ∀ stmt ∈ stmts, site.Whole (.stmt stmt)) :
      Works input origin site (stmts.forM action) fun _ _ => True :=
    @Works.forM input origin site StmtId stmts action fit (fun _ _ => True)
      (fun _ => trivial)
      (fun _ _ _ _ => trivial) kept each fits
  have whole : ∀ stmt ∈ stmts, site.Whole (.stmt stmt) := fun stmt listed =>
    have ⟨_, held⟩ := ready stmt listed
    ⟨held.holds, nofun⟩
  obtain ⟨second, toSecond, -, typed⟩ :=
    (pass (fun _ _ fits => Works.elaborateTypes fits) whole).goes
    (Completes.elaborateAllTypes ready fun _ => id) start typing
  obtain ⟨third, toThird, -, -⟩ :=
    (pass (fun _ _ fits => Works.confirmMembership fits) fun stmt listed =>
    toSecond.onward.keeps.whole (whole stmt listed)).goes
      (Completes.beside (.forM .confirmMembership)) toSecond.behind confirming
  obtain ⟨last, toLast, -, -⟩ := (Works.mergeForwardDeclarations stmts).goes
    (Completes.beside (.mergeForwardDeclarations stmts)) toThird.behind merging
  have onward := toThird.trans toLast
  exact ⟨last, toSecond.trans onward, fun stmt listed =>
    onward.later.typed (typed stmt listed) (typed stmt listed)⟩

/--
The first three passes over statements that no list visited before had type and
register what they hold, and report it as it stands in its overload set.
-/
theorem Abreast.visit
    {signings : List Signing}
    (abreast : state.Abreast typed listed ended)
    (start : state.At origin site)
    (ready : ∀ stmt ∈ stmts, ∃ bound, site.arena.Ready 0 bound (.stmt stmt))
    (new : ∀ stmt ∈ stmts, (state.arena.stmt stmt).form.isDeclaration = true →
      stmt ∉ typed ∧ stmt ∉ listed)
    (distinct : (stmts.filter fun stmt =>
      (state.arena.stmt stmt).form.isDeclaration).Nodup)
    (typing : Elab.recordEach Elab.recordTypes stmts input state =
      .done signings middle)
    (confirming : stmts.forM Elab.confirmMembership input middle =
      .done () between)
    (merging : Elab.mergeForwardDeclarations stmts input between =
      .done () after) :
    after.Abreast (typed ++ stmts) (listed ++ stmts) ended ∧
      state.arena.Respects after.arena ∧
      ∀ final, Arena.Toward input origin after.arena final →
        after.arena.Respects final →
        (∀ stmt ∈ stmts,
          final.Shallow (final.termCount + 1) (final.inside stmt)) →
        (∀ stmt ∈ stmts, ∀ decl,
          (after.arena.stmt stmt).form = .declaration decl →
            final.Sealed input origin decl) →
          Visit.Reports input origin final state after [stmts]
            [{ stmts := stmts, signings := signings, between := between }] := by
  obtain ⟨second, toSecond, respects, typedAll, abreastTyped, joins, signed⟩ :=
    abreast.recordAllTypes start ready
    (fun stmt among declares => (new stmt among declares).1) distinct typing
  rw [← toSecond.behind.shows.arena] at typedAll
  have enlisted : ∀ decl ∈ middle.arena.declarationsAmong stmts,
      decl ∈ middle.overloads decl := by
    intro decl among
    obtain ⟨stmt, here, form⟩ := Arena.mem_declarationsAmong.mp among
    obtain ⟨_, held⟩ := ready stmt here
    have declares : (state.arena.stmt stmt).form.isDeclaration = true := by
      rw [← toSecond.toward.framed.isDeclaration_eq
        (start.shows.arena ▸ held.holds), form]
      rfl
    exact toSecond.behind.mem_overloads
      (abreastTyped.members form (new stmt here declares).2)
  cases (Elab.confirmMemberships_run enlisted).symm.trans confirming
  have reported :=
    toSecond.behind.report
      ((middle.arena.declarationsAmong stmts).map middle.standing)
  obtain ⟨last, toLast, ⟨same, steady⟩, -⟩ :=
    (Works.mergeForwardDeclarations stmts).goes
    (Completes.beside (.mergeForwardDeclarations stmts)) reported merging
  have abreastReported : ElabState.Abreast
      (middle.report
        ((middle.arena.declarationsAmong stmts).map middle.standing))
        (typed ++ stmts) listed ended :=
    ⟨abreastTyped.typed, abreastTyped.members, abreastTyped.finished,
      abreastTyped.ended⟩
  obtain ⟨alive, faults, noted, shapes, compared, merged⟩ :=
    Elab.mergeForwardDeclarations_run stmts input
      (middle.report
        ((middle.arena.declarationsAmong stmts).map middle.standing))
  cases merged.symm.trans merging
  refine ⟨abreastReported.merge toLast same steady, respects,
    fun final toward respectsOn shallow seals => ?_⟩
  have onward := toLast.toward.trans toward
  have registers := joins final onward shallow
  refine { stmts := rfl, leads := ?_, declared := ?_, enlisted := ?_,
           bound := ?_, plain := ?_, seals := ?_, signs := ?_,
           memberships := ?_, openMethods := ?_, merges := ?_ }
  · exact List.forall_mem_singleton.mpr
      ⟨⟨_, reported⟩, onward, respectsOn, typedAll⟩
  · refine List.forall_mem_singleton.mpr ?_
    exact (onward.later.declarationsAmong_eq typedAll).symm
  · exact List.forall_mem_singleton.mpr enlisted
  · refine List.forall_mem_singleton.mpr fun decl among => ?_
    obtain ⟨stmt, -, form⟩ := Arena.mem_declarationsAmong.mp among
    exact reported.bound_eq onward.framed form
  · refine List.forall_mem_singleton.mpr fun decl among => ?_
    obtain ⟨stmt, here, form⟩ := Arena.mem_declarationsAmong.mp among
    exact start.isParam_eq_false (ready stmt here)
      (toSecond.toward.trans onward).framed form
  · refine List.forall_mem_singleton.mpr fun decl among => ?_
    obtain ⟨stmt, here, form⟩ := Arena.mem_declarationsAmong.mp among
    exact seals stmt here decl form
  · exact List.forall_mem_singleton.mpr (signed final onward respectsOn)
  · rw [List.flatMap_singleton, ← registers.memberships]
    rfl
  · rw [List.flatten_singleton, ← registers.openMethods]
    rfl
  · refine ⟨[noted], .cons ⟨alive, faults, compared⟩ .nil, ?_⟩
    rw [List.flatten_singleton, ← registers.merges]
    rfl

end ElabState

end Tern
