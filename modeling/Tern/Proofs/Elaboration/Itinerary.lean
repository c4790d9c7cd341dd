import Tern.Proofs.Building.Trees
import Tern.Proofs.Elaboration.Touring

namespace Tern

/-!
# Itineraries

Elaboration on record visits a statement list, and then the lists within each of
its statements in turn. So it goes through a compilation unit as a walk through
the unit does, and the visits are of the lists that the walk comes by.
-/

namespace ElabState

variable {input : ElabInput} {origin final : Arena}
  {state middle between after : ElabState}
  {site : Worksite} {stmts : List StmtId}

/-- The first three passes over a list come past it, and visit it. -/
private theorem Follows.visit
    {signings : List Signing}
    (start : state.At origin site)
    (ready : ∀ stmt ∈ stmts, ∃ bound, site.arena.Ready 0 bound (.stmt stmt))
    (typing : Elab.recordEach Elab.recordTypes stmts input state =
      .done signings middle)
    (confirming : stmts.forM Elab.confirmMembership input middle =
      .done () between)
    (merging : Elab.mergeForwardDeclarations stmts input between =
      .done () after)
    (toward : Arena.Toward input origin after.arena final)
    (onward : Arena.Toward input origin state.arena final)
    (bounded : ∀ stmt ∈ stmts, final.Bounded (.stmt stmt))
    (seals : ∀ stmt ∈ stmts, ∀ decl,
      (after.arena.stmt stmt).form = .declaration decl →
        final.Sealed input origin decl) :
    state.Follows input origin final [.list stmts]
      [{ stmts := stmts, signings := signings, between := between }] after := by
  intro log past distinct
  have marked {stmt : StmtId} (listed : stmt ∈ stmts) :
      final.isMarked (.stmt stmt) =
        (state.arena.stmt stmt).form.isDeclaration :=
    have ⟨_, held⟩ := ready stmt listed
    onward.framed.isDeclaration_eq (start.shows.arena ▸ held.holds)
  rw [List.flatMap_append, List.flatMap_singleton] at distinct
  obtain ⟨-, own, apart⟩ := List.nodup_append.mp distinct
  have new : ∀ stmt ∈ stmts, (state.arena.stmt stmt).form.isDeclaration = true →
      stmt ∉ (log.filterMap Landmark.list?).flatten := by
    intro stmt listed declares among
    obtain ⟨list, isList, member⟩ := List.mem_flatten.mp among
    obtain ⟨landmark, earlier, found⟩ := List.mem_filterMap.mp isList
    obtain rfl : landmark = .list list := by
      cases landmark <;> simp_all [Landmark.list?]
    have mark {stmts : List StmtId} (among : stmt ∈ stmts) :
        Term.stmt stmt ∈ final.marks (.list stmts) :=
      List.mem_filter.mpr
        ⟨List.mem_map_of_mem among, (marked listed).trans declares⟩
    exact apart _ (List.mem_flatMap.mpr ⟨_, earlier, mark member⟩)
      _ (mark listed) rfl
  have once : (stmts.filter fun stmt =>
      (state.arena.stmt stmt).form.isDeclaration).Nodup := by
    rw [Arena.marks, List.filter_map] at own
    rw [← List.filter_congr fun stmt listed => marked listed]
    exact own.of_map _
  have visited := Abreast.visit past start ready (fun stmt listed declares =>
    ⟨new stmt listed declares, new stmt listed declares⟩) once typing confirming
      merging
  have lists : (log ++ [Landmark.list stmts]).filterMap Landmark.list? =
      log.filterMap Landmark.list? ++ [stmts] := by simp [Landmark.list?]
  have ends : (log ++ [Landmark.list stmts]).filterMap Landmark.finish? =
      log.filterMap Landmark.finish? := by simp [Landmark.finish?]
  rw [Past, lists, ends, List.flatten_append, List.flatten_singleton]
  exact ⟨visited.1, visited.2.1, fun respects =>
    visited.2.2 final toward respects
      (fun stmt listed => (bounded stmt listed).inside) seals⟩

end ElabState

namespace Tours

variable {input : ElabInput} {origin final : Arena} {site : Worksite}
  {depth : Nat}

/-- The declaration that a statement holds is read first. -/
private theorem readDeclaration
    {stmt : StmtId}
    {terms : List Term}
    {marks : List Landmark}
    {recording : Option DeclId → Elab (List Visit)}
    (holds : ∀ decl, (site.arena.stmt stmt).form = .declaration decl →
      Tours input origin final terms site (recording (some decl)) marks)
    (plain : (site.arena.stmt stmt).form.isDeclaration = false →
      Tours input origin final terms site (recording .none) marks) :
    Tours input origin final terms site (Elab.declarationOf? stmt >>= recording)
      marks := by
  intro state after visits start run
  obtain ⟨decl?, middle, read, run⟩ := Action.done_of_bind run
  have known : Elab.declarationOf? stmt input state = _ :=
    Elab.declarationOf?_run stmt input state
  rw [start.shows.arena] at known
  cases known.symm.trans read
  cases form : (site.arena.stmt stmt).form with
  | declaration decl =>
      rw [form] at run
      exact holds decl form start run
  | _ =>
      rw [form] at run
      exact plain (by rw [form]; rfl) start run

section

variable (carried : Carried input origin final depth)

include carried

/-- What is within a typed statement of a list is elaborated on record. -/
private theorem item
    {stmt : StmtId}
    (scope : ScopeId)
    (whole : site.Whole (.stmt stmt))
    (typed : site.arena.Typed stmt)
    (enters : site.arena.Enters (depth + 1) stmt) :
    Tours input origin final [.stmt stmt] site
      (Elab.recordDefined (Elab.recorded depth) scope stmt)
        (final.walk (final.inside stmt)) := by
  refine given fun sound _ => ?_
  obtain ⟨bound, ready, room, more⟩ := enters
  refine readDeclaration (fun decl form => ?_) fun plain => ?_
  · obtain ⟨inner, within, inside⟩ := ready.declared form
    have wholeDecl : site.Whole (.decl decl) :=
      sound.whole_of_stmt whole form (by simp [StmtForm.children])
    have held : Tours input origin final [.stmt stmt] site
        (Elab.recorded depth (.definition decl))
          (final.walk (final.inside stmt)) :=
      (carried (.definition decl) wholeDecl
        ⟨inner, by omega, inside, typed.elaborated decl form⟩).reckon
        fun toward bounded => by
          have same : final.inside stmt = .decl decl := by
            rw [toward.inside_eq typed, Arena.inside, form]
          have below := (bounded _ (List.mem_singleton_self _)).inside
          rw [same] at below ⊢
          exact ⟨rfl, List.forall_mem_singleton.mpr below⟩
    exact held.before fun later onward order =>
      Calms.raiseRequiresParams _ (onward.keeps.whole wholeDecl)
        (order.ready inside)
  · have enough := more plain
    refine (carried (.statement stmt scope) whole
      ⟨bound, by omega, ready⟩).reckon
      fun toward bounded => ⟨?_, bounded⟩
    have same : final.inside stmt = .stmt stmt := by
      rw [toward.inside_eq typed, Arena.inside]
      cases form : (site.arena.stmt stmt).form <;>
        simp_all [StmtForm.isDeclaration]
    rw [same]
    rfl

/--
All passes over statements are on record, the list before what is within them.
-/
private theorem statements
    {stmts : List StmtId}
    (scope : ScopeId)
    (whole : ∀ stmt ∈ stmts, site.Whole (.stmt stmt))
    (enters : ∀ stmt ∈ stmts, site.arena.Enters (depth + 1) stmt) :
    Tours input origin final (stmts.map Term.stmt) site
      (Elab.recordStatements (Elab.recorded depth) stmts scope)
      (.list stmts :: stmts.flatMap fun stmt =>
        final.walk (final.inside stmt)) := by
  intro state after visits start run
  have ready : ∀ stmt ∈ stmts, ∃ bound, site.arena.Ready 0 bound (.stmt stmt) :=
    fun stmt listed =>
      have ⟨bound, known, _⟩ := enters stmt listed; ⟨bound, known⟩
  obtain ⟨_, first, typing, run⟩ := Action.done_of_bind run
  obtain ⟨_, second, confirming, run⟩ := Action.done_of_bind run
  obtain ⟨between, _, observed, run⟩ := Action.done_of_bind run
  cases observed
  obtain ⟨_, third, merging, run⟩ := Action.done_of_bind run
  obtain ⟨found, _, defining, run⟩ := Action.done_of_bind run
  cases run
  obtain ⟨middle, goes, typed⟩ := start.visit ready
    ((Elab.Records.each Elab.Records.types stmts).done typing) confirming
      merging
  let fit (later : Worksite) (stmt : StmtId) : Prop :=
    later.Whole (.stmt stmt) ∧ later.arena.Typed stmt ∧
      later.arena.Enters (depth + 1) stmt
  have items : Tours input origin final (stmts.map Term.stmt) middle
      (Elab.recordEach (Elab.recordDefined (Elab.recorded depth) scope) stmts)
      (stmts.flatMap fun stmt => final.walk (final.inside stmt)) := by
    refine @each input origin final _ middle StmtId stmts _ fit
      _ (fun onward order known => ?_)
      (fun stmt listed site known => ?_) fun stmt listed => ?_
    · exact ⟨onward.keeps.whole known.1, order.typed known.2.1 known.2.1,
        order.enters known.2.2⟩
    · obtain ⟨wholeNow, typedNow, entersNow⟩ := known
      exact (item carried scope wholeNow typedNow entersNow).reckon
          fun _ bounded =>
        ⟨rfl, List.forall_mem_singleton.mpr
          (bounded _ (List.mem_map_of_mem listed))⟩
    · exact ⟨goes.onward.keeps.whole (whole stmt listed), typed stmt listed,
        goes.later.enters (enters stmt listed)⟩
  obtain ⟨later, goesOn, follows⟩ := items goes.behind defining
  have moves :=
    (Elab.Records.each (Elab.Records.defined (Elab.Records.nested depth) scope)
      stmts).run_eq input third
  rw [defining] at moves
  obtain ⟨_, -, seals⟩ := goes.behind.sealsAll
    (fun stmt listed => goes.onward.keeps.whole (whole stmt listed)) typed
    (fun stmt listed => goes.later.enters (enters stmt listed)) moves
  refine ⟨later, goes.trans goesOn, fun toward bounded => ?_⟩
  have beyond := goesOn.toward.trans toward
  exact (ElabState.Follows.visit start ready typing confirming merging beyond
    (goes.toward.trans beyond)
    (fun stmt listed => bounded _ (List.mem_map_of_mem listed))
    fun stmt listed decl form =>
      (seals stmt listed decl
        (goes.behind.shows.arena ▸ form)).onward toward).append
      (follows toward bounded) goes goesOn

end

/--
Tasks are carried out on record past their landmarks, however deep they are
nested.
-/
private theorem carried (standing : final.Standing []) (depth : Nat) :
    Carried input origin final depth := by
  induction depth with
  | zero =>
      intro site task _ _ state after visits _ run
      cases run
  | succ depth inductionHypothesis =>
      intro site task awaits fits
      cases task with
      | statements stmts scope =>
          exact statements inductionHypothesis scope awaits fits.2
      | statement stmt scope =>
          obtain ⟨bound, room, ready⟩ := fits
          exact statement awaits inductionHypothesis scope ready (by omega)
      | definition decl =>
          obtain ⟨bound, room, ready, elaborated⟩ := fits
          exact definition awaits elaborated inductionHypothesis ready
            (by omega) standing

end Tours

/-- Refusing what is not parsed changes nothing. -/
theorem Elab.refuseResidual_done
    {input : ElabInput}
    {unit : StmtId}
    {state after : ElabState}
    (run : Elab.refuseResidual unit input state = .done () after) :
    after = state := by
  obtain ⟨_, _, observed, run⟩ := Action.done_of_bind run
  cases observed
  cases found : state.arena.firstUnparsed? unit <;> rw [found] at run <;>
    cases run
  rfl

/--
A compilation unit is elaborated on record from a state in which nothing has
come to any landmark yet. In the end all landmarks of a walk through the unit
are passed, and the visits, which are of the lists of that walk, report what
they do. The walk is through the arena that elaboration leaves behind, where the
phases stand.
-/
theorem Elab.recordUnit_reports
    {input : ElabInput}
    {origin : Arena}
    {state after : ElabState}
    {site : Worksite}
    {unit : StmtId}
    {stmts : List StmtId}
    {scope : ScopeId}
    {visits : List Visit}
    (start : state.At origin site)
    (held : state.arena.Holds (.stmt unit))
    (form : (state.arena.stmt unit).form = .list .unit stmts scope)
    (ready : ∀ stmt ∈ stmts, state.arena.Ready 0 (4 * input.tokens.size)
      (.stmt stmt))
    (past : state.Past [])
    (run : Elab.recordUnit unit input state = .done visits after) :
    ∃ later, ElabState.Goes input origin state after site later ∧
      after.arena.Rooted (.stmt unit) ∧
        after.Past (after.arena.walk (.stmt unit)) ∧
        Visit.Reports input origin after.arena state after
          (after.arena.lists (.stmt unit)) visits := by
  have arena := start.shows.arena
  obtain ⟨_, _, observed, run⟩ := Action.done_of_bind run
  cases observed
  dsimp only at run
  rw [form] at run
  obtain ⟨_, _, consulted, run⟩ := Action.done_of_bind run
  cases consulted
  obtain ⟨_, _, observed, run⟩ := Action.done_of_bind run
  cases observed
  obtain ⟨found, middle, recording, run⟩ := Action.done_of_bind run
  obtain ⟨_, last, residual, run⟩ := Action.done_of_bind run
  cases Elab.refuseResidual_done residual
  cases run
  have typed : state.arena.Typed unit :=
    { held := held
      parsed := by rw [Arena.isUnparsed, form]; rfl
      elaborated := fun decl declares => by cases form.symm.trans declares }
  have wholeUnit : site.Whole (.stmt unit) :=
    ⟨arena ▸ held, fun _ => Term.noConfusion⟩
  have whole : ∀ stmt ∈ stmts, site.Whole (.stmt stmt) := fun stmt listed =>
    start.since.sound.whole_of_stmt wholeUnit (arena ▸ form)
      (by simp [StmtForm.children, listed])
  have enters : ∀ stmt ∈ stmts,
      site.arena.Enters (4 * (state.arena.termCount + input.tokens.size + 1))
          stmt := fun stmt listed =>
    ⟨_, arena ▸ ready stmt listed, by omega, fun _ => by omega⟩
  have fits : site.arena.Fits
      (4 * (state.arena.termCount + input.tokens.size + 1))
      (.statements stmts scope) := ⟨by omega, enters⟩
  have moves :=
    (Elab.Records.nested (4 * (state.arena.termCount + input.tokens.size + 1))
    (.statements stmts scope)).run_eq input state
  rw [recording] at moves
  obtain ⟨last, goesPlain, -⟩ :=
    (Works.nested (.statements stmts scope) whole).goes
    (Performs.nested input _ fits fun _ => id) start moves
  have standing : after.arena.Standing [] :=
    goesPlain.behind.shows.arena.symm ▸ goesPlain.behind.standing
  obtain ⟨later, goes, follows⟩ :=
    Tours.carried standing _ (.statements stmts scope) whole fits
    start recording
  have formNow : (after.arena.stmt unit).form = .list .unit stmts scope :=
    (goes.toward.form_eq typed).trans form
  have rooted : after.arena.Rooted (.stmt unit) := by
    rw [goes.behind.shows.arena]
    refine goes.behind.since.sound.rooted
      (goes.onward.keeps.whole wholeUnit).1 ?_
    rw [← goes.behind.shows.arena, Arena.isUnit, formNow]
    rfl
  have bounded : after.arena.Bounded (.stmt unit) :=
    Arena.Shallow.mono (rooted.shallow .here) (by simp)
  have walk : [] ++ ElabTask.landmarks after.arena (.statements stmts scope) =
      after.arena.walk (.stmt unit) := (bounded.walk_list formNow).symm
  obtain ⟨passed, -, reports⟩ :=
    follows (.refl _) (List.forall_mem_map.mpr fun stmt listed =>
    bounded.child
      (by simp [Arena.children, formNow, StmtForm.children, listed])) [] past
      (walk ▸ rooted.nodup_marks bounded)
  rw [walk] at passed
  have reports := reports (.refl _)
  rw [← List.nil_append (ElabTask.landmarks _ _), walk, Arena.walk,
    Arena.filterMap_walkWithin] at reports
  exact ⟨later, goes, rooted, passed, reports⟩

end Tern
