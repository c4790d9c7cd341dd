import Tern.Proofs.Elaboration.Constancy
import Tern.Proofs.Elaboration.Restoring
import Tern.Proofs.Elaboration.SortedSets

namespace Tern

/-!
# Elaborating a unit any number of times

When a unit has been elaborated, each of its statement lists has been visited by
all passes. What the third pass made of a list then it would make of it in the
end, and what has left its overload set is what it took away. So elaborating the
unit again changes nothing, however often that is done.
-/

/--
Where no declaration is in two lists, no source is noted twice, and if anything
is noted of a declaration, it is noted as its own list is merged.
-/
private theorem Visit.notes_apart
    {visits : List Visit}
    {noted : List Merges}
    (notes : List.Forall₂ Visit.Notes visits noted)
    (distinct : (visits.flatMap Visit.declared).Nodup) :
    (noted.flatten.map Prod.fst).Nodup ∧
      noted.flatten.map Prod.fst ⊆ visits.flatMap Visit.declared ∧
        ∀ visit ∈ visits, ∃ own ∈ noted, visit.Notes own ∧
          ∀ decl ∈ visit.declared, decl ∈ noted.flatten.map Prod.fst →
            decl ∈ own.map Prod.fst := by
  induction notes with
  | nil => simp
  | @cons visit own visits noted here _ inductionHypothesis =>
      rw [List.flatMap_cons] at distinct
      obtain ⟨one, others, apart⟩ := List.nodup_append.mp distinct
      obtain ⟨once, inside, each⟩ := inductionHypothesis others
      have ⟨_, _, merging⟩ := here
      have sources := merging.sources_subset
      rw [List.flatten_cons, List.map_append, List.flatMap_cons]
      refine ⟨?_, ?_, List.forall_mem_cons.mpr ⟨?_, ?_⟩⟩
      · exact List.nodup_append.mpr ⟨merging.sources_nodup one, once,
          fun first listed second further =>
            apart first (sources listed) second (inside further)⟩
      · exact List.append_subset.mpr
          ⟨fun decl listed => List.mem_append_left _ (sources listed),
            fun decl listed => List.mem_append_right _ (inside listed)⟩
      · refine ⟨own, List.mem_cons_self .., here, fun decl declared among => ?_⟩
        exact (List.mem_append.mp among).resolve_right fun further =>
          apart decl declared decl (inside further) rfl
      · intro other listed
        obtain ⟨merges, noted, known, only⟩ := each other listed
        refine ⟨merges, List.mem_cons_of_mem _ noted, known,
          fun decl declared among => ?_⟩
        refine only decl declared
          ((List.mem_append.mp among).resolve_left fun first => ?_)
        exact apart decl (sources first) decl
          (List.mem_flatMap.mpr ⟨other, listed, declared⟩) rfl

/-- What the lists below a root declare is held by statements below it. -/
private theorem Arena.Rooted.holder
    {arena : Arena}
    {root : Term}
    {stmts : List StmtId}
    {decl : DeclId}
    (rooted : arena.Rooted root)
    (isList : stmts ∈ arena.lists root)
    (declared : decl ∈ arena.declarationsAmong stmts) :
    ∃ holder, arena.Owns root (.stmt holder) ∧
      (arena.stmt holder).form = .declaration decl := by
  obtain ⟨stmt, listed, form⟩ := Arena.mem_declarationsAmong.mp declared
  refine rooted.mem_declared.mp (List.mem_filterMap.mpr
    ⟨stmt, List.mem_flatten.mpr ⟨_, isList, listed⟩, ?_⟩)
  rw [form]
  rfl

namespace Compilation

variable {compilation : Compilation} {options : ElabOptions}
  {parsed : ParserState} {last : ElabState} {visits : List Visit}

/-- What a visited list declares is told apart in the end as it was then. -/
private theorem Recorded.toldAlike
    (recorded : compilation.Recorded options parsed last visits)
    {visit : Visit}
    (visited : visit ∈ visits)
    {decl : DeclId}
    (declared : decl ∈ visit.declared) :
    visit.between.arena.ToldAlike last.arena decl := by
  obtain ⟨_, later, goes, rooted, -, reports⟩ := recorded.reports
  have leads := reports.leads visit visited
  obtain ⟨older, start⟩ := leads.site
  have arena := start.shows.arena
  have arenaNow := goes.behind.shows.arena
  obtain ⟨stmt, listed, form⟩ := Arena.mem_declarationsAmong.mp declared
  have typed := leads.typed stmt listed
  have formNow := (leads.toward.form_eq typed).trans form
  obtain ⟨holder, above, holds⟩ := rooted.holder
    (reports.stmts ▸ List.mem_map_of_mem visited)
    (reports.declared visit visited ▸ declared)
  have abides : older.Abides later decl :=
    { before := start.since.sound.whole_of_declares
        (Arena.declares_of_stmt (arena ▸ form))
      behind := goes.behind.since.sound.whole_of_declares
        (Arena.declares_of_stmt (arenaNow ▸ formNow))
      typed := arena ▸ typed.elaborated decl form
      bounded := arenaNow ▸ rooted.bounded_of_owns (.child above
        (by simp [Arena.children, holds, StmtForm.children])) }
  have onward : older.LeadsTo (compilation.input options) parsed.arena later :=
    { sound := start.since.sound
      standing := start.standing
      soundNow := goes.behind.since.sound
      toward := arenaNow ▸ arena ▸ leads.toward
      respects := arenaNow ▸ arena ▸ leads.respects }
  have alike := onward.toldAlike abides
  rwa [← arena, ← arenaNow] at alike

/-- What the lists of a unit declare is finished in the end. -/
private theorem Recorded.finishedAmong
    (recorded : compilation.Recorded options parsed last visits)
    {visit : Visit}
    (visited : visit ∈ visits)
    {decl : DeclId}
    (declared : decl ∈ visit.declared) :
    last.arena.Finished decl := by
  obtain ⟨_, later, goes, rooted, -, reports⟩ := recorded.reports
  have arena := goes.behind.shows.arena
  have among := reports.declared visit visited ▸ declared
  obtain ⟨holder, above, form⟩ := rooted.holder
    (reports.stmts ▸ List.mem_map_of_mem visited) among
  have below : last.arena.Owns (.stmt compilation.unit) (.decl decl) :=
    .child above (by simp [Arena.children, form, StmtForm.children])
  have whole : later.Whole (.decl decl) :=
    goes.behind.since.sound.whole_of_declares
      (Arena.declares_of_stmt (arena ▸ form))
  have seals := reports.seals visit visited decl declared
  have bounded := rooted.bounded_of_owns below
  rw [arena] at seals bounded
  refine ⟨recorded.finished below (reports.plain visit visited decl among), ?_⟩
  rw [arena]
  exact fun param =>
    goes.behind.since.sound.finished_requiresParams whole bounded seals

/-- All passes have gone over the lists of a unit that was elaborated. -/
private theorem Recorded.hasPassed
    (recorded : compilation.Recorded options parsed last visits)
    (stands : last.Stands (compilation.input options) parsed.arena) :
    last.HasPassedAll (last.arena.walk (.stmt compilation.unit)) := by
  obtain ⟨site, later, goes, rooted, past, reports⟩ := recorded.reports
  have once : (last.findings.memberships.map Membership.decl).Nodup :=
    recorded.findings ▸ recorded.reportsMembers.once
  have told : last.findings.memberships.map Membership.decl =
      visits.flatMap Visit.declared := by
    rw [reports.memberships]
    simp [ElabState.afterParsing, Findings.none, List.map_flatMap,
      Function.comp_def, ElabState.standing]
  have arena := goes.behind.shows.arena
  have table := goes.behind.shows.table
  intro stmts listed
  have isList : stmts ∈ last.arena.lists (.stmt compilation.unit) := by
    rw [Arena.lists, ← Arena.filterMap_walkWithin]
    exact List.mem_filterMap.mpr ⟨_, listed, rfl⟩
  obtain ⟨visit, visited, rfl⟩ := List.mem_map.mp (reports.stmts ▸ isList)
  have declared := reports.declared visit visited
  have finished : ∀ decl ∈ last.arena.declarationsAmong visit.stmts,
      last.arena.Finished decl := fun decl among =>
    recorded.finishedAmong visited (declared ▸ among)
  obtain ⟨noted, notes, merges⟩ := reports.merges
  obtain ⟨sources, -, each⟩ := Visit.notes_apart notes (told ▸ once)
  obtain ⟨own, among, ⟨alive, faults, merging⟩, only⟩ := each visit visited
  have merging := merging.of_toldAlike fun decl => recorded.toldAlike visited
  have retired (decl : DeclId) : last.Retired decl ↔
      decl ∈ noted.flatten.map Prod.fst := by
    rw [ElabState.Retired, merges, Merges.mem_keys_noteAll]
    simp [ElabState.afterParsing, Findings.none]
  have inside {entry : DeclId × DeclId} (listed : entry ∈ own) :
      entry ∈ noted.flatten := List.mem_flatten.mpr ⟨own, among, listed⟩
  rw [declared] at merging only
  have merged : last.HasMerged visit.stmts :=
    { members := fun scope key => by
        cases found : last.scopes.findLocal? scope key with
        | none => simp [Scopes.setAt, found]
        | some set =>
            rw [Scopes.setAt, found]
            exact (goes.behind.since.sound.members scope key set
              (table ▸ found)).1
      distinct := by
        rw [← declared]
        exact (List.nodup_flatMap.mp (told ▸ once)).1 visit visited
      roomy := fun decl listed => by
        have held : last.arena.Holds (.decl decl) :=
          Arena.holds_of_phase_ne (by simp [(finished decl listed).phase])
        rw [arena] at held ⊢
        rw [table]
        exact goes.behind.since.sound.room_of_held held
      noted := by
        refine ⟨alive, faults, own, merging, fun decl listed => ?_,
          fun source target member => ?_⟩
        · obtain ⟨stmt, -, form⟩ := Arena.mem_declarationsAmong.mp listed
          rw [← xor_iff_iff_not.mp (stands.settled once form), retired]
          refine ⟨fun source => ?_, only decl listed⟩
          obtain ⟨entry, member, rfl⟩ := List.mem_map.mp source
          exact List.mem_map_of_mem (inside member)
        · rw [merges]
          exact Merges.lookup_noteAll _ sources (inside member) }
  exact ⟨merged, finished⟩

/-- A unit that was elaborated is complete, and still lists statements. -/
private theorem Recorded.complete
    (recorded : compilation.Recorded options parsed last visits) :
    last.arena.Complete (.stmt compilation.unit) ∧
      ∃ stmts scope, (last.arena.stmt compilation.unit).form =
        .list .unit stmts scope := by
  obtain ⟨_, _, goes, -⟩ := recorded.reports
  have ready :=
    parseUnit_parses compilation.names compilation.tokens options.mode
  rw [recorded.parses] at ready
  obtain ⟨-, -, -, stmts, scope, held, form, ready⟩ := ready
  have standing : parsed.arena.Standing [] := by
    have standing := goes.before.standing
    rwa [← goes.before.shows.arena] at standing
  have completes : Outcome.Completes _ _ _ _ _
      (Elab.elaborateUnit compilation.unit (compilation.input options)
        (.afterParsing parsed)) :=
    Completes.elaborateUnit held form ready _ rfl standing
  rw [(Elab.Records.unit compilation.unit).run_eq, recorded.elaborates]
    at completes
  obtain ⟨later, -, complete⟩ := completes
  exact ⟨complete, stmts, scope, (later.stmts rfl held).trans form⟩

/-- Elaborating the unit of a compilation again changes nothing. -/
theorem Recorded.restores
    (recorded : compilation.Recorded options parsed last visits)
    (scanned : (compilation.input options).Scanned) :
    (Elab.elaborateUnit compilation.unit).Restores last := by
  obtain ⟨complete, stmts, scope, form⟩ := recorded.complete
  obtain ⟨_, _, -, rooted, -⟩ := recorded.reports
  exact .elaborateUnit form rooted.bounded complete
    (recorded.hasPassed (recorded.stands scanned).2.stands)

end Compilation

/-- Elaborate a unit a number of times, one after the other. -/
def Elab.elaborateUnitTimes (unit : StmtId) : Nat → Elab Unit
  | 0 => return ()
  | count + 1 => do
      elaborateUnit unit
      elaborateUnitTimes unit count

/--
Elaborating a unit again changes nothing. For every text and all options, if the
unit parsed from it is elaborated, then elaborating it any number of times more
is done. It leaves the arena, the overload sets in their order with all else in
the scopes, the notes of merged forward declarations and the open methods as
they were the first time.
-/
theorem elaborateUnit_idempotent
    {source : String}
    {options : ElabOptions}
    {unit : StmtId}
    {parsed : ParserState}
    {first : ElabState}
    (parses : parseUnit (scan .initial source).2 (scan .initial source).1
      options.mode = .done unit parsed) :
    let input : ElabInput :=
      { tokens := (scan .initial source).1, names := (scan .initial source).2,
        options := options }
    (Elab.elaborateUnit unit).run input (.afterParsing parsed) =
      .done () first →
    ∀ count, ∃ last,
      (Elab.elaborateUnitTimes unit count).run input first = .done () last ∧
        first.Alike last := by
  intro input elaborates count
  let compilation : Compilation :=
    { names := input.names, tokens := input.tokens, arena := first.arena,
      scopes := first.scopes, unit := unit, findings := first.findings }
  obtain ⟨visits, recording⟩ :=
    (Elab.Records.unit unit).exists_run elaborates
  have recorded : compilation.Recorded options parsed first visits :=
    ⟨parses, recording, rfl, rfl, rfl⟩
  have scanned := ElabInput.scanned_scan source options
  have stands := (recorded.stands scanned).2.stands
  have restores : (Elab.elaborateUnit unit).Restores first :=
    recorded.restores scanned
  have times : (Elab.elaborateUnitTimes unit count).Restores first := by
    induction count with
    | zero => exact .pure ()
    | succ count inductionHypothesis =>
        exact .bind restores fun _ => inductionHypothesis
  obtain ⟨_, last, run, alike⟩ := times input first (.refl stands.wellFormed)
  exact ⟨last, run, alike⟩

/--
Forward declarations, one of them in a class and wrapped in a template, leave
their sets each time.
-/
theorem elaborateUnit_idempotent_mergedForward :
    let source := "def f(virtual a: int); class C \x7b def g(x); def g(x) = 1; \x7d def f(virtual a: int) = 0;"
    let options : ElabOptions := { mode := .deferred, openMethods := true }
    let input : ElabInput :=
      { tokens := (scan .initial source).1, names := (scan .initial source).2,
        options := options }
    ∃ unit parsed first,
      parseUnit input.names input.tokens .deferred = .done unit parsed ∧
        (Elab.elaborateUnit unit).run input (.afterParsing parsed) =
          .done () first ∧
        first.findings.merges.length = 2 ∧
          first.findings.openMethods.count = 1 ∧
          ∀ count, ∃ last,
            (Elab.elaborateUnitTimes unit count).run input first =
              .done () last ∧
              first.Alike last := by
  intro source options input
  obtain ⟨compilation, compiles, found⟩ := @exists_compilation
    (compile? source options)
    (fun compilation => compilation.findings.merges.length == 2 &&
      compilation.findings.openMethods.count == 1) (by decide +kernel)
  rw [Bool.and_eq_true, beq_iff_eq, beq_iff_eq] at found
  obtain ⟨unit, parsed, first, parses, elaborates, rfl⟩ :=
    Compilation.exists_elaborated compiles
  exact ⟨unit, parsed, first, parses, elaborates, found.1, found.2,
    elaborateUnit_idempotent parses elaborates⟩

end Tern
