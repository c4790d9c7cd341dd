import Tern.Compilation
import Tern.Proofs.Building.Enrolling
import Tern.Proofs.Elaboration.Histories
import Tern.Proofs.Elaboration.Itinerary
import Tern.Proofs.Elaboration.MergeSoundness

namespace Tern

/-!
# Memberships of a compilation

Each declaration that a statement of a parsed unit holds is a member of its
overload set, and none is elaborated. From there elaboration visits the
statement lists of the unit, each once and before those within its statements.
So each declaration that a statement holds in the end is reported once, as it
stands in its overload set between the second and the third pass over its list.
-/

section

variable {names : Names} {tokens : Tokens} {mode : ParseMode} {unit : StmtId}
  {parsed : ParserState}
  (parses : parseUnit names tokens mode = .done unit parsed)

include parses

/--
The statements of a parsed unit hold members of overload sets. Parsing begins
with nothing at hand but the rights to bind.
-/
private theorem parsedUnit_enlists :
    ∃ stock, (parsed.site stock).Sound ∧ parsed.scopes.WellFormed ∧
      ∀ {stmt decl}, (parsed.arena.stmt stmt).form = .declaration decl →
        parsed.scopes.table.Enlists decl := by
  let input : ParserInput :=
    { window := .whole tokens, names := names, mode := mode }
  let start : ParserState := .start input.window .initial .empty
  have grounded : start.Grounded := (History.start input.window).grounded
  have inside : start.position ≤ input.window.stop :=
    (Nat.le_of_eq (Window.whole_start tokens)).trans (Nat.zero_le _)
  have ends : (Parser.unit.run input start).EndsIn parsed := .inl ⟨unit, parses⟩
  obtain ⟨rights, more, only, ready, steps, wellFormed, -⟩ :=
    grounded.steps Worksite.Sound.initial .unit (Window.whole_closed tokens)
      inside ends
  obtain ⟨-, sound⟩ := BuildSteps.sound steps ready
  refine ⟨more, sound, wellFormed, fun {stmt decl} form => ?_⟩
  have nothing {decl : DeclId} (kept : (start.site (rights + 0)).Keeping decl) :
      False := by
    have listed : Piece.term (.decl decl) ∈ rights ∨
        Piece.begun decl ∈ rights := by
      simpa [Worksite.Keeping, Worksite.Begun, ParserState.site] using kept
    rcases listed with loose | begun
    · rcases only _ loose with same | same <;> cases same
    · rcases only _ begun with same | same <;> cases same
  have absent : ¬ Arena.empty.Holds (.stmt stmt) := by
    simp [Arena.Holds, Arena.empty]
  exact ((BuildSteps.enrolls steps ready).declared sound
    (fun kept => (nothing kept).elim)
    (Arena.holds_of_declaration form) absent form).2

/-- Elaboration sets out from a parsed unit with nothing behind it. -/
private theorem parsedUnit_past :
    (∃ site, (ElabState.afterParsing parsed).At parsed.arena site) ∧
      (ElabState.afterParsing parsed).Past [] := by
  obtain ⟨stock, sound, wellFormed, enlists⟩ := parsedUnit_enlists parses
  have ready := parseUnit_parses names tokens mode
  rw [parses] at ready
  obtain ⟨-, phases, -⟩ := ready
  exact ⟨⟨_, ⟨rfl, rfl, rfl, wellFormed⟩, ⟨sound, id⟩, .of_unelaborated phases⟩,
    { typed := fun {decl} reached => absurd (phases decl) reached
      members := fun form _ => enlists form
      finished := fun listed => absurd listed (List.not_mem_nil)
      ended :=
        fun {decl} finished => nomatch finished.symm.trans (phases decl) }⟩

end

/-- What a compilation was elaborated with. -/
def Compilation.input (compilation : Compilation) (options : ElabOptions) :
    ElabInput :=
  { tokens := compilation.tokens, names := compilation.names,
    options := options }

/--
A compilation came out of a parsed unit, visits being on record as it was
elaborated.
-/
structure Compilation.Recorded
    (compilation : Compilation)
    (options : ElabOptions)
    (parsed : ParserState) (last : ElabState) (visits : List Visit) : Prop where
  parses : parseUnit compilation.names compilation.tokens options.mode =
    .done compilation.unit parsed
  elaborates : Elab.recordUnit compilation.unit (compilation.input options)
    (.afterParsing parsed) =
    .done visits last
  arena : compilation.arena = last.arena
  scopes : compilation.scopes = last.scopes
  findings : compilation.findings = last.findings

namespace Compilation

variable {compilation : Compilation} {options : ElabOptions}
  {parsed : ParserState}
  {last : ElabState} {visits : List Visit}

/-- Whatever compiles is on record. -/
theorem exists_recorded
    {source : String}
    (compiles : compile? source options = some (.ok compilation)) :
    ∃ parsed last visits, compilation.Recorded options parsed last visits := by
  obtain ⟨unit, parsed, last, parses, elaborates, rfl⟩ :=
    exists_elaborated compiles
  obtain ⟨visits, recording⟩ := (Elab.Records.unit unit).exists_run elaborates
  exact ⟨parsed, last, visits, parses, recording, rfl, rfl, rfl⟩

/--
In the end all landmarks of the unit are behind, and the visits report what they
do.
-/
theorem Recorded.reports
    (recorded : compilation.Recorded options parsed last visits) :
    ∃ site later, ElabState.Goes (compilation.input options) parsed.arena
      (.afterParsing parsed) last
        site later ∧
      last.arena.Rooted (.stmt compilation.unit) ∧
        last.Past (last.arena.walk (.stmt compilation.unit)) ∧
          Visit.Reports (compilation.input options) parsed.arena last.arena
            (.afterParsing parsed) last
            (last.arena.lists (.stmt compilation.unit)) visits := by
  obtain ⟨⟨site, start⟩, past⟩ := parsedUnit_past recorded.parses
  have ready :=
    parseUnit_parses compilation.names compilation.tokens options.mode
  rw [recorded.parses] at ready
  obtain ⟨-, -, -, stmts, scope, held, form, ready⟩ := ready
  exact ⟨site, Elab.recordUnit_reports start held form ready past
    recorded.elaborates⟩

/-- All declarations below the unit but parameters are finished. -/
theorem Recorded.finished
    (recorded : compilation.Recorded options parsed last visits)
    {decl : DeclId}
    (reached : last.arena.Owns (.stmt compilation.unit) (.decl decl))
    (plain : (last.arena.decl decl).form.isParam = false) :
    (last.arena.decl decl).phase = .definitionElaborated := by
  obtain ⟨_, _, -, rooted, past, -⟩ := recorded.reports
  have marked : last.arena.isMarked (.decl decl) = true := by
    simp [Arena.isMarked, plain]
  obtain ⟨landmark, among, shown⟩ :=
    List.mem_flatMap.mp (rooted.mem_marks.mpr ⟨reached, marked⟩)
  refine past.finished (List.mem_filterMap.mpr ⟨landmark, among, ?_⟩)
  cases landmark with
  | list stmts => simp [Arena.marks] at shown
  | finish other => simpa [Arena.marks, Landmark.finish?, eq_comm] using shown

/--
What a compilation reports of memberships, which are those on record. The lists
of the unit are visited in the order of a walk through it, so a list is visited
before those within its statements, and nothing else in between.
-/
structure ReportsMembers (compilation : Compilation) (visits : List Visit) :
    Prop where
  visited : visits.map Visit.stmts =
    compilation.arena.lists (.stmt compilation.unit)
  nested : ∀ {stmt role stmts scope},
    compilation.arena.Owns (.stmt compilation.unit) (.stmt stmt) →
    (compilation.arena.stmt stmt).form = .list role stmts scope →
      (stmts :: stmts.flatMap fun item =>
        compilation.arena.lists (compilation.arena.inside item)) <:+:
        visits.map Visit.stmts
  /--
  The declarations of a list are reported in order, each as it stands between
  two passes.
  -/
  events : compilation.findings.memberships = visits.flatMap fun visit =>
    (compilation.arena.declarationsAmong visit.stmts).map visit.between.standing
  /-- There each is a member of the set of its own scope and key. -/
  enlisted : ∀ visit ∈ visits,
    ∀ decl ∈ compilation.arena.declarationsAmong visit.stmts,
    decl ∈ visit.between.overloads decl ∧
      (visit.between.arena.decl decl).scope =
        (compilation.arena.decl decl).scope ∧
        visit.between.arena.declKey decl = compilation.arena.declKey decl
  /--
  What is reported are the declarations that the statements of the unit hold
  in the end.
  -/
  named : ∀ decl, decl ∈ compilation.findings.memberships.map Membership.decl ↔
    ∃ stmt, compilation.arena.Owns (.stmt compilation.unit) (.stmt stmt) ∧
      (compilation.arena.stmt stmt).form = .declaration decl
  once : (compilation.findings.memberships.map Membership.decl).Nodup

/-- A compilation on record reports the memberships on record. -/
theorem Recorded.reportsMembers
    (recorded : compilation.Recorded options parsed last visits) :
    compilation.ReportsMembers visits := by
  obtain ⟨_, _, -, rooted, -, reports⟩ := recorded.reports
  rw [← recorded.arena] at rooted reports
  have told : compilation.findings.memberships =
      visits.flatMap fun visit =>
        visit.declared.map visit.between.standing := by
    rw [recorded.findings, reports.memberships]
    rfl
  have events : compilation.findings.memberships = visits.flatMap fun visit =>
      (compilation.arena.declarationsAmong visit.stmts).map
        visit.between.standing := by
    rw [told]
    exact List.flatMap_congr fun visit listed => by
      rw [reports.declared visit listed]
  have decls : compilation.findings.memberships.map Membership.decl =
      (compilation.arena.lists (.stmt compilation.unit)).flatten.filterMap
          fun stmt =>
        (compilation.arena.stmt stmt).form.declared? := by
    have standing (state : ElabState) : Membership.decl ∘ state.standing = id :=
      rfl
    have flat : (visits.map Visit.stmts).flatten = visits.flatMap Visit.stmts :=
      rfl
    simp only [events, List.map_flatMap, List.map_map, standing, List.map_id,
      ← reports.stmts, flat, List.filterMap_flatMap]
    rfl
  exact
    { visited := reports.stmts
      nested := fun {stmt role stmts scope} reached form => by
        have walked := rooted.bounded.infix_walk reached (by rw [form]; rfl)
        rw [(rooted.bounded_of_owns reached).walk_list form] at walked
        have listed := walked.filterMap Landmark.list?
        simpa [reports.stmts, Arena.lists, Arena.walk,
          Arena.filterMap_walkWithin, List.filterMap_cons, Landmark.list?,
          List.filterMap_flatMap] using listed
      events := events
      enlisted := fun visit listed decl among => by
        rw [← reports.declared visit listed] at among
        exact ⟨reports.enlisted visit listed decl among,
          reports.bound visit listed decl among⟩
      named := fun decl => by rw [decls, rooted.mem_declared]
      once := decls ▸ rooted.nodup_declared }

end Compilation

/--
Of every text that compiles the memberships are reported that are on record as
its unit is elaborated: those of the declarations that statements of the unit
hold in the end, each once.
-/
theorem compiled_memberships
    {source : String}
    {options : ElabOptions}
    {compilation : Compilation}
    (compiles : compile? source options = some (.ok compilation)) :
    ∃ parsed last visits, compilation.Recorded options parsed last visits ∧
      compilation.ReportsMembers visits :=
  have ⟨parsed, last, visits, recorded⟩ := Compilation.exists_recorded compiles
  ⟨parsed, last, visits, recorded, recorded.reportsMembers⟩

/--
A function that is wrapped in a template is reported behind its class, by the
template.
-/
theorem compiled_memberships_nestedTemplate :
    ∃ compilation,
      compile?
        "class C \x7b def f(x: auto) -> int \x7b return 0; \x7d \x7d var v: int = 0;"
          { mode := .deferred, openMethods := false } = some (.ok compilation) ∧
        (compilation.findings.memberships.length = 3 ∧
          ∃ parsed last visits,
            compilation.Recorded { mode := .deferred, openMethods := false }
            parsed last visits ∧ compilation.ReportsMembers visits) := by
  obtain ⟨compilation, compiles, three⟩ := @exists_compilation
    (compile?
      "class C \x7b def f(x: auto) -> int \x7b return 0; \x7d \x7d var v: int = 0;"
      { mode := .deferred, openMethods := false })
    (fun compilation => compilation.findings.memberships.length == 3)
      (by decide +kernel)
  exact ⟨compilation, compiles, by simpa using three,
    compiled_memberships compiles⟩

end Tern
