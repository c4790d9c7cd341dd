import Tern.Proofs.Elaboration.Idempotence

namespace Tern

/-!
# Overriders

The open methods of a compilation are those of the functions below its unit that
take a parameter marked `virtual`. They are found below the templates that the
visited statements hold, and registered in that order, so the first of a name is
the base. Elaborating the unit again registers no further ones.
-/

namespace OpenMethods

/-- Functions are registered under the name that each joins. -/
private theorem overriders_joining
    (arena : Arena)
    (decls : List DeclId)
    (name : Name) :
    (empty.registerAll (arena.joining decls)).overriders name =
      decls.filter fun decl => arena.openName? decl = some name := by
  rw [overriders_registerAll, show empty.overriders name = [] from rfl,
    List.nil_append]
  induction decls with
  | nil => rfl
  | cons decl decls inductionHypothesis =>
      rw [Arena.joining, List.filterMap_cons] at *
      cases joined : arena.openName? decl with
      | none => simpa [joined] using inductionHypothesis
      | some other =>
          by_cases same : other = name <;>
            simpa [joined, same] using inductionHypothesis

end OpenMethods

namespace Arena

variable {arena : Arena} {decl : DeclId} {name : Name}

/-- A function or a coroutine of a name takes a parameter marked `virtual`. -/
def Overrides (arena : Arena) (name : Name) (decl : DeclId) : Prop :=
  (∃ role params result definition,
    (arena.decl decl).form = .callable role params result definition ∧
      ∃ param ∈ params, arena.isVirtualParam param = true) ∧
    (arena.name (arena.decl decl).name).form = .simple name

private theorem openName?_eq_some :
    arena.openName? decl = some name ↔ arena.Overrides name decl := by
  rw [openName?, Overrides]
  cases form : (arena.decl decl).form with
  | callable role params result definition =>
      cases named : (arena.name (arena.decl decl).name).form <;>
        simp [NameForm.simple?, List.any_eq_true]
  | _ => simp

/-- What templates are around is found below them. -/
private theorem houses_innermost (arena : Arena) (decl : DeclId) :
    arena.Houses decl (arena.innermost decl) := by
  rw [innermost]
  generalize arena.termCount + 1 = depth
  induction depth generalizing decl with
  | zero => exact .refl decl
  | succ depth inductionHypothesis =>
      rw [innermostWithin]
      split
      next form => exact .template form (inductionHypothesis _)
      next => exact .refl decl

end Arena

namespace Compilation

variable {compilation : Compilation} {options : ElabOptions}
  {parsed : ParserState}
  {last : ElabState} {visits : List Visit}

/--
The functions found below the visited statements, in the order of the visits.
-/
def innermost (compilation : Compilation) (visits : List Visit) : List DeclId :=
  compilation.arena.innermostAmong (visits.flatMap Visit.stmts)

/--
The open methods of a compilation, told by the visits on record: which functions
join the open method of a name, in which order, and how many names have one.
-/
structure IndexesOverriders (compilation : Compilation) (visits : List Visit) :
    Prop where
  visited : visits.map Visit.stmts =
    compilation.arena.lists (.stmt compilation.unit)
  mem : ∀ name decl, decl ∈ compilation.findings.openMethods.overriders name ↔
    compilation.arena.Owns (.stmt compilation.unit) (.decl decl) ∧
      compilation.arena.Overrides name decl
  once : ∀ name, (compilation.findings.openMethods.overriders name).Nodup
  order : ∀ name, compilation.findings.openMethods.overriders name =
    (compilation.innermost visits).filter fun decl =>
      compilation.arena.openName? decl = some name
  base : ∀ name, compilation.findings.openMethods.base? name =
    (compilation.innermost visits).find? fun decl =>
      compilation.arena.openName? decl = some name
  baseless : ∀ name, compilation.findings.openMethods.base? name = none ↔
    ∀ decl, compilation.arena.Owns (.stmt compilation.unit) (.decl decl) →
      ¬ compilation.arena.Overrides name decl
  count : ∃ names : List Name, names.Nodup ∧
    compilation.findings.openMethods.count = names.length ∧
      ∀ name, name ∈ names ↔
        ∃ decl, compilation.arena.Owns (.stmt compilation.unit) (.decl decl) ∧
        compilation.arena.Overrides name decl

private theorem Recorded.innermost_eq
    (recorded : compilation.Recorded options parsed last visits) :
    compilation.innermost visits =
      last.arena.innermostAmong
        (last.arena.lists (.stmt compilation.unit)).flatten := by
  obtain ⟨_, _, -, -, -, reports⟩ := recorded.reports
  rw [innermost, recorded.arena, ← reports.stmts]
  rfl

/-- Each function below the unit is found below one visited statement. -/
private theorem Recorded.mem_innermost
    (recorded : compilation.Recorded options parsed last visits)
    {decl : DeclId}
    {name : Name}
    (overrides : compilation.arena.Overrides name decl) :
    decl ∈ compilation.innermost visits ↔
      compilation.arena.Owns (.stmt compilation.unit) (.decl decl) := by
  obtain ⟨_, _, -, rooted, past, -⟩ := recorded.reports
  rw [recorded.arena] at overrides ⊢
  obtain ⟨⟨_, _, _, _, form, -⟩, -⟩ := overrides
  rw [recorded.innermost_eq, Arena.innermostAmong, List.mem_map]
  constructor
  · rintro ⟨outer, among, rfl⟩
    obtain ⟨stmt, reached, holds⟩ := rooted.mem_declared.mp among
    exact (last.arena.houses_innermost outer).owns
      (.child reached (by simp [Arena.children, holds, StmtForm.children]))
  · intro reached
    have plain : (last.arena.decl decl).form.isParam = false := by
      rw [form]; rfl
    have finished := recorded.finished reached plain
    obtain ⟨stmt, listed, outer, holds, houses⟩ :=
      past.typed (by simp [finished]) plain
    rw [Arena.walk, Arena.filterMap_walkWithin] at listed
    have among : outer ∈ last.arena.declarationsAmong
        (last.arena.lists (.stmt compilation.unit)).flatten :=
      Arena.mem_declarationsAmong.mpr ⟨stmt, listed, holds⟩
    obtain ⟨holder, above, holdsToo⟩ := rooted.mem_declared.mp among
    have bounded := rooted.bounded_of_owns
      (.child above (by simp [Arena.children, holdsToo, StmtForm.children]) :
        last.arena.Owns _ (.decl outer))
    exact ⟨outer, among, Arena.innermostWithin_of_houses bounded houses
      (by rw [form]; rfl)⟩

/-- No function is found below two visited statements. -/
private theorem Recorded.nodup_innermost
    (recorded : compilation.Recorded options parsed last visits) :
    (compilation.innermost visits).Nodup := by
  obtain ⟨_, later, goes, rooted, -, -⟩ := recorded.reports
  rw [recorded.innermost_eq, Arena.innermostAmong]
  refine List.Nodup.map_on (fun outer among other amongToo same => ?_)
    rooted.nodup_declared
  obtain ⟨stmt, -, holds⟩ := rooted.mem_declared.mp among
  obtain ⟨holder, -, holdsToo⟩ := rooted.mem_declared.mp amongToo
  have houses := last.arena.houses_innermost outer
  have housesToo := last.arena.houses_innermost other
  rw [← same] at housesToo
  have shows := goes.behind.shows.arena
  obtain rfl :=
    goes.behind.since.sound.holder_unique (shows ▸ holds) (shows ▸ holdsToo)
    (shows ▸ houses) (shows ▸ housesToo)
  exact StmtForm.declaration.inj (holds.symm.trans holdsToo)

/--
The functions on record are registered, unless there are to be no open methods.
-/
private theorem Recorded.openMethods
    (recorded : compilation.Recorded options parsed last visits) :
    compilation.findings.openMethods =
      if options.openMethods then
        OpenMethods.empty.registerAll
          (compilation.arena.joining (compilation.innermost visits))
      else .empty := by
  obtain ⟨_, _, -, -, -, reports⟩ := recorded.reports
  rw [recorded.findings, reports.openMethods, ElabInput.joining,
    recorded.innermost_eq, recorded.arena]
  have same : (compilation.input options).options.openMethods =
      options.openMethods := rfl
  by_cases enabled : options.openMethods = true
  · rw [if_pos (same.trans enabled), if_pos enabled]
    rfl
  · rw [if_neg (same ▸ enabled), if_neg enabled]
    rfl

/-- A compilation with open methods indexes the functions on record. -/
private theorem Recorded.indexesOverriders
    (recorded : compilation.Recorded options parsed last visits)
    (enabled : options.openMethods = true) :
    compilation.IndexesOverriders visits := by
  have registered := recorded.openMethods
  rw [if_pos enabled] at registered
  have order (name : Name) : compilation.findings.openMethods.overriders name =
      (compilation.innermost visits).filter fun decl =>
        compilation.arena.openName? decl = some name := by
    rw [registered, OpenMethods.overriders_joining]
  have mem (name : Name) (decl : DeclId) :
      decl ∈ compilation.findings.openMethods.overriders name ↔
        compilation.arena.Owns (.stmt compilation.unit) (.decl decl) ∧
          compilation.arena.Overrides name decl := by
    rw [order, List.mem_filter, decide_eq_true_iff, Arena.openName?_eq_some]
    exact and_congr_left fun overrides => recorded.mem_innermost overrides
  have proper : compilation.findings.openMethods.Proper :=
    registered ▸ OpenMethods.proper_empty.registerAll _
  exact
    { visited := recorded.reportsMembers.visited
      mem := mem
      once := fun name => order name ▸ recorded.nodup_innermost.filter _
      order := order
      base := fun name => by rw [OpenMethods.base?, order, List.head?_filter]
      baseless := fun name => by
        rw [OpenMethods.base?, List.head?_eq_none_iff,
          List.eq_nil_iff_forall_not_mem]
        exact forall_congr' fun decl => by rw [mem, not_and]
      count := ⟨compilation.findings.openMethods.names, proper.distinct, by
        rw [OpenMethods.count, OpenMethods.names, List.length_map],
            fun name => by
          rw [proper.mem_names, ne_eq, List.eq_nil_iff_forall_not_mem,
            not_forall]
          exact exists_congr fun decl => by rw [not_not, mem]⟩ }

end Compilation

/--
Of every text that compiles the open methods index the functions below its unit
that take a parameter marked `virtual`, unless there are to be none. However
often the unit is elaborated again, no further one is registered.
-/
theorem compiled_openMethods
    {source : String}
    {options : ElabOptions}
    {compilation : Compilation}
    (compiles : compile? source options = some (.ok compilation)) :
    ∃ parsed last visits, compilation.Recorded options parsed last visits ∧
      (options.openMethods = true → compilation.IndexesOverriders visits) ∧
        (options.openMethods = false → compilation.findings.openMethods =
          .empty) ∧
          ∀ later, Relation.ReflTransGen
            (Elab.RunsTo (compilation.input options) compilation.unit) last
              later →
              later.findings.openMethods =
                compilation.findings.openMethods := by
  obtain ⟨parsed, last, visits, recorded⟩ :=
    Compilation.exists_recorded compiles
  refine ⟨parsed, last, visits, recorded, recorded.indexesOverriders,
    fun disabled => ?_,
    fun later runs => ?_⟩
  · rw [recorded.openMethods, disabled]
    rfl
  · have scanned := Compilation.scanned compiles
    have stands := (recorded.stands scanned).2.stands
    rw [recorded.findings]
    exact ((recorded.restores scanned).alike_of_runsTo stands.wellFormed
      runs).openMethods

/--
A function in a class, which is wrapped in a template, and a forward declaration
that is merged away join the open method of their name.
-/
theorem compiled_openMethods_mergedForward :
    ∃ compilation,
      compile?
        "def f(virtual x: int); class C \x7b def f(virtual x: auto) = 0; \x7d def f(virtual x: int) = 1;"
          { mode := .deferred, openMethods := true } = some (.ok compilation) ∧
        compilation.findings.openMethods.count = 1 ∧
          compilation.findings.merges ≠ [] ∧
          ∃ parsed last visits,
            compilation.Recorded { mode := .deferred, openMethods := true }
              parsed last visits ∧
              compilation.IndexesOverriders visits ∧
                ∀ later, Relation.ReflTransGen (Elab.RunsTo
                  (compilation.input { mode := .deferred, openMethods := true })
                    compilation.unit)
                    last later →
                  later.findings.openMethods =
                    compilation.findings.openMethods := by
  obtain ⟨compilation, compiles, found⟩ := @exists_compilation
    (compile?
      "def f(virtual x: int); class C \x7b def f(virtual x: auto) = 0; \x7d def f(virtual x: int) = 1;"
      { mode := .deferred, openMethods := true })
    (fun compilation => compilation.findings.openMethods.count == 1 &&
      !compilation.findings.merges.isEmpty) (by decide +kernel)
  rw [Bool.and_eq_true] at found
  obtain ⟨parsed, last, visits, recorded, indexes, -, again⟩ :=
    compiled_openMethods compiles
  exact ⟨compilation, compiles, by simpa using found.1, by simpa using found.2,
    parsed, last, visits, recorded, indexes rfl, again⟩

end Tern
