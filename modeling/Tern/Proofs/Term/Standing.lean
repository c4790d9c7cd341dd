import Mathlib.Logic.Relation
import Tern.Proofs.Term.Progress

namespace Tern

/-!
# How far elaboration has come

The phase of a declaration tells what is complete of it: its types from the
first phase on, and all that it owns after the second one. That is an invariant
of the steps of elaboration. A template reaches the first phase before the
declaration in it does, so templates may be pending in between.
-/

namespace Arena

/--
A statement is parsed, and the types of the declaration that it may hold are
elaborated.
-/
structure Typed (arena : Arena) (stmt : StmtId) : Prop where
  held : arena.Holds (.stmt stmt)
  parsed : arena.isUnparsed (.stmt stmt) = false
  elaborated : ∀ decl, (arena.stmt stmt).form = .declaration decl →
    (arena.decl decl).phase ≠ .unelaborated

/--
One arena comes out of another one by steps in which some statements keep their
forms.
-/
structure Later (fixed : StmtId → Prop) (older newer : Arena) : Prop where
  steps : Relation.ReflTransGen Progress older newer
  stmts : ∀ {stmt : StmtId}, fixed stmt → older.Holds (.stmt stmt) →
    (newer.stmt stmt).form = (older.stmt stmt).form

/-- A declaration that has reached a phase is stored. -/
theorem holds_of_phase_ne
    {arena : Arena}
    {decl : DeclId}
    (elaborated : (arena.decl decl).phase ≠ .unelaborated) :
    arena.Holds (.decl decl) :=
  Nat.lt_of_not_le fun past => elaborated (by
    simp [Arena.decl, Array.getD_eq_getD_getElem?, past, Vacant.decl])

/-- A step takes no declaration back to the first phase. -/
private theorem Progress.phase_ne
    {older newer : Arena}
    (progress : older.Progress newer)
    {decl : DeclId}
    (elaborated : (older.decl decl).phase ≠ .unelaborated) :
    (newer.decl decl).phase ≠ .unelaborated :=
  fun early => elaborated
    ((progress.decls (holds_of_phase_ne elaborated) (Nat.zero_le _)).phase
      early)

/--
A declaration that is stored has reached a phase once it was let reach one.
-/
theorem phase_raise_ne
    {arena : Arena}
    {decl : DeclId}
    {phase : Phase}
    (held : arena.Holds (.decl decl))
    (elaborated : phase ≠ .unelaborated) :
    ((arena.updateDecl decl fun old => old.raiseTo phase).decl decl).phase ≠
      .unelaborated := by
  rw [decl_updateDecl held]
  simp only [Decl.raiseTo, Phase.latest]
  revert elaborated
  cases (arena.decl decl).phase <;> cases phase <;> simp [Phase.rank]

/-- A statement that is ready and holds no declaration is typed. -/
theorem Ready.typed
    {arena : Arena}
    {low bound : Nat}
    {stmt : StmtId}
    (ready : arena.Ready low bound (.stmt stmt))
    (plain : (arena.stmt stmt).form.isDeclaration = false) :
    arena.Typed stmt where
  held := ready.holds
  parsed := ready.present
  elaborated decl form := by
    rw [form] at plain
    cases plain

namespace Later

variable {fixed : StmtId → Prop} {older middle newer : Arena}

theorem refl (arena : Arena) : arena.Later fixed arena where
  steps := .refl
  stmts _ _ := rfl

/-- One step is a run if it keeps the forms of the statements. -/
theorem single
    (progress : older.Progress newer)
    (stmts : ∀ {stmt : StmtId}, fixed stmt → older.Holds (.stmt stmt) →
      (newer.stmt stmt).form = (older.stmt stmt).form) :
    older.Later fixed newer where
  steps := .single progress
  stmts := stmts

/-- What one step keeps a run keeps. -/
theorem keeps
    (later : older.Later fixed newer)
    (property : Arena → Prop)
    (step : ∀ {before after : Arena}, before.Progress after → property before →
      property after)
    (start : property older) :
    property newer := by
  have steps := later.steps
  clear later
  induction steps with
  | refl => exact start
  | tail _ progress inductionHypothesis =>
      exact step progress inductionHypothesis

theorem holds
    (later : older.Later fixed newer)
    {term : Term}
    (held : older.Holds term) :
    newer.Holds term :=
  later.keeps (·.Holds term) (fun progress => progress.holds) held

/--
What one step keeps as long as a term is stored, a run keeps for a stored term.
-/
private theorem keepsHeld
    (later : older.Later fixed newer)
    {term : Term}
    (held : older.Holds term)
    (property : Arena → Prop)
    (step : ∀ {before after : Arena}, before.Progress after →
      before.Holds term →
      property before → property after)
    (start : property older) :
    property newer :=
  (later.keeps (fun arena => arena.Holds term ∧ property arena)
    (fun progress kept => ⟨progress.holds kept.1, step progress kept.1 kept.2⟩)
    ⟨held, start⟩).2

theorem parsed
    (later : older.Later fixed newer)
    {term : Term}
    (parsed : older.Parsed term) :
    newer.Parsed term :=
  later.keeps (·.Parsed term) (fun progress => progress.parsed) parsed

theorem due
    (later : older.Later fixed newer)
    {term : Term}
    (due : older.Due term) :
    newer.Due term :=
  later.keeps (·.Due term) (fun progress => progress.due) due

theorem complete
    (later : older.Later fixed newer)
    {term : Term}
    (complete : older.Complete term) :
    newer.Complete term :=
  later.keeps (·.Complete term) (fun progress => progress.complete) complete

theorem ready
    (later : older.Later fixed newer)
    {bound : Nat}
    {term : Term}
    (ready : older.Ready 0 bound term) :
    newer.Ready 0 bound term :=
  later.keeps (·.Ready 0 bound term) (fun progress => progress.toSucceeds.ready)
    ready

theorem phase_ne
    (later : older.Later fixed newer)
    {decl : DeclId}
    (elaborated : (older.decl decl).phase ≠ .unelaborated) :
    (newer.decl decl).phase ≠ .unelaborated :=
  later.keeps (fun arena => (arena.decl decl).phase ≠ .unelaborated)
    (fun progress => progress.phase_ne) elaborated

theorem definition_eq
    (later : older.Later fixed newer)
    {definition : DefId}
    (held : older.Holds (.definition definition)) :
    newer.definition definition = older.definition definition :=
  later.keepsHeld held (fun arena => arena.definition definition =
    older.definition definition)
    (fun progress stored same => (progress.definitions stored).trans same) rfl

theorem name_eq
    (later : older.Later fixed newer)
    {decl : DeclId}
    (held : older.Holds (.decl decl)) :
    (newer.decl decl).name = (older.decl decl).name :=
  later.keepsHeld held
    (fun arena => (arena.decl decl).name = (older.decl decl).name)
    (fun progress stored same =>
      (progress.decls stored (Nat.zero_le _)).name.trans same) rfl

/-- A declaration that is no template keeps its form. -/
theorem form_eq
    (later : older.Later fixed newer)
    {decl : DeclId}
    (held : older.Holds (.decl decl))
    (plain : (older.decl decl).form.isTemplate = false) :
    (newer.decl decl).form = (older.decl decl).form :=
  later.keepsHeld held
    (fun arena => (arena.decl decl).form = (older.decl decl).form)
    (fun progress stored same =>
      ((progress.decls stored (Nat.zero_le _)).form.eq (same ▸ plain)).trans
        same) rfl

/-- A declaration with parsed heads keeps such heads. -/
theorem heads
    (later : older.Later fixed newer)
    {decl : DeclId}
    (held : older.Holds (.decl decl))
    (heads : ∀ head ∈ (older.decl decl).form.heads, older.Parsed head) :
    ∀ head ∈ (newer.decl decl).form.heads, newer.Parsed head := by
  refine later.keepsHeld held
    (fun arena => ∀ head ∈ (arena.decl decl).form.heads, arena.Parsed head)
      ?_ heads
  intro before after progress stored parsed head listed
  rcases (progress.decls stored (Nat.zero_le _)).form.head listed with old | new
  · exact progress.parsed (parsed head old)
  · exact new

/-- A declaration keeps its definition and what it wraps. -/
theorem owned_eq
    (later : older.Later fixed newer)
    {decl : DeclId}
    (held : older.Holds (.decl decl)) :
    (newer.decl decl).form.definition? = (older.decl decl).form.definition? ∧
      (newer.decl decl).form.wrapped? = (older.decl decl).form.wrapped? := by
  refine later.keepsHeld held (fun arena =>
    (arena.decl decl).form.definition? = (older.decl decl).form.definition? ∧
      (arena.decl decl).form.wrapped? = (older.decl decl).form.wrapped?) ?_
        ⟨rfl, rfl⟩
  rintro before after progress stored ⟨definition, wrapped⟩
  have kept := (progress.decls stored (Nat.zero_le _)).form
  rw [← definition, ← wrapped]
  generalize (after.decl decl).form = new at kept ⊢
  cases kept with
  | same => exact ⟨rfl, rfl⟩
  | extended form _ =>
      rw [form]
      exact ⟨rfl, rfl⟩

theorem trans
    (first : older.Later fixed middle)
    (second : middle.Later fixed newer) :
    older.Later fixed newer where
  steps := first.steps.trans second.steps
  stmts kept held :=
    (second.stmts kept (first.holds held)).trans (first.stmts kept held)

/-- A run in which more statements keep their forms. -/
theorem weaken
    {fewer : StmtId → Prop}
    (later : older.Later fixed newer)
    (order : ∀ stmt, fewer stmt → fixed stmt) :
    older.Later fewer newer where
  steps := later.steps
  stmts kept held := later.stmts (order _ kept) held

/-- A statement that keeps its form stays typed. -/
theorem typed
    (later : older.Later fixed newer)
    {stmt : StmtId}
    (kept : fixed stmt)
    (typed : older.Typed stmt) :
    newer.Typed stmt := by
  have same := later.stmts kept typed.held
  refine { held := later.holds typed.held, parsed := ?_, elaborated := ?_ }
  · rw [isUnparsed, same]
    exact typed.parsed
  · intro decl form
    exact later.phase_ne (typed.elaborated decl (same ▸ form))

/--
A statement comes to hold no declaration but the one that it held, or an
elaborated one.
-/
theorem typed_of
    (later : older.Later fixed newer)
    {stmt : StmtId}
    (held : older.Holds (.stmt stmt))
    (parsed : older.isUnparsed (.stmt stmt) = false)
    (elaborated : ∀ decl, (older.stmt stmt).form = .declaration decl →
      (newer.decl decl).phase ≠ .unelaborated) :
    newer.Typed stmt := by
  obtain ⟨whole, declared⟩ : newer.isUnparsed (.stmt stmt) = false ∧
      ∀ decl, (newer.stmt stmt).form = .declaration decl →
        (older.stmt stmt).form = .declaration decl ∨ (newer.decl decl).phase ≠
          .unelaborated := by
    refine later.keepsHeld held (fun arena =>
      arena.isUnparsed (.stmt stmt) = false ∧ ∀ decl, (arena.stmt stmt).form =
        .declaration decl →
        (older.stmt stmt).form = .declaration decl ∨ (arena.decl decl).phase ≠
          .unelaborated)
      ?_ ⟨parsed, fun _ => .inl⟩
    rintro before after progress stored ⟨whole, declared⟩
    refine ⟨?_, fun decl form => ?_⟩
    · cases progress.stmts stored with
      | same form => rwa [isUnparsed, form]
      | vacated form => rw [isUnparsed, form]; rfl
      | filled captured _ _ =>
          rw [isUnparsed, captured] at whole
          cases whole
      | wrapped _ _ form => rw [isUnparsed, form]; rfl
    · cases progress.stmts stored with
      | same same =>
          exact (declared decl (same ▸ form)).imp_right progress.phase_ne
      | vacated empty =>
          rw [empty] at form
          cases form
      | filled captured _ _ =>
          rw [isUnparsed, captured] at whole
          cases whole
      | wrapped _ _ wrapped _ _ _ _ _ later =>
          rw [wrapped] at form
          cases form
          exact .inr later
  exact
    { held := later.holds held
      parsed := whole
      elaborated :=
        fun decl form => (declared decl form).elim (elaborated decl) id }

end Later

/-- Adding terms changes no statement. -/
theorem Extends.later
    {older newer : Arena}
    (extended : older.Extends newer)
    (fresh : newer.IndexedFrom older.decls.size)
    (fixed : StmtId → Prop) :
    older.Later fixed newer :=
  .single (extended.progress fresh) fun _ held => by rw [extended.stmt_eq held]

/-- Adding a declaration changes no other slot. -/
theorem decl_addDecl_of_ne
    {arena : Arena}
    {added : Decl}
    {decl : DeclId}
    (apart : decl ≠ (arena.addDecl added).1) :
    (arena.addDecl added).2.decl decl = arena.decl decl := by
  have apart : decl.raw ≠ arena.decls.size :=
    fun same => apart (eq_iff_raw_eq.mpr same)
  simp [Arena.decl, Arena.addDecl, Array.getD_eq_getD_getElem?,
    Array.getElem?_push, apart]

/-- What the phases of declarations tell, some templates being pending. -/
structure Standing (arena : Arena) (pending : List DeclId) : Prop where
  heads : ∀ {decl : DeclId}, (arena.decl decl).phase ≠ .unelaborated →
    ∀ head ∈ (arena.decl decl).form.heads, arena.Parsed head
  wrapped : ∀ {decl : DeclId}, decl ∉ pending → (arena.decl decl).phase ≠
    .unelaborated →
    ∀ {parms : List DeclId} {constraint? : Option ExprId} {inner : DeclId},
      (arena.decl decl).form = .template parms constraint? inner →
        (arena.decl inner).phase ≠ .unelaborated
  finished : ∀ {decl : DeclId}, (arena.decl decl).phase =
    .definitionElaborated →
    arena.Complete (.decl decl)

/--
A template is still around a declaration, in a step that may add parameters to
it.
-/
private theorem FormKept.exists_template
    {newer : Arena}
    {old new : DeclForm}
    (kept : newer.FormKept old new)
    {parms : List DeclId}
    {constraint? : Option ExprId}
    {inner : DeclId}
    (form : new = .template parms constraint? inner) :
    ∃ fewer, old = .template fewer constraint? inner := by
  cases kept with
  | same => exact ⟨parms, form⟩
  | extended was _ =>
      cases form
      exact ⟨_, was⟩

namespace Standing

variable {arena older newer : Arena} {pending : List DeclId}

/-- Before anything is elaborated there is nothing to be told. -/
theorem of_unelaborated
    (fresh : ∀ decl, (arena.decl decl).phase = .unelaborated) :
    arena.Standing pending where
  heads {decl} elaborated := absurd (fresh decl) elaborated
  wrapped {decl} _ elaborated := absurd (fresh decl) elaborated
  finished {decl} done := by
    rw [fresh decl] at done
    cases done

/-- One more template may be pending. -/
theorem defer (standing : arena.Standing pending) (wrapper : DeclId) :
    arena.Standing (wrapper :: pending) where
  heads := standing.heads
  wrapped settled :=
    standing.wrapped fun listed => settled (List.mem_cons_of_mem _ listed)
  finished := standing.finished

/--
A template is pending no longer if what it is around has reached the first
phase.
-/
theorem settle
    {wrapper : DeclId}
    (standing : arena.Standing (wrapper :: pending))
    (elaborated : ∀ {parms : List DeclId} {constraint? : Option ExprId} {inner :
      DeclId},
      (arena.decl wrapper).form = .template parms constraint? inner →
        (arena.decl inner).phase ≠ .unelaborated) :
    arena.Standing pending where
  heads := standing.heads
  wrapped {decl} settled typed _ _ _ form := by
    by_cases here : decl = wrapper
    · exact elaborated (here ▸ form)
    · exact standing.wrapped
        (fun listed => (List.mem_cons.mp listed).elim here settled) typed form
  finished := standing.finished

/-- A step that changes no phase keeps the invariant. -/
theorem progress
    (standing : older.Standing pending)
    (progress : older.Progress newer)
    (phases : ∀ decl, (newer.decl decl).phase = (older.decl decl).phase) :
    newer.Standing pending where
  heads {decl} elaborated head listed := by
    rw [phases] at elaborated
    have kept := progress.decls (holds_of_phase_ne elaborated) (Nat.zero_le _)
    rcases kept.form.head listed with old | parsed
    · exact progress.parsed (standing.heads elaborated head old)
    · exact parsed
  wrapped {decl} settled elaborated parms constraint? inner form := by
    rw [phases] at elaborated ⊢
    have kept := progress.decls (holds_of_phase_ne elaborated) (Nat.zero_le _)
    obtain ⟨_, was⟩ := kept.form.exists_template form
    exact standing.wrapped settled elaborated was
  finished {decl} done := by
    rw [phases] at done
    exact progress.complete (standing.finished done)

/--
A step that changes one declaration keeps the invariant if it holds for that
one.
-/
private theorem progress_at
    {decl : DeclId}
    (standing : older.Standing pending)
    (progress : older.Progress newer)
    (others : ∀ {next : DeclId},
      next ≠ decl → newer.decl next = older.decl next)
    (heads : ∀ head ∈ (newer.decl decl).form.heads, older.Parsed head)
    (wrapped : decl ∉ pending →
      ∀ {parms : List DeclId} {constraint? : Option ExprId}
      {inner : DeclId}, (newer.decl decl).form =
        .template parms constraint? inner →
        (older.decl inner).phase ≠ .unelaborated)
    (finished : (newer.decl decl).phase = .definitionElaborated →
      older.Complete (.decl decl)) :
    newer.Standing pending where
  heads {next} elaborated head listed := by
    refine progress.parsed ?_
    by_cases here : next = decl
    · exact heads head (here ▸ listed)
    · rw [others here] at elaborated listed
      exact standing.heads elaborated head listed
  wrapped {next} settled elaborated parms constraint? inner form := by
    refine progress.phase_ne ?_
    by_cases here : next = decl
    · subst here
      exact wrapped settled form
    · rw [others here] at elaborated form
      exact standing.wrapped settled elaborated form
  finished {next} done := by
    refine progress.complete ?_
    by_cases here : next = decl
    · subst here
      exact finished done
    · rw [others here] at done
      exact standing.finished done

/-- A declaration may reach a phase for which it is complete enough. -/
theorem raise
    {decl : DeclId}
    {phase : Phase}
    (standing : arena.Standing pending)
    (held : arena.Holds (.decl decl))
    (heads : ∀ head ∈ (arena.decl decl).form.heads, arena.Parsed head)
    (wrapped : decl ∉ pending →
      ∀ {parms : List DeclId} {constraint? : Option ExprId}
      {inner : DeclId}, (arena.decl decl).form =
        .template parms constraint? inner →
        (arena.decl inner).phase ≠ .unelaborated)
    (finished : phase = .definitionElaborated → arena.Complete (.decl decl)) :
    (arena.updateDecl decl fun old => old.raiseTo phase).Standing pending := by
  have raised : (arena.updateDecl decl fun old => old.raiseTo phase).decl decl =
      (arena.decl decl).raiseTo phase :=
    decl_updateDecl held _
  refine standing.progress_at (progress_raise decl phase)
    (fun apart => decl_updateDecl_of_ne apart _) ?_ ?_ fun done => ?_
  · rw [raised]
    exact heads
  · rw [raised]
    exact wrapped
  · rw [raised] at done
    by_cases last : phase = .definitionElaborated
    · exact finished last
    · apply standing.finished
      revert done last
      simp only [Decl.raiseTo, Phase.latest]
      cases (arena.decl decl).phase <;> cases phase <;> simp [Phase.rank]

/-- A declaration that is added may have reached the first phase already. -/
theorem addDecl
    (standing : arena.Standing pending)
    {added : Decl}
    (heads : ∀ head ∈ added.form.heads, arena.Parsed head)
    (wrapped : ∀ {parms : List DeclId} {constraint? : Option ExprId} {inner :
      DeclId},
      added.form = .template parms constraint? inner →
        (arena.decl inner).phase ≠ .unelaborated)
    (unfinished : added.phase ≠ .definitionElaborated)
    (indexes : arena.Indexes 0 added.form.parms) :
    (arena.addDecl added).2.Standing pending := by
  have new : (arena.addDecl added).2.decl (arena.addDecl added).1 = added :=
    arena.decl_addDecl added
  refine standing.progress_at
    ((arena.extends_addDecl added).progress (arena.indexedFrom_addDecl indexes))
    decl_addDecl_of_ne ?_ ?_ ?_
  · rw [new]
    exact heads
  · rw [new]
    exact fun _ => wrapped
  · rw [new]
    exact fun done => absurd done unfinished

end Standing

end Arena

end Tern
