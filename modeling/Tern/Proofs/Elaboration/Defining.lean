import Tern.Compilation
import Tern.Proofs.Elaboration.Typing

namespace Tern

/-!
# Elaboration is complete

Each task completes the terms that it is about, if they are ready within the
depth of calls that is left. Terms nested in them are ready within smaller
bounds, and a range of tokens counts for all that may be parsed from it, so the
depth that elaboration starts with is enough for a compilation unit.
-/

/-- The terms that a task completes. -/
def ElabTask.terms : ElabTask → List Term
  | .statements stmts _ => stmts.map Term.stmt
  | .statement stmt _ => [.stmt stmt]
  | .definition decl => [.decl decl]

namespace Arena

/--
A statement of a list is ready within a depth. A declaration in it takes fewer
calls.
-/
def Enters (arena : Arena) (depth : Nat) (stmt : StmtId) : Prop :=
  ∃ bound, arena.Ready 0 bound (.stmt stmt) ∧ bound ≤ depth ∧
    ((arena.stmt stmt).form.isDeclaration = false → bound + 2 ≤ depth)

/-- What a task is about is ready within a depth of calls. -/
def Fits (arena : Arena) (depth : Nat) : ElabTask → Prop
  | .statements stmts _ => 0 < depth ∧ ∀ stmt ∈ stmts, arena.Enters depth stmt
  | .statement stmt _ => ∃ bound, bound + 1 ≤ depth ∧
      arena.Ready 0 bound (.stmt stmt)
  | .definition decl => ∃ bound, bound + 1 ≤ depth ∧
      arena.Ready 0 bound (.decl decl) ∧
      (arena.decl decl).phase ≠ .unelaborated

/--
A step keeps a statement ready within a depth. What a statement moved away
leaves is no declaration, so two calls are left.
-/
private theorem Progress.enters
    {older newer : Arena}
    (progress : older.Progress newer)
    {depth : Nat}
    {stmt : StmtId}
    (enters : older.Enters depth stmt) :
    newer.Enters depth stmt := by
  obtain ⟨bound, ready, room, more⟩ := enters
  have later := progress.toSucceeds.ready ready
  cases progress.stmts ready.holds with
  | same form => exact ⟨bound, later, room, form ▸ more⟩
  | vacated empty =>
      have least : 2 ≤ depth := by
        by_cases declares : (older.stmt stmt).form.isDeclaration = true
        · cases form : (older.stmt stmt).form with
          | declaration decl =>
              obtain ⟨inner, inside, _⟩ := ready.declared form
              omega
          | _ =>
              rw [form] at declares
              cases declares
        · have := more (Bool.eq_false_iff.mpr declares)
          omega
      refine ⟨0, .plain ?_ (empty ▸ rfl), Nat.zero_le _, fun _ => least⟩
      exact Succeeds.parsed_of_empty (progress.holds ready.holds) empty
  | filled captured _ _ =>
      have present := ready.present
      rw [isUnparsed, captured] at present
      cases present
  | wrapped _ _ form =>
      refine ⟨bound, later, room, fun plain => ?_⟩
      rw [form] at plain
      cases plain

theorem Later.enters
    {fixed : StmtId → Prop}
    {older newer : Arena}
    (later : older.Later fixed newer)
    {depth : Nat}
    {stmt : StmtId}
    (enters : older.Enters depth stmt) :
    newer.Enters depth stmt :=
  later.keeps (·.Enters depth stmt) (fun progress => progress.enters) enters

/-- A statement that kept its form is complete if what it owned is. -/
private theorem Later.complete_stmt
    {fixed : StmtId → Prop}
    {older newer : Arena}
    (later : older.Later fixed newer)
    {stmt : StmtId}
    (kept : fixed stmt)
    (typed : older.Typed stmt)
    (children : ∀ child ∈ older.children (.stmt stmt), newer.Complete child) :
    newer.Complete (.stmt stmt) := by
  have same := later.stmts kept typed.held
  have typedNow := later.typed kept typed
  refine .intro ⟨typedNow.held, typedNow.parsed⟩ fun child owned =>
    children child ?_
  rwa [Arena.children, same] at owned

/-- A definition is complete if what it owned is. -/
private theorem Later.complete_definition
    {fixed : StmtId → Prop}
    {older newer : Arena}
    (later : older.Later fixed newer)
    {definition : DefId}
    (held : older.Holds (.definition definition))
    (children : ∀ child ∈ (older.definition definition).form.children,
      newer.Complete child) :
    newer.Complete (.definition definition) := by
  refine .intro ⟨later.holds held, rfl⟩ fun child owned => children child ?_
  rwa [Arena.children, later.definition_eq held] at owned

/--
An elaborated declaration is complete if its definition and what it wraps are.
-/
private theorem Standing.complete_decl
    {arena : Arena}
    {pending : List DeclId}
    (standing : arena.Standing pending)
    {decl : DeclId}
    (named : arena.Parsed (.name (arena.decl decl).name))
    (elaborated : (arena.decl decl).phase ≠ .unelaborated)
    (defined : ∀ definition, (arena.decl decl).form.definition? =
      some definition →
      arena.Complete (.definition definition))
    (wrapped : ∀ term, (arena.decl decl).form.wrapped? = some term →
      arena.Complete term) :
    arena.Complete (.decl decl) := by
  refine .intro ⟨holds_of_phase_ne elaborated, rfl⟩ fun child owned => ?_
  rcases List.mem_cons.mp owned with rfl | owned
  · exact Parsed.complete named
  · rcases DeclForm.mem_children.mp owned with head | definition | within
    · exact (standing.heads elaborated child head).complete
    · obtain ⟨id, given, rfl⟩ := Option.map_eq_some_iff.mp definition
      exact defined id given
    · exact wrapped child within

/--
A definition that is ready and neither an expression nor a block is complete.
-/
private theorem Ready.complete_definition
    {arena : Arena}
    {bound : Nat}
    {definition : DefId}
    (ready : arena.Ready 0 bound (.definition definition))
    (flat : (arena.definition definition).form.block? = none)
    (plain : ∀ expr, (arena.definition definition).form ≠ .expression expr) :
    arena.Complete (.definition definition) := by
  cases ready with
  | nothing parsed _ => exact Parsed.complete parsed
  | initializer _ form _ => exact absurd form (plain _)
  | block _ form _ _ =>
      rw [form] at flat
      cases flat
  | capturedBlock _ form _ _ _ =>
      rw [form] at flat
      cases flat

/-- The expression of a definition that is ready is due. -/
theorem Ready.due_expr
    {arena : Arena}
    {bound : Nat}
    {definition : DefId}
    {expr : ExprId}
    (ready : arena.Ready 0 bound (.definition definition))
    (form : (arena.definition definition).form = .expression expr) :
    arena.Due (.expr expr) := by
  cases ready with
  | nothing parsed _ =>
      exact .parsed (parsed.child (by simp [children, form, DefForm.children]))
  | initializer _ same due =>
      rw [form] at same
      cases same
      exact due
  | block _ same _ _ =>
      rw [form] at same
      cases same
  | capturedBlock _ same _ _ _ =>
      rw [form] at same
      cases same

end Arena

/-- Every task that fits a depth is carried out, and completes its terms. -/
def Performs
    (input : ElabInput)
    (depth : Nat)
    (perform : ElabTask → Elab Unit) :
    Prop :=
  ∀ {fixed : StmtId → Prop} {start : Arena} {task : ElabTask},
    start.Fits depth task →
    (∀ stmt, fixed stmt → start.Typed stmt) →
      Completes input fixed [] start (perform task) fun later _ =>
        ∀ term ∈ task.terms, later.Complete term

namespace Performs

open Tern.Completes

variable {input : ElabInput} {depth : Nat} {perform : ElabTask → Elab Unit}
  {fixed : StmtId → Prop} {start : Arena}

section Definitions

variable {bound : Nat} {definition : DefId}
  (ready : start.Ready 0 bound (.definition definition))

include ready

/-- The expression that a definition is is completed. -/
private theorem completeInitializer
    {expr : ExprId}
    (scope : ScopeId)
    (form : (start.definition definition).form = .expression expr) :
    Completes input fixed [] start (Elab.completeExpr expr scope) fun later _ =>
      later.Complete (.definition definition) := by
  refine (completeExpr scope (ready.due_expr form)).weaken
    fun final _ later _ parsed => ?_
  refine later.complete_definition ready.holds ?_
  rw [form]
  exact List.forall_mem_singleton.mpr parsed.complete

/-- The initializer of an object is completed. -/
private theorem elaborateInitializer
    {role : ObjectRole}
    {type : TypeId}
    (scope : ScopeId)
    (takes : (DeclForm.object role type definition).takes
      (start.definition definition).form = true) :
    Completes input fixed [] start (Elab.elaborateInitializer definition scope)
        fun later _ =>
      later.Complete (.definition definition) := by
  refine observe ?_
  cases form : (start.definition definition).form with
  | expression expr => exact completeInitializer ready scope form
  | empty =>
      exact pure (ready.complete_definition (by rw [form]; rfl)
        (by simp [form]))
  | _ =>
      rw [form] at takes
      cases takes

variable (performs : Performs input depth perform) (room : bound + 1 ≤ depth)
  (typed : ∀ stmt, fixed stmt → start.Typed stmt)

include performs room typed

/-- The statements in the block that a definition is are completed. -/
private theorem completeBlock
    {stmt : StmtId}
    {fragment : Fragment StmtId}
    (isBlock : fragment = .body ∨ fragment = .members)
    (lists : ∀ range older later stmt, fragment.Parsed range older later stmt →
      older.stmts.size ≤ stmt.raw ∧
        later.Ready older.decls.size (4 * (range.stop - range.start))
          (.stmt stmt))
    (scope : ScopeId)
    (block : (start.definition definition).form.block? = some stmt) :
    Completes input fixed [] start
      (do
        Elab.completeStmt stmt scope fragment.captured
        perform (.statement stmt scope)) fun later _ =>
          later.Complete (.definition definition) := by
  refine bind (completeStmt isBlock lists scope ready block typed) ?_
  rintro middle _ toMiddle ⟨inner, within, inside⟩
  refine (@performs _ _ (.statement stmt scope) ⟨inner, by omega, inside⟩
    fun other kept => toMiddle.typed kept (typed other kept)).weaken ?_
  intro final _ toFinal _ complete
  refine (toMiddle.trans toFinal).complete_definition ready.holds ?_
  rw [DefForm.children_of_block? block]
  exact List.forall_mem_singleton.mpr (complete _ (List.mem_singleton_self _))

/-- The body of a function is completed. -/
private theorem elaborateBody
    {role : CallableRole}
    {params : List DeclId}
    {result : TypeId}
    (scope : ScopeId)
    (takes : (DeclForm.callable role params result definition).takes
      (start.definition definition).form = true) :
    Completes input fixed [] start (Elab.elaborateBody perform definition scope)
        fun later _ =>
      later.Complete (.definition definition) := by
  refine observe ?_
  cases form : (start.definition definition).form with
  | body stmt =>
      exact completeBlock ready performs room typed (.inl rfl)
        (fun _ _ _ _ => id) scope
        (by rw [form]; rfl)
  | expression expr => exact completeInitializer ready scope form
  | members _ =>
      rw [form] at takes
      cases takes
  | requirements _ =>
      rw [form] at takes
      cases takes
  | _ =>
      exact pure (ready.complete_definition (by rw [form]; rfl)
        (by simp [form]))

/-- The members of a class are completed. -/
private theorem elaborateMembers
    {kind : TypeId}
    (scope : ScopeId)
    (takes : (DeclForm.classType kind definition).takes
      (start.definition definition).form = true) :
    Completes input fixed [] start
        (Elab.elaborateMembers perform definition scope) fun later _ =>
      later.Complete (.definition definition) := by
  refine observe ?_
  cases form : (start.definition definition).form with
  | members stmt =>
      exact completeBlock ready performs room typed (.inr rfl)
        (fun _ _ _ _ => id) scope
        (by rw [form]; rfl)
  | empty =>
      exact pure (ready.complete_definition (by rw [form]; rfl)
        (by simp [form]))
  | _ =>
      rw [form] at takes
      cases takes

end Definitions

/-- Parameters that are parsed are bound in the scope of their function. -/
theorem bindParams
    {params : List DeclId}
    (scope : ScopeId)
    (parsed : ∀ param ∈ params, start.Parsed (.decl param)) :
    Completes input fixed [] start
        (params.forM (Elab.bindParam scope)) fun later _ =>
      ∀ param ∈ params, later.Parsed (.decl param) := by
  refine Completes.forM
      (fun later => later.parsed) fun param listed middle later =>
    observe (next (.changeScopes _) fun _ => ?_)
  have parsedNow := later.parsed (parsed param listed)
  exact (raiseParsed _ parsedNow).weaken fun _ _ order _ _ =>
    order.parsed parsedNow

section Declarations

variable {bound : Nat} {decl : DeclId} (performs : Performs input depth perform)
  (typed : ∀ stmt, fixed stmt → start.Typed stmt)

include performs typed

/-- The definition of an object, a function or a class is completed. -/
private theorem elaborateDefined
    {definition : DefId}
    (scope : ScopeId)
    (heads : ∀ head ∈ (start.decl decl).form.heads, start.Parsed head)
    (defines : (start.decl decl).form.definition? = some definition)
    (takes : (start.decl decl).form.takes (start.definition definition).form =
      true)
    (ready : start.Ready 0 bound (.definition definition))
    (room : bound + 1 ≤ depth) :
    Completes input fixed [] start
      (Elab.elaborateForm perform decl scope (start.decl decl).form)
          fun later _ =>
        later.Complete (.definition definition) := by
  cases form : (start.decl decl).form with
  | object role type other =>
      rw [form] at defines takes
      cases defines
      exact elaborateInitializer ready scope takes
  | callable role params result other =>
      rw [form] at defines takes heads
      cases defines
      refine next (.inScopes _) fun inner =>
        bind (bindParams inner fun param listed =>
        heads _ (by simp [DeclForm.heads, listed])) fun middle _ later _ => ?_
      rw [← later.definition_eq ready.holds] at takes
      exact elaborateBody (later.ready ready) performs room
        (fun stmt kept => later.typed kept (typed stmt kept)) inner takes
          |>.weaken
          fun _ _ _ _ => id
  | classType kind other =>
      rw [form] at defines takes
      cases defines
      exact next (.inScopes _) fun inner =>
        elaborateMembers ready performs room typed inner takes
  | concept parms other =>
      rw [form] at takes
      cases takes
  | _ =>
      rw [form] at defines
      cases defines

/-- The definition of a declaration and what it wraps are completed. -/
private theorem elaborateForm
    (scope : ScopeId)
    (standing : start.Standing [])
    (ready : start.Ready 0 bound (.decl decl))
    (room : bound ≤ depth)
    (elaborated : (start.decl decl).phase ≠ .unelaborated) :
    Completes input fixed [] start
      (Elab.elaborateForm perform decl scope (start.decl decl).form)
          fun later _ =>
        (∀ definition, (start.decl decl).form.definition? = some definition →
          later.Complete (.definition definition)) ∧
            ∀ term, (start.decl decl).form.wrapped? = some term →
              later.Complete term := by
  have heads := standing.heads elaborated
  cases ready with
  | defined _ _ _ _ defines takes inside more =>
      refine (elaborateDefined performs typed scope heads defines takes inside
        (by omega)).weaken ?_
      intro later _ _ _ complete
      rw [defines, DeclForm.wrapped?_eq_none defines]
      refine ⟨?_, fun _ absent => by cases absent⟩
      rintro _ ⟨⟩
      exact complete
  | concept _ _ _ form parameters required _ =>
      rw [form]
      refine (raiseAll _ parameters).weaken fun _ _ later _ _ =>
        ⟨?_, fun _ absent => by cases absent⟩
      rintro _ ⟨⟩
      exact later.complete (Arena.Parsed.complete required)
  | @template _ _ _ wrapped parms _ _ _ _ form _ inside _ more =>
      have parameters : ∀ parm ∈ parms, start.Parsed (.decl parm) :=
        fun parm listed =>
        heads _ (by simp [form, DeclForm.heads, listed])
      have within := standing.wrapped List.not_mem_nil elaborated form
      rw [form]
      refine bind (raiseAll _ parameters) fun middle _ toMiddle _ => ?_
      refine (@performs _ _ (.definition wrapped) ⟨_, ?_, toMiddle.ready inside,
        toMiddle.phase_ne within⟩ fun stmt kept =>
          toMiddle.typed kept (typed stmt kept)).weaken
          fun _ _ _ _ complete => ⟨(fun _ absent => by cases absent), ?_⟩
      · omega
      · rintro _ ⟨⟩
        exact complete _ (List.mem_singleton_self _)
  | namespaceBlock _ _ _ form _ _ =>
      rw [form]
      exact refuseNamespace form _

/-- The definition of a declaration is completed, and so is the declaration. -/
theorem elaborateDefinition
    (ready : start.Ready 0 bound (.decl decl))
    (room : bound ≤ depth)
    (elaborated : (start.decl decl).phase ≠ .unelaborated) :
    Completes input fixed [] start
        (Elab.elaborateDefinition perform decl) fun later _ =>
      later.Complete (.decl decl) := by
  refine Completes.given fun standing =>
    observe (ite (fun finished => ?_) fun _ => ?_)
  · exact pure (standing.finished finished)
  · refine bind (elaborateForm performs typed _ standing ready room elaborated)
      ?_
    rintro middle _ later ⟨defined, wrapped⟩
    refine Completes.given fun standingNow => ?_
    have held := ready.holds
    have elaboratedNow := later.phase_ne elaborated
    have complete : middle.Complete (.decl decl) := by
      obtain ⟨sameDefinition, sameWrapped⟩ := later.owned_eq held
      refine standingNow.complete_decl ?_ elaboratedNow
        (sameDefinition ▸ defined)
        (sameWrapped ▸ wrapped)
      exact later.name_eq held ▸ later.parsed ready.name
    exact (raise (later.holds held) (standingNow.heads elaboratedNow)
      (fun _ _ _ _ form =>
        standingNow.wrapped List.not_mem_nil elaboratedNow form)
        fun _ => complete).weaken fun _ _ order _ _ => order.complete complete

end Declarations

section Statements

variable {bound : Nat} {stmt : StmtId} (performs : Performs input depth perform)
  (typed : ∀ other, fixed other → start.Typed other)

include performs typed

/-- A statement nested in another one is elaborated and complete. -/
private theorem performStatement
    (scope : ScopeId)
    (ready : start.Ready 0 bound (.stmt stmt))
    (room : bound + 1 ≤ depth) :
    Completes input fixed [] start
        (perform (.statement stmt scope)) fun later _ =>
      later.Complete (.stmt stmt) :=
  (@performs _ _ (.statement stmt scope) ⟨bound, room, ready⟩ typed).weaken
    fun _ _ _ _ complete => complete _ (List.mem_singleton_self _)

/--
A statement that keeps its form is complete once the statements in it were
elaborated.
-/
private theorem elaborateNested
    (scope : ScopeId)
    (ready : start.Ready 0 bound (.stmt stmt))
    (room : bound ≤ depth)
    (kept : fixed stmt)
    (plain : (start.stmt stmt).form.isDeclaration = false) :
    Completes input fixed [] start (Elab.elaborateStatement perform stmt scope)
        fun later _ =>
      later.Complete (.stmt stmt) := by
  have typedHere := typed stmt kept
  refine observe ?_
  cases ready with
  | plain parsed flat =>
      have complete := Arena.Parsed.complete parsed
      cases form : (start.stmt stmt).form with
      | empty => exact pure complete
      | value _ _ => exact pure complete
      | jump _ => exact pure complete
      | _ =>
          rw [form] at flat
          cases flat
  | @list _ nested _ _ stmts inner _ form items more =>
      have fits : start.Fits depth (.statements stmts inner) :=
        ⟨by omega, fun item listed =>
          ⟨nested, items item listed, by omega, fun _ => by omega⟩⟩
      rw [form]
      refine (performs fits typed).weaken fun final _ later _ complete => ?_
      refine later.complete_stmt kept typedHere ?_
      rw [Arena.children, form]
      exact complete
  | @branch _ _ _ condition accepted rejected? _ form test yes no more =>
      rw [form]
      refine bind (performStatement performs typed scope yes (by omega))
        fun middle _ later done => ?_
      have others : Completes input fixed [] middle
          (rejected?.toList.forM fun rejected =>
            perform (.statement rejected scope))
          fun final _ => ∀ rejected ∈ rejected?.toList,
              final.Complete (.stmt rejected) := by
        refine Completes.forM (fun order => order.complete)
          fun rejected given next order => ?_
        have onward := later.trans order
        exact performStatement performs
          (fun other fixed => onward.typed fixed (typed other fixed))
          scope (onward.ready (no rejected (Option.mem_toList.mp given)))
            (by omega)
      refine others.weaken fun final _ order _ complete =>
        (later.trans order).complete_stmt kept typedHere ?_
      simp only [Arena.children, form, StmtForm.children, List.forall_mem_cons,
        List.forall_mem_map]
      exact ⟨(later.trans order).complete (Arena.Parsed.complete test),
        order.complete done, complete⟩
  | loop _ form test again more =>
      rw [form]
      refine (performStatement performs typed scope again (by omega)).weaken
        fun final _ later _ complete => later.complete_stmt kept typedHere ?_
      simp only [Arena.children, form, StmtForm.children, List.forall_mem_cons]
      exact ⟨later.complete (Arena.Parsed.complete test), complete,
        List.forall_mem_nil _⟩
  | declaration _ form =>
      rw [form] at plain
      cases plain

/--
The statement lists within a statement are elaborated, which completes the
statement. A declaration is a list of its own, so that a template may take its
place.
-/
private theorem elaborateStatement
    (scope : ScopeId)
    (ready : start.Ready 0 bound (.stmt stmt))
    (room : bound ≤ depth) :
    Completes input fixed [] start (Elab.elaborateStatement perform stmt scope)
        fun later _ =>
      later.Complete (.stmt stmt) := by
  cases declares : (start.stmt stmt).form.isDeclaration with
  | true =>
      cases form : (start.stmt stmt).form with
      | declaration decl =>
          obtain ⟨inner, more, _⟩ := ready.declared form
          have enters : start.Enters depth stmt := by
            refine ⟨bound, ready, room, fun plain => ?_⟩
            rw [declares] at plain
            cases plain
          have fits : start.Fits depth (.statements [stmt] scope) :=
            ⟨by omega, List.forall_mem_singleton.mpr enters⟩
          refine observe ?_
          rw [form]
          exact (performs fits typed).weaken fun _ _ _ _ complete =>
            complete _ (List.mem_singleton_self _)
      | _ =>
          rw [form] at declares
          cases declares
  | false =>
      have wider : ∀ other, fixed other ∨ other = stmt → start.Typed other := by
        rintro other (kept | rfl)
        · exact typed other kept
        · exact ready.typed declares
      exact (elaborateNested performs wider scope ready room (.inr rfl)
        declares).narrow fun _ => .inl

/--
A typed statement of a list is completed by what it defines or the statements in
it.
-/
private theorem defineStatement
    (scope : ScopeId)
    (enters : start.Enters (depth + 1) stmt)
    (kept : fixed stmt) :
    Completes input fixed [] start (Elab.defineStatement perform scope stmt)
        fun later _ =>
      later.Complete (.stmt stmt) := by
  have typedHere := typed stmt kept
  obtain ⟨bound, ready, room, more⟩ := enters
  refine declarationOf? (fun plain => ?_) fun decl form => ?_
  · have := more plain
    exact performStatement performs typed scope ready (by omega)
  · obtain ⟨inner, within, inside⟩ := ready.declared form
    have fits : start.Fits depth (.definition decl) :=
      ⟨inner, by omega, inside, typedHere.elaborated decl form⟩
    refine bind (performs fits typed) fun middle _ later complete => ?_
    refine (raiseRequiresParams _ (later.ready inside)).weaken
      fun final _ order _ _ => ?_
    refine (later.trans order).complete_stmt kept typedHere ?_
    rw [Arena.children, form]
    exact List.forall_mem_singleton.mpr
      (order.complete (complete _ (List.mem_singleton_self _)))

end Statements

/-- All four passes over statements complete them. -/
private theorem elaborateStatements
    {stmts : List StmtId}
    (performs : Performs input depth perform)
    (typed : ∀ stmt, fixed stmt → start.Typed stmt)
    (scope : ScopeId)
    (enters : ∀ stmt ∈ stmts, start.Enters (depth + 1) stmt) :
    Completes input fixed [] start
        (Elab.elaborateStatements perform stmts scope) fun later _ =>
      ∀ stmt ∈ stmts, later.Complete (.stmt stmt) := by
  refine bind (elaborateAllTypes (fun stmt listed =>
    have ⟨bound, ready, _⟩ := enters stmt listed
    ⟨bound, ready⟩) typed) fun middle _ later typedAll => ?_
  refine next (.forM .confirmMembership) fun _ =>
    next (.mergeForwardDeclarations stmts) fun _ => ?_
  have wider : ∀ stmt, fixed stmt ∨ stmt ∈ stmts → middle.Typed stmt := by
    rintro stmt (kept | listed)
    · exact later.typed kept (typed stmt kept)
    · exact typedAll stmt listed
  have defined : Completes input (fun stmt => fixed stmt ∨ stmt ∈ stmts) []
      middle
      (stmts.forM (Elab.defineStatement perform scope)) fun final _ =>
        ∀ stmt ∈ stmts, final.Complete (.stmt stmt) := by
    refine Completes.forM (fun order => order.complete)
      fun stmt listed next order => ?_
    exact defineStatement performs
      (fun other kept => order.typed kept (wider other kept)) scope
      (order.enters (later.enters (enters stmt listed))) (.inr listed)
  exact defined.narrow fun _ => .inl

/-- One task is carried out if the tasks in it are. -/
private theorem elaborateTask (performs : Performs input depth perform) :
    Performs input (depth + 1) (Elab.elaborateTask perform) := by
  intro fixed start task fits typed
  cases task with
  | statements stmts scope =>
      refine (elaborateStatements performs typed scope fits.2).weaken
        fun _ _ _ _ complete => ?_
      exact List.forall_mem_map.mpr complete
  | statement stmt scope =>
      obtain ⟨bound, room, ready⟩ := fits
      refine (elaborateStatement performs typed scope ready (by omega)).weaken
        fun _ _ _ _ complete => ?_
      exact List.forall_mem_singleton.mpr complete
  | definition decl =>
      obtain ⟨bound, room, ready, elaborated⟩ := fits
      refine (elaborateDefinition performs typed ready (by omega)
        elaborated).weaken
        fun _ _ _ _ complete => ?_
      exact List.forall_mem_singleton.mpr complete

/-- Tasks that fit a depth are carried out with calls nested no deeper. -/
theorem nested (input : ElabInput) (depth : Nat) :
    Performs input depth (Elab.nested depth) := by
  induction depth with
  | zero =>
      intro fixed start task fits _
      cases task with
      | statements _ _ => exact absurd fits.1 (Nat.lt_irrefl 0)
      | statement _ _ =>
          obtain ⟨_, room, _⟩ := fits
          exact absurd room (Nat.not_succ_le_zero _)
      | definition _ =>
          obtain ⟨_, room, _⟩ := fits
          exact absurd room (Nat.not_succ_le_zero _)
  | succ depth inductionHypothesis => exact elaborateTask inductionHypothesis

end Performs

/--
A compilation unit whose statements are ready within its tokens is elaborated
and complete.
-/
theorem Completes.elaborateUnit
    {input : ElabInput}
    {start : Arena}
    {unit : StmtId}
    {stmts : List StmtId}
    {scope : ScopeId}
    (held : start.Holds (.stmt unit))
    (form : (start.stmt unit).form = .list .unit stmts scope)
    (ready : ∀ stmt ∈ stmts,
      start.Ready 0 (4 * input.tokens.size) (.stmt stmt)) :
    Completes input (· = unit) [] start (Elab.elaborateUnit unit) fun later _ =>
      later.Complete (.stmt unit) := by
  have typed : ∀ stmt, stmt = unit → start.Typed stmt := by
    rintro stmt rfl
    refine { held := held, parsed := ?_, elaborated := fun decl declares => ?_ }
    · rw [Arena.isUnparsed, form]
      rfl
    · rw [form] at declares
      cases declares
  have fits : start.Fits (4 * (start.termCount + input.tokens.size + 1))
      (.statements stmts scope) :=
    ⟨by omega, fun stmt listed =>
      ⟨_, ready stmt listed, by omega, fun _ => by omega⟩⟩
  refine observe ?_
  dsimp only
  rw [form]
  refine bind (consult (observe (Performs.nested input _ fits typed)))
    fun middle _ later complete => ?_
  have whole : middle.Complete (.stmt unit) := by
    refine later.complete_stmt rfl (typed unit rfl) ?_
    rw [Arena.children, form]
    exact complete
  refine observe ?_
  rw [whole.firstUnparsed?_eq_none]
  exact pure whole

/-- An expected error is no fault within the compiler. -/
private theorem ElabError.Expected.code_not_internal
    {Value : Type}
    {input : ElabInput}
    {action : Elab Value}
    {state after : ElabState}
    {error : ElabError}
    (expected : error.Expected input action state after) :
    error.code ∉ Code.internal := by
  cases expected with
  | parse _ _ _ _ plain => exact ParseCause.code_of_isPlain plain
  | refused _ => simp [ElabError.code, Code.internal]

/--
Elaboration is complete. For every text and all modes, parsing ends, and reports
no fault within the compiler. If it is done, elaborating the unit ends: either
nothing that the unit owns is a range of tokens any more, or the elaborator came
to a slot with a range that does not parse, or to a namespace, and stopped
there.
-/
theorem elaboration_complete
    (source : String)
    (mode : ParseMode)
    (options : ElabOptions) :
    let tokens := (scan .initial source).1
    let names := (scan .initial source).2
    let input : ElabInput :=
      { tokens := tokens, names := names, options := options }
    parseUnit names tokens mode ≠ .exhausted ∧
      (∀ error after, parseUnit names tokens mode = .failed error after →
        error.code ∉ Code.internal) ∧
      ∀ unit parsed, parseUnit names tokens mode = .done unit parsed →
        (∃ state,
          (Elab.elaborateUnit unit).run input (.afterParsing parsed) =
            .done () state ∧
            state.arena.Complete (.stmt unit)) ∨
        ∃ error state,
          (Elab.elaborateUnit unit).run input (.afterParsing parsed) =
            .failed error state ∧
            error.Expected input (Elab.elaborateUnit unit)
              (.afterParsing parsed) state ∧
              error.code ∉ Code.internal := by
  intro tokens names input
  have parses := parseUnit_parses names tokens mode
  refine ⟨fun exhausted => ?_, fun error after failed =>
    ?_, fun unit parsed done => ?_⟩
  · rw [exhausted] at parses
    exact parses
  · rw [failed] at parses
    exact ParseCause.code_of_isPlain parses
  · rw [done] at parses
    obtain ⟨_, phases, _, stmts, scope, held, form, ready⟩ := parses
    have outcome := @Completes.elaborateUnit input _ unit _ _ held form ready
      (.afterParsing parsed) rfl (.of_unelaborated phases)
    simp only [Action.run]
    cases ending : Elab.elaborateUnit unit input (.afterParsing parsed) with
    | done value state =>
        rw [ending] at outcome
        exact .inl ⟨state, rfl, outcome.2.2⟩
    | failed error state =>
        rw [ending] at outcome
        exact .inr ⟨error, state, rfl, outcome, outcome.code_not_internal⟩
    | exhausted =>
        rw [ending] at outcome
        exact outcome.elim

end Tern
