import Tern.Proofs.Elaboration.Groups
import Tern.Proofs.Elaboration.Signatures

namespace Tern

/-!
# All passes at work

The second pass makes declarations members of their overload sets, the third
lets forward declarations leave them, and the fourth completes definitions and
goes on with the statement lists in them. What holds after each pass holds after
all that a compilation unit is elaborated by.
-/

namespace Worksite

variable {site : Worksite} (sound : site.Sound)

include sound

/-- A whole declaration has the key of its name. -/
theorem Sound.keyed_declKey {decl : DeclId} (whole : site.Whole (.decl decl)) :
    site.Keyed decl (site.arena.declKey decl) := by
  obtain ⟨key, keyed⟩ := sound.keyed_of_whole whole
  rw [Arena.declKey, Arena.keyOf_of_key? keyed.key]
  exact keyed

/-- What a whole statement holds is whole. -/
theorem Sound.whole_of_stmt
    {stmt : StmtId}
    {form : StmtForm}
    (whole : site.Whole (.stmt stmt))
    (found : (site.arena.stmt stmt).form = form)
    {term : Term}
    (owned : term ∈ form.children) :
    site.Whole term :=
  sound.whole_child whole (by simpa [Arena.children, found] using owned)

/-- What a whole definition holds is whole. -/
theorem Sound.whole_of_definition
    {definition : DefId}
    {form : DefForm}
    (whole : site.Whole (.definition definition))
    (found : (site.arena.definition definition).form = form)
    {term : Term}
    (owned : term ∈ form.children) :
    site.Whole term :=
  sound.whole_child whole (by simpa [Arena.children, found] using owned)

end Worksite

namespace Works

variable {input : ElabInput} {origin : Arena} {start : Worksite}

/-- A declaration becomes a member of the set of its key, unless it is one. -/
theorem ensureMember
    {scope : ScopeId}
    {key : Key}
    {decl : DeclId}
    (keyed : start.Keyed decl key)
    (inside : (start.arena.decl decl).scope = scope) :
    Works input origin start (Elab.ensureMember scope key decl) fun later _ =>
      start.Calm later := by
  refine changeScopes fun scopes table saved wellFormed sound => ?_
  obtain ⟨arena, _, _, stock⟩ := start
  subst table saved
  split
  next => exact ⟨rfl, wellFormed, stock, .refl _, sound, .refl _⟩
  next missing =>
    have apart (set : OverloadSet) (found : scopes.table.findLocal? scope key =
        some set) :
        decl ∉ set := by
      simpa [Scopes.contains, Scopes.findLocal?, found] using missing
    obtain ⟨keeps, enlisted⟩ := sound.enlist keyed inside apart
    have table : (scopes.declare scope key decl).2.table =
        scopes.table.put scope key
        ((scopes.table.findLocal? scope key).getD [] ++ [decl]) := by
      simp [Scopes.declare, Scopes.findLocal?]
    have saved : (scopes.declare scope key decl).2.saved = scopes.saved := by
      simp [Scopes.declare]
    refine ⟨by simp [Scopes.declare], wellFormed.declare _ _ _,
      stock.filter fun piece => .unbound decl ∉ piece.claims, ?_⟩
    dsimp only
    rw [table, saved]
    exact ⟨keeps, enlisted, .of_scopes rfl fun was => was.append decl⟩

/-- The standing of a declaration is reported. -/
private theorem reportMember (scope : ScopeId) (key : Key) (decl : DeclId) :
    (Elab.reportMember scope key decl).Apart := by
  refine .bind .scopes fun scopes => ?_
  dsimp only
  split
  · exact .pure _
  · exact .find _

/-- The declaration that a statement holds is confirmed in its overload set. -/
theorem confirmMembership
    {stmt : StmtId}
    (whole : start.Whole (.stmt stmt)) :
    Works input origin start (Elab.confirmMembership stmt) fun _ _ => True := by
  refine given fun since => readDeclaration ?_
  cases form : (start.arena.stmt stmt).form with
  | declaration decl =>
      have inside : start.Whole (.decl decl) :=
        since.sound.whole_of_stmt whole form (by simp [StmtForm.children])
      refine observe (bind (ensureMember (since.sound.keyed_declKey inside) rfl)
        fun _ _ _ _ => ?_)
      exact (apart (reportMember _ _ _)).weaken fun _ _ _ _ => trivial
  | _ => exact pure trivial

/-- Declarations leave their overload sets; the current scope stays. -/
private theorem dropAll
    {arena : Arena}
    {scopes : Scopes}
    {stock : Stock}
    (wellFormed : scopes.WellFormed)
    (sound : Worksite.Sound
      { arena := arena, table := scopes.table, saved := scopes.saved,
        stock := stock })
    (decls : List DeclId) :
    let site : Worksite :=
      { arena := arena, table := scopes.table, saved := scopes.saved,
        stock := stock }
    let left := scopes.dropAll arena decls
    let later : Worksite :=
      { arena := arena, table := left.table, saved := left.saved,
        stock := stock }
    left.current = scopes.current ∧ left.WellFormed ∧ later.Sound ∧
      site.Keeps later ∧
      ∀ {decl}, scopes.table.Enlists decl → left.table.Enlists decl ∨
        decl ∈ decls := by
  induction decls generalizing scopes with
  | nil => exact ⟨rfl, wellFormed, sound, .refl _, .inl⟩
  | cons decl decls inductionHypothesis =>
      simp only [Scopes.dropAll, List.foldl_cons] at inductionHypothesis ⊢
      cases removed : scopes.removeMember? (arena.decl decl).scope
          (arena.declKey decl) decl with
      | none =>
          obtain ⟨same, wellFormedNow, soundNow, kept, members⟩ :=
            inductionHypothesis wellFormed sound
          exact ⟨same, wellFormedNow, soundNow, kept,
            fun was => (members was).imp_right (List.mem_cons_of_mem decl)⟩
      | some changed =>
          obtain ⟨set, position, found, listed, table, saved, current⟩ :=
            Scopes.of_removeMember? removed
          obtain ⟨keeps, left⟩ := sound.leave position found
          have site : ({ arena := arena, table := changed.table,
                         saved := changed.saved
                         stock := stock } : Worksite) =
              { arena := arena
                table :=
                  scopes.table.put (arena.decl decl).scope (arena.declKey decl)
                  (set.eraseIdx position)
                saved := scopes.saved, stock := stock } := by
            rw [table, saved]
          rw [← site] at keeps left
          obtain ⟨same, wellFormedNow, soundNow, kept, members⟩ :=
            inductionHypothesis (wellFormed.removeMember? removed) left
          refine ⟨same.trans current, wellFormedNow, soundNow, keeps.trans kept,
            fun {other} was => ?_⟩
          by_cases here : other = decl
          · exact .inr (here ▸ List.mem_cons_self ..)
          · have stays : changed.table.Enlists other :=
              table ▸ was.eraseIdx found listed here
            exact (members stays).imp_right (List.mem_cons_of_mem decl)

/--
Forward declarations leave their overload sets for others; no other declaration
does.
-/
theorem mergeForwardDeclarations (stmts : List StmtId) :
    Works input origin start
        (Elab.mergeForwardDeclarations stmts) fun later _ =>
      later.arena = start.arena ∧ start.Steady (fun _ _ => False)
        (· ∈ start.arena.declarationsAmong stmts) (fun _ => False) later := by
  intro state shows since
  obtain ⟨alive, faults, merges, shapes, merging, run⟩ :=
    Elab.mergeForwardDeclarations_run stmts input state
  obtain ⟨arena, table, saved, stock⟩ := start
  obtain ⟨rfl, rfl, rfl, wellFormed⟩ := shows
  obtain ⟨current, wellFormedNow, sound, keeps, members⟩ :=
    dropAll wellFormed since.sound (merges.map Prod.fst)
  have run : Elab.mergeForwardDeclarations stmts input state =
      .done () (state.merged faults merges shapes) := run
  rw [run]
  refine ⟨_, ⟨rfl, rfl, rfl, wellFormedNow⟩, current,
    ⟨sound, keeps, .refl _ _ _, .refl _ _, .refl _ _⟩, rfl, fun _ =>
      .inl rfl, fun was => ?_,
    fun held form => .inl ⟨held, form⟩, .refl _⟩
  exact (members was).imp_right fun left => merging.sources_subset left

end Works

/-- What a task is about is whole. -/
def Worksite.Awaits (site : Worksite) : ElabTask → Prop
  | .statements stmts _ => ∀ stmt ∈ stmts, site.Whole (.stmt stmt)
  | .statement stmt _ => site.Whole (.stmt stmt)
  | .definition decl => site.Whole (.decl decl)

namespace Works

variable {input : ElabInput} {origin : Arena} {start : Worksite}
  {perform : ElabTask → Elab Unit}

/-- An initializer is completed. -/
theorem elaborateInitializer
    {definition : DefId}
    {scope : ScopeId}
    (whole : start.Whole (.definition definition))
    (room : scope.raw < start.table.size) :
    Works input origin start (Elab.elaborateInitializer definition scope)
        fun later _ =>
      start.Calm later := by
  refine given fun since => observe ?_
  cases form : (start.arena.definition definition).form with
  | expression expr =>
      exact completeExpr room
        (since.sound.whole_of_definition whole form
          (by simp [DefForm.children]))
  | _ => exact pure (.refl _)

/-- A parameter of a scope is bound there. -/
private theorem bindParam
    {scope : ScopeId}
    {param : DeclId}
    (whole : start.Whole (.decl param))
    (inside : (start.arena.decl param).scope = scope) :
    Works input origin start (Elab.bindParam scope param) fun later _ =>
      start.Steady (fun other reached => other = param ∧ reached =
        .definitionElaborated)
        (fun _ => False) (fun _ => False) later :=
  given fun since =>
    observe (bind (ensureMember (since.sound.keyed_declKey whole) inside)
    fun _ _ onward calm =>
      (raise _ (onward.keeps.whole whole)).weaken fun _ _ further known =>
      calm.calmly known.2 onward.framed further.framed)

/--
The scope of a function is looked up, or added, and its parameters are bound
there.
-/
theorem bindParams
    {decl : DeclId}
    {role : CallableRole}
    {params : List DeclId}
    {result : TypeId}
    {definition : DefId}
    {parent : ScopeId}
    (whole : start.Whole (.decl decl))
    (form : (start.arena.decl decl).form =
      .callable role params result definition)
    (room : parent.raw < start.table.size) :
    Works input origin start
      (do
        let scope ← Elab.inScopes fun scopes =>
            scopes.scopeFor decl parent .function
        params.forM (Elab.bindParam scope)
        return scope) fun later scope => scope.raw < later.table.size ∧
          start.Steady (fun other reached => other ∈ params ∧ reached =
            .definitionElaborated)
            (fun _ => False) (fun _ => False) later := by
  refine bind (scopeFor .function whole.1 room) ?_
  rintro first scope toFirst ⟨roomy, opened, same, calm⟩
  have wholeFirst := toFirst.keeps.whole whole
  have formFirst : (first.arena.decl decl).form =
      .callable role params result definition :=
    same ▸ form
  obtain ⟨found, known, located⟩ :=
    toFirst.sound.located decl wholeFirst _ _ _ _ formFirst
  obtain rfl : found = scope := Option.some.inj (known.symm.trans opened)
  let fit (site : Worksite) (param : DeclId) : Prop :=
    site.Whole (.decl param) ∧ (site.arena.decl param).scope = found ∧
      param ∈ params
  have kept {older newer : Worksite} {param : DeclId}
      (onward : older.Onward input origin newer)
      (was : fit older param) : fit newer param :=
    ⟨onward.keeps.whole was.1, (onward.keeps.scope was.1.1).trans was.2.1,
      was.2.2⟩
  refine bind (@forMSteady input origin first DeclId params _ fit
    (fun other reached => other ∈ params ∧ reached = .definitionElaborated)
      (fun _ => False) (fun _ => False) kept
    (fun param _ fits => (bindParam fits.1 fits.2.1).weaken fun _ _ _ steady =>
      steady.weaken ?_ id id)
    fun param listed => ⟨toFirst.sound.whole_of_form wholeFirst formFirst
      (by simp [DeclForm.children, listed]), located param listed, listed⟩) ?_
  · rintro _ _ ⟨rfl, rfl⟩
    exact ⟨fits.2.2, rfl⟩
  · intro second _ toSecond steady
    exact pure ⟨Nat.lt_of_lt_of_le roomy toSecond.keeps.size,
      calm.calmly steady toFirst.framed toSecond.framed⟩

section

variable (performs : ∀ {site : Worksite} (task : ElabTask), site.Awaits task →
  Works input origin site (perform task) fun _ _ => True)

include performs

/-- A body is completed, and what it declares is elaborated. -/
private theorem completeBody
    {fragment : Fragment StmtId}
    (block : fragment = .body ∨ fragment = .members)
    {stmt : StmtId}
    {scope : ScopeId}
    (whole : start.Whole (.stmt stmt))
    (room : scope.raw < start.table.size) :
    Works input origin start
      (do
        Elab.completeStmt stmt scope fragment.captured
        perform (.statement stmt scope)) fun _ _ => True :=
  bind (completeStmt room block whole) fun _ _ onward _ =>
    performs (.statement stmt scope) (onward.keeps.whole whole)

private theorem elaborateBody
    {definition : DefId}
    {scope : ScopeId}
    (whole : start.Whole (.definition definition))
    (room : scope.raw < start.table.size) :
    Works input origin start (Elab.elaborateBody perform definition scope)
      fun _ _ => True := by
  refine given fun since => observe ?_
  cases form : (start.arena.definition definition).form with
  | body stmt =>
      exact completeBody performs (.inl (rfl : Fragment.body = _))
        (since.sound.whole_of_definition whole form
          (by simp [DefForm.children])) room
  | expression expr =>
      exact forget
        (completeExpr room
          (since.sound.whole_of_definition whole form
            (by simp [DefForm.children])))
  | _ => exact pure trivial

private theorem elaborateMembers
    {definition : DefId}
    {scope : ScopeId}
    (whole : start.Whole (.definition definition))
    (room : scope.raw < start.table.size) :
    Works input origin start (Elab.elaborateMembers perform definition scope)
      fun _ _ => True := by
  refine given fun since => observe ?_
  cases form : (start.arena.definition definition).form with
  | members stmt =>
      exact completeBody performs (.inr (rfl : Fragment.members = _))
        (since.sound.whole_of_definition whole form
          (by simp [DefForm.children])) room
  | _ => exact pure trivial

/--
The parameters of a function are bound in its scope, and its body is completed.
-/
private theorem elaborateCallable
    {decl : DeclId}
    {role : CallableRole}
    {params : List DeclId}
    {result : TypeId}
    {definition : DefId}
    {parent : ScopeId}
    (whole : start.Whole (.decl decl))
    (form : (start.arena.decl decl).form =
      .callable role params result definition)
    (room : parent.raw < start.table.size) :
    Works input origin start
      (Elab.elaborateCallable perform decl params definition parent)
      fun _ _ => True := by
  refine given fun since => ?_
  have inside : start.Whole (.definition definition) :=
    since.sound.whole_of_form whole form (by simp [DeclForm.children])
  have bound : Works input origin start
      ((do
        let scope ← Elab.inScopes fun scopes =>
            scopes.scopeFor decl parent .function
        params.forM (Elab.bindParam scope)
        return scope) >>= fun scope =>
          Elab.elaborateBody perform definition scope)
      fun _ _ => True := by
    refine bind (bindParams whole form room) fun later scope onward known => ?_
    exact elaborateBody performs (onward.keeps.whole inside) known.1
  simpa only [bind_assoc, pure_bind, Elab.elaborateCallable] using bound

/-- A definition is completed, by the form of its declaration. -/
private theorem elaborateForm
    {decl : DeclId}
    {form : DeclForm}
    {scope : ScopeId}
    (whole : start.Whole (.decl decl))
    (found : (start.arena.decl decl).form = form)
    (room : scope.raw < start.table.size) :
    Works input origin start (Elab.elaborateForm perform decl scope form)
      fun _ _ => True := by
  refine given fun since => ?_
  have owned {term : Term} (listed : term ∈ form.children) : start.Whole term :=
    since.sound.whole_of_form whole found listed
  cases form with
  | object role type definition =>
      exact forget
        (elaborateInitializer (owned (by simp [DeclForm.children])) room)
  | callable role params result definition =>
      exact elaborateCallable performs whole found room
  | classType kind definition =>
      refine bind (scopeFor .classType whole.1 room) ?_
      rintro first scope onward ⟨roomy, -, -⟩
      exact elaborateMembers performs
        (onward.keeps.whole (owned (by simp [DeclForm.children]))) roomy
  | template parms constraint? inner =>
      refine bind (raiseAll _ fun parm listed =>
        owned (by simp [DeclForm.children, listed])) ?_
      intro first _ onward _
      exact performs (.definition inner)
        (onward.keeps.whole (owned (by simp [DeclForm.children])))
  | concept parms definition =>
      exact forget (raiseAll _ fun parm listed =>
        owned (by simp [DeclForm.children, listed]))
  | parameter type => exact pure trivial
  | typeParameter index default? => exact pure trivial
  | namespaceBlock body => exact refuseNamespace decl _

theorem elaborateDefinition
    {decl : DeclId}
    (whole : start.Whole (.decl decl)) :
    Works input origin start (Elab.elaborateDefinition perform decl) fun _ _ =>
      True :=
  given fun since => observe (ite (fun _ => pure trivial) fun _ =>
    bind (elaborateForm performs whole rfl (since.sound.room_of_held whole.1))
        fun _ _ onward _ =>
      (raise _ (onward.keeps.whole whole)).weaken fun _ _ _ _ => trivial)

/-- The statement lists within a statement are elaborated. -/
private theorem elaborateStatement
    {stmt : StmtId}
    {scope : ScopeId}
    (whole : start.Whole (.stmt stmt)) :
    Works input origin start (Elab.elaborateStatement perform stmt scope)
      fun _ _ => True := by
  refine given fun since => observe ?_
  cases form : (start.arena.stmt stmt).form with
  | list role stmts inner =>
      exact performs (.statements stmts inner) fun other listed =>
        since.sound.whole_of_stmt whole form
          (by simp [StmtForm.children, listed])
  | branch condition accepted rejected? =>
      have inside {other : StmtId}
          (listed : other = accepted ∨ other ∈ rejected?) :
          start.Whole (.stmt other) := by
        refine since.sound.whole_of_stmt whole form ?_
        rcases listed with rfl | listed
        · simp [StmtForm.children]
        · simp [StmtForm.children, Option.mem_def.mp listed]
      refine bind (performs (.statement accepted scope) (inside (.inl rfl))) ?_
      intro first _ onward _
      let fit (site : Worksite) (other : StmtId) : Prop :=
        site.Whole (.stmt other)
      have kept {older newer : Worksite} {other : StmtId}
          (onward : older.Onward input origin newer)
          (was : fit older other) : fit newer other := onward.keeps.whole was
      exact @forM input origin first StmtId rejected?.toList _ fit
        (fun _ _ => True)
        (fun _ => trivial) (fun _ _ _ _ => trivial) kept
        (fun other site fits => performs (.statement other scope) fits)
        fun other listed =>
          onward.keeps.whole (inside (.inr (Option.mem_toList.mp listed)))
  | loop condition body =>
      exact performs (.statement body scope)
        (since.sound.whole_of_stmt whole form (by simp [StmtForm.children]))
  | declaration decl =>
      exact performs (.statements [stmt] scope)
        (List.forall_mem_singleton.mpr whole)
  | _ => exact pure trivial

/--
The definition that a statement holds is completed, or the statement lists
within it.
-/
private theorem defineStatement
    {stmt : StmtId}
    (scope : ScopeId)
    (whole : start.Whole (.stmt stmt)) :
    Works input origin start (Elab.defineStatement perform scope stmt)
      fun _ _ => True := by
  refine given fun since => readDeclaration ?_
  cases form : (start.arena.stmt stmt).form with
  | declaration decl =>
      have inside : start.Whole (.decl decl) :=
        since.sound.whole_of_stmt whole form (by simp [StmtForm.children])
      exact bind (performs (.definition decl) inside) fun _ _ onward _ =>
        forget (raiseRequiresParams _ (onward.keeps.whole inside))
  | _ => exact performs (.statement stmt scope) whole

omit performs in
/-- The types of the declaration that a statement holds are completed. -/
theorem elaborateTypes
    {stmt : StmtId}
    (whole : start.Whole (.stmt stmt)) :
    Works input origin start (Elab.elaborateTypes stmt) fun _ _ => True := by
  refine given fun since => readDeclaration ?_
  cases form : (start.arena.stmt stmt).form with
  | declaration decl =>
      have inside : start.Whole (.decl decl) :=
        since.sound.whole_of_stmt whole form (by simp [StmtForm.children])
      exact observe (bind (elaborateTypeWithin inside ⟨stmt, rfl, whole, form⟩)
          fun _ _ onward _ =>
        forget (raiseRequiresParams _ (onward.keeps.whole inside)))
  | _ => exact pure trivial

/-- All four passes go over statements. -/
private theorem elaborateStatements
    {stmts : List StmtId}
    (scope : ScopeId)
    (whole : ∀ stmt ∈ stmts, start.Whole (.stmt stmt)) :
    Works input origin start (Elab.elaborateStatements perform stmts scope)
      fun _ _ => True := by
  let fit (site : Worksite) (stmt : StmtId) : Prop := site.Whole (.stmt stmt)
  have kept {older newer : Worksite} {stmt : StmtId}
      (onward : older.Onward input origin newer)
      (was : fit older stmt) : fit newer stmt := onward.keeps.whole was
  have pass {action : StmtId → Elab Unit} {site : Worksite}
      (each : ∀ stmt (middle : Worksite), middle.Whole (.stmt stmt) →
        Works input origin middle (action stmt) fun _ _ => True)
      (fits : ∀ stmt ∈ stmts, site.Whole (.stmt stmt)) :
      Works input origin site (stmts.forM action) fun _ _ => True :=
    @forM input origin site StmtId stmts action fit (fun _ _ => True)
      (fun _ => trivial)
      (fun _ _ _ _ => trivial) kept each fits
  refine bind (pass (fun _ _ fits => elaborateTypes fits) whole)
    fun first _ toFirst _ => ?_
  have wholeFirst : ∀ stmt ∈ stmts, first.Whole (.stmt stmt) :=
    fun stmt listed => toFirst.keeps.whole (whole stmt listed)
  refine bind (pass (fun _ _ fits => confirmMembership fits) wholeFirst)
    fun second _ toSecond _ => ?_
  refine bind (mergeForwardDeclarations stmts) fun third _ toThird _ => ?_
  exact pass (fun _ _ fits => defineStatement performs scope fits)
      fun stmt listed =>
    toThird.keeps.whole (toSecond.keeps.whole (wholeFirst stmt listed))

/-- A task is carried out. -/
private theorem elaborateTask
    {task : ElabTask}
    (awaits : start.Awaits task) :
    Works input origin start (Elab.elaborateTask perform task) fun _ _ =>
      True := by
  cases task with
  | statements stmts scope => exact elaborateStatements performs scope awaits
  | statement stmt scope => exact elaborateStatement performs awaits
  | definition decl => exact elaborateDefinition performs awaits

end

/-- So it is with the tasks in it nested to any depth. -/
theorem nested
    {depth : Nat}
    (task : ElabTask)
    (awaits : start.Awaits task) :
    Works input origin start (Elab.nested depth task) fun _ _ => True := by
  induction depth generalizing start task with
  | zero => exact exhaust _
  | succ depth inductionHypothesis =>
      exact elaborateTask (fun task => inductionHypothesis task) awaits

/-- A compilation unit is elaborated. -/
theorem elaborateUnit
    {unit : StmtId}
    (whole : start.Whole (.stmt unit)) :
    Works input origin start (Elab.elaborateUnit unit) fun _ _ => True := by
  refine given fun since => observe ?_
  have residual (site : Worksite) :
      Works input origin site (Elab.refuseResidual unit) fun _ _ => True := by
    refine observe ?_
    split
    · exact pure trivial
    · exact fail _ _
  dsimp only
  split
  next stmts scope form =>
    refine bind (next .environment fun _ =>
      observe (nested (.statements stmts scope) ?_))
      fun later _ _ _ => residual later
    exact fun stmt listed =>
      since.sound.whole_of_stmt whole form (by simp [StmtForm.children, listed])
  next => exact fail _ _

end Works

end Tern
