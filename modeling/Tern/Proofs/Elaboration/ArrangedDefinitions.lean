import Tern.Proofs.Elaboration.ArrangedSets
import Tern.Proofs.Elaboration.Itinerary

namespace Tern

/-!
# The fourth pass keeps worksites arranged

The parameters of a function are bound one behind the other, and what its body
declares starts behind them. What the body is parsed to takes the place of its
tokens, and all four passes go over it in turn.
-/

/-- What a captured body is parsed to is a list of statements. -/
private theorem Fragment.list_of_captured
    {fragment : Fragment StmtId}
    (block : fragment = .body ∨ fragment = .members)
    {input : ParserInput}
    {state after : ParserState}
    {stmt : StmtId}
    (run : fragment.captured input state = .done stmt after) :
    ∃ role stmts scope, (after.arena.stmt stmt).form =
      .list role stmts scope := by
  rcases block with rfl | rfl
  · exact ⟨_, (Parser.AddsList.bodyFragment _ _ _ _ run).2⟩
  · exact ⟨_, (Parser.AddsList.memberFragment _ _ _ _ run).2⟩

/-- A range of tokens is parsed with a parser of its own. -/
private theorem Elab.parseRange_done
    {Value : Type}
    {parser : Parser Value}
    {input : ElabInput}
    {state after : ElabState}
    {scope : ScopeId}
    {range : TokenRange}
    {value : Value}
    (run : Elab.parseRange scope range parser input state = .done value after) :
    ∃ last : ParserState,
      parser { window := .ofRange input.tokens range, names := input.names,
               mode := input.options.mode }
          (.start (.ofRange input.tokens range) (state.scopes.enter scope)
            state.arena) =
        .done value last ∧ after.arena = last.arena := by
  simp only [Elab.parseRange, Action.run] at run
  split at run
  next ending =>
    cases run
    exact ⟨_, ending, rfl⟩
  · cases run
  · cases run

namespace ElabState

/-- What a task is about lies in its place, and a declaration is declared. -/
def Expects (input : ElabInput) (state : ElabState) : ElabTask → Prop
  | .statements stmts _ =>
      ∀ stmt ∈ stmts, state.arena.Laid .empty input.tokens (.stmt stmt)
  | .statement stmt _ => state.arena.Laid .empty input.tokens (.stmt stmt)
  | .definition decl =>
      state.arena.Declares decl ∧
        state.arena.Laid .empty input.tokens (.decl decl)

variable {input : ElabInput} {origin : Arena} {state middle after : ElabState}
  {decl : DeclId}
  {params : List DeclId} {scope : ScopeId}

namespace Stands

/-- A parameter is a member afterwards if all in front of it were. -/
private theorem ensureParam
    {param : DeclId}
    {done rest : List DeclId}
    (stands : state.Stands input origin)
    (calls : state.Calls input decl (done ++ param :: rest))
    (bound : ∀ param ∈ done, state.scopes.table.Enlists param)
    (saved : state.scopes.saved.lookup decl = some scope)
    (run : Elab.ensureMember scope (state.arena.declKey param) param input
      state = .done () after) :
    Tends input origin state after ∧ after.arena = state.arena ∧
      after.scopes.table.Enlists param ∧
        ∀ {other}, state.scopes.table.Enlists other →
          after.scopes.table.Enlists other := by
  obtain ⟨stock, since⟩ := stands.sited
  obtain ⟨role, result, definition, form⟩ := calls.form
  have whole : (state.site stock).Whole (.decl decl) :=
    since.sound.whole_of_declares calls.declares
  obtain ⟨home, opened, located⟩ := since.sound.located decl whole _ _ _ _ form
  obtain rfl : home = scope := Option.some.inj (opened.symm.trans saved)
  have inside : (state.arena.decl param).scope = home := located param (by simp)
  obtain ⟨arena, findings, savedNow, ⟨set, found, member⟩, table⟩ :=
    Elab.ensureMember_done (stands.room_of_saved saved) run
  rcases table with rfl | ⟨missing, table⟩
  · exact ⟨.refl stands, rfl, ⟨_, _, set, found, member⟩, id⟩
  · have unbound := stands.not_enlists_of_contains (inside ▸ missing)
    have params : (state.arena.decl decl).form.params = done ++ param ::
        rest := by rw [form]; rfl
    let later : Worksite :=
      { (state.site stock) with
        table := state.scopes.table.put home (state.arena.declKey param)
          ((state.scopes.table.findLocal? home (state.arena.declKey param)).getD
            [] ++ [param]) }
    have arranged : later.Arranged input.order state.Retired fun _ => False :=
      (stands.arrangedWith stock).bindParam since.sound calls.declares params
        bound unbound saved
        (stands.room_of_saved saved)
    have works (stock : Stock) (sound : (state.site stock).Sound) :=
      @Works.ensureMember input origin (state.site stock) _ _ _
        (sound.keyed_declKey (calls.whole_param (by simp) sound)) inside
    refine ⟨stands.tends works run (arranged.of_eq arena table savedNow)
      (fun {other} retired now => ?_)
      (congrArg Findings.merges findings)
        (congrArg Findings.memberships findings), arena,
      ⟨_, _, set, found, member⟩, fun was => table ▸ was.append param⟩
    rw [table] at now
    refine (ScopeTable.eq_or_enlists_of_append now).resolve_left ?_
    rintro rfl
    exact since.sound.not_declares_of_param whole
      (by simp [ElabState.site, params])
      (stands.arranged.gone retired).1

/-- A parameter is bound in its turn. -/
private theorem bindParam
    {param : DeclId}
    {done rest : List DeclId}
    (stands : state.Stands input origin)
    (calls : state.Calls input decl (done ++ param :: rest))
    (bound : ∀ param ∈ done, state.scopes.table.Enlists param)
    (saved : state.scopes.saved.lookup decl = some scope)
    (run : Elab.bindParam scope param input state = .done () after) :
    Tends input origin state after ∧ ∀ other ∈ done ++ [param],
      after.scopes.table.Enlists other := by
  obtain ⟨_, _, observed, run⟩ := Action.done_of_bind run
  cases observed
  obtain ⟨_, middle, ensures, run⟩ := Action.done_of_bind run
  obtain ⟨tends, arena, enlists, kept⟩ :=
    stands.ensureParam calls bound saved ensures
  have callsNow : middle.Calls input decl (done ++ param :: rest) := by
    obtain ⟨declares, laid, form⟩ := calls
    exact ⟨arena ▸ declares, arena ▸ laid, arena ▸ form⟩
  obtain ⟨further, -, -⟩ := tends.stands.raise
    (fun _ sound => callsNow.whole_param (by simp) sound) run
  have scopes : after.scopes = middle.scopes := by
    cases run
    rfl
  refine ⟨tends.trans further, fun other listed => ?_⟩
  rw [scopes]
  rcases List.mem_append.mp listed with front | last
  · exact kept (bound other front)
  · exact List.mem_singleton.mp last ▸ enlists

/-- Parameters are bound one behind the other. -/
private theorem bindParams
    {done rest : List DeclId}
    (stands : state.Stands input origin)
    (scanned : input.Scanned)
    (calls : state.Calls input decl (done ++ rest))
    (bound : ∀ param ∈ done, state.scopes.table.Enlists param)
    (saved : state.scopes.saved.lookup decl = some scope)
    (run : rest.forM (Elab.bindParam scope) input state = .done () after) :
    Tends input origin state after ∧ ∀ param ∈ done ++ rest,
      after.scopes.table.Enlists param := by
  induction rest generalizing state done with
  | nil =>
      cases run
      exact ⟨.refl stands, by simpa using bound⟩
  | cons param rest inductionHypothesis =>
      rw [List.forM_eq_forM, List.forM_cons] at run
      obtain ⟨_, middle, first, run⟩ := Action.done_of_bind run
      obtain ⟨tends, boundNow⟩ := stands.bindParam calls bound saved first
      rw [List.append_cons] at calls ⊢
      obtain ⟨further, all⟩ :=
        inductionHypothesis tends.stands (tends.calls scanned calls) boundNow
        (tends.saved saved) run
      exact ⟨tends.trans further, all⟩

/--
A captured body is parsed where it is declared. What its statements declare
starts behind all that is bound there, and nothing is to be bound there any
more. Who waits in this scope is the one whose body it is, and that is not
captured any more.
-/
private theorem completeBody
    {fragment : Fragment StmtId}
    {definition : DefId}
    {stmt : StmtId}
    (stands : state.Stands input origin)
    (scanned : input.Scanned)
    (block : fragment = .body ∨ fragment = .members)
    (declares : state.arena.Declares decl)
    (plain : (state.arena.decl decl).form.isPlain = false)
    (defines : (state.arena.decl decl).form.definition? = some definition)
    (inside : (state.arena.definition definition).form.block? = some stmt)
    (laid : state.arena.Laid .empty input.tokens (.stmt stmt))
    (bound : ∀ param ∈ (state.arena.decl decl).form.params,
      state.scopes.table.Enlists param)
    (saved : state.scopes.saved.lookup decl = some scope)
    (run : Elab.completeStmt stmt scope fragment.captured input state =
      .done () after) :
    Tends input origin state after := by
  have room := stands.room_of_saved saved
  have works (stock : Stock) (_ : (state.site stock).Sound) :=
    @Works.completeStmt input origin (state.site stock) scope room fragment
      block stmt
      ⟨laid.here.held, nofun⟩
  have ran := run
  obtain ⟨_, _, observed, run⟩ := Action.done_of_bind run
  cases observed
  cases form : (state.arena.stmt stmt).form with
  | unparsed range =>
      rw [form] at run
      obtain ⟨nonempty, within, -⟩ := laid.here.encloses.captured range
        (by rw [Arena.range?, form]; rfl)
      have captured : state.arena.CapturedAt decl range.start :=
        ⟨plain, definition, stmt, range, defines, inside, form, rfl⟩
      obtain ⟨home, opened, before, -⟩ :=
        (stands.arranged.waits declares id).captured _ captured
      obtain rfl : home = scope := Option.some.inj (opened.symm.trans saved)
      obtain ⟨parsed, middle, first, last⟩ := Action.done_of_bind run
      cases last
      have parses :=
        stands.parseRange fragment scanned room nonempty within
          (fun _ => before) first
      obtain ⟨role, stmts, inner, list⟩ : ∃ role stmts inner,
          (middle.arena.stmt parsed).form = .list role stmts inner := by
        obtain ⟨last, ending, same⟩ := Elab.parseRange_done first
        rw [same]
        exact Fragment.list_of_captured block ending
      obtain ⟨stock, sound⟩ := parses.sound
      have formNow : (middle.arena.stmt stmt).form = .unparsed range :=
        (parses.extended.stmt_eq laid.here.held).symm ▸ form
      have moved := (parses.arranged.restock stock).moveStmt sound formNow list
      refine stands.tends works ran
        (Worksite.Arranged.awaken (moved.restock 0) ?_)
        (fun retired => parses.enlisted (stands.held_of_retired retired))
        (congrArg Findings.merges parses.findings)
          (congrArg Findings.memberships parses.findings)
      rintro other ⟨-, openedToo⟩ declaresNow - dozes
      obtain ⟨_, since⟩ := stands.sited
      obtain ⟨_, _, split, -⟩ := List.lookup_eq_some_iff.mp openedToo
      have held : state.arena.Holds (.decl other) :=
        (since.sound.saved (other, home) (by simp [ElabState.site, split])).1
      have declaresToo :=
        parses.declared held
          (sound.declares_of_moveStmt formNow list declaresNow)
      have whole := since.sound.whole_of_declares declaresToo
      have same : (middle.arena.moveStmt stmt parsed).decl other =
          state.arena.decl other :=
        ((Arena.moved_moveStmt (Arena.holds_of_unparsed formNow) parsed).decl
          other).trans
          (parses.extended.decl_eq held)
      have dozed : (state.site 0).Dozes other :=
        dozes.back (congrArg Decl.form same)
        (fun now => since.sound.capturedAt_of_extends parses.extended whole
          (Arena.capturedAt_of_moveStmt formNow list now)) fun _ _ =>
            parses.enlists
      obtain rfl : other = decl :=
        stands.arranged.alone declaresToo declares id id dozed
        (.inr ⟨_, captured⟩) openedToo saved
      have form : ((middle.arena.moveStmt stmt parsed).decl other).form =
          (state.arena.decl other).form := congrArg Decl.form same
      rcases dozes with ⟨param, listed, unbound⟩ |
          ⟨_, -, found, target, _, defined, block, now, -⟩
      · have listed : param ∈
            ((middle.arena.moveStmt stmt parsed).decl other).form.params :=
          listed
        exact unbound (parses.enlists (bound param (form ▸ listed)))
      · have defined :
            ((middle.arena.moveStmt stmt parsed).decl other).form.definition? =
          some found := defined
        rw [form, defines] at defined
        obtain rfl := Option.some.inj defined
        have stored : state.arena.Holds (.definition definition) :=
          (since.sound.whole_of_form whole rfl (DeclForm.mem_children.mpr
            (.inr (.inl (by rw [ElabState.site, defines]; rfl))))).1
        have block :
            ((middle.arena.moveStmt stmt parsed).definition
              definition).form.block? =
          some target := block
        rw [Arena.definition_moveStmt, parses.extended.definition_eq stored,
          inside] at block
        obtain rfl := Option.some.inj block
        exact (Arena.unparsed_of_moveStmt formNow list now).1 rfl
  | _ =>
      rw [form] at run
      cases run
      exact .refl stands

/-- The scope of what is declared is stored. -/
private theorem room_of_laid
    (stands : state.Stands input origin)
    (laid : state.arena.Laid .empty input.tokens (.decl decl)) :
    (state.arena.decl decl).scope.raw < state.scopes.table.size := by
  obtain ⟨_, since⟩ := stands.sited
  exact since.sound.room_of_held laid.here.held

/-- An initializer is completed. -/
private theorem elaborateInitializer
    {definition : DefId}
    (stands : state.Stands input origin)
    (scanned : input.Scanned)
    (room : scope.raw < state.scopes.table.size)
    (laid : state.arena.Laid .empty input.tokens (.definition definition))
    (run : Elab.elaborateInitializer definition scope input state =
      .done () after) :
    Tends input origin state after := by
  obtain ⟨_, _, observed, run⟩ := Action.done_of_bind run
  cases observed
  cases form : (state.arena.definition definition).form with
  | expression expr =>
      rw [form] at run
      exact stands.completeExpr scanned room
        (laid.child (by simp [Arena.children, form, DefForm.children])) run
  | _ =>
      rw [form] at run
      cases run
      exact .refl stands

end Stands

/-- A task leads from what is arranged to what is arranged. -/
def Performs
    (input : ElabInput)
    (origin : Arena)
    (perform : ElabTask → Elab Unit) :
    Prop :=
  ∀ ⦃task : ElabTask⦄ ⦃state after : ElabState⦄, state.Stands input origin →
    state.Expects input task → perform task input state = .done () after →
      Leads input origin state after

variable {perform : ElabTask → Elab Unit}

namespace Performs

variable (performs : Performs input origin perform) (scanned : input.Scanned)

include performs scanned

/-- A body is completed, and all passes go over it. -/
private theorem completeBody
    {fragment : Fragment StmtId}
    {definition : DefId}
    {stmt : StmtId}
    (stands : state.Stands input origin)
    (block : fragment = .body ∨ fragment = .members)
    (declares : state.arena.Declares decl)
    (plain : (state.arena.decl decl).form.isPlain = false)
    (defines : (state.arena.decl decl).form.definition? = some definition)
    (inside : (state.arena.definition definition).form.block? = some stmt)
    (laid : state.arena.Laid .empty input.tokens (.definition definition))
    (bound : ∀ param ∈ (state.arena.decl decl).form.params,
      state.scopes.table.Enlists param)
    (saved : state.scopes.saved.lookup decl = some scope)
    (run : (do
        Elab.completeStmt stmt scope fragment.captured
        perform (.statement stmt scope)) input state = .done () after) :
    Leads input origin state after := by
  have within : state.arena.Laid .empty input.tokens (.stmt stmt) :=
    laid.child (by simp [Arena.children, DefForm.children_of_block? inside])
  obtain ⟨_, middle, first, run⟩ := Action.done_of_bind run
  have tends := stands.completeBody scanned block declares plain defines inside
    within bound saved first
  have laidNow : middle.Expects input (.statement stmt scope) :=
    tends.laid scanned within
  exact tends.leads.trans (performs tends.stands laidNow run)

/--
The parameters of a function are bound in its scope, and its body is completed.
-/
private theorem elaborateCallable
    {role : CallableRole}
    {result : TypeId}
    {definition : DefId}
    {parent : ScopeId}
    (stands : state.Stands input origin)
    (expects : state.Expects input (.definition decl))
    (form : (state.arena.decl decl).form =
      .callable role params result definition)
    (room : parent.raw < state.scopes.table.size)
    (run : Elab.elaborateCallable perform decl params definition parent input
      state = .done () after) :
    Leads input origin state after := by
  obtain ⟨declares, laid⟩ := expects
  obtain ⟨scope, first, opens, run⟩ := Action.done_of_bind run
  obtain ⟨_, second, binds, run⟩ := Action.done_of_bind run
  obtain ⟨toFirst, same, saved, -⟩ := stands.scopeFor laid.here.held room opens
  have calls : first.Calls input decl ([] ++ params) :=
    toFirst.calls scanned ⟨declares, laid, role, result, definition, form⟩
  obtain ⟨toSecond, bound⟩ :=
    toFirst.stands.bindParams scanned calls (by simp) saved binds
  have tends := toFirst.trans toSecond
  have formNow : (second.arena.decl decl).form =
      .callable role params result definition :=
    (tends.framed.form_eq laid.here.held (by rw [form]; rfl)).trans form
  have inside : second.arena.Laid .empty input.tokens
      (.definition definition) :=
    (tends.laid scanned laid).of_form formNow (by simp [DeclForm.children])
  obtain ⟨_, _, observed, run⟩ := Action.done_of_bind run
  cases observed
  cases body : (second.arena.definition definition).form with
  | body stmt =>
      rw [body] at run
      exact tends.leads.trans (performs.completeBody scanned tends.stands
        (.inl (rfl : Fragment.body = _)) (tends.framed.declares declares)
          (by rw [formNow]; rfl)
        (by rw [formNow]; rfl) (by rw [body]; rfl) inside
        (by rw [formNow]; simpa [DeclForm.params] using bound)
          (toSecond.saved saved) run)
  | expression expr =>
      rw [body] at run
      exact (tends.trans (tends.stands.completeExpr scanned
        (tends.stands.room_of_saved (toSecond.saved saved))
        (inside.child (by simp [Arena.children, body, DefForm.children]))
          run)).leads
  | _ =>
      rw [body] at run
      cases run
      exact tends.leads

/-- The members of a class are completed in its scope. -/
private theorem elaborateClass
    {kind : TypeId}
    {definition : DefId}
    {parent : ScopeId}
    (stands : state.Stands input origin)
    (expects : state.Expects input (.definition decl))
    (form : (state.arena.decl decl).form = .classType kind definition)
    (room : parent.raw < state.scopes.table.size)
    (run : Elab.elaborateClass perform decl definition parent input state =
      .done () after) :
    Leads input origin state after := by
  obtain ⟨declares, laid⟩ := expects
  obtain ⟨scope, first, opens, run⟩ := Action.done_of_bind run
  obtain ⟨tends, same, saved, -⟩ := stands.scopeFor laid.here.held room opens
  have formNow : (first.arena.decl decl).form = .classType kind definition :=
    (tends.framed.form_eq laid.here.held (by rw [form]; rfl)).trans form
  have inside : first.arena.Laid .empty input.tokens (.definition definition) :=
    (tends.laid scanned laid).of_form formNow (by simp [DeclForm.children])
  obtain ⟨_, _, observed, run⟩ := Action.done_of_bind run
  cases observed
  cases body : (first.arena.definition definition).form with
  | members stmt =>
      rw [body] at run
      exact tends.leads.trans (performs.completeBody scanned tends.stands
        (.inr (rfl : Fragment.members = _)) (tends.framed.declares declares)
          (by rw [formNow]; rfl)
        (by rw [formNow]; rfl) (by rw [body]; rfl) inside
        (by rw [formNow]; simp [DeclForm.params]) saved run)
  | _ =>
      rw [body] at run
      cases run
      exact tends.leads

/-- A definition is completed, by the form of its declaration. -/
private theorem elaborateForm
    {form : DeclForm}
    (stands : state.Stands input origin)
    (expects : state.Expects input (.definition decl))
    (found : (state.arena.decl decl).form = form)
    (run : Elab.elaborateForm perform decl (state.arena.decl decl).scope form
      input state =
      .done () after) :
    Leads input origin state after := by
  have room := stands.room_of_laid expects.2
  have whole (stock : Stock) (sound : (state.site stock).Sound) :=
    sound.whole_of_declares expects.1
  cases form with
  | object role type definition =>
      exact (stands.elaborateInitializer scanned room
        (expects.2.of_form found (by simp [DeclForm.children])) run).leads
  | callable role params result definition =>
      exact performs.elaborateCallable scanned stands expects found room run
  | classType kind definition =>
      exact performs.elaborateClass scanned stands expects found room run
  | template parms constraint? inner =>
      obtain ⟨_, middle, raises, run⟩ := Action.done_of_bind run
      obtain ⟨tends, -⟩ := stands.raiseAll (fun stock sound parm listed =>
        sound.whole_of_form (whole stock sound) found
          (by simp [DeclForm.children, listed])) raises
      obtain ⟨more, formNow⟩ :=
        (tends.framed.decl expects.2.here.held).resembles.template found
      have expectsNow : middle.Expects input (.definition inner) :=
        ⟨(tends.framed.declares expects.1).inner formNow,
          (tends.laid scanned expects.2).of_form formNow
            (by simp [DeclForm.children])⟩
      exact tends.leads.trans (performs tends.stands expectsNow run)
  | concept parms definition =>
      exact (stands.raiseAll (fun stock sound parm listed =>
        sound.whole_of_form (whole stock sound) found
          (by simp [DeclForm.children, listed])) run).1.leads
  | parameter type =>
      cases run
      exact .refl stands
  | typeParameter index default? =>
      cases run
      exact .refl stands
  | namespaceBlock body =>
      obtain ⟨_, _, observed, run⟩ := Action.done_of_bind run
      cases run

/-- A definition is completed, unless that is done. -/
private theorem elaborateDefinition
    (stands : state.Stands input origin)
    (expects : state.Expects input (.definition decl))
    (run : Elab.elaborateDefinition perform decl input state = .done () after) :
    Leads input origin state after := by
  obtain ⟨_, _, observed, run⟩ := Action.done_of_bind run
  cases observed
  by_cases finished : (state.arena.decl decl).phase = .definitionElaborated
  · rw [if_pos finished] at run
    cases run
    exact .refl stands
  · rw [if_neg finished] at run
    obtain ⟨_, middle, first, run⟩ := Action.done_of_bind run
    have leads := performs.elaborateForm scanned stands expects rfl first
    exact leads.trans (leads.stands.raise
      (fun _ sound => sound.whole_of_declares (leads.framed.declares expects.1))
        run).1.leads

/-- The statement lists within a statement are elaborated. -/
private theorem elaborateStatement
    {stmt : StmtId}
    (stands : state.Stands input origin)
    (expects : state.Expects input (.statement stmt scope))
    (run : Elab.elaborateStatement perform stmt scope input state =
      .done () after) :
    Leads input origin state after := by
  have laid : state.arena.Laid .empty input.tokens (.stmt stmt) := expects
  obtain ⟨_, _, observed, run⟩ := Action.done_of_bind run
  cases observed
  cases form : (state.arena.stmt stmt).form with
  | list role stmts inner =>
      rw [form] at run
      have items : state.Expects input (.statements stmts inner) :=
        fun item listed =>
        laid.child (by simp [Arena.children, form, StmtForm.children, listed])
      exact performs stands items run
  | branch condition accepted rejected? =>
      rw [form] at run
      obtain ⟨_, middle, first, run⟩ := Action.done_of_bind run
      have here : state.Expects input (.statement accepted scope) :=
        laid.child (by simp [Arena.children, form, StmtForm.children])
      have leads := performs stands here first
      cases rejected? with
      | none =>
          cases run
          exact leads
      | some rejected =>
          have there : middle.Expects input (.statement rejected scope) :=
            leads.laid scanned
              (laid.child (by simp [Arena.children, form, StmtForm.children]))
          rw [Option.toList_some, List.forM_eq_forM, List.forM_cons] at run
          obtain ⟨_, last, second, run⟩ := Action.done_of_bind run
          cases run
          exact leads.trans (performs leads.stands there second)
  | loop condition body =>
      rw [form] at run
      have here : state.Expects input (.statement body scope) :=
        laid.child (by simp [Arena.children, form, StmtForm.children])
      exact performs stands here run
  | declaration decl =>
      rw [form] at run
      have here : state.Expects input (.statements [stmt] scope) :=
        List.forall_mem_singleton.mpr laid
      exact performs stands here run
  | _ =>
      rw [form] at run
      cases run
      exact .refl stands

omit scanned in
/--
The definition that a statement holds is completed, or the statement lists
within it.
-/
private theorem defineStatement
    {stmt : StmtId}
    (stands : state.Stands input origin)
    (laid : state.arena.Laid .empty input.tokens (.stmt stmt))
    (run : Elab.defineStatement perform scope stmt input state =
      .done () after) :
    Leads input origin state after := by
  obtain ⟨_, _, read, run⟩ := Action.done_of_bind run
  cases (Elab.declarationOf?_run stmt input state).symm.trans read
  cases form : (state.arena.stmt stmt).form with
  | declaration decl =>
      rw [form] at run
      obtain ⟨_, middle, first, run⟩ := Action.done_of_bind run
      have expects : state.Expects input (.definition decl) :=
        ⟨Arena.declares_of_stmt form,
          laid.child (by simp [Arena.children, form, StmtForm.children])⟩
      have leads := performs stands expects first
      exact leads.trans (leads.stands.raiseRequiresParams
        (fun _ sound =>
          sound.whole_of_declares (leads.framed.declares expects.1))
          run).1.leads
  | _ =>
      rw [form] at run
      have here : state.Expects input (.statement stmt scope) := laid
      exact performs stands here run

/-- The fourth pass goes over statements. -/
private theorem defineStatements
    {stmts : List StmtId}
    (stands : state.Stands input origin)
    (laid : ∀ stmt ∈ stmts, state.arena.Laid .empty input.tokens (.stmt stmt))
    (run : stmts.forM (Elab.defineStatement perform scope) input state =
      .done () after) :
    Leads input origin state after := by
  induction stmts generalizing state with
  | nil =>
      cases run
      exact .refl stands
  | cons stmt rest inductionHypothesis =>
      obtain ⟨here, others⟩ := List.forall_mem_cons.mp laid
      rw [List.forM_eq_forM, List.forM_cons] at run
      obtain ⟨_, middle, first, run⟩ := Action.done_of_bind run
      have leads := performs.defineStatement stands here first
      exact leads.trans (inductionHypothesis leads.stands
        (fun other listed => leads.laid scanned (others other listed)) run)

/-- All four passes go over statements. -/
private theorem elaborateStatements
    {stmts : List StmtId}
    (stands : state.Stands input origin)
    (expects : state.Expects input (.statements stmts scope))
    (run : Elab.elaborateStatements perform stmts scope input state =
      .done () after) :
    Leads input origin state after := by
  obtain ⟨_, first, types, run⟩ := Action.done_of_bind run
  obtain ⟨_, second, members, run⟩ := Action.done_of_bind run
  obtain ⟨_, third, merges, run⟩ := Action.done_of_bind run
  obtain ⟨toFirst, typed, -⟩ := stands.elaborateTypesOf scanned expects types
  obtain ⟨toSecond, same, -, told⟩ := toFirst.stands.confirmMembershipOf members
  have typedNow : ∀ stmt ∈ stmts, second.Types stmt :=
    fun stmt listed decl form => by
    rw [same] at form ⊢
    exact typed stmt listed decl form
  obtain ⟨toThird, -⟩ :=
    toSecond.stands.mergeForwardDeclarations typedNow (same ▸ told) merges
  have leads := (toFirst.leads.trans toSecond).trans toThird
  exact leads.trans (performs.defineStatements scanned leads.stands
    (fun stmt listed => leads.laid scanned (expects stmt listed)) run)

/-- A task is carried out. -/
private theorem elaborateTask :
    Performs input origin (Elab.elaborateTask perform) := by
  intro task state after stands expects run
  cases task with
  | statements stmts scope =>
      exact performs.elaborateStatements scanned stands expects run
  | statement stmt scope =>
      exact performs.elaborateStatement scanned stands expects run
  | definition decl =>
      exact performs.elaborateDefinition scanned stands expects run

end Performs

/-- So do tasks nested to any depth. -/
private theorem performs_nested
    (scanned : input.Scanned)
    (depth : Nat) :
    Performs input origin (Elab.nested depth) := by
  induction depth with
  | zero => exact fun _ _ _ _ _ run => by cases run
  | succ depth inductionHypothesis =>
      exact inductionHypothesis.elaborateTask scanned

/-- A compilation unit is elaborated. -/
theorem Stands.elaborateUnit
    {unit : StmtId}
    (stands : state.Stands input origin)
    (scanned : input.Scanned)
    (laid : state.arena.Laid .empty input.tokens (.stmt unit))
    (run : Elab.elaborateUnit unit input state = .done () after) :
    Leads input origin state after := by
  obtain ⟨_, _, observed, run⟩ := Action.done_of_bind run
  cases observed
  dsimp only at run
  cases form : (state.arena.stmt unit).form with
  | list role stmts scope =>
      rw [form] at run
      cases role with
      | unit =>
          obtain ⟨_, middle, first, run⟩ := Action.done_of_bind run
          obtain rfl := Elab.refuseResidual_done run
          obtain ⟨_, _, consulted, first⟩ := Action.done_of_bind first
          cases consulted
          obtain ⟨_, _, observed, first⟩ := Action.done_of_bind first
          cases observed
          have expects : state.Expects input (.statements stmts scope) :=
            fun stmt listed =>
            laid.child
              (by simp [Arena.children, form, StmtForm.children, listed])
          exact performs_nested scanned _ stands expects first
      | _ => cases run
  | _ =>
      rw [form] at run
      cases run

end ElabState

end Tern
