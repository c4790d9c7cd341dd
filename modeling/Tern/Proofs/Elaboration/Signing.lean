import Tern.Proofs.Elaboration.Advancing
import Tern.Proofs.Elaboration.Extraction

namespace Tern

/-!
# Functions whose signatures are completed

What is minted for a function goes to the template around it, behind what that
has already. If there is none, a new template takes the place of the function in
its statement. From then on all stays as it is.
-/

/-- A template with some parameters is around a declaration as it is. -/
structure Arena.Envelops
    (arena : Arena)
    (template decl : DeclId)
    (parms : List DeclId) : Prop where
  form : (arena.decl template).form = .template parms none decl
  name : (arena.decl template).name = (arena.decl decl).name
  span : (arena.decl template).span = (arena.decl decl).span
  scope : (arena.decl template).scope = (arena.decl decl).scope

/--
Where a function got to for which something was minted. A template that is
around it already has more parameters in the end. The statement that holds it
holds a new template with what was minted, unless that is nothing.
-/
inductive Arena.Placed (older final : Arena) (decl : DeclId) :
    Option StmtId → Option DeclId → List DeclId → Prop where
  | extended {stmt? : Option StmtId} {wrapper : DeclId}
      {parms minted : List DeclId} {constraint? : Option ExprId}
      (was : (older.decl wrapper).form = .template parms constraint? decl)
      (now : (final.decl wrapper).form =
        .template (parms ++ minted) constraint? decl) :
      Placed older final decl stmt? (some wrapper) minted
  | kept {stmt : StmtId}
      (was : (older.stmt stmt).form = .declaration decl)
      (now : (final.stmt stmt).form = .declaration decl) :
      Placed older final decl (some stmt) none []
  | wrapped {stmt : StmtId} {template : DeclId} {minted : List DeclId}
      (some : minted ≠ [])
      (was : (older.stmt stmt).form = .declaration decl)
      (now : (final.stmt stmt).form = .declaration template)
      (new : ¬ older.Holds (.decl template))
      (envelops : final.Envelops template decl minted) :
      Placed older final decl (.some stmt) none minted

/--
The types of the parameters of a function were read in order. In a later arena
what was minted for them stands where it is to, and the function is in its
place.
-/
structure Signing.Of
    (final : Arena)
    (params : List DeclId)
    (signing : Signing) : Prop where
  types : signing.readings.map Reading.type = params.filterMap final.paramType?
  extracts : Extracts signing.before final signing.readings signing.minted
  placed : signing.before.Placed final signing.decl signing.stmt?
    signing.wrapper? signing.minted

/--
A function is come by as what a statement holds, or in a template that the
statement holds.
-/
structure Signing.In
    (final : Arena)
    (stmt : StmtId)
    (outer : DeclId)
    (signing : Signing) : Prop where
  stmt : ∀ other ∈ signing.stmt?, other = stmt
  wrapper : ∀ wrapper ∈ signing.wrapper?, final.Houses outer wrapper

/--
Each function that some statements hold below its templates was signed.
-/
def Arena.AllSigned
    (final : Arena)
    (stmts : List StmtId)
    (signings : List Signing) : Prop :=
  ∀ stmt ∈ stmts, ∀ {outer decl},
    (final.stmt stmt).form = .declaration outer → final.Houses outer decl →
      ∀ {role params result definition},
        (final.decl decl).form = .callable role params result definition →
          ∃ signing ∈ signings, signing.decl = decl ∧
            signing.Of final params ∧ signing.In final stmt outer

/-- What is signed for two lists of statements is signed for both. -/
theorem Arena.AllSigned.append
    {final : Arena}
    {stmts more : List StmtId}
    {signings others : List Signing}
    (first : final.AllSigned stmts signings)
    (second : final.AllSigned more others) :
    final.AllSigned (stmts ++ more) (signings ++ others) := by
  intro stmt listed _ _ form houses _ _ _ _ callable
  rcases List.mem_append.mp listed with here | behind
  · obtain ⟨signing, among, signed⟩ := first stmt here form houses callable
    exact ⟨signing, List.mem_append_left _ among, signed⟩
  · obtain ⟨signing, among, signed⟩ := second stmt behind form houses callable
    exact ⟨signing, List.mem_append_right _ among, signed⟩

namespace Arena

variable {input : ElabInput} {origin older middle final : Arena}
  {decl : DeclId} {stmt? : Option StmtId} {wrapper? : Option DeclId}
  {minted : List DeclId}

/-- A template keeps its parameters while none of what it is around is typed. -/
private theorem Respects.template_eq
    {template inner : DeclId}
    {parms : List DeclId}
    {constraint? : Option ExprId}
    (respects : middle.Respects final)
    (form : (middle.decl template).form = .template parms constraint? inner)
    (typed : (middle.decl inner).phase ≠ .unelaborated) :
    (final.decl template).form = .template parms constraint? inner := by
  rcases respects.form (holds_of_form form nofun) with same |
      ⟨_, _, _, _, was, -, early, -⟩
  · exact same.trans form
  · cases form.symm.trans was
    exact absurd early typed

/-- Once a function is typed all stays in its place. -/
private theorem Placed.onward
    (placed : Placed older middle decl stmt? wrapper? minted)
    (framed : Arena.Framed input origin middle final)
    (respects : middle.Respects final)
    (typed : (middle.decl decl).phase ≠ .unelaborated)
    (stmts : ∀ stmt ∈ stmt?,
      (final.stmt stmt).form = (middle.stmt stmt).form) :
    Placed older final decl stmt? wrapper? minted := by
  cases placed with
  | extended was now => exact .extended was (respects.template_eq now typed)
  | kept was now => exact .kept was ((stmts _ rfl).trans now)
  | wrapped some was now new envelops =>
      have inner := framed.decl (holds_of_phase_ne typed)
      have outer := framed.decl (holds_of_form envelops.form nofun)
      refine .wrapped some was ((stmts _ rfl).trans now) new ⟨?_, ?_, ?_, ?_⟩
      · exact respects.template_eq envelops.form typed
      · rw [outer.name, inner.name, envelops.name]
      · rw [outer.span, inner.span, envelops.span]
      · rw [outer.scope, inner.scope, envelops.scope]

end Arena

namespace Elab

variable {input : ElabInput} {state after : ElabState} {start : Worksite}
  {decl : DeclId} {stmt? : Option StmtId} {wrapper? : Option DeclId}
  {minted : List DeclId}

/-- A new template is around a function and in its place in a statement. -/
private theorem wrapInTemplate_envelops
    {stmt : StmtId}
    (form : (state.arena.stmt stmt).form = .declaration decl)
    (held : state.arena.Holds (.decl decl))
    (run : wrapInTemplate (some stmt) decl minted input state =
      .done () after) :
    ∃ template, (after.arena.stmt stmt).form = .declaration template ∧
      ¬ state.arena.Holds (.decl template) ∧
      after.arena.Envelops template decl minted := by
  let old := state.arena.decl decl
  let wrapper : Decl :=
    { name := old.name, specifiers := .none,
      form := .template minted none decl, span := old.span
      scope := old.scope, phase := .typeElaborated }
  let wrapping := state.arena.addDecl wrapper
  let arena := wrapping.2.setStmtForm stmt (.declaration wrapping.1)
  cases (wrapInTemplate_run input state stmt decl minted).symm.trans run
  have extended := state.arena.extends_addDecl wrapper
  have template : arena.decl wrapping.1 = wrapper :=
    state.arena.decl_addDecl wrapper
  have inner : arena.decl decl = old := extended.decl_eq held
  refine ⟨wrapping.1, ?_, state.arena.not_holds_addDecl wrapper, ?_⟩
  · have stored := extended.holds (Arena.holds_of_declaration form)
    exact congrArg Node.form (Arena.node_setStmtForm stored _)
  · exact ⟨congrArg Decl.form template, by rw [template, inner],
      by rw [template, inner], by rw [template, inner]⟩

/-- A template gets parameters behind those that it has. -/
private theorem extendTemplate_form
    {wrapper : DeclId}
    {parms : List DeclId}
    {constraint? : Option ExprId}
    (form : (state.arena.decl wrapper).form = .template parms constraint? decl)
    (run : extendTemplate wrapper minted input state = .done () after) :
    (after.arena.decl wrapper).form =
      .template (parms ++ minted) constraint? decl := by
  obtain ⟨change, same, changed⟩ := exists_extendTemplate_eq form minted
  rw [same] at run
  cases run
  have now : (state.arena.updateDecl wrapper change).decl wrapper = _ :=
    Arena.decl_updateDecl (Arena.holds_of_form form nofun) change
  exact congrArg Decl.form (now.trans changed)

/--
What was minted for a function goes to the place where the function is come by.
-/
private theorem addTemplateParams_placed
    (enters : start.Enters stmt? wrapper? decl)
    (held : state.arena.Holds (.decl decl))
    (same : start.arena.SameForms state.arena)
    (stmts : ∀ {stmt : StmtId}, start.arena.Holds (.stmt stmt) →
      state.arena.stmt stmt = start.arena.stmt stmt)
    (run : addTemplateParams stmt? decl wrapper? minted input state =
      .done () after) :
    Arena.Placed start.arena after.arena decl stmt? wrapper? minted := by
  unfold addTemplateParams at run
  cases wrapper? with
  | some wrapper =>
      obtain ⟨whole, parms, constraint?, form⟩ := enters
      have formNow := (same.form whole.1).trans form
      split at run
      next none =>
        cases run
        obtain rfl := List.isEmpty_iff.mp none
        exact .extended form (by rw [formNow, List.append_nil])
      next => exact .extended form (extendTemplate_form formNow run)
  | none =>
      obtain ⟨stmt, rfl, whole, form⟩ := enters
      have formNow : (state.arena.stmt stmt).form = .declaration decl :=
        (congrArg Node.form (stmts whole.1)).trans form
      split at run
      next none =>
        cases run
        obtain rfl := List.isEmpty_iff.mp none
        exact .kept form formNow
      next some =>
        obtain ⟨template, now, new, envelops⟩ :=
          wrapInTemplate_envelops formNow held run
        exact .wrapped (fun none => some (List.isEmpty_iff.mpr none)) form now
          (fun was => new (same.held was)) envelops

/-- A declaration is typed from then on. -/
private theorem raise_typed
    (held : state.arena.Holds (.decl decl))
    (run : raise decl .typeElaborated input state = .done () after) :
    (after.arena.decl decl).phase ≠ .unelaborated := by
  cases run
  have now : (state.arena.updateDecl decl fun old =>
      old.raiseTo .typeElaborated).decl decl = _ :=
    Arena.decl_updateDecl held _
  dsimp only
  rw [now]
  exact Phase.latest_typed_ne _

/--
Once the types of the parameters of a function are completed, the function is
typed, and what was minted for it gets to its place.
-/
private theorem finishSignature_placed
    {origin : Arena}
    {site : Worksite}
    {role : CallableRole}
    {params : List DeclId}
    {result : TypeId}
    {definition : DefId}
    {scope : ScopeId}
    {signing : Signing}
    {signings : List Signing}
    (shows : state.Shows site)
    (since : start.Since origin)
    (onward : start.Onward input origin site)
    (whole : start.Whole (.decl decl))
    (enters : start.Enters stmt? wrapper? decl)
    (callable : (start.arena.decl decl).form =
      .callable role params result definition)
    (room : scope.raw < site.table.size)
    (has : site.HasMinted origin start.arena decl minted)
    (forms : start.arena.SameForms state.arena)
    (run : (do
        completeType result scope
        raise decl .typeElaborated
        registerOpenMethod decl params
        addTemplateParams stmt? decl wrapper? minted
        return [signing]) input state =
      .done signings after) :
    signings = [signing] ∧
      Arena.Framed input origin state.arena after.arena ∧
      (after.arena.decl decl).phase ≠ .unelaborated ∧
      start.arena.Placed after.arena decl stmt? wrapper? minted := by
  have sinceSite := onward.since since
  obtain ⟨_, first, completed, run⟩ := Action.done_of_bind run
  obtain ⟨firstSite, showsFirst, toFirst, spares, calm⟩ :=
    (Works.completeType room (onward.keeps.whole (since.sound.whole_of_form
      whole callable (by simp [DeclForm.children])))).reach shows sinceSite
      completed
  have wholeFirst := (onward.trans toFirst).keeps.whole whole
  obtain ⟨_, second, raised, run⟩ := Action.done_of_bind run
  obtain ⟨secondSite, showsSecond, toSecond, sparing, -⟩ :=
    (Works.raise .typeElaborated wholeFirst).reach showsFirst
      (toFirst.since sinceSite) raised
  obtain ⟨_, third, registered, run⟩ := Action.done_of_bind run
  obtain ⟨_, _, done, sameArena, sameScopes⟩ :=
    Works.registerOpenMethod decl params input second
  cases done.symm.trans registered
  have showsThird : third.Shows secondSite :=
    ⟨sameArena.trans showsSecond.arena, sameScopes ▸ showsSecond.table,
      sameScopes ▸ showsSecond.saved, sameScopes ▸ showsSecond.wellFormed⟩
  obtain ⟨_, last, placed, run⟩ := Action.done_of_bind run
  cases run
  have toHere := onward.trans (toFirst.trans toSecond)
  have hasHere := (has.onward toFirst spares).onward toSecond sparing
  have callableHere := (toHere.framed.form_eq whole.1
    (by rw [callable]; rfl)).trans callable
  obtain ⟨lastSite, showsLast, toLast, -⟩ :=
    (Works.addTemplateParams (enters.onward toHere hasHere.stmts) callableHere
      hasHere.loose hasHere.new hasHere.stands).reach showsThird
      (toHere.since since) placed
  have formsHere : start.arena.SameForms third.arena := by
    rw [sameArena]
    refine (forms.trans ?_).trans (raise_sameForms raised)
    rw [shows.arena, showsFirst.arena]
    exact calm.restrained.sameForms
  refine ⟨rfl, ?_, fun early => ?_, ?_⟩
  · rw [shows.arena, showsLast.arena]
    exact (toFirst.trans (toSecond.trans toLast)).framed
  · rw [showsLast.arena] at early
    have earlyNow := toLast.framed.phase_unelaborated early
    rw [← showsSecond.arena] at earlyNow
    exact raise_typed (showsFirst.arena ▸ wholeFirst.1) raised earlyNow
  · exact addTemplateParams_placed enters (formsHere.held whole.1) formsHere
      (fun held => by rw [showsThird.arena, hasHere.stmts held]) placed

/--
Completing the signature of a function reads the types of its parameters in
order. What is minted for it gets to its place, and stays there.
-/
private theorem recordSignature_signs
    {origin : Arena}
    {role : CallableRole}
    {params : List DeclId}
    {result : TypeId}
    {definition : DefId}
    {signings : List Signing}
    (shows : state.Shows start)
    (since : start.Since origin)
    (whole : start.Whole (.decl decl))
    (enters : start.Enters stmt? wrapper? decl)
    (callable : (start.arena.decl decl).form =
      .callable role params result definition)
    (run : recordSignature stmt? decl params result wrapper? input state =
      .done signings after) :
    ∃ signing, signings = [signing] ∧ signing.decl = decl ∧
      signing.stmt? = stmt? ∧ signing.wrapper? = wrapper? ∧
      ∀ {final}, Arena.Framed input origin after.arena final →
        after.arena.Respects final →
        (∀ stmt ∈ stmt?, (final.stmt stmt).form =
          (after.arena.stmt stmt).form) →
        signing.Of final params := by
  obtain ⟨_, _, observed, run⟩ := Action.done_of_bind run
  cases observed
  obtain ⟨scope, first, opened, run⟩ := Action.done_of_bind run
  rw [shows.arena] at opened
  obtain ⟨firstSite, showsFirst, toFirst, room, -, same, -⟩ :=
    (Works.scopeFor .function whole.1
      (since.sound.room_of_held whole.1)).reach shows since opened
  have sameArena : first.arena = state.arena := by
    rw [showsFirst.arena, same, shows.arena]
  have wholeFirst := toFirst.keeps.whole whole
  have callableFirst : (firstSite.arena.decl decl).form =
      .callable role params result definition := same ▸ callable
  have fits : ∀ param ∈ params, firstSite.IsParam decl param ∧
      firstSite.arena.Reaches .empty (.decl decl) (.decl param) :=
    fun param listed =>
      ⟨⟨toFirst.sound.whole_of_form wholeFirst callableFirst
          (by simp [DeclForm.children, listed]),
        role, params, result, definition, callableFirst, listed⟩,
        .child .self wholeFirst.1 (Arena.not_holds_empty _)
          (by simp [Arena.children, callableFirst, DeclForm.children, listed])⟩
  have none : firstSite.HasMinted origin start.arena decl [] := by
    rw [← same]
    exact ⟨id, fun _ => rfl, Multiset.zero_le _, List.forall_mem_nil _,
      List.forall_mem_nil _⟩
  obtain ⟨_, second, typed, run⟩ := Action.done_of_bind run
  obtain ⟨secondSite, showsSecond, toSecond, has, forms, readings, minted, all,
      types, extracts⟩ :=
    recordParams_extracts showsFirst (toFirst.since since) fits room none typed
  rw [List.nil_append, List.nil_append] at all
  subst all
  rw [sameArena, shows.arena] at forms
  obtain ⟨rfl, framed, signed, placed⟩ :=
    finishSignature_placed showsSecond since (toFirst.trans toSecond) whole
      enters callable (Nat.lt_of_lt_of_le room toSecond.keeps.size) has forms
      run
  refine ⟨_, rfl, rfl, rfl, rfl, fun {final} toFinal respects stmts => ?_⟩
  have framedSecond : Arena.Framed input origin second.arena final :=
    framed.trans toFinal
  refine ⟨types.trans ?_, ?_, ?_⟩
  · refine List.filterMap_congr fun param listed => ?_
    have held : firstSite.arena.Holds (.decl param) :=
      (fits param listed).1.whole.1
    rw [framedSecond.paramType?_eq
        (showsSecond.arena ▸ toSecond.framed.held held),
      showsSecond.arena, toSecond.framed.paramType?_eq held, showsFirst.arena]
  · exact sameArena ▸ extracts.onward framedSecond
  · rw [shows.arena]
    exact placed.onward toFinal respects signed stmts

/--
Completing the types of a declaration that is not typed completes the signature
of what is below its templates, if that is a function.
-/
theorem recordTypeWithin_signs
    {origin : Arena}
    {depth bound : Nat}
    {signings : List Signing}
    (shows : state.Shows start)
    (since : start.Since origin)
    (whole : start.Whole (.decl decl))
    (enters : start.Enters stmt? wrapper? decl)
    (ready : state.arena.Ready 0 bound (.decl decl))
    (fresh : ∀ inner, state.arena.Houses decl inner →
      (state.arena.decl inner).phase = .unelaborated)
    (run : recordTypeWithin depth stmt? wrapper? decl input state =
      .done signings after) :
    ∃ inner, state.arena.Houses decl inner ∧
      (state.arena.decl inner).form.isTemplate = false ∧
      ∀ {role params result definition}, (state.arena.decl inner).form =
        .callable role params result definition →
        ∃ signing ∈ signings, signing.decl = inner ∧
          (∀ stmt ∈ signing.stmt?, stmt ∈ stmt?) ∧
          (∀ wrapper ∈ signing.wrapper?,
            wrapper ∈ wrapper? ∨ state.arena.Houses decl wrapper) ∧
          ∀ {final}, Arena.Framed input origin after.arena final →
            after.arena.Respects final →
            (∀ stmt ∈ stmt?, (final.stmt stmt).form =
              (after.arena.stmt stmt).form) →
            signing.Of final params := by
  induction depth generalizing state start stmt? wrapper? decl bound with
  | zero => cases run
  | succ depth inductionHypothesis =>
      have early := fresh decl (.refl decl)
      obtain ⟨_, _, observed, run⟩ := Action.done_of_bind run
      cases observed
      rw [if_pos early] at run
      cases form : (state.arena.decl decl).form with
      | callable role params result definition =>
          rw [form] at run
          refine ⟨decl, .refl decl, by rw [form]; rfl, fun same => ?_⟩
          cases form.symm.trans same
          obtain ⟨signing, rfl, same, sameStmt, sameWrapper, signs⟩ :=
            recordSignature_signs shows since whole enters (shows.arena ▸ form)
              run
          exact ⟨signing, List.mem_singleton_self _, same,
            fun stmt => sameStmt ▸ id, fun wrapper => sameWrapper ▸ .inl, signs⟩
      | template parms constraint? inner =>
          rw [form] at run
          dsimp only at run
          rw [← bind_assoc] at run
          obtain ⟨_, middle, raised, run⟩ := Action.done_of_bind run
          obtain ⟨_, within, freshWithin, rephased⟩ :=
            raiseParms_done ready fresh form raised
          have inside {term : Term} (owned :
              term ∈ (DeclForm.template parms constraint? inner).children) :
              start.Whole term :=
            since.sound.whole_of_form whole (shows.arena ▸ form) owned
          obtain ⟨between, showing, onward, -⟩ :=
            (Works.raiseParms whole fun parm listed =>
              inside (by simp [DeclForm.children, listed])).reach shows since
              raised
          have formNow : (between.arena.decl decl).form =
              .template parms constraint? inner := by
            rw [← showing.arena, rephased.form, form]
          have entersNow : between.Enters none (some decl) inner :=
            ⟨onward.keeps.whole whole, parms, constraint?, formNow⟩
          obtain ⟨last, houses, plain, signs⟩ :=
            inductionHypothesis showing (onward.since since)
              (onward.keeps.whole (inside (by simp [DeclForm.children])))
              entersNow within freshWithin run
          rw [rephased.form] at plain
          refine ⟨last, .template form (rephased.houses houses), plain,
            fun callable => ?_⟩
          obtain ⟨signing, listed, same, noStmt, inWrapper, signed⟩ :=
            signs ((rephased.form _).trans callable)
          refine ⟨signing, listed, same,
            fun stmt given => (Option.not_mem_none _ (noStmt stmt given)).elim,
            fun wrapper given => .inr ?_,
            fun framed respects _ =>
              signed framed respects fun _ none => by cases none⟩
          rcases inWrapper wrapper given with ⟨⟨⟩⟩ | below
          · exact .refl decl
          · exact .template form (rephased.houses below)
      | _ =>
          refine ⟨decl, .refl decl, by rw [form]; rfl, fun same => ?_⟩
          cases form.symm.trans same

end Elab

end Tern
