import Tern.Proofs.Elaboration.Arranging

namespace Tern

/-!
# The first pass keeps worksites arranged

Types are completed in scopes where nothing is bound by them but minted names. A
template that is put around a function takes its place in its overload set. Once
the types of a statement are completed, what it holds is typed.
-/

/-- What a declaration owns in its form lies in its place. -/
theorem Arena.Laid.of_form
    {origin arena : Arena}
    {tokens : Tokens}
    {decl : DeclId}
    {form : DeclForm}
    (laid : arena.Laid origin tokens (.decl decl))
    (found : (arena.decl decl).form = form)
    {term : Term}
    (owned : term ∈ form.children) :
    arena.Laid origin tokens term :=
  laid.child (by simp [Arena.children, found, owned])

namespace ElabState

/--
A function is declared with some parameters, and lies in its place in the text.
-/
structure Calls
    (input : ElabInput)
    (state : ElabState)
    (decl : DeclId)
    (params : List DeclId) :
    Prop where
  declares : state.arena.Declares decl
  laid : state.arena.Laid .empty input.tokens (.decl decl)
  form : ∃ role result definition,
    (state.arena.decl decl).form = .callable role params result definition

/--
Elaboration comes by a declaration in a template, or else in the statement that
holds it.
-/
def Comes (state : ElabState) (stmt? : Option StmtId) (wrapper? : Option DeclId)
    (decl : DeclId) : Prop :=
  match wrapper? with
  | some wrapper => stmt? = none ∧ state.arena.Declares wrapper ∧
      ∃ parms constraint?,
      (state.arena.decl wrapper).form = .template parms constraint? decl
  | none => ∃ stmt, stmt? = some stmt ∧ (state.arena.stmt stmt).form =
      .declaration decl

/-- All statements but one keep what they are. -/
def Spares (stmt? : Option StmtId) (state after : ElabState) : Prop :=
  ∀ ⦃stmt : StmtId⦄, state.arena.Holds (.stmt stmt) → stmt ∉ stmt? →
    after.arena.stmt stmt = state.arena.stmt stmt

/-- What a statement holds is typed. -/
def Types (state : ElabState) (stmt : StmtId) : Prop :=
  ∀ decl, (state.arena.stmt stmt).form = .declaration decl →
    (state.arena.decl decl).phase ≠ .unelaborated

variable {input : ElabInput} {origin : Arena} {state middle after : ElabState}
  {decl : DeclId}
  {params : List DeclId} {scope : ScopeId} {stmt? : Option StmtId}
    {wrapper? : Option DeclId}

namespace Spares

private theorem of_stmts (same : after.arena.stmts = state.arena.stmts) :
    Spares stmt? state after :=
  fun stmt _ _ => by simp only [Arena.stmt, same]

theorem trans
    (first : Spares stmt? state middle)
    (second : Spares stmt? middle after)
    (framed : Arena.Framed input origin state.arena middle.arena) :
    Spares stmt? state after :=
  fun _ held apart => (second (framed.held held) apart).trans (first held apart)

end Spares

namespace Tends

variable (tends : Tends input origin state after)

include tends

/-- What lies in its place goes on doing so. -/
theorem laid
    (scanned : input.Scanned)
    {term : Term}
    (laid : state.arena.Laid .empty input.tokens term) :
    after.arena.Laid .empty input.tokens term :=
  (tends.settles scanned.aligned term laid).1

/-- A function goes on to be declared with its parameters. -/
theorem calls
    (scanned : input.Scanned)
    (calls : state.Calls input decl params) :
    after.Calls input decl params where
  declares := tends.framed.declares calls.declares
  laid := tends.laid scanned calls.laid
  form := by
    obtain ⟨role, result, definition, form⟩ := calls.form
    exact ⟨role, result, definition,
      (tends.framed.form_eq calls.laid.here.held (by rw [form]; rfl)).trans
        form⟩

/-- What is typed stays so. -/
private theorem phase_ne
    (typed : (state.arena.decl decl).phase ≠ .unelaborated) :
    (after.arena.decl decl).phase ≠ .unelaborated := by
  have rank := (tends.framed.decl (Arena.holds_of_phase_ne typed)).phase
  intro early
  rw [early] at rank
  cases phase : (state.arena.decl decl).phase <;> simp_all [Phase.rank]

/--
Elaboration comes by a declaration as it did as long as its statement is spared.
-/
private theorem comes
    (comes : state.Comes stmt? wrapper? decl)
    (spares : Spares none state after) :
    after.Comes stmt? wrapper? decl := by
  cases wrapper? with
  | none =>
      obtain ⟨stmt, given, form⟩ := comes
      exact ⟨stmt, given,
        (spares (Arena.holds_of_declaration form) nofun).symm ▸ form⟩
  | some wrapper =>
      obtain ⟨none, declares, parms, constraint?, form⟩ := comes
      obtain ⟨more, now⟩ :=
        (tends.framed.decl (Arena.holds_of_form form nofun)).resembles.template
          form
      exact ⟨none, tends.framed.declares declares, more, constraint?, now⟩

end Tends

/-- What elaboration comes by is declared. -/
private theorem Comes.declares (comes : state.Comes stmt? wrapper? decl) :
    state.arena.Declares decl := by
  cases wrapper? with
  | none =>
      obtain ⟨_, -, form⟩ := comes
      exact Arena.declares_of_stmt form
  | some wrapper =>
      obtain ⟨-, declares, _, _, form⟩ := comes
      exact declares.inner form

/-- Once what elaboration comes by is typed, what the statement holds is. -/
private theorem Comes.types
    (comes : state.Comes stmt? wrapper? decl)
    (typed : (state.arena.decl decl).phase ≠ .unelaborated) :
    ∀ stmt ∈ stmt?, state.Types stmt := by
  intro stmt given held form
  cases wrapper? with
  | none =>
      obtain ⟨_, rfl, here⟩ := comes
      cases given
      cases here.symm.trans form
      exact typed
  | some wrapper =>
      obtain ⟨rfl, -⟩ := comes
      cases given

/-- Worksites come by declarations as states do. -/
private theorem Comes.enters
    {stock : Stock}
    (comes : state.Comes stmt? wrapper? decl)
    (sound : (state.site stock).Sound) :
    (state.site stock).Enters stmt? wrapper? decl := by
  cases wrapper? with
  | none =>
      obtain ⟨stmt, given, form⟩ := comes
      exact ⟨stmt, given, ⟨Arena.holds_of_declaration form, nofun⟩, form⟩
  | some wrapper =>
      obtain ⟨-, declares, parms, constraint?, form⟩ := comes
      exact ⟨sound.whole_of_declares declares, parms, constraint?, form⟩

/-- The parameters of a declared function are whole. -/
theorem Calls.whole_param
    {stock : Stock}
    {param : DeclId}
    (calls : state.Calls input decl params)
    (listed : param ∈ params)
    (sound : (state.site stock).Sound) :
    (state.site stock).Whole (.decl param) := by
  obtain ⟨role, result, definition, form⟩ := calls.form
  exact sound.whole_of_form (sound.whole_of_declares calls.declares) form
    (by simp [DeclForm.children, listed])

namespace Stands

/-- A scope that is saved is stored. -/
theorem room_of_saved
    (stands : state.Stands input origin)
    (saved : state.scopes.saved.lookup decl = some scope) :
    scope.raw < state.scopes.table.size := by
  obtain ⟨_, since⟩ := stands.sited
  obtain ⟨_, _, split, -⟩ := List.lookup_eq_some_iff.mp saved
  have listed : (decl, scope) ∈ state.scopes.saved := by simp [split]
  exact (since.sound.saved (decl, scope) listed).2

/-- The type of a parameter is completed, and minted if it is to be inferred. -/
private theorem elaborateParam
    {firstIndex : Nat}
    {minted all : List DeclId}
    {param : DeclId}
    (stands : state.Stands input origin)
    (scanned : input.Scanned)
    (calls : state.Calls input decl params)
    (listed : param ∈ params)
    (saved : state.scopes.saved.lookup decl = some scope)
    (run : Elab.elaborateParam scope firstIndex minted param input state =
      .done all after) :
    Tends input origin state after ∧ Spares none state after := by
  obtain ⟨_, _, observed, run⟩ := Action.done_of_bind run
  cases observed
  cases known : state.arena.paramType? param with
  | none =>
      rw [known] at run
      cases run
      exact ⟨.refl stands, .of_stmts rfl⟩
  | some type =>
      rw [known] at run
      have form := Arena.form_of_paramType? known
      obtain ⟨role, result, definition, callable⟩ := calls.form
      have laidParam : state.arena.Laid .empty input.tokens (.decl param) :=
        calls.laid.of_form callable (by simp [DeclForm.children, listed])
      have laid : state.arena.Laid .empty input.tokens (.type type) :=
        laidParam.of_form form (by simp [DeclForm.children])
      obtain ⟨_, middle, completes, run⟩ := Action.done_of_bind run
      obtain ⟨tends, sparing⟩ :=
        stands.completeType scanned (stands.room_of_saved saved) laid completes
      have spares : Spares none state middle := fun _ held _ => sparing held
      have callsNow := tends.calls scanned calls
      obtain ⟨_, _, observed, run⟩ := Action.done_of_bind run
      cases observed
      cases inferred : middle.arena.inferred? type with
      | none =>
          rw [inferred] at run
          obtain ⟨_, last, raised, run⟩ := Action.done_of_bind run
          cases run
          obtain ⟨further, same, -⟩ := tends.stands.raise
            (fun _ sound => callsNow.whole_param listed sound) raised
          exact ⟨tends.trans further,
            spares.trans (.of_stmts same) tends.framed⟩
      | some slot =>
          rw [inferred] at run
          obtain ⟨below, auto⟩ := Arena.below_of_inferredWithin? inferred
          obtain ⟨roleNow, resultNow, definitionNow, callableNow⟩ :=
            callsNow.form
          have formNow : (middle.arena.decl param).form = .parameter type :=
            (tends.framed.form_eq laidParam.here.held (by rw [form]; rfl)).trans
              form
          have reached : middle.arena.BelowParam slot :=
            ⟨decl, roleNow, params, resultNow, definitionNow, param, type,
              callableNow, listed,
              tends.framed.held laidParam.here.held, formNow, below⟩
          obtain ⟨parm, minting, mints, run⟩ := Action.done_of_bind run
          obtain ⟨toMinting, same⟩ := tends.stands.mintTypeParam (fun _ sound =>
            sound.whole_of_below ⟨(tends.laid scanned laid).here.held, by simp⟩
              below) auto reached
              (tends.stands.room_of_saved (tends.saved saved)) mints
          obtain ⟨_, last, raised, run⟩ := Action.done_of_bind run
          cases run
          obtain ⟨further, sameNow, -⟩ := toMinting.stands.raise
            (fun _ sound => (toMinting.calls scanned callsNow).whole_param
              listed sound) raised
          refine ⟨tends.trans (toMinting.trans further),
            spares.trans ?_ tends.framed⟩
          exact .of_stmts (sameNow.trans same)

/-- The types of parameters are completed in order. -/
private theorem elaborateParams
    {firstIndex : Nat}
    {minted all some : List DeclId}
    (stands : state.Stands input origin)
    (scanned : input.Scanned)
    (calls : state.Calls input decl params)
    (among : ∀ param ∈ some, param ∈ params)
    (saved : state.scopes.saved.lookup decl = .some scope)
    (run : some.foldlM (Elab.elaborateParam scope firstIndex) minted input
      state = .done all after) :
    Tends input origin state after ∧ Spares none state after := by
  induction some generalizing state minted with
  | nil =>
      cases run
      exact ⟨.refl stands, .of_stmts rfl⟩
  | cons param rest inductionHypothesis =>
      obtain ⟨listed, others⟩ := List.forall_mem_cons.mp among
      rw [List.foldlM_cons] at run
      obtain ⟨more, middle, first, run⟩ := Action.done_of_bind run
      obtain ⟨tends, spares⟩ :=
        stands.elaborateParam scanned calls listed saved first
      obtain ⟨further, sparing⟩ :=
        inductionHypothesis tends.stands (tends.calls scanned calls)
        others (tends.saved saved) run
      exact ⟨tends.trans further, spares.trans sparing tends.framed⟩

/-- Registering an open method changes nothing else. -/
private theorem registerOpenMethod
    (stands : state.Stands input origin)
    (run : Elab.registerOpenMethod decl params input state = .done () after) :
    Tends input origin state after ∧ after.arena = state.arena := by
  obtain ⟨_, _, asked, run⟩ := Action.done_of_bind run
  cases asked
  obtain ⟨_, _, observed, run⟩ := Action.done_of_bind run
  cases observed
  by_cases reported :
    (input.options.openMethods && params.any state.arena.isVirtualParam) = true
  · rw [if_pos reported] at run
    cases found : (state.arena.name (state.arena.decl decl).name).form <;>
      rw [found] at run <;>
      cases run <;> exact ⟨stands.of_same rfl rfl rfl rfl, rfl⟩
  · rw [if_neg reported] at run
    cases run
    exact ⟨.refl stands, rfl⟩

/--
The type parameters that were minted for a function go to a template. The way to
there and the step to the template are one step in the frame of elaboration.
-/
private theorem addTemplateParams
    {action : Elab Unit}
    {known : Stock → Worksite → Unit → Prop}
    {minted : List DeclId}
    (stands : state.Stands input origin)
    (works : ∀ stock, (state.site stock).Sound →
      Works input origin (state.site stock) action (known stock))
    (whole : action input state = .done () after)
    (tends : Tends input origin state middle)
    (comes : middle.Comes stmt? wrapper? decl)
    (counts : ¬ middle.Retired decl)
    (typed : (middle.arena.decl decl).phase ≠ .unelaborated)
    (run : Elab.addTemplateParams stmt? decl wrapper? minted input middle =
      .done () after) :
    Tends input origin state after ∧ Spares stmt? middle after ∧ ∀ stmt ∈ stmt?,
      after.Types stmt := by
  unfold Elab.addTemplateParams at run
  cases none : minted.isEmpty with
  | true =>
      rw [none] at run
      cases run
      exact ⟨tends, .of_stmts rfl, comes.types typed⟩
  | false =>
      rw [none, if_neg (by simp)] at run
      cases wrapper? with
      | some wrapper =>
          obtain ⟨rfl, -, parms, constraint?, form⟩ := comes
          obtain ⟨arranged, scopes, stmts, findings⟩ :=
            tends.stands.extendTemplate form run
          refine ⟨stands.onward works whole tends arranged (fun _ now => ?_)
            (congrArg Findings.merges findings)
              (congrArg Findings.memberships findings),
            .of_stmts stmts, fun stmt given => ?_⟩
          · rwa [scopes] at now
          · cases given
      | none =>
          obtain ⟨stmt, rfl, form⟩ := comes
          obtain ⟨arranged, members, others, findings, wrapper, now,
              template⟩ :=
            tends.stands.wrapInTemplate form counts run
          refine ⟨stands.onward works whole tends arranged
            (fun retired => members (tends.stands.held_of_retired retired))
            (congrArg Findings.merges findings)
              (congrArg Findings.memberships findings),
            fun other _ apart => others fun same =>
              apart (same ▸ rfl), fun other given => ?_⟩
          cases given
          intro held form
          cases now.symm.trans form
          rw [template]
          nofun

/--
The types of a function are completed, and what was minted goes to a template.
-/
private theorem elaborateSignature
    {result : TypeId}
    (stands : state.Stands input origin)
    (scanned : input.Scanned)
    (comes : state.Comes stmt? wrapper? decl)
    (calls : state.Calls input decl params)
    (early : (state.arena.decl decl).phase = .unelaborated)
    (typed : ∃ role definition,
      (state.arena.decl decl).form = .callable role params result definition)
    (run : Elab.elaborateSignature stmt? decl params result wrapper? input
      state = .done () after) :
    Tends input origin state after ∧ Spares stmt? state after ∧ ∀ stmt ∈ stmt?,
      after.Types stmt := by
  obtain ⟨role, definition, form⟩ := typed
  have works (stock : Stock) (sound : (state.site stock).Sound) :=
    @Works.elaborateSignature input origin (state.site stock) stmt? wrapper?
      decl role params result
      definition (sound.whole_of_declares calls.declares)
        (comes.enters sound) form
  have counts : ¬ state.Retired decl :=
    fun retired => (stands.arranged.gone retired).2 early
  have whole := run
  obtain ⟨_, _, observed, run⟩ := Action.done_of_bind run
  cases observed
  obtain ⟨scope, first, opens, run⟩ := Action.done_of_bind run
  obtain ⟨minted, second, completes, run⟩ := Action.done_of_bind run
  obtain ⟨_, third, results, run⟩ := Action.done_of_bind run
  obtain ⟨_, fourth, raised, run⟩ := Action.done_of_bind run
  obtain ⟨_, last, registers, run⟩ := Action.done_of_bind run
  have room : (state.arena.decl decl).scope.raw < state.scopes.table.size := by
    obtain ⟨_, since⟩ := stands.sited
    exact since.sound.room_of_held calls.laid.here.held
  obtain ⟨toFirst, sameFirst, saved, -⟩ :=
    stands.scopeFor calls.laid.here.held room opens
  have sparesFirst : Spares none state first := .of_stmts (by rw [sameFirst])
  obtain ⟨toSecond, sparesSecond⟩ := toFirst.stands.elaborateParams scanned
    (toFirst.calls scanned calls) (fun _ => id) saved completes
  have untilSecond := toFirst.trans toSecond
  have callsSecond := untilSecond.calls scanned calls
  have formSecond : (second.arena.decl decl).form =
      .callable role params result definition :=
    (untilSecond.framed.form_eq calls.laid.here.held (by rw [form]; rfl)).trans
      form
  obtain ⟨toThird, sparing⟩ := toSecond.stands.completeType scanned
    (toSecond.stands.room_of_saved (toSecond.saved saved))
    (callsSecond.laid.of_form formSecond (by simp [DeclForm.children])) results
  have sparesThird : Spares none second third := fun _ held _ => sparing held
  have callsThird := toThird.calls scanned callsSecond
  obtain ⟨toFourth, sameFourth, phase⟩ := toThird.stands.raise
    (fun _ sound => sound.whole_of_declares callsThird.declares) raised
  obtain ⟨toLast, sameLast⟩ := toFourth.stands.registerOpenMethod registers
  have tends := (untilSecond.trans toThird).trans (toFourth.trans toLast)
  have spares : Spares none state last :=
    (sparesFirst.trans sparesSecond toFirst.framed).trans
      (sparesThird.trans (.of_stmts (sameLast ▸ sameFourth)) toThird.framed)
        untilSecond.framed
  obtain ⟨final, sparesLast, types⟩ :=
    stands.addTemplateParams works whole tends
    (tends.comes comes spares)
      (fun retired => counts (tends.retired_iff.mp retired))
    (by rw [sameLast, phase]; exact Phase.latest_typed_ne _) run
  refine ⟨final, fun stmt held apart => ?_, types⟩
  exact (sparesLast (tends.framed.held held) apart).trans
    (spares held (by simp))

/-- The type of a base is completed, which has to denote a class. -/
private theorem elaborateBase
    {type : TypeId}
    (stands : state.Stands input origin)
    (scanned : input.Scanned)
    (room : scope.raw < state.scopes.table.size)
    (laid : state.arena.Laid .empty input.tokens (.type type))
    (run : Elab.elaborateBase decl type scope input state = .done () after) :
    Tends input origin state after ∧ Spares none state after := by
  obtain ⟨_, middle, completes, run⟩ := Action.done_of_bind run
  obtain ⟨tends, sparing⟩ := stands.completeType scanned room laid completes
  have spares : Spares none state middle := fun _ held _ => sparing held
  obtain ⟨_, _, observed, run⟩ := Action.done_of_bind run
  cases observed
  split at run
  · cases run
    exact ⟨tends, spares⟩
  · cases run
    exact ⟨tends.trans (tends.stands.of_same rfl rfl rfl rfl), spares⟩

/-- Once all else is done, a declaration is typed. -/
private theorem raiseTyped
    (comes : state.Comes stmt? wrapper? decl)
    (reached : Tends input origin state middle ∧ Spares none state middle)
    (run : Elab.raise decl .typeElaborated input middle = .done () after) :
    Tends input origin state after ∧ Spares none state after ∧
      (after.arena.decl decl).phase ≠ .unelaborated := by
  obtain ⟨tends, spares⟩ := reached
  obtain ⟨further, same, phase⟩ := tends.stands.raise
    (fun _ sound =>
      sound.whole_of_declares (tends.framed.declares comes.declares)) run
  exact ⟨tends.trans further, spares.trans (.of_stmts same) tends.framed,
    by rw [phase]; exact Phase.latest_typed_ne _⟩

/--
The types of a declaration are completed, and so are those that a template is
around.
-/
private theorem elaborateTypeWithin
    {depth : Nat}
    (stands : state.Stands input origin)
    (scanned : input.Scanned)
    (comes : state.Comes stmt? wrapper? decl)
    (laid : state.arena.Laid .empty input.tokens (.decl decl))
    (run : Elab.elaborateTypeWithin depth stmt? wrapper? decl input state =
      .done () after) :
    Tends input origin state after ∧ Spares stmt? state after ∧ ∀ stmt ∈ stmt?,
      after.Types stmt := by
  induction depth generalizing state stmt? wrapper? decl with
  | zero => cases run
  | succ depth inductionHypothesis =>
      obtain ⟨_, _, observed, run⟩ := Action.done_of_bind run
      cases observed
      by_cases early : (state.arena.decl decl).phase = .unelaborated
      · rw [if_pos early] at run
        have room : (state.arena.decl decl).scope.raw <
            state.scopes.table.size := by
          obtain ⟨_, since⟩ := stands.sited
          exact since.sound.room_of_held laid.here.held
        have finish
            (reached : Tends input origin state after ∧
              Spares none state after ∧
              (after.arena.decl decl).phase ≠ .unelaborated) :
            Tends input origin state after ∧ Spares stmt? state after ∧
              ∀ stmt ∈ stmt?, after.Types stmt :=
          ⟨reached.1, fun _ held _ => reached.2.1 held nofun,
            (reached.1.comes comes reached.2.1).types reached.2.2⟩
        have completed {middle : ElabState} {type : TypeId}
            (owned : Term.type type ∈ (state.arena.decl decl).form.children)
            (run : Elab.completeType type (state.arena.decl decl).scope input
              state =
              .done () middle) :
            Tends input origin state middle ∧ Spares none state middle := by
          obtain ⟨tends, sparing⟩ :=
            stands.completeType scanned room (laid.of_form rfl owned) run
          exact ⟨tends, fun _ held _ => sparing held⟩
        cases form : (state.arena.decl decl).form with
        | object role type definition =>
            have owned : Term.type type ∈
                (state.arena.decl decl).form.children := by
              simp [form, DeclForm.children]
            rw [form] at run
            cases role with
            | base =>
                obtain ⟨_, middle, first, run⟩ := Action.done_of_bind run
                exact finish (raiseTyped comes
                  (stands.elaborateBase scanned room (laid.of_form rfl owned)
                    first) run)
            | _ =>
                obtain ⟨_, middle, first, run⟩ := Action.done_of_bind run
                exact finish (raiseTyped comes (completed owned first) run)
        | parameter type =>
            rw [form] at run
            obtain ⟨_, middle, first, run⟩ := Action.done_of_bind run
            exact finish (raiseTyped comes
              (completed (by simp [form, DeclForm.children]) first) run)
        | callable role params result definition =>
            rw [form] at run
            exact stands.elaborateSignature scanned comes
              ⟨comes.declares, laid, role, result, definition, form⟩ early
                ⟨role, definition, form⟩ run
        | classType kind definition =>
            rw [form] at run
            obtain ⟨_, middle, first, run⟩ := Action.done_of_bind run
            exact finish (raiseTyped comes
              (completed (by simp [form, DeclForm.children]) first) run)
        | template parms constraint? inner =>
            rw [form] at run
            obtain ⟨_, first, raises, run⟩ := Action.done_of_bind run
            obtain ⟨_, second, raised, run⟩ := Action.done_of_bind run
            obtain ⟨toFirst, sameFirst⟩ :=
              stands.raiseAll (fun _ sound parm listed =>
              sound.whole_of_form (sound.whole_of_declares comes.declares) form
                (by simp [DeclForm.children, listed])) raises
            obtain ⟨toSecond, spares, typed⟩ :=
              raiseTyped comes ⟨toFirst, .of_stmts sameFirst⟩ raised
            obtain ⟨more, formNow⟩ :=
              (toSecond.framed.decl laid.here.held).resembles.template form
            have inside : second.arena.Laid .empty input.tokens (.decl inner) :=
              (toSecond.laid scanned laid).of_form formNow
                (by simp [DeclForm.children])
            have comesNow : second.Comes none (some decl) inner :=
              ⟨rfl, toSecond.framed.declares comes.declares, more, constraint?,
                formNow⟩
            obtain ⟨further, sparing, -⟩ :=
              inductionHypothesis toSecond.stands comesNow inside run
            exact finish ⟨toSecond.trans further,
              spares.trans sparing toSecond.framed,
              further.phase_ne typed⟩
        | concept parms definition =>
            rw [form] at run
            obtain ⟨_, first, raises, run⟩ := Action.done_of_bind run
            obtain ⟨toFirst, sameFirst⟩ :=
              stands.raiseAll (fun _ sound parm listed =>
              sound.whole_of_form (sound.whole_of_declares comes.declares) form
                (by simp [DeclForm.children, listed])) raises
            exact finish (raiseTyped comes ⟨toFirst, .of_stmts sameFirst⟩ run)
        | typeParameter index default? =>
            rw [form] at run
            exact finish (raiseTyped comes ⟨.refl stands, .of_stmts rfl⟩ run)
        | namespaceBlock body =>
            rw [form] at run
            obtain ⟨_, _, observed, run⟩ := Action.done_of_bind run
            cases run
      · rw [if_neg early] at run
        cases run
        exact ⟨.refl stands, .of_stmts rfl, comes.types early⟩

/-- The types of the declaration that a statement holds are completed. -/
private theorem elaborateTypes
    {stmt : StmtId}
    (stands : state.Stands input origin)
    (scanned : input.Scanned)
    (laid : state.arena.Laid .empty input.tokens (.stmt stmt))
    (run : Elab.elaborateTypes stmt input state = .done () after) :
    Tends input origin state after ∧ Spares (some stmt) state after ∧
      after.Types stmt := by
  obtain ⟨_, _, read, run⟩ := Action.done_of_bind run
  cases (Elab.declarationOf?_run stmt input state).symm.trans read
  cases form : (state.arena.stmt stmt).form with
  | declaration decl =>
      rw [form] at run
      obtain ⟨_, _, observed, run⟩ := Action.done_of_bind run
      cases observed
      obtain ⟨_, middle, types, run⟩ := Action.done_of_bind run
      have inside : state.arena.Laid .empty input.tokens (.decl decl) :=
        laid.child (by simp [Arena.children, form, StmtForm.children])
      have comes : state.Comes (some stmt) none decl := ⟨stmt, rfl, form⟩
      obtain ⟨tends, spares, typed⟩ :=
        stands.elaborateTypeWithin scanned comes inside types
      obtain ⟨further, same⟩ := tends.stands.raiseRequiresParams
        (fun _ sound =>
          sound.whole_of_declares (tends.framed.declares comes.declares)) run
      refine ⟨tends.trans further, spares.trans (.of_stmts same) tends.framed,
        fun held formNow => further.phase_ne (typed stmt rfl held ?_)⟩
      simpa only [Arena.stmt, same] using formNow
  | _ =>
      rw [form] at run
      cases run
      exact ⟨.refl stands, .of_stmts rfl, fun held formNow =>
        by cases form.symm.trans formNow⟩

/--
The first pass goes over statements, and what they hold is typed afterwards.
-/
theorem elaborateTypesOf
    {stmts : List StmtId}
    (stands : state.Stands input origin)
    (scanned : input.Scanned)
    (laid : ∀ stmt ∈ stmts, state.arena.Laid .empty input.tokens (.stmt stmt))
    (run : stmts.forM Elab.elaborateTypes input state = .done () after) :
    Tends input origin state after ∧ (∀ stmt ∈ stmts, after.Types stmt) ∧
      ∀ stmt, state.arena.Holds (.stmt stmt) → state.Types stmt →
        after.Types stmt := by
  induction stmts generalizing state with
  | nil =>
      cases run
      exact ⟨.refl stands, by simp, fun _ _ => id⟩
  | cons stmt rest inductionHypothesis =>
      obtain ⟨here, others⟩ := List.forall_mem_cons.mp laid
      rw [List.forM_eq_forM, List.forM_cons] at run
      obtain ⟨_, middle, first, run⟩ := Action.done_of_bind run
      obtain ⟨tends, spares, typed⟩ := stands.elaborateTypes scanned here first
      obtain ⟨further, all, kept⟩ := inductionHypothesis tends.stands
        (fun other listed => tends.laid scanned (others other listed)) run
      refine ⟨tends.trans further, List.forall_mem_cons.mpr
        ⟨kept stmt (tends.framed.held here.here.held) typed, all⟩,
          fun other held was => ?_⟩
      refine kept other (tends.framed.held held) ?_
      by_cases same : other = stmt
      · exact same ▸ typed
      · intro decl form
        rw [spares held fun given => same (Option.some.inj given).symm] at form
        exact tends.phase_ne (was decl form)

end Stands

end ElabState

end Tern
