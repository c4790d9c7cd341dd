import Tern.Proofs.Elaboration.Recording
import Tern.Proofs.Elaboration.Registering
import Tern.Proofs.Elaboration.Signatures
import Tern.Proofs.Term.Descent

namespace Tern

/-!
# Type parameters extracted from a signature

The types of the parameters of a function are completed one behind the other.
Where one is to be inferred below references and qualifiers, a type parameter of
its own takes its place, and what is around it stays. The type parameters go to
the template around the function, or else to a new one that the statement holds
in place of the function.
-/

namespace Arena

variable {arena : Arena}

/-- A type is to be inferred, below references and qualifiers only. -/
structure Infers (arena : Arena) (type slot : TypeId) : Prop where
  below : arena.Below type slot
  form : (arena.type slot).form = .builtin .auto

/-- The way down from a type through references and qualifiers. -/
private def inferenceSteps (arena : Arena) : Term → List Term
  | .type type => match (arena.type type).form with
    | .wrapped .reference inner => [.type inner]
    | .wrapped (.qualified _) inner => [.type inner]
    | _ => []
  | _ => []

/-- The way down to a type to be inferred ends there. -/
private theorem Infers.ends
    {type slot : TypeId}
    (infers : arena.Infers type slot) :
    Acc (fun follower term => follower ∈ arena.inferenceSteps term)
      (.type type) := by
  obtain ⟨below, auto⟩ := infers
  induction below with
  | refl type =>
      exact ⟨_, fun follower step => by simp [inferenceSteps, auto] at step⟩
  | reference form _ inductionHypothesis =>
      refine ⟨_, fun follower step => ?_⟩
      obtain rfl : follower = _ := by simpa [inferenceSteps, form] using step
      exact inductionHypothesis auto
  | qualified form _ inductionHypothesis =>
      refine ⟨_, fun follower step => ?_⟩
      obtain rfl : follower = _ := by simpa [inferenceSteps, form] using step
      exact inductionHypothesis auto

/-- The search for a type to be inferred goes down the way to it. -/
private theorem Infers.inferredWithin?_eq_some
    {depth : Nat}
    {type slot : TypeId}
    (infers : arena.Infers type slot)
    (within : Term.Within arena.inferenceSteps depth (.type type)) :
    arena.inferredWithin? depth type = some slot := by
  obtain ⟨below, auto⟩ := infers
  induction below generalizing depth with
  | refl type =>
      cases depth with
      | zero => exact within.elim
      | succ depth => rw [inferredWithin?, auto]
  | @reference _ inner _ form _ inductionHypothesis =>
      cases depth with
      | zero => exact within.elim
      | succ depth =>
          rw [inferredWithin?, form]
          exact inductionHypothesis
            (within (.type inner) (by simp [inferenceSteps, form])) auto
  | @qualified _ inner _ _ form _ inductionHypothesis =>
      cases depth with
      | zero => exact within.elim
      | succ depth =>
          rw [inferredWithin?, form]
          exact inductionHypothesis
            (within (.type inner) (by simp [inferenceSteps, form])) auto

/-- What is found is a type to be inferred, however deep it is. -/
theorem inferred?_eq_some_iff {type slot : TypeId} :
    arena.inferred? type = some slot ↔ arena.Infers type slot := by
  constructor
  · intro found
    obtain ⟨below, auto⟩ := below_of_inferredWithin? found
    exact ⟨below, auto⟩
  · intro infers
    refine infers.inferredWithin?_eq_some
      (Term.within_of_slots Term.type infers.ends fun other leads => ?_)
    cases other with
    | type type =>
        refine ⟨type, rfl, ?_⟩
        cases form : (arena.type type).form with
        | wrapped wrapper inner => exact holds_of_wrapped form
        | _ => simp [inferenceSteps, form] at leads
    | _ => exact absurd rfl leads

end Arena

/--
A type was read with what it had below references and qualifiers, all of which
is in a later arena as it was read.
-/
structure Reading.Of (final : Arena) (reading : Reading) : Prop where
  inferred : ∀ {slot}, reading.slot? = some slot ↔
    reading.arena.Infers reading.type slot
  around : ∀ {outer inner wrapper}, reading.arena.Below reading.type outer →
    (reading.arena.type outer).form = .wrapped wrapper inner →
      final.type outer = reading.arena.type outer

namespace Reading.Of

variable {input : ElabInput} {origin middle final : Arena} {reading : Reading}

/-- What is around a type to be inferred does not change from then on. -/
private theorem of_framed
    (framed : Arena.Framed input origin reading.arena final) :
    reading.Of final where
  inferred := Arena.inferred?_eq_some_iff
  around _ form := (framed.type (Arena.holds_of_wrapped form)).wrapped_eq form

private theorem onward
    (framed : Arena.Framed input origin middle final)
    (read : reading.Of middle) :
    reading.Of final where
  inferred := read.inferred
  around below form := by
    have same := read.around below form
    have formNow : (middle.type _).form = _ :=
      (congrArg Node.form same).trans form
    exact ((framed.type (Arena.holds_of_wrapped formNow)).wrapped_eq
      formNow).trans same

end Reading.Of

/--
From what was read in order something was minted that was not there before. In a
later arena a new type parameter of its own is in the place of each type to be
inferred.
-/
structure Extracts
    (before final : Arena)
    (readings : List Reading) (minted : List DeclId) : Prop where
  read : ∀ reading ∈ readings, reading.Of final
  stands : List.Forall₂ (fun slot parm => final.StandsFor parm slot)
    (readings.filterMap Reading.slot?) minted
  new : ∀ parm ∈ minted, ¬ before.Holds (.decl parm)
  held : ∀ parm ∈ minted, final.Holds (.decl parm)
  distinct : minted.Nodup

namespace Extracts

variable {input : ElabInput} {origin before between middle final : Arena}
  {readings others : List Reading} {minted further : List DeclId}

theorem nil (before final : Arena) : Extracts before final [] [] where
  read := List.forall_mem_nil _
  stands := .nil
  new := List.forall_mem_nil _
  held := List.forall_mem_nil _
  distinct := List.nodup_nil

/-- What was extracted stays in its place. -/
theorem onward
    (framed : Arena.Framed input origin middle final)
    (extracts : Extracts before middle readings minted) :
    Extracts before final readings minted where
  read reading listed := (extracts.read reading listed).onward framed
  stands := by
    have held := extracts.held
    have stands := extracts.stands
    generalize readings.filterMap Reading.slot? = slots at stands
    clear extracts
    induction stands with
    | nil => exact .nil
    | cons here _ inductionHypothesis =>
        rw [List.forall_mem_cons] at held
        exact .cons (framed.standsFor held.1 here)
          (inductionHypothesis held.2)
  new := extracts.new
  held parm listed := framed.held (extracts.held parm listed)
  distinct := extracts.distinct

/-- What is extracted behind what was extracted comes behind it. -/
theorem append
    (first : Extracts before between readings minted)
    (second : Extracts between final others further)
    (framedFirst : Arena.Framed input origin before between)
    (framed : Arena.Framed input origin between final) :
    Extracts before final (readings ++ others) (minted ++ further) := by
  have earlier := first.onward framed
  exact
    { read := List.forall_mem_append.mpr ⟨earlier.read, second.read⟩
      stands := by
        rw [List.filterMap_append]
        exact List.rel_append earlier.stands second.stands
      new := List.forall_mem_append.mpr ⟨first.new,
        fun parm listed was => second.new parm listed (framedFirst.held was)⟩
      held := List.forall_mem_append.mpr ⟨earlier.held, second.held⟩
      distinct := List.nodup_append.mpr ⟨first.distinct, second.distinct,
        fun parm old other added same => second.new other added
          (same ▸ first.held parm old)⟩ }

end Extracts

/-- Where no function is being typed, declarations keep their forms. -/
theorem Arena.Restrained.sameForms
    {older newer : Arena}
    (restrained : older.Restrained (fun _ => False) newer) :
    older.SameForms newer where
  held stored := restrained.held stored
  form stored := (restrained.form stored).resolve_right
    fun ⟨_, _, _, _, _, _, typed, _⟩ => typed

namespace Elab

variable {input : ElabInput} {origin base : Arena} {state after : ElabState}
  {start : Worksite} {decl : DeclId} {scope : ScopeId} {firstIndex : Nat}

/--
A type parameter that is minted is new, and declarations keep their forms.
-/
private theorem mintTypeParam_fresh
    {slot : TypeId}
    {index : Nat}
    {parm : DeclId}
    (run : mintTypeParam slot scope index input state = .done parm after) :
    ¬ state.arena.Holds (.decl parm) ∧ after.arena.Holds (.decl parm) ∧
      state.arena.SameForms after.arena := by
  let span := (state.arena.type slot).span
  let named := state.arena.addPlaceholder span
  let added : Decl :=
    { name := named.1, specifiers := .none, form := .typeParameter index none,
      span := span
      scope := scope, phase := .typeElaborated }
  let declared := named.2.addDecl added
  let typed := declared.2.addType (.declared declared.1 named.1) span
  have ran : mintTypeParam slot scope index input state = .done declared.1
      { state with
        arena := typed.2.moveType slot typed.1
        scopes :=
          (state.scopes.declare scope (declared.2.keyOf named.1) declared.1).2
            } := rfl
  have decls : (typed.2.moveType slot typed.1).decls = declared.2.decls := by
    unfold Arena.moveType
    split <;> rfl
  have extended : state.arena.Extends declared.2 :=
    (state.arena.extends_addPlaceholder span).trans
      (named.2.extends_addDecl added)
  cases ran.symm.trans run
  refine ⟨fun was => ?_, ?_, fun was => ?_, fun was => ?_⟩
  · exact named.2.not_holds_addDecl added
      ((state.arena.extends_addPlaceholder span).holds was)
  · simp only [Arena.Holds, decls]
    exact Arena.holds_addDecl added |>.mpr (.inr rfl)
  · simp only [Arena.Holds, decls]
    exact extended.holds was
  · simp only [Arena.decl, decls]
    exact congrArg Decl.form (extended.decl_eq was)

/-- A declaration that reaches a phase keeps its form. -/
theorem raise_sameForms
    {phase : Phase}
    (run : raise decl phase input state = .done () after) :
    state.arena.SameForms after.arena := by
  cases run
  have same : state.arena.SameForms
      (state.arena.updateDecl decl fun old => old.raiseTo phase) :=
    .updateDecl rfl
  exact same

/--
What is minted for a parameter that is complete is new, and gets to its place,
where it stays as the parameter is typed.
-/
private theorem mintFor_stands
    {param : DeclId}
    {type slot : TypeId}
    {index : Nat}
    {soFar all : List DeclId × List Reading}
    {readings : List Reading}
    (shows : state.Shows start)
    (since : start.Since origin)
    (isParam : start.IsParam decl param)
    (form : (start.arena.decl param).form = .parameter type)
    (infers : start.arena.Infers type slot)
    (room : scope.raw < start.table.size)
    (run : (do
        let parm ← mintTypeParam slot scope index
        raise param .typeElaborated
        return (soFar.1 ++ [parm], readings)) input state = .done all after) :
    state.arena.SameForms after.arena ∧
      Arena.Framed input origin state.arena after.arena ∧
      ∃ parm, all = (soFar.1 ++ [parm], readings) ∧
        ¬ state.arena.Holds (.decl parm) ∧ after.arena.Holds (.decl parm) ∧
        after.arena.StandsFor parm slot := by
  obtain ⟨below, auto⟩ := infers
  have whole : start.Whole (.type type) :=
    since.sound.whole_of_form isParam.whole form (by simp [DeclForm.children])
  have reached : start.arena.BelowParamOf decl slot := by
    obtain ⟨role, params, result, definition, callable, listed⟩ :=
      isParam.listed
    exact ⟨role, params, result, definition, param, type, callable, listed,
      isParam.whole.1, form, below⟩
  obtain ⟨parm, middle, mints, run⟩ := Action.done_of_bind run
  obtain ⟨site, standing, minting, -, -, -, -, stands⟩ :=
    (Works.mintTypeParam _ (since.sound.whole_of_below whole below) auto
      reached room).reach shows since mints
  obtain ⟨fresh, held, same⟩ := mintTypeParam_fresh mints
  obtain ⟨_, last, raised, run⟩ := Action.done_of_bind run
  cases run
  obtain ⟨later, shown, further, -⟩ :=
    (Works.raise _ (minting.keeps.whole isParam.whole)).reach standing
      (minting.since since) raised
  have onward : Arena.Framed input origin middle.arena after.arena := by
    rw [standing.arena, shown.arena]
    exact further.framed
  refine ⟨same.trans (raise_sameForms raised), ?_, parm, rfl, fresh,
    onward.held held, onward.standsFor held (standing.arena ▸ stands)⟩
  rw [shows.arena, shown.arena]
  exact (minting.trans further).framed

/-- The type of a parameter is read, and minted if it is to be inferred. -/
private theorem recordParam_extracts
    {param : DeclId}
    {soFar all : List DeclId × List Reading}
    (shows : state.Shows start)
    (since : start.Since origin)
    (isParam : start.IsParam decl param)
    (room : scope.raw < start.table.size)
    (run : recordParam scope firstIndex soFar param input state =
      .done all after) :
    state.arena.SameForms after.arena ∧ ∃ readings more,
      all = (soFar.1 ++ more, soFar.2 ++ readings) ∧
        readings.map Reading.type = (state.arena.paramType? param).toList ∧
        Extracts state.arena after.arena readings more := by
  obtain ⟨_, _, observed, run⟩ := Action.done_of_bind run
  cases observed
  cases known : state.arena.paramType? param with
  | none =>
      rw [known] at run
      cases run
      exact ⟨.refl _, [], [], by simp, rfl, .nil ..⟩
  | some type =>
      rw [known] at run
      have form := Arena.form_of_paramType? known
      rw [shows.arena] at form
      have whole : start.Whole (.type type) :=
        since.sound.whole_of_form isParam.whole form
          (by simp [DeclForm.children])
      obtain ⟨_, middle, completes, run⟩ := Action.done_of_bind run
      obtain ⟨between, showing, onward, -, calm⟩ :=
        (Works.completeType room whole).reach shows since completes
      have same : state.arena.SameForms middle.arena := by
        rw [shows.arena, showing.arena]
        exact calm.restrained.sameForms
      obtain ⟨_, _, observed, run⟩ := Action.done_of_bind run
      cases observed
      dsimp only [Reading.slot?] at run
      cases inferred : middle.arena.inferred? type with
      | none =>
          rw [inferred] at run
          obtain ⟨_, last, raised, run⟩ := Action.done_of_bind run
          cases run
          obtain ⟨later, shown, further, -⟩ :=
            (Works.raise _ (onward.keeps.whole isParam.whole)).reach showing
              (onward.since since) raised
          have framed : Arena.Framed input origin middle.arena after.arena := by
            rw [showing.arena, shown.arena]
            exact further.framed
          refine ⟨same.trans (raise_sameForms raised),
            [{ type := type, arena := middle.arena }], [], by simp, rfl, ?_⟩
          exact
            { read := List.forall_mem_singleton.mpr (.of_framed framed)
              stands := by simp [Reading.slot?, inferred]
              new := List.forall_mem_nil _
              held := List.forall_mem_nil _
              distinct := List.nodup_nil }
      | some slot =>
          rw [inferred] at run
          have kept : (between.arena.decl param).form = .parameter type :=
            (onward.framed.form_eq isParam.whole.1 (by rw [form]; rfl)).trans
              form
          obtain ⟨sameMinting, framed, parm, rfl, new, held, stands⟩ :=
            mintFor_stands showing (onward.since since)
              (isParam.onward onward) kept
              (showing.arena ▸ Arena.inferred?_eq_some_iff.mp inferred)
              (Nat.lt_of_lt_of_le room onward.keeps.size) run
          refine ⟨same.trans sameMinting,
            [{ type := type, arena := middle.arena }], [parm], rfl, rfl, ?_⟩
          exact
            { read := List.forall_mem_singleton.mpr (.of_framed framed)
              stands := by simpa [Reading.slot?, inferred] using stands
              new := List.forall_mem_singleton.mpr fun was =>
                new (same.held was)
              held := List.forall_mem_singleton.mpr held
              distinct := List.nodup_singleton parm }

/-- The types of parameters are read in order. -/
theorem recordParams_extracts
    {params : List DeclId}
    {soFar all : List DeclId × List Reading}
    (shows : state.Shows start)
    (since : start.Since origin)
    (fits : ∀ param ∈ params, start.IsParam decl param ∧
      start.arena.Reaches .empty (.decl decl) (.decl param))
    (room : scope.raw < start.table.size)
    (has : start.HasMinted origin base decl soFar.1)
    (run : params.foldlM (recordParam scope firstIndex) soFar input state =
      .done all after) :
    ∃ later, after.Shows later ∧ start.Onward input origin later ∧
      later.HasMinted origin base decl all.1 ∧
      state.arena.SameForms after.arena ∧
      ∃ readings more, all = (soFar.1 ++ more, soFar.2 ++ readings) ∧
        readings.map Reading.type =
          params.filterMap state.arena.paramType? ∧
        Extracts state.arena after.arena readings more := by
  induction params generalizing state start soFar with
  | nil =>
      cases run
      exact ⟨start, shows, .refl since.sound, has, .refl _, [], [], by simp,
        rfl, .nil ..⟩
  | cons param params inductionHypothesis =>
      obtain ⟨⟨isParam, owned⟩, rest⟩ := List.forall_mem_cons.mp fits
      rw [List.foldlM_cons] at run
      obtain ⟨some, middle, first, run⟩ := Action.done_of_bind run
      obtain ⟨between, showing, onward, hasNow, -⟩ :=
        (Works.elaborateParam firstIndex isParam owned room has).reach shows
          since (Records.param_done first)
      obtain ⟨sameFirst, readings, added, rfl, types, extracts⟩ :=
        recordParam_extracts shows since isParam room first
      obtain ⟨later, shown, further, hasLater, same, others, more, rfl,
          typesRest, extractsRest⟩ :=
        inductionHypothesis showing (onward.since since)
          (fun other listed =>
            have ⟨isOther, reaches⟩ := rest other listed
            ⟨isOther.onward onward, onward.framed.reaches reaches⟩)
          (Nat.lt_of_lt_of_le room onward.keeps.size) hasNow run
      have framedFirst : Arena.Framed input origin state.arena
          middle.arena := by
        rw [shows.arena, showing.arena]
        exact onward.framed
      have framed : Arena.Framed input origin middle.arena after.arena := by
        rw [showing.arena, shown.arena]
        exact further.framed
      refine ⟨later, shown, onward.trans further, hasLater,
        sameFirst.trans same, readings ++ others, added ++ more, by simp, ?_,
        extracts.append extractsRest framedFirst framed⟩
      have kept : params.filterMap middle.arena.paramType? =
          params.filterMap state.arena.paramType? :=
        List.filterMap_congr fun other listed =>
          framedFirst.paramType?_eq
            (shows.arena ▸ (rest other listed).1.whole.1)
      rw [List.map_append, types, typesRest, kept, List.filterMap_cons]
      cases state.arena.paramType? param <;> rfl

end Elab

end Tern
