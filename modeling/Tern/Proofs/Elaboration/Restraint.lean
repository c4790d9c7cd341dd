import Tern.Proofs.Elaboration.Frame

namespace Tern

/-!
# Restrained elaboration

A type that was parsed does not change any more, unless it is to be inferred for
a parameter of a function that is being typed. Only while a function is being
typed the template around it may get more parameters.
-/

namespace Arena

/--
A type is found in the type of a parameter of a function or a coroutine, below
references and qualifiers only.
-/
structure BelowParamOf
    (arena : Arena)
    (decl : DeclId)
    (slot : TypeId) : Prop where
  intro ::
  found : ∃ role params result definition param type,
    (arena.decl decl).form = .callable role params result definition ∧
      param ∈ params ∧ arena.Holds (.decl param) ∧
      (arena.decl param).form = .parameter type ∧ arena.Below type slot

theorem BelowParamOf.belowParam
    {arena : Arena}
    {decl : DeclId}
    {slot : TypeId}
    (below : arena.BelowParamOf decl slot) :
    arena.BelowParam slot :=
  ⟨decl, below.found⟩

/--
From one arena to another no type changes that was parsed, and no declaration
changes its form, but for what belongs to the declarations that are typed.
-/
structure Restrained
    (typed : DeclId → Prop)
    (older newer : Arena) : Prop where
  held : ∀ {term}, older.Holds term → newer.Holds term
  type : ∀ {type}, older.Holds (.type type) →
    older.isUnparsed (.type type) = false →
      newer.type type = older.type type ∨
        (older.type type).form = .builtin .auto ∧
          ∃ decl, typed decl ∧ newer.BelowParamOf decl type
  form : ∀ {decl}, older.Holds (.decl decl) →
    (newer.decl decl).form = (older.decl decl).form ∨
      ∃ parms constraint? inner more,
        (older.decl decl).form = .template parms constraint? inner ∧
          (newer.decl decl).form =
            .template (parms ++ more) constraint? inner ∧
          typed inner ∧ (newer.decl inner).form.isParam = false

namespace Restrained

variable {typed more : DeclId → Prop} {older middle newer : Arena}

theorem refl (arena : Arena) : arena.Restrained typed arena where
  held := id
  type _ _ := .inl rfl
  form _ := .inl rfl

theorem weaken
    (restrained : older.Restrained typed newer)
    (wider : ∀ {decl}, typed decl → more decl) :
    older.Restrained more newer where
  held := restrained.held
  type held parsed :=
    (restrained.type held parsed).imp_right
      fun ⟨inferred, decl, among, below⟩ =>
        ⟨inferred, decl, wider among, below⟩
  form held :=
    (restrained.form held).imp_right
      fun ⟨parms, constraint?, inner, added, was, now, among, plain⟩ =>
        ⟨parms, constraint?, inner, added, was, now, wider among, plain⟩

/-- Types and declarations may stay as they are while something is added. -/
theorem of_reads
    (held : ∀ {term}, older.Holds term → newer.Holds term)
    (types : ∀ {type}, older.Holds (.type type) →
      older.isUnparsed (.type type) = false →
        newer.type type = older.type type)
    (forms : ∀ {decl}, older.Holds (.decl decl) →
      (newer.decl decl).form = (older.decl decl).form) :
    older.Restrained typed newer where
  held := held
  type stored parsed := .inl (types stored parsed)
  form stored := .inl (forms stored)

theorem of_extends (extended : older.Extends newer) :
    older.Restrained typed newer :=
  of_reads extended.holds (fun held _ => extended.type_eq held)
    fun held => congrArg Decl.form (extended.decl_eq held)

/-- Whether a declaration is a parameter does not change. -/
private theorem isParam_eq
    (restrained : older.Restrained typed newer)
    {decl : DeclId}
    (held : older.Holds (.decl decl)) :
    (newer.decl decl).form.isParam = (older.decl decl).form.isParam := by
  rcases restrained.form held with same | ⟨_, _, _, _, was, now, -⟩
  · rw [same]
  · rw [was, now]
    rfl

/-- A declaration that is no template keeps its form. -/
theorem form_eq
    (restrained : older.Restrained typed newer)
    {decl : DeclId}
    (held : older.Holds (.decl decl))
    (plain : (older.decl decl).form.isTemplate = false) :
    (newer.decl decl).form = (older.decl decl).form := by
  refine (restrained.form held).resolve_right ?_
  rintro ⟨_, _, _, _, was, -⟩
  rw [was] at plain
  cases plain

private theorem belowParamOf
    (restrained : older.Restrained typed newer)
    {decl : DeclId}
    {slot : TypeId}
    (below : older.BelowParamOf decl slot) :
    newer.BelowParamOf decl slot := by
  obtain ⟨role, params, result, definition, param, type, callable, listed, held,
    form, inside⟩ := below.found
  refine ⟨role, params, result, definition, param, type, ?_, listed,
    restrained.held held, ?_, inside.mono fun {outer _ _} wrapped => ?_⟩
  · have kept := restrained.form_eq (holds_of_form callable nofun)
      (by rw [callable]; rfl)
    exact kept.trans callable
  · exact (restrained.form_eq held (by rw [form]; rfl)).trans form
  · refine (restrained.type (holds_of_wrapped wrapped) ?_).resolve_right ?_
    · rw [isUnparsed, wrapped]
      rfl
    · rintro ⟨inferred, -⟩
      cases wrapped.symm.trans inferred

theorem trans
    (first : older.Restrained typed middle)
    (second : middle.Restrained typed newer) :
    older.Restrained typed newer where
  held was := second.held (first.held was)
  type {type} was parsed := by
    rcases first.type was parsed with same | ⟨inferred, decl, among, below⟩
    · have parsedNow : middle.isUnparsed (.type type) = false := by
        rwa [isUnparsed, same]
      rw [← same]
      exact second.type (first.held was) parsedNow
    · exact .inr ⟨inferred, decl, among, second.belowParamOf below⟩
  form {decl} was := by
    rcases first.form was with same |
        ⟨parms, constraint?, inner, added, before, now, among, plain⟩
    · rw [← same]
      exact second.form (first.held was)
    · right
      have held : middle.Holds (.decl inner) := by
        refine holds_of_form rfl fun type form => ?_
        rw [form] at plain
        cases plain
      have plainNow := (second.isParam_eq held).trans plain
      rcases second.form (first.held was) with same |
          ⟨_, _, _, further, again, last, -⟩
      · exact ⟨parms, constraint?, inner, added, before, same.trans now, among,
          plainNow⟩
      · cases now.symm.trans again
        refine ⟨parms, constraint?, inner, added ++ further, before, ?_, among,
          plainNow⟩
        rw [last, List.append_assoc]

/-- A declaration that reaches a phase keeps its form. -/
theorem raise (arena : Arena) (decl : DeclId) (phase : Phase) :
    arena.Restrained typed
      (arena.updateDecl decl fun old => old.raiseTo phase) := by
  refine of_reads (holds_updateDecl _ _).mpr (fun _ _ => rfl)
    fun {other} held => ?_
  by_cases same : other = decl
  · subst same
    rw [decl_updateDecl held]
    rfl
  · rw [decl_updateDecl_of_ne same]

/-- A type that was added moves into a slot that was a range of tokens. -/
theorem moveType
    {target source : TypeId}
    (extended : older.Extends middle)
    (held : older.Holds (.type target))
    (new : ¬ older.Holds (.type source))
    (captured : older.isUnparsed (.type target) = true) :
    older.Restrained typed (middle.moveType target source) := by
  have moved := moved_moveType (extended.holds held) source
  refine of_reads (fun stored => moved.holds.mpr (extended.holds stored))
    (fun {type} stored parsed => ?_) fun stored => ?_
  · have atTarget : type ≠ target := by
      rintro rfl
      cases captured.symm.trans parsed
    have atSource : type ≠ source := by
      rintro rfl
      exact new stored
    rw [type_moveType (extended.holds held), if_neg atTarget, if_neg atSource,
      extended.type_eq stored]
  · rw [moved.decl, extended.decl_eq stored]

/-- No type changes when a statement or an expression moves. -/
theorem of_moved
    {target source : Term}
    (moved : older.Moved newer target source)
    (types : newer.types = older.types) :
    older.Restrained typed newer :=
  of_reads moved.holds.mpr (fun _ _ => by simp only [Arena.type, types])
    fun _ => by rw [moved.decl]

/--
A type that was added moves into a slot that is to be inferred for a parameter.
-/
theorem mint
    {decl : DeclId}
    {target source : TypeId}
    (extended : older.Extends middle)
    (held : older.Holds (.type target))
    (new : ¬ older.Holds (.type source))
    (inferred : (older.type target).form = .builtin .auto)
    (below : older.BelowParamOf decl target) :
    older.Restrained (· = decl) (middle.moveType target source) := by
  have moved := moved_moveType (extended.holds held) source
  have kept {type : TypeId} (stored : older.Holds (.type type))
      (apart : type ≠ target) :
      (middle.moveType target source).type type = older.type type := by
    have atSource : type ≠ source := by
      rintro rfl
      exact new stored
    rw [type_moveType (extended.holds held), if_neg apart, if_neg atSource,
      extended.type_eq stored]
  have form {other : DeclId} (stored : older.Holds (.decl other)) :
      ((middle.moveType target source).decl other).form =
        (older.decl other).form := by
    rw [moved.decl, extended.decl_eq stored]
  refine ⟨fun stored => moved.holds.mpr (extended.holds stored),
    fun {type} stored _ => ?_, fun stored => .inl (form stored)⟩
  by_cases here : type = target
  · subst here
    obtain ⟨role, params, result, definition, param, outer, callable, listed,
      storedParam, parameter, inside⟩ := below.found
    refine .inr ⟨inferred, decl, rfl, role, params, result, definition, param,
      outer, ?_, listed, moved.holds.mpr (extended.holds storedParam), ?_,
      inside.mono fun {around _ _} wrapped =>
        kept (holds_of_wrapped wrapped) ?_⟩
    · exact (form (holds_of_form callable nofun)).trans callable
    · exact (form storedParam).trans parameter
    · rintro rfl
      cases wrapped.symm.trans inferred
  · exact .inl (kept stored here)

/-- Parameters are added to the template around a declaration. -/
theorem extendTemplate
    {arena : Arena}
    {wrapper inner : DeclId}
    {parms added : List DeclId}
    {constraint? : Option ExprId}
    {change : Decl → Decl}
    (form : (arena.decl wrapper).form = .template parms constraint? inner)
    (extended : (change (arena.decl wrapper)).form =
      .template (parms ++ added) constraint? inner)
    (plain : (arena.decl inner).form.isParam = false) :
    arena.Restrained (· = inner) (arena.updateDecl wrapper change) := by
  have now := decl_updateDecl (holds_of_form form nofun) change
  refine ⟨(holds_updateDecl change _).mpr, fun _ _ => .inl rfl,
    fun {other} _ => ?_⟩
  by_cases same : other = wrapper
  · subst same
    refine .inr ⟨parms, constraint?, inner, added, form, now ▸ extended, rfl,
      ?_⟩
    by_cases itself : inner = other
    · rw [itself, now, extended]
      rfl
    · rw [decl_updateDecl_of_ne itself, plain]
  · exact .inl (by rw [decl_updateDecl_of_ne same])

end Restrained

end Arena

end Tern
