import Tern.Proofs.Building.Trees
import Tern.Proofs.Elaboration.Minting
import Tern.Proofs.Elaboration.Typing

namespace Tern

/-!
# The first pass at work

The first pass completes the types of declarations and mints type parameters for
those that are to be inferred. It works on whole terms only, and reaches them
from statements by what they own.
-/

namespace Arena

variable {arena : Arena}

/-- A type to be inferred is below references and qualifiers only. -/
theorem below_of_inferredWithin?
    {depth : Nat}
    {type slot : TypeId}
    (found : arena.inferredWithin? depth type = some slot) :
    arena.Below type slot ∧ (arena.type slot).form = .builtin .auto := by
  induction depth generalizing type with
  | zero => cases found
  | succ depth inductionHypothesis =>
      simp only [inferredWithin?] at found
      split at found
      next form =>
        cases found
        exact ⟨.refl _, form⟩
      next form => exact (inductionHypothesis found).imp_left (.reference form)
      next form => exact (inductionHypothesis found).imp_left (.qualified form)
      next => cases found

end Arena

namespace Worksite

variable {site : Worksite} (sound : site.Sound)

include sound

/-- What is below a whole type is whole. -/
theorem Sound.whole_of_below
    {type slot : TypeId}
    (whole : site.Whole (.type type))
    (below : site.arena.Below type slot) :
    site.Whole (.type slot) := by
  induction below with
  | refl => exact whole
  | reference form _ inductionHypothesis =>
      exact inductionHypothesis
        (sound.whole_child whole
          (by simp [Arena.children, form, TypeForm.children]))
  | qualified form _ inductionHypothesis =>
      exact inductionHypothesis
        (sound.whole_child whole
          (by simp [Arena.children, form, TypeForm.children]))

/-- What a whole declaration owns in its form is whole. -/
theorem Sound.whole_of_form
    {decl : DeclId}
    {form : DeclForm}
    (whole : site.Whole (.decl decl))
    (found : (site.arena.decl decl).form = form)
    {term : Term}
    (owned : term ∈ form.children) :
    site.Whole term :=
  sound.whole_child whole (by simp [Arena.children, found, owned])

/-- The parameters of requires-expressions within a whole term are whole. -/
private theorem Sound.whole_ownedRequiresParams
    {root : Term}
    (whole : site.Whole root)
    {param : DeclId}
    (listed : param ∈ site.arena.ownedRequiresParams root) :
    site.Whole (.decl param) := by
  obtain ⟨owner, walked, inside⟩ := List.mem_flatMap.mp listed
  have within := sound.whole_of_owns whole (Arena.owns_of_mem_preorder walked)
  cases owner with
  | expr expr =>
      simp only [Arena.requiresParams] at inside
      split at inside
      next form =>
        exact sound.whole_child within
          (by simp [Arena.children, form, ExprForm.children, inside])
      next => cases inside
  | _ => cases inside

/-- The scope that a declaration belongs to is stored. -/
theorem Sound.room_of_held
    {decl : DeclId}
    (held : site.arena.Holds (.decl decl)) :
    (site.arena.decl decl).scope.raw < site.table.size :=
  (sound.fit _ held).scope _ rfl

end Worksite

namespace Works

variable {input : ElabInput} {origin : Arena} {start : Worksite}

/-- A declaration reaches a phase. -/
theorem raise
    {decl : DeclId}
    (phase : Phase)
    (whole : start.Whole (.decl decl)) :
    Works input origin start (Elab.raise decl phase) fun later _ =>
      start.Spares later ∧
      start.Steady (fun other reached => other = decl ∧ reached = phase)
        (fun _ => False) (fun _ => False) later := by
  have found := Arena.decl_updateDecl whole.1 fun old => old.raiseTo phase
  have framed : Arena.Framed input origin start.arena
      (start.arena.updateDecl decl fun old => old.raiseTo phase) := by
    refine .of_slot (fun held => (Arena.holds_updateDecl _ _).mpr held)
      (fun _ apart => Arena.reads_updateDecl apart _) ?_
    refine ⟨by rw [found]; rfl, by rw [found]; rfl, by rw [found]; rfl,
      by rw [found]; rfl, ?_, .inl (by rw [found]; rfl)⟩
    rw [found]
    simp only [Decl.raiseTo, Phase.latest]
    split
    next lower => exact Nat.le_of_lt lower
    next => exact Nat.le_refl _
  have carries : Arena.Carries input.tokens start.arena
      (start.arena.updateDecl decl fun old => old.raiseTo phase) :=
    .updateDecl whole.1 fun term owned => by
      rw [Arena.children, found]
      exact owned
  have settles : Arena.Settles input.tokens start.arena
      (start.arena.updateDecl decl fun old => old.raiseTo phase) := by
    refine .updateDecl whole.1 rfl fun laid child listed => ?_
    rw [Arena.children, found] at listed
    exact laid.owned listed
  refine (changeArena start.stock framed carries settles fun sound =>
    sound.raise phase whole).weaken ?_
  rintro _ _ _ rfl
  exact ⟨⟨le_refl _, fun _ => rfl⟩, .raise _ _ _⟩

/-- Whole declarations reach a phase. -/
theorem raiseAll
    {decls : List DeclId}
    (phase : Phase)
    (whole : ∀ decl ∈ decls, start.Whole (.decl decl)) :
    Works input origin start (Elab.raiseAll decls phase) fun later _ =>
      start.Steady (fun other reached => other ∈ decls ∧ reached = phase)
        (fun _ => False) (fun _ => False) later := by
  let fit (site : Worksite) (decl : DeclId) : Prop :=
    site.Whole (.decl decl) ∧ decl ∈ decls
  have kept {older newer : Worksite} {decl : DeclId}
      (onward : older.Onward input origin newer)
      (was : fit older decl) : fit newer decl :=
        ⟨onward.keeps.whole was.1, was.2⟩
  refine @forMSteady input origin start DeclId decls _ fit _ _ _ kept
    (fun decl middle inside => ?_)
    fun decl listed => ⟨whole decl listed, listed⟩
  refine (raise phase inside.1).weaken fun later _ _ known =>
    known.2.weaken ?_ id id
  rintro _ _ ⟨rfl, rfl⟩
  exact ⟨inside.2, rfl⟩

/--
The parameters of the requires-expressions within a declaration reach a phase.
-/
theorem raiseRequiresParams
    {decl : DeclId}
    (phase : Phase)
    (whole : start.Whole (.decl decl)) :
    Works input origin start
        (Elab.raiseRequiresParams decl phase) fun later _ =>
      start.Steady (fun other reached =>
        other ∈ start.arena.ownedRequiresParams (.decl decl) ∧ reached = phase)
          (fun _ => False) (fun _ => False) later :=
  given fun since => observe (raiseAll phase fun _ listed =>
    since.sound.whole_ownedRequiresParams whole listed)

/-- The scope of a declaration is looked up, or added and saved. -/
theorem scopeFor
    {decl : DeclId}
    {parent : ScopeId}
    (kind : ScopeKind)
    (held : start.arena.Holds (.decl decl))
    (room : parent.raw < start.table.size) :
    Works input origin start (Elab.inScopes fun scopes =>
      scopes.scopeFor decl parent kind)
      fun later scope => scope.raw < later.table.size ∧
        later.saved.lookup decl = some scope ∧
        later.arena = start.arena ∧ start.Calm later := by
  intro state shows since
  obtain ⟨arena, table, saved, stock⟩ := start
  obtain ⟨rfl, rfl, rfl, wellFormed⟩ := shows
  obtain ⟨current, wellFormedNow, inside, more, keeps, sound⟩ :=
    since.sound.scopeFor kind wellFormed held room
  refine ⟨_, ⟨rfl, rfl, rfl, wellFormedNow⟩, current,
    ⟨sound, keeps, .refl _ _ _, .refl _ _, .refl _ _⟩, inside,
    Scopes.savedScope?_scopeFor _ _ _ _, rfl, .of_scopes rfl fun was => ?_⟩
  exact Scopes.enlists_scopeFor was parent kind

end Works

/--
Some type parameters are at hand that were minted for a declaration; since then
no statement has changed.
-/
structure Worksite.HasMinted
    (origin base : Arena)
    (decl : DeclId)
    (site : Worksite)
    (minted : List DeclId) : Prop where
  held : ∀ {term}, base.Holds term → site.arena.Holds term
  stmts : ∀ {stmt : StmtId}, base.Holds (.stmt stmt) → site.arena.stmt stmt =
    base.stmt stmt
  loose : Piece.terms (minted.map Term.decl) ≤ site.stock
  new : ∀ parm ∈ minted, origin.Minted site.arena parm
  stands : ∀ parm ∈ minted, site.arena.StandsWithin decl parm

/-- What spares a worksite leaves there what was minted. -/
theorem Worksite.HasMinted.onward
    {input : ElabInput}
    {origin base : Arena}
    {decl : DeclId}
    {older newer : Worksite}
    {minted : List DeclId}
    (has : older.HasMinted origin base decl minted)
    (onward : older.Onward input origin newer)
    (spares : older.Spares newer) :
    newer.HasMinted origin base decl minted where
  held was := onward.framed.held (has.held was)
  stmts was := (spares.stmts (has.held was)).trans (has.stmts was)
  loose := has.loose.trans spares.stock
  new parm listed := onward.framed.minted (has.new parm listed)
  stands parm listed :=
    onward.framed.standsWithin (has.new parm listed) (has.stands parm listed)

/-- A declaration is a parameter of another one. -/
structure Worksite.IsParam (site : Worksite) (decl param : DeclId) : Prop where
  whole : site.Whole (.decl param)
  listed : ∃ role params result definition,
    (site.arena.decl decl).form = .callable role params result definition ∧
      param ∈ params

/-- A parameter stays one. -/
theorem Worksite.IsParam.onward
    {input : ElabInput}
    {origin : Arena}
    {older newer : Worksite}
    {decl param : DeclId}
    (isParam : older.IsParam decl param)
    (onward : older.Onward input origin newer) :
    newer.IsParam decl param := by
  obtain ⟨role, params, result, definition, callable, listed⟩ := isParam.listed
  have kept := onward.framed.form_eq (Arena.holds_of_form callable nofun)
    (by rw [callable]; rfl)
  exact ⟨onward.keeps.whole isParam.whole, role, params, result, definition,
    kept.trans callable, listed⟩

/--
A declaration that was come by is come by in the same way as long as its
statement stays.
-/
theorem Worksite.Enters.onward
    {input : ElabInput}
    {origin : Arena}
    {older newer : Worksite}
    {stmt? : Option StmtId}
    {wrapper? : Option DeclId}
    {decl : DeclId}
    (enters : older.Enters stmt? wrapper? decl)
    (onward : older.Onward input origin newer)
    (stmts : ∀ {stmt : StmtId}, older.arena.Holds (.stmt stmt) →
      newer.arena.stmt stmt = older.arena.stmt stmt) :
    newer.Enters stmt? wrapper? decl := by
  cases wrapper? with
  | none =>
      obtain ⟨stmt, given, whole, form⟩ := enters
      exact ⟨stmt, given, onward.keeps.whole whole, (stmts whole.1).symm ▸ form⟩
  | some wrapper =>
      obtain ⟨whole, parms, constraint?, form⟩ := enters
      refine ⟨onward.keeps.whole whole, ?_⟩
      rcases (onward.framed.decl whole.1).form with same |
          ⟨_, _, _, more, template, now, -⟩
      · exact ⟨parms, constraint?, same.trans form⟩
      · rw [form] at template
        cases template
        exact ⟨_, _, now⟩

namespace Works

variable {input : ElabInput} {origin : Arena} {start : Worksite}

/-- The type of a parameter is completed, and minted if it is to be inferred. -/
theorem elaborateParam
    {base : Arena}
    {scope : ScopeId}
    {minted : List DeclId}
    {decl param : DeclId}
    (firstIndex : Nat)
    (isParam : start.IsParam decl param)
    (owned : start.arena.Reaches .empty (.decl decl) (.decl param))
    (room : scope.raw < start.table.size)
    (has : start.HasMinted origin base decl minted) :
    Works input origin start (Elab.elaborateParam scope firstIndex minted param)
      fun later all => later.HasMinted origin base decl all ∧
          start.CalmFor decl later := by
  refine given fun since => observe ?_
  cases some : start.arena.paramType? param with
  | none => exact pure ⟨has, .refl _⟩
  | some type =>
      have form := Arena.form_of_paramType? some
      have kept {site : Worksite} (onward : start.Onward input origin site) :
          (site.arena.decl param).form.isParam = true := by
        rw [(onward.framed.decl isParam.whole.1).isParam_eq, form]
        rfl
      have whole : start.Whole (.type type) :=
        since.sound.whole_of_form isParam.whole form
          (by simp [DeclForm.children])
      refine bind (completeType room whole) ?_
      rintro middle _ onward ⟨spares, calm⟩
      have hasMiddle := has.onward onward spares
      have wholeParam := onward.keeps.whole isParam.whole
      refine observe ?_
      cases inferred : middle.arena.inferred? type with
      | none =>
          refine bind (raise _ wholeParam) ?_
          rintro last _ further ⟨sparing, steady⟩
          have calmly :=
            steady.calm fun _ same => same ▸ kept (onward.trans further)
          exact pure ⟨hasMiddle.onward further sparing,
            (calm.trans calmly onward.framed further.framed).weaken
              False.elim False.elim False.elim⟩
      | some slot =>
          obtain ⟨below, auto⟩ := Arena.below_of_inferredWithin? inferred
          have reached : middle.arena.BelowParamOf decl slot := by
            obtain ⟨role, params, result, definition, callable, listed⟩ :=
              (isParam.onward onward).listed
            have kept :=
              onward.framed.form_eq isParam.whole.1 (by rw [form]; rfl)
            exact ⟨role, params, result, definition, param, type, callable,
              listed, wholeParam.1, kept.trans form, below⟩
          refine bind (mintTypeParam _
            (onward.sound.whole_of_below (onward.keeps.whole whole) below) auto
              reached
            (Nat.lt_of_lt_of_le room onward.keeps.size)) ?_
          rintro later parm minting ⟨loose, sparing, steadyMint, new, stands⟩
          have within : middle.arena.Reaches .empty (.decl decl)
              (.type slot) := by
            refine ((onward.framed.reaches owned).trans ?_).trans below.reaches
            exact onward.framed.reaches_child isParam.whole.1
              (by simp [Arena.children, form, DeclForm.children])
          have hasLater : later.HasMinted origin base decl (minted ++ [parm]) :=
            { hasMiddle.onward minting sparing with
              loose := by
                rw [List.map_append, Piece.terms_append, add_comm]
                exact (Multiset.cons_le_cons _ hasMiddle.loose).trans loose
              new := by
                rw [List.forall_mem_append]
                exact ⟨(hasMiddle.onward minting sparing).new,
                  List.forall_mem_singleton.mpr new⟩
              stands := by
                rw [List.forall_mem_append]
                exact ⟨(hasMiddle.onward minting sparing).stands,
                  List.forall_mem_singleton.mpr
                  ⟨slot, minting.framed.reaches within, stands⟩⟩ }
          refine bind (raise _ (minting.keeps.whole wholeParam)) ?_
          rintro last _ further ⟨sparing, steady⟩
          have calmly :=
            steady.calm fun _ same =>
              same ▸ kept ((onward.trans minting).trans further)
          exact pure ⟨hasLater.onward further sparing,
            calm.calmly (steadyMint.trans
              (calmly.weaken False.elim False.elim False.elim) minting.framed
              further.framed) onward.framed (minting.trans further).framed⟩

/-- Registering an open method changes neither terms nor scopes. -/
theorem registerOpenMethod (decl : DeclId) (params : List DeclId) :
    (Elab.registerOpenMethod decl params).Apart := by
  refine .bind .environment fun _ => .bind .arena fun arena => ?_
  split
  · split
    · exact .find _
    · exact .pure _
  · exact .pure _

/--
The types of a function or a coroutine are completed, and what was minted goes
to a template. Besides the function it is the template in its place that is
typed.
-/
theorem elaborateSignature
    {stmt? : Option StmtId}
    {wrapper? : Option DeclId}
    {decl : DeclId}
    {role : CallableRole}
    {params : List DeclId}
    {result : TypeId}
    {definition : DefId}
    (whole : start.Whole (.decl decl))
    (enters : start.Enters stmt? wrapper? decl)
    (callable : (start.arena.decl decl).form =
      .callable role params result definition) :
    Works input origin start
      (Elab.elaborateSignature stmt? decl params result wrapper?)
      fun later _ =>
        start.Steady (fun other reached => reached = .typeElaborated ∧
          (other = decl ∨ ∃ stmt ∈ stmt?, (later.arena.stmt stmt).form =
            .declaration other))
        (fun other => other = decl ∧
          ∃ stmt ∈ stmt?, (later.arena.stmt stmt).form ≠ .declaration other)
        (· = decl) later := by
  refine given fun since => observe (bind (scopeFor .function whole.1
    (since.sound.room_of_held whole.1)) ?_)
  rintro first scope toFirst ⟨room, -, same, calmFirst⟩
  have wholeFirst := toFirst.keeps.whole whole
  have callableFirst : (first.arena.decl decl).form =
      .callable role params result definition :=
    same ▸ callable
  have entersFirst := enters.onward toFirst fun _ => by rw [same]
  have inside {term : Term} (owned :
      term ∈ (DeclForm.callable role params result definition).children) :
      first.Whole term :=
        toFirst.sound.whole_of_form wholeFirst callableFirst owned
  let fit (site : Worksite) (param : DeclId) : Prop :=
    site.IsParam decl param ∧
      site.arena.Reaches .empty (.decl decl) (.decl param) ∧
      scope.raw < site.table.size
  have stays {older newer : Worksite} {param : DeclId}
      (onward : older.Onward input origin newer)
      (was : fit older param) : fit newer param :=
    ⟨was.1.onward onward, onward.framed.reaches was.2.1,
      Nat.lt_of_lt_of_le was.2.2 onward.keeps.size⟩
  have fits : ∀ param ∈ params, fit first param := fun param listed =>
    ⟨⟨inside (by simp [DeclForm.children, listed]), role, params, result,
      definition, callableFirst, listed⟩,
        .child .self wholeFirst.1 (Arena.not_holds_empty _)
        (by simp [Arena.children, callableFirst, DeclForm.children, listed]),
          room⟩
  have none : first.HasMinted origin first.arena decl [] :=
    ⟨id, fun _ => rfl, Multiset.zero_le _, List.forall_mem_nil _,
      List.forall_mem_nil _⟩
  let kept (site : Worksite) (all : List DeclId) : Prop :=
    site.HasMinted origin first.arena decl all ∧ first.CalmFor decl site ∧
      Arena.Framed input origin first.arena site.arena
  refine bind (@foldlM _ input origin first DeclId params _ fit kept stays
    (fun param middle all was has =>
      (elaborateParam _ was.1 was.2.1 was.2.2 has.1).weaken
      fun _ _ onward now => ⟨now.1, has.2.1.trans now.2 has.2.2 onward.framed,
        has.2.2.trans onward.framed⟩) fits _ ⟨none, .refl _, .refl _ _ _⟩) ?_
  rintro second minted toSecond ⟨hasSecond, steadySecond, -⟩
  have wholeResult : second.Whole (.type result) :=
    toSecond.keeps.whole (inside (by simp [DeclForm.children]))
  refine bind (completeType (Nat.lt_of_lt_of_le room toSecond.keeps.size)
    wholeResult) ?_
  rintro third _ toThird ⟨spares, calmThird⟩
  have onward := toSecond.trans toThird
  refine bind (raise .typeElaborated (onward.keeps.whole wholeFirst)) ?_
  rintro last _ toLast ⟨sparing, steadyLast⟩
  refine next (registerOpenMethod decl params) fun _ => ?_
  have hasLast := (hasSecond.onward toThird spares).onward toLast sparing
  have toHere := onward.trans toLast
  have kept := toHere.framed.form_eq wholeFirst.1 (by rw [callableFirst]; rfl)
  refine (addTemplateParams (entersFirst.onward toHere hasLast.stmts)
    (kept.trans callableFirst)
    hasLast.loose hasLast.new hasLast.stands).weaken
      fun later _ further added => ?_
  have calm : start.CalmFor decl third :=
    calmFirst.calmly
      (steadySecond.trans (calmThird.weaken False.elim False.elim False.elim)
        toSecond.framed toThird.framed) toFirst.framed onward.framed
  refine (calm.weaken False.elim False.elim id).trans
    ((steadyLast.weaken ?_ False.elim False.elim).trans (added.weaken ?_ id id)
      toLast.framed further.framed) (toFirst.trans onward).framed
    (toLast.trans further).framed
  · rintro _ _ ⟨rfl, rfl⟩
    exact ⟨rfl, .inl rfl⟩
  · rintro _ _ ⟨reached, held⟩
    exact ⟨reached, .inr held⟩

/-- The type of a base is completed. -/
private theorem elaborateBase
    {type : TypeId}
    {scope : ScopeId}
    (decl : DeclId)
    (whole : start.Whole (.type type))
    (room : scope.raw < start.table.size) :
    Works input origin start (Elab.elaborateBase decl type scope) fun later _ =>
      start.Calm later := by
  refine bind (completeType room whole) ?_
  rintro middle _ _ ⟨-, calm⟩
  exact observe (ite (fun _ => pure calm)
    fun _ => (apart (.recordFault _ _)).weaken fun _ _ _ same => same ▸ calm)

theorem refuseNamespace
    {Value : Type}
    (decl : DeclId)
    (known : Worksite → Value → Prop) :
    Works input origin start (Elab.refuseNamespace decl) known :=
  observe (fail _ known)

/--
What completes the type of a declaration is calm, and then the declaration is
typed.
-/
private theorem raiseBehind
    {stmt? : Option StmtId}
    {decl : DeclId}
    {action : Elab Unit}
    (whole : start.Whole (.decl decl))
    (first : Works input origin start action fun later _ => start.Calm later) :
    Works input origin start
      (action >>= fun _ => Elab.raise decl .typeElaborated)
      fun later _ => start.Types stmt? decl later := by
  refine bind first fun middle _ onward calm => ?_
  refine (raise _ (onward.keeps.whole whole)).weaken
    fun later _ further known => ?_
  refine calm.calmly (known.2.weaken ?_ False.elim False.elim) onward.framed
    further.framed
  rintro _ _ ⟨rfl, rfl⟩
  exact ⟨rfl, .inl (.refl _ _)⟩

/--
The parameters of a template or of a concept are typed, and then it is itself.
-/
theorem raiseParms
    {decl : DeclId}
    {parms : List DeclId}
    (whole : start.Whole (.decl decl))
    (among : ∀ parm ∈ parms, start.Whole (.decl parm)) :
    Works input origin start
      (do
        Elab.raiseAll parms .typeElaborated
        Elab.raise decl .typeElaborated) fun later _ =>
          start.Steady (fun other reached => reached = .typeElaborated ∧
            (other = decl ∨ other ∈ parms)) (fun _ => False) (fun _ => False)
            later := by
  refine bind (raiseAll .typeElaborated among) fun middle _ onward first => ?_
  refine (raise .typeElaborated (onward.keeps.whole whole)).weaken
    fun later _ further known => ?_
  refine (first.weaken ?_ id id).trans (known.2.weaken ?_ id id) onward.framed
    further.framed
  · rintro _ _ ⟨listed, rfl⟩
    exact ⟨rfl, .inr listed⟩
  · rintro _ _ ⟨rfl, rfl⟩
    exact ⟨rfl, .inl rfl⟩

/-- The types of a declaration are completed. -/
theorem elaborateTypeWithin
    {depth : Nat}
    {stmt? : Option StmtId}
    {wrapper? : Option DeclId}
    {decl : DeclId}
    (whole : start.Whole (.decl decl))
    (enters : start.Enters stmt? wrapper? decl) :
    Works input origin start
      (Elab.elaborateTypeWithin depth stmt? wrapper? decl)
      fun later _ => start.Types stmt? decl later := by
  induction depth generalizing start stmt? wrapper? decl with
  | zero => exact exhaust _
  | succ depth inductionHypothesis =>
      refine given fun since =>
        observe (ite (fun early => ?_) fun _ => pure (.refl _))
      have room := since.sound.room_of_held whole.1
      have completed {type : TypeId} (inside : start.Whole (.type type)) :
          Works input origin start
            (Elab.completeType type (start.arena.decl decl).scope)
            fun later _ => start.Calm later :=
        (completeType room inside).weaken fun _ _ _ => And.right
      cases form : (start.arena.decl decl).form with
      | object role type definition =>
          have inside : start.Whole (.type type) :=
            since.sound.whole_of_form whole form (by simp [DeclForm.children])
          cases role with
          | base => exact raiseBehind whole (elaborateBase decl inside room)
          | _ => exact raiseBehind whole (completed inside)
      | parameter type =>
          exact raiseBehind whole
            (completed (since.sound.whole_of_form whole form
              (by simp [DeclForm.children])))
      | callable role params result definition =>
          refine (elaborateSignature whole enters form).weaken
            fun _ _ _ steady => ?_
          refine steady.weaken ?_ id fun same => same ▸ early
          rintro _ _ ⟨reached, rfl | placed⟩
          · exact ⟨reached, .inl (.refl _ _)⟩
          · exact ⟨reached, .inr placed⟩
      | classType kind definition =>
          exact raiseBehind whole
            (completed (since.sound.whole_of_form whole form
              (by simp [DeclForm.children])))
      | template parms constraint? inner =>
          have inside {term : Term} (owned :
              term ∈ (DeclForm.template parms constraint? inner).children) :
              start.Whole term := since.sound.whole_of_form whole form owned
          have around {site : Worksite}
              (onward : start.Onward input origin site) :
              ∃ parms constraint?, (site.arena.decl decl).form =
                .template parms constraint? inner := by
            rcases (onward.framed.decl whole.1).form with same |
                ⟨_, _, _, more, template, now, -⟩
            · exact ⟨parms, constraint?, same.trans form⟩
            · rw [form] at template
              cases template
              exact ⟨_, _, now⟩
          have typed : Works input origin start
              ((do
                Elab.raiseAll parms .typeElaborated
                Elab.raise decl .typeElaborated) >>= fun _ =>
                  Elab.elaborateTypeWithin depth none (some decl) inner)
              fun later _ => start.Types stmt? decl later := by
            refine bind (raiseParms whole fun parm listed =>
              inside (by simp [DeclForm.children, listed]))
                fun middle _ onward first => ?_
            have enters : middle.Enters none (some decl) inner :=
              ⟨onward.keeps.whole whole, around onward⟩
            refine (inductionHypothesis
              (onward.keeps.whole (inside (by simp [DeclForm.children])))
              enters).weaken fun later _ further second => ?_
            obtain ⟨parmsNow, constraintNow?, formNow⟩ :=
              around (onward.trans further)
            refine (first.weaken ?_ False.elim False.elim).trans
              (second.weaken ?_ ?_ onward.framed.phase_unelaborated)
              onward.framed further.framed
            · exact fun known => ⟨known.1, .inl (Arena.Comprises.of_parms
                ((onward.trans further).framed.decl whole.1) (form ▸ known.2))⟩
            · rintro _ _ ⟨reached, comprised | ⟨_, none, -⟩⟩
              · exact ⟨reached, .inl (comprised.template formNow)⟩
              · cases none
            · rintro _ ⟨-, _, none, -⟩
              cases none
          simpa only [bind_assoc] using typed
      | concept parms definition =>
          refine (raiseParms whole fun parm listed =>
            since.sound.whole_of_form whole form
            (by simp [DeclForm.children, listed])).weaken
              fun later _ onward known => ?_
          refine known.weaken (fun known => ?_) False.elim False.elim
          exact ⟨known.1,
            .inl (Arena.Comprises.of_parms (onward.framed.decl whole.1)
            (form ▸ known.2))⟩
      | typeParameter index default? =>
          have raised :=
            @raiseBehind input origin start stmt? decl (Pure.pure ()) whole
              (pure (.refl _))
          simpa only [pure_bind] using raised
      | namespaceBlock body => exact refuseNamespace decl _

/-- The declaration that a statement holds is read. -/
theorem readDeclaration
    {Next : Type}
    {stmt : StmtId}
    {next : Option DeclId → Elab Next}
    {final : Worksite → Next → Prop}
    (rest : Works input origin start
      (next (start.arena.stmt stmt).form.declared?) final) :
    Works input origin start (Elab.declarationOf? stmt >>= next) final := by
  intro state shows since
  have run : (Elab.declarationOf? stmt >>= next) input state =
      next (state.arena.stmt stmt).form.declared? input state := by
    simp only [Elab.declarationOf?, Elab.arena, Action.state, Bind.bind,
      Action.bind, Pure.pure, Action.pure]
    cases (state.arena.stmt stmt).form <;> rfl
  rw [run, shows.arena]
  exact rest state shows since

end Works

end Tern
