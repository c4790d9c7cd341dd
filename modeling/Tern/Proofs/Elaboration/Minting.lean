import Tern.Proofs.Building.Minting
import Tern.Proofs.Elaboration.Substitution
import Tern.Proofs.Elaboration.Working

namespace Tern

/-!
# Minting within the frame

Elaborators mint type parameters for the types to be inferred, and put the
functions they belong to into templates. Besides the slots that minting is
about, no term changes.
-/

/--
How elaboration comes by a declaration: as the one within a template, or else
as the one that a statement holds.
-/
def Worksite.Enters
    (site : Worksite)
    (stmt? : Option StmtId)
    (wrapper? : Option DeclId)
    (decl : DeclId) : Prop :=
  match wrapper? with
  | some wrapper => site.Whole (.decl wrapper) ∧ ∃ parms constraint?,
      (site.arena.decl wrapper).form = .template parms constraint? decl
  | none => ∃ stmt, stmt? = some stmt ∧ site.Whole (.stmt stmt) ∧
      (site.arena.stmt stmt).form = .declaration decl

namespace Elab

/--
A function that a statement holds is put into a new template, which takes its
place in the statement and in its overload set.
-/
theorem wrapInTemplate_run
    (input : ElabInput)
    (state : ElabState)
    (stmt : StmtId)
    (decl : DeclId)
    (parms : List DeclId) :
    let old := state.arena.decl decl
    let wrapping := state.arena.addDecl
      { name := old.name, specifiers := .none,
        form := .template parms none decl, span := old.span
        scope := old.scope, phase := .typeElaborated }
    let arena := wrapping.2.setStmtForm stmt (.declaration wrapping.1)
    wrapInTemplate (some stmt) decl parms input state =
      .done () { state with
        arena := arena
        scopes := (state.scopes.replaceMember? old.scope
          (arena.keyOf old.name) decl wrapping.1).getD
          (state.scopes.declare old.scope (arena.keyOf old.name)
            wrapping.1).2 } := by
  intro old wrapping arena
  obtain ⟨scopes, run, chosen⟩ : ∃ scopes : Scopes,
      wrapInTemplate (some stmt) decl parms input state =
          .done () { state with arena := arena, scopes := scopes } ∧
        scopes = (state.scopes.replaceMember? old.scope
          (arena.keyOf old.name) decl wrapping.1).getD
          (state.scopes.declare old.scope (arena.keyOf old.name)
            wrapping.1).2 := by
    refine ⟨_, rfl, ?_⟩
    dsimp only
    split
    · next replaced => exact (Option.getD_eq_iff.mpr (.inl replaced)).symm
    · next missing => exact (Option.getD_eq_iff.mpr (.inr ⟨missing, rfl⟩)).symm
  rw [run, chosen]

/-- A template gets parameters behind its own by one change of it. -/
theorem exists_extendTemplate_eq
    {arena : Arena}
    {wrapper inner : DeclId}
    {parms : List DeclId}
    {constraint? : Option ExprId}
    (form : (arena.decl wrapper).form = .template parms constraint? inner)
    (more : List DeclId) :
    ∃ change : Decl → Decl,
      extendTemplate wrapper more =
          changeArena (fun arena => arena.updateDecl wrapper change) ∧
        change (arena.decl wrapper) =
          { arena.decl wrapper with
            form := .template (parms ++ more) constraint? inner } :=
  ⟨_, rfl, by simp only [form]⟩

end Elab

namespace Works

variable {input : ElabInput} {origin : Arena} {start : Worksite}

/--
A type to be inferred for a parameter is minted; the type parameter is new and
at hand, and stands for the type.
-/
theorem mintTypeParam
    {decl : DeclId}
    {slot : TypeId}
    {scope : ScopeId}
    (index : Nat)
    (whole : start.Whole (.type slot))
    (inferred : (start.arena.type slot).form = .builtin .auto)
    (reached : start.arena.BelowParamOf decl slot)
    (room : scope.raw < start.table.size) :
    Works input origin start
        (Elab.mintTypeParam slot scope index) fun later parm =>
      .term (.decl parm) ::ₘ start.stock ≤ later.stock ∧ start.Spares later ∧
        start.CalmFor decl later ∧
        origin.Minted later.arena parm ∧ later.arena.StandsFor parm slot := by
  intro state shows since
  let span := (start.arena.type slot).span
  let named := start.arena.addPlaceholder span
  let parm : Decl :=
    { name := named.1, specifiers := .none, form := .typeParameter index none,
      span := span
      scope := scope, phase := .typeElaborated }
  let declared := named.2.addDecl parm
  let typed := declared.2.addType (.declared declared.1 named.1) span
  have empty : start.arena.children (.type slot) = [] := by
    rw [Arena.children, inferred]
    rfl
  obtain ⟨more, keeps, sound⟩ :=
    since.sound.mint span index .typeElaborated whole empty room
  have run : Elab.mintTypeParam slot scope index input state = .done declared.1
      { state with
        arena := typed.2.moveType slot typed.1
        scopes :=
          (state.scopes.declare scope (declared.2.keyOf named.1) declared.1).2
            } := by
    simp only [declared, typed, parm, named, span, ← shows.arena]
    rfl
  have extended : start.arena.Extends typed.2 :=
    (start.arena.extends_addPlaceholder span).trans
    ((named.2.extends_addDecl parm).trans (declared.2.extends_addType _ span))
  have fresh : ¬ start.arena.Holds (.type typed.1) := Nat.lt_irrefl _
  have apart : slot ≠ typed.1 := fun same => fresh (same ▸ whole.1)
  have shift := Arena.shifts_moveType (extended.holds whole.1) apart
  have reads {term : Term} (held : start.arena.Holds term)
      (other : term ≠ .type slot) :
      start.arena.Reads (typed.2.moveType slot typed.1) term :=
    (extended.reads held).trans (shift.reads term other fun same =>
      fresh (same ▸ held))
  have found : (typed.2.moveType slot typed.1).decl declared.1 = parm := by
    have same : (typed.2.moveType slot typed.1).decl declared.1 =
        typed.2.decl declared.1 :=
      shift.reads (.decl declared.1) Term.noConfusion Term.noConfusion
    exact same.trans (named.2.decl_addDecl parm)
  have new : origin.Minted (typed.2.moveType slot typed.1) declared.1 :=
    { fresh := fun held => Arena.not_holds_addDecl parm
        ((start.arena.extends_addPlaceholder span).holds (since.held held))
      held := (shift.holds _).mpr ((declared.2.extends_addType _ span).holds
        (Arena.holds_addDecl parm |>.mpr (.inr rfl)))
      form := ⟨index, by rw [found]⟩ }
  have now : (typed.2.moveType slot typed.1).type slot =
      { form := .declared declared.1 named.1, span := span } := by
    simp only [Arena.type_moveType (extended.holds whole.1), ↓reduceIte]
    exact declared.2.type_addType _ _
  have minted : Arena.TermFramed input origin start.arena
      (typed.2.moveType slot typed.1)
      (.type slot) := by
    refine .minted (.inl rfl) inferred now new ⟨by rw [found], by rw [found]⟩ ?_
    · refine reached.belowParam.mono
        (fun held => (shift.holds _).mpr (extended.holds held)) ?_ ?_
      · intro type inner wrapper form
        refine reads (Arena.holds_of_wrapped form) ?_
        rintro ⟨⟩
        simp [inferred] at form
      · intro decl held _
        have same : (typed.2.moveType slot typed.1).decl decl =
            start.arena.decl decl :=
          reads held Term.noConfusion
        exact congrArg Decl.form same
  have carries : Arena.Carries input.tokens start.arena
      (typed.2.moveType slot typed.1) := by
    refine .of_unfolds
      (.of_slot (fun held => (shift.holds _).mpr (extended.holds held)) reads
        ?_ ?_)
    · rw [Arena.range?, inferred]
      rfl
    · rw [empty]
      exact fun _ listed => absurd listed List.not_mem_nil
  have settles : Arena.Settles input.tokens start.arena
      (typed.2.moveType slot typed.1) := by
    have placed := start.arena.adding_addPlaceholder span
    have later : named.2.Extends typed.2 :=
      (named.2.extends_addDecl parm).trans (declared.2.extends_addType _ span)
    have kept : named.2.Reads (typed.2.moveType slot typed.1) (.name named.1) :=
      (later.reads placed.held).trans
        (shift.reads _ Term.noConfusion Term.noConfusion)
    refine .of_leaf (fun held => (shift.holds _).mpr (extended.holds held))
      reads ?_ ?_ ?_
      ((shift.holds _).mpr (later.holds placed.held))
        (kept.spanOf.trans placed.span_eq)
      (kept.children.trans placed.children_eq) rfl
    · rw [Arena.spanOf, now]
      rfl
    · rw [Arena.children, now]
      rfl
    · rw [Arena.range?, now]
      rfl
  have steady (site : Worksite)
      (arena : site.arena = typed.2.moveType slot typed.1)
      (table : site.table = start.table.put scope (declared.2.keyOf named.1)
        ((start.table.findLocal? scope (declared.2.keyOf named.1)).getD [] ++
          [declared.1])) :
      start.CalmFor decl site :=
    { phase := fun decl => by
        have same : (typed.2.moveType slot typed.1).decl decl =
            declared.2.decl decl :=
          (Arena.moved_moveType (extended.holds whole.1) typed.1).decl decl
        rw [arena]
        by_cases here : decl = declared.1
        · exact .inr (.inl (by rw [here, found]; rfl))
        · exact .inl (by rw [same, Arena.decl_addDecl_of_ne here]; rfl)
      members := fun was => .inl (by rw [table]; exact was.append declared.1)
      stmts := fun held form => by
        have same : (typed.2.moveType slot typed.1).stmts =
            start.arena.stmts := by
          unfold Arena.moveType
          split <;> rfl
        simp only [arena, Arena.Holds, Arena.stmt, same] at held form
        exact .inl ⟨held, form⟩
      restrained := arena ▸ .mint extended whole.1 fresh inferred reached }
  rw [run]
  refine ⟨_, ⟨rfl, ?_, ?_, shows.wellFormed.declare _ _ _⟩, ?_,
    ⟨sound, keeps, .of_slot
      (fun held => (shift.holds _).mpr (extended.holds held)) reads minted,
      carries, settles⟩, ?_, ⟨?_, fun held => reads held Term.noConfusion⟩,
        steady _ rfl rfl, new, ?_⟩
  · simp [Scopes.declare, Scopes.findLocal?, shows.table, declared, named, parm]
  · simp [Scopes.declare, shows.saved]
  · simp [Scopes.declare]
  · exact Multiset.cons_le_cons _ (Multiset.le_add_left _ _)
  · exact (Multiset.le_add_left _ _).trans (Multiset.le_cons_self _ _)
  · exact ⟨(shift.holds _).mpr
      (extended.holds whole.1), by rw [now, found], by rw [now, found]⟩

/--
A function that a statement holds is put into a new template, with type
parameters minted for it.
-/
private theorem wrapInTemplate
    {stmt : StmtId}
    {decl : DeclId}
    {parms params : List DeclId}
    {role : CallableRole}
    {result : TypeId}
    {definition : DefId}
    (whole : start.Whole (.stmt stmt))
    (holds : (start.arena.stmt stmt).form = .declaration decl)
    (callable : (start.arena.decl decl).form =
      .callable role params result definition)
    (loose : Piece.terms (parms.map Term.decl) ≤ start.stock)
    (minted : ∀ parm ∈ parms, origin.Minted start.arena parm)
    (stands : ∀ parm ∈ parms, start.arena.StandsWithin decl parm) :
    Works input origin start (Elab.wrapInTemplate (some stmt) decl parms)
        fun later _ =>
      start.Steady (fun other reached => reached = .typeElaborated ∧
          (later.arena.stmt stmt).form = .declaration other)
        (fun other => other = decl ∧ (later.arena.stmt stmt).form ≠
          .declaration other) (fun _ => False) later := by
  intro state shows since
  obtain ⟨rest, stock⟩ := Multiset.le_iff_exists_add.mp loose
  obtain ⟨arena, table, saved, _⟩ := start
  obtain ⟨rfl, rfl, rfl, wellFormed⟩ := shows
  subst stock
  obtain ⟨key, more, keyed, keeps, sound⟩ :=
    since.sound.wrap .typeElaborated whole holds
    (by simp [callable, DeclForm.isPlain])
  let old := state.arena.decl decl
  let wrapping := state.arena.addDecl
    { name := old.name, specifiers := .none, form := .template parms none decl,
      span := old.span
      scope := old.scope, phase := .typeElaborated }
  let after := wrapping.2.setStmtForm stmt (.declaration wrapping.1)
  have run : Elab.wrapInTemplate (some stmt) decl parms input state = _ :=
    Elab.wrapInTemplate_run input state stmt decl parms
  have extended : state.arena.Extends wrapping.2 :=
    state.arena.extends_addDecl _
  have reads {term : Term} (held : state.arena.Holds term)
      (other : term ≠ .stmt stmt) :
      state.arena.Reads after term :=
    (extended.reads held).trans (Arena.reads_setStmtForm other _)
  have held {term : Term} (was : state.arena.Holds term) : after.Holds term :=
    Arena.holds_setStmtForm.mpr (extended.holds was)
  have inner : after.decl decl = old :=
    reads (Arena.holds_of_form callable nofun) Term.noConfusion
  have found : after.decl wrapping.1 =
      { name := old.name, specifiers := .none,
        form := .template parms none decl, span := old.span
        scope := old.scope, phase := .typeElaborated } :=
    state.arena.decl_addDecl _
  have wraps : origin.Wraps after decl wrapping.1 :=
    { fresh := fun was => Arena.not_holds_addDecl _ (since.held was)
      held :=
        Arena.holds_setStmtForm.mpr (Arena.holds_addDecl _ |>.mpr (.inr rfl))
      name := by rw [found, inner]
      span := by rw [found, inner]
      scope := by rw [found, inner]
      form := ⟨parms, by rw [found], fun parm listed => by
        obtain ⟨fresh, was, index, form⟩ := minted parm listed
        have same : after.decl parm = state.arena.decl parm :=
          reads was Term.noConfusion
        exact ⟨fresh, held was, index, same ▸ form⟩⟩ }
  have now : after.stmt stmt =
      { form := .declaration wrapping.1,
        span := (state.arena.stmt stmt).span } := by
    rw [Arena.node_setStmtForm (extended.holds whole.1)]
    rfl
  have framed : Arena.Framed input origin state.arena after :=
    .of_slot held reads
      (.wrapped holds ((congrArg Decl.form inner).trans callable) now wraps)
  have carries : Arena.Carries input.tokens state.arena after := by
    refine .of_unfolds (.of_slot held reads ?_ fun term owned => ?_)
    · rw [Arena.range?, holds]
      rfl
    · obtain rfl : term = .decl decl := by
        simpa [Arena.children, holds, StmtForm.children] using owned
      refine .child (.child .self (held whole.1) (Arena.not_holds_empty _) ?_)
        wraps.held
        (Arena.not_holds_empty _) ?_
      · rw [Arena.children, now]
        exact List.mem_singleton_self _
      · rw [Arena.children, found]
        simp [DeclForm.children]
  have settles : Arena.Settles input.tokens state.arena after :=
    .of_wrapper held reads holds now wraps.held (by rw [found]) (by rw [found])
      (by rw [found])
      fun laid parm listed =>
        laid.minted (minted parm listed) (stands parm listed)
  obtain ⟨current, wellFormedNow, further, keepsFurther, settled⟩ :=
    sound.supplant wellFormed decl
  have apart : wrapping.1 ≠ decl := by
    rintro same
    exact state.arena.not_holds_addDecl
      _ (same ▸ Arena.holds_of_form callable nofun)
  have room : old.scope.raw < state.scopes.table.size :=
    (since.sound.fit _ (Arena.holds_of_form callable nofun)).scope _ rfl
  obtain ⟨member, members⟩ := Scopes.enlists_supplant room key decl wrapping.1
  rw [run, keyed]
  refine ⟨_, ⟨rfl, rfl, rfl, wellFormedNow⟩, current,
    ⟨settled, keeps.trans keepsFurther, framed, carries, settles⟩, fun other =>
      ?_, fun was => ?_, fun {other holder} stored form => ?_,
    .of_reads held (fun stored _ => reads stored Term.noConfusion)
      fun stored => congrArg Decl.form (reads stored Term.noConfusion)⟩
  · by_cases known : state.arena.Holds (.decl other)
    · exact .inl (congrArg Decl.phase (reads known Term.noConfusion))
    by_cases new : other = wrapping.1
    · subst new
      exact .inr (.inr ⟨congrArg Decl.phase found, congrArg Node.form now⟩)
    · have missing : ¬ after.Holds (.decl other) := fun was =>
        (Arena.holds_addDecl _ |>.mp (Arena.holds_setStmtForm.mp was)).elim
          known
          fun same => new (Term.decl.inj same)
      exact .inl ((Arena.phase_of_not_holds missing).trans
        (Arena.phase_of_not_holds known).symm)
  · refine (members was).imp_right ?_
    rintro rfl
    exact ⟨rfl, fun same =>
      apart
      (StmtForm.declaration.inj ((congrArg Node.form now).symm.trans same))⟩
  · by_cases here : other = stmt
    · subst here
      obtain rfl : wrapping.1 = holder :=
        StmtForm.declaration.inj ((congrArg Node.form now).symm.trans form)
      exact .inr (.inl member)
    · have was : state.arena.Holds (.stmt other) :=
        (Arena.holds_addDecl _ |>.mp (Arena.holds_setStmtForm.mp stored)).elim
          id Term.noConfusion
      have same : after.stmt other = state.arena.stmt other :=
        reads was fun same => here (Term.stmt.inj same)
      exact .inl ⟨was, same ▸ form⟩

/-- A template gets more parameters, which were minted. -/
private theorem extendTemplate
    {wrapper inner : DeclId}
    {parms more : List DeclId}
    {constraint? : Option ExprId}
    (whole : start.Whole (.decl wrapper))
    (form : (start.arena.decl wrapper).form = .template parms constraint? inner)
    (loose : Piece.terms (more.map Term.decl) ≤ start.stock)
    (minted : ∀ parm ∈ more, origin.Minted start.arena parm)
    (stands : ∀ parm ∈ more, start.arena.StandsWithin inner parm)
    (plain : (start.arena.decl inner).form.isParam = false) :
    Works input origin start (Elab.extendTemplate wrapper more) fun later _ =>
      start.CalmFor inner later := by
  obtain ⟨rest, stock⟩ := Multiset.le_iff_exists_add.mp loose
  obtain ⟨arena, table, saved, _⟩ := start
  subst stock
  obtain ⟨change, run, changed⟩ := Elab.exists_extendTemplate_eq form more
  rw [run]
  have found : (arena.updateDecl wrapper change).decl wrapper =
      change (arena.decl wrapper) :=
    Arena.decl_updateDecl whole.1 change
  have held {term : Term} (was : arena.Holds term) :
      (arena.updateDecl wrapper change).Holds term :=
    (Arena.holds_updateDecl change term).mpr was
  have later : Arena.DeclFramed origin arena (arena.updateDecl wrapper change)
      wrapper := by
    rw [changed] at found
    refine ⟨by rw [found], by rw [found], by rw [found], by rw [found],
      by rw [found], .inr ⟨parms, constraint?, inner, more, form, by rw [found],
        fun parm listed => ?_⟩⟩
    obtain ⟨fresh, was, index, kind⟩ := minted parm listed
    have apart : parm ≠ wrapper := by
      rintro rfl
      simp [form] at kind
    exact ⟨fresh, held was, index,
      (Arena.decl_updateDecl_of_ne apart change).symm ▸ kind⟩
  have framed : Arena.Framed input origin arena
      (arena.updateDecl wrapper change) :=
    .of_slot held (fun _ apart => Arena.reads_updateDecl apart change) later
  have carries :
      Arena.Carries input.tokens arena (arena.updateDecl wrapper change) :=
    .updateDecl whole.1 fun term owned => by
      rw [Arena.children, found, changed]
      rw [Arena.children, form] at owned
      simp only [DeclForm.children, List.map_append, List.mem_cons,
        List.mem_append] at owned ⊢
      tauto
  have settles :
      Arena.Settles input.tokens arena (arena.updateDecl wrapper change) := by
    refine .updateDecl whole.1 (by rw [changed]) fun laid child listed => ?_
    have known : child ∈ arena.children (.decl wrapper) ∨
        child ∈ more.map Term.decl := by
      rw [Arena.children, found, changed] at listed
      rw [Arena.children, form]
      simp only [DeclForm.children, List.map_append, List.mem_cons,
        List.mem_append] at listed ⊢
      rcases listed with name | ((old | added) | constraint) | inner
      · exact .inl (.inl name)
      · exact .inl (.inr (.inl (.inl old)))
      · exact .inr added
      · exact .inl (.inr (.inl (.inr constraint)))
      · exact .inl (.inr (.inr inner))
    rcases known with owned | added
    · exact laid.owned owned
    · obtain ⟨parm, minting, rfl⟩ := List.mem_map.mp added
      have around : .decl inner ∈ arena.children (.decl wrapper) := by
        simp [Arena.children, form, DeclForm.children]
      obtain ⟨laidInner, within⟩ := laid.owned around
      obtain ⟨laidParm, inside⟩ :=
        laidInner.minted (minted parm minting) (stands parm minting)
      exact ⟨laidParm, inside.trans within⟩
  have steady : Worksite.CalmFor inner
      { arena := arena, table := table, saved := saved
        stock := Piece.terms (more.map Term.decl) + rest }
      { arena := arena.updateDecl wrapper change, table := table,
        saved := saved, stock := rest } :=
    { phase := fun other =>
      .inl (Arena.phase_updateDecl (by rw [changed]) other)
      members := .inl
      stmts := fun held form => .inl ⟨held, form⟩
      restrained := .extendTemplate form (by rw [changed]) plain }
  refine Works.weaken (changeArena rest framed carries settles fun sound => ?_)
    fun later _ _ same => same ▸ steady
  have trade : (more.map Term.decl ++ (arena.decl wrapper).form.children).Perm
      ([] ++ (change (arena.decl wrapper)).form.children) := by
    simp only [changed, form, DeclForm.children, List.map_append,
      List.nil_append, List.append_assoc]
    exact (List.perm_append_comm_assoc _ _ _)
  have updated :=
    @Worksite.Sound.update arena table saved rest wrapper change _ []
      sound whole
    (by rw [changed]) (by rw [changed]) (by rw [changed, form]; rfl) (by simp)
      trade fun _ _ _ _ now => by simp [changed] at now
  rw [Piece.terms_nil, zero_add] at updated
  exact updated

/--
The type parameters minted for a function go to the template around it, or to a
new one.
-/
theorem addTemplateParams
    {stmt? : Option StmtId}
    {wrapper? : Option DeclId}
    {decl : DeclId}
    {minted params : List DeclId}
    {role : CallableRole}
    {result : TypeId}
    {definition : DefId}
    (held : start.Enters stmt? wrapper? decl)
    (callable : (start.arena.decl decl).form =
      .callable role params result definition)
    (loose : Piece.terms (minted.map Term.decl) ≤ start.stock)
    (new : ∀ parm ∈ minted, origin.Minted start.arena parm)
    (stands : ∀ parm ∈ minted, start.arena.StandsWithin decl parm) :
    Works input origin start (Elab.addTemplateParams stmt? decl wrapper? minted)
        fun later _ =>
      start.Steady (fun other reached => reached = .typeElaborated ∧
          ∃ stmt ∈ stmt?, (later.arena.stmt stmt).form = .declaration other)
        (fun other => other = decl ∧
          ∃ stmt ∈ stmt?, (later.arena.stmt stmt).form ≠ .declaration other)
        (· = decl) later := by
  refine ite (fun _ => pure (.refl _)) fun _ => ?_
  cases wrapper? with
  | some wrapper =>
      obtain ⟨whole, parms, constraint?, form⟩ := held
      have plain : (start.arena.decl decl).form.isParam = false := by
        rw [callable]
        rfl
      exact (extendTemplate whole form loose new stands plain).weaken
        fun _ _ _ steady =>
          steady.weaken False.elim False.elim id
  | none =>
      obtain ⟨stmt, rfl, whole, form⟩ := held
      refine (wrapInTemplate whole form callable loose new stands).weaken
        fun _ _ _ steady => ?_
      exact steady.weaken (fun ⟨reached, holds⟩ => ⟨reached, stmt, rfl, holds⟩)
        (fun ⟨same, holds⟩ => ⟨same, stmt, rfl, holds⟩) False.elim

end Works

end Tern
