import Tern.Proofs.Building.Objects

namespace Tern

/-!
# Declarations with a scope of their own are built

Namespaces, concepts and templates bind what stands in them in a scope of their
own. A declaration that is bound before what stands in it is begun first, and is
completed in its slot at the end.
-/

namespace Builds

variable {Value First : Type} {order : Order} {input : ParserInput}
  {scope : ScopeId}
  {facts : List Piece} {pre kept : Stock} {start : Nat}
    {post : Nat → Value → Stock → Prop}

/-- A declaration may be bound for good and be known to be bound. -/
private theorem keepBound
    {parser : Parser Value}
    {decl : DeclId}
    {key : Key}
    (builds : Builds order input scope (.bound decl scope key :: facts)
      ({.bound decl scope key} + pre) start parser post) :
    Builds order input scope facts ({.bound decl scope key} + pre) start parser
      post := by
  refine first (fun state rest _ _ _ => ?_) (keep builds)
  have listed : Piece.bound decl scope key ∈ {.bound decl scope key} + pre +
      rest := by simp
  refine .head (.noteAgain listed) (regroup ?_)
  exact (Multiset.singleton_add _ _).symm.trans (add_assoc _ _ _).symm

/-- A declaration is begun under an identifier and bound where it began. -/
theorem hollowBound
    {name : NameId}
    {spelling : Name}
    {specifiers : Specifiers}
    {form : DeclForm}
    {span : Span}
    {place lower : Nat}
    {next : DeclId → Parser Value}
    (hollow : form.hollow = form)
    (named : .named name (.simple spelling) true ∈ facts)
    (room : .room scope ∈ facts)
    (starts : order.kept → span.start = order.startOf place)
    (behind : lower ≤ place)
    (rest : ∀ decl later, start ≤ later →
      Builds order input scope
        (.bound decl scope (.simple spelling) :: .since decl place :: facts)
        ({.bound decl scope (.simple spelling)} + ({.binder scope (place + 1)} +
          ({.begun decl} + {.unsaved decl})))
        later (next decl) post) :
    Builds order input scope facts {.binder scope lower} start
      (do
        let decl ← Parser.addDecl name specifiers form span
        Parser.bindDecl decl
        next decl) post := by
  refine call (addHollow hollow named room starts) ?_
  rintro decl later _ onward rfl
  refine leaving ({.since decl place} + ({.begun decl} + {.unsaved decl})) ?_
    (bindDecl (.simple spelling) behind) ?_
  · abel
  rintro _ last _ further rfl
  have regroup :
      ({.binder scope (place + 1)} + {.bound decl scope (.simple spelling)} +
      ({.since decl place} + ({.begun decl} + {.unsaved decl})) : Stock) =
        {.since decl place} + ({.bound decl scope (.simple spelling)} +
          ({.binder scope (place + 1)} +
            ({.begun decl} + {.unsaved decl}))) := by
    abel
  rw [regroup]
  exact keep (keepBound (rest decl last (Nat.le_trans onward further)))

/-- Nothing is bound, and the right to bind in the scope is given on. -/
private theorem bindingOn :
    Builds order input scope facts {.binder scope start} start (Pure.pure ())
      fun later _ out => out = {.binder scope later} := by
  rw [← add_zero {Piece.binder scope start}]
  exact pureRelaxed (Nat.le_refl _) fun _ _ => add_zero _

/-- A declaration gets a scope of its own, further in. -/
theorem regionOf
    {decl : DeclId}
    {kind : ScopeKind}
    {next : ScopeId → Parser Value}
    (kept : Stock)
    (split : pre = {.unsaved decl} + kept)
    (room : .room scope ∈ facts)
    (rest : ∀ region later, start ≤ later → scope.raw < region.raw →
      Builds order input scope (.saved decl region :: .room region :: facts)
        ({.binder region 0} + kept) later (next region) post) :
    Builds order input scope facts pre start
      (Parser.scopeFor decl kind >>= next) post := by
  refine leaving kept split (scopeFor kind room) ?_
  rintro region later _ onward ⟨within, rfl⟩
  have regroup :
      ({.saved decl region} + {.room region} + {.binder region 0} + kept :
        Stock) =
      {.room region} +
        ({.saved decl region} + ({.binder region 0} + kept)) := by
    abel
  rw [regroup]
  exact keep (keep (rest region later onward within))

/-- A declaration that was bound where it began is completed last. -/
theorem completedLast
    {decl : DeclId}
    {form : DeclForm}
    {span : Span}
    {place : Nat}
    (spelling : Name)
    (unused : Stock)
    (split : pre = {.begun decl} + Piece.terms form.children +
      ({.bound decl scope (.simple spelling)} + {.binder scope (place + 1)} +
        unused))
    (reads : order.Reads input)
    (starts : order.kept → span.start = order.startOf place)
    (past : place < start)
    (bound : .bound decl scope (.simple spelling) ∈ facts)
    (since : .since decl place ∈ facts)
    (located : ∀ stock : Stock, (∀ fact ∈ facts, fact ∈ stock) →
      stock.Locates decl form)
    (rests : order.kept → ∀ stock : Stock, (∀ fact ∈ facts, fact ∈ stock) →
      stock.Rests order.eager decl form) :
    Builds order input scope facts pre start
      (do
        let whole ← Parser.spanFrom span
        Parser.completeDecl decl form whole
        Pure.pure decl) (givesDecl scope) := by
  refine spannedFrom reads starts past fun whole begins => leaving _ split
    (completeDecl located ⟨scope, spelling, bound⟩
      (fun ordered => ⟨place, since, begins ordered⟩) rests) ?_
  rintro _ later _ onward rfl
  refine relaxedBehind scope (pureSome unused ?_ fun last further =>
    ⟨place + 1, {.term (.decl decl)} +
      {.bound decl scope (.simple spelling)}, by omega, rfl,
      .simple spelling, (add_assoc _ _ _).symm⟩)
  abel

end Builds

namespace Rules.Build

open Tern.Builds

variable {order : Order} {input : ParserInput} {scope : ScopeId}
  {facts : List Piece}
  {start : Nat} {rules : Rules} (build : rules.Build order input)
    (room : .room scope ∈ facts)

include build room

theorem namespaceDeclaration :
    Builds order input scope facts {.binder scope start} start
      rules.namespaceDeclaration
      (givesDecl scope) := by
  refine announced
      build.reads fun span specifiers place later onward past starts =>
    identified build.reads fun name spelling named further _ =>
      hollowBound rfl (List.mem_cons_self ..)
      (List.mem_cons_of_mem _ room) starts onward fun decl after behind => ?_
  refine regionOf
    ({.bound decl scope (.simple spelling)} + {.binder scope (place + 1)} +
    {.begun decl}) ?_ (by simp [room]) fun region inner beyond _ => ?_
  · abel
  refine leaving
    ({.bound decl scope (.simple spelling)} + {.binder scope (place + 1)} +
    {.begun decl}) rfl
    (enclosed (build.memberBody (by simp))) ?_
  rintro body last _ final rfl
  refine completedLast spelling 0 ?_ build.reads starts (by omega) (by simp)
    (by simp)
    (fun _ _ => trivial) fun _ _ _ => trivial
  simp only [DeclForm.children, Piece.terms_cons, Piece.terms_nil]
  abel

private theorem defaultType? :
    Builds order input scope facts 0 start
        rules.defaultType? fun _ default? out =>
      out = Piece.terms (default?.toList.map .type) :=
  eaten (given (build.type room) fun type _ _ => pure fun _ _ => by simp)
    (pure fun _ _ => rfl)

/-- A template parameter is bound and joins the template context. -/
private theorem templateParam :
    Builds order input scope facts {.binder scope start} start
      rules.templateParam
      fun later _ out => out = {.binder scope later} := by
  refine begun build.reads fun span place onward starts =>
    expected build.reads nofun fun later past inside =>
      identifiedOrMinted build.reads fun name key =>
        call (build.defaultType? (List.mem_cons_of_mem _ room)) ?_
  rintro default? typed _ behind rfl
  refine next (observe _) fun track => ?_
  split
  · exact failAt _ _
  next context =>
    refine spannedFrom build.reads (fun ordered => starts ordered inside)
      (by omega)
      fun whole begins => leaving {.binder scope start} ?_
        (addLeaf (List.mem_cons_self ..) (List.mem_cons_of_mem _ room) begins
          rfl) ?_
    · simp only [DeclForm.children]
      abel
    rintro decl last _ further rfl
    refine leaving
      ({.term (.decl decl)} + ({.unsaved decl} + {.since decl place})) ?_
      (bindDecl key onward) ?_
    · abel
    rintro _ bound _ beyond rfl
    have regroup : ({.binder scope (place + 1)} + {.bound decl scope key} +
        ({.term (.decl decl)} + ({.unsaved decl} + {.since decl place})) :
          Stock) =
          {.bound decl scope key} + {.unsaved decl} + {.since decl place} +
            ({.binder scope (place + 1)} + {.term (.decl decl)}) := by
      abel
    rw [regroup]
    exact drop
        (besideBinder (by omega) ((joinTemplate decl).weaken fun _ _ _ _ same =>
      same ▸ add_zero _))

theorem templateParams :
    Builds order input scope facts {.binder scope start} start
      rules.templateParams
      fun later _ out => out = {.binder scope later} := by
  refine bind (add_zero _).symm (build.templateParam room) ?_
  rintro _ later _ - rfl
  rw [add_zero]
  exact eaten (build.parse .templateParams later room) bindingOn

private theorem templateParamClause :
    Builds order input scope facts {.binder scope start} start
      rules.templateParamClause
      fun later _ out => out = {.binder scope later} := by
  refine next (expectAny _) fun _ => bind (add_zero _).symm
    (checked bindingOn (build.parse .templateParams start room)) ?_
  rintro _ later _ - rfl
  refine besideBinder (Nat.le_refl _)
    ((expectAny _).weaken fun _ _ _ _ same => ?_)
  obtain rfl : _ = 0 := same
  exact add_zero _

private theorem templateConstraint :
    Builds order input scope facts 0 start rules.templateConstraint
      nothing := by
  refine eaten (given (build.parse (.tier .or) start room) fun constraint _ _ =>
    ?_)
    (pure fun _ _ => rfl)
  rw [add_zero]
  exact constrainTemplate constraint

/-- What stands in the scope of a template gives the declaration in it. -/
private theorem templateBody :
    Builds order input scope facts {.binder scope start} start
      rules.templateBody
      (givesDecl scope) := by
  refine bind (add_zero _).symm (build.templateParamClause room) ?_
  rintro _ later _ - rfl
  rw [add_zero]
  refine next (build.templateConstraint room) fun _ => ?_
  exact build.parse .declaration later room

theorem templateDeclaration :
    Builds order input scope facts {.binder scope start} start
      rules.templateDeclaration
      (givesDecl scope) := by
  refine begun build.reads fun span place onward starts =>
    expected build.reads nofun fun later past inside =>
      call (addTemplate room fun ordered => starts ordered inside) ?_
  rintro decl added _ further rfl
  refine regionOf ({.begun decl} + {.unnamed decl scope place} +
    {.binder scope start}) ?_ room
    fun region inner behind within => ?_
  · abel
  refine leaving
    ({.begun decl} + {.unnamed decl scope place} + {.binder scope start}) rfl
    (enclosed (withTemplate (build.templateBody (by simp)))) ?_
  rintro ⟨found, context⟩ parsed _ beyond ⟨_, ⟨key, rfl⟩, rfl⟩
  refine spannedFrom build.reads (fun ordered => starts ordered inside)
    (by omega)
    fun whole begins => ?_
  have regroup :
      ({.binder region parsed} + {.term (.decl found)} +
        {.bound found region key} +
      context.pieces +
        ({.begun decl} + {.unnamed decl scope place} + {.binder scope start}) :
        Stock) = {.bound found region key} +
          ({.binder region parsed} + ({.begun decl} +
          {.unnamed decl scope place} + Piece.terms
            (DeclForm.template context.parms context.constraint?
              found).children +
              {.binder scope start})) := by
    simp only [TemplateContext.pieces, DeclForm.children, Piece.terms_append,
      Piece.terms_cons, Piece.terms_nil]
    abel
  rw [regroup]
  refine keep (drop (leaving {.binder scope start} rfl
    (completeTemplate within (List.mem_cons_self ..) begins) ?_))
  rintro _ completed _ last ⟨notes, rfl⟩
  refine boundLast key notes ?_ onward (by omega)
  abel

private theorem conceptMember :
    Builds order input scope facts 0 start rules.conceptMember
      (gives .requirement) := by
  have syntactic :
      Builds order input scope facts 0 start rules.syntacticRequirement
      (gives .requirement) :=
    requirementOf (next (expectAny _) fun _ =>
      given (build.expression room) fun expr _ _ =>
      pure fun _ _ => by simp [ReqForm.children])
  have plain : Builds order input scope facts 0 start rules.plainConceptMember
      (gives .requirement) :=
    requirementOf (checked (build.typeRequirement room)
      (given (build.expression room) fun expr _ _ => pure fun _ _ =>
        by simp [ReqForm.children]))
  exact checked (either (build.composedOf ⟨[], true, 11, False, False⟩
    .syntacticRequirement rfl) syntactic plain) plain

theorem conceptMembers :
    Builds order input scope facts 0 start rules.conceptMembers
      (givesAll .requirement) :=
  Builds.bracedItems (build.conceptMember room) fun later =>
    build.parse .conceptMembers later room

private theorem conceptDefinition :
    Builds order input scope facts 0 start rules.conceptDefinition
      (gives .definition) :=
  next (observe _) fun _ => eaten
    (given (build.expressionToSemicolon room) fun _ _ _ => spanned fun _ =>
      addPlainDefinition (by simp [DefForm.children]) rfl)
    (next (expectAny _) fun _ =>
      givenAll (build.parse .conceptMembers start room) fun _ _ _ =>
      spanned fun _ => addPlainDefinition (add_zero _) rfl)

/--
The parameters of a concept are bound in its scope; a constraint they can not
have.
-/
private theorem conceptBody :
    Builds order input scope facts {.binder scope start} start rules.conceptBody
      fun _ parts out =>
        out = Piece.terms (parts.1.map .decl) +
          {.term (.definition parts.2)} := by
  refine bind (add_zero _).symm (withTemplate (build.templateParamClause room))
    ?_
  rintro ⟨_, context⟩ later _ - ⟨_, rfl, rfl⟩
  refine given (build.conceptDefinition room) fun definition last _ => ?_
  refine pureSome ({.binder scope later} +
    Piece.terms (context.constraint?.toList.map .expr)) ?_
    fun _ _ => rfl
  simp only [TemplateContext.pieces, Piece.terms_append]
  abel

theorem conceptDeclaration :
    Builds order input scope facts {.binder scope start} start
      rules.conceptDeclaration
      (givesDecl scope) := by
  refine announced
      build.reads fun span specifiers place later onward past starts =>
    identified build.reads fun name spelling named further _ =>
      hollowBound rfl (List.mem_cons_self ..)
      (List.mem_cons_of_mem _ room) starts onward fun decl after behind => ?_
  refine regionOf
    ({.bound decl scope (.simple spelling)} + {.binder scope (place + 1)} +
    {.begun decl}) ?_ (by simp [room]) fun region inner beyond _ => ?_
  · abel
  refine leaving
    ({.bound decl scope (.simple spelling)} + {.binder scope (place + 1)} +
    {.begun decl}) rfl
    (enclosed (build.conceptBody (by simp))) ?_
  rintro ⟨parms, definition⟩ last _ final rfl
  refine completedLast spelling 0 ?_ build.reads starts (by omega) (by simp)
    (by simp)
    (fun _ _ => trivial) fun _ _ _ => trivial
  simp only [DeclForm.children, Piece.terms_append, Piece.terms_cons,
    Piece.terms_nil]
  abel

end Rules.Build

end Tern
