import Tern.Proofs.Building.Additions

namespace Tern

/-!
# Scopes and declarations

A scope that is added comes with the right to bind in it. A declaration is begun
where it is read, and is bound later on by whoever has that right. A parser that
adds a declaration with its name and form at once does in one step what takes
several steps of building.
-/

/--
What is added to an arena and changed at once is added as it was changed to.
-/
theorem Arena.updateDecl_addDecl
    (arena : Arena)
    (decl : Decl)
    (change : Decl → Decl) :
    (arena.addDecl decl).2.updateDecl (arena.addDecl decl).1 change =
      (arena.addDecl (change decl)).2 := by
  rw [updateDecl, decl_addDecl]
  simp only [addDecl, Arena.mk.injEq, true_and, and_true]
  exact Array.ext_getElem? fun place => by
    rw [Array.getElem?_setIfInBounds, Array.getElem?_push, Array.getElem?_push]
    by_cases last : place = arena.decls.size
    · simp [last]
    · simp [last, Ne.symm last]

/-- The key of a name that has one of its own. -/
theorem Arena.keyOf_of_key?
    {arena : Arena}
    {name : NameId}
    {key : Key}
    (keyed : (arena.name name).form.key? = some key) :
    arena.keyOf name = key := by
  rw [keyOf, keyWithin]
  revert keyed
  cases (arena.name name).form <;> simp [NameForm.key?]

/-- A hollow form is as hollow as can be. -/
@[simp]
theorem DeclForm.hollow_hollow (form : DeclForm) :
    form.hollow.hollow = form.hollow := by
  cases form <;> rfl

namespace Builds

variable {Value First : Type} {order : Order} {input : ParserInput}
  {scope : ScopeId}
  {facts : List Piece} {pre : Stock} {start : Nat}
    {post : Nat → Value → Stock → Prop}

/-- A scope is added inside the current one. -/
theorem pushScope (kind : ScopeKind) (room : .room scope ∈ facts) :
    Builds order input scope facts 0 start
        (Parser.pushScope kind) fun _ region out =>
      out = {.room region} + {.binder region 0} :=
  of_done fun state rest stands known _ => by
    refine ⟨_, _, _, rfl,
      { current := by simpa [Scopes.push] using stands.current
        wellFormed := stands.wellFormed.push _ _
        onward := Nat.le_refl _
        inside := stands.inside }, fun _ => rfl, rfl, .single ?_⟩
    have step : BuildStep order (state.site (0 + rest)) _ :=
      @BuildStep.push order _ _ _ _ kind scope
        (Multiset.mem_add.mpr (.inr (known _ room)))
    simpa [ParserState.site, Scopes.push, stands.current] using step

/-- A scope of its own, further in, is added for a declaration that has none. -/
theorem scopeFor
    {decl : DeclId}
    (kind : ScopeKind)
    (room : .room scope ∈ facts) :
    Builds order input scope facts {.unsaved decl} start
      (Parser.scopeFor decl kind)
      fun _ region out => scope.raw < region.raw ∧
        out = {.saved decl region} + {.room region} + {.binder region 0} :=
  of_done fun state rest stands known sound => by
    have free : state.scopes.savedScope? decl = none :=
      (sound.unsaved decl (by simp [ParserState.site])).2
    have within : scope.raw < state.scopes.table.size :=
      sound.backed (.room scope) (Multiset.mem_add.mpr (.inr (known _ room)))
    refine ⟨_, _, _, rfl,
      { current := by
          simpa [Scopes.scopeFor, free, Scopes.push] using stands.current
        wellFormed := stands.wellFormed.scopeFor _ _ _
        onward := Nat.le_refl _
        inside := stands.inside }, fun _ => rfl,
      ⟨by simpa [Scopes.scopeFor, free, Scopes.push] using within, rfl⟩, ?_⟩
    have stock : (.room scope : Piece) ∈ {Piece.unsaved decl} + rest :=
      Multiset.mem_add.mpr (.inr (known _ room))
    have pushed : BuildStep order (state.site ({.unsaved decl} + rest)) _ :=
      @BuildStep.push order _ _ _ _ kind scope stock
    have saved := @BuildStep.save order state.arena
      (state.scopes.table.push
        { parent? := some scope, kind := kind, bindings := [] })
      state.scopes.saved
      (.room { raw := state.scopes.table.size } ::ₘ .binder
        { raw := state.scopes.table.size } 0 ::ₘ
        rest) decl { raw :=
          state.scopes.table.size } (Multiset.mem_cons_self ..)
    refine .trans (.single pushed) (.single ?_)
    have regroup : Piece.room { raw := state.scopes.table.size } ::ₘ
        .binder { raw := state.scopes.table.size } 0 ::ₘ
          ({.unsaved decl} + rest) =
          .unsaved decl ::ₘ .room { raw := state.scopes.table.size } ::ₘ
            .binder { raw := state.scopes.table.size } 0 ::ₘ rest := by
      simp only [← Multiset.singleton_add]
      abel
    rw [regroup]
    simpa [ParserState.site, Scopes.scopeFor, free, Scopes.push, stands.current,
      add_assoc]
      using saved

/-- A parser builds in an entered scope as it does there. -/
theorem within
    {region : ScopeId}
    {parser : Parser Value}
    (builds : Builds order input region facts pre start parser post) :
    Builds order input scope facts pre start (Parser.within region parser)
      post := by
  intro state grounded frame stands known sound
  have ended :=
    builds { state with scopes := state.scopes.enter region } grounded frame
    { current := rfl
      wellFormed := stands.wellFormed.enter _
      onward := stands.onward
      inside := stands.inside } known sound
  rw [Parser.within_run]
  cases ending :
      parser input { state with scopes := state.scopes.enter region } with
  | done value after =>
      rw [ending] at ended
      obtain ⟨standsAfter, out, more, given, steps⟩ := ended
      exact ⟨{ current := stands.current
               wellFormed := standsAfter.wellFormed.enter _
               onward := standsAfter.onward
               inside := standsAfter.inside }, out, more, given, steps⟩
  | failed error after =>
      rw [ending] at ended
      obtain ⟨-, wellFormed, more, steps⟩ := ended
      exact ⟨stands.current, wellFormed.enter _, more, steps⟩
  | exhausted => trivial

section

variable {name : NameId} {key : Key} {spelling : Name} {specifiers : Specifiers}
  {form : DeclForm}
  {span : Span} {place : Nat} {arena : Arena} {table : ScopeTable}
    {saved : List (DeclId × ScopeId)}
  {stock : Stock}

/--
A declaration is begun and gets an identifier for a name, and it is noted where
it began.
-/
private theorem begin_christen
    (hollow : form.hollow = form)
    (named : .named name (.simple spelling) true ∈ stock)
    (room : .room scope ∈ stock)
    (starts : order.kept → span.start = order.startOf place) :
    BuildSteps order { arena := arena, table := table, saved := saved,
                       stock := stock }
      { arena := (arena.addDecl
          { name := name, specifiers := specifiers, form := form, span := span,
            scope := scope
            phase := .unelaborated }).2
        table := table, saved := saved
        stock := {.begun { raw := arena.decls.size }} +
          {.unsaved { raw := arena.decls.size }} +
          {.fresh { raw := arena.decls.size } scope (.simple spelling) place} +
            {.since { raw := arena.decls.size } place} + stock } := by
  have begun := @BuildStep.begin order arena table saved stock place
    { name := .invalid, specifiers := specifiers, form := form, span := span,
      scope := scope
      phase := .unelaborated } hollow rfl rfl room starts
  have christened := @BuildStep.christen order
    (arena.addDecl
      { name := .invalid, specifiers := specifiers, form := form, span := span,
        scope := scope
        phase := .unelaborated }).2
    table saved
    ({.begun { raw := arena.decls.size }} +
      {.unsaved { raw := arena.decls.size }} + stock)
    { raw := arena.decls.size } name spelling scope place
      (Multiset.mem_add.mpr (.inr named))
  have change := arena.updateDecl_addDecl
    { name := .invalid, specifiers := specifiers, form := form, span := span,
      scope := scope
      phase := .unelaborated } fun old => { old with name := name }
  have same : (arena.addDecl
      { name := .invalid, specifiers := specifiers, form := form, span := span,
        scope := scope
        phase := .unelaborated }).1 = { raw := arena.decls.size } := rfl
  rw [same] at begun change
  rw [change] at christened
  refine .head begun (.trans (regroup ?_) (.head christened
    (.head (.noteSince (Multiset.mem_cons_self ..)) (regroup ?_))))
  · simp only [← Multiset.singleton_add]
    abel
  · simp only [← Multiset.singleton_add]
    abel

/-- A declaration is begun under an identifier, to be filled later. -/
theorem addHollow
    (hollow : form.hollow = form)
    (named : .named name (.simple spelling) true ∈ facts)
    (room : .room scope ∈ facts)
    (starts : order.kept → span.start = order.startOf place) :
    Builds order input scope facts 0 start
      (Parser.addDecl name specifiers form span)
      fun _ decl out => out = {.begun decl} + {.unsaved decl} +
        {.fresh decl scope (.simple spelling) place} + {.since decl place} :=
  of_done fun state rest stands known _ => by
    have there {fact : Piece} (listed : fact ∈ facts) : fact ∈ 0 + rest :=
      Multiset.mem_add.mpr (.inr (known fact listed))
    have begun := @begin_christen order scope name spelling specifiers form span
      place state.arena
      state.scopes.table state.scopes.saved (0 + rest) hollow (there named)
        (there room) starts
    refine ⟨{ raw := state.arena.decls.size }, _, _, rfl,
      { stands with onward := Nat.le_refl _ },
      fun _ => rfl, rfl, ?_⟩
    simp only [stands.current]
    simpa only [ParserState.site, add_assoc, zero_add] using begun

/--
A declaration whose form is known at once is added on top of what it owns.
-/
theorem addLeaf
    (named : .named name key true ∈ facts)
    (room : .room scope ∈ facts)
    (starts : order.kept → span.start = order.startOf place)
    (plain : form.isPlain = true) :
    Builds order input scope facts
      (Piece.fee name key + Piece.terms form.children) start
      (Parser.addDecl name specifiers form span) fun _ decl out =>
        out = {.term (.decl decl)} + {.unsaved decl} +
          {.fresh decl scope key place} +
          {.since decl place} :=
  of_done fun state rest stands known _ => by
    have there {fact : Piece} (listed : fact ∈ facts) :
        fact ∈ Piece.fee name key + Piece.terms form.children + rest :=
      Multiset.mem_add.mpr (.inr (known fact listed))
    let hollow : Decl :=
      { name := .invalid, specifiers := specifiers, form := form.hollow,
        span := span, scope := scope
        phase := .unelaborated }
    have begun :=
      @BuildStep.begin order state.arena state.scopes.table state.scopes.saved
      (Piece.fee name key + Piece.terms form.children + rest) place hollow
      form.hollow_hollow rfl rfl (there room) starts
    have change := state.arena.updateDecl_addDecl hollow
      fun old => { old with name := name, form := form, span := span }
    have same : (state.arena.addDecl hollow).1 =
        { raw := state.arena.decls.size } := rfl
    rw [same] at begun change
    refine ⟨{ raw := state.arena.decls.size }, _, _, rfl,
      { stands with onward := Nat.le_refl _ },
      fun _ => rfl, rfl, ?_⟩
    simp only [stands.current]
    generalize ({ raw := state.arena.decls.size } : DeclId) = id at *
    have dubbed :=
      @BuildStep.dub order (state.arena.addDecl hollow).2 state.scopes.table
      state.scopes.saved (.unsaved id ::ₘ rest) _ id name key scope place
        form span
      (Multiset.mem_cons_of_mem (known _ named)) .paid plain starts
    rw [change] at dubbed
    refine .head begun (.trans (regroup ?_) (.head dubbed
      (.head (.noteSince (Multiset.mem_cons_of_mem (Multiset.mem_cons_self ..)))
        (regroup ?_))))
    · simp only [hollow, ← Multiset.singleton_add]
      abel
    · simp only [← Multiset.singleton_add]
      abel

/-- What is begun, has a name and is noted where it began gets its form. -/
theorem completeDecl
    {decl : DeclId}
    (located : ∀ stock : Stock, (∀ fact ∈ facts, fact ∈ stock) →
      stock.Locates decl form)
    (bound : ∃ region spelling, .bound decl region (.simple spelling) ∈ facts)
    (starts : order.kept → ∃ place, .since decl place ∈ facts ∧
      span.start = order.startOf place)
    (rests : order.kept → ∀ stock : Stock, (∀ fact ∈ facts, fact ∈ stock) →
      stock.Rests order.eager decl form) :
    Builds order input scope facts ({.begun decl} + Piece.terms form.children)
      start
      (Parser.completeDecl decl form span) fun _ _ out =>
        out = {.term (.decl decl)} :=
  of_done fun state rest stands known _ => by
    refine ⟨_, _, _, rfl, { stands with onward := Nat.le_refl _ }, fun _ =>
      rfl, rfl, ?_⟩
    have completed :=
      @BuildStep.complete order state.arena state.scopes.table
        state.scopes.saved
      rest decl form span (located _ known)
      (bound.imp fun _ => .imp fun _ listed => .inl (known _ listed))
      (fun ordered => (starts ordered).imp fun _ => .imp_left (known _))
      fun ordered => rests ordered _ known
    refine .trans (regroup ?_)
      (.head completed (regroup (Multiset.singleton_add _ _).symm))
    simp only [← Multiset.singleton_add]
    abel

/--
A declaration is bound in the current scope, behind all that is bound there.
-/
theorem bindDecl
    {decl : DeclId}
    {lower : Nat}
    (key : Key)
    (behind : lower ≤ place) :
    Builds order input scope facts
      ({.fresh decl scope key place} + {.binder scope lower}) start
      (Parser.bindDecl decl) fun _ _ out =>
        out = {.binder scope (place + 1)} + {.bound decl scope key} :=
  of_done fun state rest stands _ sound => by
    have listed : Piece.fresh decl scope key place ∈
        {.fresh decl scope key place} + {.binder scope lower} + rest := by simp
    have keyed : state.arena.declKey decl = key :=
      Arena.keyOf_of_key? (sound.backed _ listed).1.key
    refine ⟨_, _, _, rfl,
      { current := by simpa [Scopes.declare] using stands.current
        wellFormed := stands.wellFormed.declare _ _ _
        onward := Nat.le_refl _
        inside := stands.inside }, fun _ => rfl, rfl, ?_⟩
    have bound :=
      @BuildStep.bind order state.arena state.scopes.table state.scopes.saved
        rest decl
      scope key place lower behind
    simp only [ParserState.site, Scopes.declare, Scopes.record_table,
      Scopes.record_saved, stands.current, keyed, Scopes.findLocal?]
    refine .trans (regroup ?_) (.head bound (regroup ?_))
    · simp only [← Multiset.singleton_add]
      abel
    · simp only [← Multiset.singleton_add]
      abel

/-- A template is begun without a name. -/
theorem addTemplate
    (room : .room scope ∈ facts)
    (starts : order.kept → span.start = order.startOf place) :
    Builds order input scope facts 0 start
      (Parser.addDecl .invalid specifiers (.template [] none .invalid) span)
      fun _ decl out => out = {.begun decl} + {.unsaved decl} +
          {.unnamed decl scope place} :=
  of_done fun state rest stands known _ => by
    have begun :=
      @BuildStep.begin order state.arena state.scopes.table state.scopes.saved
      (0 + rest) place
      { name := .invalid, specifiers := specifiers,
        form := .template [] none .invalid, span := span
        scope := scope, phase := .unelaborated } rfl rfl rfl
      (Multiset.mem_add.mpr (.inr (known _ room))) starts
    refine ⟨{ raw := state.arena.decls.size }, _, _, rfl,
      { stands with onward := Nat.le_refl _ },
      fun _ => rfl, rfl, ?_⟩
    simp only [stands.current]
    refine .head begun (regroup ?_)
    simp only [← Multiset.singleton_add]
    rw [show (state.arena.addDecl _).1 =
      ({ raw := state.arena.decls.size } : DeclId) from rfl]
    abel

/--
A template gets its form together with the name of the declaration further in.
-/
theorem completeTemplate
    {decl inner : DeclId}
    {region : ScopeId}
    {parms : List DeclId}
    {constraint? : Option ExprId}
    (within : scope.raw < region.raw)
    (bound : .bound inner region key ∈ facts)
    (starts : order.kept → span.start = order.startOf place) :
    Builds order input scope facts
      ({.begun decl} + {.unnamed decl scope place} +
        Piece.terms (DeclForm.template parms constraint? inner).children) start
      (Action.modify fun state => { state with
        arena := state.arena.updateDecl decl fun old => { old with
          name := (state.arena.decl inner).name
          span := span
          form := .template parms constraint? inner } })
      fun _ _ out => ∃ notes, out = {.term (.decl decl)} +
          {.fresh decl scope key place} + notes :=
  of_done fun state rest stands known _ => by
    refine ⟨_, _, _, rfl, { stands with onward := Nat.le_refl _ }, fun _ => rfl,
      ⟨{.since decl place} + {.named (state.arena.decl inner).name key true},
        rfl⟩, ?_⟩
    generalize listed : (DeclForm.template parms constraint? inner).children =
      children at *
    have noted := @BuildStep.noteBound order (state.site ({.begun decl} +
      {.unnamed decl scope place} + Piece.terms children + rest)) inner
        region key
      (Multiset.mem_add.mpr (.inr (known _ bound)))
    have dubbed :=
      @BuildStep.dub order state.arena state.scopes.table state.scopes.saved
      (.named (state.arena.decl inner).name key true ::ₘ rest) 0 decl
        (state.arena.decl inner).name key
      scope place (.template parms constraint? inner) span
        (Multiset.mem_cons_self ..)
      (.shared rfl within (Multiset.mem_cons_of_mem (known _ bound))) rfl starts
    rw [listed, zero_add] at dubbed
    refine .head noted (.trans (regroup ?_) (.head dubbed (.head (.noteSince
      (Multiset.mem_cons_of_mem (Multiset.mem_cons_self ..))) (regroup ?_))))
    · simp only [← Multiset.singleton_add, ParserState.site]
      abel
    · simp only [← Multiset.singleton_add]
      abel

/-- A parameter joins the template context, which owns it from then on. -/
theorem joinTemplate (decl : DeclId) :
    Builds order input scope facts {.term (.decl decl)} start
      (Parser.joinTemplate decl)
      nothing := by
  intro state grounded frame stands _ _
  refine ⟨{ stands with onward := Nat.le_refl _ }, 0, ?_⟩
  cases found : state.track.template? with
  | none =>
      refine ⟨{.term (.decl decl)}, rfl, regroup ?_⟩
      cases grounded <;> simp [ParserTrack.pieces, found]
  | some context =>
      cases grounded with
      | false =>
          refine ⟨{.term (.decl decl)}, rfl, regroup ?_⟩
          simp [ParserTrack.pieces]
      | true =>
          refine ⟨0, rfl, regroup ?_⟩
          simp only [ParserTrack.pieces, found, Option.map_some,
            TemplateContext.pieces, List.map_append, List.map_cons,
            List.map_nil, Piece.terms_append, Piece.terms_cons, Piece.terms_nil]
          abel

/-- The template context gets a constraint, which it owns from then on. -/
theorem constrainTemplate (constraint : ExprId) :
    Builds order input scope facts {.term (.expr constraint)} start
      (Parser.constrainTemplate constraint) nothing := by
  intro state grounded frame stands _ _
  refine ⟨{ stands with onward := Nat.le_refl _ }, 0, ?_⟩
  cases found : state.track.template? with
  | none =>
      refine ⟨{.term (.expr constraint)}, rfl, regroup ?_⟩
      cases grounded <;> simp [ParserTrack.pieces, found]
  | some context =>
      cases grounded with
      | false =>
          refine ⟨{.term (.expr constraint)}, rfl, regroup ?_⟩
          simp [ParserTrack.pieces]
      | true =>
          refine ⟨Piece.terms (context.constraint?.toList.map Term.expr), rfl,
            regroup ?_⟩
          simp only [ParserTrack.pieces, found, Option.map_some,
            TemplateContext.pieces, List.map_cons, List.map_nil,
            Piece.terms_append, Piece.terms_cons, Piece.terms_nil,
            Option.toList_some]
          abel

/-- A parser gives its own template context besides what it gives itself. -/
theorem withTemplate
    {parser : Parser Value}
    (builds : Builds order input scope facts pre start parser post) :
    Builds order input scope facts pre start (Parser.withTemplate .empty parser)
      fun later value out => ∃ own, post later value.1 own ∧ out =
          own + value.2.pieces := by
  intro state grounded frame stands known sound
  have regrouped : pre + state.track.pieces grounded + frame =
      pre + ParserTrack.pieces { state.track with template? := some .empty }
        true +
        (state.track.pieces grounded + frame) := by
    simp [ParserTrack.pieces, TemplateContext.pieces, TemplateContext.empty,
      add_assoc]
  rw [regrouped] at sound ⊢
  have ended :=
    builds { state with track := { state.track with template? := some .empty } }
      true
    (state.track.pieces grounded + frame)
    { current := stands.current, wellFormed := stands.wellFormed
      onward := stands.onward, inside := stands.inside }
    (fun fact listed => Multiset.mem_add.mpr (.inr (known fact listed))) sound
  rw [Parser.withTemplate_run]
  cases ending : parser input { state with
      track := { state.track with template? := some .empty } } with
  | done value after =>
      rw [ending] at ended
      obtain ⟨standsAfter, out, more, given, steps⟩ := ended
      refine ⟨{ current := standsAfter.current,
                wellFormed := standsAfter.wellFormed
                onward := standsAfter.onward, inside := standsAfter.inside },
        out + (after.track.template?.getD .empty).pieces, more,
          ⟨out, given, rfl⟩,
        steps.trans (regroup ?_)⟩
      have same : after.track.pieces true =
          (after.track.template?.getD .empty).pieces := by
        cases found : after.track.template? <;>
          simp [ParserTrack.pieces, found, TemplateContext.pieces,
            TemplateContext.empty]
      have outer : ParserTrack.pieces
          { after.track with template? := state.track.template? }
          grounded = state.track.pieces grounded := rfl
      rw [same, outer]
      abel
  | failed error after =>
      rw [ending] at ended
      obtain ⟨current, wellFormed, more, steps⟩ := ended
      exact ⟨current, wellFormed, more + state.track.pieces grounded,
        steps.trans (regroup (by abel))⟩
  | exhausted => trivial

end

end Builds

end Tern
