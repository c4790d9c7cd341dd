import Tern.Proofs.Building.Statements

namespace Tern

/-!
# Objects, templates and concepts are built

What these own is parsed before they are bound, or is bound in a scope of their
own. A template is bound where it began, behind all that stands before it, under
the name of the declaration in it.
-/

/--
A declaration is given that is bound in a scope, and the right to bind what
follows.
-/
def givesDecl
    (scope : ScopeId)
    (later : Nat)
    (decl : DeclId)
    (out : Stock) :
    Prop :=
  ∃ key, out = {.binder scope later} + {.term (.decl decl)} +
    {.bound decl scope key}

/-- No places follow each other. -/
theorem Rising.nil (start stop : Nat) : Rising start [] stop :=
  ⟨.nil, List.forall_mem_nil _⟩

/-- A place stands before all that follow it further on. -/
theorem Rising.cons
    {start place middle stop : Nat}
    {places : List Nat}
    (rising : Rising middle places stop)
    (onward : start ≤ place)
    (past : place < middle)
    (behind : middle ≤ stop) :
    Rising start (place :: places) stop where
  left :=
    .cons (fun later listed =>
      Nat.lt_of_lt_of_le past (rising.2 later listed).1) rising.1
  right := List.forall_mem_cons.mpr ⟨⟨onward, Nat.lt_of_lt_of_le past behind⟩,
    fun later listed => (rising.2 later listed).imp_left fun beyond => by omega⟩

/-- What rises up to a place rises up to all further ones. -/
theorem Rising.mono
    {start stop further : Nat}
    {places : List Nat}
    (rising : Rising start places stop)
    (onward : stop ≤ further) :
    Rising start places further :=
  ⟨rising.1, fun place listed => (rising.2 place listed).imp_right fun below =>
    Nat.lt_of_lt_of_le below onward⟩

namespace Builds

variable {Value First Item : Type} {order : Order} {input : ParserInput}
  {scope : ScopeId}
  {facts : List Piece} {pre kept : Stock} {start : Nat}
    {post : Nat → Value → Stock → Prop}
  {rules : Rules}

/-- What is kept track of is changed, but not the template context. -/
private theorem takeSpecifiers :
    Builds order input scope facts 0 start Parser.takeSpecifiers nothing :=
  of_done fun _ _ stands _ _ =>
    ⟨_, _, 0, rfl,
      { current := stands.current, wellFormed := stands.wellFormed,
        onward := Nat.le_refl _
        inside := stands.inside }, fun _ => rfl, rfl, .refl⟩

private theorem addSpecifier (specifier : Specifier) :
    Builds order input scope facts 0 start (Parser.addSpecifier specifier)
      nothing :=
  of_done fun _ _ stands _ _ =>
    ⟨_, _, 0, rfl,
      { current := stands.current, wellFormed := stands.wellFormed,
        onward := Nat.le_refl _
        inside := stands.inside }, fun _ => rfl, rfl, .refl⟩

/-- A span that begins at a place has the token there as its start. -/
theorem begun
    {next : Span → Parser Value}
    (reads : order.Reads input)
    (rest : ∀ span place, start ≤ place →
      (order.kept → place < input.window.stop → span.start =
        order.startOf place) →
        Builds order input scope facts pre place (next span) post) :
    Builds order input scope facts pre start (Parser.currentSpan >>= next)
      post := by
  refine call (currentSpan reads) ?_
  rintro span place _ onward ⟨starts, rfl⟩
  rw [zero_add]
  exact rest span place onward starts

/-- A token that has to be of a kind takes the rest further. -/
theorem expected
    {kind : TokenKind}
    {next : Unit → Parser Value}
    (reads : order.Reads input)
    (real : kind ≠ .endOfInput)
    (rest : ∀ later, start < later → start < input.window.stop →
      Builds order input scope facts pre later (next ()) post) :
    Builds order input scope facts pre start (Parser.expect kind >>= next)
      post := by
  refine call (expect reads real) ?_
  rintro _ later _ - ⟨onward, inside, rfl⟩
  rw [zero_add]
  exact rest later onward inside

/--
A declaration begins with a word behind its specifiers, and where it began is
known.
-/
theorem announced
    {word : Keyword}
    {next : Span → Specifiers → Parser Value}
    (reads : order.Reads input)
    (rest : ∀ span specifiers place later, start ≤ place → place < later →
      (order.kept → span.start = order.startOf place) →
        Builds order input scope facts pre later (next span specifiers) post) :
    Builds order input scope facts pre start
      (do
        let span ← Parser.currentSpan
        let specifiers ← Parser.takeSpecifiers
        Parser.expect (.keyword word)
        next span specifiers) post :=
  begun reads fun span place onward starts =>
    Builds.next takeSpecifiers fun specifiers =>
    expected reads nofun fun later further inside =>
      rest span specifiers place later onward further fun ordered =>
        starts ordered inside

/-- What began earlier is spanned from there. -/
theorem spannedFrom
    {span : Span}
    {place : Nat}
    {next : Span → Parser Value}
    (reads : order.Reads input)
    (starts : order.kept → span.start = order.startOf place)
    (past : place < start)
    (rest : ∀ whole, (order.kept → whole.start = order.startOf place) →
      Builds order input scope facts pre start (next whole) post) :
    Builds order input scope facts pre start (Parser.spanFrom span >>= next)
      post := by
  refine call (spanFrom reads starts past) ?_
  rintro whole later _ onward ⟨begins, rfl⟩
  rw [zero_add]
  exact (rest whole begins).later onward

/-- What is bound last is given as bound. -/
theorem boundLast
    {decl : DeclId}
    {place lower : Nat}
    (key : Key)
    (unused : Stock)
    (split : pre = {.fresh decl scope key place} + {.binder scope lower} +
      ({.term (.decl decl)} + unused))
    (behind : lower ≤ place)
    (past : place < start) :
    Builds order input scope facts pre start
      (do
        Parser.bindDecl decl
        Pure.pure decl) (givesDecl scope) := by
  refine leaving _ split (bindDecl key behind) ?_
  rintro _ later _ onward rfl
  refine relaxedBehind scope (pureSome unused ?_ fun last further =>
    ⟨place + 1, {.term (.decl decl)} + {.bound decl scope key}, by omega,
      rfl, key,
      (add_assoc _ _ _).symm⟩)
  abel

/-- A definition without a block is given, whatever is noted of it. -/
theorem addPlainDefinition
    {form : DefForm}
    {span : Span}
    (children : pre = Piece.terms form.children)
    (blockless : form.block? = none) :
    Builds order input scope facts pre start (Parser.addDefinition form span)
      (gives .definition) :=
  (addDefinition none children (by simp [blockless])).discard <| by
    rintro _ definition _ _ ⟨notes, rfl, -⟩
    exact ⟨_, ↑notes, rfl, rfl⟩

end Builds

namespace Rules.Build

open Tern.Builds

variable {order : Order} {input : ParserInput} {scope : ScopeId}
  {facts : List Piece}
  {start : Nat} {rules : Rules} (build : rules.Build order input)
    (room : .room scope ∈ facts)

include build

theorem specifiers (room : .room scope ∈ facts) :
    Builds order input scope facts 0 start rules.specifiers nothing := by
  refine next (observe _) fun kind => ?_
  split
  · exact next skip fun _ => next (addSpecifier _) fun _ =>
      build.parse .specifiers start room
  · exact pure fun _ _ => rfl

theorem paramSpecifiers (read : Specifiers) (room : .room scope ∈ facts) :
    Builds order input scope facts 0 start (rules.paramSpecifiers read)
      nothing := by
  refine next (observe _) fun kind => ?_
  split
  next specifier _ =>
    exact next skip fun _ =>
      build.parse (.paramSpecifiers (read.insert specifier)) start room
  · exact pure fun _ _ => rfl

theorem classSpecifiers (read : Specifiers) (room : .room scope ∈ facts) :
    Builds order input scope facts 0 start (rules.classSpecifiers read)
      nothing :=
  eaten (build.parse (.classSpecifiers (read.insert .isVirtual)) start room)
    (pure fun _ _ => rfl)

include room

theorem declaredType (terminators : List TokenKind) :
    Builds order input scope facts 0 start (rules.declaredType terminators)
      (gives .type) :=
  next (observe _) fun _ => ite
    (fun _ => next (captureTo _) fun _ => ite
      (fun _ => next (observe _) fun _ => failAt _ _)
      fun _ => next (observe _) fun _ => addType rfl nofun)
    fun _ => build.type room

theorem initializer (terminators : List TokenKind) :
    Builds order input scope facts 0 start (rules.initializer terminators)
      (gives .expr) :=
  next (observe _) fun _ => ite
    (fun _ => next (captureTo _) fun _ => ite
      (fun _ => next (observe _) fun _ => failAt _ _)
      fun _ => next (observe _) fun _ => addExpr rfl nofun nofun)
    fun _ => build.expression room

private theorem initializer? :
    Builds order input scope facts 0 start
        rules.initializer? fun _ initializer? out =>
      out = Piece.terms (initializer?.toList.map .expr) :=
  eaten (given (build.initializer room _) fun expr _ _ => pure fun _ _ =>
    by simp)
    (pure fun _ _ => rfl)

private theorem typeAndInitializer :
    Builds order input scope facts 0 start
        rules.typeAndInitializer fun _ parts out =>
      out = {.term (.type parts.1)} +
        Piece.terms (parts.2.toList.map .expr) := by
  refine given (build.declaredType room _) fun type _ _ =>
    call (build.initializer? room) ?_
  rintro initializer? later _ - rfl
  exact pure fun _ _ => by rw [add_zero, add_comm]

private theorem inferredOrTyped :
    Builds order input scope facts 0 start
        rules.inferredOrTyped fun _ parts out =>
      out = {.term (.type parts.1)} +
        Piece.terms (parts.2.toList.map .expr) := by
  refine checked (next (observe _) fun span =>
    given (addType rfl nofun) fun type _ _ =>
    call (build.initializer? room) ?_) (build.typeAndInitializer room)
  rintro initializer? later _ - rfl
  exact pure fun _ _ => by rw [add_zero, add_comm]

omit build room in
private theorem initializerDefinition (initializer? : Option ExprId) :
    Builds order input scope facts (Piece.terms (initializer?.toList.map .expr))
      start
      (Rules.initializerDefinition initializer?) (gives .definition) := by
  cases initializer? with
  | some expr => exact next (observe _) fun _ => addPlainDefinition rfl rfl
  | none => exact next (observe _) fun _ => addPlainDefinition rfl rfl

/--
A declaration whose form is known, and whose name is paid for, is added and
bound at the end.
-/
private theorem leafLast
    {name : NameId}
    {key : Key}
    {specifiers : Specifiers}
    {form : DeclForm}
    {span : Span}
    {place lower : Nat}
    (named : .named name key true ∈ facts)
    (starts : order.kept → span.start = order.startOf place)
    (plain : form.isPlain = true)
    (behind : lower ≤ place)
    (past : place < start) :
    Builds order input scope facts
      (Piece.fee name key + Piece.terms form.children + {.binder scope lower})
        start
      (do
        let whole ← Parser.spanFrom span
        let decl ← Parser.addDecl name specifiers form whole
        Parser.bindDecl decl
        Pure.pure decl) (givesDecl scope) := by
  refine spannedFrom build.reads starts past fun whole begins =>
    leaving {.binder scope lower} rfl (addLeaf named room begins plain) ?_
  rintro decl later _ onward rfl
  refine boundLast key ({.unsaved decl} + {.since decl place}) ?_ behind
    (by omega)
  abel

theorem variableDeclaration :
    Builds order input scope facts {.binder scope start} start
      rules.variableDeclaration
      (givesDecl scope) := by
  refine announced
      build.reads fun span specifiers place later onward past starts =>
    identified build.reads fun name spelling named further _ =>
      next (expectAny _) fun _ =>
      call (build.inferredOrTyped (List.mem_cons_of_mem _ room)) ?_
  rintro ⟨type, initializer?⟩ typed _ behind rfl
  refine next (expectAny _) fun _ =>
    leaving ({.term (.type type)} + {.binder scope start}) ?_
    (initializerDefinition initializer?) ?_
  · abel
  rintro definition last _ further rfl
  refine next (observe _) fun isMember => ?_
  have regroup :
      ({.term (.definition definition)} +
        ({.term (.type type)} + {.binder scope start}) :
      Stock) = Piece.fee name (.simple spelling) + Piece.terms (DeclForm.object
        (if isMember = true then .field else .variable) type
          definition).children +
          {.binder scope start} := by
    simp only [Piece.fee, DeclForm.children, Piece.terms_cons, Piece.terms_nil]
    abel
  rw [regroup]
  exact build.leafLast (List.mem_cons_of_mem _ room) (List.mem_cons_self ..)
    starts rfl onward
    (by omega)

theorem superDeclaration :
    Builds order input scope facts {.binder scope start} start
      rules.superDeclaration
      (givesDecl scope) := by
  refine announced
      build.reads fun span specifiers place later onward past starts =>
    identifiedOrMinted build.reads fun name key => next (expectAny _) fun _ =>
      call (build.typeAndInitializer (List.mem_cons_of_mem _ room)) ?_
  rintro ⟨type, initializer?⟩ typed _ behind rfl
  refine next (expectAny _) fun _ => leaving
    ({.term (.type type)} + (Piece.fee name key + {.binder scope start})) ?_
      (initializerDefinition initializer?) ?_
  · abel
  rintro definition last _ further rfl
  have regroup :
      ({.term (.definition definition)} +
        ({.term (.type type)} + (Piece.fee name key +
      {.binder scope start})) : Stock) = Piece.fee name key +
        Piece.terms (DeclForm.object .base type definition).children +
          {.binder scope start} := by
    simp only [DeclForm.children, Piece.terms_cons, Piece.terms_nil]
    abel
  rw [regroup]
  exact build.leafLast (List.mem_cons_of_mem _ room) (List.mem_cons_self ..)
    starts rfl onward
    (by omega)

private theorem paramType (bound : Bool) :
    Builds order input scope facts 0 start (rules.paramType bound)
      (gives .type) :=
  eaten (ite (fun _ => build.type room) fun _ => build.declaredType room _)
    (next (observe _) fun _ => addType rfl nofun)

/-- A parameter that is bound at once is bound where it began. -/
private theorem boundParam :
    Builds order input scope facts {.binder scope start} start
      (rules.param true)
      (givesDecl scope) := by
  refine begun build.reads fun span place onward starts =>
    next (build.parse (.paramSpecifiers .none) place room) fun specifiers =>
      identified build.reads fun name spelling named past inside =>
        given (build.paramType (List.mem_cons_of_mem _ room) true)
            fun type typed behind =>
          checked (next (observe _) fun _ => failAt _ _) ?_
  have regroup : ({.term (.type type)} + {.binder scope start} : Stock) =
      Piece.fee name (.simple spelling) +
        Piece.terms (DeclForm.parameter type).children +
        {.binder scope start} := by
    simp [Piece.fee, DeclForm.children]
  rw [regroup]
  exact build.leafLast (List.mem_cons_of_mem _ room) (List.mem_cons_self ..)
    (fun ordered => starts ordered inside) rfl onward (by omega)

/-- A parameter that is not bound waits for that from where it began. -/
private theorem slatedParam :
    Builds order input scope facts 0 start
        (rules.param false) fun later param out =>
      ∃ key place, start ≤ place ∧ place < later ∧
        out = {.term (.decl param)} + {.fresh param scope key place} := by
  refine begun build.reads fun span place onward starts =>
    next (build.parse (.paramSpecifiers .none) place room) fun specifiers =>
      identified build.reads fun name spelling named past inside =>
        given (build.paramType (List.mem_cons_of_mem _ room) false)
            fun type typed behind =>
          checked (next (observe _) fun _ => failAt _ _)
            (spannedFrom build.reads (fun ordered => starts ordered inside)
              (by omega)
              fun whole begins => ?_)
  have regroup : ({.term (.type type)} + 0 : Stock) =
      Piece.fee name (.simple spelling) +
      Piece.terms (DeclForm.parameter type).children := by
    simp [Piece.fee, DeclForm.children]
  rw [regroup]
  refine bind (add_zero _).symm
    (addLeaf (List.mem_cons_self ..) (List.mem_cons_of_mem _ room)
    begins rfl) ?_
  rintro decl later _ further rfl
  refine pureSome ({.unsaved decl} + {.since decl place}) ?_ fun last beyond =>
    ⟨.simple spelling, place, onward, by omega, rfl⟩
  abel

theorem params (bound : Bool) :
    Builds order input scope facts
      ((Nonterminal.params bound).needs scope start) start
      (rules.params bound) (Nonterminal.GivesParams scope start bound) := by
  cases bound with
  | true =>
      refine bind (add_zero _).symm (build.boundParam room) ?_
      rintro param later _ onward ⟨key, rfl⟩
      rw [add_zero, add_assoc]
      refine eaten (build.binding room (.params true) rfl (Nat.le_refl _) ?_)
        (pureRelaxed (Nat.le_refl _) fun last _ => ⟨[(param, key)], rfl, ?_⟩)
      · rintro rest last _ - ⟨keyed, rfl, rfl⟩
        rw [add_assoc, add_assoc]
        refine pureRelaxed (Nat.le_refl _) fun final _ =>
          ⟨(param, key) :: keyed, rfl, ?_⟩
        simp only [Piece.members, List.map_cons, ← Multiset.cons_coe,
          ← Multiset.singleton_add, Piece.terms_cons]
        abel
      · simp only [Piece.members, List.map_cons, List.map_nil, Piece.terms_cons,
          Piece.terms_nil, Multiset.coe_singleton]
        abel
  | false =>
      refine bind (add_zero _).symm (build.slatedParam room) ?_
      rintro param later _ onward ⟨key, place, behind, past, rfl⟩
      rw [add_zero]
      refine eaten (call (build.parse (.params false) later room) ?_)
        (pure fun last further => ⟨[(param, key, place)], rfl, ?_, ?_⟩)
      · rintro rest last _ further ⟨slated, rfl, rising, rfl⟩
        refine pure fun final beyond =>
          ⟨(param, key, place) :: slated, rfl, ?_, ?_⟩
        · exact (rising.mono beyond).cons behind past (by omega)
        · simp only [Piece.slated, List.map_cons, ← Multiset.cons_coe,
            ← Multiset.singleton_add, Piece.terms_cons]
          abel
      · exact (Rising.nil later last).cons behind past further
      · simp only [Piece.slated, List.map_cons, List.map_nil, Piece.terms_cons,
          Piece.terms_nil, Multiset.coe_singleton, add_zero]

end Rules.Build

end Tern
