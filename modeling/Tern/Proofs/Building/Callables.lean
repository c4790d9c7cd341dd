import Tern.Proofs.Building.Regions

namespace Tern

/-!
# Callables and classes are built

The body of a callable or a class is parsed on the spot or captured. Where it is
captured, the declaration keeps the right to bind in its scope: first its
parameters, which stand before the body, then what stands in the body itself.
-/

/--
A definition is parsed with the right to bind in its scope, or is captured
without it.
-/
structure Defines
    (order : Order)
    (input : ParserInput)
    (definition : Parser DefId) :
    Prop where
  parsed : ∀ {scope : ScopeId} {facts : List Piece} (start : Nat), input.mode =
    .eager →
    .room scope ∈ facts →
      Builds order input scope facts {.binder scope start} start definition
        (gives .definition)
  captured : ∀ {scope : ScopeId} {facts : List Piece} (start : Nat),
    input.mode = .deferred →
    .room scope ∈ facts →
      Builds order input scope facts 0 start definition fun _ definition out =>
        ∃ (stop : Nat) (notes : List Piece), start ≤ stop ∧
          out = {.term (.definition definition)} + ↑notes ∧
            (order.kept → ¬ order.eager →
              .opens (.definition definition) (some stop) ∈ notes)

namespace Builds

variable {Value First : Type} {order : Order} {input : ParserInput}
  {scope : ScopeId}
  {facts : List Piece} {pre : Stock} {start : Nat}
    {post : Nat → Value → Stock → Prop}

/--
Whether types, initializers and bodies are captured is known from the mode.
-/
private theorem deferring
    {next : Bool → Parser Value}
    (deferred : input.mode = .deferred →
      Builds order input scope facts pre start (next true) post)
    (eager : input.mode = .eager →
      Builds order input scope facts pre start (next false) post) :
    Builds order input scope facts pre start (Parser.defers >>= next) post := by
  have known : Builds order input scope facts 0 start Parser.defers
      fun _ value out => value = decide (input.mode = .deferred) ∧ out = 0 :=
    observeKnown (fun input _ => decide (input.mode = .deferred)) fun _ _ =>
      ⟨rfl, rfl⟩
  refine call known ?_
  rintro _ later _ onward ⟨rfl, rfl⟩
  rw [zero_add]
  cases mode : input.mode with
  | deferred => exact (deferred mode).later onward
  | eager => exact (eager mode).later onward

/-- A body in braces is captured from where it begins on. -/
private theorem capturedBody
    {body : Parser StmtId}
    (reads : order.Reads input)
    (mode : input.mode = .deferred) :
    Builds order input scope facts 0 start
        (Parser.bracedBody body) fun _ stmt out =>
      ∃ stop, start ≤ stop ∧ out = {.term (.stmt stmt)} +
        {.opens (.stmt stmt) (some stop)} := by
  refine deferring (fun _ => call captureBraces ?_) fun eager => by
    simp [mode] at eager
  rintro range later _ - ⟨onward, rfl⟩
  rw [zero_add]
  refine next (observe _) fun span =>
    (addCapturedStmt fun ordered eager => ?_).weaken
    fun _ _ _ _ given => ⟨range.start, onward, given⟩
  have := (reads.eager ordered).mp eager
  simp [mode] at this

/--
A parser that leaves parameters behind in the scope of a declaration leaves
them, and the right to bind there, to that declaration.
-/
private theorem dozed
    {parser : Parser Value}
    {decl : DeclId}
    (saved : .saved decl scope ∈ facts)
    (builds : Builds order input scope facts 0 start
        parser fun later value out =>
      ∃ (slated : List (DeclId × Key × Nat)) (stop : Nat) (kept : Stock),
        Rising 0 (slated.map fun param => param.2.2) stop ∧
          out = Piece.slated scope slated + kept ∧
            post later value ({.asleep decl scope 0 slated stop} + kept)) :
    Builds order input scope facts {.binder scope 0} start parser post := by
  have binding : Builds order input scope facts (0 + {.binder scope 0}) start
      parser
      fun later value whole => ∃ out, whole = out + {.binder scope 0} ∧
        ∃ (slated : List (DeclId × Key × Nat)) (stop : Nat) (kept : Stock),
          Rising 0 (slated.map fun param => param.2.2) stop ∧
            out = Piece.slated scope slated + kept ∧
              post later value ({.asleep decl scope 0 slated stop} + kept) :=
    beside _ (builds.weaken fun _ _ _ _ given => ⟨_, rfl, given⟩)
  rw [zero_add] at binding
  refine binding.settled ?_
  rintro later value _ - ⟨_, rfl, slated, stop, kept, rising, rfl, given⟩
  refine ⟨_, given, fun site rest known => ?_⟩
  have split : Piece.slated scope slated + kept + {.binder scope 0} + rest =
      .binder scope 0 ::ₘ (Piece.slated scope slated + (kept + rest)) := by
    rw [← Multiset.singleton_add]
    abel
  rw [split]
  refine .head (.doze (Multiset.mem_add.mpr (.inr (known _ saved))) rising
    (Nat.zero_le _) rfl)
    (regroup ?_)
  rw [← Multiset.singleton_add, add_assoc]

/-- A body in braces is parsed on the spot. -/
private theorem parsedBody
    {body : Parser StmtId}
    (mode : input.mode = .eager)
    (builds : Builds order input scope facts pre start body (gives .stmt)) :
    Builds order input scope facts pre start (Parser.bracedBody body)
      (gives .stmt) :=
  deferring (fun deferred => by simp [mode] at deferred) fun _ => builds

end Builds

namespace Rules.Build

open Tern.Builds

variable {order : Order} {input : ParserInput} {scope : ScopeId}
  {facts : List Piece}
  {start : Nat} {rules : Rules} (build : rules.Build order input)
    (room : .room scope ∈ facts)

include build room

private theorem resultType :
    Builds order input scope facts 0 start rules.resultType (gives .type) :=
  eaten (build.declaredType room _)
    (next (observe _) fun _ => addType rfl nofun)

/-- Parameters that are not bound, perhaps none. -/
private theorem slatedParams (closer : TokenKind) :
    Builds order input scope facts 0 start (rules.orNone closer (.params false))
      (Nonterminal.GivesParams scope start false) :=
  checked (pure fun later _ => ⟨[], rfl, .nil start later, rfl⟩)
    (build.parse (.params false) start room)

/-- On the spot, the parameters of a signature are bound. -/
private theorem parsedSignature (mode : input.mode = .eager) :
    Builds order input scope facts {.binder scope start} start rules.signature
      fun later parts out => ∃ keyed : List (DeclId × Key), keyed.map Prod.fst =
        parts.1 ∧
        out = {.binder scope later} +
          (Piece.terms (parts.1.map .decl) + {.term (.type parts.2)} +
          Piece.members scope keyed) := by
  refine next (expectAny _) fun _ =>
    deferring (fun deferred => by simp [mode] at deferred)
    fun _ => bind (add_zero _).symm (build.boundParams room _) ?_
  rintro params later _ - ⟨keyed, rfl, rfl⟩
  refine next (expectAny _) fun _ =>
    given (build.resultType room) fun result last further => ?_
  have regroup : ({.term (.type result)} + ({.binder scope later} +
      Piece.terms ((keyed.map Prod.fst).map .decl) + Piece.members scope keyed +
        0) : Stock) =
        {.binder scope later} + (Piece.terms ((keyed.map Prod.fst).map .decl) +
          {.term (.type result)} + Piece.members scope keyed) := by
    rw [add_zero]
    abel
  rw [regroup]
  exact pureRelaxed further fun _ _ => ⟨keyed, rfl, rfl⟩

/-- Where bodies are captured, the parameters of a signature wait. -/
private theorem capturedSignature (mode : input.mode = .deferred) :
    Builds order input scope facts 0 start rules.signature
      fun later parts out => ∃ slated : List (DeclId × Key × Nat),
        slated.map Prod.fst = parts.1 ∧
          Rising start (slated.map fun param => param.2.2) later ∧
          out = Piece.terms (parts.1.map .decl) + {.term (.type parts.2)} +
            Piece.slated scope slated := by
  refine next (expectAny _) fun _ =>
    deferring (fun _ => call (build.slatedParams room _) ?_)
    fun eager => by simp [mode] at eager
  rintro params later _ - ⟨slated, rfl, rising, rfl⟩
  refine next (expectAny _) fun _ =>
    given (build.resultType room) fun result last further =>
    pure fun final beyond =>
      ⟨slated, rfl, rising.mono (Nat.le_trans further beyond), ?_⟩
  rw [add_zero]
  abel

private theorem expressionBody :
    Builds order input scope facts 0 start rules.expressionBody
      fun _ form out => out = Piece.terms form.children ∧ form.block? = none :=
  given (build.initializer room _) fun expr _ _ => next (expectAny _) fun _ =>
    pure fun _ _ => ⟨by simp [DefForm.children], rfl⟩

private theorem assignedDefinition :
    Builds order input scope facts 0 start rules.assignedDefinition
      fun _ form out => out = Piece.terms form.children ∧ form.block? =
          none := by
  have keyword (word : Keyword) (form : DefForm)
      (childless : form.children = [])
      (blockless : form.block? = none) :
      Builds order input scope facts 0 start (Rules.keywordDefinition word form)
        (fun _ form out => out = Piece.terms form.children ∧ form.block? =
          none) :=
    next (expectAny _) fun _ => next (expectAny _) fun _ =>
      pure fun _ _ => ⟨by simp [childless], blockless⟩
  refine next (observe _) fun behind => next skip fun _ => ?_
  split
  · exact keyword _ _ rfl rfl
  · exact keyword _ _ rfl rfl
  · exact build.expressionBody room

/-- On the spot, a body binds what stands in it in the scope of the callable. -/
private theorem parsedForm (mode : input.mode = .eager) :
    Builds order input scope facts {.binder scope start} start
      rules.functionDefinitionForm
      fun _ form out => out = Piece.terms form.children := by
  have unbinding {parser : Parser DefForm}
      (builds : Builds order input scope facts 0 start parser
        fun _ form out => out = Piece.terms form.children ∧ form.block? =
            none) :
      Builds order input scope facts {.binder scope start} start parser
        fun _ form out => out = Piece.terms form.children := by
    rw [← add_zero {Piece.binder scope start}]
    exact drop (builds.weaken fun _ _ _ _ => And.left)
  refine next (observe _) fun kind => ?_
  split
  · refine bind (add_zero _).symm (parsedBody mode (build.currentBlock room)) ?_
    rintro stmt later _ - rfl
    exact pure fun _ _ => by simp [DefForm.children]
  · exact unbinding (next skip fun _ => pure fun _ _ => ⟨rfl, rfl⟩)
  · exact unbinding (build.assignedDefinition room)
  · exact unbinding (build.expressionBody room)

/-- A body that is captured begins no further back than its definition. -/
private theorem capturedForm (mode : input.mode = .deferred) :
    Builds order input scope facts 0 start
        rules.functionDefinitionForm fun _ form out =>
      ∃ (stop : Nat) (notes : List Piece), start ≤ stop ∧ out =
        Piece.terms form.children + ↑notes ∧
        ∀ stmt, form.block? = some stmt → .opens (.stmt stmt) (some stop) ∈
          notes := by
  have plain {parser : Parser DefForm}
      (builds : Builds order input scope facts 0 start parser
        fun _ form out => out = Piece.terms form.children ∧ form.block? =
            none) :
      Builds order input scope facts 0 start parser fun _ form out =>
        ∃ (stop : Nat) (notes : List Piece), start ≤ stop ∧
          out = Piece.terms form.children + ↑notes ∧
            ∀ stmt, form.block? = some stmt → .opens (.stmt stmt) (some stop) ∈
              notes :=
    builds.weaken fun _ form _ _ given =>
      ⟨start, [], Nat.le_refl _,
        given.1.trans (add_zero _).symm, by simp [given.2]⟩
  refine next (observe _) fun kind => ?_
  split
  · refine call (capturedBody build.reads mode) ?_
    rintro stmt later _ - ⟨stop, onward, rfl⟩
    refine pure fun _ _ =>
      ⟨stop, [.opens (.stmt stmt) (some stop)], onward, ?_, ?_⟩
    · simp [DefForm.children]
    · rintro _ ⟨⟩
      exact List.mem_singleton_self _
  · exact plain (next skip fun _ => pure fun _ _ => ⟨rfl, rfl⟩)
  · exact plain (build.assignedDefinition room)
  · exact plain (build.expressionBody room)

omit room in
private theorem functionDefinition :
    Defines order input rules.functionDefinition where
  parsed start mode room := by
    refine next (observe _) fun _ =>
      bind (add_zero _).symm (build.parsedForm room mode) ?_
    rintro form later _ - rfl
    refine spanned fun _ =>
      (addDefinition none (add_zero _) fun ordered deferred => ?_).discard ?_
    · exact absurd ((build.reads.eager ordered).mpr mode) deferred
    · rintro _ definition _ _ ⟨notes, rfl, -⟩
      exact ⟨_, ↑notes, rfl, rfl⟩
  captured start mode room := by
    refine next (observe _) fun _ => call (build.capturedForm room mode) ?_
    rintro form later _ - ⟨stop, notes, onward, rfl, opens⟩
    have regroup : (Piece.terms form.children + ↑notes + 0 : Stock) =
        ↑notes + Piece.terms form.children := by
      rw [add_zero, add_comm]
    rw [regroup]
    refine keepAll
        (spanned fun _ => (addDefinition (some stop) rfl fun _ _ stmt block =>
      List.mem_append_left _ (opens stmt block)).weaken ?_)
    rintro _ definition _ _ ⟨own, rfl, noted⟩
    exact ⟨stop, own, onward, rfl, noted⟩

omit room in
private theorem coroutineDefinition :
    Defines order input rules.coroutineDefinition where
  parsed start mode room := next (observe _) fun _ =>
    ite (fun _ => build.functionDefinition.parsed start mode room) fun _ =>
      fail _
  captured start mode room := next (observe _) fun _ =>
    ite (fun _ => build.functionDefinition.captured start mode room) fun _ =>
      fail _

omit build room in
/-- A callable of which all parameters are bound is ready. -/
private theorem readies_of_bound
    {decl : DeclId}
    {role : CallableRole}
    {result : TypeId}
    {definition : DefId}
    {keyed : List (DeclId × Key)}
    (mode : input.mode = .eager)
    (reads : order.Reads input)
    {stock : Stock}
    (members : ∀ param ∈ keyed, .bound param.1 scope param.2 ∈ stock)
    (saved : .saved decl scope ∈ stock) :
    stock.Locates decl (.callable role (keyed.map Prod.fst) result definition) ∧
      (order.kept → stock.Rests order.eager decl
        (.callable role (keyed.map Prod.fst) result definition)) := by
  refine ⟨⟨scope, saved, List.forall_mem_map.mpr fun param listed =>
    .inl ⟨param.2, members param listed⟩⟩, fun ordered =>
      ⟨fun _ => ?_, fun deferred => ?_⟩⟩
  · exact List.forall_mem_map.mpr fun param listed =>
      ⟨scope, param.2, members param listed⟩
  · exact absurd ((reads.eager ordered).mpr mode) deferred

omit build room in
/-- A callable whose parameters wait for their turn is ready. -/
private theorem readies_of_asleep
    {decl : DeclId}
    {role : CallableRole}
    {result : TypeId}
    {definition : DefId}
    {slated : List (DeclId × Key × Nat)}
    {place stop : Nat}
    (mode : input.mode = .deferred)
    (reads : order.Reads input)
    {stock : Stock}
    (asleep : .asleep decl scope place slated stop ∈ stock)
    (opens : order.kept → ¬ order.eager →
      .opens (.definition definition) (some stop) ∈ stock)
    (saved : .saved decl scope ∈ stock) :
    stock.Locates decl
      (.callable role (slated.map Prod.fst) result definition) ∧
      (order.kept → stock.Rests order.eager decl
        (.callable role (slated.map Prod.fst) result definition)) := by
  refine ⟨⟨scope, saved, List.forall_mem_map.mpr fun param listed =>
    .inr ⟨place, slated, stop, param.2.1, param.2.2, asleep, listed⟩⟩,
    fun ordered => ⟨fun eager => ?_, fun deferred => ?_⟩⟩
  · have := (reads.eager ordered).mp eager
    simp [mode] at this
  · exact ⟨scope, place, slated, stop, asleep, rfl, opens ordered deferred⟩

/-- What stands in the scope of a callable makes it ready, in both modes. -/
private theorem callableBody
    {definition : Parser DefId}
    (defines : Defines order input definition)
    {decl : DeclId}
    (role : CallableRole)
    (saved : .saved decl scope ∈ facts) :
    Builds order input scope facts {.binder scope 0} start
      (rules.callableBody definition)
      fun _ parts out => ∃ notes : List Piece,
        out = Piece.terms
          (DeclForm.callable role parts.1 parts.2.1 parts.2.2).children +
          ↑notes ∧
          ∀ stock : Stock, (∀ note ∈ notes, note ∈ stock) →
            .saved decl scope ∈ stock →
            stock.Locates decl (.callable role parts.1 parts.2.1 parts.2.2) ∧
              (order.kept → stock.Rests order.eager decl
                (.callable role parts.1 parts.2.1 parts.2.2)) := by
  cases mode : input.mode with
  | eager =>
      rw [← add_zero {Piece.binder scope 0}]
      refine relaxed (Nat.zero_le start)
        (bind rfl (build.parsedSignature room mode) ?_)
      rintro ⟨params, result⟩ later _ - ⟨keyed, rfl, rfl⟩
      rw [add_zero]
      refine leaving _ rfl (defines.parsed later mode room) ?_
      rintro definition last _ - rfl
      refine pure fun _ _ =>
        ⟨keyed.map fun param => .bound param.1 scope param.2, ?_, ?_⟩
      · simp only [DeclForm.children, Piece.terms_append, Piece.terms_cons,
          Piece.terms_nil, Piece.members]
        abel
      · exact fun stock known => readies_of_bound mode build.reads
          fun param listed => known _ (List.mem_map_of_mem listed)
  | deferred =>
      refine dozed saved (call (build.capturedSignature room mode) ?_)
      rintro ⟨params, result⟩ later _ - ⟨slated, rfl, rising, rfl⟩
      refine call (defines.captured later mode room) ?_
      rintro definition last _ - ⟨stop, notes, onward, rfl, opens⟩
      refine pure fun _ _ => ⟨slated, stop, Piece.terms (DeclForm.callable role
        (slated.map Prod.fst) result definition).children + ↑notes, ?_, ?_,
        .asleep decl scope 0 slated stop :: notes, ?_, fun stock known => ?_⟩
      · exact ⟨rising.1, fun place listed =>
          ⟨Nat.zero_le _, Nat.lt_of_lt_of_le (rising.2 place listed).2 onward⟩⟩
      · simp only [DeclForm.children, Piece.terms_append, Piece.terms_cons,
          Piece.terms_nil]
        abel
      · rw [← Multiset.cons_coe, ← Multiset.singleton_add]
        abel
      · exact readies_of_asleep mode build.reads
          (known _ (List.mem_cons_self ..))
          fun ordered deferred =>
            known _ (List.mem_cons_of_mem _ (opens ordered deferred))

private theorem callable
    {definition : Parser DefId}
    (defines : Defines order input definition)
    {role : CallableRole}
    {span : Span}
    {specifiers : Specifiers}
    {place lower : Nat}
    (starts : order.kept → span.start = order.startOf place)
    (behind : lower ≤ place)
    (past : place < start) :
    Builds order input scope facts {.binder scope lower} start
      (rules.callable role span specifiers definition) (givesDecl scope) := by
  refine identified build.reads fun name spelling named further _ =>
    next (eat _) fun _ =>
    hollowBound rfl (List.mem_cons_self ..) (List.mem_cons_of_mem _ room) starts
      behind
      fun decl after onward => ?_
  refine regionOf
    ({.bound decl scope (.simple spelling)} + {.binder scope (place + 1)} +
    {.begun decl}) ?_ (by simp [room]) fun region inner beyond _ => ?_
  · abel
  refine leaving
    ({.bound decl scope (.simple spelling)} + {.binder scope (place + 1)} +
    {.begun decl}) rfl
    (within (build.callableBody (by simp) defines role (List.mem_cons_self ..)))
      ?_
  rintro ⟨params, result, definition⟩ last _ final ⟨notes, rfl, ready⟩
  have regroup :
      (Piece.terms (DeclForm.callable role params result definition).children +
        ↑notes +
      ({.bound decl scope (.simple spelling)} + {.binder scope (place + 1)} +
        {.begun decl}) : Stock) =
        ↑notes + ({.begun decl} + Piece.terms
          (DeclForm.callable role params result definition).children +
            ({.bound decl scope (.simple spelling)} +
              {.binder scope (place + 1)})) := by
    abel
  rw [regroup]
  refine keepAll (completedLast spelling 0 (by rw [add_zero]) build.reads starts
    (by omega) (by simp)
    (by simp) (fun stock known => ?_) fun ordered stock known => ?_)
  · exact (ready stock
      (fun note listed => known _ (List.mem_append_left _ listed))
      (known _ (by simp))).1
  · exact (ready stock
      (fun note listed => known _ (List.mem_append_left _ listed))
      (known _ (by simp))).2 ordered

private theorem functionDeclaration :
    Builds order input scope facts {.binder scope start} start
      rules.functionDeclaration
      (givesDecl scope) :=
  announced build.reads fun _ _ _ _ onward past starts =>
    next (observe _) fun _ =>
      build.callable room build.functionDefinition starts onward past

private theorem coroutineDeclaration :
    Builds order input scope facts {.binder scope start} start
      rules.coroutineDeclaration
      (givesDecl scope) :=
  announced build.reads fun _ _ _ _ onward past starts =>
    build.callable room build.coroutineDefinition starts onward past

private theorem classKind :
    Builds order input scope facts 0 start rules.classKind (gives .type) := by
  refine next (observe _) fun kind => ?_
  split
  · exact next (observe _) fun _ => addType rfl nofun
  · exact next (observe _) fun _ => addType rfl nofun
  · exact build.declaredType room _

/--
A class without a body has none to be captured; a captured one keeps the right
to bind.
-/
private theorem classDefinition (decl : DeclId) :
    Builds order input scope facts {.unsaved decl} start
      (rules.classDefinition decl)
      fun _ definition out => ∃ notes : List Piece, out =
        {.term (.definition definition)} + ↑notes ∧
        ∀ (stock : Stock) (kind : TypeId), (∀ note ∈ notes, note ∈ stock) →
          order.kept →
          stock.Rests order.eager decl (.classType kind definition) := by
  refine next (observe _) fun _ => eaten ?_ ?_
  · rw [← add_zero {Piece.unsaved decl}]
    refine drop (spanned fun _ =>
      (addDefinition none (by rfl) (by nofun)).weaken ?_)
    rintro _ definition _ _ ⟨notes, rfl, opens⟩
    exact ⟨notes, rfl, fun stock kind known ordered deferred =>
      .inl (known _ (opens ordered deferred))⟩
  · rw [← add_zero {Piece.unsaved decl}]
    refine regionOf 0 rfl room fun region later onward _ => ?_
    cases mode : input.mode with
    | eager =>
        rw [add_zero]
        refine bind (add_zero _).symm
          (enclosed (parsedBody mode (build.memberBody (by simp)))) ?_
        rintro body last _ - rfl
        rw [add_zero]
        refine spanned fun _ =>
          (addDefinition none (by rfl) fun ordered deferred => ?_).weaken ?_
        · exact absurd ((build.reads.eager ordered).mpr mode) deferred
        · rintro _ definition _ _ ⟨notes, rfl, -⟩
          exact ⟨notes, rfl, fun stock kind known ordered deferred =>
            absurd ((build.reads.eager ordered).mpr mode) deferred⟩
    | deferred =>
        rw [add_zero]
        have body : Builds order input scope
            (.saved decl region :: .room region :: facts)
            {.binder region 0} later
            (Parser.within region (Parser.bracedBody rules.memberBody))
                fun _ stmt out =>
              ∃ stop, out = {.asleep decl region 0 [] stop} +
                ({.term (.stmt stmt)} + {.opens (.stmt stmt) (some stop)}) := by
          refine within (dozed (List.mem_cons_self ..)
            ((capturedBody build.reads mode).weaken ?_))
          rintro _ stmt _ _ ⟨stop, -, rfl⟩
          exact ⟨[], stop, _, .nil 0 stop, (zero_add _).symm, stop, rfl⟩
        refine bind (add_zero _).symm body ?_
        rintro body last _ - ⟨stop, rfl⟩
        have regroup :
            ({.asleep decl region 0 [] stop} + ({.term (.stmt body)} +
            {.opens (.stmt body) (some stop)}) + 0 : Stock) =
              {.opens (.stmt body) (some stop)} +
              ({.term (.stmt body)} + {.asleep decl region 0 [] stop}) := by
          rw [add_zero]
          abel
        rw [regroup]
        refine keep (spanned fun _ =>
          beside _ ((addDefinition (some stop) (by rfl) ?_).weaken ?_))
        · rintro _ _ _ ⟨⟩
          exact List.mem_cons_self ..
        · rintro _ definition _ _ ⟨notes, rfl, opens⟩
          refine ⟨.asleep decl region 0 [] stop :: notes,
              ?_, fun stock kind known ordered deferred =>
            .inr ⟨region, 0, stop, known _ (List.mem_cons_self ..),
              known _ (List.mem_cons_of_mem _ (opens ordered deferred))⟩⟩
          rw [← Multiset.cons_coe, ← Multiset.singleton_add]
          abel

private theorem classDeclaration :
    Builds order input scope facts {.binder scope start} start
      rules.classDeclaration
      (givesDecl scope) := by
  refine announced
      build.reads fun span waiting place later onward past starts =>
    identified build.reads fun name spelling named further _ =>
      next (eat _) fun _ =>
      next (build.parse (.classSpecifiers waiting) named
        (List.mem_cons_of_mem _ room))
        fun specifiers => hollowBound rfl (List.mem_cons_self ..)
          (List.mem_cons_of_mem _ room) starts
          onward fun decl after behind =>
            given (build.classKind (by simp [room]))
            fun kind kinded beyond =>
              leaving ({.term (.type kind)} +
                ({.bound decl scope (.simple spelling)} +
              {.binder scope (place + 1)} + {.begun decl})) ?_
                (build.classDefinition (by simp [room]) decl) ?_
  · abel
  rintro definition last _ final ⟨notes, rfl, ready⟩
  have regroup :
      ({.term (.definition definition)} + ↑notes + ({.term (.type kind)} +
      ({.bound decl scope (.simple spelling)} + {.binder scope (place + 1)} +
        {.begun decl})) : Stock) =
        ↑notes + ({.begun decl} +
          Piece.terms (DeclForm.classType kind definition).children +
          ({.bound decl scope (.simple spelling)} +
            {.binder scope (place + 1)})) := by
    simp only [DeclForm.children, Piece.terms_cons, Piece.terms_nil]
    abel
  rw [regroup]
  refine keepAll (completedLast spelling 0 (by rw [add_zero]) build.reads starts
    (by omega) (by simp)
    (by simp) (fun _ _ => trivial) fun ordered stock known => ?_)
  exact ready stock kind
    (fun note listed => known _ (List.mem_append_left _ listed)) ordered

private theorem declaration :
    Builds order input scope facts {.binder scope start} start rules.declaration
      (givesDecl scope) := by
  refine next (build.parse .specifiers start room) fun _ =>
    next (observe _) fun token => ?_
  split
  · exact build.variableDeclaration room
  · exact build.functionDeclaration room
  · exact build.coroutineDeclaration room
  · exact build.classDeclaration room
  · exact build.superDeclaration room
  · exact build.conceptDeclaration room
  · exact build.templateDeclaration room
  · exact build.namespaceDeclaration room
  · exact failAt _ _

/-- Each production builds what is said of its nonterminal. -/
private theorem produce
    {Value : Type}
    (nonterminal : Nonterminal Value) :
    Builds order input scope facts (nonterminal.needs scope start) start
      (rules.produce nonterminal) (nonterminal.Gives scope start) := by
  cases nonterminal with
  | type => exact build.wholeType room
  | unaryType => exact build.unaryType room
  | typeSuffixes place base => exact build.typeSuffixes room place base
  | listedTypes afterComma => exact build.listedTypes room afterComma
  | templateArgs => exact build.templateArgs room
  | tier tier => exact build.tiered room tier
  | operations tier left => exact build.operations room tier left
  | unary => exact build.unary room
  | postfixes place object => exact build.postfixes room place object
  | expressions => exact build.expressions room
  | requirements => exact build.requirements room
  | statement => exact build.statement room
  | unitStatements => exact build.unitStatements room
  | bracedStatements => exact build.bracedStatements room
  | declaration => exact build.declaration room
  | specifiers => exact build.specifiers room
  | paramSpecifiers read => exact build.paramSpecifiers read room
  | classSpecifiers read => exact build.classSpecifiers read room
  | params bound => exact build.params room bound
  | templateParams => exact build.templateParams room
  | conceptMembers => exact build.conceptMembers room

end Rules.Build

/--
Whatever the bound on nested calls, all nonterminals build what is said of them.
-/
theorem Rules.nested_build
    {order : Order}
    {input : ParserInput}
    (reads : order.Reads input)
    (depth : Nat) :
    (Rules.nested depth).Build order input := by
  induction depth with
  | zero =>
      exact { reads := reads, composed := Rules.nested_allComposed 0
              parse := fun _ _ _ _ _ _ _ _ _ _ _ => trivial }
  | succ depth inductionHypothesis =>
      exact { reads := reads, composed := Rules.nested_allComposed (depth + 1)
              parse := fun nonterminal _ _ _ room =>
                inductionHypothesis.produce room nonterminal }

end Tern
