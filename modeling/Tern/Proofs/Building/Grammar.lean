import Tern.Proofs.Building.Declarations
import Tern.Proofs.Building.Naming
import Tern.Proofs.Grammar.Productions

namespace Tern

/-!
# What the grammar builds

A nonterminal takes the term that it goes on with and the right to bind in the
current scope, if it binds there, and gives the term that it is parsed to.
Types, expressions and requirements bind nothing in the current scope.
-/

/-- The pieces that say where each of some declarations is bound in a scope. -/
def Piece.members (scope : ScopeId) (keyed : List (DeclId × Key)) : Stock :=
  ↑(keyed.map fun param => Piece.bound param.1 scope param.2)

namespace Nonterminal

variable {Value : Type}

/-- The pieces that a nonterminal takes. -/
def needs (scope : ScopeId) (start : Nat) : Nonterminal Value → Stock
  | .typeSuffixes _ base => {.term (.type base)}
  | .operations _ left => {.term (.expr left)}
  | .postfixes _ object => {.term (.expr object)}
  | .statement => {.binder scope start}
  | .unitStatements => {.binder scope start}
  | .bracedStatements => {.binder scope start}
  | .declaration => {.binder scope start}
  | .params bound => if bound then {.binder scope start} else 0
  | .templateParams => {.binder scope start}
  | _ => 0

/--
Some parameters are given, bound in a scope or to be bound there in order.
-/
def GivesParams (scope : ScopeId) (start : Nat) (bound : Bool) (later : Nat)
    (params : List DeclId) (out : Stock) : Prop :=
  match bound with
  | true => ∃ keyed : List (DeclId × Key), keyed.map Prod.fst = params ∧
      out = {.binder scope later} + Piece.terms (params.map .decl) +
        Piece.members scope keyed
  | false => ∃ slated : List (DeclId × Key × Nat), slated.map Prod.fst =
      params ∧
      Rising start (slated.map fun param => param.2.2) later ∧
        out = Piece.terms (params.map .decl) + Piece.slated scope slated

/-- What a nonterminal gives. -/
def Gives (scope : ScopeId) (start : Nat) :
    Nonterminal Value → Nat → Value → Stock → Prop
  | .type => gives .type
  | .unaryType => gives .type
  | .typeSuffixes _ _ => gives .type
  | .listedTypes _ => fun _ types out => out = Piece.terms (types.1.map .type)
  | .templateArgs => givesAll TemplateArg.term
  | .tier _ => gives .expr
  | .operations _ _ => gives .expr
  | .unary => gives .expr
  | .postfixes _ _ => gives .expr
  | .expressions => givesAll .expr
  | .requirements => givesAll .requirement
  | .statement => fun later stmt out => out = {.binder scope later} +
      {.term (.stmt stmt)}
  | .unitStatements => fun later stmts out =>
      out = {.binder scope later} + Piece.terms (stmts.map .stmt)
  | .bracedStatements => fun later stmts out =>
      out = {.binder scope later} + Piece.terms (stmts.map .stmt)
  | .declaration => fun later decl out => ∃ key,
      out = {.binder scope later} + {.term (.decl decl)} +
        {.bound decl scope key}
  | .specifiers => nothing
  | .paramSpecifiers _ => nothing
  | .classSpecifiers _ => nothing
  | .params bound => GivesParams scope start bound
  | .templateParams => fun later _ out => out = {.binder scope later}
  | .conceptMembers => givesAll .requirement

end Nonterminal

/-- Rules by which every nonterminal builds what is said of it. -/
structure Rules.Build
    (rules : Rules)
    (order : Order)
    (input : ParserInput) :
    Prop where
  reads : order.Reads input
  composed : rules.AllComposed
  parse : ∀ {Value : Type} (nonterminal : Nonterminal Value) {scope : ScopeId}
    {facts : List Piece} (start : Nat), .room scope ∈ facts →
      Builds order input scope facts (nonterminal.needs scope start) start
        (rules.parse nonterminal)
        (nonterminal.Gives scope start)

/--
A declaration that is chosen as a type is one of those among which it is chosen.
-/
private theorem Arena.mem_of_typeAmong?
    {arena : Arena}
    {decls : OverloadSet}
    {decl : DeclId}
    (among : arena.typeAmong? decls = some decl) :
    decl ∈ decls := by
  rw [typeAmong?] at among
  split at among
  next found =>
      cases among
      exact List.mem_of_find?_eq_some found
  next => exact List.mem_of_find?_eq_some among

namespace Builds

variable {Value First Item : Type} {order : Order} {input : ParserInput}
  {scope : ScopeId}
  {facts : List Piece} {pre kept : Stock} {start : Nat}
    {post : Nat → Value → Stock → Prop}
  {rules : Rules}

/-- Behind a parser that gives one term the rest has that term. -/
theorem given
    {parser : Parser First}
    {next : First → Parser Value}
    {term : First → Term}
    (first : Builds order input scope facts 0 start parser (gives term))
    (rest : ∀ value later, start ≤ later →
      Builds order input scope facts ({.term (term value)} + pre) later
        (next value) post) :
    Builds order input scope facts pre start (parser >>= next) post :=
  call first fun value later out onward same => by
    obtain rfl : out = _ := same
    exact rest value later onward

/-- Behind a parser that gives some terms the rest has those terms. -/
theorem givenAll
    {parser : Parser (List Item)}
    {next : List Item → Parser Value}
    {term : Item → Term}
    (first : Builds order input scope facts 0 start parser (givesAll term))
    (rest : ∀ values later, start ≤ later →
      Builds order input scope facts (Piece.terms (values.map term) + pre) later
        (next values)
        post) :
    Builds order input scope facts pre start (parser >>= next) post :=
  call first fun value later out onward same => by
    obtain rfl : out = _ := same
    exact rest value later onward

/-- The term at hand is given. -/
theorem give {value : Value} {term : Value → Term} :
    Builds order input scope facts {.term (term value)} start (Pure.pure value)
      (gives term) :=
  pure fun _ _ => rfl

/-- A repetition that may be empty gives the terms of its items. -/
theorem orNone
    {closer : TokenKind}
    {items : Nonterminal (List Item)}
    {term : Item → Term}
    (builds : Builds order input scope facts 0 start (rules.parse items)
      (givesAll term)) :
    Builds order input scope facts 0 start (rules.orNone closer items)
      (givesAll term) :=
  checked (pure fun _ _ => rfl) builds

/-- Items in braces give the terms that they give one by one. -/
theorem bracedItems
    {item : Parser Item}
    {rest : Nonterminal (List Item)}
    {term : Item → Term}
    (one : Builds order input scope facts 0 start item (gives term))
    (more : ∀ start, Builds order input scope facts 0 start (rules.parse rest)
      (givesAll term)) :
    Builds order input scope facts 0 start (rules.bracedItems item rest)
      (givesAll term) :=
  eaten (pure fun _ _ => rfl) (next (observe _) fun _ =>
    ite (fun _ => next (observe _) fun _ => failAt _ _) fun _ =>
      given one fun head middle _ =>
      givenAll (more middle) fun tail _ _ => pure fun _ _ => by
        simp only [givesAll, List.map_cons, Piece.terms_cons]
        abel)

/-- The right to bind in a scope is kept for later places. -/
theorem relaxed
    {parser : Parser Value}
    {region : ScopeId}
    {lower further : Nat}
    (onward : lower ≤ further)
    (builds : Builds order input scope facts ({.binder region further} + kept)
      start parser post) :
    Builds order input scope facts ({.binder region lower} + kept) start parser
      post :=
  first (fun state rest _ _ _ => by
    simp only [Multiset.singleton_add, Multiset.cons_add]
    exact .single (.relax onward rfl)) builds

/-- A parser builds in a scope of its own as it does there. -/
theorem enclosed
    {parser : Parser Value}
    {region : ScopeId}
    (builds : Builds order input region facts {.binder region start} start
      parser post) :
    Builds order input scope facts {.binder region 0} start
      (Parser.within region parser) post := by
  rw [← add_zero {Piece.binder region 0}]
  refine relaxed (Nat.zero_le start) ?_
  rw [add_zero]
  exact within builds

/-- Steps of building that no parser takes may come last. -/
theorem settled
    {parser : Parser Value}
    {before : Nat → Value → Stock → Prop}
    (builds : Builds order input scope facts pre start parser before)
    (settle : ∀ later value out, start ≤ later → before later value out →
      ∃ given, post later value given ∧ ∀ (site : Worksite) (rest : Stock),
        (∀ fact ∈ facts, fact ∈ rest) →
          BuildSteps order { site with stock := out + rest }
            { site with stock := given + rest }) :
    Builds order input scope facts pre start parser post := by
  intro state grounded frame stands known sound
  have ended := builds state grounded frame stands known sound
  cases ending : parser input state with
  | done value after =>
      rw [ending] at ended
      obtain ⟨atAfter, out, more, reached, steps⟩ := ended
      obtain ⟨given, settles, last⟩ :=
        settle _ _ _ (Nat.le_trans stands.onward atAfter.onward) reached
      refine ⟨atAfter, given, more, settles, steps.trans ?_⟩
      simp only [add_assoc]
      exact last (after.site 0) _ fun fact listed => by simp [known fact listed]
  | failed error after =>
      rw [ending] at ended
      exact ended
  | exhausted => trivial

/--
The right to bind in a scope is given for the places that are still to come.
-/
theorem relaxedBehind
    {parser : Parser Value}
    (region : ScopeId)
    (builds : Builds order input scope facts pre start
        parser fun later value out =>
      ∃ lower kept, lower ≤ later ∧ out = {.binder region lower} + kept ∧
        post later value ({.binder region later} + kept)) :
    Builds order input scope facts pre start parser post :=
  builds.settled fun later value out _ => by
    rintro ⟨lower, kept, onward, rfl, given⟩
    refine ⟨_, given, fun site rest _ => ?_⟩
    simp only [Multiset.singleton_add, Multiset.cons_add]
    exact .single (.relax onward rfl)

/-- A parser that binds nothing in a scope gives the right to bind there on. -/
theorem besideBinder
    {parser : Parser Value}
    {region : ScopeId}
    {lower : Nat}
    (onward : lower ≤ start)
    (builds : Builds order input scope facts pre start
        parser fun later value out =>
      post later value ({.binder region later} + out)) :
    Builds order input scope facts ({.binder region lower} + pre) start parser
      post := by
  rw [add_comm]
  refine relaxedBehind region (beside _ ?_)
  refine builds.weaken fun later _ out further given => ?_
  exact ⟨lower, out, Nat.le_trans onward further, add_comm _ _, given⟩

/-- Nothing is read, and the right to bind in a scope is given on. -/
theorem pureRelaxed
    {value : Value}
    {region : ScopeId}
    {lower : Nat}
    (onward : lower ≤ start)
    (given : ∀ later, start ≤ later →
      post later value ({.binder region later} + kept)) :
    Builds order input scope facts ({.binder region lower} + kept) start
      (Pure.pure value) post :=
  relaxedBehind region (pure fun later further =>
    ⟨lower, kept, Nat.le_trans onward further, rfl, given later further⟩)

/--
A place behind which a span begins is of no account to a term that is no
declaration.
-/
theorem spanned
    {place : Span}
    {add : Span → Parser Value}
    (builds : ∀ span, Builds order input scope facts pre start (add span)
      post) :
    Builds order input scope facts pre start (Parser.spanFrom place >>= add)
      post :=
  next (observe _) builds

end Builds

namespace Rules.Build

open Tern.Builds

variable {order : Order} {input : ParserInput} {scope : ScopeId}
  {facts : List Piece}
  {start : Nat} {rules : Rules} (build : rules.Build order input)

include build

/-- A parser that the grammar is made of is composed of steps. -/
theorem composedOf
    {Value : Type}
    {gives : Value → Bool}
    {parser : Rules → Parser Value}
    (place : Place)
    (production : Production place gives parser)
    (alone : place.own = []) :
    Composed [] (parser rules) :=
  alone ▸ production.composed build.composed

variable (room : .room scope ∈ facts)

include room

/--
Behind what binds in the current scope, the rest goes on with what that gives.
-/
theorem binding
    {Value First : Type}
    {next : First → Parser Value}
    {post : Nat → Value → Stock → Prop}
    {lower : Nat}
    {kept : Stock}
    (nonterminal : Nonterminal First)
    (needs : nonterminal.needs scope start = {.binder scope start})
    (onward : lower ≤ start)
    (rest : ∀ value later out, start ≤ later →
      nonterminal.Gives scope start later value out →
      Builds order input scope facts (out + kept) later (next value) post) :
    Builds order input scope facts ({.binder scope lower} + kept) start
      (rules.parse nonterminal >>= next) post :=
  relaxed onward (bind rfl (needs ▸ build.parse nonterminal start room) rest)

theorem type :
    Builds order input scope facts 0 start (rules.parse .type) (gives .type) :=
  build.parse .type start room

theorem expression :
    Builds order input scope facts 0 start rules.expression (gives .expr) :=
  build.parse (.tier .or) start room

private theorem templateArg :
    Builds order input scope facts 0 start rules.templateArg
      (gives TemplateArg.term) := by
  refine either (build.composedOf ⟨[], true, 2, False, False⟩
    (.typeArg (by decide)) rfl) ?_ ?_
  · exact given (build.type room) fun type _ _ => next (observe _) fun _ =>
      ite (fun _ => pure fun _ _ => add_zero _) fun _ => failAt _ _
  · exact given (build.parse (.tier .shift) start room) fun expr _ _ =>
      pure fun _ _ => add_zero _

theorem templateArgs :
    Builds order input scope facts 0 start rules.templateArgs
      (givesAll TemplateArg.term) :=
  given (build.templateArg room) fun arg later _ => eaten
    (givenAll (build.parse .templateArgs later room) fun rest _ _ =>
      pure fun _ _ => by
      simp only [givesAll, List.map_cons, Piece.terms_cons]
      abel)
    (pure fun _ _ => by simp [givesAll])

private theorem angledArgs :
    Builds order input scope facts 0 start rules.angledArgs
      (givesAll TemplateArg.term) :=
  givenAll (Builds.orNone (build.parse .templateArgs start room)) fun _ _ _ =>
    next (expectAny _) fun _ => pure fun _ _ => add_zero _

/-- The name of a declaration has the key under which that is bound. -/
private theorem nameOf
    {decl : DeclId}
    {takesArgs : Bool}
    {name : Name}
    {span : Span}
    {region : ScopeId}
    (bound : .bound decl region (.simple name) ∈ facts) :
    Builds order input scope facts 0 start
      (rules.nameOf decl takesArgs name span)
      fun _ id out => ∃ plain, out = {.term (.name id)} +
          {.named id (.simple name) plain} := by
  have simple (later : Nat) :
      Builds order input scope facts 0 later
          (Parser.addName (.simple name) span) fun _ id out =>
        ∃ plain, out = {.term (.name id)} + {.named id (.simple name) plain} :=
    (addSimple name span).weaken fun _ _ _ _ given => ⟨true, given⟩
  refine ite (fun _ => eaten ?_ (simple start)) fun _ => simple start
  refine givenAll (build.angledArgs room) fun args later _ =>
    spanned fun _ => ?_
  exact (addApplied (add_zero _) bound).weaken fun _ _ _ _ given =>
    ⟨false, given⟩

/--
What is named is bound under the key of its name, and that is all that is to be
known of it.
-/
theorem mentioned
    {Value : Type}
    {next : NameId → Parser Value}
    {post : Nat → Value → Stock → Prop}
    {decl : DeclId}
    {takesArgs : Bool}
    {name : Name}
    {span : Span}
    {region : ScopeId}
    (bound : .bound decl region (.simple name) ∈ facts)
    (rest : ∀ id plain later,
      Builds order input scope (.named id (.simple name) plain :: facts)
      {.term (.name id)} later (next id) post) :
    Builds order input scope facts 0 start
      (rules.nameOf decl takesArgs name span >>= next)
      post := by
  refine call (build.nameOf room bound) ?_
  rintro id later _ - ⟨plain, rfl⟩
  rw [add_zero, add_comm]
  exact keep (rest id plain later)

private theorem namedType :
    Builds order input scope facts 0 start rules.namedType (gives .type) := by
  refine next ((expectIdentifier build.reads).weaken fun _ _ _ _ given =>
    given.2.2) ?_
  rintro ⟨name, span⟩
  refine call (lookup? name) ?_
  rintro found? later _ - ⟨region, rfl⟩
  refine keepAll ?_
  split
  · exact next (observe _) fun _ => failAt _ _
  next decls =>
    refine next (observe _) fun arena => ?_
    split
    · exact next (observe _) fun _ => failAt _ _
    next decl among =>
      have bound : .bound decl region (.simple name) ∈
          Piece.bounds region (.simple name) decls ++ facts :=
        List.mem_append_left
          _ (Piece.mem_bounds (Arena.mem_of_typeAmong? among))
      exact build.mentioned (List.mem_append_right _ room)
          bound fun id plain later =>
        spanned fun _ => addType rfl (List.forall_mem_singleton.mpr
          ⟨_, plain, region, List.mem_cons_self ..,
            List.mem_cons_of_mem _ bound⟩)

private theorem parenthesizedType :
    Builds order input scope facts 0 start rules.parenthesizedType
      (gives .type) := by
  refine next (observe _) fun _ => next (expectAny _) fun _ =>
    call (build.parse (.listedTypes false) start room) ?_
  rintro ⟨types, trailingComma⟩ later _ - rfl
  refine next (expectAny _) fun _ => eaten ?_ ?_
  · refine given (build.type room) fun result _ _ => spanned fun _ =>
      addType ?_ (by rintro _ ⟨⟩)
    simp only [TypeForm.children, Piece.terms_append, Piece.terms_cons,
      Piece.terms_nil]
    abel
  · rw [add_zero]
    split
    · exact pure fun _ _ => by simp [gives]
    · exact spanned fun _ => addType rfl (by rintro _ ⟨⟩)

private theorem decltype :
    Builds order input scope facts 0 start rules.decltype (gives .type) :=
  next (observe _) fun _ => next skip fun _ => next (expectAny _) fun _ =>
    given (build.expression room) fun _ _ _ => next (expectAny _) fun _ =>
      spanned fun _ =>
      addType (by simp [TypeForm.children]) nofun

private theorem primaryType :
    Builds order input scope facts 0 start rules.primaryType (gives .type) := by
  refine next (observe _) fun token => ?_
  split
  · exact build.namedType room
  · exact build.parenthesizedType room
  · exact build.decltype room
  · split
    · exact next skip fun _ => addType rfl nofun
    · exact failAt _ _

/--
A suffix behind a type takes that, and is a form of which all parts are at hand.
-/
private theorem typeSuffix? (base : TypeId) :
    Builds order input scope facts {.term (.type base)} start
      (rules.typeSuffix? base)
      fun _ form? out => match form? with
        | some form => out = Piece.terms form.children ∧ form.mentions = []
        | none => out = {.term (.type base)} := by
  have wraps (wrapper : TypeWrapper) (later : Nat) :
      Builds order input scope facts {.term (.type base)} later
        (Pure.pure (some (TypeForm.wrapped wrapper base))) fun _ form? out =>
          match form? with
          | some form => out = Piece.terms form.children ∧ form.mentions = []
          | none => out = {.term (.type base)} :=
    pure fun _ _ => ⟨by simp [TypeForm.children], rfl⟩
  refine next (observe _) fun kind => ?_
  split
  · exact next skip fun _ => wraps _ _
  · exact next skip fun _ => wraps _ _
  · refine next skip fun _ => eaten (wraps _ _) ?_
    refine given (build.expression room) fun length _ _ =>
      next (expectAny _) fun _ =>
      pure fun _ _ => ⟨?_, rfl⟩
    simp only [TypeForm.children, Piece.terms_cons, Piece.terms_nil]
    abel
  · split
    · exact next skip fun _ => wraps _ _
    · exact pure fun _ _ => rfl

theorem typeSuffixes (place : Span) (base : TypeId) :
    Builds order input scope facts {.term (.type base)} start
      (rules.typeSuffixes place base)
      (gives .type) := by
  refine bind (add_zero _).symm (build.typeSuffix? room base)
    fun form? later out _ same => ?_
  rw [add_zero]
  cases form? with
  | some form =>
      obtain ⟨rfl, plain⟩ := same
      refine spanned fun _ =>
        bind (add_zero _).symm (addType rfl (by simp [plain])) ?_
      rintro next last _ - rfl
      rw [add_zero]
      exact build.parse (.typeSuffixes place next) last room
  | none =>
      obtain rfl : out = _ := same
      exact pure fun _ _ => rfl

theorem unaryType :
    Builds order input scope facts 0 start rules.unaryType (gives .type) := by
  refine next (observe _) fun token => ?_
  split
  · exact next skip fun _ =>
      given (build.parse .unaryType start room) fun _ _ _ =>
      spanned fun _ => addType (by simp [TypeForm.children]) nofun
  · refine given (build.primaryType room) fun base later _ => ?_
    rw [add_zero]
    exact build.parse (.typeSuffixes token.span base) later room

theorem wholeType :
    Builds order input scope facts 0 start rules.type (gives .type) :=
  next (observe _) fun _ =>
    given (build.parse .unaryType start room) fun base _ _ => eaten
    (spanned fun _ => addType (by simp [TypeForm.children]) nofun)
    (pure fun _ _ => add_zero _)

theorem listedTypes (afterComma : Bool) :
    Builds order input scope facts 0 start (rules.listedTypes afterComma)
      fun _ types out => out = Piece.terms (types.1.map .type) := by
  refine checked (pure fun _ _ => rfl)
    (given (build.type room) fun type later _ => eaten ?_ ?_)
  · refine call (build.parse (.listedTypes true) later room) ?_
    rintro ⟨rest, trailingComma⟩ last _ - rfl
    refine pure fun _ _ => ?_
    simp only [List.map_cons, Piece.terms_cons]
    abel
  · exact pure fun _ _ => by simp

end Rules.Build

end Tern
