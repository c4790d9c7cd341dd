import Tern.Proofs.Grammar.Enclosing

namespace Tern

/-!
# Types and expressions cover the text they are read from

Each production of a type or an expression is done with a term that covers what
the production has read. What follows a type or an expression is read by the
production that has begun with it, so that the terms of all suffixes, operations
and postfixes begin where the first of them did.
-/

namespace Nonterminal

variable {Value : Type}

/-- The terms that a nonterminal is given, which what it is parsed to owns. -/
def given : Nonterminal Value → List Term
  | .typeSuffixes _ base => [.type base]
  | .operations _ left => [.expr left]
  | .postfixes _ object => [.expr object]
  | _ => []

/--
The stage of a production at which a nonterminal stands that goes on with it.
-/
def begun : Nonterminal Value → Stage
  | .typeSuffixes _ _ => .past
  | .operations _ _ => .past
  | .postfixes _ _ => .past
  | _ => .here

/--
The stage behind a nonterminal: a repetition that may be empty need not read a
token.
-/
def ended : Nonterminal Value → Stage
  | .listedTypes _ => .onward
  | .unitStatements => .onward
  | .specifiers => .onward
  | .paramSpecifiers _ => .onward
  | .classSpecifiers _ => .onward
  | _ => .past

/-- What a nonterminal goes on with began at a token. -/
def BeginsAt (input : ParserInput) (first : Nat) : Nonterminal Value → Prop
  | .typeSuffixes start _ => start = input.window.spanAt first
  | .postfixes start _ => start = input.window.spanAt first
  | _ => True

/-- The terms that a nonterminal is parsed to. -/
def terms : Nonterminal Value → Value → List Term
  | .type, id => [.type id]
  | .unaryType, id => [.type id]
  | .typeSuffixes _ _, id => [.type id]
  | .listedTypes _, types => types.1.map Term.type
  | .templateArgs, args => args.map TemplateArg.term
  | .tier _, expr => [.expr expr]
  | .operations _ _, expr => [.expr expr]
  | .unary, expr => [.expr expr]
  | .postfixes _ _, expr => [.expr expr]
  | .expressions, exprs => exprs.map Term.expr
  | .requirements, reqs => reqs.map Term.requirement
  | .statement, stmt => [.stmt stmt]
  | .unitStatements, stmts => stmts.map Term.stmt
  | .bracedStatements, stmts => stmts.map Term.stmt
  | .declaration, decl => [.decl decl]
  | .specifiers, _ => []
  | .paramSpecifiers _, _ => []
  | .classSpecifiers _, _ => []
  | .params _, decls => decls.map Term.decl
  | .templateParams, _ => []
  | .conceptMembers, reqs => reqs.map Term.requirement

end Nonterminal

namespace Rules

/-- Rules by which every nonterminal covers the text that it is read from. -/
structure Spanning (rules : Rules) (input : ParserInput) : Prop where
  aligned : input.Aligned
  sweeping : rules.Sweeping input
  spans : ∀ {Value : Type} (nonterminal : Nonterminal Value) (first : Nat),
    nonterminal.BeginsAt input first →
      Spans input first nonterminal.begun nonterminal.given nonterminal.ended
        nonterminal.terms
        (rules.parse nonterminal)

namespace Spanning

open Tern.Spans

variable {rules : Rules} {input : ParserInput} {first position : Nat}
  {kept : List Term}
  (spanning : rules.Spanning input)

include spanning

theorem type (position : Nat) :
    Spans input position .here [] .past (fun type => [.type type])
      (rules.parse .type) :=
  spanning.spans .type position trivial

theorem tier (tier : Tier) (position : Nat) :
    Spans input position .here [] .past (fun expr => [.expr expr])
      (rules.parse (.tier tier)) :=
  spanning.spans (.tier tier) position trivial

theorem expression (position : Nat) :
    Spans input position .here [] .past (fun expr => [.expr expr])
      rules.expression :=
  spanning.tier .or position

omit spanning in
/-- Items up to a closer, perhaps none. -/
theorem orNone
    {Item : Type}
    {items : Nonterminal (List Item)}
    {roots : List Item → List Term}
    (closer : TokenKind)
    (spans : ∀ position, Spans input position .here [] .past roots
      (rules.parse items))
    (none : roots [] = [])
    (position : Nat) :
    Spans input position .here [] .onward roots (rules.orNone closer items) :=
  check (onward (pure _ fun _ listed => none ▸ listed))
    (onward (spans position))

private theorem typeArg (position : Nat) :
    Spans input position .here [] .past (fun arg => [arg.term]) rules.typeArg :=
  bind spanning.aligned spanning.type fun _ =>
    aside (fun _ => ⟨_, _, rfl, rfl, rfl, rfl⟩) fun _ =>
      ite (pure _ fun _ => id) failAt

private theorem exprArg (position : Nat) :
    Spans input position .here [] .past (fun arg => [arg.term]) rules.exprArg :=
  bind spanning.aligned (spanning.tier .shift) fun _ => pure _ fun _ => id

private theorem templateArg (position : Nat) :
    Spans input position .here [] .past (fun arg => [arg.term])
      rules.templateArg :=
  either ((spanning.sweeping.composed .type []).bind fun _ =>
    Composed.current.bind fun _ =>
    .ite (.pure _) (.failAt _ _)) (spanning.typeArg position)
      (spanning.exprArg position)

theorem templateArgs (position : Nat) :
    Spans input position .here [] .past (fun args => args.map TemplateArg.term)
      rules.templateArgs :=
  bind spanning.aligned spanning.templateArg fun _ =>
    eat spanning.aligned TokenKind.noConfusion
      (bind spanning.aligned
        (fun position => spanning.spans .templateArgs position trivial)
        fun _ => pure _ fun root listed => by
          simpa [Nonterminal.terms, or_comm] using listed)
      (pure _ fun _ => id)

private theorem angledArgs (position : Nat) :
    Spans input position .here [] .past (fun args => args.map TemplateArg.term)
      rules.angledArgs :=
  bind spanning.aligned
    (orNone _ (fun position => spanning.spans .templateArgs position trivial)
        rfl) fun _ =>
      bind spanning.aligned (expect spanning.aligned TokenKind.noConfusion)
          fun _ =>
        pure _ fun root listed => by
          simpa [Nonterminal.terms, noRoots] using listed

/-- A name begins with the first token of its production. -/
private theorem nameOf (decl : DeclId) (takesArgs : Bool) (name : Name) :
    Spans input first .past kept .past (fun id => [.name id])
      (rules.nameOf decl takesArgs name (input.window.spanAt first)) := by
  have plain {kept : List Term} :
      Spans input first .past kept .past (fun id => [.name id])
      (Parser.addName (.simple name) (input.window.spanAt first)) :=
    atFirst spanning.aligned (Parser.addsName _ _)
  refine ite (eat spanning.aligned TokenKind.noConfusion ?_ plain) plain
  exact bind spanning.aligned spanning.angledArgs fun args =>
    spanned spanning.aligned (Parser.addsName (.applied decl args)) fun _ =>
      List.mem_append_left _

private theorem namedType (position : Nat) :
    Spans input position .here [] .past (fun type => [.type type])
      rules.namedType := by
  refine expectIdentifier spanning.aligned fun name =>
    aside (fun _ => ⟨_, _, rfl, rfl, rfl, rfl⟩) fun found => ?_
  split
  · exact aside (fun _ => ⟨_, _, rfl, rfl, rfl, rfl⟩) fun _ => failAt
  · refine aside (fun _ => ⟨_, _, rfl, rfl, rfl, rfl⟩) fun arena => ?_
    split
    · exact aside (fun _ => ⟨_, _, rfl, rfl, rfl, rfl⟩) fun _ => failAt
    · exact hand spanning.aligned (fun _ => id)
          (spanning.nameOf _ _ name) fun id =>
        spanned spanning.aligned (Parser.addsType (.declared _ id)) fun _ =>
          List.mem_append_left _

private theorem parenthesizedType (position : Nat) :
    Spans input position .here [] .past (fun type => [.type type])
      rules.parenthesizedType := by
  refine begin <| bind spanning.aligned
      (expect spanning.aligned TokenKind.noConfusion) fun _ =>
    bind spanning.aligned
      (fun position => spanning.spans (.listedTypes false) position trivial)
      fun ⟨types, trailing⟩ =>
        bind spanning.aligned (expect spanning.aligned TokenKind.noConfusion)
            fun _ =>
          eat spanning.aligned TokenKind.noConfusion ?_ ?_
  · refine bind spanning.aligned spanning.type fun result =>
      spanned spanning.aligned (Parser.addsType (.function types result))
        fun child owned => ?_
    simp [TypeForm.children, Nonterminal.terms, noRoots] at owned ⊢
    tauto
  · split
    · exact pure _ fun root listed => by
        simpa [Nonterminal.terms, noRoots] using listed
    · exact spanned spanning.aligned (Parser.addsType (.tuple types))
          fun child owned => by
        simpa [TypeForm.children, Nonterminal.terms, noRoots] using owned

private theorem decltype (position : Nat) :
    Spans input position .here [] .past (fun type => [.type type])
      rules.decltype :=
  begin <| bind spanning.aligned (skip spanning.aligned) fun _ =>
    bind spanning.aligned (expect spanning.aligned TokenKind.noConfusion)
        fun _ =>
      bind spanning.aligned spanning.expression fun operand =>
        bind spanning.aligned (expect spanning.aligned TokenKind.noConfusion)
            fun _ =>
          spanned spanning.aligned
              (Parser.addsType (.decltype operand)) fun _ =>
            List.mem_append_left _

private theorem primaryType (position : Nat) :
    Spans input position .here [] .past (fun type => [.type type])
      rules.primaryType := by
  refine peek ?_
  split
  · exact spanning.namedType position
  · exact spanning.parenthesizedType position
  · exact spanning.decltype position
  next =>
    split
    next builtin known =>
      have real : input.window.kindAt position ≠ .endOfInput := by
        intro ended
        rw [Window.kindAt] at ended
        simp [ended, BuiltinType.ofKind?] at known
      exact hand spanning.aligned (fun _ => id)
          (skipReal spanning.aligned real) fun _ =>
        atFirst spanning.aligned (Parser.addsType (.builtin builtin) _)
    next => exact failAt

/--
Behind a type there is a suffix, which owns what the production keeps, or there
is none.
-/
private theorem typeSuffix?
    (base : TypeId)
    {Value : Type}
    {roots : Value → List Term}
    {next : Option TypeForm → Parser Value}
    (found : ∀ (form : TypeForm) {kept : List Term}, form.range? = none →
      (∀ child ∈ form.children, child ∈ kept) →
        Spans input first .past kept .past roots (next (some form)))
    (nothing : Spans input first .past [.type base] .past roots (next none)) :
    Spans input first .past [.type base] .past roots
      (rules.typeSuffix? base >>= next) := by
  have wrapped (wrapper : TypeWrapper) :
      Spans input first .past [.type base] .past roots
        (Parser.skip >>= fun _ => next (some (.wrapped wrapper base))) :=
    bind spanning.aligned (skip spanning.aligned) fun _ =>
      found _ rfl fun _ => id
  rw [Rules.typeSuffix?, bind_assoc]
  refine aside (fun _ => ⟨_, _, rfl, rfl, rfl, rfl⟩) fun kind => ?_
  split
  · exact wrapped .reference
  · exact wrapped .pointer
  · rw [bind_assoc]
    refine bind spanning.aligned (skip spanning.aligned) fun _ =>
      eatThen spanning.aligned TokenKind.noConfusion
        (found _ rfl fun _ => id) ?_
    rw [bind_assoc]
    refine bind spanning.aligned spanning.expression fun length => ?_
    rw [bind_assoc]
    refine bind spanning.aligned (expect spanning.aligned TokenKind.noConfusion)
        fun _ =>
      found _ rfl fun child owned => ?_
    simpa [TypeForm.children, noRoots, or_comm] using owned
  · split
    · exact wrapped _
    · exact nothing

theorem typeSuffixes
    (start : Span)
    (base : TypeId)
    (begins : start = input.window.spanAt first) :
    Spans input first .past [.type base] .past (fun type => [.type type])
      (rules.typeSuffixes start base) := by
  subst begins
  refine spanning.typeSuffix? base (fun form kept whole owned => ?_)
    (pure _ fun _ => id)
  exact through spanning.aligned
    (spanned spanning.aligned (fun span => whole ▸ Parser.addsType form span)
        owned) fun next =>
      (spanning.spans (.typeSuffixes (input.window.spanAt first) next) first
        rfl).weaken
        (fun _ => List.mem_append_left _) id fun _ _ => id

theorem unaryType (position : Nat) :
    Spans input position .here [] .past (fun type => [.type type])
      rules.unaryType := by
  refine peek ?_
  split
  next qualifiers _ =>
    exact bind spanning.aligned (skip spanning.aligned) fun _ =>
      bind spanning.aligned
        (fun position => spanning.spans .unaryType position trivial)
        fun inner => spanned spanning.aligned
          (Parser.addsType (.wrapped (.qualified qualifiers) inner)) fun _ =>
            List.mem_append_left _
  next =>
    exact bind spanning.aligned spanning.primaryType fun base =>
      spanning.spans (.typeSuffixes (input.window.spanAt position) base)
        position rfl

theorem typeWithPack (position : Nat) :
    Spans input position .here [] .past (fun type => [.type type]) rules.type :=
  begin <| bind spanning.aligned
    (fun position => spanning.spans .unaryType position trivial)
    fun base => eat spanning.aligned TokenKind.noConfusion
      (spanned spanning.aligned (Parser.addsType (.wrapped .pack base)) fun _ =>
        List.mem_append_left _)
      (pure _ fun _ => id)

theorem listedTypes (afterComma : Bool) (position : Nat) :
    Spans input position .here [] .onward (fun types => types.1.map Term.type)
      (rules.listedTypes afterComma) :=
  check (onward (pure _ fun _ => id)) <| onward <|
      bind spanning.aligned spanning.type fun _ =>
    eat spanning.aligned TokenKind.noConfusion
      (bind spanning.aligned
        (fun position => spanning.spans (.listedTypes true) position trivial)
        fun _ => pure _ fun root listed => by
          simpa [Nonterminal.terms, or_comm] using listed)
      (pure _ fun _ => id)

private theorem operand (tier : Tier) (position : Nat) :
    Spans input position .here [] .past (fun expr => [.expr expr])
      (rules.operand tier) := by
  unfold Rules.operand
  split
  · exact spanning.tier _ position
  · exact spanning.spans .unary position trivial

/-- Two operands are joined with the span that covers both. -/
private theorem joined (op : BinaryOp) {left right : ExprId}
    (isLeft : .expr left ∈ kept) (isRight : .expr right ∈ kept) :
    Spans input first .past kept .past (fun expr => [.expr expr])
      (Parser.arena >>= fun arena => Parser.addExpr (.binary op left right)
        ((arena.expr left).span.merge (arena.expr right).span)) :=
  adds spanning.aligned
    (fun state => (state.arena.expr left).span.merge
      (state.arena.expr right).span)
    (fun state => @Parser.addsExpr input (.binary op left right) _ state)
    (fun child owned => by
      simp only [ExprForm.children, List.mem_cons, List.not_mem_nil, or_false]
        at owned
      rcases owned with rfl | rfl
      · exact isLeft
      · exact isRight)
    fun {_ _ state} stands => by
      have first := stands.covers _ isLeft
      have second := stands.covers _ isRight
      have forward : (state.arena.expr left).span.Forward :=
        first.laid.here.encloses.forward
      refine ⟨?_, Nat.le_min.mpr ⟨first.start, second.start⟩,
        Nat.max_le.mpr ⟨first.stop, second.stop⟩, fun child owned => ?_⟩
      · exact Nat.le_trans (Nat.min_le_left _ _)
          (Nat.le_trans forward (Nat.le_max_left _ _))
      · simp only [ExprForm.children, List.mem_cons, List.not_mem_nil, or_false]
          at owned
        rcases owned with rfl | rfl
        · exact ⟨Nat.min_le_left _ _, Nat.le_max_left _ _⟩
        · exact ⟨Nat.min_le_right _ _, Nat.le_max_right _ _⟩

theorem operations (tier : Tier) (left : ExprId) :
    Spans input first .past [.expr left] .past (fun expr => [.expr expr])
      (rules.operations tier left) := by
  refine aside (fun _ => ⟨_, _, rfl, rfl, rfl, rfl⟩) fun kind => ?_
  split
  · exact pure _ fun _ => id
  next op _ =>
    exact bind spanning.aligned (skip spanning.aligned) fun _ =>
      bind spanning.aligned (spanning.operand tier) fun right =>
        through spanning.aligned
          (spanning.joined op
            (List.mem_cons_of_mem _ (List.mem_singleton_self _))
            List.mem_cons_self) fun joined =>
          (spanning.spans (.operations tier joined) first trivial).weaken
            (fun _ => List.mem_append_left _) id fun _ _ => id

theorem tiered (tier : Tier) (position : Nat) :
    Spans input position .here [] .past (fun expr => [.expr expr])
      (rules.tiered tier) :=
  bind spanning.aligned (spanning.operand tier) fun left =>
    spanning.spans (.operations tier left) position trivial

theorem expressions (position : Nat) :
    Spans input position .here [] .past (fun exprs => exprs.map Term.expr)
      rules.expressions :=
  bind spanning.aligned spanning.expression fun _ =>
    eat spanning.aligned TokenKind.noConfusion
      (bind spanning.aligned
        (fun position => spanning.spans .expressions position trivial)
        fun _ => pure _ fun root listed => by
          simpa [Nonterminal.terms, or_comm] using listed)
      (pure _ fun _ => id)

private theorem closedExpressions (position : Nat) :
    Spans input position .here [] .past (fun exprs => exprs.map Term.expr)
      rules.closedExpressions :=
  bind spanning.aligned
    (orNone _ (fun position => spanning.spans .expressions position trivial)
        rfl) fun _ =>
      bind spanning.aligned (expect spanning.aligned TokenKind.noConfusion)
          fun _ =>
        pure _ fun root listed => by
          simpa [Nonterminal.terms, noRoots] using listed

private theorem namedExpression (position : Nat) :
    Spans input position .here [] .past (fun expr => [.expr expr])
      rules.namedExpression := by
  refine expectIdentifier spanning.aligned fun name =>
    aside (fun _ => ⟨_, _, rfl, rfl, rfl, rfl⟩) fun found => ?_
  split
  · exact aside (fun _ => ⟨_, _, rfl, rfl, rfl, rfl⟩) fun _ => failAt
  next decl =>
    exact aside (fun _ => ⟨_, _, rfl, rfl, rfl, rfl⟩) fun _ =>
      hand spanning.aligned (fun _ => id)
          (spanning.nameOf decl _ name) fun id =>
        spanned spanning.aligned (Parser.addsExpr (.reference decl id)) fun _ =>
          List.mem_append_left _
  next decls _ =>
    exact hand spanning.aligned (fun _ => id)
      (atFirst spanning.aligned (Parser.addsName (.simple name) _)) fun id =>
        spanned spanning.aligned (Parser.addsExpr (.overload id decls)) fun _ =>
          List.mem_append_left _

private theorem parenthesizedExpression (position : Nat) :
    Spans input position .here [] .past (fun expr => [.expr expr])
      rules.parenthesizedExpression :=
  begin <| bind spanning.aligned (expect spanning.aligned TokenKind.noConfusion)
      fun _ =>
    eat spanning.aligned TokenKind.noConfusion
      (spanned spanning.aligned (Parser.addsExpr (.tuple [])) fun _ owned =>
        nomatch owned)
      (bind spanning.aligned spanning.expression fun first =>
        eat spanning.aligned TokenKind.noConfusion
          (pure _ fun _ => List.mem_append_left _)
          (bind spanning.aligned (expect spanning.aligned TokenKind.noConfusion)
              fun _ =>
            bind spanning.aligned spanning.closedExpressions fun rest =>
              spanned spanning.aligned
                (Parser.addsExpr (.tuple (first :: rest)))
                fun child owned => by
                  simpa [ExprForm.children, noRoots, or_comm] using owned))

private theorem requiresParams (position : Nat) :
    Spans input position .here [] .onward (fun parms => parms.map Term.decl)
      rules.requiresParams :=
  eat spanning.aligned TokenKind.noConfusion
    (onward <| bind spanning.aligned
      (orNone _ (fun position => spanning.spans (.params true) position trivial)
          rfl) fun _ =>
        bind spanning.aligned (expect spanning.aligned TokenKind.noConfusion)
            fun _ =>
          pure _ fun root listed =>
            by simpa [Nonterminal.terms, noRoots] using listed)
    (onward (pure _ fun _ => id))

private theorem requiresBody (position : Nat) :
    Spans input position .here [] .past
      (fun body => body.1.map Term.decl ++ body.2.map Term.requirement)
        rules.requiresBody :=
  bind spanning.aligned spanning.requiresParams fun parms =>
    bind spanning.aligned (expect spanning.aligned TokenKind.noConfusion)
        fun _ =>
      bind spanning.aligned
        (fun position => spanning.spans .requirements position trivial)
        fun reqs => pure _ fun root listed => by
          simpa [Nonterminal.terms, noRoots, or_comm] using listed

private theorem requiresExpression (position : Nat) :
    Spans input position .here [] .past (fun expr => [.expr expr])
      rules.requiresExpression :=
  begin <| bind spanning.aligned (expect spanning.aligned TokenKind.noConfusion)
      fun _ =>
    aside (fun _ => ⟨_, _, rfl, rfl, rfl, rfl⟩) fun scope =>
      bind spanning.aligned
        (fun position => within scope (spanning.requiresBody position))
        fun ⟨parms, reqs⟩ =>
          spanned spanning.aligned
              (Parser.addsExpr (.requires parms reqs scope)) fun _ =>
            List.mem_append_left _

omit spanning in
private theorem literal (aligned : input.Aligned) {form : ExprForm}
    (real : input.window.kindAt position ≠ .endOfInput)
      (plain : form.children = [])
    (whole : form.range? = none) :
    Spans input position .here [] .past (fun expr => [.expr expr])
      (Rules.literal form) :=
  advanceReal aligned real <| atFirst aligned <|
    plain ▸ whole ▸ Parser.addsExpr form _

private theorem primary (position : Nat) :
    Spans input position .here [] .past (fun expr => [.expr expr])
      rules.primary := by
  have real {kind : TokenKind}
      (found : (input.window.tokenAt position).kind = kind)
      (other : kind ≠ .endOfInput) : input.window.kindAt position ≠
        .endOfInput :=
    fun ended => other (found.symm.trans ended)
  refine peek ?_
  split
  next found =>
    exact literal spanning.aligned (real found TokenKind.noConfusion) rfl rfl
  next found =>
    exact literal spanning.aligned (real found TokenKind.noConfusion) rfl rfl
  next found =>
    exact literal spanning.aligned (real found TokenKind.noConfusion) rfl rfl
  · exact spanning.namedExpression position
  · exact spanning.parenthesizedExpression position
  · exact spanning.requiresExpression position
  · exact failAt

/--
Behind an expression there is a postfix, which owns what the production keeps,
or none.
-/
private theorem postfix?
    (object : ExprId)
    {Value : Type}
    {roots : Value → List Term}
    {next : Option ExprForm → Parser Value}
    (found : ∀ (form : ExprForm) {kept : List Term}, form.range? = none →
      (∀ child ∈ form.children, child ∈ kept) →
        Spans input first .past kept .past roots (next (some form)))
    (nothing : Spans input first .past [.expr object] .past roots (next none)) :
    Spans input first .past [.expr object] .past roots
      (rules.postfix? object >>= next) := by
  rw [Rules.postfix?, bind_assoc]
  refine aside (fun _ => ⟨_, _, rfl, rfl, rfl, rfl⟩) fun kind => ?_
  split
  · rw [bind_assoc]
    refine bind spanning.aligned (skip spanning.aligned) fun _ => ?_
    rw [bind_assoc]
    refine bind spanning.aligned spanning.closedExpressions fun args =>
      found _ rfl fun child owned => ?_
    simpa [ExprForm.children, noRoots, or_comm] using owned
  · rw [bind_assoc]
    refine bind spanning.aligned (skip spanning.aligned) fun _ => ?_
    rw [bind_assoc]
    refine bind spanning.aligned (identifier spanning.aligned) fun member =>
      found _ rfl fun child owned => ?_
    simpa [ExprForm.children, noRoots, or_comm] using owned
  · rw [bind_assoc]
    refine bind spanning.aligned (skip spanning.aligned) fun _ => ?_
    rw [bind_assoc]
    refine bind spanning.aligned spanning.expression fun index => ?_
    rw [bind_assoc]
    refine bind spanning.aligned (expect spanning.aligned TokenKind.noConfusion)
        fun _ =>
      found _ rfl fun child owned => ?_
    simpa [ExprForm.children, noRoots, or_comm] using owned
  · exact nothing

theorem postfixes
    (start : Span)
    (object : ExprId)
    (begins : start = input.window.spanAt first) :
    Spans input first .past [.expr object] .past (fun expr => [.expr expr])
      (rules.postfixes start object) := by
  subst begins
  refine spanning.postfix? object (fun form kept whole owned => ?_)
    (pure _ fun _ => id)
  exact through spanning.aligned
    (spanned spanning.aligned (fun span => whole ▸ Parser.addsExpr form span)
        owned) fun next =>
      (spanning.spans (.postfixes (input.window.spanAt first) next) first
        rfl).weaken
        (fun _ => List.mem_append_left _) id fun _ _ => id

theorem unary (position : Nat) :
    Spans input position .here [] .past (fun expr => [.expr expr])
      rules.unary := by
  refine peek ?_
  split
  next op _ =>
    exact bind spanning.aligned (skip spanning.aligned) fun _ =>
      bind spanning.aligned
        (fun position => spanning.spans .unary position trivial)
        fun operand => spanned spanning.aligned
            (Parser.addsExpr (.unary op operand)) fun _ =>
          List.mem_append_left _
  next =>
    exact bind spanning.aligned spanning.primary fun object =>
      spanning.spans (.postfixes (input.window.spanAt position) object)
        position rfl

end Spanning

end Rules

end Tern
