import Tern.Proofs.Spelling.Expressions
import Tern.Proofs.Grammar.Alternatives

namespace Tern

/-!
# Spelled expressions are parsed

Where tokens spell an expression at a level, the parser of that level comes to
stand behind them with the tree. A level joins its parts from the left, so it is
shown by induction on the spelling that the parser goes on behind a part as it
does when it has just joined it.
-/

/--
A spelling begins with no closer, and one of an atom with no prefix operator.
-/
private theorem ExprSpelling.exists_head
    {phrase : ExprPhrase}
    {kinds : List TokenKind}
    (spelled : ExprSpelling phrase kinds) :
    ∃ kind rest, kinds = kind :: rest ∧ kind.closes? = none ∧
      ∀ tree, phrase = .expr .atom tree → UnaryOp.ofKind? kind = none := by
  induction spelled with
  | bool value => exact ⟨_, _, rfl, rfl, fun _ _ => by cases value <;> rfl⟩
  | int value => exact ⟨_, _, rfl, rfl, fun _ _ => rfl⟩
  | reference decl name => exact ⟨_, _, rfl, rfl, fun _ _ => rfl⟩
  | overload name decls => exact ⟨_, _, rfl, rfl, fun _ _ => rfl⟩
  | group inner => exact ⟨_, _, rfl, rfl, fun _ _ => rfl⟩
  | emptyTuple => exact ⟨_, _, rfl, rfl, fun _ _ => rfl⟩
  | oneTuple inner => exact ⟨_, _, rfl, rfl, fun _ _ => rfl⟩
  | tuple head tail => exact ⟨_, _, rfl, rfl, fun _ _ => rfl⟩
  | emptyCall called inductionHypothesis =>
      obtain ⟨kind, rest, rfl, opens, prefixless⟩ := inductionHypothesis
      exact ⟨kind, _, rfl, opens, fun _ _ => prefixless _ rfl⟩
  | call called listed inductionHypothesis =>
      obtain ⟨kind, rest, rfl, opens, prefixless⟩ := inductionHypothesis
      exact ⟨kind, _, rfl, opens, fun _ _ => prefixless _ rfl⟩
  | dot member owner inductionHypothesis =>
      obtain ⟨kind, rest, rfl, opens, prefixless⟩ := inductionHypothesis
      exact ⟨kind, _, rfl, opens, fun _ _ => prefixless _ rfl⟩
  | subscript owner inner inductionHypothesis =>
      obtain ⟨kind, rest, rfl, opens, prefixless⟩ := inductionHypothesis
      exact ⟨kind, _, rfl, opens, fun _ _ => prefixless _ rfl⟩
  | unsigned inner inductionHypothesis =>
      obtain ⟨kind, rest, rfl, opens, _⟩ := inductionHypothesis
      exact ⟨kind, rest, rfl, opens, nofun⟩
  | unary op inner => exact ⟨_, _, rfl, by cases op <;> rfl, nofun⟩
  | alone tier inner inductionHypothesis =>
      obtain ⟨kind, rest, rfl, opens, _⟩ := inductionHypothesis
      exact ⟨kind, rest, rfl, opens, nofun⟩
  | binary op first second inductionHypothesis =>
      obtain ⟨kind, rest, rfl, opens, _⟩ := inductionHypothesis
      exact ⟨kind, _, rfl, opens, nofun⟩
  | single inner inductionHypothesis =>
      obtain ⟨kind, rest, rfl, opens, _⟩ := inductionHypothesis
      exact ⟨kind, rest, rfl, opens, nofun⟩
  | more head tail inductionHypothesis =>
      obtain ⟨kind, rest, rfl, opens, _⟩ := inductionHypothesis
      exact ⟨kind, _, rfl, opens, nofun⟩

/-- The first token of a spelling closes nothing. -/
theorem ExprSpelling.kindAt_ne_closer
    {phrase : ExprPhrase}
    {kinds : List TokenKind}
    {window : Window}
    {position : Nat}
    (spelled : ExprSpelling phrase kinds)
    (spells : window.Spells position kinds)
    (delimiter : Delimiter) :
    window.kindAt position ≠ delimiter.closer := by
  obtain ⟨kind, rest, rfl, closesNothing, _⟩ := spelled.exists_head
  rw [spells.2.1]
  rintro rfl
  exact absurd closesNothing nofun

namespace ExprLevel

/-- How an expression at a level is parsed. -/
def nonterminal : ExprLevel → Nonterminal ExprId
  | .atom => .unary
  | .unary => .unary
  | .tier level => .tier level

/--
The tokens behind a part of an expression at which the part itself is over.
-/
def Settles : ExprLevel → TokenKind → Prop
  | .atom, _ => True
  | .unary, kind => ExprLevel.unary.EndsAt kind
  | .tier level, kind => level.operandLevel.EndsAt kind

end ExprLevel

/-- An operand of a tier is parsed as an expression at its level. -/
private theorem Rules.operand_eq (rules : Rules) (tier : Tier) :
    rules.operand tier = rules.parse tier.operandLevel.nonterminal := by
  cases tier <;> rfl

/-- Where an expression at a level ends, its last part is over. -/
private theorem ExprLevel.EndsAt.settles
    {level : ExprLevel}
    {kind : TokenKind}
    (ends : level.EndsAt kind) :
    level.Settles kind := by
  cases level with
  | atom => trivial
  | unary => exact ends
  | tier tier =>
      have strict := tier.rank_operandLevel
      exact ends.tighter (by omega)

/-- An operator is one of its own tier only. -/
private theorem BinaryOp.ofKind?_symbol (op : BinaryOp) (tier : Tier) :
    BinaryOp.ofKind? tier (.symbol op.symbol) = if op.tier = tier then some op
      else none := by
  cases op <;> cases tier <;> rfl

/-- An operand of a tier is over before the operators of the tier. -/
private theorem BinaryOp.endsAt_symbol (op : BinaryOp) :
    op.tier.operandLevel.EndsAt (.symbol op.symbol) where
  paren := by cases op <;> nofun
  dot := by cases op <;> nofun
  bracket := by cases op <;> nofun
  operator := by
    intro tighter smaller
    have strict := op.tier.rank_operandLevel
    rw [ofKind?_symbol, if_neg]
    rintro rfl
    omega

/-- A prefix operator is read from its symbol. -/
private theorem UnaryOp.ofKind?_symbol (op : UnaryOp) :
    UnaryOp.ofKind? (.symbol op.symbol) = some op := by
  cases op <;> rfl

/-- At a closing delimiter an expression at any level ends. -/
theorem ExprLevel.endsAt_closer (level : ExprLevel) (delimiter : Delimiter) :
    level.EndsAt delimiter.closer where
  paren := nofun
  dot := nofun
  bracket := nofun
  operator := by
    intro tighter _
    cases tighter <;> cases delimiter <;> rfl

/-- At a comma an expression at any level ends. -/
private theorem ExprLevel.endsAt_comma (level : ExprLevel) :
    level.EndsAt (.symbol .comma) where
  paren := nofun
  dot := nofun
  bracket := nofun
  operator := by
    intro tighter _
    cases tighter <;> rfl

section

variable {input : ParserInput} {state middle after : ParserState}
  {expr : ExprId}

/-- Behind no postfix a primary expression is done. -/
private theorem Eventually.postfixes_end
    {start : Span}
    (ends : ExprLevel.atom.EndsAt (input.window.kindAt state.position)) :
    Eventually (fun rules => rules.parse (.postfixes start expr)) input state
      expr state := by
  have stays : ∀ rules : Rules, rules.postfix? expr input state =
      .done none state := by
    intro rules
    have looked : Parser.currentKind input state =
        .done (input.window.kindAt state.position) state := rfl
    rw [Rules.postfix?, Parser.run_bind looked]
    generalize input.window.kindAt state.position = kind at ends
    split
    next => exact absurd rfl ends.paren
    next => exact absurd rfl ends.dot
    next => exact absurd rfl ends.bracket
    next => rfl
  refine .call ?_
  simp only [Rules.produce, Rules.postfixes]
  exact .bind (.done stays) (.done fun _ => rfl)

/-- A postfix is joined to what stands before it. -/
private theorem Eventually.postfixes_step
    {start : Span}
    {form : ExprForm}
    {value : ExprId}
    (suffix : Eventually (fun rules => rules.postfix? expr) input state
      (some form) middle)
    (rest : Eventually
      (fun rules => rules.parse (.postfixes start middle.nextExpr)) input
      (middle.withExpr form
        (start.merge (input.window.spanBefore middle.position))) value after) :
    Eventually (fun rules => rules.parse (.postfixes start expr)) input state
      value after := by
  refine .call ?_
  simp only [Rules.produce, Rules.postfixes]
  exact .bind suffix (.step rfl (.step rfl rest))

/-- Before no operator of its tier an operand is done. -/
private theorem Eventually.operations_end
    {tier : Tier}
    (ends : BinaryOp.ofKind? tier (input.window.kindAt state.position) = none) :
    Eventually (fun rules => rules.parse (.operations tier expr)) input state
      expr state := by
  refine .call (.done fun rules => ?_)
  have looked : Parser.currentKind input state =
      .done (input.window.kindAt state.position) state := rfl
  simp only [Rules.produce, Rules.operations]
  rw [Parser.run_bind looked, ends]
  rfl

/-- An operator and its right operand are joined to the left one. -/
private theorem Eventually.operations_step
    {op : BinaryOp}
    {right value : ExprId}
    (found : input.window.kindAt state.position = .symbol op.symbol)
    (operand : Eventually (fun rules => rules.operand op.tier) input
      (Parser.behind input state)
      right middle)
    (rest : Eventually
      (fun rules => rules.parse (.operations op.tier middle.nextExpr)) input
      (middle.withExpr (.binary op expr right)
        ((middle.arena.expr expr).span.merge (middle.arena.expr right).span))
          value after) :
    Eventually (fun rules => rules.parse (.operations op.tier expr)) input state
      value after := by
  refine .call ?_
  simp only [Rules.produce, Rules.operations]
  have looked : Parser.currentKind input state =
      .done (.symbol op.symbol) state := by
    rw [← found]
    rfl
  refine .step looked ?_
  rw [BinaryOp.ofKind?_symbol, if_pos rfl]
  exact .skip (.bind operand (.step rfl (.step rfl rest)))

end

/--
The parser of a level comes to stand behind a part of an expression with that
part: whatever it then does with the part, it does from where it began.
-/
def ExprLevel.Reaches
    (input : ParserInput)
    (state : ParserState)
    (expr : ExprId)
    (middle : ParserState) : ExprLevel → Prop
  | .atom => ∀ value after,
      Eventually (fun rules => rules.parse
        (.postfixes (input.window.spanAt state.position) expr)) input middle
          value after →
      Eventually (fun rules => rules.parse .unary) input state value after
  | .unary => Eventually (fun rules => rules.parse .unary) input state expr
      middle
  | .tier level => ∀ value after,
      Eventually (fun rules => rules.parse (.operations level expr)) input
        middle value after →
      Eventually (fun rules => rules.parse (.tier level)) input state
        value after

/-- A phrase is read over some tokens. -/
def ExprPhrase.Read
    (input : ParserInput)
    (state : ParserState)
    (count : Nat) :
    ExprPhrase → Prop
  | .expr level tree => ∃ expr middle, state.Past count middle ∧
      tree.At middle.arena expr ∧
      (level.Settles (input.window.kindAt middle.position) →
        level.Reaches input state expr middle)
  | .list trees => ∃ exprs middle, state.Past count middle ∧
      ExprSyntax.AllAt middle.arena trees exprs ∧
      ((ExprLevel.tier .or).EndsAt (input.window.kindAt middle.position) →
        input.window.kindAt middle.position ≠ .symbol .comma →
        Eventually (fun rules => rules.parse .expressions) input state exprs
          middle)

/--
Expressions up to a closing parenthesis are read over some tokens and the
parenthesis.
-/
def ExprSyntax.ReadClosed
    (input : ParserInput)
    (state : ParserState)
    (count : Nat)
    (trees : List ExprSyntax) : Prop :=
  ∃ exprs middle, state.Past (count + 1) middle ∧
    ExprSyntax.AllAt middle.arena trees exprs ∧
    Eventually (fun rules => rules.closedExpressions) input state exprs middle

section

variable {input : ParserInput} {state middle after : ParserState}
  {expr : ExprId}
  {level : ExprLevel} {tier : Tier} {tree : ExprSyntax} {count : Nat}

/-- Where an expression at a level ends, its parser is done with it. -/
private theorem ExprLevel.Reaches.whole
    (reached : level.Reaches input state expr middle)
    (ends : level.EndsAt (input.window.kindAt middle.position)) :
    Eventually (fun rules => rules.parse level.nonterminal) input state expr
      middle := by
  cases level with
  | atom => exact reached expr middle (.postfixes_end ends)
  | unary => exact reached
  | tier tier => exact reached expr middle (.operations_end
      (ends.operator tier (Nat.le_refl _)))

/-- An expression without operators that a parser reads is an atom. -/
private theorem ExprLevel.reaches_atom
    (plain : UnaryOp.ofKind? (input.window.kindAt state.position) = none)
    (primary : Eventually (fun rules => rules.primary) input state expr
      middle) :
    ExprLevel.atom.Reaches input state expr middle := by
  intro value after rest
  refine .call ?_
  simp only [Rules.produce, Rules.unary]
  have looked : Parser.current input state =
      .done (input.window.tokenAt state.position) state := rfl
  refine .step looked ?_
  simp only [Window.kindAt] at plain
  rw [plain]
  exact .bind primary rest

/-- With a postfix behind it an atom is another one. -/
private theorem ExprLevel.reaches_postfix
    {form : ExprForm}
    (object : ExprLevel.atom.Reaches input state expr middle)
    (suffix : Eventually (fun rules => rules.postfix? expr) input middle
      (some form) after) :
    ExprLevel.atom.Reaches input state after.nextExpr
      (after.withExpr form ((input.window.spanAt state.position).merge
        (input.window.spanBefore after.position))) :=
  fun _ _ rest => object _ _ (.postfixes_step suffix rest)

/-- An operand of a tier is an expression of it. -/
private theorem ExprLevel.reaches_operand
    (operand : Eventually (fun rules => rules.operand tier) input state expr
      middle) :
    (ExprLevel.tier tier).Reaches input state expr middle := by
  intro value after rest
  refine .call ?_
  simp only [Rules.produce, Rules.tiered]
  exact .bind operand rest

/-- An operator of a tier joins an operand to an expression of the tier. -/
private theorem ExprLevel.reaches_operation
    {op : BinaryOp}
    {right : ExprId}
    (left : (ExprLevel.tier op.tier).Reaches input state expr middle)
    (found : input.window.kindAt middle.position = .symbol op.symbol)
    (operand : Eventually (fun rules => rules.operand op.tier) input
      (Parser.behind input middle)
      right after) :
    (ExprLevel.tier op.tier).Reaches input state after.nextExpr
      (after.withExpr (.binary op expr right)
        ((after.arena.expr expr).span.merge (after.arena.expr right).span)) :=
  fun _ _ rest => left _ _ (.operations_step found operand rest)

/-- A prefix operator is read with its operand. -/
private theorem ExprLevel.reaches_unary
    {op : UnaryOp}
    (found : input.window.kindAt state.position = .symbol op.symbol)
    (operand : ExprLevel.unary.Reaches input (Parser.behind input state) expr
      middle) :
    ExprLevel.unary.Reaches input state middle.nextExpr
      (middle.withExpr (.unary op expr)
        ((input.window.spanAt state.position).merge
          (input.window.spanBefore middle.position))) := by
  refine Eventually.call ?_
  simp only [Rules.produce, Rules.unary]
  have looked : Parser.current input state =
      .done (input.window.tokenAt state.position) state := rfl
  refine .step looked ?_
  simp only [Window.kindAt] at found
  rw [found, UnaryOp.ofKind?_symbol]
  exact .skip (.bind operand (.step rfl (.done fun _ => rfl)))

end

/-- A primary expression is chosen by its first token. -/
private theorem Rules.primary_run
    (rules : Rules)
    (input : ParserInput)
    (state : ParserState) :
    rules.primary input state =
      (match input.window.kindAt state.position with
        | .keyword .trueWord => literal (.bool true)
        | .keyword .falseWord => literal (.bool false)
        | .integer value => literal (.int value)
        | .identifier _ => rules.namedExpression
        | .symbol (.opening .paren) => rules.parenthesizedExpression
        | .keyword .requiresWord => rules.requiresExpression
        | found => Parser.failAt (.expectedExpression found)
            (input.window.spanAt state.position)) input state :=
  rfl

/-- An expression in parentheses goes on behind the opening one. -/
private theorem Eventually.parenthesized
    {input : ParserInput}
    {state after : ParserState}
    {expr : ExprId}
    (opener : input.window.kindAt state.position = Delimiter.opener .paren)
    (rest : Eventually
      (fun rules => Parser.eat (Delimiter.closer .paren) >>= fun closed =>
        if closed then
          Parser.spanFrom (input.window.spanAt state.position) >>= fun span =>
            Parser.addExpr (.tuple []) span
        else
          rules.expression >>= fun first =>
            Parser.eat (Delimiter.closer .paren) >>= fun alone =>
              if alone then Pure.pure first
              else
                Parser.expect (.symbol .comma) >>= fun _ =>
                  rules.closedExpressions >>= fun rest =>
                    Parser.spanFrom (input.window.spanAt state.position) >>=
                        fun span =>
                      Parser.addExpr (.tuple (first :: rest)) span)
      input (Parser.behind input state) expr after) :
    Eventually (fun rules => rules.primary) input state expr after := by
  have chosen : ∀ rules : Rules,
      rules.primary input state =
        rules.parenthesizedExpression input state := by
    intro rules
    rw [Rules.primary_run, opener]
    rfl
  obtain ⟨least, runs⟩ :
      Eventually (fun rules => rules.parenthesizedExpression) input state expr
      after :=
    .step rfl (.expect opener rest)
  exact ⟨least, fun depth deep => (chosen _).trans (runs depth deep)⟩

/-- An identifier is read when it is the current token. -/
theorem Parser.expectIdentifier_run
    {name : Name}
    {input : ParserInput}
    {state : ParserState}
    (found : input.window.kindAt state.position = .identifier name) :
    expectIdentifier input state =
      .done (name, input.window.spanAt state.position)
        (behind input state) := by
  have looked : current input state =
      .done (input.window.tokenAt state.position) state := rfl
  simp only [Window.kindAt] at found
  rw [expectIdentifier, run_bind looked, found]
  rfl

/-- A call is a postfix. -/
private theorem Eventually.postfix_call
    {input : ParserInput}
    {state after : ParserState}
    {expr : ExprId}
    {args : List ExprId}
    (opener : input.window.kindAt state.position = Delimiter.opener .paren)
    (closes : Eventually (fun rules => rules.closedExpressions) input
      (Parser.behind input state)
      args after) :
    Eventually (fun rules => rules.postfix? expr) input state
      (some (.call expr args)) after := by
  have looked : Parser.currentKind input state =
      .done (Delimiter.opener .paren) state := by
    rw [← opener]
    rfl
  exact .step looked (.skip (.bind closes (.done fun _ => rfl)))

/-- A member access is a postfix. -/
private theorem Eventually.postfix_dot
    {input : ParserInput}
    {state : ParserState}
    {expr : ExprId}
    {member : Name}
    (symbol : input.window.kindAt state.position = .symbol .dot)
    (named : input.window.kindAt (Parser.behind input state).position =
      .identifier member) :
    Eventually (fun rules => rules.postfix? expr) input state
      (some
        (.dot expr (Parser.behind input (Parser.behind input state)).nextName))
      ((Parser.behind input (Parser.behind input state)).withName
        (.simple member)
        (input.window.spanAt (Parser.behind input state).position)) := by
  have looked : Parser.currentKind input state =
      .done (.symbol .dot) state := by
    rw [← symbol]
    rfl
  refine .step looked
    (.skip (.step (?_ : Parser.identifier _ _ = _) (.done fun _ => rfl)))
  rw [Parser.identifier, Parser.run_bind (Parser.expectIdentifier_run named)]
  rfl

/-- A subscript is a postfix. -/
private theorem Eventually.postfix_subscript
    {input : ParserInput}
    {state middle : ParserState}
    {expr index : ExprId}
    (opener : input.window.kindAt state.position = Delimiter.opener .bracket)
    (parsed : Eventually (fun rules => rules.expression) input
      (Parser.behind input state) index
      middle)
    (closer : input.window.kindAt middle.position = Delimiter.closer .bracket) :
    Eventually (fun rules => rules.postfix? expr) input state
      (some (.subscript expr index))
      (Parser.behind input middle) := by
  have looked : Parser.currentKind input state =
      .done (Delimiter.opener .bracket) state := by
    rw [← opener]
    rfl
  exact .step looked
    (.skip (.bind parsed (.expect closer (.done fun _ => rfl))))

/-- A repetition that is not empty is parsed. -/
private theorem Eventually.orNone
    {Value : Type}
    {input : ParserInput}
    {state after : ParserState}
    {closer : TokenKind}
    {items : Nonterminal (List Value)}
    {values : List Value}
    (begins : input.window.kindAt state.position ≠ closer)
    (parsed : Eventually (fun rules => rules.parse items) input state values
      after) :
    Eventually (fun rules => rules.orNone closer items) input state values
      after := by
  obtain ⟨least, runs⟩ := parsed
  refine ⟨least, fun depth deep => ?_⟩
  refine (Parser.orNone_run _ _ _ _ _).trans ((if_neg begins).trans ?_)
  exact runs depth deep

/-- A repetition is empty when what ends it is next. -/
private theorem Eventually.orNone_nil
    {Value : Type}
    {input : ParserInput}
    {state : ParserState}
    {closer : TokenKind}
    {items : Nonterminal (List Value)}
    (ends : input.window.kindAt state.position = closer) :
    Eventually (fun rules => rules.orNone closer items) input state [] state :=
  .done fun _ => (Parser.orNone_run _ _ _ _ _).trans (if_pos ends)

namespace ExprPhrase.Read

variable {input : ParserInput} {state : ParserState} {level : ExprLevel}
  {tree : ExprSyntax}
  {count : Nat}

/-- A whole expression is read where it ends. -/
theorem whole
    (read : (ExprPhrase.expr level tree).Read input state count)
    (ends : level.EndsAt (input.window.kindAt (state.position + count))) :
    ∃ expr middle, state.Past count middle ∧ tree.At middle.arena expr ∧
      Eventually (fun rules => rules.parse level.nonterminal) input state expr
        middle := by
  obtain ⟨expr, middle, past, standing, reached⟩ := read
  rw [← past.position] at ends
  exact ⟨expr, middle, past, standing, (reached ends.settles).whole ends⟩

/-- A primary expression is read as an atom. -/
private theorem ofPrimary
    (expr : ExprId)
    {middle : ParserState}
    (plain : UnaryOp.ofKind? (input.window.kindAt state.position) = none)
    (past : state.Past count middle)
    (standing : tree.At middle.arena expr)
    (primary : Eventually (fun rules => rules.primary) input state expr
      middle) :
    (ExprPhrase.expr .atom tree).Read input state count :=
  ⟨expr, middle, past, standing, fun _ => ExprLevel.reaches_atom plain primary⟩

/-- An expression is read when its node is added behind its tokens. -/
private theorem node
    {middle : ParserState}
    (form : ExprForm)
    (span : Span)
    (past : state.Past count middle)
    (standing : ∀ arena expr, middle.arena.Extends arena →
      arena.Holds (.expr expr) →
      (arena.expr expr).form = form → tree.At arena expr)
    (reached : level.Settles (input.window.kindAt middle.position) →
      level.Reaches input state middle.nextExpr (middle.withExpr form span)) :
    (ExprPhrase.expr level tree).Read input state count :=
  have grown := middle.past_withExpr span form
  ⟨middle.nextExpr, middle.withExpr form span, past.trans grown,
    standing _ _ grown.arena (ParserState.holds_withExpr ..)
      (ParserState.expr_withExpr ..),
    reached⟩

/-- An expression is read when its node is added with the span of its tokens. -/
private theorem spanned
    {middle : ParserState}
    (form : ExprForm)
    (past : state.Past count middle)
    (standing : ∀ arena expr, middle.arena.Extends arena →
      arena.Holds (.expr expr) →
      (arena.expr expr).form = form → tree.At arena expr)
    (reached : level.Settles (input.window.kindAt middle.position) →
      level.Reaches input state middle.nextExpr (middle.withExpr form
        ((input.window.spanAt state.position).merge
          (input.window.spanBefore middle.position)))) :
    (ExprPhrase.expr level tree).Read input state count :=
  node form _ past standing reached

/-- A literal is a single token. -/
private theorem literal
    (form : ExprForm)
    (inside : state.position < input.window.stop)
    (plain : UnaryOp.ofKind? (input.window.kindAt state.position) = none)
    (chosen : ∀ rules : Rules, rules.primary input state =
      Rules.literal form input state)
    (standing : ∀ arena expr, Arena.Holds arena (.expr expr) →
      (arena.expr expr).form = form →
      tree.At arena expr) :
    (ExprPhrase.expr .atom tree).Read input state 1 :=
  node form _ (.behind inside) (fun arena expr _ => standing arena expr)
    (fun _ => ExprLevel.reaches_atom plain
      (.done fun rules => (chosen rules).trans rfl))

/-- A truth value is read. -/
private theorem bool
    {value : Bool}
    (spells : input.window.Spells state.position [.keyword (.ofBool value)]) :
    (ExprPhrase.expr .atom (.bool value)).Read input state 1 := by
  refine literal (.bool value) spells.1 (by rw [spells.2.1]; rfl)
      ?_ fun _ _ held form =>
    ⟨held, form⟩
  intro rules
  rw [Rules.primary_run, spells.2.1]
  cases value <;> rfl

/-- An integer is read. -/
private theorem int
    {value : Nat}
    (spells : input.window.Spells state.position [.integer value]) :
    (ExprPhrase.expr .atom (.int value)).Read input state 1 := by
  refine literal (.int value) spells.1 (by rw [spells.2.1]; rfl)
      ?_ fun _ _ held form =>
    ⟨held, form⟩
  intro rules
  rw [Rules.primary_run, spells.2.1]

/-- A name is read when it denotes some declarations. -/
private theorem named
    {name : Name}
    (form : NameId → ExprForm)
    (spells : input.window.Spells state.position [.identifier name])
    (chosen : ∀ rules : Rules, rules.namedExpression input state =
      (Parser.addName (.simple name) (input.window.spanAt state.position) >>=
          fun nameId =>
        Parser.spanFrom (input.window.spanAt state.position) >>= fun span =>
          Parser.addExpr (form nameId) span) input (Parser.behind input state))
    (standing : ∀ arena expr nameId, Arena.Holds arena (.expr expr) →
      (arena.expr expr).form = form nameId → arena.Holds (.name nameId) →
      (arena.name nameId).form = .simple name → tree.At arena expr) :
    (ExprPhrase.expr .atom tree).Read input state 1 := by
  have past :=
    (ParserState.Past.behind spells.1).trans
      ((Parser.behind input state).past_withName
    (input.window.spanAt state.position) (.simple name))
  refine spanned (form (Parser.behind input state).nextName) past ?_ fun _ =>
    ExprLevel.reaches_atom (by rw [spells.2.1]; rfl) (.done fun rules => ?_)
  · intro arena expr grown held spelled
    have heldName := (Parser.behind input state).holds_withName
      (input.window.spanAt state.position) (.simple name)
    refine standing arena expr _ held spelled (grown.holds heldName) ?_
    rw [grown.name_eq heldName]
    exact ParserState.name_withName ..
  · rw [Rules.primary_run, spells.2.1]
    exact (chosen rules).trans rfl

/-- A reference is read. -/
private theorem reference
    {decl : DeclId}
    {name : Name}
    (found : state.naming.find? name = some [decl])
    (plain : state.naming.takesArgs decl = false)
    (spells : input.window.Spells state.position [.identifier name]) :
    (ExprPhrase.expr .atom (.reference decl name)).Read input state 1 := by
  refine named (.reference decl) spells
      ?_ fun _ _ nameId held form heldName named =>
    ⟨held, nameId, form, heldName, named⟩
  intro rules
  have looked : Parser.lookup? name input (Parser.behind input state) =
      .done (some [decl]) (Parser.behind input state) :=
    congrArg (Outcome.done · (Parser.behind input state)) found
  have arena : Parser.arena input (Parser.behind input state) =
      .done state.arena (Parser.behind input state) := rfl
  have takesNone : state.arena.isTemplateOrConcept decl = false := plain
  rw [Rules.namedExpression,
    Parser.run_bind (Parser.expectIdentifier_run spells.2.1)]
  simp only [Parser.run_bind looked, Parser.run_bind arena, Rules.nameOf,
    takesNone]
  rfl

/-- An overload set is read. -/
private theorem overload
    {name : Name}
    {decls : OverloadSet}
    (found : state.naming.find? name = some decls)
    (several : decls.length ≠ 1)
    (spells : input.window.Spells state.position [.identifier name]) :
    (ExprPhrase.expr .atom (.overload name decls)).Read input state 1 := by
  refine named (fun nameId => .overload nameId decls) spells ?_
    fun _ _ nameId held form heldName
    named => ⟨held, nameId, form, heldName, named⟩
  intro rules
  have looked : Parser.lookup? name input (Parser.behind input state) =
      .done (some decls) (Parser.behind input state) :=
    congrArg (Outcome.done · (Parser.behind input state)) found
  rw [Rules.namedExpression,
    Parser.run_bind (Parser.expectIdentifier_run spells.2.1)]
  simp only [Parser.run_bind looked]
  rcases decls with _ | ⟨first, _ | ⟨second, rest⟩⟩
  · rfl
  · exact absurd rfl several
  · rfl

/-- An expression in parentheses is read. -/
private theorem group
    {kinds : List TokenKind}
    (encloses : state.Encloses input .paren kinds)
    (begins : input.window.kindAt (Parser.behind input state).position ≠
      Delimiter.closer .paren)
    (read : (ExprPhrase.expr (.tier .or) tree).Read input
      (Parser.behind input state)
      kinds.length) :
    (ExprPhrase.expr .atom tree).Read input state
      (Delimiter.paren.around kinds).length := by
  obtain ⟨expr, middle, past, standing, parsed⟩ :=
    read.whole (by rw [encloses.closer]; exact ExprLevel.endsAt_closer _ _)
  refine ofPrimary expr (by rw [encloses.opener]; rfl) (encloses.past past)
    standing ?_
  refine .parenthesized encloses.opener ?_
  exact .leave begins
    (.bind parsed (.eat (encloses.ends past) (.done fun _ => rfl)))

/-- The tuple without elements is read. -/
private theorem emptyTuple (encloses : state.Encloses input .paren []) :
    (ExprPhrase.expr .atom (.tuple [])).Read input state
      (Delimiter.paren.around []).length := by
  refine spanned _ (encloses.past (.refl _))
    (fun _ _ _ held form => ⟨held, [], form, rfl⟩)
    fun _ => ExprLevel.reaches_atom (by rw [encloses.opener]; rfl)
      (.parenthesized encloses.opener ?_)
  exact .eat encloses.closer (.step rfl (.done fun _ => rfl))

/-- Expressions up to a closing parenthesis are read with it. -/
private theorem closed
    {trees : List ExprSyntax}
    {kinds : List TokenKind}
    (listed : ExprSpelling (.list trees) kinds)
    (spells : input.window.Spells state.position
      (kinds ++ [Delimiter.closer .paren]))
    (read : (ExprPhrase.list trees).Read input state kinds.length) :
    ExprSyntax.ReadClosed input state kinds.length trees := by
  obtain ⟨spellsList, before, closer, _⟩ := Window.spells_append_cons.mp spells
  have begins := listed.kindAt_ne_closer spellsList .paren
  obtain ⟨exprs, middle, past, standing, parsed⟩ := read
  rw [← past.position] at before closer
  have listed :=
    parsed (by rw [closer]; exact ExprLevel.endsAt_closer _ _)
      (by rw [closer]; nofun)
  refine ⟨exprs, Parser.behind input middle, past.trans (.behind before),
    standing, ?_⟩
  refine .bind (.orNone begins listed) (.expect closer (.done fun _ => rfl))

/-- No expressions are read when the closing parenthesis is next. -/
private theorem closed_nil
    (spells : input.window.Spells state.position [Delimiter.closer .paren]) :
    ExprSyntax.ReadClosed input state 0 [] :=
  ⟨[], Parser.behind input state, .behind spells.1, rfl,
    .bind (.orNone_nil spells.2.1) (.expect spells.2.1 (.done fun _ => rfl))⟩

/-- A tuple is read with what follows its first comma. -/
private theorem tuple
    {first : ExprSyntax}
    {rest : List ExprSyntax}
    {kinds more : List TokenKind}
    (spelled : ExprSpelling (.expr (.tier .or) first) kinds)
    (encloses : state.Encloses input .paren (kinds ++ .symbol .comma :: more))
    (read : input.window.Spells (Parser.behind input state).position kinds →
      (ExprPhrase.expr (.tier .or) first).Read input (Parser.behind input state)
        kinds.length)
    (closed : ∀ middle, (Parser.behind input state).Past (kinds.length + 1)
      middle →
      input.window.Spells middle.position (more ++ [Delimiter.closer .paren]) →
      ExprSyntax.ReadClosed input middle more.length rest) :
    (ExprPhrase.expr .atom (.tuple (first :: rest))).Read input state
      (Delimiter.paren.around (kinds ++ .symbol .comma :: more)).length := by
  have spells := encloses.spells
  rw [List.append_assoc, List.cons_append, Window.spells_append_cons] at spells
  obtain ⟨spellsFirst, before, comma, spellsRest⟩ := spells
  have begins := spelled.kindAt_ne_closer spellsFirst .paren
  obtain ⟨expr, middle, past, standing, parsed⟩ :=
    (read spellsFirst).whole (by rw [comma]; exact ExprLevel.endsAt_comma _)
  rw [← past.position] at before comma spellsRest
  rw [← Parser.behind_position before] at spellsRest
  obtain ⟨exprs, last, behindComma, others, closes⟩ :=
    closed _ (past.trans (.behind before)) spellsRest
  have whole := (ParserState.Past.behind encloses.inside).trans
    ((past.trans (.behind before)).trans behindComma)
  have count : 1 + (kinds.length + 1 + (more.length + 1)) =
      (Delimiter.paren.around (kinds ++ .symbol .comma :: more)).length := by
    simp only [Delimiter.length_around, List.length_append, List.length_cons]
    omega
  rw [count] at whole
  refine spanned (.tuple (expr :: exprs)) whole ?_ fun _ =>
    ExprLevel.reaches_atom (by rw [encloses.opener]; rfl)
      (.parenthesized encloses.opener ?_)
  · intro arena tuple grown held form
    exact ⟨held, _, form, expr, exprs, rfl,
      (standing.grow behindComma.arena).grow grown, others.grow grown⟩
  · exact .leave begins (.bind parsed (.leave (by rw [comma]; nofun)
      (.expect comma (.bind closes (.step rfl (.done fun _ => rfl))))))

/-- A call is read with its arguments. -/
theorem call
    {callee : ExprSyntax}
    {args : List ExprSyntax}
    {more : List TokenKind}
    (read : (ExprPhrase.expr .atom callee).Read input state count)
    (spells : input.window.Spells (state.position + count)
      (Delimiter.paren.around more))
    (closed : ∀ middle, state.Past (count + 1) middle →
      input.window.Spells middle.position (more ++ [Delimiter.closer .paren]) →
      ExprSyntax.ReadClosed input middle more.length args) :
    (ExprPhrase.expr .atom (.call callee args)).Read input state
      (count + (Delimiter.paren.around more).length) := by
  obtain ⟨expr, middle, past, standing, reached⟩ := read
  rw [← past.position] at spells
  have encloses := ParserState.Encloses.of_spells spells
  obtain ⟨exprs, last, behindOpener, others, closes⟩ :=
    closed _ (past.trans (.behind encloses.inside)) encloses.spells
  have whole := (past.trans (.behind encloses.inside)).trans behindOpener
  have size : count + 1 + (more.length + 1) =
      count + (Delimiter.paren.around more).length := by
    rw [Delimiter.length_around]
    omega
  rw [size] at whole
  refine spanned (.call expr exprs) whole ?_ fun _ =>
    ExprLevel.reaches_postfix (reached trivial)
      (.postfix_call encloses.opener closes)
  intro arena call grown held form
  exact ⟨held, _, _, form, (standing.grow behindOpener.arena).grow grown,
    others.grow grown⟩

/-- A member access is read. -/
private theorem dot
    {object : ExprSyntax}
    {member : Name}
    (read : (ExprPhrase.expr .atom object).Read input state count)
    (spells : input.window.Spells (state.position + count)
      [.symbol .dot, .identifier member]) :
    (ExprPhrase.expr .atom (.dot object member)).Read input state
      (count + 2) := by
  obtain ⟨expr, middle, past, standing, reached⟩ := read
  rw [← past.position] at spells
  obtain ⟨inside, symbol, spellsMember⟩ := spells
  rw [← Parser.behind_position inside] at spellsMember
  obtain ⟨before, named, _⟩ := spellsMember
  have nameAdded :=
    (Parser.behind input (Parser.behind input middle)).past_withName
    (input.window.spanAt (Parser.behind input middle).position) (.simple member)
  have further :=
    ((ParserState.Past.behind inside).trans (.behind before)).trans nameAdded
  refine spanned (.dot expr _) (past.trans further) ?_ fun _ =>
    ExprLevel.reaches_postfix (reached trivial) (.postfix_dot symbol named)
  intro arena dot grown held form
  have heldName :=
    (Parser.behind input (Parser.behind input middle)).holds_withName
    (input.window.spanAt (Parser.behind input middle).position) (.simple member)
  refine ⟨held, _, _, form, (standing.grow further.arena).grow grown,
    grown.holds heldName, ?_⟩
  rw [grown.name_eq heldName]
  exact ParserState.name_withName ..

/-- A subscript is read. -/
private theorem subscript
    {object index : ExprSyntax}
    {more : List TokenKind}
    (read : (ExprPhrase.expr .atom object).Read input state count)
    (spells : input.window.Spells (state.position + count)
      (Delimiter.bracket.around more))
    (inner : ∀ middle, state.Past (count + 1) middle →
      input.window.Spells middle.position more →
      (ExprPhrase.expr (.tier .or) index).Read input middle more.length) :
    (ExprPhrase.expr .atom (.subscript object index)).Read input state
      (count + (Delimiter.bracket.around more).length) := by
  obtain ⟨expr, middle, past, standing, reached⟩ := read
  rw [← past.position] at spells
  have encloses := ParserState.Encloses.of_spells spells
  have read := inner _ (past.trans (.behind encloses.inside)) encloses.inner
  obtain ⟨second, last, further, indexStanding, parsed⟩ :=
    read.whole (by rw [encloses.closer]; exact ExprLevel.endsAt_closer _ _)
  have enclosed := encloses.past further
  refine spanned (.subscript expr second) (past.trans enclosed) ?_ fun _ =>
    ExprLevel.reaches_postfix (reached trivial)
      (.postfix_subscript encloses.opener parsed (encloses.ends further))
  intro arena subscript grown held form
  exact ⟨held, _, _, form, (standing.grow enclosed.arena).grow grown,
    indexStanding.grow grown⟩

/-- A prefix operator is read. -/
private theorem unary
    {operand : ExprSyntax}
    {op : UnaryOp}
    (inside : state.position < input.window.stop)
    (symbol : input.window.kindAt state.position = .symbol op.symbol)
    (read : (ExprPhrase.expr .unary operand).Read input
      (Parser.behind input state) count) :
    (ExprPhrase.expr .unary (.unary op operand)).Read input state
      (count + 1) := by
  obtain ⟨expr, middle, past, standing, reached⟩ := read
  have whole := (ParserState.Past.behind inside).trans past
  rw [Nat.add_comm] at whole
  refine spanned (.unary op expr) whole ?_ fun settles =>
    ExprLevel.reaches_unary symbol (reached settles)
  intro arena unary grown held form
  exact ⟨held, _, form, standing.grow grown⟩

/-- An expression without a prefix operator is read. -/
private theorem unsigned
    (read : (ExprPhrase.expr .atom tree).Read input state count) :
    (ExprPhrase.expr .unary tree).Read input state count := by
  obtain ⟨expr, middle, past, standing, reached⟩ := read
  refine ⟨expr, middle, past, standing, fun settles => ?_⟩
  exact (reached trivial).whole (settles.tighter (by decide))

/-- An operand of a tier without an operator is read. -/
private theorem alone
    {tier : Tier}
    (read : (ExprPhrase.expr tier.operandLevel tree).Read input state count) :
    (ExprPhrase.expr (.tier tier) tree).Read input state count := by
  obtain ⟨expr, middle, past, standing, reached⟩ := read
  refine ⟨expr, middle, past, standing, fun settles =>
    ExprLevel.reaches_operand ?_⟩
  simp only [Rules.operand_eq]
  exact (reached settles.settles).whole settles

/-- A binary operation is read. -/
private theorem binary
    {left right : ExprSyntax}
    {op : BinaryOp}
    {more : Nat}
    (read : (ExprPhrase.expr (.tier op.tier) left).Read input state count)
    (inside : state.position + count < input.window.stop)
    (symbol : input.window.kindAt (state.position + count) = .symbol op.symbol)
    (second : ∀ middle, state.Past (count + 1) middle →
      (ExprPhrase.expr op.tier.operandLevel right).Read input middle more) :
    (ExprPhrase.expr (.tier op.tier) (.binary op left right)).Read input state
      (count + (more + 1)) := by
  obtain ⟨expr, middle, past, standing, reached⟩ := read
  rw [← past.position] at inside symbol
  obtain ⟨other, last, further, rightStanding, reachedRight⟩ :=
    second _ (past.trans (.behind inside))
  have left := reached (by rw [symbol]; exact op.endsAt_symbol)
  have whole := (past.trans (.behind inside)).trans further
  have size : count + 1 + more = count + (more + 1) := by omega
  rw [size] at whole
  refine node (.binary op expr other) _ whole ?_ fun settles =>
    ExprLevel.reaches_operation left symbol ?_
  · intro arena binary grown held form
    exact ⟨held, _, _, form, (standing.grow further.arena).grow grown,
      rightStanding.grow grown⟩
  · simp only [Rules.operand_eq]
    exact (reachedRight settles.settles).whole settles

/-- A last expression of a list is read. -/
private theorem single
    (read : (ExprPhrase.expr (.tier .or) tree).Read input state count) :
    (ExprPhrase.list [tree]).Read input state count := by
  obtain ⟨expr, middle, past, standing, reached⟩ := read
  refine ⟨[expr], middle, past, ⟨expr, [], rfl, standing, rfl⟩,
    fun ends comma => .call ?_⟩
  exact .bind ((reached ends.settles).whole ends)
    (.leave comma (.done fun _ => rfl))

/-- An expression before a comma is read with the others of its list. -/
private theorem more
    {first : ExprSyntax}
    {rest : List ExprSyntax}
    {others : Nat}
    (read : (ExprPhrase.expr (.tier .or) first).Read input state count)
    (inside : state.position + count < input.window.stop)
    (comma : input.window.kindAt (state.position + count) = .symbol .comma)
    (tail : ∀ middle, state.Past (count + 1) middle →
      (ExprPhrase.list rest).Read input middle others) :
    (ExprPhrase.list (first :: rest)).Read input state
      (count + (others + 1)) := by
  obtain ⟨expr, middle, past, standing, parsed⟩ :=
    read.whole (by rw [comma]; exact ExprLevel.endsAt_comma _)
  rw [← past.position] at inside comma
  obtain ⟨exprs, last, further, standings, listed⟩ :=
    tail _ (past.trans (.behind inside))
  have whole := (past.trans (.behind inside)).trans further
  have size : count + 1 + others = count + (others + 1) := by omega
  rw [size] at whole
  refine ⟨expr :: exprs, last, whole,
    ⟨expr, exprs, rfl, standing.grow further.arena, standings⟩,
    fun ends last => .call ?_⟩
  exact .bind parsed
    (.eat comma (.bind (listed ends last) (.done fun _ => rfl)))

end ExprPhrase.Read

/-- Wherever its names denote what it refers to, a spelled phrase is read. -/
theorem ExprSpelling.read
    {input : ParserInput}
    {phrase : ExprPhrase}
    {kinds : List TokenKind}
    (spelled : ExprSpelling phrase kinds)
    (state : ParserState)
    (resolved : phrase.Resolved state.naming)
    (spells : input.window.Spells state.position kinds) :
    phrase.Read input state kinds.length := by
  induction spelled generalizing state with
  | bool value => exact .bool spells
  | int value => exact .int spells
  | reference decl name => exact .reference resolved.1 resolved.2 spells
  | overload name decls => exact .overload resolved.1 resolved.2 spells
  | group inner inductionHypothesis =>
      have encloses := ParserState.Encloses.of_spells spells
      exact .group encloses (inner.kindAt_ne_closer encloses.inner _)
        (inductionHypothesis _ resolved encloses.inner)
  | emptyTuple => exact .emptyTuple (.of_spells spells)
  | oneTuple inner inductionHypothesis =>
      exact .tuple inner (.of_spells spells) (inductionHypothesis _ resolved.1)
        fun _ _ => ExprPhrase.Read.closed_nil
  | tuple head tail headHypothesis tailHypothesis =>
      refine .tuple head (.of_spells spells) (headHypothesis _ resolved.1)
        fun middle past closes => ?_
      exact ExprPhrase.Read.closed tail closes
        (tailHypothesis middle (past.naming ▸ resolved.2)
        (Window.spells_append.mp closes).1)
  | emptyCall called inductionHypothesis =>
      obtain ⟨spellsCallee, spellsArgs⟩ := Window.spells_append.mp spells
      rw [List.length_append]
      exact .call (inductionHypothesis _ resolved.1 spellsCallee) spellsArgs
        fun _ _ => ExprPhrase.Read.closed_nil
  | call called listed calledHypothesis listedHypothesis =>
      obtain ⟨spellsCallee, spellsArgs⟩ := Window.spells_append.mp spells
      rw [List.length_append]
      refine .call (calledHypothesis _ resolved.1 spellsCallee) spellsArgs
        fun middle past closes => ?_
      exact ExprPhrase.Read.closed listed closes
        (listedHypothesis middle (past.naming ▸ resolved.2)
        (Window.spells_append.mp closes).1)
  | dot member owner inductionHypothesis =>
      obtain ⟨spellsObject, spellsMember⟩ := Window.spells_append.mp spells
      rw [List.length_append]
      exact .dot (inductionHypothesis _ resolved spellsObject) spellsMember
  | subscript owner inner ownerHypothesis innerHypothesis =>
      obtain ⟨spellsObject, spellsIndex⟩ := Window.spells_append.mp spells
      rw [List.length_append]
      exact .subscript (ownerHypothesis _ resolved.1 spellsObject)
          spellsIndex fun middle past =>
        innerHypothesis middle (past.naming ▸ resolved.2)
  | unsigned inner inductionHypothesis =>
      exact .unsigned (inductionHypothesis _ resolved spells)
  | unary op inner inductionHypothesis =>
      obtain ⟨inside, symbol, spellsOperand⟩ := spells
      rw [← Parser.behind_position inside] at spellsOperand
      exact .unary inside symbol (inductionHypothesis _ resolved spellsOperand)
  | alone tier inner inductionHypothesis =>
      exact .alone (inductionHypothesis _ resolved spells)
  | binary op first second firstHypothesis secondHypothesis =>
      obtain ⟨spellsLeft, before, symbol, spellsRight⟩ :=
        Window.spells_append_cons.mp spells
      rw [List.length_append, List.length_cons]
      refine .binary (firstHypothesis _ resolved.1 spellsLeft) before
          symbol fun middle past =>
        secondHypothesis middle (past.naming ▸ resolved.2) ?_
      rwa [past.position, ← Nat.add_assoc]
  | single inner inductionHypothesis =>
      exact .single (inductionHypothesis _ resolved.1 spells)
  | more head tail headHypothesis tailHypothesis =>
      obtain ⟨spellsFirst, before, comma, spellsRest⟩ :=
        Window.spells_append_cons.mp spells
      rw [List.length_append, List.length_cons]
      refine .more (headHypothesis _ resolved.1 spellsFirst) before
          comma fun middle past =>
        tailHypothesis middle (past.naming ▸ resolved.2) ?_
      rwa [past.position, ← Nat.add_assoc]

end Tern
