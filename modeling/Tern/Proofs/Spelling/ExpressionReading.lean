import Tern.Proofs.Spelling.Expressions
import Tern.Proofs.Grammar.Sweeping

namespace Tern

/-!
# Parsed expressions are spelled

Where an expression has been parsed, the tokens read spell the tree that stands
in its slot, unless the tree has template arguments or requirements in it. A
level joins its parts from the left, so what is joined to a part is shown to go
on with what spells the part.
-/

namespace Arena

/--
A term that is neither a name with template arguments nor a requires-expression.
-/
def IsPlain (arena : Arena) : Term → Prop
  | .name id => ∀ template args, (arena.name id).form ≠ .applied template args
  | .expr id => ∀ parms reqs scope, (arena.expr id).form ≠
      .requires parms reqs scope
  | _ => True

/-- An expression without template arguments and requires-expressions in it. -/
def Plain (arena : Arena) (expr : ExprId) : Prop :=
  arena.Throughout arena.IsPlain (.expr expr)

variable {older arena : Arena} {expr : ExprId} {form : ExprForm}

/-- The expressions in a plain one are plain. -/
private theorem Plain.inner
    (plain : arena.Plain expr)
    (formed : (arena.expr expr).form = form)
    {inner : ExprId}
    (owned : .expr inner ∈ form.children) :
    arena.Plain inner := by
  subst formed
  exact Throughout.child plain owned

/-- A plain expression is no requires-expression. -/
private theorem Plain.not_requires
    (plain : arena.Plain expr)
    {parms : List DeclId}
    {reqs : List ReqId}
    {scope : ScopeId} :
    (arena.expr expr).form ≠ .requires parms reqs scope :=
  Throughout.here plain parms reqs scope

/-- The names in a plain expression have no template arguments. -/
private theorem Plain.not_applied
    (plain : arena.Plain expr)
    (formed : (arena.expr expr).form = form)
    {name : NameId}
    (owned : .name name ∈ form.children)
    {template : DeclId}
    {args : List TemplateArg} :
    (arena.name name).form ≠ .applied template args := by
  subst formed
  exact (Throughout.child plain owned).here template args

end Arena

/--
The tokens read since a position spell an expression that stands in a slot.
-/
def ExprLevel.Spelled
    (input : ParserInput)
    (start : Nat)
    (expr : ExprId)
    (after : ParserState)
    (level : ExprLevel) : Prop :=
  ∃ tree kinds, after.position = start + kinds.length ∧
    input.window.Spells start kinds ∧
    ExprSpelling (.expr level tree) kinds ∧ tree.At after.arena expr

/--
The tokens read since a position spell an expression whose node has a form.
-/
def ExprForm.Spelled (input : ParserInput) (start : Nat) (after : ParserState)
    (level : ExprLevel) (form : ExprForm) : Prop :=
  ∃ tree kinds, after.position = start + kinds.length ∧
    input.window.Spells start kinds ∧
    ExprSpelling (.expr level tree) kinds ∧ ∀ arena expr,
      after.arena.Extends arena →
      arena.Holds (.expr expr) → (arena.expr expr).form = form →
        tree.At arena expr

/-- The tokens read since a position spell expressions that stand in slots. -/
def ExprSyntax.ListSpelled
    (input : ParserInput)
    (start : Nat)
    (exprs : List ExprId)
    (after : ParserState) : Prop :=
  ∃ trees kinds, after.position = start + kinds.length ∧
    input.window.Spells start kinds ∧
    ExprSpelling (.list trees) kinds ∧ ExprSyntax.AllAt after.arena trees exprs

/--
The tokens read since a position spell expressions, perhaps none, before a
parenthesis.
-/
def ExprSyntax.ClosedSpelled
    (input : ParserInput)
    (start : Nat)
    (exprs : List ExprId)
    (after : ParserState) : Prop :=
  ∃ trees kinds, after.position =
    start + (kinds ++ [Delimiter.closer .paren]).length ∧
    input.window.Spells start (kinds ++ [Delimiter.closer .paren]) ∧
    (trees = [] ∧ kinds = [] ∨ ExprSpelling (.list trees) kinds) ∧
    ExprSyntax.AllAt after.arena trees exprs

section

variable {input : ParserInput} {start : Nat} {state after : ParserState}
  {level : ExprLevel}
  {form : ExprForm}

/-- A node is added for what has been read. -/
private theorem ExprForm.Spelled.added
    (spelled : form.Spelled input start state level)
    (span : Span) :
    level.Spelled input start state.nextExpr (state.withExpr form span) := by
  obtain ⟨tree, kinds, position, spells, spelling, standing⟩ := spelled
  refine ⟨tree, kinds, position, spells, spelling, ?_⟩
  exact standing _ _ (state.past_withExpr span form).arena
    (ParserState.holds_withExpr ..)
    (ParserState.expr_withExpr ..)

/-- One token is read. -/
private theorem Window.Spells.one
    (closed : input.window.Closed)
    {kind : TokenKind}
    (found : input.window.kindAt state.position = kind)
    (real : kind ≠ .endOfInput) :
    (Parser.behind input state).position = state.position + 1 ∧
      input.window.Spells state.position [kind] := by
  have inside := closed.lt_stop (found ▸ real)
  exact ⟨Parser.behind_position inside, inside, found, trivial⟩

end

namespace Parser

variable {input : ParserInput} {state after : ParserState}

/-- What skips a token stands behind it. -/
private theorem skip_done
    {value : Unit}
    (run : skip input state = .done value after) :
    after = behind input state := by
  cases run
  rfl

/-- What reads an identifier was at one. -/
private theorem expectIdentifier_done
    {name : Name}
    {span : Span}
    (run : expectIdentifier input state = .done (name, span) after) :
    input.window.kindAt state.position = .identifier name ∧
      span = input.window.spanAt state.position ∧ after =
        behind input state := by
  obtain ⟨token, same, looked, rest⟩ := done_of_bind run
  cases looked
  generalize found : (input.window.tokenAt state.position).kind = kind at rest
  cases kind with
  | identifier other =>
      obtain ⟨_, middle, skipped, rest⟩ := done_of_bind rest
      obtain rfl := skip_done skipped
      cases rest
      exact ⟨found, rfl, rfl⟩
  | _ => cases rest

/-- What reads a name was at its identifier. -/
private theorem identifier_done
    {nameId : NameId}
    (run : identifier input state = .done nameId after) :
    ∃ name, input.window.kindAt state.position = .identifier name ∧
      nameId = (behind input state).nextName ∧
      after = (behind input state).withName (.simple name)
        (input.window.spanAt state.position) := by
  obtain ⟨⟨name, span⟩, middle, read, rest⟩ := done_of_bind run
  obtain ⟨found, rfl, rfl⟩ := expectIdentifier_done read
  cases rest
  exact ⟨name, found, rfl, rfl⟩

/-- What adds a node holds it in the next slot. -/
private theorem addExpr_done
    {form : ExprForm}
    {span : Span}
    {expr : ExprId}
    (run : addExpr form span input state = .done expr after) :
    expr = state.nextExpr ∧ after = state.withExpr form span := by
  cases run
  exact ⟨rfl, rfl⟩

end Parser

/-- An operator of a tier is read from its symbol. -/
private theorem BinaryOp.eq_symbol_of_ofKind?
    {tier : Tier}
    {kind : TokenKind}
    {op : BinaryOp}
    (found : BinaryOp.ofKind? tier kind = some op) :
    op.tier = tier ∧ kind = .symbol op.symbol := by
  simpa using List.find?_some found

/-- A prefix operator is read from its symbol. -/
private theorem UnaryOp.eq_symbol_of_ofKind?
    {kind : TokenKind}
    {op : UnaryOp}
    (found : UnaryOp.ofKind? kind = some op) :
    kind = .symbol op.symbol := by
  simpa using List.find?_some found

/--
What is parsed is spelled by the tokens read. Parsers that go on behind an
expression spell it together with that expression.
-/
structure Rules.ReadsBack (rules : Rules) (input : ParserInput) : Prop where
  grows : ∀ {Value : Type} (nonterminal : Nonterminal Value) {state after :
    ParserState}
    {value : Value}, rules.parse nonterminal input state = .done value after →
      state.arena.Extends after.arena
  tier : ∀ (tier : Tier) {state after : ParserState} {expr : ExprId} {final :
    Arena},
    rules.parse (.tier tier) input state = .done expr after →
      after.arena.Extends final →
      final.Plain expr →
        (ExprLevel.tier tier).Spelled input state.position expr after
  unary : ∀ {state after : ParserState} {expr : ExprId} {final : Arena},
    rules.parse .unary input state = .done expr after →
      after.arena.Extends final →
      final.Plain expr → ExprLevel.unary.Spelled input state.position expr after
  operations : ∀ (tier : Tier) {state after : ParserState} {left expr :
    ExprId} {final : Arena},
    rules.parse (.operations tier left) input state = .done expr after →
      after.arena.Extends final → final.Plain expr →
        final.Plain left ∧
          ∀ start, (ExprLevel.tier tier).Spelled input start left state →
          (ExprLevel.tier tier).Spelled input start expr after
  postfixes : ∀ {span : Span} {state after : ParserState} {object expr :
    ExprId} {final : Arena},
    rules.parse (.postfixes span object) input state = .done expr after →
      after.arena.Extends final → final.Plain expr →
        final.Plain object ∧
          ∀ start, ExprLevel.atom.Spelled input start object state →
          ExprLevel.atom.Spelled input start expr after
  expressions : ∀ {state after : ParserState} {exprs : List ExprId} {final :
    Arena},
    rules.parse .expressions input state = .done exprs after →
      after.arena.Extends final →
      (∀ expr ∈ exprs, final.Plain expr) →
        ExprSyntax.ListSpelled input state.position exprs after

namespace Rules.ReadsBack

variable {rules : Rules} {input : ParserInput} {state after : ParserState}
  {final : Arena}
  {expr left : ExprId} {tier : Tier}

/-- An operand of a tier is spelled at its level. -/
private theorem operand
    (back : rules.ReadsBack input)
    (run : rules.operand tier input state = .done expr after)
    (grown : after.arena.Extends final)
    (plain : final.Plain expr) :
    tier.operandLevel.Spelled input state.position expr after := by
  cases tier with
  | multiplicative => exact back.unary run grown plain
  | _ => exact back.tier _ run grown plain

/-- An operand only adds to the arena. -/
private theorem operand_grows
    (back : rules.ReadsBack input)
    (run : rules.operand tier input state = .done expr after) :
    state.arena.Extends after.arena := by
  cases tier with
  | multiplicative => exact back.grows _ run
  | _ => exact back.grows _ run

/-- Operands joined by the operators of a tier are spelled. -/
private theorem tiered
    (back : rules.ReadsBack input)
    (run : rules.tiered tier input state = .done expr after)
    (grown : after.arena.Extends final)
    (plain : final.Plain expr) :
    (ExprLevel.tier tier).Spelled input state.position expr after := by
  obtain ⟨left, middle, begun, onward⟩ := Parser.done_of_bind run
  obtain ⟨plainLeft, joins⟩ := back.operations tier onward grown plain
  apply joins
  obtain ⟨tree, kinds, position, spells, spelling, standing⟩ :=
    back.operand begun ((back.grows _ onward).trans grown) plainLeft
  exact ⟨tree, kinds, position, spells, .alone tier spelling, standing⟩

/-- An operation is spelled by its operands and the operator between them. -/
private theorem joined
    {op : BinaryOp}
    {right : ExprId}
    {start : Nat}
    (closed : input.window.Closed)
    (found : input.window.kindAt state.position = .symbol op.symbol)
    (first : (ExprLevel.tier op.tier).Spelled input start left state)
    (second : op.tier.operandLevel.Spelled input
      (Parser.behind input state).position right after)
    (grown : state.arena.Extends after.arena) :
    (ExprForm.binary op left right).Spelled input start after
      (.tier op.tier) := by
  obtain ⟨tree, kinds, position, spells, spelling, standing⟩ := first
  obtain ⟨other, more, positionRight, spellsRight, spellingRight,
      standingRight⟩ := second
  obtain ⟨behindOne, spellsOp⟩ := Window.Spells.one closed found nofun
  refine ⟨.binary op tree other, kinds ++ .symbol op.symbol :: more, ?_, ?_,
    .binary op spelling spellingRight, ?_⟩
  · simp only [List.length_append, List.length_cons]
    omega
  · rw [Window.spells_append_cons, ← position, ← behindOne]
    exact ⟨spells, spellsOp.1, found, spellsRight⟩
  · intro arena expr further held formed
    exact ⟨held, left, right, formed, (standing.grow grown).grow further,
      standingRight.grow further⟩

/-- Operators of a tier are spelled behind their left operand. -/
private theorem operated
    (back : rules.ReadsBack input)
    (closed : input.window.Closed)
    (run : rules.operations tier left input state = .done expr after)
    (grown : after.arena.Extends final)
    (plain : final.Plain expr) :
    final.Plain left ∧ ∀ start, (ExprLevel.tier tier).Spelled input start left
      state →
      (ExprLevel.tier tier).Spelled input start expr after := by
  obtain ⟨kind, same, looked, rest⟩ := Parser.done_of_bind run
  cases looked
  cases found : BinaryOp.ofKind? tier (input.window.kindAt state.position) with
  | none =>
      simp only [Window.kindAt] at found
      rw [found] at rest
      cases rest
      exact ⟨plain, fun _ spelled => spelled⟩
  | some op =>
      obtain ⟨rfl, symbol⟩ := BinaryOp.eq_symbol_of_ofKind? found
      simp only [Window.kindAt] at found
      rw [found] at rest
      obtain ⟨_, first, skipped, rest⟩ := Parser.done_of_bind rest
      obtain rfl := Parser.skip_done skipped
      obtain ⟨right, middle, begun, rest⟩ := Parser.done_of_bind rest
      obtain ⟨arena, same, read, rest⟩ := Parser.done_of_bind rest
      cases read
      obtain ⟨next, added, adding, onward⟩ := Parser.done_of_bind rest
      obtain ⟨rfl, rfl⟩ := Parser.addExpr_done adding
      obtain ⟨plainNext, joins⟩ := back.operations _ onward grown plain
      have further := (back.grows _ onward).trans grown
      have formed : (final.expr middle.nextExpr).form =
          .binary op left right := by
        rw [further.expr_eq (ParserState.holds_withExpr middle _ _)]
        exact ParserState.expr_withExpr ..
      have plainRight : final.Plain right :=
        plainNext.inner formed (List.mem_cons_of_mem _ List.mem_cons_self)
      refine ⟨plainNext.inner formed List.mem_cons_self, fun start spelled =>
        ?_⟩
      have second :=
        back.operand begun ((middle.past_withExpr _ _).arena.trans further)
          plainRight
      have growsRight := back.operand_grows begun
      exact joins start
        ((joined closed symbol spelled second growsRight).added _)

/-- A prefix operator is spelled before its operand. -/
private theorem negated
    {op : UnaryOp}
    (closed : input.window.Closed)
    (found : input.window.kindAt state.position = .symbol op.symbol)
    (operand : ExprLevel.unary.Spelled input
      (Parser.behind input state).position expr after) :
    (ExprForm.unary op expr).Spelled input state.position after .unary := by
  obtain ⟨tree, kinds, position, spells, spelling, standing⟩ := operand
  obtain ⟨behindOne, spellsOp⟩ := Window.Spells.one closed found nofun
  refine ⟨.unary op tree, .symbol op.symbol :: kinds, ?_,
    ⟨spellsOp.1, found, behindOne ▸ spells⟩,
    .unary op spelling, ?_⟩
  · simp only [List.length_cons]
    omega
  · intro arena expr further held formed
    exact ⟨held, _, formed, standing.grow further⟩

/-- Expressions joined by commas are spelled. -/
private theorem listed
    (back : rules.ReadsBack input)
    (closed : input.window.Closed)
    {exprs : List ExprId}
    (run : rules.expressions input state = .done exprs after)
    (grown : after.arena.Extends final)
    (plain : ∀ expr ∈ exprs, final.Plain expr) :
    ExprSyntax.ListSpelled input state.position exprs after := by
  obtain ⟨first, middle, begun, rest⟩ := Parser.done_of_bind run
  obtain ⟨comma, next, eaten, rest⟩ := Parser.done_of_bind rest
  rw [Parser.eat_run] at eaten
  split at eaten
  next found =>
    cases eaten
    obtain ⟨others, last, onward, rest⟩ := Parser.done_of_bind rest
    cases rest
    have growsRest := back.grows _ onward
    obtain ⟨tree, kinds, position, spells, spelling, standing⟩ :=
      back.tier _ begun (growsRest.trans grown) (plain first List.mem_cons_self)
    obtain ⟨trees, more, positionRest, spellsRest, spellingRest, standings⟩ :=
      back.expressions onward grown fun expr listed =>
        plain expr (List.mem_cons_of_mem _ listed)
    obtain ⟨behindOne, spellsComma⟩ := Window.Spells.one closed found nofun
    obtain ⟨second, others, rfl⟩ : ∃ second others, trees =
        second :: others := by
      cases spellingRest with
      | single => exact ⟨_, _, rfl⟩
      | more => exact ⟨_, _, rfl⟩
    refine ⟨tree :: second :: others, kinds ++ .symbol .comma :: more, ?_, ?_,
      .more spelling spellingRest, first, _, rfl, standing.grow growsRest,
        standings⟩
    · simp only [List.length_append, List.length_cons]
      omega
    · rw [Window.spells_append_cons, ← position, ← behindOne]
      exact ⟨spells, spellsComma.1, found, spellsRest⟩
  next =>
    cases eaten
    cases rest
    obtain ⟨tree, kinds, position, spells, spelling, standing⟩ :=
      back.tier _ begun grown (plain first List.mem_cons_self)
    exact ⟨[tree], kinds, position, spells, .single spelling, first, [], rfl,
      standing, rfl⟩

/-- Expressions up to a closing parenthesis are spelled with it. -/
private theorem closedExpressions
    (back : rules.ReadsBack input)
    (closed : input.window.Closed)
    {exprs : List ExprId}
    (run : rules.closedExpressions input state = .done exprs after) :
    state.arena.Extends after.arena ∧
      (after.arena.Extends final → (∀ expr ∈ exprs, final.Plain expr) →
        ExprSyntax.ClosedSpelled input state.position exprs after) := by
  obtain ⟨found, middle, begun, rest⟩ := Parser.done_of_bind run
  obtain ⟨_, last, closes, rest⟩ := Parser.done_of_bind rest
  obtain ⟨closer, rfl⟩ := Parser.expect_done closes
  cases rest
  obtain ⟨behindOne, spellsCloser⟩ := Window.Spells.one closed closer nofun
  rw [Parser.orNone_run] at begun
  split at begun
  next =>
    cases begun
    exact ⟨.refl _, fun _ _ =>
      ⟨[], [], behindOne, spellsCloser, .inl ⟨rfl, rfl⟩, rfl⟩⟩
  next =>
    have grows := back.grows _ begun
    refine ⟨grows, fun grown plain => ?_⟩
    obtain ⟨trees, kinds, position, spells, spelling, standings⟩ :=
      back.expressions begun grown plain
    refine ⟨trees, kinds, ?_, ?_, .inr spelling, standings⟩
    · rw [behindOne, position, List.length_append, List.length_singleton,
        Nat.add_assoc]
    · rw [Window.spells_append, ← position]
      exact ⟨spells, spellsCloser⟩

variable {object : ExprId} {start : Nat}

/-- A call is spelled by what is called and its arguments. -/
private theorem called
    {args : List ExprId}
    (closed : input.window.Closed)
    (found : input.window.kindAt state.position = Delimiter.opener .paren)
    (callee : ExprLevel.atom.Spelled input start object state)
    (others : ExprSyntax.ClosedSpelled input
      (Parser.behind input state).position args after)
    (grown : state.arena.Extends after.arena) :
    (ExprForm.call object args).Spelled input start after .atom := by
  obtain ⟨tree, kinds, position, spells, spelling, standing⟩ := callee
  obtain ⟨trees, more, positionArgs, spellsArgs, spelled, standings⟩ := others
  obtain ⟨behindOne, spellsOpener⟩ := Window.Spells.one closed found nofun
  have spelling : ExprSpelling (.expr .atom (.call tree trees))
      (kinds ++ Delimiter.paren.around more) := by
    obtain ⟨rfl, rfl⟩ | listed := spelled
    · exact .emptyCall spelling
    · exact .call spelling listed
  refine ⟨.call tree trees, _, ?_, ?_, spelling, ?_⟩
  · simp only [List.length_append, List.length_singleton,
      Delimiter.length_around] at positionArgs ⊢
    omega
  · rw [Window.spells_append, ← position]
    exact ⟨spells, spellsOpener.1, found, behindOne ▸ spellsArgs⟩
  · intro arena expr further held formed
    exact ⟨held, _, _, formed, (standing.grow grown).grow further,
      standings.grow further⟩

/-- A member access is spelled by its object and the name of the member. -/
private theorem accessed
    {member : Name}
    {span : Span}
    (closed : input.window.Closed)
    (found : input.window.kindAt state.position = .symbol .dot)
    (named : input.window.kindAt (Parser.behind input state).position =
      .identifier member)
    (owner : ExprLevel.atom.Spelled input start object state) :
    (ExprForm.dot object
      (Parser.behind input (Parser.behind input state)).nextName).Spelled input
      start ((Parser.behind input (Parser.behind input state)).withName
        (.simple member) span)
      .atom := by
  obtain ⟨tree, kinds, position, spells, spelling, standing⟩ := owner
  obtain ⟨behindOne, spellsDot⟩ := Window.Spells.one closed found nofun
  obtain ⟨behindTwo, spellsName⟩ := Window.Spells.one closed named nofun
  have added :=
    (Parser.behind input (Parser.behind input state)).past_withName span
    (.simple member)
  refine ⟨.dot tree member, kinds ++ [.symbol .dot, .identifier member], ?_, ?_,
    .dot member spelling, ?_⟩
  · rw [added.position, behindTwo, behindOne, position]
    simp only [List.length_append, List.length_cons, List.length_nil]
    omega
  · rw [Window.spells_append, ← position]
    exact ⟨spells, spellsDot.1, found, behindOne ▸ spellsName⟩
  · intro arena expr further held formed
    have heldName :=
      (Parser.behind input (Parser.behind input state)).holds_withName span
      (.simple member)
    refine ⟨held, _, _, formed, (standing.grow added.arena).grow further,
      further.holds heldName, ?_⟩
    rw [further.name_eq heldName]
    exact ParserState.name_withName ..

/-- A subscript is spelled by its object and its index in brackets. -/
private theorem subscripted
    {index : ExprId}
    (closed : input.window.Closed)
    (found : input.window.kindAt state.position = Delimiter.opener .bracket)
    (owner : ExprLevel.atom.Spelled input start object state)
    (inner : (ExprLevel.tier .or).Spelled input
      (Parser.behind input state).position index after)
    (closer : input.window.kindAt after.position = Delimiter.closer .bracket)
    (grown : state.arena.Extends after.arena) :
    (ExprForm.subscript object index).Spelled input start
      (Parser.behind input after) .atom := by
  obtain ⟨tree, kinds, position, spells, spelling, standing⟩ := owner
  obtain ⟨other, more, positionIndex, spellsIndex, spellingIndex,
      standingIndex⟩ := inner
  obtain ⟨behindOne, spellsOpener⟩ := Window.Spells.one closed found nofun
  obtain ⟨behindTwo, spellsCloser⟩ := Window.Spells.one closed closer nofun
  refine ⟨.subscript tree other, kinds ++ Delimiter.bracket.around more, ?_, ?_,
    .subscript spelling spellingIndex, ?_⟩
  · simp only [List.length_append, Delimiter.length_around]
    omega
  · rw [Window.spells_append, ← position]
    refine ⟨spells, spellsOpener.1, found, ?_⟩
    rw [← behindOne]
    exact Window.spells_append.mpr ⟨spellsIndex, positionIndex ▸ spellsCloser⟩
  · intro arena expr further held formed
    exact ⟨held, _, _, formed, (standing.grow grown).grow further,
      standingIndex.grow further⟩

/-- A postfix is spelled behind what it belongs to. -/
private theorem suffixed
    (back : rules.ReadsBack input)
    (closed : input.window.Closed)
    {form : ExprForm}
    (run : rules.postfix? object input state = .done (some form) after) :
    .expr object ∈ form.children ∧
      ∀ start, after.arena.Extends final →
        (∀ inner, .expr inner ∈ form.children → final.Plain inner) →
          ExprLevel.atom.Spelled input start object state →
            form.Spelled input start after .atom := by
  obtain ⟨kind, same, looked, rest⟩ := Parser.done_of_bind run
  cases looked
  generalize found : (input.window.tokenAt state.position).kind = kind at rest
  split at rest
  next =>
    obtain ⟨_, first, skipped, rest⟩ := Parser.done_of_bind rest
    obtain rfl := Parser.skip_done skipped
    obtain ⟨args, middle, closes, rest⟩ := Parser.done_of_bind rest
    cases rest
    obtain ⟨grows, others⟩ := back.closedExpressions closed closes
    refine ⟨List.mem_cons_self, fun start grown plain callee => ?_⟩
    have plainArgs : ∀ expr ∈ args, final.Plain expr := fun expr listed =>
      plain expr (List.mem_cons_of_mem _ (List.mem_map_of_mem listed))
    exact called closed found callee (others grown plainArgs) grows
  next =>
    obtain ⟨_, first, skipped, rest⟩ := Parser.done_of_bind rest
    obtain rfl := Parser.skip_done skipped
    obtain ⟨nameId, middle, read, rest⟩ := Parser.done_of_bind rest
    cases rest
    obtain ⟨member, named, rfl, rfl⟩ := Parser.identifier_done read
    exact ⟨List.mem_cons_self, fun _ _ _ owner =>
      accessed closed found named owner⟩
  next =>
    obtain ⟨_, first, skipped, rest⟩ := Parser.done_of_bind rest
    obtain rfl := Parser.skip_done skipped
    obtain ⟨index, middle, begun, rest⟩ := Parser.done_of_bind rest
    obtain ⟨_, last, closes, rest⟩ := Parser.done_of_bind rest
    obtain ⟨closer, rfl⟩ := Parser.expect_done closes
    cases rest
    have grows := back.grows _ begun
    refine ⟨List.mem_cons_self, fun start grown plain owner => ?_⟩
    have plainIndex : final.Plain index :=
      plain index (List.mem_cons_of_mem _ List.mem_cons_self)
    exact subscripted closed found owner (back.tier _ begun grown plainIndex)
      closer grows
  next => cases rest

/-- Nothing is left behind a primary expression without a postfix. -/
private theorem unsuffixed
    (run : rules.postfix? object input state = .done none after) :
    after = state := by
  obtain ⟨kind, same, looked, rest⟩ := Parser.done_of_bind run
  cases looked
  generalize (input.window.tokenAt state.position).kind = kind at rest
  split at rest
  next =>
    obtain ⟨_, _, _, rest⟩ := Parser.done_of_bind rest
    obtain ⟨_, _, _, rest⟩ := Parser.done_of_bind rest
    cases rest
  next =>
    obtain ⟨_, _, _, rest⟩ := Parser.done_of_bind rest
    obtain ⟨_, _, _, rest⟩ := Parser.done_of_bind rest
    cases rest
  next =>
    obtain ⟨_, _, _, rest⟩ := Parser.done_of_bind rest
    obtain ⟨_, _, _, rest⟩ := Parser.done_of_bind rest
    obtain ⟨_, _, _, rest⟩ := Parser.done_of_bind rest
    cases rest
  next =>
    cases rest
    rfl

/-- Postfixes are spelled behind what they belong to. -/
private theorem postfixed
    (back : rules.ReadsBack input)
    (closed : input.window.Closed)
    {span : Span}
    (run : rules.postfixes span object input state = .done expr after)
    (grown : after.arena.Extends final)
    (plain : final.Plain expr) :
    final.Plain object ∧
      ∀ start, ExprLevel.atom.Spelled input start object state →
      ExprLevel.atom.Spelled input start expr after := by
  obtain ⟨form?, middle, suffix, rest⟩ := Parser.done_of_bind run
  cases form? with
  | none =>
      obtain rfl := unsuffixed suffix
      cases rest
      exact ⟨plain, fun _ spelled => spelled⟩
  | some form =>
      obtain ⟨whole, same, read, rest⟩ := Parser.done_of_bind rest
      cases read
      obtain ⟨next, added, adding, onward⟩ := Parser.done_of_bind rest
      obtain ⟨rfl, rfl⟩ := Parser.addExpr_done adding
      obtain ⟨plainNext, joins⟩ := back.postfixes onward grown plain
      have further := (back.grows _ onward).trans grown
      have formed : (final.expr middle.nextExpr).form = form := by
        rw [further.expr_eq (ParserState.holds_withExpr middle _ _)]
        exact ParserState.expr_withExpr ..
      have inner : ∀ inner, .expr inner ∈ form.children → final.Plain inner :=
        fun inner owned => plainNext.inner formed owned
      obtain ⟨owned, goesOn⟩ := back.suffixed closed suffix
      refine ⟨inner object owned, fun start spelled => joins start ?_⟩
      exact (goesOn start ((middle.past_withExpr _ _).arena.trans further) inner
        spelled).added _

/--
The name of a declaration has template arguments, or it is added as it was read.
-/
private theorem nameOf_done
    {decl : DeclId}
    {takesArgs : Bool}
    {name : Name}
    {span : Span}
    {nameId : NameId}
    (run : rules.nameOf decl takesArgs name span input state =
      .done nameId after) :
    (after.arena.Holds (.name nameId) ∧
        ∃ args, (after.arena.name nameId).form = .applied decl args) ∨
      nameId = state.nextName ∧ after = state.withName (.simple name) span := by
  unfold Rules.nameOf Rules.appliedName at run
  split at run
  · obtain ⟨angle, middle, eaten, rest⟩ := Parser.done_of_bind run
    rw [Parser.eat_run] at eaten
    split at eaten
    · cases eaten
      obtain ⟨args, last, _, rest⟩ := Parser.done_of_bind rest
      obtain ⟨whole, same, read, rest⟩ := Parser.done_of_bind rest
      cases read
      cases rest
      exact .inl ⟨ParserState.holds_withName last _ _, args,
        ParserState.name_withName last _ _⟩
    · cases eaten
      cases rest
      exact .inr ⟨rfl, rfl⟩
  · cases run
    exact .inr ⟨rfl, rfl⟩

/-- A node with a name read as one identifier is spelled by it. -/
private theorem identified
    {name : Name}
    {span : Span}
    {form : ExprForm}
    {tree : ExprSyntax}
    (closed : input.window.Closed)
    (found : input.window.kindAt state.position = .identifier name)
    (spelling : ExprSpelling (.expr .atom tree) [.identifier name])
    (standing : ∀ arena expr, Arena.Holds arena (.expr expr) →
      (arena.expr expr).form = form →
      arena.Holds (.name (Parser.behind input state).nextName) →
      (arena.name (Parser.behind input state).nextName).form = .simple name →
        tree.At arena expr) :
    form.Spelled input state.position
      ((Parser.behind input state).withName (.simple name) span) .atom := by
  obtain ⟨behindOne, spells⟩ := Window.Spells.one closed found nofun
  refine ⟨tree, [.identifier name], behindOne, spells, spelling, ?_⟩
  intro arena expr further held formed
  have heldName :=
    (Parser.behind input state).holds_withName span (.simple name)
  refine standing arena expr held formed (further.holds heldName) ?_
  rw [further.name_eq heldName]
  exact ParserState.name_withName ..

/-- A name is spelled by its identifier. -/
private theorem named
    (closed : input.window.Closed)
    (run : rules.namedExpression input state = .done expr after)
    (grown : after.arena.Extends final)
    (plain : final.Plain expr) :
    ExprLevel.atom.Spelled input state.position expr after := by
  obtain ⟨⟨name, span⟩, first, read, rest⟩ := Parser.done_of_bind run
  obtain ⟨found, rfl, rfl⟩ := Parser.expectIdentifier_done read
  obtain ⟨decls?, same, looked, rest⟩ := Parser.done_of_bind rest
  obtain rfl : same = Parser.behind input state := by cases looked; rfl
  split at rest
  next =>
    obtain ⟨_, _, _, rest⟩ := Parser.done_of_bind rest
    cases rest
  next decl =>
    obtain ⟨arena, same, read, rest⟩ := Parser.done_of_bind rest
    cases read
    obtain ⟨nameId, middle, naming, rest⟩ := Parser.done_of_bind rest
    obtain ⟨whole, same, read, rest⟩ := Parser.done_of_bind rest
    cases read
    obtain ⟨rfl, rfl⟩ := Parser.addExpr_done rest
    obtain ⟨heldName, args, applied⟩ | ⟨rfl, rfl⟩ := nameOf_done naming
    · have added := (middle.past_withExpr _ _).arena.trans grown
      have formed : (final.expr middle.nextExpr).form =
          .reference decl nameId := by
        rw [grown.expr_eq (ParserState.holds_withExpr middle _ _)]
        exact ParserState.expr_withExpr ..
      have unapplied : (final.name nameId).form ≠ .applied decl args :=
        plain.not_applied formed List.mem_cons_self
      rw [added.name_eq heldName] at unapplied
      exact absurd applied unapplied
    · exact (identified closed found (.reference decl name)
        fun _ _ held formed heldName named =>
          ⟨held, _, formed, heldName, named⟩).added _
  next decls _ =>
    obtain ⟨nameId, middle, adding, rest⟩ := Parser.done_of_bind rest
    cases adding
    obtain ⟨whole, same, read, rest⟩ := Parser.done_of_bind rest
    cases read
    obtain ⟨rfl, rfl⟩ := Parser.addExpr_done rest
    exact (identified closed found (.overload name decls)
      fun _ _ held formed heldName named =>
        ⟨held, _, formed, heldName, named⟩).added _

/-- An expression in parentheses is spelled with them. -/
private theorem grouped
    (closed : input.window.Closed)
    (opener : input.window.kindAt state.position = Delimiter.opener .paren)
    (inner : (ExprLevel.tier .or).Spelled input
      (Parser.behind input state).position expr after)
    (closer : input.window.kindAt after.position = Delimiter.closer .paren) :
    ExprLevel.atom.Spelled input state.position expr
      (Parser.behind input after) := by
  obtain ⟨tree, kinds, position, spells, spelling, standing⟩ := inner
  obtain ⟨behindOne, spellsOpener⟩ := Window.Spells.one closed opener nofun
  obtain ⟨behindTwo, spellsCloser⟩ := Window.Spells.one closed closer nofun
  refine ⟨tree, Delimiter.paren.around kinds, ?_, ⟨spellsOpener.1, opener, ?_⟩,
    .group spelling,
    standing⟩
  · rw [Delimiter.length_around]
    omega
  · rw [← behindOne]
    exact Window.spells_append.mpr ⟨spells, position ▸ spellsCloser⟩

/-- A tuple is spelled by its elements in parentheses. -/
private theorem tupled
    {first : ExprId}
    {others : List ExprId}
    {middle : ParserState}
    (closed : input.window.Closed)
    (opener : input.window.kindAt state.position = Delimiter.opener .paren)
    (inner : (ExprLevel.tier .or).Spelled input
      (Parser.behind input state).position first middle)
    (comma : input.window.kindAt middle.position = .symbol .comma)
    (rest : ExprSyntax.ClosedSpelled input (Parser.behind input middle).position
      others after)
    (grown : middle.arena.Extends after.arena) :
    (ExprForm.tuple (first :: others)).Spelled input state.position after
      .atom := by
  obtain ⟨tree, kinds, position, spells, spelling, standing⟩ := inner
  obtain ⟨trees, more, positionRest, spellsRest, spelled, standings⟩ := rest
  obtain ⟨behindOne, spellsOpener⟩ := Window.Spells.one closed opener nofun
  obtain ⟨behindTwo, spellsComma⟩ := Window.Spells.one closed comma nofun
  have spelling : ExprSpelling (.expr .atom (.tuple (tree :: trees)))
      (Delimiter.paren.around (kinds ++ .symbol .comma :: more)) := by
    obtain ⟨rfl, rfl⟩ | listed := spelled
    · exact .oneTuple spelling
    · cases listed with
      | single inner => exact .tuple spelling (.single inner)
      | more head tail => exact .tuple spelling (.more head tail)
  refine ⟨.tuple (tree :: trees),
    Delimiter.paren.around (kinds ++ .symbol .comma :: more), ?_,
    ⟨spellsOpener.1, opener, ?_⟩, spelling, ?_⟩
  · simp only [List.length_append, List.length_cons, List.length_nil,
      Delimiter.length_around] at positionRest ⊢
    omega
  · rw [← behindOne, List.append_eq, List.append_assoc, List.cons_append,
      Window.spells_append_cons, ← position]
    exact ⟨spells, spellsComma.1, comma, behindTwo ▸ spellsRest⟩
  · intro arena expr further held formed
    exact ⟨held, _, formed, first, others, rfl,
      (standing.grow grown).grow further,
      standings.grow further⟩

/-- An expression in parentheses or a tuple is spelled. -/
private theorem parenthesized
    (back : rules.ReadsBack input)
    (closed : input.window.Closed)
    (run : rules.parenthesizedExpression input state = .done expr after)
    (grown : after.arena.Extends final)
    (plain : final.Plain expr) :
    ExprLevel.atom.Spelled input state.position expr after := by
  obtain ⟨begun, same, read, rest⟩ := Parser.done_of_bind run
  cases read
  obtain ⟨_, first, opens, rest⟩ := Parser.done_of_bind rest
  obtain ⟨opener, rfl⟩ := Parser.expect_done opens
  obtain ⟨empty, middle, eaten, rest⟩ := Parser.done_of_bind rest
  rw [Parser.eat_run] at eaten
  split at eaten
  next closer =>
    cases eaten
    obtain ⟨whole, same, read, rest⟩ := Parser.done_of_bind rest
    cases read
    obtain ⟨rfl, rfl⟩ := Parser.addExpr_done rest
    obtain ⟨behindOne, spellsOpener⟩ := Window.Spells.one closed opener nofun
    obtain ⟨behindTwo, spellsCloser⟩ := Window.Spells.one closed closer nofun
    refine ExprForm.Spelled.added ⟨.tuple [], Delimiter.paren.around [], ?_,
      ⟨spellsOpener.1, opener, behindOne ▸ spellsCloser⟩, .emptyTuple, ?_⟩ _
    · rw [behindTwo, behindOne]
      rfl
    · exact fun arena expr _ held formed => ⟨held, [], formed, rfl⟩
  next =>
    cases eaten
    obtain ⟨inner, middle, begun, rest⟩ := Parser.done_of_bind rest
    obtain ⟨alone, next, eaten, rest⟩ := Parser.done_of_bind rest
    rw [Parser.eat_run] at eaten
    split at eaten
    next closer =>
      cases eaten
      cases rest
      exact grouped closed opener (back.tier _ begun grown plain) closer
    next =>
      cases eaten
      obtain ⟨_, next, eaten, rest⟩ := Parser.done_of_bind rest
      obtain ⟨comma, rfl⟩ := Parser.expect_done eaten
      obtain ⟨others, last, closes, rest⟩ := Parser.done_of_bind rest
      obtain ⟨whole, same, read, rest⟩ := Parser.done_of_bind rest
      cases read
      obtain ⟨rfl, rfl⟩ := Parser.addExpr_done rest
      have formed : (final.expr last.nextExpr).form =
          .tuple (inner :: others) := by
        rw [grown.expr_eq (ParserState.holds_withExpr last _ _)]
        exact ParserState.expr_withExpr ..
      have plainInner : ∀ expr ∈ inner :: others, final.Plain expr :=
        fun expr listed =>
        plain.inner formed (List.mem_map_of_mem listed)
      have further := (last.past_withExpr _ _).arena.trans grown
      obtain ⟨grows, spelledRest⟩ := back.closedExpressions closed closes
      have first :=
        back.tier _ begun (grows.trans further)
          (plainInner _ List.mem_cons_self)
      have rest := spelledRest further fun expr listed =>
        plainInner _ (List.mem_cons_of_mem _ listed)
      exact (tupled closed opener first comma rest grows).added _

/-- A literal is spelled by its token. -/
private theorem literal
    {kind : TokenKind}
    {form : ExprForm}
    {tree : ExprSyntax}
    (closed : input.window.Closed)
    (found : input.window.kindAt state.position = kind)
    (real : kind ≠ .endOfInput)
    (spelling : ExprSpelling (.expr .atom tree) [kind])
    (standing : ∀ arena expr, Arena.Holds arena (.expr expr) →
      (arena.expr expr).form = form →
      tree.At arena expr)
    (run : Rules.literal form input state = .done expr after) :
    ExprLevel.atom.Spelled input state.position expr after := by
  obtain ⟨behindOne, spells⟩ := Window.Spells.one closed found real
  have spelled : form.Spelled input state.position (Parser.behind input state)
      .atom :=
    ⟨tree, [kind], behindOne, spells, spelling, fun arena expr _ =>
      standing arena expr⟩
  obtain ⟨token, middle, read, rest⟩ := Parser.done_of_bind run
  cases read
  obtain ⟨rfl, rfl⟩ := Parser.addExpr_done rest
  exact spelled.added _

/-- A primary expression is spelled. -/
private theorem primary
    (back : rules.ReadsBack input)
    (closed : input.window.Closed)
    (run : rules.primary input state = .done expr after)
    (grown : after.arena.Extends final)
    (plain : final.Plain expr) :
    ExprLevel.atom.Spelled input state.position expr after := by
  obtain ⟨token, same, looked, rest⟩ := Parser.done_of_bind run
  cases looked
  generalize found : (input.window.tokenAt state.position).kind = kind at rest
  split at rest
  next =>
    exact literal closed found nofun (.bool true)
      (fun _ _ held formed => ⟨held, formed⟩) rest
  next =>
    exact literal closed found nofun (.bool false)
      (fun _ _ held formed => ⟨held, formed⟩) rest
  next value =>
    exact literal closed found nofun (.int value)
      (fun _ _ held formed => ⟨held, formed⟩) rest
  next => exact named closed rest grown plain
  next => exact back.parenthesized closed rest grown plain
  next =>
    obtain ⟨begun, same, read, rest⟩ := Parser.done_of_bind rest
    obtain ⟨_, _, _, rest⟩ := Parser.done_of_bind rest
    obtain ⟨scope, _, _, rest⟩ := Parser.done_of_bind rest
    obtain ⟨⟨parms, reqs⟩, last, _, rest⟩ := Parser.done_of_bind rest
    obtain ⟨whole, same, read, rest⟩ := Parser.done_of_bind rest
    cases read
    obtain ⟨rfl, rfl⟩ := Parser.addExpr_done rest
    have required : (final.expr last.nextExpr).form ≠
        .requires parms reqs scope :=
      plain.not_requires
    rw [grown.expr_eq (ParserState.holds_withExpr last _ _)] at required
    exact absurd (ParserState.expr_withExpr ..) required
  next => cases rest

/-- An expression that is no binary operation is spelled. -/
private theorem signed
    (back : rules.ReadsBack input)
    (closed : input.window.Closed)
    (run : rules.unary input state = .done expr after)
    (grown : after.arena.Extends final)
    (plain : final.Plain expr) :
    ExprLevel.unary.Spelled input state.position expr after := by
  obtain ⟨token, same, looked, rest⟩ := Parser.done_of_bind run
  cases looked
  cases found : UnaryOp.ofKind? (input.window.kindAt state.position) with
  | none =>
      simp only [Window.kindAt] at found
      rw [found] at rest
      obtain ⟨object, middle, begun, onward⟩ := Parser.done_of_bind rest
      obtain ⟨plainObject, joins⟩ := back.postfixes onward grown plain
      obtain ⟨tree, kinds, position, spells, spelling, standing⟩ :=
        joins state.position
        (back.primary closed begun ((back.grows _ onward).trans grown)
          plainObject)
      exact ⟨tree, kinds, position, spells, .unsigned spelling, standing⟩
  | some op =>
      have symbol := UnaryOp.eq_symbol_of_ofKind? found
      simp only [Window.kindAt] at found
      rw [found] at rest
      obtain ⟨_, first, skipped, rest⟩ := Parser.done_of_bind rest
      obtain rfl := Parser.skip_done skipped
      obtain ⟨operand, middle, begun, rest⟩ := Parser.done_of_bind rest
      obtain ⟨whole, same, read, rest⟩ := Parser.done_of_bind rest
      cases read
      obtain ⟨rfl, rfl⟩ := Parser.addExpr_done rest
      have formed : (final.expr middle.nextExpr).form = .unary op operand := by
        rw [grown.expr_eq (ParserState.holds_withExpr middle _ _)]
        exact ParserState.expr_withExpr ..
      have spelled :=
        back.unary begun ((middle.past_withExpr _ _).arena.trans grown)
        (plain.inner formed List.mem_cons_self)
      exact (negated closed symbol spelled).added _

end Rules.ReadsBack

/-- Whatever is parsed, the arena only grows. -/
private theorem Rules.nested_grows
    {input : ParserInput}
    (depth : Nat)
    {Value : Type}
    (nonterminal : Nonterminal Value)
    {state after : ParserState}
    {value : Value}
    (run : (nested depth).parse nonterminal input state = .done value after) :
    state.arena.Extends after.arena := by
  have leaves := (nested_allComposed depth nonterminal []).leaves_extends input
    (Arena.Extends.refl state.arena) fun _ listed =>
      absurd listed List.not_mem_nil
  rwa [run] at leaves

/-- Whatever the bound on nested calls, parsed expressions are spelled. -/
theorem Rules.nested_readsBack
    {input : ParserInput}
    (closed : input.window.Closed)
    (depth : Nat) :
    (nested depth).ReadsBack input := by
  induction depth with
  | zero =>
      exact {
        grows := nested_grows 0
        tier := fun _ _ _ _ _ run => by cases run
        unary := fun run => by cases run
        operations := fun _ _ _ _ _ _ run => by cases run
        postfixes := fun run => by cases run
        expressions := fun run => by cases run }
  | succ depth back =>
      exact {
        grows := nested_grows (depth + 1)
        tier := fun _ _ _ _ _ run => back.tiered run
        unary := fun run => back.signed closed run
        operations := fun _ _ _ _ _ _ run => back.operated closed run
        postfixes := fun run => back.postfixed closed run
        expressions := fun run => back.listed closed run }

end Tern
