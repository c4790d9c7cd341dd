import Tern.Proofs.Grammar.Passing
import Tern.Proofs.Spelling.Expressions

namespace Tern

/-!
# Where alternatives end

Where one production is tried before another one, mostly only one of them can be
done. Where both can, the one that is tried first ends no later: their operands
end at the same place, and only the other one can go on from there.
-/

/--
What an expression of a tier goes on with, which is nothing at a token that ends
it.
-/
structure Extended
    (tier : Tier)
    (input : ParserInput)
    (state after : ParserState) :
    Prop where
  passage : Passage input.window unterminated state.position []
    after.position []
  stays : (ExprLevel.tier tier).EndsAt (input.window.kindAt state.position) →
    after.position = state.position

namespace Extended

variable {tier tighter : Tier} {input : ParserInput}
  {state middle after : ParserState}

theorem trans
    (first : Extended tier input state middle)
    (second : Extended tier input middle after) :
    Extended tier input state after where
  passage := first.passage.trans second.passage
  stays := by
    intro ends
    have stayed := first.stays ends
    rw [second.stays (stayed ▸ ends), stayed]

private theorem looser
    (extended : Extended tighter input state after)
    (smaller : tighter.rank ≤ tier.rank) :
    Extended tier input state after where
  passage := extended.passage
  stays := fun ends => extended.stays (ends.tighter (Nat.succ_le_succ smaller))

end Extended

namespace Rules

variable {input : ParserInput} {state after : ParserState} {depth : Nat}
  {tier : Tier}
  {expr left : ExprId}

section

variable (closed : input.window.Closed)

include closed

/-- A nonterminal of types and expressions is a passage at its own level. -/
private theorem nested_passage
    {Value : Type}
    {nonterminal : Nonterminal Value}
    {value : Value}
    (occurs : nonterminal.inExpressions = true)
    (opens : nonterminal.opened = [])
    (run : (nested depth).parse nonterminal input state = .done value after) :
    Passage input.window unterminated state.position [] after.position [] := by
  have passes : Passes input unterminated anyKind [] (fun _ => [])
      ((nested depth).parse nonterminal) :=
    Passing.call (nested_passing closed depth) nonterminal occurs opens
  exact (passes state state.track.delimiters trivial rfl run).2.1

/--
Behind an operand an expression of a tier goes on with the operators of the
tier.
-/
private theorem operations_extended
    (run : (nested depth).parse (.operations tier left) input state =
      .done expr after) :
    Extended tier input state after where
  passage := nested_passage closed rfl rfl run
  stays := by
    intro ends
    cases depth with
    | zero =>
        cases run
    | succ depth =>
        have produced : (nested depth).operations tier left input state =
            .done expr after := run
        obtain ⟨kind, middle, looked, rest⟩ := Parser.done_of_bind produced
        cases looked
        have none := ends.operator tier (Nat.le_refl _)
        simp only [Window.kindAt] at none
        rw [none] at rest
        cases rest
        rfl

/-- Behind a primary expression an expression goes on with postfixes. -/
private theorem postfixes_extended
    {start : Span}
    (run : (nested depth).parse (.postfixes start left) input state =
      .done expr after) :
    Extended tier input state after where
  passage := nested_passage closed rfl rfl run
  stays := by
    intro ends
    cases depth with
    | zero =>
        cases run
    | succ depth =>
        have produced : (nested depth).postfixes start left input state =
            .done expr after := run
        obtain ⟨form?, middle, suffixed, rest⟩ := Parser.done_of_bind produced
        obtain ⟨kind, same, looked, chosen⟩ := Parser.done_of_bind suffixed
        cases looked
        have stays : form? = none ∧ middle = state := by
          simp only [Window.kindAt] at ends
          generalize (input.window.tokenAt state.position).kind =
            kind at ends chosen
          split at chosen
          next => exact absurd rfl ends.paren
          next => exact absurd rfl ends.dot
          next => exact absurd rfl ends.bracket
          next => cases chosen; exact ⟨rfl, rfl⟩
        obtain ⟨rfl, rfl⟩ := stays
        cases rest
        rfl

/--
An expression of a tier begins with an expression that is no binary operation.
-/
private theorem exists_unary_of_tier
    (run : (nested depth).parse (.tier tier) input state = .done expr after) :
    ∃ (shallower : Nat) (object : ExprId) (middle : ParserState),
      (nested shallower).parse .unary input state = .done object middle ∧
        Extended tier input middle after := by
  induction depth generalizing tier expr after with
  | zero =>
      cases run
  | succ depth inductionHypothesis =>
      have produced : (nested depth).tiered tier input state =
          .done expr after := run
      obtain ⟨object, middle, begun, onward⟩ := Parser.done_of_bind produced
      have extended := operations_extended closed onward
      unfold Rules.operand at begun
      cases next : tier.tighter? with
      | some tighter =>
          rw [next] at begun
          obtain ⟨shallower, operand, first, found, further⟩ :=
            inductionHypothesis begun
          have smaller := Nat.le_of_lt (Tier.rank_lt_of_tighter? next)
          exact ⟨shallower, operand, first, found,
            (further.looser smaller).trans extended⟩
      | none =>
          rw [next] at begun
          exact ⟨depth, object, middle, begun, extended⟩

/--
An expression that begins with no prefix operator begins with a primary one.
-/
private theorem exists_primary_of_tier
    (plain : UnaryOp.ofKind? (input.window.kindAt state.position) = none)
    (run : (nested depth).parse (.tier tier) input state = .done expr after) :
    ∃ (shallower : Nat) (object : ExprId) (middle : ParserState),
      (nested shallower).primary input state = .done object middle ∧
        Extended tier input middle after := by
  obtain ⟨shallower, operand, last, found, extended⟩ :=
    exists_unary_of_tier closed run
  cases shallower with
  | zero =>
      cases found
  | succ shallower =>
      have produced : (nested shallower).unary input state =
          .done operand last := found
      obtain ⟨token, same, looked, chosen⟩ := Parser.done_of_bind produced
      cases looked
      simp only [Window.kindAt] at plain
      rw [plain] at chosen
      obtain ⟨object, middle, primary, onward⟩ := Parser.done_of_bind chosen
      exact ⟨shallower, object, middle, primary,
        (postfixes_extended closed onward).trans extended⟩

/--
The tokens that may follow a type as suffixes of it: neither a comma nor an
angle.
-/
def suffixing (kind : TokenKind) : Prop :=
  kind ≠ .symbol .comma ∧ kind ≠ .symbol .greater

/--
The suffixes of a type read neither a comma nor an angle at their own level.
-/
private theorem typeSuffixes_passes
    (depth : Nat)
    (start : Span)
    (base : TypeId) :
    Passes input suffixing anyKind [] (fun _ => [])
      ((nested depth).parse (.typeSuffixes start base)) := by
  induction depth generalizing base with
  | zero =>
      intro state outer value next _ _ run
      cases run
  | succ depth inductionHypothesis =>
      have suffix : Passes input suffixing anyKind [] (fun _ => [])
          ((nested depth).typeSuffix? base) :=
        Passing.typeSuffix? (nested_passing closed depth) closed base
          ⟨⟨nofun, nofun⟩, ⟨nofun, nofun⟩, ⟨nofun, nofun⟩, fun _ =>
            ⟨nofun, nofun⟩⟩
      refine Passes.bind suffix fun form? => ?_
      cases form? with
      | some form =>
          exact Passes.bind (Passes.spanFrom _) fun _ =>
            Passes.bind (Passes.addType _ _) fun _ =>
            inductionHypothesis _
      | none =>
          exact Passes.pure _

/-- A type without prefixes is a primary one with suffixes. -/
private theorem exists_primary_of_unaryType
    {type : TypeId}
    (plain : Qualifiers.ofKind? (input.window.kindAt state.position) = none)
    (run : (nested depth).parse .unaryType input state = .done type after) :
    ∃ (shallower : Nat) (base : TypeId) (middle : ParserState),
      (nested shallower).primaryType input state = .done base middle ∧
        Passage input.window suffixing middle.position [] after.position
          [] := by
  cases depth with
  | zero =>
      cases run
  | succ depth =>
      have produced : (nested depth).unaryType input state = .done type after :=
        run
      obtain ⟨token, same, looked, chosen⟩ := Parser.done_of_bind produced
      cases looked
      simp only [Window.kindAt] at plain
      rw [plain] at chosen
      obtain ⟨base, middle, primary, onward⟩ := Parser.done_of_bind chosen
      have passes :=
        typeSuffixes_passes closed depth
          (input.window.tokenAt state.position).span
        base
      exact ⟨depth, base, middle, primary,
        (passes middle _ trivial rfl onward).2.1⟩

/--
A type without prefixes goes on from a primary one without a comma or an angle.
-/
private theorem exists_primary_of_type
    {type : TypeId}
    (plain : Qualifiers.ofKind? (input.window.kindAt state.position) = none)
    (run : (nested depth).parse .type input state = .done type after) :
    ∃ (shallower : Nat) (base : TypeId) (middle : ParserState),
      (nested shallower).primaryType input state = .done base middle ∧
        Passage input.window suffixing middle.position [] after.position
          [] := by
  cases depth with
  | zero =>
      cases run
  | succ depth =>
      have produced : (nested depth).type input state = .done type after := run
      obtain ⟨start, same, spanned, rest⟩ := Parser.done_of_bind produced
      cases spanned
      obtain ⟨inner, last, begun, onward⟩ := Parser.done_of_bind rest
      obtain ⟨shallower, base, middle, primary, suffixes⟩ :=
        exists_primary_of_unaryType closed plain begun
      have passes : Passes input suffixing anyKind [] (fun _ => [])
          (Parser.eat (.symbol .ellipsis) >>= fun found =>
            if found = true then
              Parser.spanFrom (input.window.tokenAt state.position).span >>=
                  fun span =>
                Parser.addType (.wrapped .pack inner) span
            else Pure.pure inner) :=
        Passes.eat closed (.plain nofun ⟨nofun, nofun⟩ rfl)
          (Passes.bind (Passes.spanFrom _) fun _ => Passes.addType _ _)
            (Passes.pure _)
      have pack := (passes last _ trivial rfl onward).2.1
      exact ⟨shallower, base, middle, primary, suffixes.trans pack⟩

/-- A group in parentheses that begins at a position, up to its closer. -/
structure Group (window : Window) (position closer : Nat) : Prop where
  passage : Passage window unterminated (position + 1) [] closer []
  closes : window.kindAt closer = Delimiter.closer .paren

omit closed in
/-- There is at most one group at a position. -/
private theorem Group.unique
    {window : Window}
    {position closer other : Nat}
    (group : Group window position closer)
    (twin : Group window position other) :
    closer = other :=
  group.passage.eq_of_closes twin.passage (by rw [group.closes]; rfl)
    (by rw [twin.closes]; rfl)

/-- Behind its group a type in parentheses ends, unless an arrow follows. -/
private theorem group_of_parenthesizedType
    {type : TypeId}
    (run : (nested depth).parenthesizedType input state = .done type after) :
    ∃ closer, Group input.window state.position closer ∧
      (input.window.kindAt (closer + 1) = .symbol .arrow ∨ after.position =
        closer + 1) := by
  obtain ⟨start, same, spanned, rest⟩ := Parser.done_of_bind run
  cases spanned
  obtain ⟨_, opened, opens, rest⟩ := Parser.done_of_bind rest
  obtain ⟨opener, rfl⟩ := Parser.expect_done opens
  have begins :=
    Parser.behind_position (closed.lt_stop (by rw [opener]; exact nofun))
  obtain ⟨listed, last, inside, rest⟩ := Parser.done_of_bind rest
  have passage := nested_passage closed rfl rfl inside
  obtain ⟨_, ended, closes, rest⟩ := Parser.done_of_bind rest
  obtain ⟨closer, rfl⟩ := Parser.expect_done closes
  have ends :=
    Parser.behind_position (closed.lt_stop (by rw [closer]; exact nofun))
  rw [begins] at passage
  refine ⟨last.position, ⟨passage, closer⟩, ?_⟩
  obtain ⟨found, middle, eaten, rest⟩ := Parser.done_of_bind rest
  rw [Parser.eat_run, ends] at eaten
  split at eaten
  next arrow =>
    exact .inl arrow
  next =>
    cases eaten
    right
    rw [← ends]
    simp only [Bool.false_eq_true, ↓reduceIte] at rest
    rcases listed with ⟨_ | ⟨only, _ | ⟨second, more⟩⟩, _ | _⟩ <;>
      cases rest <;> rfl

/-- An expression in parentheses is its group. -/
private theorem group_of_parenthesizedExpression
    (run : (nested depth).parenthesizedExpression input state =
      .done expr after) :
    ∃ closer, Group input.window state.position closer ∧ after.position =
      closer + 1 := by
  obtain ⟨start, same, spanned, rest⟩ := Parser.done_of_bind run
  cases spanned
  obtain ⟨_, opened, opens, rest⟩ := Parser.done_of_bind rest
  obtain ⟨opener, rfl⟩ := Parser.expect_done opens
  have begins :=
    Parser.behind_position (closed.lt_stop (by rw [opener]; exact nofun))
  obtain ⟨found, middle, eaten, rest⟩ := Parser.done_of_bind rest
  rw [Parser.eat_run] at eaten
  split at eaten
  next closer =>
    cases eaten
    have ends :=
      Parser.behind_position (closed.lt_stop (by rw [closer]; exact nofun))
    cases rest
    rw [begins] at closer
    refine ⟨state.position + 1, ⟨.here _ _, closer⟩, ?_⟩
    rw [← begins, ← ends]
  next =>
    cases eaten
    obtain ⟨first, last, inside, rest⟩ := Parser.done_of_bind rest
    have passage := nested_passage closed rfl rfl inside
    rw [begins] at passage
    obtain ⟨found, middle, eaten, rest⟩ := Parser.done_of_bind rest
    rw [Parser.eat_run] at eaten
    split at eaten
    next closer =>
      cases eaten
      have ends :=
        Parser.behind_position (closed.lt_stop (by rw [closer]; exact nofun))
      cases rest
      exact ⟨last.position, ⟨passage, closer⟩, ends⟩
    next =>
      cases eaten
      obtain ⟨_, behindComma, commaRead, rest⟩ := Parser.done_of_bind rest
      obtain ⟨exprs, ended, others, rest⟩ := Parser.done_of_bind rest
      obtain ⟨listed, beforeCloser, listing, closing⟩ :=
        Parser.done_of_bind others
      obtain ⟨_, behindCloser, closerRead, ending⟩ :=
        Parser.done_of_bind closing
      have comma : Passes input unterminated anyKind [] (fun _ => [])
          (Parser.expect (.symbol .comma)) :=
        Passes.expect closed (.plain nofun nofun rfl)
      have items : Passes input unterminated anyKind [] (fun _ => [])
          ((nested depth).orNone (Delimiter.closer .paren) .expressions) :=
        Passing.orNone (nested_passing closed depth) _ _ rfl rfl
      have commaPassage := (comma last _ trivial rfl commaRead).2.1
      have itemsPassage := (items behindComma _ trivial rfl listing).2.1
      obtain ⟨closer, rfl⟩ := Parser.expect_done closerRead
      have ends :=
        Parser.behind_position (closed.lt_stop (by rw [closer]; exact nofun))
      cases ending
      cases rest
      exact ⟨beforeCloser.position,
        ⟨passage.trans (commaPassage.trans itemsPassage), closer⟩, ends⟩

omit closed in
/--
Among declarations named as types a concept is none, so template arguments are
for templates.
-/
private theorem isTemplateOrConcept_of_typeAmong?
    {arena : Arena}
    {decls : OverloadSet}
    {decl : DeclId}
    (named : arena.typeAmong? decls = some decl) :
    arena.isTemplateOrConcept decl = arena.isTemplate decl := by
  have type : arena.isDefinedClass decl = true ∨ arena.namesType decl =
      true := by
    unfold Arena.typeAmong? at named
    split at named
    next found =>
      cases named
      exact .inl (List.find?_some found)
    next =>
      exact .inr (List.find?_some named)
  simp only [Arena.isDefinedClass, Arena.namesType] at type
  simp only [Arena.isTemplateOrConcept, Arena.isTemplate]
  cases form : (arena.decl decl).form <;> simp_all

omit closed in
/-- A declaration named as a type is one of those that the name denotes. -/
private theorem mem_of_typeAmong?
    {arena : Arena}
    {decls : OverloadSet}
    {decl : DeclId}
    (named : arena.typeAmong? decls = some decl) :
    decl ∈ decls := by
  unfold Arena.typeAmong? at named
  split at named
  next found =>
    cases named
    exact List.mem_of_find?_eq_some found
  next =>
    exact List.mem_of_find?_eq_some named

omit closed in
/-- Without an angle the name of a declaration is a single token. -/
private theorem nameOf_stays
    {decl : DeclId}
    {takesArgs : Bool}
    {name : Name}
    {span : Span}
    {nameId : NameId}
    (noAngle : input.window.kindAt state.position ≠ .symbol .less)
    (run : (nested depth).nameOf decl takesArgs name span input state =
      .done nameId after) :
    after.position = state.position := by
  unfold nameOf at run
  split at run
  · obtain ⟨found, middle, eaten, rest⟩ := Parser.done_of_bind run
    rw [Parser.eat_run, if_neg noAngle] at eaten
    cases eaten
    cases rest
    rfl
  · cases run
    rfl

omit closed in
/--
A name read as a type and as an expression ends at the same place, unless the
expression leaves an angle unread.
-/
private theorem named_ends
    {deeper : Nat}
    {type : TypeId}
    {exprAfter : ParserState}
    (typeRun : (nested depth).namedType input state = .done type after)
    (exprRun : (nested deeper).namedExpression input state =
      .done expr exprAfter) :
    after.position = exprAfter.position ∨
      input.window.kindAt exprAfter.position = .symbol .less := by
  obtain ⟨⟨name, span⟩, middle, identified, typeRest⟩ :=
    Parser.done_of_bind typeRun
  obtain ⟨⟨_, _⟩, _, sameIdentified, exprRest⟩ := Parser.done_of_bind exprRun
  rw [identified] at sameIdentified
  cases sameIdentified
  obtain ⟨found?, _, lookedUp, typeRest⟩ := Parser.done_of_bind typeRest
  cases lookedUp
  obtain ⟨_, _, lookedUp, exprRest⟩ := Parser.done_of_bind exprRest
  cases lookedUp
  cases found : middle.scopes.find? middle.scopes.current (.simple name) with
  | none =>
      rw [found] at exprRest
      obtain ⟨_, _, texted, failing⟩ := Parser.done_of_bind exprRest
      cases failing
  | some decls =>
      rw [found] at typeRest exprRest
      obtain ⟨_, _, shown, typeRest⟩ := Parser.done_of_bind typeRest
      cases shown
      cases named : middle.arena.typeAmong? decls with
      | none =>
          rw [named] at typeRest
          obtain ⟨_, _, texted, failing⟩ := Parser.done_of_bind typeRest
          cases failing
      | some decl =>
          rw [named] at typeRest
          obtain ⟨typeName, typeEnd, typeNamed, typeRest⟩ :=
            Parser.done_of_bind typeRest
          cases typeRest
          match decls with
          | [] =>
              simp [Arena.typeAmong?] at named
          | [only] =>
              obtain ⟨_, _, shown, exprRest⟩ := Parser.done_of_bind exprRest
              cases shown
              obtain ⟨exprName, exprEnd, exprNamed, exprRest⟩ :=
                Parser.done_of_bind exprRest
              cases exprRest
              obtain rfl : decl = only :=
                List.mem_singleton.mp (mem_of_typeAmong? named)
              rw [isTemplateOrConcept_of_typeAmong? named] at exprNamed
              have production : Production
                  { own := [], inTemplate := false, rank := 0, unread := False,
                    settled := false }
                  (fun _ => false)
                  (fun rules => rules.nameOf decl (middle.arena.isTemplate decl)
                    name span) :=
                .nameOf _ _ _ _
              obtain ⟨rfl, rfl⟩ :=
                production.done_unique rfl typeNamed exprNamed
              exact .inl rfl
          | first :: second :: more =>
              obtain ⟨_, _, exprNamed, exprRest⟩ := Parser.done_of_bind exprRest
              cases exprNamed
              cases exprRest
              by_cases angle : input.window.kindAt middle.position =
                .symbol .less
              · exact .inr angle
              · have stays := nameOf_stays angle typeNamed
                exact .inl stays

omit closed in
/-- A primary type is a name, a group, or begins with the keyword of a type. -/
private theorem primaryType_cases
    {type : TypeId}
    (run : (nested depth).primaryType input state = .done type after) :
    ((∃ name, input.window.kindAt state.position = .identifier name) ∧
        (nested depth).namedType input state = .done type after) ∨
      (input.window.kindAt state.position = Delimiter.opener .paren ∧
        (nested depth).parenthesizedType input state = .done type after) ∨
      input.window.kindAt state.position = .keyword .decltypeWord ∨
        (BuiltinType.ofKind? (input.window.kindAt state.position)).isSome =
          true := by
  obtain ⟨token, same, looked, chosen⟩ := Parser.done_of_bind run
  cases looked
  simp only [Window.kindAt]
  generalize (input.window.tokenAt state.position).kind = kind at chosen
  split at chosen
  next name =>
    exact .inl ⟨⟨name, rfl⟩, chosen⟩
  next =>
    exact .inr (.inl ⟨rfl, chosen⟩)
  next =>
    exact .inr (.inr (.inl rfl))
  next =>
    cases builtin : BuiltinType.ofKind? kind with
    | some type =>
        exact .inr (.inr (.inr rfl))
    | none =>
        rw [builtin] at chosen
        cases chosen

omit closed in
/--
A primary expression is a name, a group, or begins with a literal or a keyword
of its own.
-/
private theorem primary_cases
    (run : (nested depth).primary input state = .done expr after) :
    ((∃ name, input.window.kindAt state.position = .identifier name) ∧
        (nested depth).namedExpression input state = .done expr after) ∨
      (input.window.kindAt state.position = Delimiter.opener .paren ∧
        (nested depth).parenthesizedExpression input state = .done expr after) ∨
      input.window.kindAt state.position ∈
          [.keyword .trueWord, .keyword .falseWord, .keyword .requiresWord] ∨
        ∃ value, input.window.kindAt state.position = .integer value := by
  obtain ⟨token, same, looked, chosen⟩ := Parser.done_of_bind run
  cases looked
  simp only [Window.kindAt]
  generalize (input.window.tokenAt state.position).kind = kind at chosen
  split at chosen
  next =>
    exact .inr (.inr (.inl (by simp)))
  next =>
    exact .inr (.inr (.inl (by simp)))
  next value =>
    exact .inr (.inr (.inr ⟨value, rfl⟩))
  next name =>
    exact .inl ⟨⟨name, rfl⟩, chosen⟩
  next =>
    exact .inr (.inl ⟨rfl, chosen⟩)
  next =>
    exact .inr (.inr (.inl (by simp)))
  next =>
    cases chosen

omit closed in
/-- An operand of a shift ends at an angle and at an arrow. -/
private theorem shift_endsAt
    {kind : TokenKind}
    (ends : kind = .symbol .less ∨ kind = .symbol .arrow) :
    (ExprLevel.tier .shift).EndsAt kind := by
  rcases ends with rfl | rfl
  · refine ⟨by decide, by decide, by decide, ?_⟩
    intro tighter smaller
    cases tighter <;> first | rfl | simp [ExprLevel.rank, Tier.rank] at smaller
  · refine ⟨by decide, by decide, by decide, ?_⟩
    intro tighter smaller
    cases tighter <;> rfl

/-- No type begins with a prefix operator. -/
private theorem no_prefix_of_type
    {type : TypeId}
    (run : (nested depth).parse .type input state = .done type after) :
    UnaryOp.ofKind? (input.window.kindAt state.position) = none := by
  cases found : UnaryOp.ofKind? (input.window.kindAt state.position) with
  | none =>
      rfl
  | some op =>
      have isSymbol := List.find?_some found
      simp only [decide_eq_true_eq] at isSymbol
      obtain ⟨shallower, base, middle, primary, _⟩ :=
        exists_primary_of_type closed (by rw [isSymbol]; rfl) run
      have begins := primaryType_cases primary
      rw [isSymbol] at begins
      cases op <;> simp [UnaryOp.symbol, Delimiter.opener, BuiltinType.ofKind?]
        at begins

/--
A primary type and a primary expression from the same place on end at the same
place, unless the expression leaves an angle or an arrow unread.
-/
private theorem primaries_end
    {type : TypeId}
    {deeper : Nat}
    {exprAfter : ParserState}
    (typeRun : (nested depth).primaryType input state = .done type after)
    (exprRun : (nested deeper).primary input state = .done expr exprAfter) :
    after.position = exprAfter.position ∨
      (ExprLevel.tier .shift).EndsAt (input.window.kindAt exprAfter.position) ∧
        suffixing (input.window.kindAt exprAfter.position) := by
  rcases primary_cases exprRun with ⟨⟨name, identifier⟩, named⟩ |
      ⟨paren, grouped⟩ | word | literal
  · rcases primaryType_cases typeRun with ⟨_, typeNamed⟩ | ⟨paren, _⟩ |
        word | word
    · rcases named_ends typeNamed named with same | angle
      · exact .inl same
      · exact .inr ⟨shift_endsAt (.inl angle), by simp [angle, suffixing]⟩
    · simp [identifier, Delimiter.opener] at paren
    · simp [identifier] at word
    · simp [identifier, BuiltinType.ofKind?] at word
  · rcases primaryType_cases typeRun with ⟨⟨name, identifier⟩, _⟩ |
        ⟨_, typeGrouped⟩ | word | word
    · simp [identifier, Delimiter.opener] at paren
    · obtain ⟨closer, group, behind⟩ :=
        group_of_parenthesizedExpression closed grouped
      obtain ⟨typeCloser, typeGroup, ends⟩ :=
        group_of_parenthesizedType closed typeGrouped
      obtain rfl := group.unique typeGroup
      rw [← behind] at ends
      rcases ends with arrow | same
      · exact .inr ⟨shift_endsAt (.inr arrow), by simp [arrow, suffixing]⟩
      · exact .inl same
    · simp [paren, Delimiter.opener] at word
    · simp [paren, Delimiter.opener, BuiltinType.ofKind?] at word
  · have begins := primaryType_cases typeRun
    simp only [List.mem_cons, List.not_mem_nil, or_false] at word
    rcases word with word | word | word <;>
      simp [word, Delimiter.opener, BuiltinType.ofKind?] at begins
  · obtain ⟨value, integer⟩ := literal
    have begins := primaryType_cases typeRun
    simp [integer, Delimiter.opener, BuiltinType.ofKind?] at begins

/--
Where an expression without angles ends at a comma or an angle, a type from the
same place on ends no later.
-/
theorem type_endsNoLater
    {type : TypeId}
    {deeper : Nat}
    {exprAfter : ParserState}
    (typeRun : (nested depth).parse .type input state = .done type after)
    (exprRun : (nested deeper).parse (.tier .shift) input state =
      .done expr exprAfter)
    (ends : ¬ suffixing (input.window.kindAt exprAfter.position)) :
    after.position ≤ exprAfter.position := by
  apply Nat.le_of_not_lt
  intro further
  obtain ⟨exprDepth, object, exprMiddle, exprPrimary, extended⟩ :=
    exists_primary_of_tier closed (no_prefix_of_type closed typeRun) exprRun
  have noQualifier : Qualifiers.ofKind? (input.window.kindAt state.position) =
      none := by
    rcases primary_cases exprPrimary with ⟨⟨name, found⟩, _⟩ | ⟨found, _⟩ |
        found | ⟨value, found⟩
    · rw [found]; rfl
    · rw [found]; rfl
    · simp only [List.mem_cons, List.not_mem_nil, or_false] at found
      rcases found with found | found | found <;> rw [found] <;> rfl
    · rw [found]; rfl
  obtain ⟨typeDepth, base, typeMiddle, typePrimary, suffixes⟩ :=
    exists_primary_of_type closed noQualifier typeRun
  rcases primaries_end closed typePrimary exprPrimary with same |
      ⟨endsAt, follows⟩
  · rw [same] at suffixes
    exact ends (suffixes.cleared_of_lt extended.passage further)
  · rw [extended.stays endsAt] at ends
    exact ends follows

/-- No expression begins with a keyword that begins declarations. -/
private theorem not_beginsDeclaration_of_tier
    {word : Keyword}
    (found : input.window.kindAt state.position = .keyword word)
    (run : (nested depth).parse (.tier tier) input state = .done expr after) :
    beginsDeclaration word = false := by
  have noPrefix : UnaryOp.ofKind? (input.window.kindAt state.position) =
      none := by
    rw [found]
    rfl
  obtain ⟨shallower, object, middle, primary, _⟩ :=
    exists_primary_of_tier closed noPrefix run
  have begins := primary_cases primary
  rw [found] at begins
  simp only [Delimiter.opener, List.mem_cons, List.not_mem_nil, or_false,
    reduceCtorEq, exists_const, false_and, false_or, TokenKind.keyword.injEq]
    at begins
  rcases begins with rfl | rfl | rfl <;> rfl

omit closed in
/-- A declaration begins with a keyword that begins declarations. -/
private theorem exists_beginsDeclaration
    {decl : DeclId}
    (run : (nested depth).declaration input state = .done decl after) :
    ∃ word, input.window.kindAt state.position = .keyword word ∧
      beginsDeclaration word = true := by
  obtain ⟨_, middle, specified, rest⟩ := Parser.done_of_bind run
  obtain ⟨token, _, looked, chosen⟩ := Parser.done_of_bind rest
  cases looked
  cases depth with
  | zero =>
      cases specified
  | succ depth =>
      have produced : (nested depth).specifiers input state = .done () middle :=
        specified
      obtain ⟨kind, _, looked, specifying⟩ := Parser.done_of_bind produced
      cases looked
      cases specifier : Specifier.ofKind? Specifier.ofDeclWord?
          (input.window.tokenAt state.position).kind with
      | some found =>
          simp only [Window.kindAt]
          generalize (input.window.tokenAt state.position).kind =
            kind at specifier
          cases kind with
          | keyword word =>
              refine ⟨word, rfl, ?_⟩
              cases word <;> first | rfl | cases specifier
          | _ => cases specifier
      | none =>
          rw [specifier] at specifying
          cases specifying
          simp only [Window.kindAt]
          generalize (input.window.tokenAt state.position).kind = kind at chosen
          split at chosen
          case h_9 => cases chosen
          all_goals exact ⟨_, rfl, rfl⟩

omit closed in
/--
A declaration and an expression statement are never both done from the same
place.
-/
theorem declarationStatement_endsNoLater :
    EndsNoLater Rules.declarationStatement Rules.expressionStatement := by
  intro depth input closed state stmt other after otherAfter run otherRun
  obtain ⟨start, _, spanned, rest⟩ := Parser.done_of_bind run
  cases spanned
  obtain ⟨decl, middle, declared, _⟩ := Parser.done_of_bind rest
  obtain ⟨_, _, spanned, otherRest⟩ := Parser.done_of_bind otherRun
  cases spanned
  obtain ⟨_, _, terminated, _⟩ := Parser.done_of_bind otherRest
  obtain ⟨expr, last, valued, _⟩ := Parser.done_of_bind terminated
  cases depth with
  | zero =>
      cases declared
  | succ depth =>
      have produced : (nested depth).declaration input state =
          .done decl middle := declared
      obtain ⟨word, found, begins⟩ := exists_beginsDeclaration produced
      simp [not_beginsDeclaration_of_tier closed found valued] at begins

/--
A requirement ends behind the first semicolon that its form leaves unread.
-/
private theorem requirementOf_done
    {form : Parser ReqForm}
    {req : ReqId}
    (run : requirementOf form input state = .done req after) :
    ∃ (read : ReqForm) (middle : ParserState),
      form input state = .done read middle ∧
        input.window.kindAt middle.position = .symbol .semicolon ∧
          after.position = middle.position + 1 := by
  obtain ⟨start, _, spanned, rest⟩ := Parser.done_of_bind run
  cases spanned
  obtain ⟨read, middle, formed, rest⟩ := Parser.done_of_bind rest
  obtain ⟨_, ended, ends, rest⟩ := Parser.done_of_bind rest
  obtain ⟨semicolon, rfl⟩ := Parser.expect_done ends
  have behind :=
    Parser.behind_position (closed.lt_stop (by rw [semicolon]; exact nofun))
  cases rest
  exact ⟨read, middle, formed, semicolon, behind⟩

omit closed in
/--
What is required by a keyword ends at the semicolon that an expression would end
at.
-/
theorem syntacticRequirement_endsNoLater :
    EndsNoLater Rules.syntacticRequirement Rules.plainConceptMember := by
  intro depth input closed state req other after otherAfter run otherRun
  obtain ⟨form, last, formed, semicolon, ends⟩ := requirementOf_done closed run
  obtain ⟨otherForm, otherLast, otherFormed, otherSemicolon, otherEnds⟩ :=
    requirementOf_done closed otherRun
  rw [ends, otherEnds]
  apply Nat.succ_le_succ
  apply Nat.le_of_not_lt
  intro further
  have syntactic : Passes input unterminated anyKind [] (fun _ => [])
      (Parser.expect (.keyword .requiresWord) >>= fun _ =>
        (nested depth).expression >>= fun expr =>
          Pure.pure (ReqForm.stated .syntactic expr)) :=
    Passes.bind (Passes.expect closed (.plain nofun nofun rfl)) fun _ =>
      Passes.bind (Passing.expression (nested_passing closed depth)) fun _ =>
        Passes.pure _
  have plain : Passes input unterminated anyKind [] (fun _ => [])
      (Parser.check (.keyword .typenameWord) >>= fun found =>
        if found = true then (nested depth).typeRequirement
        else (nested depth).expression >>= fun expr =>
          Pure.pure (ReqForm.stated .expression expr)) :=
    Passes.check
      (Passes.bind (Passes.skip closed fun _ found =>
        found ▸ .plain nofun nofun rfl)
        fun _ =>
          Passes.bind (Passing.call (nested_passing closed depth) .type rfl rfl)
          fun _ => Passes.pure _)
      (Passes.bind (Passing.expression (nested_passing closed depth)) fun _ =>
        Passes.pure _)
  have passage := (syntactic state _ trivial rfl formed).2.1
  have otherPassage := (plain state _ trivial rfl otherFormed).2.1
  exact passage.cleared_of_lt otherPassage further (otherSemicolon ▸ .semicolon)

end

end Rules

end Tern
