import Tern.Proofs.Spelling.Windows

namespace Tern

/-!
# How expressions are spelled

An expression tree is spelled with parentheses where an operand is looser than
its place allows, and perhaps with more of them. The plainest way to spell a
tree has no parentheses but those needed; all other ways add some to it.
-/

/-- Expressions without template arguments and requirements. -/
inductive ExprSyntax where
  | bool (value : Bool)
  | int (value : Nat)
  | /-- A name of one declaration. -/
    reference (decl : DeclId) (name : Name)
  | /-- A name of several declarations. -/
    overload (name : Name) (decls : OverloadSet)
  | unary (op : UnaryOp) (operand : ExprSyntax)
  | binary (op : BinaryOp) (left right : ExprSyntax)
  | call (callee : ExprSyntax) (args : List ExprSyntax)
  | dot (object : ExprSyntax) (member : Name)
  | subscript (object index : ExprSyntax)
  | tuple (elements : List ExprSyntax)

mutual

/-- A tree stands in the slot of an expression. -/
def ExprSyntax.At (arena : Arena) : ExprSyntax → ExprId → Prop
  | .bool value, expr => arena.Holds (.expr expr) ∧ (arena.expr expr).form =
      .bool value
  | .int value, expr => arena.Holds (.expr expr) ∧ (arena.expr expr).form =
      .int value
  | .reference decl name, expr => arena.Holds (.expr expr) ∧
      ∃ nameId, (arena.expr expr).form = .reference decl nameId ∧
        arena.Holds (.name nameId) ∧
        (arena.name nameId).form = .simple name
  | .overload name decls, expr => arena.Holds (.expr expr) ∧
      ∃ nameId, (arena.expr expr).form = .overload nameId decls ∧
        arena.Holds (.name nameId) ∧
        (arena.name nameId).form = .simple name
  | .unary op operand, expr => arena.Holds (.expr expr) ∧
      ∃ inner, (arena.expr expr).form = .unary op inner ∧ operand.At arena inner
  | .binary op left right, expr => arena.Holds (.expr expr) ∧
      ∃ first second, (arena.expr expr).form = .binary op first second ∧
        left.At arena first ∧
        right.At arena second
  | .call callee args, expr => arena.Holds (.expr expr) ∧
      ∃ inner exprs, (arena.expr expr).form = .call inner exprs ∧
        callee.At arena inner ∧
        ExprSyntax.AllAt arena args exprs
  | .dot object member, expr => arena.Holds (.expr expr) ∧
      ∃ inner nameId, (arena.expr expr).form = .dot inner nameId ∧
        object.At arena inner ∧
        arena.Holds (.name nameId) ∧ (arena.name nameId).form = .simple member
  | .subscript object index, expr => arena.Holds (.expr expr) ∧
      ∃ first second, (arena.expr expr).form = .subscript first second ∧
        object.At arena first ∧
        index.At arena second
  | .tuple elements, expr => arena.Holds (.expr expr) ∧
      ∃ exprs, (arena.expr expr).form = .tuple exprs ∧
        ExprSyntax.AllAt arena elements exprs

/-- Trees stand in the slots of expressions, one in each. -/
def ExprSyntax.AllAt (arena : Arena) : List ExprSyntax → List ExprId → Prop
  | [], exprs => exprs = []
  | tree :: trees, exprs => ∃ expr rest, exprs = expr :: rest ∧
      tree.At arena expr ∧
      ExprSyntax.AllAt arena trees rest

end

mutual

/-- A tree stands where it stood when the arena has grown. -/
theorem ExprSyntax.At.grow
    {older newer : Arena}
    (grown : older.Extends newer) :
    ∀ {tree : ExprSyntax} {expr : ExprId}, tree.At older expr →
      tree.At newer expr
  | .bool _, _, ⟨held, form⟩ =>
      ⟨grown.holds held, by rw [grown.expr_eq held, form]⟩
  | .int _, _, ⟨held, form⟩ =>
      ⟨grown.holds held, by rw [grown.expr_eq held, form]⟩
  | .reference _ _, _, ⟨held, nameId, form, heldName, named⟩ =>
      ⟨grown.holds held, nameId, by rw [grown.expr_eq held, form],
        grown.holds heldName,
        by rw [grown.name_eq heldName, named]⟩
  | .overload _ _, _, ⟨held, nameId, form, heldName, named⟩ =>
      ⟨grown.holds held, nameId, by rw [grown.expr_eq held, form],
        grown.holds heldName,
        by rw [grown.name_eq heldName, named]⟩
  | .unary _ _, _, ⟨held, inner, form, operand⟩ =>
      ⟨grown.holds held, inner, by rw [grown.expr_eq held, form],
        operand.grow grown⟩
  | .binary _ _ _, _, ⟨held, first, second, form, left, right⟩ =>
      ⟨grown.holds held, first, second, by rw [grown.expr_eq held, form],
        left.grow grown,
        right.grow grown⟩
  | .call _ _, _, ⟨held, inner, exprs, form, callee, args⟩ =>
      ⟨grown.holds held, inner, exprs, by rw [grown.expr_eq held, form],
        callee.grow grown,
        ExprSyntax.AllAt.grow grown args⟩
  | .dot _ _, _, ⟨held, inner, nameId, form, object, heldName, named⟩ =>
      ⟨grown.holds held, inner, nameId, by rw [grown.expr_eq held, form],
        object.grow grown,
        grown.holds heldName, by rw [grown.name_eq heldName, named]⟩
  | .subscript _ _, _, ⟨held, first, second, form, object, index⟩ =>
      ⟨grown.holds held, first, second, by rw [grown.expr_eq held, form],
        object.grow grown,
        index.grow grown⟩
  | .tuple _, _, ⟨held, exprs, form, elements⟩ =>
      ⟨grown.holds held, exprs, by rw [grown.expr_eq held, form],
        ExprSyntax.AllAt.grow grown elements⟩

/-- Trees stand where they stood when the arena has grown. -/
theorem ExprSyntax.AllAt.grow
    {older newer : Arena}
    (grown : older.Extends newer) :
    ∀ {trees : List ExprSyntax} {exprs : List ExprId},
      ExprSyntax.AllAt older trees exprs → ExprSyntax.AllAt newer trees exprs
  | [], _, empty => empty
  | _ :: _, _, ⟨expr, rest, shape, head, tail⟩ =>
      ⟨expr, rest, shape, head.grow grown, ExprSyntax.AllAt.grow grown tail⟩

end

/-- How loose an expression may be. -/
inductive ExprLevel where
  | /-- A primary expression with calls,
      member accesses and subscripts behind it. -/
    atom
  | /-- An expression that is no binary operation. -/
    unary
  | tier (tier : Tier)
deriving DecidableEq

/-- Levels are numbered from the tightest one. -/
def ExprLevel.rank : ExprLevel → Nat
  | .atom => 0
  | .unary => 1
  | .tier level => level.rank + 1

/--
The tokens at which an expression of a level ends: no postfixes and none of its
operators.
-/
structure ExprLevel.EndsAt (level : ExprLevel) (kind : TokenKind) : Prop where
  paren : kind ≠ Delimiter.opener .paren
  dot : kind ≠ .symbol .dot
  bracket : kind ≠ Delimiter.opener .bracket
  operator : ∀ tighter : Tier, (ExprLevel.tier tighter).rank ≤ level.rank →
    BinaryOp.ofKind? tighter kind = none

/-- An expression at a level ends where one at a looser level does. -/
theorem ExprLevel.EndsAt.tighter
    {level tight : ExprLevel}
    {kind : TokenKind}
    (ends : level.EndsAt kind)
    (smaller : tight.rank ≤ level.rank) :
    tight.EndsAt kind where
  paren := ends.paren
  dot := ends.dot
  bracket := ends.bracket
  operator :=
    fun other small => ends.operator other (Nat.le_trans small smaller)

/-- How loose the right operand of an operator of a tier may be. -/
def Tier.operandLevel (tier : Tier) : ExprLevel :=
  match tier.tighter? with
  | some tighter => .tier tighter
  | none => .unary

/-- How loose an expression is. -/
def ExprSyntax.level : ExprSyntax → ExprLevel
  | .unary _ _ => .unary
  | .binary op _ _ => .tier op.tier
  | _ => .atom

/--
What is spelled: an expression at a level, or at least one with commas between
them.
-/
inductive ExprPhrase where
  | expr (level : ExprLevel) (tree : ExprSyntax)
  | list (trees : List ExprSyntax)

/-- How a truth value is written. -/
def Keyword.ofBool : Bool → Keyword
  | true => .trueWord
  | false => .falseWord

/--
The tokens of a tree at a level, in parentheses if the tree is looser than that.
-/
def ExprLevel.fit
    (level : ExprLevel)
    (tree : ExprSyntax)
    (kinds : List TokenKind) :
    List TokenKind :=
  if tree.level.rank ≤ level.rank then kinds else Delimiter.paren.around kinds

/-- What stands behind the elements of a tuple: a comma behind a single one. -/
def trailingComma {Element : Type} : List Element → List TokenKind
  | [_] => [.symbol .comma]
  | _ => []

mutual

/-- A tree as it is written with no more parentheses than needed. -/
def ExprSyntax.tokens : ExprSyntax → List TokenKind
  | .bool value => [.keyword (.ofBool value)]
  | .int value => [.integer value]
  | .reference _ name => [.identifier name]
  | .overload name _ => [.identifier name]
  | .unary op operand =>
      .symbol op.symbol :: ExprLevel.unary.fit operand operand.tokens
  | .binary op left right =>
      (ExprLevel.tier op.tier).fit left left.tokens ++
        .symbol op.symbol :: op.tier.operandLevel.fit right right.tokens
  | .call callee args =>
      ExprLevel.atom.fit callee callee.tokens ++
        Delimiter.paren.around (ExprSyntax.listTokens args)
  | .dot object member =>
      ExprLevel.atom.fit object object.tokens ++
        [.symbol .dot, .identifier member]
  | .subscript object index =>
      ExprLevel.atom.fit object object.tokens ++
        Delimiter.bracket.around index.tokens
  | .tuple elements =>
      Delimiter.paren.around
        (ExprSyntax.listTokens elements ++ trailingComma elements)

/-- Trees as they are written with commas between them. -/
def ExprSyntax.listTokens : List ExprSyntax → List TokenKind
  | [] => []
  | [only] => only.tokens
  | first :: rest => first.tokens ++ .symbol .comma ::
      ExprSyntax.listTokens rest

end

/-- A phrase as it is written with no more parentheses than needed. -/
def ExprPhrase.tokens : ExprPhrase → List TokenKind
  | .expr level tree => level.fit tree tree.tokens
  | .list trees => ExprSyntax.listTokens trees

mutual

/-- The names of a tree denote what it refers to. -/
def ExprSyntax.Resolved (naming : Naming) : ExprSyntax → Prop
  | .bool _ => True
  | .int _ => True
  | .reference decl name => naming.find? name = some [decl] ∧
      naming.takesArgs decl = false
  | .overload name decls => naming.find? name = some decls ∧ decls.length ≠ 1
  | .unary _ operand => operand.Resolved naming
  | .binary _ left right => left.Resolved naming ∧ right.Resolved naming
  | .call callee args => callee.Resolved naming ∧
      ExprSyntax.AllResolved naming args
  | .dot object _ => object.Resolved naming
  | .subscript object index => object.Resolved naming ∧ index.Resolved naming
  | .tuple elements => ExprSyntax.AllResolved naming elements

/-- The names of some trees denote what these refer to. -/
def ExprSyntax.AllResolved (naming : Naming) : List ExprSyntax → Prop
  | [] => True
  | tree :: trees => tree.Resolved naming ∧ ExprSyntax.AllResolved naming trees

end

/-- The names of a phrase denote what it refers to. -/
def ExprPhrase.Resolved (naming : Naming) : ExprPhrase → Prop
  | .expr _ tree => tree.Resolved naming
  | .list trees => ExprSyntax.AllResolved naming trees

/-- Tokens spell a phrase, perhaps with more parentheses than needed. -/
inductive ExprSpelling : ExprPhrase → List TokenKind → Prop where
  | bool (value : Bool) :
      ExprSpelling (.expr .atom (.bool value)) [.keyword (.ofBool value)]
  | int (value : Nat) : ExprSpelling (.expr .atom (.int value)) [.integer value]
  | reference (decl : DeclId) (name : Name) :
      ExprSpelling (.expr .atom (.reference decl name)) [.identifier name]
  | overload (name : Name) (decls : OverloadSet) :
      ExprSpelling (.expr .atom (.overload name decls)) [.identifier name]
  | group {tree : ExprSyntax} {kinds : List TokenKind}
      (inner : ExprSpelling (.expr (.tier .or) tree) kinds) :
      ExprSpelling (.expr .atom tree) (Delimiter.paren.around kinds)
  | emptyTuple :
      ExprSpelling (.expr .atom (.tuple [])) (Delimiter.paren.around [])
  | oneTuple {only : ExprSyntax} {kinds : List TokenKind}
      (inner : ExprSpelling (.expr (.tier .or) only) kinds) :
      ExprSpelling (.expr .atom (.tuple [only]))
        (Delimiter.paren.around (kinds ++ [.symbol .comma]))
  | tuple {first second : ExprSyntax} {rest : List ExprSyntax}
      {kinds more : List TokenKind}
      (head : ExprSpelling (.expr (.tier .or) first) kinds)
      (tail : ExprSpelling (.list (second :: rest)) more) :
      ExprSpelling (.expr .atom (.tuple (first :: second :: rest)))
        (Delimiter.paren.around (kinds ++ .symbol .comma :: more))
  | emptyCall {callee : ExprSyntax} {kinds : List TokenKind}
      (called : ExprSpelling (.expr .atom callee) kinds) :
      ExprSpelling (.expr .atom (.call callee []))
        (kinds ++ Delimiter.paren.around [])
  | call {callee : ExprSyntax} {args : List ExprSyntax}
      {kinds more : List TokenKind}
      (called : ExprSpelling (.expr .atom callee) kinds)
      (listed : ExprSpelling (.list args) more) :
      ExprSpelling (.expr .atom (.call callee args))
        (kinds ++ Delimiter.paren.around more)
  | dot {object : ExprSyntax} {kinds : List TokenKind} (member : Name)
      (owner : ExprSpelling (.expr .atom object) kinds) :
      ExprSpelling (.expr .atom (.dot object member))
        (kinds ++ [.symbol .dot, .identifier member])
  | subscript {object index : ExprSyntax} {kinds more : List TokenKind}
      (owner : ExprSpelling (.expr .atom object) kinds)
      (inner : ExprSpelling (.expr (.tier .or) index) more) :
      ExprSpelling (.expr .atom (.subscript object index))
        (kinds ++ Delimiter.bracket.around more)
  | /-- An expression without a prefix operator. -/
    unsigned {tree : ExprSyntax} {kinds : List TokenKind}
      (inner : ExprSpelling (.expr .atom tree) kinds) :
      ExprSpelling (.expr .unary tree) kinds
  | unary {operand : ExprSyntax} {kinds : List TokenKind} (op : UnaryOp)
      (inner : ExprSpelling (.expr .unary operand) kinds) :
      ExprSpelling (.expr .unary (.unary op operand))
        (.symbol op.symbol :: kinds)
  | /-- An operand of a tier without an operator. -/
    alone {tree : ExprSyntax} {kinds : List TokenKind} (tier : Tier)
      (inner : ExprSpelling (.expr tier.operandLevel tree) kinds) :
      ExprSpelling (.expr (.tier tier) tree) kinds
  | binary {left right : ExprSyntax} {kinds more : List TokenKind}
      (op : BinaryOp)
      (first : ExprSpelling (.expr (.tier op.tier) left) kinds)
      (second : ExprSpelling (.expr op.tier.operandLevel right) more) :
      ExprSpelling (.expr (.tier op.tier) (.binary op left right))
        (kinds ++ .symbol op.symbol :: more)
  | single {only : ExprSyntax} {kinds : List TokenKind}
      (inner : ExprSpelling (.expr (.tier .or) only) kinds) :
      ExprSpelling (.list [only]) kinds
  | more {first second : ExprSyntax} {rest : List ExprSyntax}
      {kinds more : List TokenKind}
      (head : ExprSpelling (.expr (.tier .or) first) kinds)
      (tail : ExprSpelling (.list (second :: rest)) more) :
      ExprSpelling (.list (first :: second :: rest))
        (kinds ++ .symbol .comma :: more)

/-- Levels of one rank are one. -/
private theorem ExprLevel.eq_of_rank_eq
    {first second : ExprLevel}
    (same : first.rank = second.rank) :
    first = second := by
  rcases first with _ | _ | ⟨_ | _⟩ <;> rcases second with _ | _ | ⟨_ | _⟩ <;>
    first | rfl | exact absurd same (by decide)

/-- All levels are tighter than a whole expression. -/
private theorem ExprLevel.rank_le_or (level : ExprLevel) :
    level.rank ≤ (ExprLevel.tier .or).rank := by
  rcases level with _ | _ | ⟨_ | _⟩ <;> decide

/-- The operands of a tier are tighter than it by one. -/
theorem Tier.rank_operandLevel (tier : Tier) :
    tier.operandLevel.rank + 1 = (ExprLevel.tier tier).rank := by
  cases tier <;> rfl

namespace ExprSpelling

variable {tree : ExprSyntax} {level looser : ExprLevel} {kinds : List TokenKind}

/-- An expression is one at all looser levels. -/
private theorem loosen
    (spelled : ExprSpelling (.expr level tree) kinds)
    (order : level.rank ≤ looser.rank) :
    ExprSpelling (.expr looser tree) kinds := by
  induction bound : looser.rank generalizing looser with
  | zero =>
      have same : level = looser := ExprLevel.eq_of_rank_eq (by omega)
      rwa [← same]
  | succ rank inductionHypothesis =>
      by_cases same : level.rank = looser.rank
      · rwa [← ExprLevel.eq_of_rank_eq same]
      cases looser with
      | atom =>
          cases bound
      | unary =>
          have tight : level.rank = ExprLevel.atom.rank := by
            simp only [ExprLevel.rank] at order same ⊢
            omega
          rw [ExprLevel.eq_of_rank_eq tight] at spelled
          exact .unsigned spelled
      | tier tier =>
          have strict := tier.rank_operandLevel
          exact .alone tier (inductionHypothesis (by omega) (by omega))

/-- At any level an expression is a whole one. -/
theorem whole (spelled : ExprSpelling (.expr level tree) kinds) :
    ExprSpelling (.expr (.tier .or) tree) kinds :=
  spelled.loosen level.rank_le_or

/-- A tree is spelled as an operand with the parentheses that this needs. -/
private theorem fit
    (spelled : ExprSpelling (.expr tree.level tree) kinds) :
    ExprSpelling (.expr level tree) (level.fit tree kinds) := by
  unfold ExprLevel.fit
  split
  next tight => exact spelled.loosen tight
  next => exact (group spelled.whole).loosen (Nat.zero_le _)

end ExprSpelling

mutual

/-- A tree is spelled by its own tokens. -/
theorem ExprSyntax.spelled :
    ∀ tree : ExprSyntax, ExprSpelling (.expr tree.level tree) tree.tokens
  | .bool value => .bool value
  | .int value => .int value
  | .reference decl name => .reference decl name
  | .overload name decls => .overload name decls
  | .unary op operand => .unary op operand.spelled.fit
  | .binary op left right => .binary op left.spelled.fit right.spelled.fit
  | .call callee [] => .emptyCall callee.spelled.fit
  | .call callee (first :: rest) =>
      .call callee.spelled.fit (ExprSyntax.listSpelled (first :: rest) nofun)
  | .dot object member => .dot member object.spelled.fit
  | .subscript object index => .subscript object.spelled.fit index.spelled.whole
  | .tuple [] => .emptyTuple
  | .tuple [only] => .oneTuple only.spelled.whole
  | .tuple (first :: second :: rest) => by
      simp only [ExprSyntax.tokens, ExprSyntax.listTokens, trailingComma,
        List.append_nil]
      exact .tuple first.spelled.whole
        (ExprSyntax.listSpelled (second :: rest) nofun)

/-- Trees are spelled by their own tokens. -/
theorem ExprSyntax.listSpelled :
    ∀ trees : List ExprSyntax, trees ≠ [] →
      ExprSpelling (.list trees) (ExprSyntax.listTokens trees)
  | [], nonempty => absurd rfl nonempty
  | [only], _ => .single only.spelled.whole
  | first :: second :: rest, _ =>
      .more first.spelled.whole (ExprSyntax.listSpelled (second :: rest) nofun)

end

/-- Whether a token is a parenthesis. -/
def TokenKind.isParen (kind : TokenKind) : Bool :=
  kind = Delimiter.opener .paren || kind = Delimiter.closer .paren

/--
Some tokens are all among others in their order, and those have only parentheses
besides.
-/
structure ParensAdded (plain kinds : List TokenKind) : Prop where
  sublist : plain.Sublist kinds
  others : (kinds.filter fun kind => !kind.isParen) = plain.filter fun kind =>
    !kind.isParen

namespace ParensAdded

variable {plain middle kinds first second more : List TokenKind}

theorem refl (kinds : List TokenKind) : ParensAdded kinds kinds where
  sublist := .refl _
  others := rfl

theorem trans
    (inner : ParensAdded plain middle)
    (outer : ParensAdded middle kinds) :
    ParensAdded plain kinds where
  sublist := inner.sublist.trans outer.sublist
  others := outer.others.trans inner.others

theorem append
    (left : ParensAdded first kinds)
    (right : ParensAdded second more) :
    ParensAdded (first ++ second) (kinds ++ more) where
  sublist := left.sublist.append right.sublist
  others := by
    rw [List.filter_append, List.filter_append, left.others, right.others]

theorem cons (kind : TokenKind) (added : ParensAdded plain kinds) :
    ParensAdded (kind :: plain) (kind :: kinds) :=
  (refl [kind]).append added

private theorem between
    (delimiter : Delimiter)
    (added : ParensAdded plain kinds) :
    ParensAdded (delimiter.around plain) (delimiter.around kinds) :=
  .cons _ (added.append (.refl _))

/-- Parentheses may be added around all tokens. -/
private theorem around (added : ParensAdded plain kinds) :
    ParensAdded plain (Delimiter.paren.around kinds) where
  sublist := added.sublist.trans
    ((List.sublist_append_left kinds _).trans (List.sublist_cons_self _ _))
  others := by
    have drop : ((Delimiter.paren.around kinds).filter fun kind =>
        !kind.isParen) =
        kinds.filter fun kind => !kind.isParen := by
      simp [Delimiter.around, TokenKind.isParen, Delimiter.opener,
        Delimiter.closer]
    rw [drop, added.others]

end ParensAdded

/-- A looser place needs no more parentheses. -/
private theorem ExprLevel.fit_loosen
    {tight looser : ExprLevel}
    (order : tight.rank ≤ looser.rank)
    (tree : ExprSyntax)
    (kinds : List TokenKind) :
    ParensAdded (looser.fit tree kinds) (tight.fit tree kinds) := by
  unfold ExprLevel.fit
  split
  next =>
    split
    next => exact .refl _
    next => exact (ParensAdded.refl _).around
  next loose =>
    rw [if_neg fun inside => loose (Nat.le_trans inside order)]
    exact .refl _

/-- A place loose enough needs no parentheses. -/
private theorem ExprLevel.fit_of_le
    {level : ExprLevel}
    {tree : ExprSyntax}
    (order : tree.level.rank ≤ level.rank)
    (kinds : List TokenKind) :
    level.fit tree kinds = kinds :=
  if_pos order

/-- A whole expression needs no parentheses. -/
theorem ExprLevel.fit_or (tree : ExprSyntax) (kinds : List TokenKind) :
    (ExprLevel.tier .or).fit tree kinds = kinds :=
  if_pos (ExprLevel.rank_le_or _)

/--
A spelling has the tokens of the plainest one in their order, and besides only
parentheses.
-/
theorem ExprSpelling.parensAdded
    {phrase : ExprPhrase}
    {kinds : List TokenKind}
    (spelled : ExprSpelling phrase kinds) :
    ParensAdded phrase.tokens kinds := by
  induction spelled with
  | bool value => exact .refl _
  | int value => exact .refl _
  | reference decl name => exact .refl _
  | overload name decls => exact .refl _
  | group inner inductionHypothesis =>
      rw [ExprPhrase.tokens, ExprLevel.fit_or] at inductionHypothesis
      rw [ExprPhrase.tokens]
      unfold ExprLevel.fit
      split
      · exact inductionHypothesis.around
      · exact inductionHypothesis.between .paren
  | emptyTuple => exact .refl _
  | oneTuple inner inductionHypothesis =>
      rw [ExprPhrase.tokens, ExprLevel.fit_or] at inductionHypothesis
      exact (inductionHypothesis.append (.refl _)).between .paren
  | tuple head tail headHypothesis tailHypothesis =>
      rw [ExprPhrase.tokens, ExprLevel.fit_or] at headHypothesis
      have elements :=
        headHypothesis.append (tailHypothesis.cons (.symbol .comma))
      rw [← List.append_nil (_ ++ _)] at elements
      exact elements.between .paren
  | emptyCall called inductionHypothesis =>
      exact inductionHypothesis.append (.refl _)
  | call called listed calledHypothesis listedHypothesis =>
      exact calledHypothesis.append (listedHypothesis.between .paren)
  | dot member owner inductionHypothesis =>
      exact inductionHypothesis.append (.refl _)
  | subscript owner inner ownerHypothesis innerHypothesis =>
      rw [ExprPhrase.tokens, ExprLevel.fit_or] at innerHypothesis
      exact ownerHypothesis.append (innerHypothesis.between .bracket)
  | unsigned inner inductionHypothesis =>
      exact (ExprLevel.fit_loosen (by decide) _ _).trans inductionHypothesis
  | unary op inner inductionHypothesis => exact inductionHypothesis.cons _
  | alone tier inner inductionHypothesis =>
      have strict := tier.rank_operandLevel
      exact (ExprLevel.fit_loosen (by omega) _ _).trans inductionHypothesis
  | @binary left right _ _ op first second firstHypothesis secondHypothesis =>
      have own : (ExprSyntax.binary op left right).level.rank ≤
          (ExprLevel.tier op.tier).rank :=
        Nat.le_refl _
      rw [ExprPhrase.tokens, ExprLevel.fit_of_le own]
      exact firstHypothesis.append (secondHypothesis.cons _)
  | single inner inductionHypothesis =>
      rwa [ExprPhrase.tokens, ExprLevel.fit_or] at inductionHypothesis
  | more head tail headHypothesis tailHypothesis =>
      rw [ExprPhrase.tokens, ExprLevel.fit_or] at headHypothesis
      exact headHypothesis.append (tailHypothesis.cons _)

end Tern
