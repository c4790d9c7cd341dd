import Tern.Proofs.Spelling.ExpressionParsing
import Tern.Proofs.Spelling.ExpressionReading

namespace Tern

/-!
# The precedence of operators

Expressions are parsed as they are spelled: the plainest spelling of a tree, and
any other one, is parsed to this tree alone, and whatever is parsed to a tree
without template arguments and requirements is a spelling of it.
-/

/--
A parser follows the precedence of operators: it reads back what a tree is
written as, and reads only what a tree may be written as.
-/
structure Parser.FollowsPrecedence (input : ParserInput) : Prop where
  written : ∀ (tree : ExprSyntax) (state : ParserState),
    tree.Resolved state.naming →
    input.window.Spells state.position tree.tokens →
      (ExprLevel.tier .or).EndsAt
        (input.window.kindAt (state.position + tree.tokens.length)) →
      ∃ expr after, Parser.parse (.tier .or) input state = .done expr after ∧
        after.position = state.position + tree.tokens.length ∧
          tree.At after.arena expr
  spelled : ∀ (tree : ExprSyntax) (kinds : List TokenKind) (state :
    ParserState),
    ExprSpelling (.expr (.tier .or) tree) kinds → tree.Resolved state.naming →
      input.window.Spells state.position kinds →
      (ExprLevel.tier .or).EndsAt
        (input.window.kindAt (state.position + kinds.length)) →
      ∃ expr after, Parser.parse (.tier .or) input state = .done expr after ∧
        after.position = state.position + kinds.length ∧
          tree.At after.arena expr
  sound : ∀ (state : ParserState) {expr : ExprId} {after : ParserState},
    Parser.parse (.tier .or) input state = .done expr after →
      after.arena.Plain expr →
      ∃ tree kinds, after.position = state.position + kinds.length ∧
        input.window.Spells state.position kinds ∧
        ExprSpelling (.expr (.tier .or) tree) kinds ∧
          ParensAdded tree.tokens kinds ∧
        tree.At after.arena expr

/--
What spells a tree is parsed to it, up to a token that ends an expression.
-/
private theorem ExprSpelling.parsed
    {input : ParserInput}
    {state : ParserState}
    {tree : ExprSyntax}
    {kinds : List TokenKind}
    (spelling : ExprSpelling (.expr (.tier .or) tree) kinds)
    (closed : input.window.Closed)
    (resolved : tree.Resolved state.naming)
    (spells : input.window.Spells state.position kinds)
    (ends : (ExprLevel.tier .or).EndsAt
      (input.window.kindAt (state.position + kinds.length))) :
    ∃ expr after, Parser.parse (.tier .or) input state = .done expr after ∧
      after.position = state.position + kinds.length ∧
        tree.At after.arena expr := by
  obtain ⟨expr, after, past, standing, parsed⟩ :=
    ExprPhrase.Read.whole (spelling.read state resolved spells) ends
  exact ⟨expr, after, Eventually.parse closed parsed, past.position, standing⟩

/--
In every window that the end of the input closes expressions follow the
precedence.
-/
theorem expressions_follow_precedence
    {input : ParserInput}
    (closed : input.window.Closed) :
    Parser.FollowsPrecedence input where
  written tree _ resolved spells ends :=
    tree.spelled.whole.parsed closed resolved spells ends
  spelled _ _ _ spelling resolved spells ends :=
    spelling.parsed closed resolved spells ends
  sound state expr after run plain := by
    have nested :
        (Rules.nested (Parser.ranks *
          (input.window.remaining state.position + 1))).parse
        (.tier .or) input state = .done expr after := run
    obtain ⟨tree, kinds, position, spells, spelling, standing⟩ :=
      (Rules.nested_readsBack closed _).tier .or nested (.refl _) plain
    have added := spelling.parensAdded
    rw [ExprPhrase.tokens, ExprLevel.fit_or] at added
    exact ⟨tree, kinds, position, spells, spelling, added, standing⟩

/-- The tokens of a product of a negated sum and an integer. -/
def negatedSum : Tokens :=
  #[{ kind := .symbol .minus, span := .point 0 },
    { kind := Delimiter.opener .paren, span := .point 1 },
    { kind := .integer 1, span := .point 2 },
    { kind := .symbol .plus, span := .point 4 },
    { kind := .integer 2, span := .point 6 },
    { kind := Delimiter.closer .paren, span := .point 7 },
    { kind := .symbol .star, span := .point 9 },
    { kind := .integer 3, span := .point 11 },
    { kind := .symbol .semicolon, span := .point 12 }]

/-- The product of the negated sum. -/
def negatedProduct : ExprSyntax :=
  .binary .multiply (.unary .negate (.binary .add (.int 1) (.int 2))) (.int 3)

/--
The product is parsed up to the semicolon, with the sum in the operand of the
sign.
-/
theorem expressions_follow_precedence_product :
    (Window.whole negatedSum).Closed ∧ ∃ expr after,
      Parser.parse (.tier .or)
        { window := .whole negatedSum, names := ⟨[]⟩, mode := .eager }
          (.start (.whole negatedSum) .initial .empty) = .done expr after ∧
        after.position = 8 ∧ negatedProduct.At after.arena expr := by
  have follows := @expressions_follow_precedence
    { window := .whole negatedSum, names := ⟨[]⟩, mode := .eager }
      (Window.whole_closed _)
  have ends : (ExprLevel.tier .or).EndsAt (.symbol .semicolon) :=
    ⟨nofun, nofun, nofun, fun tighter _ => by cases tighter <;> rfl⟩
  refine ⟨Window.whole_closed _, ?_⟩
  exact follows.written negatedProduct
    (.start (.whole negatedSum) .initial .empty)
    ⟨⟨trivial, trivial⟩, trivial⟩ (by decide) ends

end Tern
