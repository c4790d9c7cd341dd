import Tern.Grammar.Trial

namespace Tern

/-!
# Nonterminals

The grammar is recursive through its nonterminals only. A production is a
parser built from `Rules`, which say how each nonterminal is parsed, so every
production is a plain definition; `Tern.Grammar.Fragments` closes the recursion.
Repetitions are nonterminals of their own: each of their items is one call.
-/

/-- The precedence tiers of binary operators, loosest first. -/
inductive Tier where
  | or | and | bitOr | bitXor | bitAnd
  | equality | relational | shift | additive | multiplicative
deriving DecidableEq

/-- The next tighter tier. -/
def Tier.tighter? : Tier → Option Tier
  | .or => some .and
  | .and => some .bitOr
  | .bitOr => some .bitXor
  | .bitXor => some .bitAnd
  | .bitAnd => some .equality
  | .equality => some .relational
  | .relational => some .shift
  | .shift => some .additive
  | .additive => some .multiplicative
  | .multiplicative => none

/-- What the grammar is recursive in, with what each is parsed to. -/
inductive Nonterminal : Type → Type where
  | /-- A type with its pack marker. -/
    type : Nonterminal TypeId
  | /-- A type without a pack marker. -/
    unaryType : Nonterminal TypeId
  | /-- What follows a type that began at a place. -/
    typeSuffixes (start : Span) (base : TypeId) : Nonterminal TypeId
  | /-- Types up to a closing parenthesis,
      and whether a comma stands before it. -/
    listedTypes (afterComma : Bool) : Nonterminal (List TypeId × Bool)
  | /-- Template arguments, at least one. -/
    templateArgs : Nonterminal (List TemplateArg)
  | /-- Operands of one tier joined by its operators. -/
    tier (tier : Tier) : Nonterminal ExprId
  | /-- Operators of one tier and their right operands. -/
    operations (tier : Tier) (left : ExprId) : Nonterminal ExprId
  | /-- An expression that is no binary operation. -/
    unary : Nonterminal ExprId
  | /-- What follows a primary expression that began at a place. -/
    postfixes (start : Span) (object : ExprId) : Nonterminal ExprId
  | /-- Expressions joined by commas, at least one. -/
    expressions : Nonterminal (List ExprId)
  | /-- Requirements up to and including a closing brace. -/
    requirements : Nonterminal (List ReqId)
  | statement : Nonterminal StmtId
  | /-- Statements up to the end of the window. -/
    unitStatements : Nonterminal (List StmtId)
  | /-- Statements up to and including a closing brace. -/
    bracedStatements : Nonterminal (List StmtId)
  | declaration : Nonterminal DeclId
  | /-- Specifiers before a declaration, which then wait for it. -/
    specifiers : Nonterminal Unit
  | /-- Specifiers before the name of a parameter. -/
    paramSpecifiers (read : Specifiers) : Nonterminal Specifiers
  | /-- Specifiers behind the name of a class. -/
    classSpecifiers (read : Specifiers) : Nonterminal Specifiers
  | /-- Parameters joined by
      commas, at least one, and whether each is bound at once. -/
    params (bound : Bool) : Nonterminal (List DeclId)
  | /-- Template parameters joined by
      commas, at least one, which join the template context. -/
    templateParams : Nonterminal Unit
  | /-- The members of a concept up to and including a closing brace. -/
    conceptMembers : Nonterminal (List ReqId)

/-- How each nonterminal is parsed. -/
structure Rules where
  parse : {Value : Type} → Nonterminal Value → Parser Value

namespace Rules

/-- A whole expression, which begins at the loosest tier. -/
def expression (rules : Rules) : Parser ExprId :=
  rules.parse (.tier .or)

/--
A repetition that may be empty: nothing if the token that ends it is next.
-/
def orNone {Value : Type} (rules : Rules) (closer : TokenKind)
    (items : Nonterminal (List Value)) : Parser (List Value) := do
  if ← Parser.check closer then
    return []
  else
    rules.parse items

end Rules

end Tern
