import Tern.Grammar.Types

namespace Tern

/-!
# Expressions

Binary operators have ten tiers of precedence and join their operands from the
left. An operand of one tier is an expression of the next tighter one; behind
the tightest come prefix operators, then postfix ones, then primary
expressions. Names are looked up while they are read.
-/

namespace BinaryOp

/-- The tier of an operator. -/
def tier : BinaryOp → Tier
  | .or => .or
  | .and => .and
  | .bitOr => .bitOr
  | .bitXor => .bitXor
  | .bitAnd => .bitAnd
  | .equal => .equality
  | .notEqual => .equality
  | .less => .relational
  | .greater => .relational
  | .lessEqual => .relational
  | .greaterEqual => .relational
  | .compare => .relational
  | .shiftLeft => .shift
  | .shiftRight => .shift
  | .add => .additive
  | .subtract => .additive
  | .multiply => .multiplicative
  | .divide => .multiplicative
  | .remainder => .multiplicative

/-- The operator of one tier that a token is. -/
def ofKind? (tier : Tier) (kind : TokenKind) : Option BinaryOp :=
  all.find? fun op => op.tier = tier && kind = .symbol op.symbol

end BinaryOp

/-- The prefix operator that a token is. -/
def UnaryOp.ofKind? (kind : TokenKind) : Option UnaryOp :=
  all.find? fun op => kind = .symbol op.symbol

namespace Rules

open Tern.Parser

variable (rules : Rules)

/-- An operand of a tier. -/
def operand (tier : Tier) : Parser ExprId :=
  match tier.tighter? with
  | some tighter => rules.parse (.tier tighter)
  | none => rules.parse .unary

/-- Operators of a tier and their right operands, joined from the left. -/
def operations (tier : Tier) (left : ExprId) : Parser ExprId := do
  match BinaryOp.ofKind? tier (← currentKind) with
  | none => return left
  | some op =>
      skip
      let right ← rules.operand tier
      let arena ← arena
      let joined ← addExpr (.binary op left right)
        ((arena.expr left).span.merge (arena.expr right).span)
      rules.parse (.operations tier joined)

/-- Operands of a tier joined by its operators. -/
def tiered (tier : Tier) : Parser ExprId := do
  let left ← rules.operand tier
  rules.parse (.operations tier left)

/-- Expressions joined by commas. -/
def expressions : Parser (List ExprId) := do
  let expr ← rules.expression
  if ← eat (.symbol .comma) then
    let rest ← rules.parse .expressions
    return expr :: rest
  else
    return [expr]

/--
Expressions joined by commas, perhaps none, and the closing parenthesis behind
them.
-/
def closedExpressions : Parser (List ExprId) := do
  let exprs ← rules.orNone (Delimiter.closer .paren) .expressions
  expect (Delimiter.closer .paren)
  return exprs

/-- A name: a reference to one declaration, or the overload set of several. -/
def namedExpression : Parser ExprId := do
  let (name, span) ← expectIdentifier
  match ← lookup? name with
  | none => failAt (.unknownName (← textOf name)) span
  | some [decl] =>
      let arena ← arena
      let nameId ← rules.nameOf decl (arena.isTemplateOrConcept decl) name span
      addExpr (.reference decl nameId) (← spanFrom span)
  | some decls =>
      let nameId ← addName (.simple name) span
      addExpr (.overload nameId decls) (← spanFrom span)

/--
Expressions in parentheses; one expression without a comma is only grouped.
-/
def parenthesizedExpression : Parser ExprId := do
  let start ← currentSpan
  expect (Delimiter.opener .paren)
  if ← eat (Delimiter.closer .paren) then
    addExpr (.tuple []) (← spanFrom start)
  else
    let first ← rules.expression
    if ← eat (Delimiter.closer .paren) then
      return first
    else
      expect (.symbol .comma)
      let rest ← rules.closedExpressions
      addExpr (.tuple (first :: rest)) (← spanFrom start)

/-- The parameters of a requires-expression, which are bound at once. -/
def requiresParams : Parser (List DeclId) := do
  if ← eat (Delimiter.opener .paren) then
    let parms ← rules.orNone (Delimiter.closer .paren) (.params true)
    expect (Delimiter.closer .paren)
    return parms
  else
    return []

/-- The parameters of a requires-expression and its requirements in braces. -/
def requiresBody : Parser (List DeclId × List ReqId) := do
  let parms ← rules.requiresParams
  expect (Delimiter.opener .brace)
  let reqs ← rules.parse .requirements
  return (parms, reqs)

/-- A requires-expression; its parameters live in a scope of their own. -/
def requiresExpression : Parser ExprId := do
  let start ← currentSpan
  expect (.keyword .requiresWord)
  let scope ← pushScope .requires
  let (parms, reqs) ← within scope rules.requiresBody
  addExpr (.requires parms reqs scope) (← spanFrom start)

/-- A literal, which is a single token. -/
def literal (form : ExprForm) : Parser ExprId := do
  let token ← advance
  addExpr form token.span

/-- An expression without operators. -/
def primary : Parser ExprId := do
  let token ← current
  match token.kind with
  | .keyword .trueWord => literal (.bool true)
  | .keyword .falseWord => literal (.bool false)
  | .integer value => literal (.int value)
  | .identifier _ => rules.namedExpression
  | .symbol (.opening .paren) => rules.parenthesizedExpression
  | .keyword .requiresWord => rules.requiresExpression
  | found => failAt (.expectedExpression found) token.span

/-- One call, member access or subscript, if there is one. -/
def postfix? (object : ExprId) : Parser (Option ExprForm) := do
  match ← currentKind with
  | .symbol (.opening .paren) =>
      skip
      let args ← rules.closedExpressions
      return some (.call object args)
  | .symbol .dot =>
      skip
      let member ← identifier
      return some (.dot object member)
  | .symbol (.opening .bracket) =>
      skip
      let index ← rules.expression
      expect (Delimiter.closer .bracket)
      return some (.subscript object index)
  | _ => return none

/-- Calls, member accesses and subscripts behind a primary expression. -/
def postfixes (start : Span) (object : ExprId) : Parser ExprId := do
  match ← rules.postfix? object with
  | some form =>
      let next ← addExpr form (← spanFrom start)
      rules.parse (.postfixes start next)
  | none => return object

/-- An expression that is no binary operation. -/
def unary : Parser ExprId := do
  let token ← current
  match UnaryOp.ofKind? token.kind with
  | some op =>
      skip
      let operand ← rules.parse .unary
      addExpr (.unary op operand) (← spanFrom token.span)
  | none =>
      let object ← rules.primary
      rules.parse (.postfixes token.span object)

end Rules

end Tern
