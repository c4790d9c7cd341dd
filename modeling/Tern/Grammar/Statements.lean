import Tern.Grammar.Expressions

namespace Tern

/-!
# Statements

The first token of a statement decides its form. Where none of the forms
begins with it, a declaration is tried before an expression statement.
-/

namespace Rules

open Tern.Parser

variable (rules : Rules)

/-- A declaration standing as a statement. -/
def declarationStatement : Parser StmtId := do
  let start ← currentSpan
  let decl ← rules.parse .declaration
  addStmt (.declaration decl) (← spanFrom start)

/-- An expression up to its semicolon. -/
def expressionToSemicolon : Parser ExprId := do
  let expr ← rules.expression
  expect (.symbol .semicolon)
  return expr

/-- An expression standing as a statement. -/
def expressionStatement : Parser StmtId := do
  let start ← currentSpan
  let expr ← rules.expressionToSemicolon
  addStmt (.value .discard expr) (← spanFrom start)

/-- A keyword and the expression whose value it gives away. -/
def valueStatement (role : ValueRole) : Parser StmtId := do
  let token ← advance
  let expr ← rules.expressionToSemicolon
  addStmt (.value role expr) (← spanFrom token.span)

/-- An expression in parentheses. -/
def condition : Parser ExprId := do
  expect (Delimiter.opener .paren)
  let expr ← rules.expression
  expect (Delimiter.closer .paren)
  return expr

/-- What is done when a condition does not hold, if anything is. -/
def otherwise? : Parser (Option StmtId) := do
  if ← eat (.keyword .elseWord) then
    let rejected ← rules.parse .statement
    return some rejected
  else
    return none

/-- A statement done under a condition. -/
def branchStatement : Parser StmtId := do
  let token ← advance
  let condition ← rules.condition
  let accepted ← rules.parse .statement
  let rejected? ← rules.otherwise?
  addStmt (.branch condition accepted rejected?) (← spanFrom token.span)

/-- A statement done as long as a condition holds. -/
def loopStatement : Parser StmtId := do
  let token ← advance
  let condition ← rules.condition
  let body ← rules.parse .statement
  addStmt (.loop condition body) (← spanFrom token.span)

/-- A keyword that leaves or restarts a loop. -/
def jumpStatement (jump : Jump) : Parser StmtId := do
  let token ← advance
  expect (.symbol .semicolon)
  addStmt (.jump jump) (← spanFrom token.span)

/-- A semicolon alone. -/
def emptyStatement : Parser StmtId := do
  let token ← advance
  addStmt .empty (← spanFrom token.span)

/-- Statements in braces, with a scope as the current one. -/
def blockIn (scope : ScopeId) : Parser StmtId := do
  let start ← currentSpan
  expect (Delimiter.opener .brace)
  let stmts ← within scope (rules.parse .bracedStatements)
  addStmt (.list .block stmts scope) (← spanFrom start)

/-- Statements in braces in a scope of their own. -/
def blockStatement : Parser StmtId := do
  let scope ← pushScope .block
  rules.blockIn scope

/-- Statements in braces in the current scope. -/
def currentBlock : Parser StmtId := do
  rules.blockIn (← currentScope)

/-- Statements in braces as members of what the current scope belongs to. -/
def memberBody : Parser StmtId := do
  let start ← currentSpan
  let scope ← currentScope
  expect (Delimiter.opener .brace)
  let stmts ← rules.parse .bracedStatements
  addStmt (.list .members stmts scope) (← spanFrom start)

/-- Whether a keyword begins a declaration, specifiers included. -/
def beginsDeclaration : Keyword → Bool
  | .varWord => true
  | .defWord => true
  | .codefWord => true
  | .classWord => true
  | .superWord => true
  | .conceptWord => true
  | .templateWord => true
  | .namespaceWord => true
  | .staticWord => true
  | .dynamicWord => true
  | .inlineWord => true
  | .explicitWord => true
  | .implicitWord => true
  | .publicWord => true
  | .privateWord => true
  | .protectedWord => true
  | .virtualWord => true
  | .abstractWord => true
  | _ => false

/-- A declaration if one can be parsed, otherwise an expression statement. -/
def tryDeclaration : Parser StmtId :=
  either rules.declarationStatement rules.expressionStatement

/-- A statement that begins with a keyword. -/
def keywordStatement (keyword : Keyword) : Parser StmtId :=
  match keyword with
  | .returnWord => rules.valueStatement .give
  | .yieldWord => rules.valueStatement .yield
  | .ifWord => rules.branchStatement
  | .whileWord => rules.loopStatement
  | .breakWord => jumpStatement .leave
  | .continueWord => jumpStatement .restart
  | other =>
      if beginsDeclaration other then rules.declarationStatement
        else rules.tryDeclaration

/-- A statement. -/
def statement : Parser StmtId := do
  match ← currentKind with
  | .keyword keyword => rules.keywordStatement keyword
  | .symbol (.opening .brace) => rules.blockStatement
  | .symbol .semicolon => emptyStatement
  | _ => rules.tryDeclaration

/-- Statements up to the end of the window. -/
def unitStatements : Parser (List StmtId) := do
  if ← atEnd then
    return []
  else
    let stmt ← rules.parse .statement
    let rest ← rules.parse .unitStatements
    return stmt :: rest

/-- An item and those behind it; the window must not end here. -/
def moreItems
    {Item : Type}
    (item : Parser Item)
    (rest : Nonterminal (List Item)) :
    Parser (List Item) := do
  if ← atEnd then
    failAt (.unclosedDelimiter (Delimiter.opener .brace)) (← currentSpan)
  else
    let head ← item
    let tail ← rules.parse rest
    return head :: tail

/-- Items up to and including a closing brace. -/
def bracedItems
    {Item : Type}
    (item : Parser Item)
    (rest : Nonterminal (List Item)) :
    Parser (List Item) := do
  if ← eat (Delimiter.closer .brace) then
    return []
  else
    rules.moreItems item rest

/-- Statements up to and including a closing brace. -/
def bracedStatements : Parser (List StmtId) :=
  rules.bracedItems (rules.parse .statement) .bracedStatements

/-- All statements of the window as a compilation unit in the current scope. -/
def unit : Parser StmtId := do
  let start ← currentSpan
  let scope ← currentScope
  let stmts ← rules.parse .unitStatements
  addStmt (.list .unit stmts scope) (start.merge (← currentSpan))

end Rules

end Tern
