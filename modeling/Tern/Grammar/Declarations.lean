import Tern.Grammar.Templates

namespace Tern

/-!
# Declarations

A declaration is bound when it has been read; functions, coroutines, classes,
concepts and namespaces are bound right after their name, so that what follows
can mention them. Their slot is filled with the rest once that is read.
-/

namespace Specifier

/-- The specifier that a keyword is before a declaration. -/
def ofDeclWord? : Keyword → Option Specifier
  | .staticWord => some .isStatic
  | .dynamicWord => some .isDynamic
  | .inlineWord => some .isInline
  | .explicitWord => some .isExplicit
  | .implicitWord => some .isImplicit
  | .publicWord => some .isPublic
  | .privateWord => some .isPrivate
  | .protectedWord => some .isProtected
  | .virtualWord => some .isVirtual
  | .abstractWord => some .isAbstract
  | _ => none

/-- The specifier that a keyword is before a parameter. -/
def ofParamWord? : Keyword → Option Specifier
  | .inWord => some .isIn
  | .outWord => some .isOut
  | .mutableWord => some .isMutable
  | .consumeWord => some .isConsume
  | .forwardWord => some .isForward
  | .virtualWord => some .isVirtual
  | .constWord => some .isConst
  | _ => none

/-- The specifier that a token is, given what its keyword is. -/
def ofKind? (ofWord? : Keyword → Option Specifier) :
    TokenKind → Option Specifier
  | .keyword keyword => ofWord? keyword
  | _ => none

end Specifier

namespace Rules

open Tern.Parser

variable (rules : Rules)

/-- Specifiers before a declaration; they wait for it. -/
def specifiers : Parser Unit := do
  match Specifier.ofKind? Specifier.ofDeclWord? (← currentKind) with
  | some specifier =>
      skip
      addSpecifier specifier
      rules.parse .specifiers
  | none => return ()

/-- Specifiers before the name of a parameter. -/
def paramSpecifiers (read : Specifiers) : Parser Specifiers := do
  match Specifier.ofKind? Specifier.ofParamWord? (← currentKind) with
  | some specifier =>
      skip
      rules.parse (.paramSpecifiers (read.insert specifier))
  | none => return read

/-- Specifiers behind the name of a class. -/
def classSpecifiers (read : Specifiers) : Parser Specifiers := do
  if ← eat (.keyword .virtualWord) then
    rules.parse (.classSpecifiers (read.insert .isVirtual))
  else
    return read

/-- An initializer up to a semicolon, if an equals sign announces one. -/
def initializer? : Parser (Option ExprId) := do
  if ← eat (.symbol .assign) then
    let expr ← rules.initializer [.symbol .semicolon]
    return some expr
  else
    return none

/-- A type, and perhaps an initializer. -/
def typeAndInitializer : Parser (TypeId × Option ExprId) := do
  let type ← rules.declaredType [.symbol .semicolon, .symbol .assign]
  let initializer? ← rules.initializer?
  return (type, initializer?)

/--
A type to be inferred from an initializer, or a type and perhaps an initializer.
-/
def inferredOrTyped : Parser (TypeId × Option ExprId) := do
  if ← check (.symbol .assign) then
    let type ← addType (.builtin .auto) (← currentSpan)
    let initializer? ← rules.initializer?
    return (type, initializer?)
  else
    rules.typeAndInitializer

/--
The definition of an object: its initializer, or nothing at the place just read.
-/
def initializerDefinition : Option ExprId → Parser DefId
  | some expr => do
      let arena ← arena
      addDefinition (.expression expr) (arena.expr expr).span
  | none => do
      addDefinition .empty (← behindPrevious)

/-- A variable, which is a field if it is declared as a member. -/
def variableDeclaration : Parser DeclId := do
  let start ← currentSpan
  let specifiers ← takeSpecifiers
  expect (.keyword .varWord)
  let name ← identifier
  expect (.symbol .colon)
  let (type, initializer?) ← rules.inferredOrTyped
  expect (.symbol .semicolon)
  let definition ← initializerDefinition initializer?
  let isMember ← declaresMember specifiers
  let role := if isMember then ObjectRole.field else ObjectRole.variable
  let decl ← addDecl name specifiers (.object role type definition)
      (← spanFrom start)
  bindDecl decl
  return decl

/-- A base type, which needs no name. -/
def superDeclaration : Parser DeclId := do
  let start ← currentSpan
  let specifiers ← takeSpecifiers
  expect (.keyword .superWord)
  let name ← identifierOrPlaceholder start
  expect (.symbol .colon)
  let (type, initializer?) ← rules.typeAndInitializer
  expect (.symbol .semicolon)
  let definition ← initializerDefinition initializer?
  let decl ← addDecl name specifiers (.object .base type definition)
      (← spanFrom start)
  bindDecl decl
  return decl

/-- The type of a parameter; without one it is to be inferred. -/
def paramType (bound : Bool) : Parser TypeId := do
  if ← eat (.symbol .colon) then
    if bound then
      rules.parse .type
    else
      rules.declaredType
        [.symbol .comma, Delimiter.closer .paren, .symbol .assign]
  else
    addType (.builtin .auto) (← behindPrevious)

/--
A parameter. One that is bound has its type parsed and is visible at once.
-/
def param (bound : Bool) : Parser DeclId := do
  let start ← currentSpan
  let specifiers ← rules.parse (.paramSpecifiers .none)
  let name ← identifier
  let type ← rules.paramType bound
  if ← check (.symbol .assign) then
    failAt (.unsupported "default arguments") (← currentSpan)
  else
    let decl ← addDecl name specifiers (.parameter type) (← spanFrom start)
    if bound then
      bindDecl decl
      return decl
    else
      return decl

/-- Parameters joined by commas. -/
def params (bound : Bool) : Parser (List DeclId) := do
  let param ← rules.param bound
  if ← eat (.symbol .comma) then
    let rest ← rules.parse (.params bound)
    return param :: rest
  else
    return [param]

/-- The type of a result; without one it is to be inferred. -/
def resultType : Parser TypeId := do
  if ← eat (.symbol .arrow) then
    rules.declaredType
      [Delimiter.opener .brace, .symbol .assign, .symbol .semicolon]
  else
    addType (.builtin .auto) (← behindPrevious)

/-- Parameters in parentheses, perhaps none, and the type of the result. -/
def signature : Parser (List DeclId × TypeId) := do
  expect (Delimiter.opener .paren)
  let bound := !(← defers)
  let params ← rules.orNone (Delimiter.closer .paren) (.params bound)
  expect (Delimiter.closer .paren)
  let result ← rules.resultType
  return (params, result)

/-- A definition that is a keyword. -/
def keywordDefinition (keyword : Keyword) (form : DefForm) :
    Parser DefForm := do
  expect (.keyword keyword)
  expect (.symbol .semicolon)
  return form

/-- An expression body. -/
def expressionBody : Parser DefForm := do
  let expr ← rules.initializer [.symbol .semicolon]
  expect (.symbol .semicolon)
  return .expression expr

/--
A definition behind an equals sign: the token behind that tells a keyword from a
body.
-/
def assignedDefinition : Parser DefForm := do
  let behind ← nextKind
  skip
  match behind with
  | .keyword .deleteWord => keywordDefinition .deleteWord .deleted
  | .keyword .defaultWord => keywordDefinition .defaultWord .defaulted
  | _ => rules.expressionBody

/--
The form of a definition of a function; an expression body needs no equals sign.
-/
def functionDefinitionForm : Parser DefForm := do
  match ← currentKind with
  | .symbol (.opening .brace) =>
      let body ← bracedBody rules.currentBlock
      return .body body
  | .symbol .semicolon =>
      skip
      return .empty
  | .symbol .assign => rules.assignedDefinition
  | _ => rules.expressionBody

/-- The definition of a function. -/
def functionDefinition : Parser DefId := do
  let start ← currentSpan
  let form ← rules.functionDefinitionForm
  addDefinition form (← spanFrom start)

/-- What stands in the scope of a callable: its signature and its definition. -/
def callableBody (definition : Parser DefId) :
    Parser (List DeclId × TypeId × DefId) := do
  let (params, result) ← rules.signature
  let definition ← definition
  return (params, result, definition)

/--
A callable declaration behind its keyword, its definition being parsed by a
given parser.
-/
def callable (role : CallableRole) (start : Span) (specifiers : Specifiers)
    (definition : Parser DefId) : Parser DeclId := do
  let name ← identifier
  let _ ← eat (.symbol .colon)
  let decl ← addDecl name specifiers (.callable role [] .invalid .invalid) start
  bindDecl decl
  let scope ← scopeFor decl .function
  let (params, result, definition) ← within scope
      (rules.callableBody definition)
  completeDecl decl (.callable role params result definition) (← spanFrom start)
  return decl

/-- A function. -/
def functionDeclaration : Parser DeclId := do
  let start ← currentSpan
  let specifiers ← takeSpecifiers
  expect (.keyword .defWord)
  let isMember ← declaresMember specifiers
  rules.callable (.function isMember) start specifiers rules.functionDefinition

/-- The definition of a coroutine, which has to be a body. -/
def coroutineDefinition : Parser DefId := do
  let token ← current
  if token.kind = Delimiter.opener .brace then
    rules.functionDefinition
  else
    let cause :=
      ParseCause.unexpectedToken (quoted (Delimiter.opener .brace).displayName)
        token.kind
    Action.fail ((ParseError.of cause token.span).withHelp
      "coroutines must have a body")

/-- A coroutine. -/
def coroutineDeclaration : Parser DeclId := do
  let start ← currentSpan
  let specifiers ← takeSpecifiers
  expect (.keyword .codefWord)
  rules.callable .coroutine start specifiers rules.coroutineDefinition

/-- The kind of a class; without one it is a type. -/
def classKind : Parser TypeId := do
  match ← currentKind with
  | .symbol (.opening .brace) => addType (.builtin .typename) (← behindPrevious)
  | .symbol .semicolon => addType (.builtin .typename) (← behindPrevious)
  | _ => rules.declaredType [Delimiter.opener .brace, .symbol .semicolon]

/-- The definition of a class: its members, or nothing. -/
def classDefinition (decl : DeclId) : Parser DefId := do
  let start ← currentSpan
  if ← eat (.symbol .semicolon) then
    addDefinition .empty (← spanFrom start)
  else
    let scope ← scopeFor decl .classType
    let body ← within scope (bracedBody rules.memberBody)
    addDefinition (.members body) (← spanFrom start)

/-- A class. -/
def classDeclaration : Parser DeclId := do
  let start ← currentSpan
  let waiting ← takeSpecifiers
  expect (.keyword .classWord)
  let name ← identifier
  let _ ← eat (.symbol .colon)
  let specifiers ← rules.parse (.classSpecifiers waiting)
  let decl ← addDecl name specifiers (.classType .invalid .invalid) start
  bindDecl decl
  let kind ← rules.classKind
  let definition ← rules.classDefinition decl
  completeDecl decl (.classType kind definition) (← spanFrom start)
  return decl

/-- A namespace, whose body is parsed on the spot in every mode. -/
def namespaceDeclaration : Parser DeclId := do
  let start ← currentSpan
  let specifiers ← takeSpecifiers
  expect (.keyword .namespaceWord)
  let name ← identifier
  let decl ← addDecl name specifiers (.namespaceBlock .invalid) start
  bindDecl decl
  let scope ← scopeFor decl .namespaceBlock
  let body ← within scope rules.memberBody
  completeDecl decl (.namespaceBlock body) (← spanFrom start)
  return decl

/-- A declaration. -/
def declaration : Parser DeclId := do
  rules.parse .specifiers
  let token ← current
  match token.kind with
  | .keyword .varWord => rules.variableDeclaration
  | .keyword .defWord => rules.functionDeclaration
  | .keyword .codefWord => rules.coroutineDeclaration
  | .keyword .classWord => rules.classDeclaration
  | .keyword .superWord => rules.superDeclaration
  | .keyword .conceptWord => rules.conceptDeclaration
  | .keyword .templateWord => rules.templateDeclaration
  | .keyword .namespaceWord => rules.namespaceDeclaration
  | found => failAt (.unexpectedToken "a declaration" found) token.span

end Rules

end Tern
