import Tern.Control.Action
import Tern.Grammar.Error
import Tern.Scope.Journal
import Tern.Term.Arena
import Tern.Token.Window

namespace Tern

/-!
# Parsers

A parser reads tokens through a window and changes four things: its position,
the delimiters, specifiers and template parameters it keeps track of, the
scopes, and the arena. This module holds the parser's state and the steps that
all productions are made of.
-/

/-- When the types, initializers and bodies of declarations are parsed. -/
inductive ParseMode where
  | /-- They are captured as ranges of tokens,
      to be parsed during elaboration. -/
    deferred
  | /-- They are parsed on the spot. -/
    eager
deriving DecidableEq

/-- What a parser reads. -/
structure ParserInput where
  window : Window
  names : Names
  mode : ParseMode

/-- The template parameters and the constraint read so far for one template. -/
structure TemplateContext where
  parms : List DeclId
  constraint? : Option ExprId
deriving DecidableEq

/-- The context of a template of which nothing is read yet. -/
def TemplateContext.empty : TemplateContext :=
  { parms := [], constraint? := none }

/-- What a parser keeps track of between tokens. -/
structure ParserTrack where
  /-- The delimiters opened and not closed, innermost first. -/
  delimiters : List Delimiter
  /-- The specifiers that wait for their declaration. -/
  specifiers : Specifiers
  template? : Option TemplateContext
deriving DecidableEq

namespace ParserTrack

/-- What a parser keeps track of before the first token. -/
def initial : ParserTrack :=
  { delimiters := [], specifiers := .none, template? := none }

/-- The number of delimiters opened and not closed. -/
def depth (track : ParserTrack) : Nat :=
  track.delimiters.length

/--
Follow a token read: a closer closes the innermost delimiter if that is its own.
-/
def follow (track : ParserTrack) (kind : TokenKind) : ParserTrack :=
  match kind.opens?, kind.closes? with
  | some delimiter, _ =>
      { track with delimiters := delimiter :: track.delimiters }
  | none, some delimiter =>
      if track.delimiters.head? = some delimiter then
        { track with delimiters := track.delimiters.tail }
      else track
  | none, none => track

end ParserTrack

/-- What a parser changes. -/
structure ParserState where
  position : Nat
  track : ParserTrack
  scopes : Scopes
  arena : Arena
deriving DecidableEq

/-- A parser at the start of a window. -/
def ParserState.start
    (window : Window)
    (scopes : Scopes)
    (arena : Arena) :
    ParserState :=
  { position := window.start, track := .initial, scopes := scopes,
    arena := arena }

/-- A parser of values. -/
abbrev Parser (Value : Type) := Action ParserInput ParseError ParserState Value

namespace Parser

variable {Value : Type}

/-- Fail with a cause at a place. -/
def failAt (cause : ParseCause) (span : Span) : Parser Value :=
  Action.fail (.of cause span)

/-- The position. -/
def position : Parser Nat := do
  return (← Action.state).position

/-- The current token. -/
def current : Parser Token := do
  let input ← Action.environment
  let state ← Action.state
  return input.window.tokenAt state.position

/-- The kind of the current token. -/
def currentKind : Parser TokenKind := do
  return (← current).kind

/-- The span of the current token. -/
def currentSpan : Parser Span := do
  return (← current).span

/-- The span of the token before the current one. -/
def previousSpan : Parser Span := do
  let input ← Action.environment
  let state ← Action.state
  return input.window.spanBefore state.position

/-- The kind of the token behind the current one. -/
def nextKind : Parser TokenKind := do
  let input ← Action.environment
  let state ← Action.state
  return input.window.ahead state.position 1

/-- Whether all tokens of the window are read. -/
def atEnd : Parser Bool := do
  let input ← Action.environment
  let state ← Action.state
  return input.window.atEnd state.position

/-- Whether the current token is of a kind. -/
def check (kind : TokenKind) : Parser Bool := do
  return (← currentKind) = kind

/-- Whether the current token is an identifier. -/
def checkIdentifier : Parser Bool := do
  return (← currentKind).isIdentifier

/-- Read the current token. -/
def advance : Parser Token := do
  let input ← Action.environment
  Action.update fun state =>
    let token := input.window.tokenAt state.position
    (token, { state with
      position := input.window.next state.position
      track := state.track.follow token.kind })

/-- Read the current token and forget it. -/
def skip : Parser Unit := do
  let _ ← advance
  return ()

/-- Read the current token if it is of a kind. -/
def eat (kind : TokenKind) : Parser Bool := do
  if ← check kind then
    skip
    return true
  else
    return false

/-- Read the current token, which has to be of a kind. -/
def expect (kind : TokenKind) : Parser Unit := do
  let token ← current
  if token.kind = kind then
    skip
  else
    match token.kind, kind.closes? with
    | .endOfInput, some delimiter =>
        failAt (.unclosedDelimiter delimiter.opener) token.span
    | found, _ =>
        failAt (.unexpectedToken (quoted kind.displayName) found) token.span

/-- Read the current token, which has to be an identifier. -/
def expectIdentifier : Parser (Name × Span) := do
  let token ← current
  match token.kind with
  | .identifier name =>
      skip
      return (name, token.span)
  | found => failAt (.expectedIdentifier found) token.span

/-- The span from a start to the last token read. -/
def spanFrom (start : Span) : Parser Span := do
  return start.merge (← previousSpan)

/-- The empty span behind the last token read. -/
def behindPrevious : Parser Span := do
  return .point (← previousSpan).stop

/-- The text of a name. -/
def textOf (name : Name) : Parser String := do
  let input ← Action.environment
  return input.names.text name

/-- Whether types, initializers and bodies are captured. -/
def defers : Parser Bool := do
  let input ← Action.environment
  return input.mode = .deferred

/-- Change the arena and give a value of it. -/
def inArena (change : Arena → Value × Arena) : Parser Value :=
  Action.update fun state =>
    let changed := change state.arena
    (changed.1, { state with arena := changed.2 })

/-- The arena. -/
def arena : Parser Arena := do
  return (← Action.state).arena

/-- Add a name. -/
def addName (form : NameForm) (span : Span) : Parser NameId :=
  inArena fun arena => arena.addName form span

/-- Add a type. -/
def addType (form : TypeForm) (span : Span) : Parser TypeId :=
  inArena fun arena => arena.addType form span

/-- Add an expression. -/
def addExpr (form : ExprForm) (span : Span) : Parser ExprId :=
  inArena fun arena => arena.addExpr form span

/-- Add a statement. -/
def addStmt (form : StmtForm) (span : Span) : Parser StmtId :=
  inArena fun arena => arena.addStmt form span

/-- Add a definition. -/
def addDefinition (form : DefForm) (span : Span) : Parser DefId :=
  inArena fun arena => arena.addDefinition form span

/-- Add a requirement. -/
def addRequirement (form : ReqForm) (span : Span) : Parser ReqId :=
  inArena fun arena => arena.addRequirement form span

/-- Read an identifier as a name. -/
def identifier : Parser NameId := do
  let (name, span) ← expectIdentifier
  addName (.simple name) span

/-- Read an identifier as a name, or mint a name at a place if there is none. -/
def identifierOrPlaceholder (place : Span) : Parser NameId := do
  if ← checkIdentifier then
    identifier
  else
    inArena fun arena => arena.addPlaceholder place

/-- Change the scopes and give a value of them. -/
def inScopes (change : Scopes → Value × Scopes) : Parser Value :=
  Action.update fun state =>
    let changed := change state.scopes
    (changed.1, { state with scopes := changed.2 })

/-- The current scope. -/
def currentScope : Parser ScopeId := do
  return (← Action.state).scopes.current

/-- Add a scope inside the current one. -/
def pushScope (kind : ScopeKind) : Parser ScopeId :=
  inScopes fun scopes => scopes.push kind scopes.current

/-- The scope of a declaration, added inside the current one at first use. -/
def scopeFor (decl : DeclId) (kind : ScopeKind) : Parser ScopeId :=
  inScopes fun scopes => scopes.scopeFor decl scopes.current kind

/--
Run a parser with a scope as the current one; the former one is current again
after it.
-/
def within (scope : ScopeId) (parser : Parser Value) : Parser Value := do
  let outer ← currentScope
  Action.modify fun state => { state with scopes := state.scopes.enter scope }
  Action.ensure parser fun state =>
    { state with scopes := state.scopes.enter outer }

/-- The declarations that a name denotes in the current scope. -/
def lookup? (name : Name) : Parser (Option OverloadSet) := do
  let state ← Action.state
  return state.scopes.find? state.scopes.current (.simple name)

/-- Add a declaration of the current scope. -/
def addDecl
    (name : NameId)
    (specifiers : Specifiers)
    (form : DeclForm)
    (span : Span) :
    Parser DeclId :=
  Action.update fun state =>
    let (id, arena) := state.arena.addDecl
      { name := name
        specifiers := specifiers
        form := form
        span := span
        scope := state.scopes.current
        phase := .unelaborated }
    (id, { state with arena := arena })

/-- Bind a declaration under its own name in the current scope. -/
def bindDecl (decl : DeclId) : Parser Unit :=
  Action.modify fun state =>
    let key := state.arena.declKey decl
    { state with scopes :=
      (state.scopes.declare state.scopes.current key decl).2 }

/-- Give a declaration its final form and span. -/
def completeDecl
    (decl : DeclId)
    (form : DeclForm)
    (span : Span) :
    Parser Unit :=
  Action.modify fun state => { state with
    arena := state.arena.updateDecl decl fun old =>
      { old with form := form, span := span } }

/--
Whether a declaration with specifiers, read here, is a member that is not
static.
-/
def declaresMember (specifiers : Specifiers) : Parser Bool := do
  let state ← Action.state
  return !specifiers.contains .isStatic
    && state.scopes.table.isClassLevel state.scopes.current

/-- What the parser keeps track of. -/
def tracked : Parser ParserTrack := do
  return (← Action.state).track

/-- Change what the parser keeps track of. -/
def retrack (change : ParserTrack → ParserTrack) : Parser Unit :=
  Action.modify fun state => { state with track := change state.track }

/-- Add a waiting specifier. -/
def addSpecifier (specifier : Specifier) : Parser Unit :=
  retrack fun track =>
    { track with specifiers := track.specifiers.insert specifier }

/-- Hand the waiting specifiers to a declaration; none wait afterwards. -/
def takeSpecifiers : Parser Specifiers :=
  Action.update fun state =>
    (state.track.specifiers,
      { state with track := { state.track with specifiers := .none } })

/--
Run a parser with its own template context; the former one is in force again
after it. Gives the context as the parser left it.
-/
def withTemplate (context : TemplateContext) (parser : Parser Value) :
    Parser (Value × TemplateContext) := do
  let outer? := (← tracked).template?
  retrack fun track => { track with template? := some context }
  Action.ensure
    (do
      let value ← parser
      return (value, ((← tracked).template?).getD .empty))
    fun state =>
      { state with track := { state.track with template? := outer? } }

end Parser

end Tern
