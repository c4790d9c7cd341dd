import Tern.Grammar.Statements

namespace Tern

/-!
# Templates, concepts and requirements

These are parsed on the spot in every mode, because what mentions template
parameters can only be parsed once they are bound.
-/

namespace Parser

/-- Add a parameter to the template context. -/
def joinTemplate (parm : DeclId) : Parser Unit :=
  retrack fun track => { track with
    template? := track.template?.map fun context =>
      { context with parms := context.parms ++ [parm] } }

/-- Give the template context its constraint. -/
def constrainTemplate (constraint : ExprId) : Parser Unit :=
  retrack fun track => { track with
    template? := track.template?.map fun context =>
      { context with constraint? := some constraint } }

end Parser

namespace Rules

open Tern.Parser

variable (rules : Rules)

/-- The default of a template parameter, if it has one. -/
def defaultType? : Parser (Option TypeId) := do
  if ← eat (.symbol .assign) then
    let type ← rules.parse .type
    return some type
  else
    return none

/-- A template parameter, which is bound and joins the template context. -/
def templateParam : Parser Unit := do
  let start ← currentSpan
  expect (.keyword .typenameWord)
  let name ← identifierOrPlaceholder start
  let default? ← rules.defaultType?
  match (← tracked).template? with
  | none =>
      failAt (.invalidDeclaration
        "template parameter outside a template parameter list") start
  | some context =>
      let span ← spanFrom start
      let decl ← addDecl name .none
          (.typeParameter context.parms.length default?) span
      bindDecl decl
      joinTemplate decl

/-- Template parameters joined by commas. -/
def templateParams : Parser Unit := do
  rules.templateParam
  if ← eat (.symbol .comma) then
    rules.parse .templateParams
  else
    return ()

/-- Template parameters up to a closing angle, perhaps none. -/
def templateParamsOrNone : Parser Unit := do
  if ← check (.symbol .greater) then
    return ()
  else
    rules.parse .templateParams

/-- Template parameters in angles, perhaps none. -/
def templateParamClause : Parser Unit := do
  expect (.symbol .less)
  rules.templateParamsOrNone
  expect (.symbol .greater)

/-- The constraint of a template, if it has one. -/
def templateConstraint : Parser Unit := do
  if ← eat (.keyword .requiresWord) then
    let constraint ← rules.parse (.tier .or)
    constrainTemplate constraint
  else
    return ()

/--
What stands in the scope of a template: its parameters, its constraint and a
declaration.
-/
def templateBody : Parser DeclId := do
  rules.templateParamClause
  rules.templateConstraint
  rules.parse .declaration

/--
A template. Its scope holds the parameters and the declaration they
parameterize; the template itself is bound around it under the name of that
declaration. Waiting specifiers pass through to that declaration.
-/
def templateDeclaration : Parser DeclId := do
  let start ← currentSpan
  expect (.keyword .templateWord)
  let decl ← addDecl .invalid .none (.template [] none .invalid) start
  let scope ← scopeFor decl .template
  let (inner, context) ← within scope (withTemplate .empty rules.templateBody)
  let span ← spanFrom start
  Action.modify fun state => { state with
    arena := state.arena.updateDecl decl fun old => { old with
      name := (state.arena.decl inner).name
      span := span
      form := .template context.parms context.constraint? inner } }
  bindDecl decl
  return decl

/-- An item up to its semicolon, as a requirement. -/
def requirementOf (form : Parser ReqForm) : Parser ReqId := do
  let start ← currentSpan
  let form ← form
  expect (.symbol .semicolon)
  addRequirement form (← spanFrom start)

/-- A type that has to exist. -/
def typeRequirement : Parser ReqForm := do
  skip
  let type ← rules.parse .type
  return .type type

/--
An expression that has to be well formed, perhaps converting to or deduced as a
type.
-/
def expressionRequirement : Parser ReqForm := do
  let expr ← rules.expression
  if ← eat (.symbol .colon) then
    let type ← rules.parse .type
    return .typed .conversion expr type
  else if ← eat (.symbol .arrow) then
    let type ← rules.parse .type
    return .typed .deduction expr type
  else
    return .stated .basic expr

/-- A requirement of a requires-expression. -/
def requirement : Parser ReqId :=
  requirementOf do
    if ← check (.keyword .typenameWord) then
      rules.typeRequirement
    else
      rules.expressionRequirement

/-- Requirements up to and including a closing brace. -/
def requirements : Parser (List ReqId) :=
  rules.bracedItems rules.requirement .requirements

/-- An expression required by a keyword. -/
def syntacticRequirement : Parser ReqId :=
  requirementOf do
    expect (.keyword .requiresWord)
    let expr ← rules.expression
    return .stated .syntactic expr

/-- A type or an expression required by a concept. -/
def plainConceptMember : Parser ReqId :=
  requirementOf do
    if ← check (.keyword .typenameWord) then
      rules.typeRequirement
    else
      let expr ← rules.expression
      return .stated .expression expr

/--
A member of a concept; behind `requires` a requires-expression may begin
instead.
-/
def conceptMember : Parser ReqId := do
  if ← check (.keyword .requiresWord) then
    either rules.syntacticRequirement rules.plainConceptMember
  else
    rules.plainConceptMember

/-- The members of a concept up to and including a closing brace. -/
def conceptMembers : Parser (List ReqId) :=
  rules.bracedItems rules.conceptMember .conceptMembers

/-- What a concept requires: one expression, or its members. -/
def conceptDefinition : Parser DefId := do
  let start ← currentSpan
  if ← eat (.symbol .assign) then
    let expr ← rules.expressionToSemicolon
    addDefinition (.expression expr) (← spanFrom start)
  else
    expect (Delimiter.opener .brace)
    let reqs ← rules.parse .conceptMembers
    addDefinition (.requirements reqs) (← spanFrom start)

/--
What stands in the scope of a concept: its parameters and what it requires.
-/
def conceptBody : Parser (List DeclId × DefId) := do
  let (_, context) ← withTemplate .empty rules.templateParamClause
  let definition ← rules.conceptDefinition
  return (context.parms, definition)

/-- A concept, whose parameters live in a scope of their own. -/
def conceptDeclaration : Parser DeclId := do
  let start ← currentSpan
  let specifiers ← takeSpecifiers
  expect (.keyword .conceptWord)
  let name ← identifier
  let decl ← addDecl name specifiers (.concept [] .invalid) start
  bindDecl decl
  let scope ← scopeFor decl .template
  let (parms, definition) ← within scope rules.conceptBody
  completeDecl decl (.concept parms definition) (← spanFrom start)
  return decl

end Rules

end Tern
