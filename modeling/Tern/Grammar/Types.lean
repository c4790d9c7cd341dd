import Tern.Grammar.Capture

namespace Tern

/-!
# Types

A type is a primary type, suffixes read from left to right, qualifiers written
before it, and perhaps a pack marker. Names are looked up while they are read:
a name that denotes no type is an error here.
-/

/-- The builtin type that a token names. -/
def BuiltinType.ofKind? : TokenKind → Option BuiltinType
  | .keyword .voidWord => some .void
  | .keyword .boolWord => some .bool
  | .keyword .intWord => some .int
  | .keyword .byteWord => some .byte
  | .keyword .autoWord => some .auto
  | .keyword .typenameWord => some .typename
  | _ => none

/-- The qualifier that a token is. -/
def Qualifiers.ofKind? : TokenKind → Option Qualifiers
  | .keyword .constWord => some .const
  | .keyword .volatileWord => some .volatile
  | _ => none

namespace Arena

/-- Whether a declaration is a class with a body. -/
def isDefinedClass (arena : Arena) (decl : DeclId) : Bool :=
  match (arena.decl decl).form with
  | .classType _ definition => (arena.definition definition).form.isDefining
  | _ => false

/-- Whether a declaration may be named as a type. -/
def namesType (arena : Arena) (decl : DeclId) : Bool :=
  match (arena.decl decl).form with
  | .classType _ _ => true
  | .typeParameter _ _ => true
  | .template _ _ _ => true
  | _ => false

/--
The declaration that a name denotes as a type: a defined class before all
others.
-/
def typeAmong? (arena : Arena) (decls : OverloadSet) : Option DeclId :=
  match decls.find? arena.isDefinedClass with
  | some decl => some decl
  | none => decls.find? arena.namesType

/-- Whether a declaration is a template. -/
def isTemplate (arena : Arena) (decl : DeclId) : Bool :=
  match (arena.decl decl).form with
  | .template _ _ _ => true
  | _ => false

/-- Whether a declaration is a template or a concept. -/
def isTemplateOrConcept (arena : Arena) (decl : DeclId) : Bool :=
  match (arena.decl decl).form with
  | .template _ _ _ => true
  | .concept _ _ => true
  | _ => false

end Arena

namespace Rules

open Tern.Parser

variable (rules : Rules)

/-- A type that stands before a comma or an angle. -/
def typeArg : Parser TemplateArg := do
  let type ← rules.parse .type
  let token ← current
  if token.kind = .symbol .comma ∨ token.kind = .symbol .greater then
    return .type type
  else
    failAt
      (.unexpectedToken (describeChoice [.symbol .comma, .symbol .greater])
        token.kind)
      token.span

/-- An expression without angles. -/
def exprArg : Parser TemplateArg := do
  let expr ← rules.parse (.tier .shift)
  return .expr expr

/--
A type if one stands before the next comma or angle; otherwise an expression
without angles.
-/
def templateArg : Parser TemplateArg :=
  either rules.typeArg rules.exprArg

/-- Template arguments joined by commas. -/
def templateArgs : Parser (List TemplateArg) := do
  let arg ← rules.templateArg
  if ← eat (.symbol .comma) then
    let rest ← rules.parse .templateArgs
    return arg :: rest
  else
    return [arg]

/-- Template arguments, perhaps none, and the closing angle behind them. -/
def angledArgs : Parser (List TemplateArg) := do
  let args ← rules.orNone (.symbol .greater) .templateArgs
  expect (.symbol .greater)
  return args

/-- The name of a declaration, with template arguments if an angle follows. -/
def appliedName
    (decl : DeclId)
    (name : Name)
    (span : Span) :
    Parser NameId := do
  if ← eat (.symbol .less) then
    let args ← rules.angledArgs
    addName (.applied decl args) (← spanFrom span)
  else
    addName (.simple name) span

/--
The name of a declaration, which may have template arguments if it takes some.
-/
def nameOf
    (decl : DeclId)
    (takesArgs : Bool)
    (name : Name)
    (span : Span) :
    Parser NameId :=
  if takesArgs then rules.appliedName decl name span
    else addName (.simple name) span

/-- A type given by its name. -/
def namedType : Parser TypeId := do
  let (name, span) ← expectIdentifier
  match ← lookup? name with
  | none => failAt (.unknownType (← textOf name)) span
  | some decls =>
      let arena ← arena
      match arena.typeAmong? decls with
      | none =>
          let kind :=
            ((decls.head?).map fun decl => (arena.decl decl).form.kindName).getD
            "declaration"
          failAt (.notAType (← textOf name) kind) span
      | some decl =>
          let nameId ← rules.nameOf decl (arena.isTemplate decl) name span
          addType (.declared decl nameId) (← spanFrom span)

/--
Types in parentheses; one type without a comma is only grouped, an arrow makes a
function.
-/
def parenthesizedType : Parser TypeId := do
  let start ← currentSpan
  expect (Delimiter.opener .paren)
  let (types, trailingComma) ← rules.parse (.listedTypes false)
  expect (Delimiter.closer .paren)
  if ← eat (.symbol .arrow) then
    let result ← rules.parse .type
    addType (.function types result) (← spanFrom start)
  else
    match types, trailingComma with
    | [only], false => return only
    | _, _ => addType (.tuple types) (← spanFrom start)

/-- The type of an expression. -/
def decltype : Parser TypeId := do
  let start ← currentSpan
  skip
  expect (Delimiter.opener .paren)
  let operand ← rules.expression
  expect (Delimiter.closer .paren)
  addType (.decltype operand) (← spanFrom start)

/-- A type without prefixes or suffixes. -/
def primaryType : Parser TypeId := do
  let token ← current
  match token.kind with
  | .identifier _ => rules.namedType
  | .symbol (.opening .paren) => rules.parenthesizedType
  | .keyword .decltypeWord => rules.decltype
  | found =>
      match BuiltinType.ofKind? found with
      | some type =>
          skip
          addType (.builtin type) token.span
      | none => failAt (.expectedType found) token.span

/-- One suffix of a type, if there is one. -/
def typeSuffix? (base : TypeId) : Parser (Option TypeForm) := do
  match ← currentKind with
  | .symbol .amp =>
      skip
      return some (.wrapped .reference base)
  | .symbol .star =>
      skip
      return some (.wrapped .pointer base)
  | .symbol (.opening .bracket) =>
      skip
      if ← eat (Delimiter.closer .bracket) then
        return some (.wrapped .slice base)
      else
        let length ← rules.expression
        expect (Delimiter.closer .bracket)
        return some (.array base length)
  | found =>
      match Qualifiers.ofKind? found with
      | some qualifiers =>
          skip
          return some (.wrapped (.qualified qualifiers) base)
      | none => return none

/-- The suffixes of a type. -/
def typeSuffixes (start : Span) (base : TypeId) : Parser TypeId := do
  match ← rules.typeSuffix? base with
  | some form =>
      let next ← addType form (← spanFrom start)
      rules.parse (.typeSuffixes start next)
  | none => return base

/-- A type without a pack marker. -/
def unaryType : Parser TypeId := do
  let token ← current
  match Qualifiers.ofKind? token.kind with
  | some qualifiers =>
      skip
      let inner ← rules.parse .unaryType
      addType (.wrapped (.qualified qualifiers) inner) (← spanFrom token.span)
  | none =>
      let base ← rules.primaryType
      rules.parse (.typeSuffixes token.span base)

/-- A type with its pack marker. -/
def type : Parser TypeId := do
  let start ← currentSpan
  let base ← rules.parse .unaryType
  if ← eat (.symbol .ellipsis) then
    addType (.wrapped .pack base) (← spanFrom start)
  else
    return base

/-- Types up to a closing parenthesis, and whether a comma stands before it. -/
def listedTypes (afterComma : Bool) : Parser (List TypeId × Bool) := do
  if ← check (Delimiter.closer .paren) then
    return ([], afterComma)
  else
    let type ← rules.parse .type
    if ← eat (.symbol .comma) then
      let (rest, trailingComma) ← rules.parse (.listedTypes true)
      return (type :: rest, trailingComma)
    else
      return ([type], false)

end Rules

end Tern
