import Tern.Grammar.Nonterminal

namespace Tern

/-!
# Captured fragments

In deferred mode the types, initializers and bodies of declarations are not
parsed but captured as ranges of tokens. A capture ends at the nesting level at
which it began; what lies deeper is skipped whatever it is.
-/

namespace Parser

/-- How a choice of tokens is described in messages. -/
def describeChoice (kinds : List TokenKind) : String :=
  String.intercalate " or " (kinds.map fun kind => quoted kind.displayName)

/-- The number of delimiters opened and not closed. -/
def depth : Parser Nat := do
  return (← tracked).depth

/-- The tokens read since a position. -/
def rangeFrom (start : Nat) : Parser TokenRange := do
  return { start := start, stop := ← position }

/--
Why a capture meets no terminator: what is left open, or what stands in its
place.
-/
def missingTerminator
    (terminators : List TokenKind)
    (level : Nat)
    (track : ParserTrack)
    (found : TokenKind) : ParseCause :=
  match track.delimiters with
  | innermost :: _ =>
      if level < track.depth then .unclosedDelimiter innermost.opener
      else .unexpectedToken (describeChoice terminators) found
  | [] => .unexpectedToken (describeChoice terminators) found

/--
Read on to the first terminator at a nesting level, within a number of tokens.
-/
def skipTo (terminators : List TokenKind) (level : Nat) : Nat → Parser Unit
  | 0 => Action.exhaust
  | fuel + 1 => do
      let token ← current
      let track ← tracked
      if track.depth = level ∧ token.kind ∈ terminators then
        return ()
      else if token.kind = .endOfInput then
        failAt (missingTerminator terminators level track token.kind) token.span
      else if track.depth = level ∧ token.kind.closes?.isSome then
        failAt (.unexpectedToken (describeChoice terminators) token.kind)
          token.span
      else
        skip
        skipTo terminators level fuel

/--
Read on until the nesting level is reached again, within a number of tokens.
-/
def skipOut (opened : Span) (level : Nat) : Nat → Parser Unit
  | 0 => Action.exhaust
  | fuel + 1 => do
      if level < (← depth) then
        if ← atEnd then
          failAt (.unclosedDelimiter (Delimiter.opener .brace)) opened
        else
          skip
          skipOut opened level fuel
      else
        return ()

/-- Number of tokens left to read. -/
def remaining : Parser Nat := do
  let input ← Action.environment
  return input.window.remaining (← position)

/--
Capture the tokens before the first terminator at the present nesting level.
-/
def captureTo (terminators : List TokenKind) : Parser TokenRange := do
  let start ← position
  skipTo terminators (← depth) ((← remaining) + 1)
  rangeFrom start

/-- Capture a pair of braces and what is between them. -/
def captureBraces : Parser TokenRange := do
  let start ← position
  let opened ← currentSpan
  let level ← depth
  expect (Delimiter.opener .brace)
  skipOut opened level ((← remaining) + 1)
  rangeFrom start

/-- The source text of a range of tokens. -/
def spanOfRange (range : TokenRange) : Parser Span := do
  let input ← Action.environment
  return input.window.tokens.spanOf range

/-- A braced body: captured with its braces when bodies are deferred. -/
def bracedBody (body : Parser StmtId) : Parser StmtId := do
  if ← defers then
    let range ← captureBraces
    addStmt (.unparsed range) (← spanOfRange range)
  else
    body

end Parser

namespace Rules

open Tern.Parser

variable (rules : Rules)

/--
The type of a declaration: captured up to a terminator when types are deferred.
-/
def declaredType (terminators : List TokenKind) : Parser TypeId := do
  if ← defers then
    let range ← captureTo terminators
    if range.isEmpty then
      let token ← current
      failAt (.expectedType token.kind) token.span
    else
      addType (.unparsed range) (← spanOfRange range)
  else
    rules.parse .type

/--
An initializer or expression body: captured up to a terminator when those are
deferred.
-/
def initializer (terminators : List TokenKind) : Parser ExprId := do
  if ← defers then
    let range ← captureTo terminators
    if range.isEmpty then
      let token ← current
      failAt (.expectedExpression token.kind) token.span
    else
      addExpr (.unparsed range) (← spanOfRange range)
  else
    rules.expression

end Rules

end Tern
