namespace Tern

/-!
# Codes of diagnostics

Each kind of diagnostic has a code of its own. The first digit tells the stage
that finds it: scanning, parsing, elaboration, or an internal fault.
-/

/-- The codes of diagnostics. -/
inductive Code where
  | invalidToken
  | unexpectedToken | expectedExpression | unclosedDelimiter
  | expectedIdentifier
  | expectedType | invalidDeclaration | unknownName | unsupported
  | trailingTokens
  | baseNotClass | redefinition | conflictingDeclaration
  | unhandledTerm | notImplemented | residualTerm
deriving DecidableEq

namespace Code

/-- How a code is written. -/
def render : Code → String
  | invalidToken => "E0001"
  | unexpectedToken => "E1001"
  | expectedExpression => "E1002"
  | unclosedDelimiter => "E1003"
  | expectedIdentifier => "E1004"
  | expectedType => "E1005"
  | invalidDeclaration => "E1006"
  | unknownName => "E1007"
  | unsupported => "E1008"
  | trailingTokens => "E1009"
  | baseNotClass => "E2001"
  | redefinition => "E2002"
  | conflictingDeclaration => "E2003"
  | unhandledTerm => "E9001"
  | notImplemented => "E9002"
  | residualTerm => "E9003"

/-- Every code, in the order of their written forms. -/
def all : List Code :=
  [invalidToken, unexpectedToken, expectedExpression, unclosedDelimiter,
    expectedIdentifier,
    expectedType, invalidDeclaration, unknownName, unsupported, trailingTokens,
      baseNotClass,
    redefinition, conflictingDeclaration, unhandledTerm, notImplemented,
      residualTerm]

end Code

end Tern
