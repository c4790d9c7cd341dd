import Tern.Report.Diagnostic
import Tern.Token.Basic

namespace Tern

/-!
# Parse errors

A parse error is the failure of one grammar alternative: its cause, the place,
and remarks for the reader. All wording is derived from the cause here.
-/

/-- Why a text does not parse. -/
inductive ParseCause where
  | unexpectedToken (expected : String) (found : TokenKind)
  | expectedExpression (found : TokenKind)
  | unclosedDelimiter (opener : TokenKind)
  | expectedIdentifier (found : TokenKind)
  | expectedType (found : TokenKind)
  | unknownType (name : String)
  | /-- A name was found, but what it denotes is no type. -/
    notAType (name kind : String)
  | invalidDeclaration (message : String)
  | unknownName (name : String)
  | unsupported (feature : String)
  | /-- A captured range was parsed, but some of its tokens are left. -/
    trailingTokens (found : TokenKind)
  | other (code : Code) (message : String)
deriving DecidableEq

/-- A text between the marks that quote source text in messages. -/
def quoted (text : String) : String :=
  "`" ++ text ++ "`"

namespace ParseCause

/--
The code of a cause; an invalid token is always reported as such where one may
be expected.
-/
def code : ParseCause → Code
  | .unexpectedToken _ found =>
      if found = .invalid then .invalidToken else .unexpectedToken
  | .expectedExpression found =>
      if found = .invalid then .invalidToken else .expectedExpression
  | .unclosedDelimiter _ => .unclosedDelimiter
  | .expectedIdentifier _ => .expectedIdentifier
  | .expectedType _ => .expectedType
  | .unknownType _ => .expectedType
  | .notAType _ _ => .expectedType
  | .invalidDeclaration _ => .invalidDeclaration
  | .unknownName _ => .unknownName
  | .unsupported _ => .unsupported
  | .trailingTokens _ => .trailingTokens
  | .other code _ => code

/-- What a cause is called when a token is not the expected one. -/
def mismatch (expected : String) (found : TokenKind) : String :=
  "expected " ++ expected ++ ", found " ++ quoted found.displayName

/-- The message of a cause. -/
def message : ParseCause → String
  | .unexpectedToken expected found =>
      if found = .invalid then "invalid token" else mismatch expected found
  | .expectedExpression found =>
      if found = .invalid then "invalid token" else mismatch "expression" found
  | .unclosedDelimiter opener => "unclosed " ++ quoted opener.displayName
  | .expectedIdentifier found => mismatch "identifier" found
  | .expectedType found => mismatch "type" found
  | .unknownType name => "unknown type " ++ quoted name
  | .notAType name kind => quoted name ++ " names a " ++ kind ++ ", not a type"
  | .invalidDeclaration message => message
  | .unknownName name => "unknown name " ++ quoted name
  | .unsupported feature => feature ++ " are not supported"
  | .trailingTokens found =>
      "unexpected " ++ quoted found.displayName ++
        " after the end of the fragment"
  | .other _ message => message

/-- The remark that a cause puts at its place. -/
def remark? : ParseCause → Option String
  | .unexpectedToken expected found =>
      if found = .invalid then none else some ("expected " ++ expected)
  | .unclosedDelimiter _ => some "unclosed delimiter"
  | .unknownType _ => some "not found in this scope"
  | .unknownName _ => some "not found in this scope"
  | _ => none

end ParseCause

/-- A parse error. -/
structure ParseError where
  cause : ParseCause
  span : Span
  /-- The remark at the place of the error. -/
  context? : Option String
  help : List String
deriving DecidableEq

namespace ParseError

/-- The error of a cause at a place. -/
def of (cause : ParseCause) (span : Span) : ParseError :=
  { cause := cause, span := span, context? := cause.remark?, help := [] }

/-- Put another remark at the place of the error. -/
def withContext (error : ParseError) (context : String) : ParseError :=
  { error with context? := some context }

/-- Add a hint. -/
def withHelp (error : ParseError) (help : String) : ParseError :=
  { error with help := error.help ++ [help] }

/-- The code of an error. -/
def code (error : ParseError) : Code :=
  error.cause.code

/-- An error in one line. -/
def render (error : ParseError) : String :=
  "[" ++ error.code.render ++ "] " ++ error.cause.message ++ " at " ++
    error.span.render

/-- An error as a diagnostic, its hints as notes. -/
def toDiagnostic (error : ParseError) : Diagnostic :=
  { Diagnostic.error error.code error.cause.message error.span
    (error.context?.getD "here") with
    notes := error.help }

end ParseError

end Tern
