import Tern.Grammar.Error
import Tern.Term.Basic

namespace Tern

/-!
# Faults of elaboration

There are two kinds. An elaboration error ends the run. A structural fault is
recorded against one declaration, and elaboration goes on with the others.
-/

/-- Why an elaboration run ends. -/
inductive ElabError where
  | /-- A captured fragment does not parse. -/
    parse (error : ParseError)
  | unhandled (family : Family) (kind : String) (span : Span)
  | notImplemented (feature : String) (span : Span)
  | /-- A term is still unparsed after the run. -/
    residual (family : Family) (span : Span)
deriving DecidableEq

namespace ElabError

/-- The code of an error. -/
def code : ElabError → Code
  | .parse error => error.code
  | .unhandled _ _ _ => .unhandledTerm
  | .notImplemented _ _ => .notImplemented
  | .residual _ _ => .residualTerm

/-- The place of an error. -/
def span : ElabError → Span
  | .parse error => error.span
  | .unhandled _ _ span => span
  | .notImplemented _ span => span
  | .residual _ span => span

/-- An error in one line. -/
def render : ElabError → String
  | .parse error => error.render
  | .unhandled family kind _ => "no case for " ++ family.describe ++ " kind " ++
      quoted kind
  | .notImplemented feature _ => "elaboration of " ++ feature ++
      " is not implemented"
  | .residual family _ => "unparsed " ++ family.describe ++
      " survived elaboration"

/-- An error as a diagnostic. -/
def toDiagnostic : ElabError → Diagnostic
  | .parse error => error.toDiagnostic
  | other => .error other.code other.render other.span "here"

end ElabError

/-- What is wrong with a declaration. -/
inductive FaultCause where
  | /-- The type of a base does not denote a class. -/
    baseNotClass
  | /-- A declaration before this one defines the same. -/
    redefinition (previous : DeclId)
  | /-- A declaration before this one has the name,
      and the two can not overload. -/
    conflictingDeclaration (previous : DeclId)
deriving DecidableEq

namespace FaultCause

/-- The code of a cause. -/
def code : FaultCause → Code
  | .baseNotClass => .baseNotClass
  | .redefinition _ => .redefinition
  | .conflictingDeclaration _ => .conflictingDeclaration

/-- The message of a cause. -/
def message : FaultCause → String
  | .baseNotClass => "base type is not a class"
  | .redefinition _ => "redefinition"
  | .conflictingDeclaration _ => "conflicting declaration"

/--
The earlier declaration that a cause is about, with the remark to put there.
-/
def earlier? : FaultCause → Option (DeclId × String)
  | .baseNotClass => none
  | .redefinition previous => some (previous, "previous definition")
  | .conflictingDeclaration previous => some (previous, "previous declaration")

end FaultCause

/-- A fault recorded against one declaration. -/
structure StructuralFault where
  decl : DeclId
  cause : FaultCause
  span : Span
deriving DecidableEq

/--
A fault as a diagnostic, which also shows the earlier declaration if there is
one.
-/
def StructuralFault.toDiagnostic
    (fault : StructuralFault)
    (spanOf : DeclId → Span) :
    Diagnostic :=
  let diagnostic :=
    Diagnostic.error fault.cause.code fault.cause.message fault.span
      "declared here"
  match fault.cause.earlier? with
  | none => diagnostic
  | some (previous, remark) => diagnostic.withContext (spanOf previous) remark

end Tern
