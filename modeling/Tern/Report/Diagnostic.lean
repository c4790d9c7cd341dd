import Tern.Report.Code
import Tern.Source.Span

namespace Tern

/-!
# Diagnostics

A diagnostic says what is wrong, shows where by labels on the source, and may
add notes. Its first primary label is its place.
-/

/-- How grave a diagnostic is. -/
inductive Severity where
  | error | warning | note
deriving DecidableEq

/-- How a severity is written. -/
def Severity.render : Severity → String
  | .error => "error"
  | .warning => "warning"
  | .note => "note"

/-- A remark on a piece of source text. -/
structure Label where
  span : Span
  message : String
  /-- Whether the label marks the fault itself, not its context. -/
  isPrimary : Bool
deriving DecidableEq

/-- How a label is written. -/
def Label.render (label : Label) : String :=
  (if label.isPrimary then "\n  --> " else "\n      ") ++ label.span.render ++
    ": " ++ label.message

/-- A diagnostic. -/
structure Diagnostic where
  code : Code
  severity : Severity
  message : String
  labels : List Label
  notes : List String
deriving DecidableEq

namespace Diagnostic

/-- An error shown at one place. -/
def error
    (code : Code)
    (message : String)
    (span : Span)
    (remark : String) :
    Diagnostic :=
  { code := code
    severity := .error
    message := message
    labels := [{ span := span, message := remark, isPrimary := true }]
    notes := [] }

/-- Add a label on the context. -/
def withContext
    (diagnostic : Diagnostic)
    (span : Span)
    (remark : String) :
    Diagnostic :=
  { diagnostic with
    labels :=
      diagnostic.labels ++
        [{ span := span, message := remark, isPrimary := false }] }

/-- The span of the first primary label. -/
def primarySpan? (diagnostic : Diagnostic) : Option Span :=
  (diagnostic.labels.find? Label.isPrimary).map Label.span

/-- Whether a diagnostic is an error. -/
def isError (diagnostic : Diagnostic) : Bool :=
  diagnostic.severity = .error

/--
How a diagnostic is written: its headline, then its labels, then its notes.
-/
def render (diagnostic : Diagnostic) : String :=
  diagnostic.severity.render ++ " [" ++ diagnostic.code.render ++ "]: " ++
    diagnostic.message
    ++ String.join (diagnostic.labels.map Label.render)
    ++ String.join (diagnostic.notes.map fun note => "\n  = note: " ++ note)

end Diagnostic

end Tern
