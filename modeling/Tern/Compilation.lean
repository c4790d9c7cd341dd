import Tern.Elaboration.Definitions
import Tern.Report.Queue
import Tern.Term.Render
import Tern.Token.Scan

namespace Tern

/-!
# Compilation

A source text is scanned, parsed and elaborated. The result keeps the terms,
the scopes and what elaboration found, from which reports are made.
-/

/-- Why a source text can not be compiled. -/
inductive CompileError where
  | parse (error : ParseError)
  | elaboration (error : ElabError)
deriving DecidableEq

namespace CompileError

/-- The code of an error. -/
def code : CompileError → Code
  | .parse error => error.code
  | .elaboration error => error.code

/-- An error in one line. -/
def render : CompileError → String
  | .parse error => error.render
  | .elaboration error => error.render

/-- An error as a diagnostic. -/
def toDiagnostic : CompileError → Diagnostic
  | .parse error => error.toDiagnostic
  | .elaboration error => error.toDiagnostic

end CompileError

/-- What a compilation gives. -/
structure Compilation where
  names : Names
  tokens : Tokens
  arena : Arena
  scopes : Scopes
  /-- The statement that is the whole compilation unit. -/
  unit : StmtId
  findings : Findings

/-- Parse a whole list of tokens as a compilation unit in fresh scopes. -/
def parseUnit (names : Names) (tokens : Tokens) (mode : ParseMode) :
    Outcome ParseError ParserState StmtId :=
  let window := Window.whole tokens
  Parser.unit.run { window := window, names := names, mode := mode }
    (.start window .initial .empty)

/-- An elaborator's state right after parsing. -/
def ElabState.afterParsing (state : ParserState) : ElabState :=
  { arena := state.arena, scopes := state.scopes, shapes := .empty,
    findings := .none }

/-- Compile a source text; nothing comes out for want of fuel. -/
def compile? (source : String) (options : ElabOptions) :
    Option (Except CompileError Compilation) :=
  let (tokens, names) := scan .initial source
  match parseUnit names tokens options.mode with
  | .exhausted => none
  | .failed error _ => some (.error (.parse error))
  | .done unit parsed =>
      let input : ElabInput :=
        { tokens := tokens, names := names, options := options }
      match (Elab.elaborateUnit unit).run input (.afterParsing parsed) with
      | .exhausted => none
      | .failed error _ => some (.error (.elaboration error))
      | .done _ state =>
          some (.ok
            { names := names
              tokens := tokens
              arena := state.arena
              scopes := state.scopes
              unit := unit
              findings := state.findings })

namespace Compilation

/-- The written form of the elaborated compilation unit. -/
def render (compilation : Compilation) : String :=
  compilation.arena.render compilation.names (.stmt compilation.unit)

/-- The declarations of a name in the scope of the compilation unit. -/
def lookup (compilation : Compilation) (text : String) : OverloadSet :=
  match compilation.names.find? text with
  | some name =>
      (compilation.scopes.find? ScopeTable.root (.simple name)).getD []
  | none => []

/-- The diagnostic of a fault. -/
def diagnosticOf (compilation : Compilation) (fault : StructuralFault) :
    Diagnostic :=
  fault.toDiagnostic fun decl => (compilation.arena.decl decl).span

/-- The faults as diagnostics in a queue, in the order they were found. -/
def diagnosticsWith (compilation : Compilation) (config : QueueConfig) :
    Queue :=
  (Queue.empty config).addUntilFull
    (compilation.findings.faults.map compilation.diagnosticOf)

/-- The diagnostics of the usual configuration, in order of place. -/
def report (compilation : Compilation) : List Diagnostic :=
  (compilation.diagnosticsWith .standard).flush.1

end Compilation

end Tern
