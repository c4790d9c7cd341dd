import Tern.Report.Diagnostic

namespace Tern

/-!
# The diagnostic queue

Diagnostics are held in order of arrival until they are flushed in order of
their place in the source. A queue may refuse errors beyond a limit, and
diagnostics that repeat a held one.
-/

/-- What a queue refuses. -/
structure QueueConfig where
  /-- The number of errors held at most; zero stands for no limit. -/
  errorLimit : Nat
  /--
  Whether to refuse a diagnostic with the code, place and message of a held
  one.
  -/
  deduplicate : Bool
deriving DecidableEq

/-- The usual configuration. -/
def QueueConfig.standard : QueueConfig :=
  { errorLimit := 10, deduplicate := true }

/-- The usual configuration without a limit. -/
def QueueConfig.unlimited : QueueConfig :=
  { QueueConfig.standard with errorLimit := 0 }

/-- Diagnostics waiting to be shown. -/
structure Queue where
  config : QueueConfig
  held : List Diagnostic
  errorCount : Nat
deriving DecidableEq

namespace Diagnostic

/-- Two diagnostics are repeats if code, place and message agree. -/
def repeats (left right : Diagnostic) : Bool :=
  left.code = right.code && left.primarySpan? = right.primarySpan? &&
    left.message = right.message

/--
The offset to sort a diagnostic by; one without a place counts as the largest
offset.
-/
def place (diagnostic : Diagnostic) : Nat :=
  match diagnostic.primarySpan? with
  | some span => span.start
  | none => largestWord

/-- Insert a diagnostic into a sorted list, before those of the same place. -/
def insertByPlace (diagnostic : Diagnostic) : List Diagnostic → List Diagnostic
  | [] => [diagnostic]
  | head :: rest =>
      if diagnostic.place ≤ head.place then diagnostic :: head :: rest
      else head :: insertByPlace diagnostic rest

/-- Sort diagnostics by place; those of the same place keep their order. -/
def sortByPlace (diagnostics : List Diagnostic) : List Diagnostic :=
  diagnostics.foldr insertByPlace []

end Diagnostic

namespace Queue

/-- A queue that holds nothing. -/
def empty (config : QueueConfig) : Queue :=
  { config := config, held := [], errorCount := 0 }

/-- Whether no further error is taken. -/
def isFull (queue : Queue) : Bool :=
  decide (0 < queue.config.errorLimit) &&
    decide (queue.config.errorLimit ≤ queue.errorCount)

/-- Whether a diagnostic is refused. -/
def refuses (queue : Queue) (diagnostic : Diagnostic) : Bool :=
  (diagnostic.isError && queue.isFull)
    || (queue.config.deduplicate && queue.held.any (·.repeats diagnostic))

/-- Take a diagnostic, unless it is refused. -/
def add? (queue : Queue) (diagnostic : Diagnostic) : Option Queue :=
  if queue.refuses diagnostic then none
  else
    some { queue with
      held := queue.held ++ [diagnostic]
      errorCount := queue.errorCount + diagnostic.isError.toNat }

/-- Take a diagnostic, or leave the queue as it is. -/
def add (queue : Queue) (diagnostic : Diagnostic) : Queue :=
  (queue.add? diagnostic).getD queue

/-- Empty the queue, giving what it held in order of place. -/
def flush (queue : Queue) : List Diagnostic × Queue :=
  (Diagnostic.sortByPlace queue.held,
    { queue with held := [], errorCount := 0 })

/-- Take diagnostics in order, stopping once the queue is full. -/
def addUntilFull (queue : Queue) : List Diagnostic → Queue
  | [] => queue
  | diagnostic :: rest =>
      if queue.isFull then queue else (queue.add diagnostic).addUntilFull rest

end Queue

end Tern
