import Tern.Compilation

namespace Tern

/-!
# What a queue of diagnostics keeps count of

A queue is only ever added to and flushed. Whatever the order of these calls,
its count of errors is the number of errors it holds, within the limit, and
without duplicates if it is to refuse them. Stopping at the limit gives the
queue that further errors would leave.
-/

/-- Two diagnostics agree if code, place and message do. -/
structure Diagnostic.Agrees (left right : Diagnostic) : Prop where
  code : left.code = right.code
  place : left.primarySpan? = right.primarySpan?
  message : left.message = right.message

private theorem Diagnostic.repeats_iff (left right : Diagnostic) :
    left.repeats right = true ↔ left.Agrees right := by
  constructor
  · intro repeated
    simp only [Diagnostic.repeats, Bool.and_eq_true, decide_eq_true_eq]
      at repeated
    exact ⟨repeated.1.1, repeated.1.2, repeated.2⟩
  · intro agrees
    simp [Diagnostic.repeats, agrees.code, agrees.place, agrees.message]

/-- What a queue is asked to do. -/
inductive QueueCall where
  | add (diagnostic : Diagnostic)
  | flush

namespace Queue

/-- The queue one call leaves. -/
def after (queue : Queue) : QueueCall → Queue
  | .add diagnostic => queue.add diagnostic
  | .flush => queue.flush.2

/-- The queue that calls in order leave. -/
def afterAll (queue : Queue) (calls : List QueueCall) : Queue :=
  calls.foldl after queue

/-- The books of a queue are in order. -/
structure Accounted (queue : Queue) : Prop where
  counted : queue.errorCount = queue.held.countP Diagnostic.isError
  limited : queue.config.errorLimit ≠ 0 →
    queue.errorCount ≤ queue.config.errorLimit
  distinct :
    queue.config.deduplicate = true →
      queue.held.Pairwise fun earlier later => ¬ earlier.Agrees later

/-- A diagnostic is turned away: it is an error and the limit is reached, or it
agrees with a diagnostic that is held where these are not to be repeated. -/
def TurnsAway (queue : Queue) (diagnostic : Diagnostic) : Prop :=
  (diagnostic.isError = true ∧ queue.config.errorLimit ≠ 0
      ∧ queue.errorCount = queue.config.errorLimit)
    ∨ (queue.config.deduplicate = true ∧ ∃ held ∈ queue.held,
      held.Agrees diagnostic)

/-- The queue with a diagnostic behind the others. -/
def appended (queue : Queue) (diagnostic : Diagnostic) : Queue :=
  { queue with
    held := queue.held ++ [diagnostic]
    errorCount := queue.errorCount + if diagnostic.isError then 1 else 0 }

variable {queue : Queue} {diagnostic : Diagnostic}

/-- Within its limit, a queue is full at the limit only. -/
private theorem Accounted.isFull_iff (accounted : queue.Accounted) :
    queue.isFull = true ↔
      queue.config.errorLimit ≠ 0 ∧ queue.errorCount =
        queue.config.errorLimit := by
  have limited := accounted.limited
  simp only [isFull, Bool.and_eq_true, decide_eq_true_eq]
  omega

private theorem Accounted.refuses_iff (accounted : queue.Accounted) :
    queue.refuses diagnostic = true ↔ queue.TurnsAway diagnostic := by
  simp [refuses, TurnsAway, accounted.isFull_iff, Diagnostic.repeats_iff]

private theorem Accounted.add?_eq_none (accounted : queue.Accounted)
    (turned : queue.TurnsAway diagnostic) :
    queue.add? diagnostic = none := by
  rw [add?, if_pos (accounted.refuses_iff.mpr turned)]

private theorem Accounted.add?_eq_some (accounted : queue.Accounted)
    (taken : ¬ queue.TurnsAway diagnostic) :
    queue.add? diagnostic = some (queue.appended diagnostic) := by
  rw [add?, if_neg (fun refused => taken (accounted.refuses_iff.mp refused))]
  cases found : diagnostic.isError <;> simp [appended, found]

private theorem add_of_none (refused : queue.add? diagnostic = none) :
    queue.add diagnostic = queue := by
  rw [add, refused, Option.getD_none]

theorem Accounted.empty (config : QueueConfig) :
    (Queue.empty config).Accounted :=
  { counted := rfl
    limited := fun _ => Nat.zero_le _
    distinct := fun _ => .nil }

/-- A diagnostic that is not turned away finds room, and no duplicate. -/
private theorem Accounted.appended (accounted : queue.Accounted)
    (taken : ¬ queue.TurnsAway diagnostic) :
    (queue.appended diagnostic).Accounted := by
  refine ⟨?_, ?_, ?_⟩
  · simp [Queue.appended, accounted.counted, List.countP_cons]
  · intro bounded
    have within : queue.errorCount ≤ queue.config.errorLimit :=
      accounted.limited bounded
    show queue.errorCount + (if diagnostic.isError then 1 else 0) ≤
      queue.config.errorLimit
    split
    · rename_i error
      have below : queue.errorCount ≠ queue.config.errorLimit := fun reached =>
        taken (.inl ⟨error, bounded, reached⟩)
      omega
    · exact within
  · intro deduplicating
    refine List.pairwise_append.mpr
      ⟨accounted.distinct deduplicating, List.pairwise_singleton _ _, ?_⟩
    intro held isHeld last isLast agrees
    obtain rfl := List.mem_singleton.mp isLast
    exact taken (.inr ⟨deduplicating, held, isHeld, agrees⟩)

private theorem Accounted.add
    (accounted : queue.Accounted)
    (diagnostic : Diagnostic) :
    (queue.add diagnostic).Accounted := by
  by_cases turned : queue.TurnsAway diagnostic
  · rw [add_of_none (accounted.add?_eq_none turned)]
    exact accounted
  · rw [Queue.add, accounted.add?_eq_some turned]
    exact accounted.appended turned

@[simp]
theorem config_add (queue : Queue) (diagnostic : Diagnostic) :
    (queue.add diagnostic).config = queue.config := by
  rw [add, add?]
  split <;> rfl

private theorem flush_empties (queue : Queue) :
    queue.flush.2 = .empty queue.config :=
  rfl

@[simp]
theorem config_after (queue : Queue) (call : QueueCall) :
    (queue.after call).config = queue.config := by
  cases call with
  | add diagnostic => exact queue.config_add diagnostic
  | flush => rfl

/-- Each call keeps the books in order. -/
private theorem Accounted.after
    (accounted : queue.Accounted)
    (call : QueueCall) :
    (queue.after call).Accounted := by
  cases call with
  | add diagnostic => exact accounted.add diagnostic
  | flush => exact .empty queue.config

@[simp]
theorem config_afterAll (queue : Queue) (calls : List QueueCall) :
    (queue.afterAll calls).config = queue.config := by
  induction calls generalizing queue with
  | nil => rfl
  | cons call rest inductionHypothesis =>
      exact (inductionHypothesis (queue.after call)).trans
        (queue.config_after call)

/-- So do calls in any order. -/
private theorem Accounted.afterAll
    (accounted : queue.Accounted)
    (calls : List QueueCall) :
    (queue.afterAll calls).Accounted := by
  induction calls generalizing queue with
  | nil => exact accounted
  | cons call rest inductionHypothesis =>
      exact inductionHypothesis (accounted.after call)

/-- A full queue takes no error. -/
private theorem add_of_full
    (full : queue.isFull = true)
    (error : diagnostic.isError = true) :
    queue.add diagnostic = queue :=
  add_of_none (by simp [add?, refuses, full, error])

/-- Adding errors to a full queue leaves it. -/
private theorem afterAll_of_full
    (full : queue.isFull = true)
    {diagnostics : List Diagnostic}
    (errors : ∀ diagnostic ∈ diagnostics, diagnostic.isError = true) :
    queue.afterAll (diagnostics.map .add) = queue := by
  induction diagnostics with
  | nil => rfl
  | cons diagnostic rest inductionHypothesis =>
      have refused : queue.add diagnostic = queue :=
        add_of_full full (errors diagnostic (List.mem_cons_self ..))
      have same := inductionHypothesis fun later isLater =>
        errors later (List.mem_cons_of_mem _ isLater)
      calc queue.afterAll ((diagnostic :: rest).map .add)
          = (queue.add diagnostic).afterAll (rest.map .add) := rfl
        _ = queue := by rw [refused, same]

/-- Errors that are added until the queue is full are as good as all of them. -/
private theorem addUntilFull_eq_afterAll
    (queue : Queue)
    {diagnostics : List Diagnostic}
    (errors : ∀ diagnostic ∈ diagnostics, diagnostic.isError = true) :
    queue.addUntilFull diagnostics = queue.afterAll (diagnostics.map .add) := by
  induction diagnostics generalizing queue with
  | nil => rfl
  | cons diagnostic rest inductionHypothesis =>
      rw [addUntilFull]
      split
      · rename_i full
        exact (afterAll_of_full full errors).symm
      · exact inductionHypothesis (queue.add diagnostic) fun later isLater =>
          errors later (List.mem_cons_of_mem _ isLater)

end Queue

/-- Structural faults are errors, whatever else their diagnostics show. -/
private theorem StructuralFault.toDiagnostic_isError
    (fault : StructuralFault)
    (spanOf : DeclId → Span) :
    (fault.toDiagnostic spanOf).isError = true := by
  rw [StructuralFault.toDiagnostic]
  split <;> rfl

/-- A queue of diagnostics keeps its books, whatever is added to it and however
often it is flushed. It turns away errors at the limit and, if it is to refuse
them, duplicates; it takes every other diagnostic behind the held ones. A flush
leaves nothing. The diagnostics of a compilation are those that adding every
fault in order leaves. -/
theorem queue_accounted (config : QueueConfig) (calls : List QueueCall)
    (compilation : Compilation) :
    let queue := (Queue.empty config).afterAll calls
    queue.config = config
      ∧ queue.Accounted
      ∧ (∀ diagnostic, queue.TurnsAway diagnostic →
          queue.add? diagnostic = none ∧ queue.add diagnostic = queue)
      ∧ (∀ diagnostic, ¬ queue.TurnsAway diagnostic →
          queue.add? diagnostic = some (queue.appended diagnostic)
            ∧ queue.add diagnostic = queue.appended diagnostic)
      ∧ queue.flush.2 = .empty config
      ∧ compilation.diagnosticsWith config =
          (Queue.empty config).afterAll
            (compilation.findings.faults.map fun fault =>
              .add (compilation.diagnosticOf fault)) := by
  intro queue
  have kept : queue.config = config :=
    Queue.config_afterAll (.empty config) calls
  have accounted : queue.Accounted :=
    (Queue.Accounted.empty config).afterAll calls
  refine ⟨kept, accounted, ?_, ?_, ?_, ?_⟩
  · intro diagnostic turned
    have refused := accounted.add?_eq_none turned
    exact ⟨refused, Queue.add_of_none refused⟩
  · intro diagnostic taken
    have added := accounted.add?_eq_some taken
    exact ⟨added, by rw [Queue.add, added, Option.getD_some]⟩
  · rw [Queue.flush_empties, kept]
  · have errors :
        ∀ diagnostic ∈ compilation.findings.faults.map compilation.diagnosticOf,
          diagnostic.isError = true := by
      intro diagnostic isFault
      obtain ⟨fault, -, rfl⟩ := List.mem_map.mp isFault
      exact fault.toDiagnostic_isError _
    rw [Compilation.diagnosticsWith, Queue.addUntilFull_eq_afterAll _ errors,
      List.map_map]
    rfl

end Tern
