import Tern.Report.Queue

namespace Tern

/-!
# The order of a flush

A flush gives what a queue held, sorted by place. The sort is stable, so that
diagnostics of one place come in the order they were added.
-/

namespace Diagnostic

variable {diagnostics : List Diagnostic}

private theorem insertByPlace_perm
    (diagnostic : Diagnostic)
    (diagnostics : List Diagnostic) :
    (insertByPlace diagnostic diagnostics).Perm
      (diagnostic :: diagnostics) := by
  induction diagnostics with
  | nil => exact .refl _
  | cons head rest inductionHypothesis =>
      rw [insertByPlace]
      split
      · exact .refl _
      · exact (inductionHypothesis.cons head).trans (.swap diagnostic head rest)

private theorem sortByPlace_perm (diagnostics : List Diagnostic) :
    (sortByPlace diagnostics).Perm diagnostics := by
  induction diagnostics with
  | nil => exact .refl _
  | cons head rest inductionHypothesis =>
      exact (insertByPlace_perm head _).trans (inductionHypothesis.cons head)

/-- Diagnostics stand in the order of their places. -/
def InOrder (diagnostics : List Diagnostic) : Prop :=
  diagnostics.Pairwise fun earlier later => earlier.place ≤ later.place

private theorem InOrder.insertByPlace
    (ordered : InOrder diagnostics)
    (diagnostic : Diagnostic) :
    InOrder (diagnostic.insertByPlace diagnostics) := by
  induction diagnostics with
  | nil => exact List.pairwise_singleton _ _
  | cons head rest inductionHypothesis =>
      obtain ⟨least, restOrdered⟩ := List.pairwise_cons.mp ordered
      rw [Diagnostic.insertByPlace]
      split
      · rename_i first
        refine List.pairwise_cons.mpr ⟨?_, ordered⟩
        rintro later (_ | ⟨_, inRest⟩)
        · exact first
        · exact Nat.le_trans first (least later inRest)
      · rename_i behind
        refine List.pairwise_cons.mpr ⟨?_, inductionHypothesis restOrdered⟩
        intro later inserted
        obtain rfl | inRest :=
          List.mem_cons.mp
            ((insertByPlace_perm diagnostic rest).mem_iff.mp inserted)
        · exact Nat.le_of_not_le behind
        · exact least later inRest

private theorem sortByPlace_inOrder (diagnostics : List Diagnostic) :
    InOrder (sortByPlace diagnostics) := by
  induction diagnostics with
  | nil => exact .nil
  | cons head rest inductionHypothesis =>
      exact inductionHypothesis.insertByPlace head

/-- A diagnostic is inserted before those of its own place, and so keeps the
order at every place. -/
private theorem filter_insertByPlace
    (diagnostic : Diagnostic)
    (diagnostics : List Diagnostic)
    (place : Nat) :
    (diagnostic.insertByPlace diagnostics).filter (·.place == place) =
      (diagnostic :: diagnostics).filter (·.place == place) := by
  induction diagnostics with
  | nil => rfl
  | cons head rest inductionHypothesis =>
      rw [insertByPlace]
      split
      · rfl
      · rename_i behind
        rw [List.filter_cons, inductionHypothesis]
        by_cases here : head.place = place
        · have elsewhere : diagnostic.place ≠ place := by omega
          simp [here, elsewhere]
        · simp [List.filter_cons, here]

private theorem filter_sortByPlace
    (diagnostics : List Diagnostic)
    (place : Nat) :
    (sortByPlace diagnostics).filter (·.place == place) =
      diagnostics.filter (·.place == place) := by
  induction diagnostics with
  | nil => rfl
  | cons head rest inductionHypothesis =>
      show (head.insertByPlace (sortByPlace rest)).filter (·.place == place) = _
      rw [filter_insertByPlace, List.filter_cons, List.filter_cons,
        inductionHypothesis]

private theorem place_of_some {diagnostic : Diagnostic} {span : Span}
    (labelled : diagnostic.primarySpan? = some span) :
    diagnostic.place = span.start := by
  rw [place, labelled]

private theorem place_of_none
    {diagnostic : Diagnostic}
    (unlabelled : diagnostic.primarySpan? = none) :
    diagnostic.place = largestWord := by
  rw [place, unlabelled]

end Diagnostic

namespace Queue

/--
A flush gives the held diagnostics in the order of their places, those of one
place in the order they were added.
-/
private theorem flush_stable (queue : Queue) :
    queue.flush.1.Perm queue.held
      ∧ Diagnostic.InOrder queue.flush.1
      ∧ ∀ place,
          queue.flush.1.filter (·.place == place) =
            queue.held.filter (·.place == place) :=
  ⟨Diagnostic.sortByPlace_perm queue.held,
    Diagnostic.sortByPlace_inOrder queue.held,
    Diagnostic.filter_sortByPlace queue.held⟩

/--
Only labels at the largest offset may follow a diagnostic without a primary
label.
-/
theorem flush_unlabelled_last (queue : Queue) :
    queue.flush.1.Pairwise fun earlier later =>
      earlier.primarySpan? = none →
        ∀ span, later.primarySpan? = some span → largestWord ≤ span.start := by
  refine queue.flush_stable.2.1.imp ?_
  intro earlier later ordered unlabelled span labelled
  rw [← Diagnostic.place_of_none unlabelled,
    ← Diagnostic.place_of_some labelled]
  exact ordered

/- Labels at the largest offset do follow one that was added before: without a
label, a diagnostic counts as standing at that offset. -/
example :
    let unlabelled : Diagnostic :=
      { code := .notImplemented
        severity := .error
        message := "no span"
        labels := []
        notes := [] }
    let labelled : Diagnostic :=
      .error .unexpectedToken "end" (.point largestWord) "here"
    (((Queue.empty .standard).add unlabelled).add labelled).flush.1 =
      [unlabelled, labelled] := by
  decide

end Queue

end Tern
