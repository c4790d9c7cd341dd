import Tern.Compilation
import Tern.Proofs.Grammar.Balance
import Tern.Proofs.Grammar.Entries
import Tern.Proofs.Grammar.Spanned

namespace Tern

/-!
# The extents of what is parsed as a whole

A compilation unit encloses all that it owns and ends with the text at the
latest. What a captured range is parsed to lies within the text of the range,
and owns only what was added while that was parsed.
-/

/--
Where the window onto a whole list is read, its tokens lie one behind the other.
-/
private theorem ParserInput.aligned_whole
    {tokens : Tokens}
    (aligned : tokens.Aligned)
    (names : Names)
    (mode : ParseMode) :
    ParserInput.Aligned
      { window := .whole tokens, names := names, mode := mode } where
  closed := Window.whole_closed tokens
  tokens := by rwa [Window.whole_tokens]
  inside := by
    rw [Window.whole_tokens]
    exact Window.whole_stop_le tokens

/--
Where the window onto a range of tokens is read, its tokens lie one behind the
other.
-/
private theorem ParserInput.aligned_ofRange
    {tokens : Tokens}
    (aligned : tokens.Aligned)
    {range : TokenRange}
    (order : range.start ≤ range.stop)
    (inside : range.stop ≤ tokens.size)
    (names : Names)
    (mode : ParseMode) :
    ParserInput.Aligned { window := .ofRange tokens range, names := names,
                          mode := mode } where
  closed := Window.ofRange_closed tokens range
  tokens := aligned
  inside := by
    show max (min range.stop tokens.size) range.start ≤ tokens.size
    omega

/-- A fragment in its place covers the text that it is read from. -/
private theorem Fragment.spans
    {Value : Type}
    (fragment : Fragment Value)
    {input : ParserInput}
    (aligned : input.Aligned)
    (position : Nat) :
    Spans input position .here [] .past (fun value => [fragment.term value])
      fragment.inPlace := by
  refine .aside (fun _ => ⟨_, _, rfl, rfl, rfl, rfl⟩) fun left => ?_
  have spanning := Rules.nested_spanning aligned (Parser.ranks * (left + 1))
  cases fragment with
  | type => exact spanning.type position
  | expression => exact spanning.tier .or position
  | body => exact spanning.currentBlock position
  | members => exact spanning.memberBody position

/-- What a captured range is parsed to lies within the text of the range. -/
theorem Fragment.captured_laid
    {Value : Type}
    (fragment : Fragment Value)
    {tokens : Tokens}
    (aligned : tokens.Aligned)
    {range : TokenRange}
    (nonempty : range.start < range.stop)
    (inside : range.stop ≤ tokens.size)
    {names : Names}
    {mode : ParseMode}
    {scopes : Scopes}
    {arena : Arena}
    {value : Value}
    {after : ParserState}
    (run : fragment.captured { window := .ofRange tokens range, names := names,
                               mode := mode }
      (.start (.ofRange tokens range) scopes arena) = .done value after) :
    after.arena.Laid arena tokens (fragment.term value) ∧
      (after.arena.spanOf (fragment.term value)).Within
        (tokens.spanOf range) := by
  rw [captured_eq] at run
  obtain ⟨run, -⟩ := Parser.toEnd_done run
  have shown := ParserInput.aligned_ofRange aligned (Nat.le_of_lt nonempty)
    inside names mode
  have stop : (Window.ofRange tokens range).stop = range.stop := by
    show max (min range.stop tokens.size) range.start = range.stop
    omega
  have bounded : range.start ≤ (Window.ofRange tokens range).stop := by omega
  obtain ⟨further, -, -⟩ := fragment.spans shown range.start arena _ _
    (.begin bounded (.refl arena)) run
  have covers := further.covers _ (List.mem_singleton_self _)
  have ended : after.position ≤ range.stop :=
    Nat.le_trans further.inside (Nat.le_of_eq stop)
  rw [aligned.spanOf_eq nonempty inside]
  exact ⟨covers.laid, covers.start,
    Nat.le_trans covers.stop (aligned.stop_le (by omega) (by omega))⟩

/--
A compilation unit encloses what it owns, and does not end behind the text.
-/
theorem parsedUnit_laid
    {names : Names}
    {tokens : Tokens}
    (aligned : tokens.Aligned)
    {mode : ParseMode}
    {unit : StmtId}
    {parsed : ParserState}
    (run : parseUnit names tokens mode = .done unit parsed) :
    parsed.arena.Laid .empty tokens (.stmt unit) ∧
      ∀ {offset}, tokens.EndBy offset →
        (parsed.arena.spanOf (.stmt unit)).stop ≤ offset := by
  have shown := ParserInput.aligned_whole aligned names mode
  have listed : (Window.whole tokens).tokens = tokens :=
    Window.whole_tokens tokens
  have begins : (Window.whole tokens).start = 0 := Window.whole_start tokens
  obtain ⟨left, _, looked, rest⟩ := Parser.done_of_bind run
  cases looked
  obtain ⟨start, _, looked, rest⟩ := Parser.done_of_bind rest
  cases looked
  obtain ⟨scope, _, looked, rest⟩ := Parser.done_of_bind rest
  cases looked
  obtain ⟨stmts, behind, reads, rest⟩ := Parser.done_of_bind rest
  obtain ⟨_, _, looked, rest⟩ := Parser.done_of_bind rest
  cases looked
  cases rest
  have inside : (Window.whole tokens).start ≤ (Window.whole tokens).stop := by
    omega
  obtain ⟨further, -, -⟩ :=
    (Rules.nested_spanning shown _).spans .unitStatements
    (Window.whole tokens).start trivial .empty
      _ _ (.begin inside (.refl _)) reads
  have first :=
    Window.whole_follows aligned (Nat.zero_le (Window.whole tokens).stop)
  have last := Window.whole_follows aligned further.inside
  rw [← begins] at first
  have adding :=
    behind.arena.adding_addStmt (.list .unit stmts Scopes.initial.current)
    (((Window.whole tokens).spanAt (Window.whole tokens).start).merge
      ((Window.whole tokens).spanAt behind.position))
  refine ⟨?_, fun ends => ?_⟩
  · refine adding.laid further.older ?_ (fun child owned => ?_) fun _ found =>
      nomatch found
    · exact Nat.le_trans (Nat.min_le_left _ _)
        (Nat.le_trans first.forward (Nat.le_max_left _ _))
    · have covers := further.covers child owned
      have laid := covers.laid
      have start := covers.start
      have stop := covers.stop
      have read := covers.read
      simp only [listed] at laid start stop
      have present : (Window.whole tokens).start < (Window.whole tokens).stop :=
        Nat.lt_of_lt_of_le read further.inside
      have same := Window.spanAt_eq present shown.inside
      refine ⟨laid, ?_, ?_⟩
      · refine Nat.le_trans (Nat.min_le_left _ _) ?_
        rw [same, listed]
        exact start
      · have ended := last.behind (Nat.lt_of_le_of_lt (Nat.zero_le _) read)
        exact Nat.le_trans stop (Nat.le_trans ended
          (Nat.le_trans last.forward (Nat.le_max_right _ _)))
  · exact Nat.le_trans (Nat.le_of_eq (congrArg Span.stop adding.span_eq))
      (Nat.max_le.mpr ⟨first.endBy ends, last.endBy ends⟩)

end Tern
