import Tern.Proofs.Elaboration.Histories
import Tern.Proofs.Elaboration.MergeSoundness

namespace Tern

/-!
# Cleanness of what compiles

A captured range is passed over unseen, and a closer that closes nothing goes
unnoticed in it. But a unit whose elaboration is done has no range left, and
each of them was parsed as a whole. So all tokens of a text that compiles have
been looked at: none is invalid, and the delimiters match each other.
-/

/--
A unit whose elaboration is done was parsed from tokens that are clean. When
elaboration is done, nothing that the unit owns is a range any more.
-/
private theorem parsedUnit_clean
    {names : Names}
    {tokens : Tokens}
    {options : ElabOptions}
    {unit : StmtId}
    {parsed : ParserState}
    {last : ElabState}
    (parses : parseUnit names tokens options.mode = .done unit parsed)
    (elaborates : (Elab.elaborateUnit unit).run
      { tokens := tokens, names := names, options := options }
        (.afterParsing parsed) =
        .done () last) :
    tokens.Clean := by
  have ready := parseUnit_parses names tokens options.mode
  rw [parses] at ready
  obtain ⟨_, phases, _, stmts, scope, held, form, ready⟩ := ready
  have complete : last.arena.Complete (.stmt unit) := by
    have outcome := @Completes.elaborateUnit
      { tokens := tokens, names := names, options := options } _ unit _ _ held
        form ready
      (.afterParsing parsed) rfl (.of_unelaborated phases)
    have done : Elab.elaborateUnit unit
      { tokens := tokens, names := names, options := options }
        (.afterParsing parsed) =
        .done () last := elaborates
    rw [done] at outcome
    exact outcome.2.2
  obtain ⟨older, newer, sameArena, -, shown, -, onward⟩ :=
    (ParserState.Grounded.of_unit parses).onward held rfl rfl
      (.inl ⟨_, elaborates⟩)
  have tidy :=
    onward.carries (.stmt unit) (sameArena ▸ held) (shown.arena ▸ complete.tidy)
  rw [sameArena] at tidy
  exact Parser.clean_of_unit parses tidy

/--
Of every text that compiles, in either mode, no token is invalid, every closer
closes the latest unclosed opener, which is of its own kind, and none is left
open.
-/
theorem compiled_clean
    {source : String}
    {options : ElabOptions}
    {compilation : Compilation}
    (compiles : compile? source options = some (.ok compilation)) :
    (scan .initial source).1.Clean := by
  obtain ⟨_, _, _, parses, elaborates, -⟩ :=
    Compilation.exists_elaborated compiles
  exact parsedUnit_clean parses elaborates

/-- A body that was captured has delimiters that match each other. -/
theorem compiled_clean_nestedBody :
    ∃ compilation,
      compile? "def f(a: int) \x7b return (a); \x7d"
          { mode := .deferred, openMethods := false } = some (.ok compilation) ∧
        (scan .initial "def f(a: int) \x7b return (a); \x7d").1.Clean := by
  obtain ⟨compilation, compiles, -⟩ := @exists_compilation
    (compile? "def f(a: int) \x7b return (a); \x7d"
      { mode := .deferred, openMethods := false })
    (fun _ => true) (by decide +kernel)
  exact ⟨compilation, compiles, compiled_clean compiles⟩

end Tern
