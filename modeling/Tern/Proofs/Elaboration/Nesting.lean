import Tern.Proofs.Elaboration.Histories
import Tern.Proofs.Elaboration.MergeSoundness

namespace Tern

/-!
# Spans nest

The tokens of a text lie one behind the other, so what is parsed from them
covers a stretch of the text that contains what its parts cover. Elaboration
keeps that up: what a captured range is parsed to takes its place within the
text of the range, a type parameter that is minted covers the type that it is
minted for, and the template around a function covers the function.
-/

namespace Arena

/--
A stored term covers a stretch of a text of some length, and what it owns lies
in that.
-/
structure Contains (arena : Arena) (length : Nat) (term : Term) : Prop where
  held : arena.Holds term
  forward : (arena.spanOf term).start ≤ (arena.spanOf term).stop
  inside : (arena.spanOf term).stop ≤ length
  within : ∀ child ∈ arena.children term,
    (arena.spanOf child).Within (arena.spanOf term)

/-- So it is with a term and all terms that it owns. -/
def Nests (arena : Arena) (length : Nat) (root : Term) : Prop :=
  arena.Throughout (arena.Contains length) root

/-- What lies in its place, and in the text, nests in the text. -/
private theorem Laid.nests
    {arena base : Arena}
    {tokens : Tokens}
    {length : Nat}
    {root : Term}
    (laid : arena.Laid base tokens root)
    (inside : (arena.spanOf root).stop ≤ length) :
    arena.Nests length root := by
  intro term owns
  have here := laid term owns
  exact ⟨here.held, here.encloses.forward,
    Nat.le_trans (laid.within_of_owns owns).stop inside, here.encloses.within⟩

end Arena

section

variable {names : Names} {source : String} {unit : StmtId}
  {parsed : ParserState}

/-- A unit that is parsed from the tokens of a text nests in the text. -/
private theorem parsedUnit_nests
    {start : Names}
    {mode : ParseMode}
    (parses : parseUnit names (scan start source).1 mode = .done unit parsed) :
    parsed.arena.Nests source.utf8ByteSize (.stmt unit) := by
  obtain ⟨aligned, ends⟩ := Tokens.aligned_scan start source
  obtain ⟨laid, inside⟩ := parsedUnit_laid aligned parses
  exact laid.nests (inside ends)

/--
A unit that was parsed from the tokens of a text nests in the text once it is
elaborated.
-/
private theorem elaboratedUnit_nests
    {start : Names}
    {options : ElabOptions}
    {last : ElabState}
    (parses : parseUnit names (scan start source).1 options.mode =
      .done unit parsed)
    (elaborates : (Elab.elaborateUnit unit).run
      { tokens := (scan start source).1, names := names, options := options }
      (.afterParsing parsed) = .done () last) :
    last.arena.Nests source.utf8ByteSize (.stmt unit) := by
  obtain ⟨aligned, ends⟩ := Tokens.aligned_scan start source
  obtain ⟨laid, inside⟩ := parsedUnit_laid aligned parses
  obtain ⟨older, newer, sameArena, -, shown, -, onward⟩ :=
    (ParserState.Grounded.of_unit parses).onward laid.here.held rfl rfl
      (.inl ⟨_, elaborates⟩)
  obtain ⟨laidNow, within⟩ :=
    onward.settles aligned (.stmt unit) (sameArena ▸ laid)
  rw [sameArena] at within
  rw [shown.arena]
  exact laidNow.nests (Nat.le_trans within.stop (inside ends))

end

/--
Whatever is parsed or compiled, in either mode, all that a unit owns covers a
stretch of the text, within that of its owner.
-/
theorem spans_nest (source : String) :
    (∀ (start names : Names) (mode : ParseMode) (unit : StmtId) (parsed :
      ParserState),
      parseUnit names (scan start source).1 mode = .done unit parsed →
        parsed.arena.Nests source.utf8ByteSize (.stmt unit)) ∧
      ∀ (options : ElabOptions) (compilation : Compilation),
        compile? source options = some (.ok compilation) →
          compilation.arena.Nests source.utf8ByteSize
            (.stmt compilation.unit) := by
  refine ⟨fun _ _ _ _ _ => parsedUnit_nests, fun options compilation compiles =>
    ?_⟩
  obtain ⟨_, _, _, parses, elaborates, rfl⟩ :=
    Compilation.exists_elaborated compiles
  exact elaboratedUnit_nests parses elaborates

/--
A function is captured, and wrapped in a template when it is compiled, for the
type of its parameter is to be inferred.
-/
theorem spans_nest_inferredParameter :
    (∃ unit parsed,
      parseUnit .initial
        (scan .initial "def f(x: auto) \x7b return (x); \x7d").1 .deferred =
          .done unit parsed ∧
        parsed.arena.Nests "def f(x: auto) \x7b return (x); \x7d".utf8ByteSize
          (.stmt unit)) ∧
      ∃ compilation,
        compile? "def f(x: auto) \x7b return (x); \x7d"
            { mode := .deferred, openMethods := false } =
              some (.ok compilation) ∧
          compilation.arena.Nests
            "def f(x: auto) \x7b return (x); \x7d".utf8ByteSize
            (.stmt compilation.unit) := by
  obtain ⟨parsedAlways, compiledAlways⟩ :=
    spans_nest "def f(x: auto) \x7b return (x); \x7d"
  obtain ⟨unit, parsed, parses, -⟩ := Outcome.done_of_passes (show
    (parseUnit .initial (scan .initial "def f(x: auto) \x7b return (x); \x7d").1
      .deferred).passes
      (fun _ _ => true) = true by decide +kernel)
  obtain ⟨compilation, compiles, -⟩ := @exists_compilation
    (compile? "def f(x: auto) \x7b return (x); \x7d"
      { mode := .deferred, openMethods := false })
    (fun compilation => compilation.arena.decls.size == 4) (by decide +kernel)
  exact ⟨⟨unit, parsed, parses, parsedAlways _ _ _ _ _ parses⟩, compilation,
    compiles,
    compiledAlways _ _ compiles⟩

end Tern
