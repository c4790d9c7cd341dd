import Tern.Proofs.Building.Entries
import Tern.Proofs.Grammar.Swept

namespace Tern

/-!
# Balance of what is parsed as a whole

A fragment is parsed up to the end of its range, and a compilation unit up to
the end of the token list. So the delimiters in a range that was parsed match
each other if what it was parsed to is tidy, and a token list is clean if the
unit is.
-/

/-- The statements of a unit are read up to the end of the window. -/
private theorem Rules.unitStatements_atEnd
    {depth : Nat}
    {input : ParserInput}
    {state after : ParserState}
    {stmts : List StmtId}
    (run : (nested depth).parse .unitStatements input state =
      .done stmts after) :
    input.window.stop ≤ after.position := by
  induction depth generalizing state stmts with
  | zero => cases run
  | succ depth inductionHypothesis =>
      have produced : (nested depth).unitStatements input state =
          .done stmts after := run
      obtain ⟨ended, middle, looked, rest⟩ := Parser.done_of_bind produced
      cases looked
      split at rest
      next isEnd =>
        cases rest
        exact of_decide_eq_true isEnd
      next =>
        obtain ⟨stmt, behind, -, others⟩ := Parser.done_of_bind rest
        obtain ⟨tail, last, reads, finish⟩ := Parser.done_of_bind others
        cases finish
        exact inductionHypothesis reads

/--
What has to read all tokens is done at the end of the window, as without that.
-/
theorem Parser.toEnd_done
    {Value : Type}
    {parser : Parser Value}
    {input : ParserInput}
    {state after : ParserState}
    {value : Value}
    (run : toEnd parser input state = .done value after) :
    parser input state = .done value after ∧
      input.window.stop ≤ after.position := by
  obtain ⟨found, middle, first, rest⟩ := done_of_bind run
  obtain ⟨ended, last, looked, finish⟩ := done_of_bind rest
  cases looked
  split at finish
  next isEnd =>
    cases finish
    exact ⟨first, of_decide_eq_true isEnd⟩
  next => cases finish

section

open Sweeps

variable {input : ParserInput} (closed : input.window.Closed)

include closed

/-- A fragment in its place sweeps over tokens. -/
private theorem Fragment.sweeps {Value : Type} (fragment : Fragment Value) :
    Sweeps input anyKind [] [] [] (fun value => [fragment.term value])
      fragment.inPlace := by
  refine aside (fun _ => ⟨_, _, rfl, rfl, rfl⟩) fun left => ?_
  have sweeping := Rules.nested_sweeping closed (Parser.ranks * (left + 1))
  cases fragment with
  | type => exact sweeping.plain .type rfl rfl _
  | expression => exact sweeping.plain (.tier .or) rfl rfl _
  | body => exact sweeping.currentBlock closed
  | members => exact sweeping.memberBody closed

/-- A compilation unit sweeps over tokens. -/
private theorem Parser.unit_sweeps :
    Sweeps input anyKind [] [] [] (fun stmt => [.stmt stmt]) Parser.unit := by
  refine aside (fun _ => ⟨_, _, rfl, rfl, rfl⟩) fun left =>
    aside (fun _ => ⟨_, _, rfl, rfl, rfl⟩) fun start =>
      aside (fun _ => ⟨_, _, rfl, rfl, rfl⟩) fun scope => ?_
  have sweeping := Rules.nested_sweeping closed (Parser.ranks * (left + 1))
  refine bind (sweeping.call .unitStatements rfl) fun stmts =>
    aside (fun _ => ⟨_, _, rfl, rfl, rfl⟩) fun _ =>
      Sweeps.addStmt (fun root listed => ?_) _
  simpa [Nonterminal.roots, StmtForm.children] using listed

end

/-- A compilation unit is read up to the end of the window. -/
theorem Parser.unit_atEnd
    {input : ParserInput}
    {state after : ParserState}
    {unit : StmtId}
    (run : Parser.unit input state = .done unit after) :
    input.window.stop ≤ after.position := by
  obtain ⟨left, _, looked, rest⟩ := done_of_bind run
  cases looked
  obtain ⟨start, _, looked, rest⟩ := done_of_bind rest
  cases looked
  obtain ⟨scope, _, looked, rest⟩ := done_of_bind rest
  cases looked
  obtain ⟨stmts, middle, reads, rest⟩ := done_of_bind rest
  obtain ⟨_, _, looked, rest⟩ := done_of_bind rest
  cases looked
  have ended := Rules.unitStatements_atEnd reads
  cases rest
  exact ended

/--
The delimiters in a range that was parsed match if what it was parsed to is
tidy.
-/
theorem Fragment.balances
    {Value : Type}
    (fragment : Fragment Value)
    {tokens : Tokens}
    {range : TokenRange}
    {names : Names}
    {mode : ParseMode}
    {scopes : Scopes}
    {arena : Arena}
    {value : Value}
    {after : ParserState}
    (run : fragment.captured { window := .ofRange tokens range, names := names,
                               mode := mode }
      (.start (.ofRange tokens range) scopes arena) = .done value after)
    (inside : after.position ≤ (Window.ofRange tokens range).stop)
    (tidy : after.arena.Tidy arena tokens (fragment.term value)) :
    tokens.Balances range := by
  rw [captured_eq] at run
  obtain ⟨run, ended⟩ := Parser.toEnd_done run
  obtain ⟨-, -, sweeps⟩ :=
    fragment.sweeps (Window.ofRange_closed tokens range) _ trivial run
  obtain ⟨-, nests⟩ :=
    sweeps arena (.refl _) (List.forall_mem_singleton.mpr tidy)
  have last : after.position = (Window.ofRange tokens range).stop :=
    Nat.le_antisymm inside ended
  rw [last] at nests
  have shown := Window.kindsBetween_ofRange tokens range
  exact (congrArg (Delimiter.closeAll? []) shown).symm.trans nests

/-- A token list is clean if the unit that it was parsed to is tidy. -/
theorem Parser.clean_of_unit
    {tokens : Tokens}
    {names : Names}
    {mode : ParseMode}
    {scopes : Scopes}
    {arena : Arena}
    {unit : StmtId}
    {after : ParserState}
    (run : Parser.unit { window := .whole tokens, names := names, mode := mode }
      (.start (.whole tokens) scopes arena) = .done unit after)
    (tidy : after.arena.Tidy arena tokens (.stmt unit)) :
    tokens.Clean := by
  have shown : (Window.whole tokens).tokens = tokens ∧
      (Window.whole tokens).start = 0 := by
    unfold Window.whole
    split
    · exact ⟨rfl, rfl⟩
    · split <;> exact ⟨rfl, rfl⟩
  have ended : (Window.whole tokens).stop ≤ after.position :=
    Parser.unit_atEnd run
  obtain ⟨-, -, sweeps⟩ :=
    Parser.unit_sweeps (Window.whole_closed tokens) _ trivial run
  simp only [shown.1] at sweeps
  obtain ⟨-, nests⟩ :=
    sweeps arena (.refl _) (List.forall_mem_singleton.mpr tidy)
  simp only [ParserState.start, shown.2] at nests
  refine Tokens.clean_of_nests nests fun token listed => ?_
  refine @Window.kind_of_mem_drop_whole tokens token ?_
  have split : after.position =
      (Window.whole tokens).stop +
        (after.position - (Window.whole tokens).stop) := by omega
  rw [split, ← List.drop_drop] at listed
  exact List.mem_of_mem_drop listed

end Tern
