import Tern.Proofs.Elaboration.Completion
import Tern.Proofs.Grammar.Runs

namespace Tern

/-!
# Phases that are raised

Where declarations are only let reach phases, nothing else changes in the arena,
and no declaration but those is touched.
-/

namespace Phase

/-- No phase is later than the last one. -/
theorem eq_of_finished
    {older newer : Phase}
    (finished : older = .definitionElaborated)
    (later : older.rank ≤ newer.rank) :
    newer = .definitionElaborated := by
  subst finished
  cases newer <;> simp_all [rank]

theorem latest_finished (phase : Phase) :
    phase.latest .definitionElaborated = .definitionElaborated := by
  cases phase <;> rfl

end Phase

namespace Arena

/-- Some declarations may have reached later phases; all else is as it was. -/
structure Rephased (raised : DeclId → Prop) (older newer : Arena) : Prop where
  arena : newer = { older with decls := newer.decls }
  size : newer.decls.size = older.decls.size
  decl : ∀ decl, newer.decl decl =
    { older.decl decl with phase := (newer.decl decl).phase }
  rank : ∀ decl, (older.decl decl).phase.rank ≤ (newer.decl decl).phase.rank
  others : ∀ decl, ¬ raised decl → newer.decl decl = older.decl decl

namespace Rephased

variable {raised more : DeclId → Prop} {older middle newer : Arena}

theorem refl (arena : Arena) : arena.Rephased raised arena where
  arena := rfl
  size := rfl
  decl _ := rfl
  rank _ := Nat.le_refl _
  others _ _ := rfl

theorem trans
    (first : older.Rephased raised middle)
    (second : middle.Rephased raised newer) :
    older.Rephased raised newer where
  arena := by rw [second.arena, first.arena]
  size := second.size.trans first.size
  decl decl := by rw [second.decl decl, first.decl decl]
  rank decl := Nat.le_trans (first.rank decl) (second.rank decl)
  others decl untouched :=
    (second.others decl untouched).trans (first.others decl untouched)

theorem weaken
    (rephased : older.Rephased raised newer)
    (order : ∀ decl, raised decl → more decl) :
    older.Rephased more newer :=
  { rephased with
    others := fun decl untouched => rephased.others decl fun reached =>
      untouched (order decl reached) }

/-- A declaration is let reach a phase. -/
theorem raise (arena : Arena) (decl : DeclId) (phase : Phase) :
    arena.Rephased (· = decl) (arena.updateDecl decl fun old =>
      old.raiseTo phase) := by
  have cases (other : DeclId) :
      (arena.updateDecl decl fun old => old.raiseTo phase).decl other =
        arena.decl other ∨
        (arena.updateDecl decl fun old => old.raiseTo phase).decl other =
          (arena.decl other).raiseTo phase := by
    by_cases same : other = decl
    · subst same
      by_cases held : arena.Holds (.decl other)
      · exact .inr (decl_updateDecl held _)
      · have past : arena.decls.size ≤ other.raw := Nat.le_of_not_lt held
        exact .inl
          (by simp [Arena.decl, updateDecl, Array.getD_eq_getD_getElem?, past])
    · exact .inl (decl_updateDecl_of_ne same _)
  refine ⟨rfl, by simp [updateDecl], fun other => ?_, fun other => ?_,
    fun other apart => decl_updateDecl_of_ne apart _⟩
  · rcases cases other with same | now
    · rw [same]
    · rw [now]
      rfl
  · rcases cases other with same | now
    · exact Nat.le_of_eq (congrArg (·.phase.rank) same.symm)
    · rw [now, Decl.raiseTo, Phase.latest]
      dsimp only
      split
      next lower => exact Nat.le_of_lt lower
      next => exact Nat.le_refl _

variable (rephased : older.Rephased raised newer)

include rephased

theorem form (decl : DeclId) :
    (newer.decl decl).form = (older.decl decl).form := by
  rw [rephased.decl decl]

theorem name (name : NameId) : newer.name name = older.name name := by
  rw [rephased.arena]
  rfl

end Rephased

end Arena

namespace Elab

variable {input : ElabInput} {state after : ElabState}

/-- Declarations are let reach a phase. -/
theorem raiseAll_done
    {decls : List DeclId}
    {phase : Phase}
    {value : Unit}
    (run : raiseAll decls phase input state = .done value after) :
    ∃ arena, after = { state with arena := arena } ∧
      state.arena.Rephased (· ∈ decls) arena ∧
      ∀ fixed, state.arena.Later fixed arena := by
  induction decls generalizing state with
  | nil =>
      cases run
      exact ⟨_, rfl, .refl _, fun _ => .refl _⟩
  | cons decl decls inductionHypothesis =>
      obtain ⟨_, middle, raised, run⟩ := Action.done_of_bind run
      cases raised
      obtain ⟨arena, same, rephased, later⟩ := inductionHypothesis run
      refine ⟨arena, same, ?_, fun fixed => ?_⟩
      · exact ((Arena.Rephased.raise _ decl phase).weaken
          (by rintro _ rfl; simp)).trans
          (rephased.weaken fun _ => List.mem_cons_of_mem decl)
      · exact (Arena.Later.single (Arena.progress_raise decl phase) fun _ _ =>
          rfl).trans (later fixed)

end Elab

end Tern
