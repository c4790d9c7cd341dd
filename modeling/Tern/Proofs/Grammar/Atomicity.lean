import Tern.Proofs.Grammar.Composed
import Tern.Proofs.Grammar.Productions
import Tern.Proofs.Scope.Undo

namespace Tern

/-!
# Trials are atomic

A parser composed of steps keeps all terms that were there before it, and all
bindings that it makes are written down while a snapshot is outstanding. So a
failed trial leaves no trace. Taking a snapshot changes nothing that the parser
can observe, so a trial that succeeds does what the parser does without it.
-/

/-- All nonterminals are parsed by parsers that are composed of steps. -/
def Rules.AllComposed (rules : Rules) : Prop :=
  ∀ {Value : Type} (nonterminal : Nonterminal Value) (own : List DeclId),
    Composed own (rules.parse nonterminal)

/--
A production over parsers that are composed of steps is composed of steps.
-/
theorem Production.composed
    {place : Place}
    {Value : Type}
    {reads : Value → Bool}
    {parser : Rules → Parser Value}
    (production : Production place reads parser)
    {rules : Rules}
    (composed : rules.AllComposed) :
    Composed place.own (parser rules) := by
  induction production with
  | pure _ => exact .pure _
  | @bind place _ _ before _ _ _ _ _ first rest =>
      refine .bind first fun value => ?_
      simpa using rest value
  | forget _ _ inner => exact inner
  | fail _ => exact .fail _
  | peek _ rest => exact Composed.current.bind rest
  | peekBehind _ _ rest => exact Composed.nextKind.bind rest
  | peekEnd _ _ rest => exact Composed.atEnd.bind rest
  | peekSpan _ rest => exact Composed.currentSpan.bind rest
  | advance _ => exact .advance
  | observe read =>
      exact .observe fun input view => read
        { tokens := input.window.tokens
          names := input.names
          mode := input.mode
          position := view.position
          table := view.table
          current := view.current
          saved := view.saved
          arena := view.arena }
  | respecify change =>
      exact .move fun _ view =>
        ((change view.track.specifiers).1, view.position,
          { view.track with specifiers := (change view.track.specifiers).2 })
  | retemplate _ => exact .retrack _
  | inContext _ _ rest =>
      refine Composed.tracked.bind fun track => ?_
      split
      · exact .failAt _ _
      · exact rest _
  | captureTo terminators => exact .captureTo terminators
  | captureBraces => exact .captureBraces
  | call nonterminal _ _ _ => exact composed nonterminal _
  | angledArgs _ _ =>
      refine .bind ?_ fun _ => (Composed.expect _).bind fun _ => .pure _
      exact (Composed.check _).bind fun _ => .ite (.pure _) (composed _ _)
  | within scope _ inner => exact .within scope inner
  | withTemplate context _ inner => exact .withTemplate context inner
  | either _ _ _ tried instead => exact .either tried instead
  | add extending => exact .add extending
  | addDecl name specifiers form span _ rest =>
      exact .addDecl name specifiers form span rest
  | updateDecl added change =>
      exact .updateDecl added fun view => change view.arena
  | pushScope kind => exact .pushScope kind
  | scopeFor decl kind => exact .scopeFor decl kind
  | bindDecl decl => exact .bindDecl decl

/-- Whatever the bound on nested calls, all nonterminals are parsed in steps. -/
theorem Rules.nested_allComposed (depth : Nat) :
    (nested depth).AllComposed := by
  induction depth with
  | zero =>
      intro Value nonterminal own
      exact .exhaust
  | succ depth inductionHypothesis =>
      intro Value nonterminal own
      have production : Production
          { own := own, inTemplate := true, rank := nonterminal.rank,
            unread := False
            settled := false }
          (fun _ => nonterminal.reads)
            (fun rules => rules.produce nonterminal) :=
        .produce (by simp) (by simp) nonterminal (fun _ => rfl) (by simp) rfl
      exact production.composed inductionHypothesis

/-- The parser of a nonterminal is composed of steps. -/
theorem Composed.parse
    {own : List DeclId}
    {Value : Type}
    (nonterminal : Nonterminal Value) :
    Composed own (Parser.parse nonterminal) :=
  Composed.remaining.bind fun _ => Rules.nested_allComposed _ nonterminal own

namespace Outcome

variable {Failure State Value : Type}

/-- The state left behind, if there is one, has a property. -/
def Leaves (property : State → Prop) : Outcome Failure State Value → Prop
  | .done _ state => property state
  | .failed _ state => property state
  | .exhausted => True

/-- Two runs end in the same way, in states that are related. -/
inductive Parallel (related : State → State → Prop) :
    Outcome Failure State Value → Outcome Failure State Value → Prop where
  | done {state other : State} (value : Value) (states : related state other) :
      Parallel related (.done value state) (.done value other)
  | failed {state other : State} (failure : Failure)
      (states : related state other) :
      Parallel related (.failed failure state) (.failed failure other)
  | exhausted : Parallel related .exhausted .exhausted

end Outcome

namespace ParserState

/-- A state that came out of another one by steps of a parser. -/
structure ChangedSince (base state : ParserState) : Prop where
  scopes : base.scopes.ChangedSince state.scopes
  arena : base.arena.Extends state.arena

namespace ChangedSince

variable {base state : ParserState}

/-- At the beginning there is no change. -/
theorem refl (wellFormed : base.scopes.WellFormed) :
    base.ChangedSince base where
  scopes := .refl wellFormed
  arena := .refl _

/-- Going back to a snapshot gives back the state in which it was taken. -/
theorem restore_snapshot
    (wellFormed : base.scopes.WellFormed)
    (changed : base.snapshot.2.ChangedSince state) :
    state.restore base.snapshot.1 = base := by
  have scopes := Scopes.goBack_mark wellFormed changed.scopes
  have arena : state.arena.rewind base.arena.mark = base.arena :=
    changed.arena.rewind_mark
  simp only [restore, snapshot, scopes, arena, Scopes.enter]

/-- What was changed under a snapshot that is then released has been changed. -/
theorem release
    {after : ParserState}
    (changed : base.ChangedSince state)
    (watched : state.snapshot.2.ChangedSince after) :
    base.ChangedSince after.release where
  scopes := changed.scopes.release watched.scopes
  arena := changed.arena.trans watched.arena

end ChangedSince

end ParserState

/-- A parser composed of steps makes changes that can be taken back. -/
theorem Composed.leaves_changedSince
    {own : List DeclId}
    {Value : Type}
    {parser : Parser Value}
    (composed : Composed own parser)
    (input : ParserInput)
    {base state : ParserState}
    (changed : base.ChangedSince state)
    (past : ∀ decl ∈ own, base.arena.decls.size ≤ decl.raw) :
    (parser input state).Leaves base.ChangedSince := by
  induction composed generalizing base state with
  | pure value =>
      exact changed
  | @bind own First Value parser next _ _ first rest =>
      have ended := first changed past
      simp only [Bind.bind, Action.bind]
      cases ending : parser input state with
      | done value after =>
          rw [ending] at ended
          exact rest value ended past
      | failed error after =>
          rw [ending] at ended
          exact ended
      | exhausted =>
          trivial
  | observe read =>
      exact changed
  | move read =>
      exact { scopes := changed.scopes, arena := changed.arena }
  | fail error =>
      exact changed
  | exhaust =>
      trivial
  | @orElse own Value parser handle _ _ first rest =>
      have ended := first changed past
      simp only [Action.orElse]
      cases ending : parser input state with
      | done value after =>
          rw [ending] at ended
          exact ended
      | failed error after =>
          rw [ending] at ended
          exact rest error ended past
      | exhausted =>
          trivial
  | @speculate own Value keeps parser _ inner =>
      have wellFormed : state.scopes.WellFormed := changed.scopes.wellFormed
      have watched :=
        inner (.refl wellFormed.mark : state.snapshot.2.ChangedSince _)
          (by simp)
      have settled : ∀ (ending : Except ParseError Value) (after : ParserState),
          state.snapshot.2.ChangedSince after →
          base.ChangedSince
            (if keeps ending then after.release
              else after.restore state.snapshot.1) := by
        intro ending after changedInside
        split
        · exact changed.release changedInside
        · rw [changedInside.restore_snapshot wellFormed]
          exact changed
      simp only [Parser.speculate]
      cases ending : parser input state.snapshot.2 with
      | done value after =>
          rw [ending] at watched
          exact settled (.ok value) after watched
      | failed error after =>
          rw [ending] at watched
          exact settled (.error error) after watched
      | exhausted =>
          trivial
  | @within own Value scope parser _ inner =>
      have entered :
          base.ChangedSince { state with scopes := state.scopes.enter scope } :=
        { scopes := changed.scopes.enter scope, arena := changed.arena }
      have ended := inner entered past
      simp only [Parser.within, Bind.bind, Action.bind, Parser.currentScope,
        Action.state, Pure.pure, Action.pure, Action.modify, Action.ensure]
      cases ending :
          parser input { state with scopes := state.scopes.enter scope } with
      | done value after =>
          rw [ending] at ended
          exact { scopes := ended.scopes.enter _, arena := ended.arena }
      | failed error after =>
          rw [ending] at ended
          exact { scopes := ended.scopes.enter _, arena := ended.arena }
      | exhausted =>
          trivial
  | @withTemplate own Value context parser _ inner =>
      have entered : base.ChangedSince
          { state with track := { state.track with template? := some context }
            } :=
        { scopes := changed.scopes, arena := changed.arena }
      have ended := inner entered past
      simp only [Parser.withTemplate, Bind.bind, Action.bind, Parser.tracked,
        Action.state, Pure.pure, Action.pure, Parser.retrack, Action.modify,
        Action.ensure]
      cases ending : parser input
          { state with track := { state.track with template? := some context } }
            with
      | done value after =>
          rw [ending] at ended
          exact { scopes := ended.scopes, arena := ended.arena }
      | failed error after =>
          rw [ending] at ended
          exact { scopes := ended.scopes, arena := ended.arena }
      | exhausted =>
          trivial
  | add extending =>
      exact { scopes := changed.scopes,
              arena := changed.arena.trans (extending _) }
  | addDecl name specifiers form span _ rest =>
      have added : base.arena.decls.size ≤ state.arena.decls.size :=
        changed.arena.decls.size_le
      refine rest { raw := state.arena.decls.size } ?_ ?_
      · exact
          { scopes := changed.scopes
            arena := changed.arena.trans (state.arena.extends_addDecl _) }
      · intro decl member
        rcases List.mem_cons.mp member with isNew | isOwn
        · subst isNew
          exact added
        · exact past decl isOwn
  | updateDecl added change =>
      exact
        { scopes := changed.scopes
          arena := changed.arena.updateDecl (past _ added) _ }
  | pushScope kind =>
      exact { scopes := changed.scopes.push kind _, arena := changed.arena }
  | scopeFor decl kind =>
      exact { scopes := changed.scopes.scopeFor decl _ kind,
              arena := changed.arena }
  | bindDecl decl =>
      exact { scopes := changed.scopes.declare _ _ decl,
              arena := changed.arena }

/--
The changes that a parser makes to scopes are recorded, whatever the arena
holds.
-/
theorem Composed.leaves_scopes_changedSince
    {own : List DeclId}
    {Value : Type}
    {parser : Parser Value}
    (composed : Composed own parser)
    (input : ParserInput)
    {base : Scopes}
    {state : ParserState}
    (changed : base.ChangedSince state.scopes) :
    (parser input state).Leaves fun after =>
      base.ChangedSince after.scopes := by
  have fromEmpty : ParserState.ChangedSince
      { state with scopes := base, arena := Arena.empty } state :=
    { scopes := changed
      arena := by
        constructor <;> intro place inBounds <;>
          simp [Arena.empty] at inBounds }
  have ended :=
    composed.leaves_changedSince input fromEmpty (by simp [Arena.empty])
  cases ending : parser input state with
  | done value after =>
      rw [ending] at ended
      exact ended.scopes
  | failed error after =>
      rw [ending] at ended
      exact ended.scopes
  | exhausted =>
      trivial

/--
States of two runs that differ in nothing but the marks outstanding when they
began, and have written down the same changes if both write down any.
-/
structure ParserState.Abreast
    (first second : Scopes)
    (state other : ParserState) :
    Prop where
  view : state.view = other.view
  changed : first.ChangedSince state.scopes
  otherChanged : second.ChangedSince other.scopes
  journals : first.outstanding ≠ 0 → second.outstanding ≠ 0 →
    ∃ made, state.scopes.journal = made ++ first.journal ∧
      other.scopes.journal = made ++ second.journal

/-- States that look alike differ in nothing but the bookkeeping of marks. -/
private theorem ParserState.exists_rebooked_of_view_eq
    {state other : ParserState}
    (view : state.view = other.view) :
    ∃ journal outstanding,
      other = { state with
        scopes :=
          { state.scopes with journal := journal, outstanding := outstanding }
            } := by
  refine ⟨other.scopes.journal, other.scopes.outstanding, ?_⟩
  obtain ⟨position, track, ⟨table, current, saved, journal, outstanding⟩,
      arena⟩ := other
  simp only [ParserState.view, ParserView.mk.injEq] at view
  simp [view]

namespace ParserState.Abreast

variable {first second : Scopes} {state other next otherNext : ParserState}

/-- Steps that write the same changes down stay abreast. -/
private theorem write
    (abreast : Abreast first second state other)
    (view : next.view = otherNext.view)
    (changed : first.ChangedSince next.scopes)
    (otherChanged : second.ChangedSince otherNext.scopes)
    (changes : List ScopeChange)
    (journal : state.scopes.outstanding ≠ 0 →
      next.scopes.journal = changes ++ state.scopes.journal)
    (otherJournal : other.scopes.outstanding ≠ 0 →
      otherNext.scopes.journal = changes ++ other.scopes.journal) :
    Abreast first second next otherNext where
  view := view
  changed := changed
  otherChanged := otherChanged
  journals := by
    intro marked otherMarked
    obtain ⟨made, inFirst, inSecond⟩ := abreast.journals marked otherMarked
    rw [← abreast.changed.outstanding] at marked
    rw [← abreast.otherChanged.outstanding] at otherMarked
    exact ⟨changes ++ made, by simp [journal marked, inFirst],
      by simp [otherJournal otherMarked, inSecond]⟩

/-- Steps that leave the bookkeeping of marks alone stay abreast. -/
private theorem keep
    (abreast : Abreast first second state other)
    (view : next.view = otherNext.view)
    (changed : first.ChangedSince next.scopes)
    (otherChanged : second.ChangedSince otherNext.scopes)
    (journal : next.scopes.journal = state.scopes.journal)
    (otherJournal : otherNext.scopes.journal = other.scopes.journal) :
    Abreast first second next otherNext :=
  abreast.write view changed otherChanged [] (fun _ => journal)
    (fun _ => otherJournal)

/-- Two runs that watch from the same moment on are abreast. -/
private theorem snapshot
    (abreast : Abreast first second state other) :
    Abreast state.scopes.mark.2 other.scopes.mark.2 state.snapshot.2
      other.snapshot.2 where
  view := abreast.view
  changed := .refl abreast.changed.wellFormed.mark
  otherChanged := .refl abreast.otherChanged.wellFormed.mark
  journals := fun _ _ => ⟨[], rfl, rfl⟩

/-- Two runs that release their snapshots are abreast as they were before. -/
private theorem release
    (abreast : Abreast first second state other)
    (watched : Abreast state.scopes.mark.2 other.scopes.mark.2 next otherNext) :
    Abreast first second next.release otherNext.release where
  view := watched.view
  changed := abreast.changed.release watched.changed
  otherChanged := abreast.otherChanged.release watched.otherChanged
  journals := by
    intro marked otherMarked
    obtain ⟨earlier, before, otherBefore⟩ := abreast.journals marked otherMarked
    obtain ⟨later, after, otherAfter⟩ :=
      watched.journals (by simp [Scopes.mark])
      (by simp [Scopes.mark])
    have outstanding := watched.changed.outstanding
    have otherOutstanding := watched.otherChanged.outstanding
    simp only [Scopes.mark] at after otherAfter outstanding otherOutstanding
    rw [abreast.changed.outstanding] at outstanding
    rw [abreast.otherChanged.outstanding] at otherOutstanding
    refine ⟨later ++ earlier, ?_, ?_⟩
    · simp [ParserState.release, Scopes.release, outstanding, marked, after,
        before]
    · simp [ParserState.release, Scopes.release, otherOutstanding, otherMarked,
        otherAfter,
        otherBefore]

/-- Making the same scope current in both stays abreast. -/
private theorem enter
    (abreast : Abreast first second state other)
    (scope : ScopeId) :
    Abreast first second
      { state with scopes := state.scopes.enter scope }
      { other with scopes := other.scopes.enter scope } := by
  obtain ⟨journal, outstanding, rfl⟩ := exists_rebooked_of_view_eq abreast.view
  exact abreast.keep rfl (abreast.changed.enter scope)
    (abreast.otherChanged.enter scope) rfl rfl

/-- Keeping track of the same in both stays abreast. -/
private theorem retrack
    (abreast : Abreast first second state other)
    (track : ParserTrack) :
    Abreast first second { state with track := track }
      { other with track := track } := by
  obtain ⟨journal, outstanding, rfl⟩ := exists_rebooked_of_view_eq abreast.view
  exact abreast.keep rfl abreast.changed abreast.otherChanged rfl rfl

end ParserState.Abreast

open ParserState in
/-- Two runs of a parser composed of steps that begin abreast end abreast. -/
private theorem Composed.parallel
    {own : List DeclId}
    {Value : Type}
    {parser : Parser Value}
    (composed : Composed own parser)
    (input : ParserInput)
    {first second : Scopes}
    {state other : ParserState}
    (abreast : Abreast first second state other) :
    Outcome.Parallel (Abreast first second) (parser input state)
      (parser input other) := by
  induction composed generalizing first second state other with
  | pure value =>
      exact .done value abreast
  | @bind own First Value parser next _ _ inner rest =>
      have ended := inner abreast
      simp only [Bind.bind, Action.bind]
      generalize parser input state = ending at ended
      generalize parser input other = otherEnding at ended
      cases ended with
      | done value states => exact rest value states
      | failed error states => exact .failed error states
      | exhausted => exact .exhausted
  | observe read =>
      obtain ⟨journal, outstanding, rfl⟩ :=
        exists_rebooked_of_view_eq abreast.view
      exact .done _ abreast
  | move read =>
      obtain ⟨journal, outstanding, rfl⟩ :=
        exists_rebooked_of_view_eq abreast.view
      exact .done _ (abreast.keep rfl abreast.changed abreast.otherChanged
        rfl rfl)
  | fail error =>
      exact .failed error abreast
  | exhaust =>
      exact .exhausted
  | @orElse own Value parser handle _ _ inner rest =>
      have ended := inner abreast
      simp only [Action.orElse]
      generalize parser input state = ending at ended
      generalize parser input other = otherEnding at ended
      cases ended with
      | done value states => exact .done value states
      | failed error states => exact rest error states
      | exhausted => exact .exhausted
  | @speculate own Value keeps parser composed inner =>
      have watched := inner abreast.snapshot
      have left := composed.leaves_changedSince input
        (.refl abreast.changed.wellFormed.mark :
          state.snapshot.2.ChangedSince _) (by simp)
      have otherLeft := composed.leaves_changedSince input
        (.refl abreast.otherChanged.wellFormed.mark :
          other.snapshot.2.ChangedSince _) (by simp)
      have settled :
          ∀ (ending : Except ParseError Value) (after otherAfter : ParserState),
          Abreast state.scopes.mark.2 other.scopes.mark.2 after otherAfter →
          state.snapshot.2.ChangedSince after →
          other.snapshot.2.ChangedSince otherAfter →
          Abreast first second
            (if keeps ending then after.release
              else after.restore state.snapshot.1)
            (if keeps ending then otherAfter.release
              else otherAfter.restore other.snapshot.1) := by
        intro ending after otherAfter states changed otherChanged
        split
        · exact abreast.release states
        · rw [changed.restore_snapshot abreast.changed.wellFormed,
            otherChanged.restore_snapshot abreast.otherChanged.wellFormed]
          exact abreast
      simp only [Parser.speculate]
      generalize parser input state.snapshot.2 = ending at watched left
      generalize parser input other.snapshot.2 =
        otherEnding at watched otherLeft
      cases watched with
      | done value states =>
          exact .done _ (settled (.ok value) _ _ states left otherLeft)
      | failed error states =>
          exact .done _ (settled (.error error) _ _ states left otherLeft)
      | exhausted =>
          exact .exhausted
  | @within own Value scope parser _ inner =>
      have ended := inner (abreast.enter scope)
      have current : state.scopes.current = other.scopes.current :=
        congrArg ParserView.current abreast.view
      simp only [Parser.within, Bind.bind, Action.bind, Parser.currentScope,
        Action.state, Pure.pure, Action.pure, Action.modify, Action.ensure,
        current]
      generalize parser input
        { state with scopes := state.scopes.enter scope } = ending at ended
      generalize parser input
        { other with scopes := other.scopes.enter scope } = otherEnding
        at ended
      cases ended with
      | done value states =>
          exact .done value (states.enter _)
      | failed error states =>
          exact .failed error (states.enter _)
      | exhausted =>
          exact .exhausted
  | @withTemplate own Value context parser _ inner =>
      have track : state.track = other.track :=
        congrArg ParserView.track abreast.view
      have ended :=
        inner (abreast.retrack { state.track with template? := some context })
      rw [track] at ended
      simp only [Parser.withTemplate, Bind.bind, Action.bind, Parser.tracked,
        Action.state, Pure.pure, Action.pure, Parser.retrack, Action.modify,
        Action.ensure, track]
      generalize parser input
        { state with track := { other.track with template? := some context } } =
          ending at ended
      generalize parser input
        { other with track := { other.track with template? := some context } } =
          otherEnding
        at ended
      cases ended with
      | @done after otherAfter value states =>
          have sameTrack : after.track = otherAfter.track :=
            congrArg ParserView.track states.view
          simp only [sameTrack]
          exact .done _ (states.retrack _)
      | @failed after otherAfter error states =>
          have sameTrack : after.track = otherAfter.track :=
            congrArg ParserView.track states.view
          simp only [sameTrack]
          exact .failed error (states.retrack _)
      | exhausted =>
          exact .exhausted
  | add extending =>
      obtain ⟨journal, outstanding, rfl⟩ :=
        exists_rebooked_of_view_eq abreast.view
      exact .done _ (abreast.keep rfl abreast.changed abreast.otherChanged
        rfl rfl)
  | addDecl name specifiers form span _ rest =>
      obtain ⟨journal, outstanding, rfl⟩ :=
        exists_rebooked_of_view_eq abreast.view
      exact rest _ (abreast.keep rfl abreast.changed abreast.otherChanged
        rfl rfl)
  | updateDecl added change =>
      obtain ⟨journal, outstanding, rfl⟩ :=
        exists_rebooked_of_view_eq abreast.view
      exact .done _ (abreast.keep rfl abreast.changed abreast.otherChanged
        rfl rfl)
  | pushScope kind =>
      obtain ⟨journal, outstanding, rfl⟩ :=
        exists_rebooked_of_view_eq abreast.view
      refine .done _ (abreast.write (by simp [view, Scopes.push])
        (abreast.changed.push kind _) (abreast.otherChanged.push kind _)
          [.scopeAdded] ?_ ?_)
      · intro marked
        simp_all [Scopes.push, Scopes.record]
      · intro marked
        simp_all [Scopes.push, Scopes.record]
  | scopeFor decl kind =>
      obtain ⟨journal, outstanding, rfl⟩ :=
        exists_rebooked_of_view_eq abreast.view
      have changed := abreast.changed.scopeFor decl state.scopes.current kind
      have otherChanged :=
        abreast.otherChanged.scopeFor decl state.scopes.current kind
      cases found : state.scopes.savedScope? decl with
      | some scope =>
          have foundAlso : Scopes.savedScope?
              { state.scopes with journal := journal,
                                  outstanding := outstanding } decl =
                some scope :=
            found
          simp only [Parser.scopeFor, Parser.inScopes, Action.update,
            Scopes.scopeFor, found,
            foundAlso]
          exact .done scope abreast
      | none =>
          have foundAlso : Scopes.savedScope?
              { state.scopes with journal := journal,
                                  outstanding := outstanding } decl =
                none :=
            found
          simp only [Parser.scopeFor, Parser.inScopes, Action.update]
          simp only [Scopes.scopeFor, found, foundAlso]
            at changed otherChanged ⊢
          refine .done _ (abreast.write (by simp [view, Scopes.push]) changed
            otherChanged
            [.scopeSaved decl, .scopeAdded] ?_ ?_)
          · intro marked
            simp_all [Scopes.push, Scopes.record]
          · intro marked
            simp_all [Scopes.push, Scopes.record]
  | bindDecl decl =>
      obtain ⟨journal, outstanding, rfl⟩ :=
        exists_rebooked_of_view_eq abreast.view
      refine .done
        _ (abreast.write (by simp [view, Scopes.declare, Scopes.findLocal?])
        (abreast.changed.declare _ _ decl)
          (abreast.otherChanged.declare _ _ decl)
        [.declared state.scopes.current (state.arena.declKey decl)] ?_ ?_)
      · intro marked
        simp_all [Scopes.declare, Scopes.record]
      · intro marked
        simp_all [Scopes.declare, Scopes.record]

namespace ParserState.Abreast

/--
A run that has released its snapshot ends in the very state of a run without
one.
-/
private theorem release_eq
    {base state other : ParserState}
    (abreast : Abreast base.scopes.mark.2 base.scopes state other) :
    state.release = other := by
  have outstanding := abreast.changed.outstanding
  have otherOutstanding := abreast.otherChanged.outstanding
  have dropped := abreast.otherChanged.wellFormed.journalDropped
  have journals := abreast.journals (by simp [Scopes.mark])
  obtain ⟨journal, marks, rfl⟩ := exists_rebooked_of_view_eq abreast.view
  simp only [Scopes.mark] at outstanding otherOutstanding dropped journals
  have journalKept :
      (if state.scopes.outstanding - 1 = 0 then [] else state.scopes.journal) =
        journal := by
    by_cases unmarked : base.scopes.outstanding = 0
    · rw [dropped (by omega), if_pos (by omega)]
    · obtain ⟨made, journal, otherJournal⟩ := journals unmarked
      rw [if_neg (by omega), journal, otherJournal]
  simp only [ParserState.release, Scopes.release, journalKept]
  simp [outstanding, otherOutstanding]

end ParserState.Abreast

/--
A trial fails in the state in which it began, and is done as without the trial.
-/
private theorem Composed.attempt_eq
    {Value : Type}
    {parser : Parser Value}
    (composed : Composed [] parser)
    (input : ParserInput)
    {state : ParserState}
    (wellFormed : state.scopes.WellFormed) :
    Parser.attempt parser input state =
      match parser input state with
      | .done value after => .done value after
      | .failed failure _ => .failed failure state
      | .exhausted => .exhausted := by
  have left := composed.leaves_changedSince input
    (.refl wellFormed.mark : state.snapshot.2.ChangedSince _) (by simp)
  have watching :
      ParserState.Abreast state.scopes.mark.2 state.scopes state.snapshot.2
        state :=
    { view := rfl
      changed := .refl wellFormed.mark
      otherChanged := .refl wellFormed
      journals := fun _ _ => ⟨[], rfl, rfl⟩ }
  have ended := composed.parallel input watching
  simp only [Parser.attempt]
  generalize parser input state.snapshot.2 = watched at ended left
  generalize parser input state = ending at ended
  cases ended with
  | done value states =>
      simp only [states.release_eq]
  | failed failure states =>
      simp only [ParserState.ChangedSince.restore_snapshot wellFormed left]
  | exhausted =>
      rfl

/--
A parser tried first makes no difference to the one that runs in its place.
-/
theorem Composed.either_eq
    {Value : Type}
    {first : Parser Value}
    (composed : Composed [] first)
    (second : Parser Value)
    (input : ParserInput)
    {state : ParserState}
    (wellFormed : state.scopes.WellFormed) :
    Parser.either first second input state =
      match first input state with
      | .done value after => .done value after
      | .failed _ _ => second input state
      | .exhausted => .exhausted := by
  simp only [Parser.either, Parser.trial, Bind.bind, Action.bind, Action.orElse,
    Functor.map]
  rw [composed.attempt_eq input wellFormed]
  cases first input state <;> rfl

/--
A trial of any parser composed of steps, which the whole grammar is, leaves no
trace if it fails and makes no difference if it is done. So a parser tried first
makes no difference to the one that runs in its place.
-/
theorem attempt_atomic :
    (∀ depth, (Rules.nested depth).AllComposed) ∧
      ∀ {Value : Type} {parser : Parser Value} (_ : Composed [] parser) (input :
        ParserInput)
        {state : ParserState} (_ : state.scopes.Reachable),
        Parser.attempt parser input state =
            (match parser input state with
            | .done value after => .done value after
            | .failed failure _ => .failed failure state
            | .exhausted => .exhausted) ∧
          ∀ second : Parser Value,
            Parser.either parser second input state =
              match parser input state with
              | .done value after => .done value after
              | .failed _ _ => second input state
              | .exhausted => .exhausted := by
  refine ⟨Rules.nested_allComposed, ?_⟩
  intro Value parser composed input state reachable
  have wellFormed := reachable.wellFormed
  exact ⟨composed.attempt_eq input wellFormed,
    fun second => composed.either_eq second input wellFormed⟩

/-- A template whose parameter is not followed by a declaration. -/
def templateOfNothing : ParserInput :=
  { window := .whole
      #[{ kind := .keyword .templateWord, span := { start := 0, stop := 8 } },
        { kind := .symbol .less, span := { start := 8, stop := 9 } },
        { kind := .keyword .typenameWord, span := { start := 9, stop := 17 } },
        { kind := .identifier { number := 1 },
          span := { start := 18, stop := 19 } },
        { kind := .symbol .greater, span := { start := 19, stop := 20 } },
        { kind := .symbol .semicolon, span := { start := 20, stop := 21 } }]
    names := { texts := ["", "T"] }
    mode := .eager }

/--
The template fails behind its parameter, having added two declarations, a scope
and a binding. Tried, it leaves the scopes and the arena as they were at first.
-/
theorem attempt_atomic_templateOfNothing :
    Composed [] (Parser.parse .declaration) ∧
      Scopes.initial.Reachable ∧
        Parser.attempt (Parser.parse .declaration) templateOfNothing
            (.start templateOfNothing.window .initial .empty) =
          .failed
            (.of (.unexpectedToken "a declaration" (.symbol .semicolon))
              { start := 20, stop := 21 })
            (.start templateOfNothing.window .initial .empty) := by
  refine ⟨.parse _, .initial, ?_⟩
  have reachable :
      (ParserState.start templateOfNothing.window .initial
        .empty).scopes.Reachable :=
    .initial
  have attempted :=
    (attempt_atomic.2 (.parse .declaration) templateOfNothing reachable).1
  rw [attempted]
  rfl

end Tern
