import Tern.Proofs.Scope.Rollback

namespace Tern

/-!
# Runs of calls under marks

Marks are set among calls and released or gone back to in the order of a stack,
and some of them may still be outstanding. What the scopes held when an
outstanding mark was set stays recorded in the journal, whatever is called
since. So an invariant of the calls survives going back as well: it holds of
what the scopes hold now and of what they held at each outstanding mark.
-/

namespace Scopes

/-- What the scopes held at a mark, as the journal tells. -/
def contentsAt (scopes : Scopes) (mark : ScopesMark) : ScopeContents :=
  (scopes.journal.take (scopes.journal.length - mark.length)).foldl
    ScopeContents.undo
    scopes.contents

/-- When a mark is set, the scopes hold what they hold. -/
private theorem contentsAt_mark
    (scopes : Scopes) :
    scopes.mark.2.contentsAt scopes.mark.1 = scopes.contents := by
  simp only [contentsAt, mark, Nat.sub_self, List.take_zero, List.foldl_nil]
  rfl

/-- After going back to a mark the scopes hold what they held at the mark. -/
private theorem contents_goBack
    (scopes : Scopes)
    (mark : ScopesMark) :
    (scopes.goBack mark).contents = scopes.contentsAt mark :=
  contents_foldl_undo _ scopes

/-- Undoing changes leaves the number of outstanding marks. -/
private theorem outstanding_foldl_undo
    (made : List ScopeChange)
    (scopes : Scopes) :
    (made.foldl undo scopes).outstanding = scopes.outstanding := by
  have rebooked :=
    congrArg outstanding
      (foldl_undo_rebooked made scopes scopes.current scopes.journal
        scopes.outstanding)
  exact rebooked

/-- Going back gives a mark back. -/
private theorem outstanding_goBack
    (scopes : Scopes)
    (mark : ScopesMark) :
    (scopes.goBack mark).outstanding = scopes.outstanding - 1 :=
  congrArg (· - 1) (outstanding_foldl_undo _ scopes)

/--
While other marks are outstanding, what was written down before a mark stays.
-/
private theorem journal_goBack
    {scopes : Scopes}
    (marked : scopes.outstanding - 1 ≠ 0)
    (mark : ScopesMark) :
    (scopes.goBack mark).journal =
      scopes.journal.drop (scopes.journal.length - mark.length) := by
  simp [goBack, release, outstanding_foldl_undo, marked]

/--
What the scopes held at an earlier mark is not forgotten by going back to a
later one.
-/
private theorem contentsAt_goBack
    {scopes : Scopes}
    {mark earlier : ScopesMark}
    (marked : scopes.outstanding - 1 ≠ 0)
    (before : earlier.length ≤ mark.length)
    (made : mark.length ≤ scopes.journal.length) :
    (scopes.goBack mark).contentsAt earlier = scopes.contentsAt earlier := by
  have split :
      scopes.journal.take (scopes.journal.length - earlier.length) =
        scopes.journal.take (scopes.journal.length - mark.length) ++
          (scopes.journal.drop (scopes.journal.length - mark.length)).take
            (mark.length - earlier.length) := by
    rw [← List.take_add]
    congr 1
    omega
  rw [contentsAt, contentsAt, contents_goBack, journal_goBack marked,
    contentsAt, split, List.foldl_append, List.length_drop]
  congr 2
  omega

/-- A call leaves what the scopes held at the marks set before it. -/
private theorem contentsAt_call
    {scopes : Scopes}
    (wellFormed : scopes.WellFormed)
    (marked : scopes.outstanding ≠ 0)
    (call : ScopeCall)
    {mark : ScopesMark}
    (made : mark.length ≤ scopes.journal.length) :
    (scopes.call call).contentsAt mark = scopes.contentsAt mark ∧
      mark.length ≤ (scopes.call call).journal.length := by
  have counted := call_countedIn scopes wellFormed.journalDropped call
  have taken := (call_takenBackFrom scopes wellFormed.noEmptySet call).contents
  rw [contents_unwound] at taken
  have journal :
      (scopes.call call).journal = (scopes.watched.call call).journal ++
        scopes.journal := by
    rw [counted]
    simp [countedIn, marked]
  have contents : (scopes.call call).contents =
      (scopes.watched.call call).contents := by
    rw [counted]
    rfl
  have further :
      (scopes.call call).journal.length - mark.length =
        (scopes.watched.call call).journal.length +
          (scopes.journal.length - mark.length) := by
    rw [journal, List.length_append]
    omega
  constructor
  · rw [contentsAt, further, journal, contents, List.take_length_add_append,
      List.foldl_append, taken]
    rfl
  · rw [journal, List.length_append]
    omega

/-- Calls keep scopes well-formed. -/
theorem WellFormed.call
    {scopes : Scopes}
    (wellFormed : scopes.WellFormed)
    (call : ScopeCall) :
    (scopes.call call).WellFormed := by
  have taken := call_takenBackFrom scopes wellFormed.noEmptySet call
  rw [call_countedIn scopes wellFormed.journalDropped call]
  exact
    { noEmptySet := taken.noEmptySet
      journalDropped := fun unmarked => if_pos unmarked }

/-- A call leaves the number of outstanding marks. -/
private theorem outstanding_call
    {scopes : Scopes}
    (wellFormed : scopes.WellFormed)
    (call : ScopeCall) :
    (scopes.call call).outstanding = scopes.outstanding := by
  rw [call_countedIn scopes wellFormed.journalDropped call]
  rfl

end Scopes

/-- A single change, of scopes that are there. -/
def ScopeCall.Changes (scopes : Scopes) : ScopeCall → Prop
  | .enter _ => True
  | .push _ parent => parent.raw < scopes.table.size
  | .scopeFor _ parent _ => parent.raw < scopes.table.size
  | .declare scope _ _ => scope.raw < scopes.table.size
  | .replaceMember scope _ _ _ => scope.raw < scopes.table.size
  | .removeMember scope _ _ => scope.raw < scopes.table.size
  | .released _ => False
  | .takenBack _ => False

namespace Scopes

/--
Changes made from some scopes on, with marks set among them and released or gone
back to in the order of a stack. Of the marks that were outstanding before, some
may be released, but none is gone back to. The lists are the outstanding marks,
latest first: those set since, and those left of the ones from before.
-/
inductive Onward (before : Scopes) (inherited : List ScopesMark) :
    List ScopesMark → List ScopesMark → Scopes → Prop where
  | refl : Onward before inherited [] inherited before
  | call {own left : List ScopesMark} {scopes : Scopes}
      (run : Onward before inherited own left scopes) (call : ScopeCall)
      (changes : call.Changes scopes) :
      Onward before inherited own left (scopes.call call)
  | mark {own left : List ScopesMark} {scopes : Scopes}
      (run : Onward before inherited own left scopes) :
      Onward before inherited (scopes.mark.1 :: own) left scopes.mark.2
  | release {own left : List ScopesMark} {latest : ScopesMark} {scopes : Scopes}
      (run : Onward before inherited (latest :: own) left scopes) :
      Onward before inherited own left scopes.release
  | releaseInherited {left : List ScopesMark} {latest : ScopesMark}
      {scopes : Scopes}
      (run : Onward before inherited [] (latest :: left) scopes) :
      Onward before inherited [] left scopes.release
  | goBack {own left : List ScopesMark} {latest : ScopesMark} {scopes : Scopes}
      (run : Onward before inherited (latest :: own) left scopes) :
      Onward before inherited own left (scopes.goBack latest)

/--
Scopes made from those before anything is parsed, with their outstanding marks.
-/
def Disciplined (marks : List ScopesMark) (scopes : Scopes) : Prop :=
  Onward .initial [] marks [] scopes

/-- What outstanding marks, latest first, say of the scopes under them. -/
structure Marked (scopes : Scopes) (marks : List ScopesMark) : Prop where
  wellFormed : scopes.WellFormed
  counted : scopes.outstanding = marks.length
  /-- No mark is later than what is written down. -/
  made : ∀ mark ∈ marks, mark.length ≤ scopes.journal.length
  latestFirst : marks.Pairwise fun later earlier =>
    earlier.length ≤ later.length

namespace Marked

variable {scopes : Scopes} {marks : List ScopesMark} {latest : ScopesMark}

/-- Before anything is parsed no mark is outstanding. -/
theorem initial : Marked .initial [] where
  wellFormed := .initial
  counted := rfl
  made := by simp
  latestFirst := .nil

/-- Calls are made under the same marks. -/
theorem call
    (marked : scopes.Marked marks)
    (call : ScopeCall) :
    (scopes.call call).Marked marks where
  wellFormed := marked.wellFormed.call call
  counted := (outstanding_call marked.wellFormed call).trans marked.counted
  made := by
    intro mark member
    have outstanding : scopes.outstanding ≠ 0 := by
      rw [marked.counted]
      exact List.length_eq_zero_iff.not.mpr (List.ne_nil_of_mem member)
    exact (contentsAt_call marked.wellFormed outstanding call
      (marked.made mark member)).2
  latestFirst := marked.latestFirst

/-- A mark that is set is the latest one. -/
private theorem mark
    (marked : scopes.Marked marks) :
    scopes.mark.2.Marked (scopes.mark.1 :: marks) where
  wellFormed := marked.wellFormed.mark
  counted := by simp [Scopes.mark, marked.counted]
  made := by
    intro set member
    rcases List.mem_cons.mp member with rfl | earlier
    · exact Nat.le_refl _
    · exact marked.made set earlier
  latestFirst := List.pairwise_cons.mpr ⟨marked.made, marked.latestFirst⟩

/-- Releasing the latest mark leaves the others. -/
private theorem release
    (marked : scopes.Marked (latest :: marks)) :
    scopes.release.Marked marks where
  wellFormed := marked.wellFormed.release
  counted := by simp [Scopes.release, marked.counted]
  made := by
    intro mark member
    have outstanding : scopes.outstanding - 1 ≠ 0 := by
      simpa [marked.counted] using List.ne_nil_of_mem member
    simpa [Scopes.release, outstanding] using marked.made mark
      (List.mem_cons_of_mem _ member)
  latestFirst := (List.pairwise_cons.mp marked.latestFirst).2

/-- Going back to the latest mark leaves the others. -/
private theorem goBack
    (marked : scopes.Marked (latest :: marks)) :
    (scopes.goBack latest).Marked marks where
  wellFormed := marked.wellFormed.goBack latest
  counted := by
    rw [outstanding_goBack, marked.counted, List.length_cons,
      Nat.add_sub_cancel]
  made := by
    intro mark member
    have outstanding : scopes.outstanding - 1 ≠ 0 := by
      simpa [marked.counted] using List.ne_nil_of_mem member
    have earlier := (List.pairwise_cons.mp marked.latestFirst).1 mark member
    have written := marked.made latest List.mem_cons_self
    rw [journal_goBack outstanding, List.length_drop]
    omega
  latestFirst := (List.pairwise_cons.mp marked.latestFirst).2

end Marked

/--
What the scopes hold, and what they held at each of some marks, has a property.
-/
structure Upholds (scopes : Scopes) (marks : List ScopesMark)
    (Holds : ScopeContents → Prop) : Prop where
  now : Holds scopes.contents
  atMarks : ∀ mark ∈ marks, Holds (scopes.contentsAt mark)

section Invariants

variable {Holds : ScopeContents → Prop} {scopes : Scopes}
  {own left : List ScopesMark}
  {latest : ScopesMark}

/--
Changes that keep a property of what scopes hold keep it at the marks as well.
-/
theorem Upholds.call
    (upholds : scopes.Upholds own Holds)
    (marked : scopes.Marked (own ++ left))
    {call : ScopeCall}
    (kept : Holds (scopes.call call).contents) :
    (scopes.call call).Upholds own Holds where
  now := kept
  atMarks := by
    intro mark member
    have outstanding : scopes.outstanding ≠ 0 := by
      rw [marked.counted]
      exact List.length_eq_zero_iff.not.mpr
        (List.ne_nil_of_mem (List.mem_append_left left member))
    rw [(contentsAt_call marked.wellFormed outstanding call
      (marked.made mark (List.mem_append_left left member))).1]
    exact upholds.atMarks mark member

/-- What holds when a mark is set holds at the mark. -/
private theorem Upholds.mark
    (upholds : scopes.Upholds own Holds) :
    scopes.mark.2.Upholds (scopes.mark.1 :: own) Holds where
  now := upholds.now
  atMarks := by
    intro set member
    rcases List.mem_cons.mp member with rfl | earlier
    · rw [contentsAt_mark]
      exact upholds.now
    · exact upholds.atMarks set earlier

/--
Releasing the latest mark leaves what the scopes held at the earlier ones.
-/
private theorem Upholds.release
    (upholds : scopes.Upholds (latest :: own) Holds)
    (marked : scopes.Marked (latest :: own ++ left)) :
    scopes.release.Upholds own Holds where
  now := upholds.now
  atMarks := by
    intro mark member
    have outstanding : scopes.outstanding - 1 ≠ 0 := by
      simp [marked.counted, List.ne_nil_of_mem member]
    have same : scopes.release.contentsAt mark = scopes.contentsAt mark := by
      simp only [contentsAt, Scopes.release, outstanding, ↓reduceIte]
      rfl
    rw [same]
    exact upholds.atMarks mark (List.mem_cons_of_mem _ member)

/-- Going back to the latest mark brings back what held there. -/
private theorem Upholds.goBack
    (upholds : scopes.Upholds (latest :: own) Holds)
    (marked : scopes.Marked (latest :: own ++ left)) :
    (scopes.goBack latest).Upholds own Holds where
  now := by
    rw [contents_goBack]
    exact upholds.atMarks latest List.mem_cons_self
  atMarks := by
    intro mark member
    have outstanding : scopes.outstanding - 1 ≠ 0 := by
      simp [marked.counted, List.ne_nil_of_mem member]
    have earlier : mark.length ≤ latest.length :=
      (List.pairwise_cons.mp marked.latestFirst).1 mark
        (List.mem_append_left left member)
    rw [contentsAt_goBack outstanding earlier
      (marked.made latest List.mem_cons_self)]
    exact upholds.atMarks mark (List.mem_cons_of_mem _ member)

/--
A property that every change keeps holds all along, at the marks set since as
well.
-/
theorem Onward.upholds
    (kept : ∀ {scopes : Scopes} {call : ScopeCall}, scopes.WellFormed →
      call.Changes scopes →
      Holds scopes.contents → Holds (scopes.call call).contents)
    {before after : Scopes}
    {inherited : List ScopesMark}
    (marked : before.Marked inherited)
    (start : Holds before.contents)
    (run : Onward before inherited own left after) :
    after.Marked (own ++ left) ∧ after.Upholds own Holds := by
  induction run with
  | refl =>
      exact ⟨marked, start, by simp⟩
  | @call own left scopes run call changes inductionHypothesis =>
      obtain ⟨marked, upholds⟩ := inductionHypothesis
      have keptNow := kept marked.wellFormed changes upholds.now
      exact ⟨marked.call call, upholds.call marked keptNow⟩
  | mark run inductionHypothesis =>
      obtain ⟨marked, upholds⟩ := inductionHypothesis
      exact ⟨marked.mark, upholds.mark⟩
  | release run inductionHypothesis =>
      obtain ⟨marked, upholds⟩ := inductionHypothesis
      exact ⟨marked.release, upholds.release marked⟩
  | releaseInherited run inductionHypothesis =>
      obtain ⟨marked, upholds⟩ := inductionHypothesis
      exact ⟨marked.release, upholds.now, by simp⟩
  | goBack run inductionHypothesis =>
      obtain ⟨marked, upholds⟩ := inductionHypothesis
      exact ⟨marked.goBack, upholds.goBack marked⟩

end Invariants

end Scopes

end Tern
