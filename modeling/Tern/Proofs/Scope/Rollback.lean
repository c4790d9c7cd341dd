import Tern.Proofs.Scope.Contents

namespace Tern

/-!
# Rolling scopes back

Calls that change scopes, with marks set among them and released or gone back
to in the order of a stack, can all be taken back: going back to a mark that
was set before them gives back what the scopes held, and releasing that mark
leaves the scopes as if it had never been set.

Calls do the same whatever marks are outstanding and whatever is written down,
so it is enough to look at calls under one mark with nothing written down.
-/

/-- A call that changes scopes, or a run of such calls under a mark. -/
inductive ScopeCall where
  | enter (scope : ScopeId)
  | push (kind : ScopeKind) (parent : ScopeId)
  | scopeFor (decl : DeclId) (parent : ScopeId) (kind : ScopeKind)
  | declare (scope : ScopeId) (key : Key) (decl : DeclId)
  | replaceMember (scope : ScopeId) (key : Key) (previous next : DeclId)
  | removeMember (scope : ScopeId) (key : Key) (decl : DeclId)
  | /-- Set a mark, make calls and release the mark. -/
    released (calls : List ScopeCall)
  | /-- Set a mark, make calls and go back to the mark. -/
    takenBack (calls : List ScopeCall)

namespace Scopes

mutual

/-- The scopes after a call. -/
def call (scopes : Scopes) : ScopeCall → Scopes
  | .enter scope => scopes.enter scope
  | .push kind parent => (scopes.push kind parent).2
  | .scopeFor decl parent kind => (scopes.scopeFor decl parent kind).2
  | .declare scope key decl => (scopes.declare scope key decl).2
  | .replaceMember scope key previous next =>
      (scopes.replaceMember? scope key previous next).getD scopes
  | .removeMember scope key decl =>
      (scopes.removeMember? scope key decl).getD scopes
  | .released calls => (scopes.mark.2.callAll calls).release
  | .takenBack calls => (scopes.mark.2.callAll calls).goBack scopes.mark.1

/-- The scopes after some calls. -/
def callAll (scopes : Scopes) : List ScopeCall → Scopes
  | [] => scopes
  | call :: rest => (scopes.call call).callAll rest

end

/-- The scopes with one mark, and nothing written down since. -/
def watched (scopes : Scopes) : Scopes :=
  { scopes with journal := [], outstanding := 1 }

/--
What was made of watched scopes, with the marks and the journal that others had
before.
-/
def countedIn (after before : Scopes) : Scopes :=
  { after with
    journal :=
      if before.outstanding = 0 then [] else after.journal ++ before.journal
    outstanding := before.outstanding }

/--
Counting in under marks and then elsewhere is counting in under the marks that
end up there.
-/
private theorem countedIn_countedIn
    (after : Scopes)
    {middle : Scopes}
    (marked : middle.outstanding ≠ 0)
    (before : Scopes) :
    (after.countedIn middle).countedIn before =
      after.countedIn (middle.countedIn before) := by
  by_cases unmarked : before.outstanding = 0 <;>
    simp [countedIn, marked, unmarked]

/-- Counting in what is watched and then elsewhere is counting in there. -/
private theorem countedIn_watched
    (after before : Scopes) :
    (after.countedIn before.watched).countedIn before =
      after.countedIn before := by
  simp [countedIn, watched]

/-- Releasing a mark counts what was made under it in where the mark was set. -/
private theorem release_countedIn
    (after before : Scopes) :
    (after.countedIn before.mark.2).release = after.countedIn before := by
  by_cases unmarked : before.outstanding = 0 <;>
    simp [countedIn, mark, release, unmarked]

/-- The scopes with everything undone that is written down. -/
def unwound (scopes : Scopes) : Scopes :=
  let undone := scopes.journal.foldl undo scopes
  { scopes with table := undone.table, saved := undone.saved, journal := [] }

/-- Going back to a mark counts what is unwound in where the mark was set. -/
private theorem goBack_countedIn
    (after before : Scopes) :
    (after.countedIn before.mark.2).goBack before.mark.1 =
      after.unwound.countedIn before := by
  have undone :=
    foldl_undo_rebooked after.journal after after.current
      (after.journal ++ before.journal)
      (before.outstanding + 1)
  by_cases unmarked : before.outstanding = 0 <;>
    simp_all [countedIn, mark, goBack, release, unwound]

section Frame

variable {scopes : Scopes}
  (dropped : scopes.outstanding = 0 → scopes.journal = [])

include dropped

/-- Nothing was made of scopes by doing nothing. -/
private theorem countedIn_self : scopes.watched.countedIn scopes = scopes := by
  rcases scopes with ⟨table, current, saved, journal, outstanding⟩
  by_cases unmarked : outstanding = 0
  · obtain rfl := dropped unmarked
    simp [countedIn, watched, unmarked]
  · simp [countedIn, watched, unmarked]

/-- Writing a change down depends on the marks and the journal alone. -/
private theorem record_countedIn
    (made : Scopes)
    (change : ScopeChange)
    (sameMarks : made.outstanding = scopes.outstanding)
    (sameJournal : made.journal = scopes.journal) :
    made.record change = (made.watched.record change).countedIn scopes := by
  rcases made with ⟨table, current, saved, journal, outstanding⟩
  obtain rfl : journal = scopes.journal := sameJournal
  obtain rfl : outstanding = scopes.outstanding := sameMarks
  by_cases unmarked : scopes.outstanding = 0
  · simp [record, countedIn, watched, unmarked, dropped unmarked]
  · simp [record, countedIn, watched, unmarked]

/-- The scope of a declaration is found or added whatever is written down. -/
private theorem scopeFor_countedIn
    (decl : DeclId)
    (parent : ScopeId)
    (kind : ScopeKind) :
    (scopes.scopeFor decl parent kind).2 =
      (scopes.watched.scopeFor decl parent kind).2.countedIn scopes := by
  have sameSaved : scopes.watched.savedScope? decl = scopes.savedScope? decl :=
    rfl
  unfold scopeFor
  rw [sameSaved]
  split
  · exact (countedIn_self dropped).symm
  · by_cases unmarked : scopes.outstanding = 0 <;>
      simp [push, record, countedIn, watched, unmarked]
    exact dropped unmarked

/-- A member is replaced whatever is written down. -/
private theorem replaceMember?_countedIn
    (scope : ScopeId)
    (key : Key)
    (previous next : DeclId) :
    (scopes.replaceMember? scope key previous next).getD scopes =
      ((scopes.watched.replaceMember? scope key previous next).getD
        scopes.watched).countedIn
        scopes := by
  have sameSet : scopes.watched.findLocal? scope key =
      scopes.findLocal? scope key := rfl
  unfold replaceMember?
  rw [sameSet]
  split
  · exact (countedIn_self dropped).symm
  · split
    · exact (countedIn_self dropped).symm
    · exact record_countedIn dropped _ _ rfl rfl

/-- A member is removed whatever is written down. -/
private theorem removeMember?_countedIn
    (scope : ScopeId)
    (key : Key)
    (decl : DeclId) :
    (scopes.removeMember? scope key decl).getD scopes =
      ((scopes.watched.removeMember? scope key decl).getD
        scopes.watched).countedIn scopes := by
  have sameSet : scopes.watched.findLocal? scope key =
      scopes.findLocal? scope key := rfl
  unfold removeMember?
  rw [sameSet]
  split
  · exact (countedIn_self dropped).symm
  · split
    · exact (countedIn_self dropped).symm
    · exact record_countedIn dropped _ _ rfl rfl

end Frame

mutual

/--
A call does the same whatever marks are outstanding and whatever is written
down: under marks it writes the same changes on top of the journal.
-/
theorem call_countedIn
    (scopes : Scopes)
    (dropped : scopes.outstanding = 0 → scopes.journal = []) :
    (call : ScopeCall) → scopes.call call =
      (scopes.watched.call call).countedIn scopes
  | .enter scope => by
      simp only [call]
      exact congrArg (·.enter scope) (countedIn_self dropped).symm
  | .push kind parent => by
      simp only [call]
      exact record_countedIn dropped _ .scopeAdded rfl rfl
  | .scopeFor decl parent kind => by
      simpa only [call] using scopeFor_countedIn dropped decl parent kind
  | .declare scope key decl => by
      simp only [call]
      exact record_countedIn dropped _ (.declared scope key) rfl rfl
  | .replaceMember scope key previous next => by
      simpa only [call] using replaceMember?_countedIn dropped scope key
        previous next
  | .removeMember scope key decl => by
      simpa only [call] using removeMember?_countedIn dropped scope key decl
  | .released calls => by
      have own := callAll_countedIn scopes.mark.2 (by simp [mark]) calls
      have base :=
        callAll_countedIn scopes.watched.mark.2 (by simp [mark]) calls
      simp only [call, own, base, release_countedIn]
      exact (countedIn_watched _ _).symm
  | .takenBack calls => by
      have own := callAll_countedIn scopes.mark.2 (by simp [mark]) calls
      have base :=
        callAll_countedIn scopes.watched.mark.2 (by simp [mark]) calls
      simp only [call, own, base, goBack_countedIn]
      exact (countedIn_watched _ _).symm

/--
Calls do the same whatever marks are outstanding and whatever is written down.
-/
private theorem callAll_countedIn
    (scopes : Scopes)
    (dropped : scopes.outstanding = 0 → scopes.journal = []) :
    (calls : List ScopeCall) →
      scopes.callAll calls = (scopes.watched.callAll calls).countedIn scopes
  | [] => (countedIn_self dropped).symm
  | call :: rest => by
      have head := call_countedIn scopes dropped call
      have watchedHead := call_countedIn scopes.watched (by simp [watched]) call
      have marked : (scopes.watched.call call).outstanding ≠ 0 := by
        rw [watchedHead]
        simp [countedIn, watched]
      have tail :=
        callAll_countedIn (scopes.call call)
          (by simp +contextual [head, countedIn]) rest
      have watchedTail :=
        callAll_countedIn (scopes.watched.call call) (by simp [marked]) rest
      have sameHead : (scopes.call call).watched =
          (scopes.watched.call call).watched := by
        rw [head]
        rfl
      simp only [callAll]
      rw [tail, watchedTail, sameHead, countedIn_countedIn _ marked, ← head]

end

/-- Unwinding undoes what is written down in what the scopes hold. -/
theorem contents_unwound
    (scopes : Scopes) :
    scopes.unwound.contents =
      scopes.journal.foldl ScopeContents.undo scopes.contents :=
  contents_foldl_undo scopes.journal scopes

/--
What was made of scopes while watched has no empty set, and undoing all that is
written down gives back what the scopes held.
-/
structure TakenBackFrom (before after : Scopes) : Prop where
  noEmptySet : after.table.NoEmptySet
  contents : after.unwound.contents = before.contents

namespace TakenBackFrom

variable {before middle after : Scopes}

/-- Where nothing is written down, nothing is to be taken back. -/
private theorem of_contents
    (noEmptySet : after.table.NoEmptySet)
    (journal : after.journal = [])
    (contents : after.contents = before.contents) :
    TakenBackFrom before after where
  noEmptySet := noEmptySet
  contents := by
    rw [contents_unwound, journal]
    exact contents

/-- A single change written down is taken back by undoing it. -/
private theorem record
    {made : Scopes}
    (noEmptySet : made.table.NoEmptySet)
    {change : ScopeChange}
    (undone : (made.undo change).contents = before.contents) :
    TakenBackFrom before (made.watched.record change) where
  noEmptySet := by
    simpa [watched] using noEmptySet
  contents := by
    rw [contents_undo] at undone
    rw [contents_unwound]
    exact undone

/--
What was made of others is taken back first, then what had been made of these.
-/
private theorem countedIn
    (first : TakenBackFrom before middle)
    (marked : middle.outstanding ≠ 0)
    (second : TakenBackFrom middle after) :
    TakenBackFrom before (after.countedIn middle) where
  noEmptySet := second.noEmptySet
  contents := by
    have journal : (after.countedIn middle).journal = after.journal ++
        middle.journal := by
      simp [Scopes.countedIn, marked]
    have later := second.contents
    have earlier := first.contents
    rw [contents_unwound] at later earlier
    rw [contents_unwound, journal, List.foldl_append]
    exact (congrArg (middle.journal.foldl ScopeContents.undo) later).trans
      earlier

end TakenBackFrom

/-- Finding or adding the scope of a declaration is taken back. -/
private theorem scopeFor_takenBackFrom
    {scopes : Scopes}
    (noEmptySet : scopes.table.NoEmptySet)
    (decl : DeclId)
    (parent : ScopeId)
    (kind : ScopeKind) :
    TakenBackFrom scopes (scopes.watched.scopeFor decl parent kind).2 := by
  have sameSaved : scopes.watched.savedScope? decl = scopes.savedScope? decl :=
    rfl
  unfold scopeFor
  rw [sameSaved]
  split
  · exact .of_contents noEmptySet rfl rfl
  · rename_i unsaved
    let pushed : Scopes := { scopes with
      table :=
        scopes.table.push
          { parent? := some parent, kind := kind, bindings := [] } }
    let saved : Scopes := { pushed with
      saved := (decl, { raw := scopes.table.size }) :: scopes.saved }
    have pushedUnsaved : pushed.savedScope? decl = none := unsaved
    have savingUndone : (saved.undo (.scopeSaved decl)).contents =
        pushed.contents :=
      congrArg contents (undo_scopeSaved pushedUnsaved saved _ rfl)
    have pushUndone := contents_undo_pushed scopes kind parent
    exact
      { noEmptySet := noEmptySet.push _ kind
        contents := by
          rw [contents_undo] at savingUndone pushUndone
          rw [contents_unwound]
          exact (congrArg (ScopeContents.undo · .scopeAdded) savingUndone).trans
            pushUndone }

/--
Replacing a member is taken back, and so is doing nothing where there is no such
member.
-/
private theorem replaceMember?_takenBackFrom
    {scopes : Scopes}
    (noEmptySet : scopes.table.NoEmptySet)
    (scope : ScopeId)
    (key : Key)
    (previous next : DeclId) :
    TakenBackFrom scopes
      ((scopes.watched.replaceMember? scope key previous next).getD
        scopes.watched) := by
  have sameSet : scopes.watched.findLocal? scope key =
      scopes.findLocal? scope key := rfl
  unfold replaceMember?
  rw [sameSet]
  split
  · exact .of_contents noEmptySet rfl rfl
  · rename_i set found
    split
    · exact .of_contents noEmptySet rfl rfl
    · rename_i position stands
      exact .record (noEmptySet.put scope key _)
        (contents_undo_replaced noEmptySet found stands next)

/--
Removing a member is taken back, and so is doing nothing where there is no such
member.
-/
private theorem removeMember?_takenBackFrom
    {scopes : Scopes}
    (noEmptySet : scopes.table.NoEmptySet)
    (scope : ScopeId)
    (key : Key)
    (decl : DeclId) :
    TakenBackFrom scopes
      ((scopes.watched.removeMember? scope key decl).getD scopes.watched) := by
  have sameSet : scopes.watched.findLocal? scope key =
      scopes.findLocal? scope key := rfl
  unfold removeMember?
  rw [sameSet]
  split
  · exact .of_contents noEmptySet rfl rfl
  · rename_i set found
    split
    · exact .of_contents noEmptySet rfl rfl
    · rename_i position stands
      exact .record (noEmptySet.put scope key _)
        (contents_undo_removed noEmptySet found stands)

mutual

/-- A call is taken back by undoing what it writes down. -/
theorem call_takenBackFrom
    (scopes : Scopes)
    (noEmptySet : scopes.table.NoEmptySet) :
    (call : ScopeCall) → TakenBackFrom scopes (scopes.watched.call call)
  | .enter scope => by
      simp only [call]
      exact .of_contents noEmptySet rfl rfl
  | .push kind parent => by
      simp only [call]
      exact .record (noEmptySet.push _ kind)
        (contents_undo_pushed scopes kind parent)
  | .scopeFor decl parent kind => by
      simp only [call]
      exact scopeFor_takenBackFrom noEmptySet decl parent kind
  | .declare scope key decl => by
      simp only [call]
      exact .record (noEmptySet.put scope key _)
        (contents_undo_declared noEmptySet scope key decl)
  | .replaceMember scope key previous next => by
      simp only [call]
      exact replaceMember?_takenBackFrom noEmptySet scope key previous next
  | .removeMember scope key decl => by
      simp only [call]
      exact removeMember?_takenBackFrom noEmptySet scope key decl
  | .released calls => by
      have inner := callAll_takenBackFrom scopes.watched noEmptySet calls
      have made :=
        callAll_countedIn scopes.watched.mark.2 (by simp [mark]) calls
      simp only [call, made, release_countedIn]
      exact TakenBackFrom.countedIn (.of_contents noEmptySet rfl rfl)
        (by simp [watched]) inner
  | .takenBack calls => by
      have inner := callAll_takenBackFrom scopes noEmptySet calls
      have made :=
        callAll_countedIn scopes.watched.mark.2 (by simp [mark]) calls
      simp only [call, made, goBack_countedIn]
      exact .of_contents (noEmptySet_foldl_undo _ inner.noEmptySet) rfl
        inner.contents

/-- Calls are taken back by undoing all that they write down. -/
private theorem callAll_takenBackFrom
    (scopes : Scopes)
    (noEmptySet : scopes.table.NoEmptySet) :
    (calls : List ScopeCall) →
      TakenBackFrom scopes (scopes.watched.callAll calls)
  | [] => .of_contents noEmptySet rfl rfl
  | call :: rest => by
      have head := call_takenBackFrom scopes noEmptySet call
      have watchedHead := call_countedIn scopes.watched (by simp [watched]) call
      have marked : (scopes.watched.call call).outstanding ≠ 0 := by
        rw [watchedHead]
        simp [countedIn, watched]
      have tail :=
        callAll_takenBackFrom (scopes.watched.call call) head.noEmptySet rest
      have made :=
        callAll_countedIn (scopes.watched.call call) (by simp [marked]) rest
      simp only [callAll]
      rw [made]
      exact head.countedIn marked tail

end

/--
What is done under a mark and gone back from leaves no trace: the scopes, their
sets in order, the keys without a set and the saved scopes are as they were.
What is done under a mark and released is kept, as if there had been no mark.
And without a mark nothing is written down.
-/
theorem goBack_callAll
    {scopes : Scopes}
    (reachable : scopes.Reachable)
    (calls : List ScopeCall) :
    let after := scopes.mark.2.callAll calls
    let back := after.goBack scopes.mark.1
    (back.contents = scopes.contents ∧ back.journal = scopes.journal ∧
        back.outstanding = scopes.outstanding) ∧
      (after.release.table = after.table ∧ after.release.saved = after.saved ∧
        after.release.current = after.current ∧ after.release =
          scopes.callAll calls) ∧
      (scopes.outstanding = 0 → scopes.journal = []) := by
  intro after back
  have wellFormed := reachable.wellFormed
  have dropped := wellFormed.journalDropped
  have made : after = (scopes.watched.callAll calls).countedIn scopes.mark.2 :=
    callAll_countedIn scopes.mark.2 (by simp [mark]) calls
  have backMade :
      back = (scopes.watched.callAll calls).unwound.countedIn scopes := by
    rw [← goBack_countedIn, ← made]
  have backContents : back.contents = scopes.contents := by
    rw [backMade]
    exact (callAll_takenBackFrom scopes wellFormed.noEmptySet calls).contents
  have backJournal : back.journal = scopes.journal := by
    by_cases unmarked : scopes.outstanding = 0
    · simp [backMade, countedIn, unmarked, dropped unmarked]
    · simp [backMade, countedIn, unwound, unmarked]
  have backOutstanding : back.outstanding = scopes.outstanding := by
    rw [backMade]
    rfl
  have asUnmarked : after.release = scopes.callAll calls := by
    rw [made, release_countedIn, ← callAll_countedIn scopes dropped calls]
  exact
    ⟨⟨backContents, backJournal, backOutstanding⟩, ⟨rfl, rfl, rfl, asUnmarked⟩,
      dropped⟩

/-- A set that calls under a mark empty is back with its member. -/
theorem goBack_callAll_emptied :
    let key := Key.placeholder 0
    let member : DeclId := { raw := 0 }
    let scopes := (Scopes.initial.declare ScopeTable.root key member).2
    let calls : List ScopeCall :=
      [.takenBack [.declare ScopeTable.root key member],
        .removeMember ScopeTable.root key member]
    let after := scopes.mark.2.callAll calls
    scopes.Reachable ∧
      after.findLocal? ScopeTable.root key = none ∧
      (after.goBack scopes.mark.1).findLocal? ScopeTable.root key =
        some [member] := by
  intro key member scopes calls after
  have reachable : scopes.Reachable :=
    .declare .initial ScopeTable.root key member
  have emptied : after.findLocal? ScopeTable.root key = none := by
    decide
  have bound : scopes.findLocal? ScopeTable.root key = some [member] := by
    decide
  have restored : (after.goBack scopes.mark.1).contents = scopes.contents :=
    (goBack_callAll reachable calls).1.1
  have setBack := findLocal?_of_contents restored ScopeTable.root key
  exact ⟨reachable, emptied, setBack.trans bound⟩

end Scopes

end Tern
