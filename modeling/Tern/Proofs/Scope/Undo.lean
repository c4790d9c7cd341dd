import Tern.Scope.Journal

namespace Tern

/-!
# Undoing journaled changes

The scopes of a compilation never bind a key to an empty overload set, and
their journal is empty while no mark is outstanding. On such scopes undoing a
change gives back the scope table and the saved scopes from before it, so
undoing all entries made since a mark gives back those of the mark.
-/

namespace Bindings

/-- No key is bound to an empty overload set. -/
def NoEmptySet (bindings : Bindings) : Prop :=
  ∀ binding ∈ bindings, binding.2 ≠ []

/-- The set found for a key is the set of one of the bindings. -/
private theorem mem_of_find?_eq_some
    {bindings : Bindings}
    {key : Key}
    {set : OverloadSet}
    (found : bindings.find? key = some set) :
    (key, set) ∈ bindings := by
  induction bindings with
  | nil =>
      simp [find?] at found
  | cons binding rest inductionHypothesis =>
      rcases binding with ⟨bound, old⟩
      by_cases same : key = bound
      · subst same
        simp_all [find?]
      · have other : (key == bound) = false := by
          simpa using same
        simp only [find?, List.lookup_cons, other] at found
        exact List.mem_cons_of_mem _ (inductionHypothesis found)

/-- A key that is not bound is in none of the bindings. -/
private theorem ne_of_find?_eq_none
    {bindings : Bindings}
    {key : Key}
    (missing : bindings.find? key = none)
    {binding : Key × OverloadSet}
    (member : binding ∈ bindings) :
    binding.1 ≠ key := by
  intro same
  have bound := List.lookup_eq_none_iff.mp missing binding member
  simp [same] at bound

/-- A set found among bindings without empty sets is not empty. -/
theorem NoEmptySet.find?_ne_nil
    {bindings : Bindings}
    (noEmptySet : bindings.NoEmptySet)
    {key : Key}
    {set : OverloadSet}
    (found : bindings.find? key = some set) :
    set ≠ [] :=
  noEmptySet _ (mem_of_find?_eq_some found)

/-- Forgetting a key that is not bound changes nothing. -/
private theorem erase_eq_self
    {bindings : Bindings}
    {key : Key}
    (missing : bindings.find? key = none) :
    bindings.erase key = bindings := by
  simp only [erase, List.filter_eq_self, decide_eq_true_eq]
  intro binding member
  exact ne_of_find?_eq_none missing member

/-- After an assignment a bound key has the set assigned. -/
private theorem find?_assign
    {bindings : Bindings}
    {key : Key}
    {old : OverloadSet}
    (found : bindings.find? key = some old)
    (set : OverloadSet) :
    (bindings.assign key set).find? key = some set := by
  induction bindings with
  | nil =>
      simp [find?] at found
  | cons binding rest inductionHypothesis =>
      rcases binding with ⟨bound, former⟩
      by_cases same : bound = key
      · simp [assign, find?, same]
      · have other : (key == bound) = false := by
          simpa using Ne.symm same
        simp only [find?, List.lookup_cons, other] at found
        simpa [assign, find?, same, List.lookup_cons, other] using
          inductionHypothesis found

/-- Assigning the set that a key had takes an assignment back. -/
private theorem assign_assign
    {bindings : Bindings}
    {key : Key}
    {old : OverloadSet}
    (found : bindings.find? key = some old)
    (set : OverloadSet) :
    (bindings.assign key set).assign key old = bindings := by
  induction bindings with
  | nil =>
      rfl
  | cons binding rest inductionHypothesis =>
      rcases binding with ⟨bound, former⟩
      by_cases same : bound = key
      · subst same
        simp_all [assign, find?]
      · have other : (key == bound) = false := by
          simpa using Ne.symm same
        simp only [find?, List.lookup_cons, other] at found
        simp [assign, same, inductionHypothesis found]

/-- An assignment of a set that is not empty leaves no empty set. -/
private theorem NoEmptySet.assign
    {bindings : Bindings}
    (noEmptySet : bindings.NoEmptySet)
    (key : Key)
    {set : OverloadSet}
    (nonempty : set ≠ []) :
    (bindings.assign key set).NoEmptySet := by
  induction bindings with
  | nil =>
      exact noEmptySet
  | cons binding rest inductionHypothesis =>
      rcases binding with ⟨bound, former⟩
      have head : former ≠ [] :=
        noEmptySet (bound, former) (by simp)
      have tail : NoEmptySet rest := fun later member =>
        noEmptySet later (by simp [member])
      intro later member
      by_cases same : bound = key
      · simp only [Bindings.assign, same, ↓reduceIte, List.mem_cons] at member
        rcases member with isHead | inRest
        · subst isHead
          exact nonempty
        · exact tail later inRest
      · simp only [Bindings.assign, same, ↓reduceIte, List.mem_cons] at member
        rcases member with isHead | inRest
        · subst isHead
          exact head
        · exact inductionHypothesis tail later inRest

/-- Giving a key a set leaves no empty set, whatever the set is. -/
private theorem NoEmptySet.put
    {bindings : Bindings}
    (noEmptySet : bindings.NoEmptySet)
    (key : Key)
    (set : OverloadSet) :
    (bindings.put key set).NoEmptySet := by
  cases set with
  | nil =>
      intro binding member
      exact noEmptySet binding (List.mem_filter.mp member).1
  | cons first rest =>
      cases found : bindings.find? key with
      | some old =>
          simpa [Bindings.put, found] using
            noEmptySet.assign key (List.cons_ne_nil first rest)
      | none =>
          intro binding member
          simp only [Bindings.put, found, List.mem_cons] at member
          rcases member with isHead | inRest
          · simp [isHead]
          · exact noEmptySet binding inRest

/-- Giving a key the set it had takes the gift of another set back. -/
private theorem NoEmptySet.put_put
    {bindings : Bindings}
    (noEmptySet : bindings.NoEmptySet)
    (key : Key)
    {set : OverloadSet}
    (nonempty : set ≠ []) :
    (bindings.put key set).put key ((bindings.find? key).getD []) =
      bindings := by
  obtain ⟨first, rest, rfl⟩ := List.exists_cons_of_ne_nil nonempty
  cases found : bindings.find? key with
  | none =>
      have restUnchanged :
          Bindings.erase ((key, first :: rest) :: bindings) key = bindings := by
        rw [erase, List.filter_cons_of_neg (by simp)]
        exact erase_eq_self found
      simpa [Bindings.put, found] using restUnchanged
  | some old =>
      obtain ⟨head, tail, rfl⟩ :=
        List.exists_cons_of_ne_nil (noEmptySet.find?_ne_nil found)
      simp [Bindings.put, found, find?_assign found, assign_assign found]

/-- A key has the set that it was given last. -/
theorem find?_put
    (bindings : Bindings)
    (key : Key)
    {set : OverloadSet}
    (nonempty : set ≠ []) :
    (bindings.put key set).find? key = some set := by
  obtain ⟨first, rest, rfl⟩ := List.exists_cons_of_ne_nil nonempty
  cases found : bindings.find? key with
  | none =>
      simp only [Bindings.put, found]
      simp [find?]
  | some old =>
      simp [Bindings.put, found, find?_assign found]

end Bindings

namespace ScopeTable

/-- No scope binds a key to an empty overload set. -/
def NoEmptySet (table : ScopeTable) : Prop :=
  ∀ scope ∈ table, scope.bindings.NoEmptySet

/-- Giving a key of a scope a set leaves no empty set. -/
theorem NoEmptySet.put
    {table : ScopeTable}
    (noEmptySet : table.NoEmptySet)
    (scope : ScopeId)
    (key : Key)
    (set : OverloadSet) :
    (table.put scope key set).NoEmptySet := by
  cases found : table[scope.raw]? with
  | none =>
      simpa [ScopeTable.put, found] using noEmptySet
  | some held =>
      have heldNoEmptySet : held.bindings.NoEmptySet :=
        noEmptySet held (Array.mem_of_getElem? found)
      intro other member
      simp only [ScopeTable.put, found] at member
      rcases Array.mem_or_eq_of_mem_setIfInBounds member with inTable | isNew
      · exact noEmptySet other inTable
      · subst isNew
        exact heldNoEmptySet.put key set

/-- Adding a scope without bindings leaves no empty set. -/
theorem NoEmptySet.push
    {table : ScopeTable}
    (noEmptySet : table.NoEmptySet)
    (parent? : Option ScopeId)
    (kind : ScopeKind) :
    NoEmptySet
      (Array.push table
        { parent? := parent?, kind := kind, bindings := [] }) := by
  intro scope member
  rcases Array.mem_push.mp member with inTable | isNew
  · exact noEmptySet scope inTable
  · subst isNew
    intro binding bound
    simp at bound

/--
Giving a key of a scope the set it had takes the gift of another set back.
-/
private theorem NoEmptySet.put_put
    {table : ScopeTable}
    (noEmptySet : table.NoEmptySet)
    (scope : ScopeId)
    (key : Key)
    {set : OverloadSet}
    (nonempty : set ≠ []) :
    (table.put scope key set).put scope key
      ((table.findLocal? scope key).getD []) =
      table := by
  cases found : table[scope.raw]? with
  | none =>
      simp [ScopeTable.put, found]
  | some held =>
      have heldNoEmptySet : held.bindings.NoEmptySet :=
        noEmptySet held (Array.mem_of_getElem? found)
      obtain ⟨inBounds, rfl⟩ := Array.getElem?_eq_some_iff.mp found
      have undone := heldNoEmptySet.put_put key nonempty
      have selfSet : Array.setIfInBounds table scope.raw table[scope.raw] =
          table := by
        simp [Array.setIfInBounds]
      simpa [ScopeTable.put, findLocal?, inBounds, undone] using selfSet

/-- A key of a stored scope has the set that it was given last. -/
theorem findLocal?_put
    {table : ScopeTable}
    {scope : ScopeId}
    (stored : scope.raw < table.size)
    (key : Key)
    {set : OverloadSet}
    (nonempty : set ≠ []) :
    (table.put scope key set).findLocal? scope key = some set := by
  have found : table[scope.raw]? = some table[scope.raw] :=
    Array.getElem?_eq_getElem stored
  simp [ScopeTable.put, findLocal?, stored, Bindings.find?_put _ key nonempty]

end ScopeTable

namespace Scopes

section Record

variable (scopes : Scopes) (change : ScopeChange)

@[simp]
theorem record_table : (scopes.record change).table = scopes.table := by
  by_cases unmarked : scopes.outstanding = 0 <;> simp [record, unmarked]

@[simp]
theorem record_current : (scopes.record change).current = scopes.current := by
  by_cases unmarked : scopes.outstanding = 0 <;> simp [record, unmarked]

@[simp]
theorem record_saved : (scopes.record change).saved = scopes.saved := by
  by_cases unmarked : scopes.outstanding = 0 <;> simp [record, unmarked]

@[simp]
theorem record_outstanding :
    (scopes.record change).outstanding = scopes.outstanding := by
  by_cases unmarked : scopes.outstanding = 0 <;> simp [record, unmarked]

end Record

/--
What all operations keep: no empty overload set, and no journal without a mark.
-/
structure WellFormed (scopes : Scopes) : Prop where
  noEmptySet : scopes.table.NoEmptySet
  journalDropped : scopes.outstanding = 0 → scopes.journal = []

namespace WellFormed

variable {scopes : Scopes}

/-- The scopes before anything is parsed are well-formed. -/
theorem initial : Scopes.initial.WellFormed where
  noEmptySet := by
    intro scope member
    simp only [Scopes.initial, ScopeTable.initial, List.mem_toArray,
      List.mem_singleton] at member
    subst member
    intro binding bound
    simp at bound
  journalDropped := by
    intro _
    rfl

/-- Making another scope current keeps scopes well-formed. -/
theorem enter
    (wellFormed : scopes.WellFormed)
    (scope : ScopeId) :
    (scopes.enter scope).WellFormed where
  noEmptySet := wellFormed.noEmptySet
  journalDropped := wellFormed.journalDropped

/-- Writing a change down keeps scopes well-formed. -/
private theorem record
    (wellFormed : scopes.WellFormed)
    (change : ScopeChange) :
    (scopes.record change).WellFormed := by
  by_cases unmarked : scopes.outstanding = 0
  · simpa [Scopes.record, unmarked] using wellFormed
  · constructor
    · simpa [Scopes.record, unmarked] using wellFormed.noEmptySet
    · simp [Scopes.record, unmarked]

/-- Adding a scope keeps scopes well-formed. -/
theorem push
    (wellFormed : scopes.WellFormed)
    (kind : ScopeKind)
    (parent : ScopeId) :
    (scopes.push kind parent).2.WellFormed := by
  apply record
  exact
    { noEmptySet := wellFormed.noEmptySet.push _ kind
      journalDropped := wellFormed.journalDropped }

/-- Finding or adding the scope of a declaration keeps scopes well-formed. -/
theorem scopeFor
    (wellFormed : scopes.WellFormed)
    (decl : DeclId)
    (parent : ScopeId)
    (kind : ScopeKind) :
    (scopes.scopeFor decl parent kind).2.WellFormed := by
  unfold Scopes.scopeFor
  cases scopes.savedScope? decl with
  | some scope =>
      exact wellFormed
  | none =>
      have pushed := wellFormed.push kind parent
      apply record
      exact
        { noEmptySet := pushed.noEmptySet
          journalDropped := pushed.journalDropped }

/--
Giving a key an overload set and writing that down keeps scopes well-formed.
-/
private theorem put
    (wellFormed : scopes.WellFormed)
    (scope : ScopeId)
    (key : Key)
    (set : OverloadSet) :
    { scopes with table := scopes.table.put scope key set }.WellFormed where
  noEmptySet := wellFormed.noEmptySet.put scope key set
  journalDropped := wellFormed.journalDropped

/-- Adding a declaration to an overload set keeps scopes well-formed. -/
theorem declare
    (wellFormed : scopes.WellFormed)
    (scope : ScopeId)
    (key : Key)
    (decl : DeclId) :
    (scopes.declare scope key decl).2.WellFormed :=
  (wellFormed.put scope key _).record _

/-- Replacing a member of an overload set keeps scopes well-formed. -/
theorem replaceMember?
    (wellFormed : scopes.WellFormed)
    {scope : ScopeId}
    {key : Key}
    {previous next : DeclId}
    {replaced : Scopes}
    (done : scopes.replaceMember? scope key previous next = some replaced) :
    replaced.WellFormed := by
  unfold Scopes.replaceMember? at done
  split at done
  · simp at done
  · split at done
    · simp at done
    · obtain rfl := Option.some.inj done
      exact (wellFormed.put scope key _).record _

/-- Removing a member of an overload set keeps scopes well-formed. -/
theorem removeMember?
    (wellFormed : scopes.WellFormed)
    {scope : ScopeId}
    {key : Key}
    {decl : DeclId}
    {removed : Scopes}
    (done : scopes.removeMember? scope key decl = some removed) :
    removed.WellFormed := by
  unfold Scopes.removeMember? at done
  split at done
  · simp at done
  · split at done
    · simp at done
    · obtain rfl := Option.some.inj done
      exact (wellFormed.put scope key _).record _

/-- Setting a mark keeps scopes well-formed. -/
theorem mark
    (wellFormed : scopes.WellFormed) :
    scopes.mark.2.WellFormed where
  noEmptySet := wellFormed.noEmptySet
  journalDropped := by
    simp [Scopes.mark]

/-- Giving a mark back keeps scopes well-formed. -/
theorem release
    (wellFormed : scopes.WellFormed) :
    scopes.release.WellFormed where
  noEmptySet := wellFormed.noEmptySet
  journalDropped := by
    intro unmarked
    simp only [Scopes.release] at unmarked ⊢
    simp [unmarked]

end WellFormed

/-- Undoing a change leaves no empty overload set, whatever the change is. -/
private theorem noEmptySet_undo
    {scopes : Scopes}
    (noEmptySet : scopes.table.NoEmptySet)
    (change : ScopeChange) :
    (scopes.undo change).table.NoEmptySet := by
  cases change with
  | scopeAdded =>
      intro scope member
      exact noEmptySet scope (Array.mem_def.mpr
        (List.dropLast_subset _ (Array.mem_def.mp member)))
  | scopeSaved decl =>
      exact noEmptySet
  | declared scope key =>
      simp only [undo]
      split
      · exact noEmptySet
      · exact noEmptySet.put scope key _
  | replaced scope key position previous =>
      simp only [undo]
      split
      · exact noEmptySet
      · exact noEmptySet.put scope key _
  | removed scope key position decl =>
      exact noEmptySet.put scope key _

/-- Undoing changes leaves no empty overload set. -/
theorem noEmptySet_foldl_undo
    (made : List ScopeChange)
    {scopes : Scopes}
    (noEmptySet : scopes.table.NoEmptySet) :
    (made.foldl undo scopes).table.NoEmptySet := by
  induction made generalizing scopes with
  | nil =>
      exact noEmptySet
  | cons change rest inductionHypothesis =>
      exact inductionHypothesis (noEmptySet_undo noEmptySet change)

/-- Going back keeps scopes well-formed, whatever the mark is. -/
theorem WellFormed.goBack
    {scopes : Scopes}
    (wellFormed : scopes.WellFormed)
    (mark : ScopesMark) :
    (scopes.goBack mark).WellFormed where
  noEmptySet := noEmptySet_foldl_undo _ wellFormed.noEmptySet
  journalDropped := by
    intro unmarked
    simp only [Scopes.goBack, Scopes.release] at unmarked ⊢
    simp [unmarked]

/--
The scopes that operations make out of those before anything is parsed, in any
order and with any arguments.
-/
inductive Reachable : Scopes → Prop where
  | initial : Reachable Scopes.initial
  | enter {scopes : Scopes} (before : Reachable scopes) (scope : ScopeId) :
      Reachable (scopes.enter scope)
  | push {scopes : Scopes} (before : Reachable scopes) (kind : ScopeKind)
      (parent : ScopeId) :
      Reachable (scopes.push kind parent).2
  | scopeFor {scopes : Scopes} (before : Reachable scopes) (decl : DeclId)
      (parent : ScopeId)
      (kind : ScopeKind) : Reachable (scopes.scopeFor decl parent kind).2
  | declare {scopes : Scopes} (before : Reachable scopes) (scope : ScopeId)
      (key : Key)
      (decl : DeclId) : Reachable (scopes.declare scope key decl).2
  | replaceMember {scopes replaced : Scopes} (before : Reachable scopes)
      (scope : ScopeId)
      (key : Key) (previous next : DeclId)
      (done : scopes.replaceMember? scope key previous next = some replaced) :
      Reachable replaced
  | removeMember {scopes removed : Scopes} (before : Reachable scopes)
      (scope : ScopeId)
      (key : Key) (decl : DeclId) (done : scopes.removeMember? scope key decl =
        some removed) :
      Reachable removed
  | mark {scopes : Scopes} (before : Reachable scopes) : Reachable scopes.mark.2
  | release {scopes : Scopes} (before : Reachable scopes) :
      Reachable scopes.release
  | goBack {scopes : Scopes} (before : Reachable scopes) (mark : ScopesMark) :
      Reachable (scopes.goBack mark)

/-- All scopes that can be reached are well-formed. -/
theorem Reachable.wellFormed
    {scopes : Scopes}
    (reachable : scopes.Reachable) :
    scopes.WellFormed := by
  induction reachable with
  | initial => exact .initial
  | enter _ scope wellFormed => exact wellFormed.enter scope
  | push _ kind parent wellFormed => exact wellFormed.push kind parent
  | scopeFor _ decl parent kind wellFormed =>
      exact wellFormed.scopeFor decl parent kind
  | declare _ scope key decl wellFormed =>
      exact wellFormed.declare scope key decl
  | replaceMember _ _ _ _ _ done wellFormed =>
      exact wellFormed.replaceMember? done
  | removeMember _ _ _ _ done wellFormed => exact wellFormed.removeMember? done
  | mark _ wellFormed => exact wellFormed.mark
  | release _ wellFormed => exact wellFormed.release
  | goBack _ mark wellFormed => exact wellFormed.goBack mark

/--
Undoing a change neither reads nor changes what is no content of the scopes.
-/
private theorem undo_rebooked
    (scopes : Scopes)
    (change : ScopeChange)
    (current : ScopeId)
    (journal : List ScopeChange)
    (outstanding : Nat) :
    undo
        { scopes with
          current := current
          journal := journal
          outstanding := outstanding }
        change =
      { undo scopes change with
        current := current
        journal := journal
        outstanding := outstanding } := by
  cases change with
  | scopeAdded =>
      rfl
  | scopeSaved decl =>
      rfl
  | declared scope key =>
      simp only [undo, findLocal?]
      split <;> rfl
  | replaced scope key position previous =>
      simp only [undo, findLocal?]
      split <;> rfl
  | removed scope key position decl =>
      rfl

/--
Undoing changes neither reads nor changes what is no content of the scopes.
-/
theorem foldl_undo_rebooked
    (made : List ScopeChange)
    (scopes : Scopes)
    (current : ScopeId)
    (journal : List ScopeChange)
    (outstanding : Nat) :
    made.foldl undo
        { scopes with
          current := current
          journal := journal
          outstanding := outstanding } =
      { made.foldl undo scopes with
        current := current
        journal := journal
        outstanding := outstanding } := by
  induction made generalizing scopes with
  | nil =>
      rfl
  | cons change rest inductionHypothesis =>
      simp only [List.foldl_cons, undo_rebooked, inductionHypothesis]

/-- Undoing the addition of a scope gives the table back. -/
private theorem undo_push
    (scopes : Scopes)
    (kind : ScopeKind)
    (parent : ScopeId) :
    undo (scopes.push kind parent).2 .scopeAdded =
      { (scopes.push kind parent).2 with
        table := scopes.table
        saved := scopes.saved } := by
  by_cases unmarked : scopes.outstanding = 0 <;>
    simp [push, record, unmarked, undo]

/-- Undoing the saving of a scope gives the saved scopes back. -/
theorem undo_scopeSaved
    {scopes : Scopes}
    {decl : DeclId}
    (unsaved : scopes.savedScope? decl = none)
    (saving : Scopes)
    (scope : ScopeId)
    (saved : saving.saved = (decl, scope) :: scopes.saved) :
    undo saving (.scopeSaved decl) = { saving with saved := scopes.saved } := by
  have others : ∀ entry ∈ scopes.saved, entry.1 ≠ decl := by
    intro entry member same
    have different := List.lookup_eq_none_iff.mp unsaved entry member
    simp [same] at different
  have kept : (scopes.saved.filter fun entry => entry.1 ≠ decl) =
      scopes.saved := by
    simpa [List.filter_eq_self] using others
  simp only [undo, saved]
  rw [List.filter_cons_of_neg (by simp), kept]

/-- Undoing a declaration gives the table back. -/
theorem undo_declare
    {scopes : Scopes}
    (wellFormed : scopes.WellFormed)
    (scope : ScopeId)
    (key : Key)
    (decl : DeclId) :
    undo (scopes.declare scope key decl).2 (.declared scope key) =
      { (scopes.declare scope key decl).2 with
        table := scopes.table
        saved := scopes.saved } := by
  have nonempty : (scopes.table.findLocal? scope key).getD [] ++ [decl] ≠
      [] := by simp
  have putBack := wellFormed.noEmptySet.put_put scope key nonempty
  by_cases stored : scope.raw < scopes.table.size
  · have found := ScopeTable.findLocal?_put stored key nonempty
    by_cases unmarked : scopes.outstanding = 0 <;>
      simp [declare, record, unmarked, undo, findLocal?, found, putBack]
  · have missing : scopes.table[scope.raw]? = none :=
      Array.getElem?_eq_none (by omega)
    by_cases unmarked : scopes.outstanding = 0 <;>
      simp [declare, record, unmarked, undo, findLocal?, ScopeTable.put,
        ScopeTable.findLocal?, missing]

/--
The journal has grown by some entries, and undoing these gives back the table
and the saved scopes of an earlier moment.
-/
structure RecordedSince (base scopes : Scopes) (made : List ScopeChange) :
    Prop where
  journal : scopes.journal = made ++ base.journal
  undone :
    made.foldl undo scopes =
      { scopes with table := base.table, saved := base.saved }

namespace RecordedSince

variable {base scopes next : Scopes} {made : List ScopeChange}

/-- At the moment itself there is nothing to undo. -/
theorem refl (base : Scopes) : RecordedSince base base [] where
  journal := rfl
  undone := rfl

/-- One more change written down is one more change to undo. -/
private theorem change
    (recorded : RecordedSince base scopes made)
    {change : ScopeChange}
    (journal : next.journal = change :: scopes.journal)
    (undone :
      undo next change = { next with table := scopes.table,
                                     saved := scopes.saved }) :
    RecordedSince base next (change :: made) where
  journal := by
    rw [journal, recorded.journal, List.cons_append]
  undone := by
    have rebooked :=
      foldl_undo_rebooked made scopes next.current next.journal next.outstanding
    rw [recorded.undone] at rebooked
    rw [List.foldl_cons, undone]
    exact rebooked

/-- Making another scope current is nothing to undo. -/
private theorem enter
    (recorded : RecordedSince base scopes made)
    (scope : ScopeId) :
    RecordedSince base (scopes.enter scope) made where
  journal := recorded.journal
  undone := by
    have rebooked :=
      foldl_undo_rebooked made scopes scope scopes.journal scopes.outstanding
    rw [recorded.undone] at rebooked
    exact rebooked

end RecordedSince

/-- Two runs of changes, one behind the other, are one run of changes. -/
theorem RecordedSince.trans
    {base middle scopes : Scopes}
    {earlier later : List ScopeChange}
    (first : RecordedSince base middle earlier)
    (second : RecordedSince middle scopes later) :
    RecordedSince base scopes (later ++ earlier) where
  journal := by
    rw [second.journal, first.journal, List.append_assoc]
  undone := by
    have rebooked :=
      foldl_undo_rebooked earlier middle scopes.current scopes.journal
        scopes.outstanding
    rw [first.undone] at rebooked
    rw [List.foldl_append, second.undone]
    exact rebooked

/-- How many marks are outstanding plays no part in what is recorded. -/
private theorem RecordedSince.recount
    {base scopes : Scopes}
    {made : List ScopeChange}
    (recorded : RecordedSince base scopes made)
    (outstanding : Nat) :
    RecordedSince base { scopes with outstanding := outstanding } made where
  journal := recorded.journal
  undone := by
    have rebooked :=
      foldl_undo_rebooked made scopes scopes.current scopes.journal outstanding
    rw [recorded.undone] at rebooked
    exact rebooked

/--
Scopes that came out of others by changes alone: all marks set since are given
back, and while a mark was outstanding all changes have been written down.
-/
structure ChangedSince (base scopes : Scopes) : Prop where
  wellFormed : scopes.WellFormed
  outstanding : scopes.outstanding = base.outstanding
  recorded : base.outstanding ≠ 0 → ∃ made, RecordedSince base scopes made

namespace ChangedSince

variable {base scopes : Scopes}

/-- At the beginning there is no change. -/
theorem refl
    (wellFormed : base.WellFormed) :
    ChangedSince base base where
  wellFormed := wellFormed
  outstanding := rfl
  recorded := fun _ => ⟨[], .refl base⟩

/-- Making another scope current is no change. -/
theorem enter
    (changed : ChangedSince base scopes)
    (scope : ScopeId) :
    ChangedSince base (scopes.enter scope) where
  wellFormed := changed.wellFormed.enter scope
  outstanding := changed.outstanding
  recorded := by
    intro marked
    obtain ⟨made, recorded⟩ := changed.recorded marked
    exact ⟨made, recorded.enter scope⟩

/-- A change that is written down and can be undone is one more change. -/
private theorem change
    (changed : ChangedSince base scopes)
    {next : Scopes}
    (wellFormed : next.WellFormed)
    (outstanding : next.outstanding = scopes.outstanding)
    (change : ScopeChange)
    (journal : scopes.outstanding ≠ 0 → next.journal = change :: scopes.journal)
    (undone :
      undo next change = { next with table := scopes.table,
                                     saved := scopes.saved }) :
    ChangedSince base next where
  wellFormed := wellFormed
  outstanding := outstanding.trans changed.outstanding
  recorded := by
    intro marked
    obtain ⟨made, recorded⟩ := changed.recorded marked
    have stillMarked : scopes.outstanding ≠ 0 := by
      rw [changed.outstanding]
      exact marked
    exact ⟨change :: made, recorded.change (journal stillMarked) undone⟩

/-- Adding a scope is a change. -/
theorem push
    (changed : ChangedSince base scopes)
    (kind : ScopeKind)
    (parent : ScopeId) :
    ChangedSince base (scopes.push kind parent).2 := by
  refine changed.change (changed.wellFormed.push kind parent) ?_ .scopeAdded ?_
    (undo_push scopes kind parent)
  · by_cases unmarked : scopes.outstanding = 0 <;>
      simp [Scopes.push, record, unmarked]
  · intro marked
    simp [Scopes.push, record, marked]

/-- Finding or adding the scope of a declaration is a change, or none. -/
theorem scopeFor
    (changed : ChangedSince base scopes)
    (decl : DeclId)
    (parent : ScopeId)
    (kind : ScopeKind) :
    ChangedSince base (scopes.scopeFor decl parent kind).2 := by
  have wellFormed := changed.wellFormed.scopeFor decl parent kind
  cases found : scopes.savedScope? decl with
  | some scope =>
      simpa [Scopes.scopeFor, found] using changed
  | none =>
      have pushed := changed.push kind parent
      have pushedSaved : (scopes.push kind parent).2.saved = scopes.saved := by
        by_cases unmarked : scopes.outstanding = 0 <;>
          simp [Scopes.push, record, unmarked]
      have unsaved : (scopes.push kind parent).2.savedScope? decl = none := by
        simpa [savedScope?, pushedSaved] using found
      simp only [Scopes.scopeFor, found] at wellFormed ⊢
      generalize (scopes.push kind parent) = added at pushed unsaved wellFormed
      by_cases unmarked : added.2.outstanding = 0
      · refine pushed.change wellFormed ?_ (.scopeSaved decl) ?_ ?_
        · simp [record, unmarked]
        · simp [unmarked]
        · simpa [record, unmarked] using
            undo_scopeSaved unsaved
              { added.2 with saved := (decl, added.1) :: added.2.saved }
                added.1 rfl
      · refine pushed.change wellFormed ?_ (.scopeSaved decl) ?_ ?_
        · simp [record, unmarked]
        · simp [record, unmarked]
        · rw [undo_scopeSaved unsaved _ added.1 (by simp [record, unmarked])]
          simp [record, unmarked]

/-- Adding a declaration to an overload set is a change. -/
theorem declare
    (changed : ChangedSince base scopes)
    (scope : ScopeId)
    (key : Key)
    (decl : DeclId) :
    ChangedSince base (scopes.declare scope key decl).2 := by
  refine changed.change (changed.wellFormed.declare scope key decl) ?_
    (.declared scope key) ?_ (undo_declare changed.wellFormed scope key decl)
  · by_cases unmarked : scopes.outstanding = 0 <;>
      simp [Scopes.declare, record, unmarked]
  · intro marked
    simp [Scopes.declare, record, marked]

/-- Changes made under a mark that is then given back are changes. -/
theorem release
    (changed : ChangedSince base scopes)
    {after : Scopes}
    (watched : ChangedSince scopes.mark.2 after) :
    ChangedSince base after.release where
  wellFormed := watched.wellFormed.release
  outstanding := by
    simp [Scopes.release, watched.outstanding, mark, changed.outstanding]
  recorded := by
    intro marked
    obtain ⟨earlier, first⟩ := changed.recorded marked
    obtain ⟨later, second⟩ := watched.recorded (by simp [mark])
    have both := (first.recount scopes.mark.2.outstanding).trans second
    have kept : after.release.journal = after.journal := by
      simp [Scopes.release, watched.outstanding, mark, changed.outstanding,
        marked]
    refine ⟨later ++ earlier, ?_⟩
    have recounted := both.recount (after.outstanding - 1)
    rwa [show after.release =
      { after with outstanding := after.outstanding - 1 } by
      simpa [Scopes.release] using kept]

end ChangedSince

/--
Going back to a mark gives back the scopes of the mark, but for the current one.
-/
theorem goBack_mark
    {base scopes : Scopes}
    (wellFormed : base.WellFormed)
    (changed : ChangedSince base.mark.2 scopes) :
    scopes.goBack base.mark.1 = base.enter scopes.current := by
  obtain ⟨made, recorded⟩ := changed.recorded (by simp [mark])
  have outstanding : scopes.outstanding = base.outstanding + 1 :=
    changed.outstanding
  have journal : scopes.journal = made ++ base.journal := recorded.journal
  have undone :
      made.foldl undo scopes =
        { scopes with table := base.table, saved := base.saved } :=
    recorded.undone
  have entries : scopes.journal.length - base.journal.length = made.length := by
    simp [journal]
  have kept : (if base.outstanding = 0 then [] else base.journal) =
      base.journal := by
    by_cases unmarked : base.outstanding = 0
    · simp [unmarked, wellFormed.journalDropped unmarked]
    · simp [unmarked]
  simp only [goBack, mark, entries]
  rw [journal, List.take_left, List.drop_left, undone]
  simp [release, outstanding, enter, kept]

end Scopes

end Tern
