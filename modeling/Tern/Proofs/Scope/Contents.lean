import Mathlib.Data.List.InsertIdx
import Tern.Proofs.Scope.Undo

namespace Tern

/-!
# What scopes hold

What scopes hold is what lookups in them find: how many there are, their kinds
and parents, the overload sets of their keys, and the scopes saved for
declarations. Taking back the removal of the last member of an overload set
binds the key anew, perhaps at another place among the bindings of its scope. No
lookup tells these places apart, so undoing any change gives back what the
scopes held before it.
-/

/--
Without the entries of a key a list of entries knows nothing of it, and the rest
as before.
-/
private theorem lookup_filter_ne
    {Name Value : Type}
    [DecidableEq Name]
    (entries : List (Name × Value))
    (name other : Name) :
    (entries.filter fun entry => entry.1 ≠ name).lookup other =
      if other = name then none else entries.lookup other := by
  induction entries with
  | nil =>
      simp
  | cons entry rest inductionHypothesis =>
      rcases entry with ⟨held, value⟩
      by_cases dropped : held = name
      · rw [List.filter_cons_of_neg (by simpa using dropped),
          inductionHypothesis]
        by_cases same : other = name
        · simp [same]
        · have missed : (other == held) = false := by
            simpa [dropped] using same
          simp [same, List.lookup_cons, missed]
      · rw [List.filter_cons_of_pos (by simpa using dropped), List.lookup_cons,
          List.lookup_cons, inductionHypothesis]
        by_cases same : other = held
        · simp [same, dropped]
        · have missed : (other == held) = false := by
            simpa using same
          simp [missed]

namespace Bindings

/-- An assignment leaves the sets of the other keys. -/
private theorem find?_assign_of_ne
    (bindings : Bindings)
    {key other : Key}
    (different : other ≠ key)
    (set : OverloadSet) :
    (bindings.assign key set).find? other = bindings.find? other := by
  induction bindings with
  | nil =>
      rfl
  | cons binding rest inductionHypothesis =>
      rcases binding with ⟨bound, old⟩
      simp only [find?] at inductionHypothesis
      by_cases same : bound = key
      · have missed : (other == bound) = false := by
          simpa [same] using different
        simp only [assign, find?, if_pos same, List.lookup_cons, missed]
      · simp [assign, find?, List.lookup_cons, same, inductionHypothesis]

/--
After a gift a key has the set given, unless that is empty; the other keys keep
theirs.
-/
private theorem find?_put_eq
    (bindings : Bindings)
    (key other : Key)
    (set : OverloadSet) :
    (bindings.put key set).find? other =
      if other = key then (if set = [] then none else some set)
      else bindings.find? other := by
  cases set with
  | nil =>
      simpa only [put, ↓reduceIte] using! lookup_filter_ne bindings key other
  | cons first rest =>
      by_cases same : other = key
      · subst same
        simpa using find?_put bindings other (List.cons_ne_nil first rest)
      · cases found : bindings.find? key with
        | some old =>
            simpa [put, found, same] using
              find?_assign_of_ne bindings same (first :: rest)
        | none =>
            have missed : (other == key) = false := by
              simpa using same
            simp only [put, found, same, ↓reduceIte]
            simp [find?, List.lookup_cons, missed]

end Bindings

namespace ScopeTable

variable (table : ScopeTable) (scope : ScopeId) (key : Key) (set : OverloadSet)

/-- A scope that was given a set has only its bindings changed. -/
private theorem getElem?_put
    (other : Nat) :
    (table.put scope key set)[other]? =
      table[other]?.map fun found =>
        if other = scope.raw
          then { found with bindings := found.bindings.put key set }
        else found := by
  cases stored : table[scope.raw]? with
  | none =>
      simp only [put, stored]
      by_cases same : other = scope.raw
      · subst same
        simp [stored]
      · simp [same]
  | some found =>
      simp only [put, stored, Array.getElem?_setIfInBounds]
      by_cases same : other = scope.raw
      · subst same
        obtain ⟨inBounds, rfl⟩ := Array.getElem?_eq_some_iff.mp stored
        simp [inBounds]
      · simp [same, Ne.symm same]

@[simp]
theorem size_put : (table.put scope key set).size = table.size := by
  cases stored : table[scope.raw]? <;> simp [put, stored]

@[simp]
theorem kindOf?_put (other : ScopeId) :
    (table.put scope key set).kindOf? other = table.kindOf? other := by
  simp only [kindOf?, getElem?_put, Option.map_map]
  congr 1
  funext found
  by_cases same : other.raw = scope.raw <;> simp [same]

@[simp]
theorem parentOf?_put (other : ScopeId) :
    (table.put scope key set).parentOf? other = table.parentOf? other := by
  simp only [parentOf?, getElem?_put]
  cases table[other.raw]? with
  | none => rfl
  | some found =>
      by_cases same : other.raw = scope.raw <;> simp [same]

/-- A gift to a key of a stored scope shows at that key of that scope alone. -/
theorem findLocal?_put_eq
    (other : ScopeId)
    (name : Key) :
    (table.put scope key set).findLocal? other name =
      if scope.raw < table.size ∧ other = scope ∧ name = key then
        (if set = [] then none else some set)
      else table.findLocal? other name := by
  simp only [findLocal?, getElem?_put]
  by_cases stored : other.raw < table.size
  · have found : table[other.raw]? = some table[other.raw] :=
      Array.getElem?_eq_getElem stored
    by_cases same : other = scope
    · subst same
      simp [stored, Bindings.find?_put_eq]
    · have different : other.raw ≠ scope.raw := by
        intro equal
        cases other
        cases scope
        simp_all
      simp [found, same, different]
  · have missing : table[other.raw]? = none :=
      Array.getElem?_eq_none (by omega)
    have notThere :
        ¬ (scope.raw < table.size ∧ other = scope ∧ name = key) := by
      rintro ⟨inBounds, rfl, -⟩
      exact stored inBounds
    simp [missing, notThere]

end ScopeTable

/-- All that lookups in scopes can find out. -/
@[ext]
structure ScopeContents where
  /-- The number of scopes. -/
  count : Nat
  kindOf? : ScopeId → Option ScopeKind
  parentOf? : ScopeId → Option ScopeId
  /--
  The overload set of a key with its members in order, if the key is bound.
  -/
  findLocal? : ScopeId → Key → Option OverloadSet
  /-- The scope that a declaration opened. -/
  savedScope? : DeclId → Option ScopeId

namespace ScopeContents

/--
Give a key of a scope an overload set; a key with an empty set is forgotten.
-/
def put
    (contents : ScopeContents)
    (scope : ScopeId)
    (key : Key)
    (set : OverloadSet) :
    ScopeContents :=
  { contents with
    findLocal? := fun other name =>
      if scope.raw < contents.count ∧ other = scope ∧ name = key then
        (if set = [] then none else some set)
      else contents.findLocal? other name }

/-- What scopes hold after a change is undone. -/
def undo (contents : ScopeContents) : ScopeChange → ScopeContents
  | .scopeAdded =>
      { contents with
        count := contents.count - 1
        kindOf? := fun scope =>
          if scope.raw < contents.count - 1 then contents.kindOf? scope
            else none
        parentOf? := fun scope =>
          if scope.raw < contents.count - 1 then contents.parentOf? scope
            else none
        findLocal? := fun scope key =>
          if scope.raw < contents.count - 1 then contents.findLocal? scope key
            else none }
  | .scopeSaved decl =>
      { contents with
        savedScope? :=
          fun other => if other = decl then none
            else contents.savedScope? other }
  | .declared scope key =>
      match contents.findLocal? scope key with
      | none => contents
      | some set => contents.put scope key set.dropLast
  | .replaced scope key position previous =>
      match contents.findLocal? scope key with
      | none => contents
      | some set => contents.put scope key (set.set position previous)
  | .removed scope key position decl =>
      contents.put scope key
        (((contents.findLocal? scope key).getD []).insertIdx position decl)

/-- Of two gifts to the same key the later one stands. -/
@[simp]
theorem put_put
    (contents : ScopeContents)
    (scope : ScopeId)
    (key : Key)
    (first second : OverloadSet) :
    (contents.put scope key first).put scope key second =
      contents.put scope key second := by
  simp only [put, ScopeContents.mk.injEq, true_and, and_true]
  funext other name
  by_cases given : scope.raw < contents.count ∧ other = scope ∧ name = key <;>
    simp [given]

/-- A key that is given the set that it has keeps it. -/
private theorem put_findLocal?
    {contents : ScopeContents}
    {scope : ScopeId}
    {key : Key}
    {set : OverloadSet}
    (found : contents.findLocal? scope key = some set)
    (nonempty : set ≠ []) :
    contents.put scope key set = contents := by
  apply ScopeContents.ext <;> try rfl
  funext other name
  by_cases given : scope.raw < contents.count ∧ other = scope ∧ name = key
  · obtain ⟨inBounds, rfl, rfl⟩ := given
    simp [put, inBounds, found, nonempty]
  · simp [put, given]

/-- A key of a scope that is there has the set given, unless that is empty. -/
private theorem findLocal?_put
    {contents : ScopeContents}
    {scope : ScopeId}
    (stored : scope.raw < contents.count)
    (key : Key)
    (set : OverloadSet) :
    (contents.put scope key set).findLocal? scope key =
      if set = [] then none else some set := by
  simp [put, stored]

end ScopeContents

namespace Scopes

/-- What scopes hold, as lookups find it. -/
def contents (scopes : Scopes) : ScopeContents where
  count := scopes.table.size
  kindOf? := scopes.table.kindOf?
  parentOf? := scopes.table.parentOf?
  findLocal? := scopes.findLocal?
  savedScope? := scopes.savedScope?

/-- Scopes that hold the same have the same overload sets. -/
theorem findLocal?_of_contents
    {left right : Scopes}
    (same : left.contents = right.contents)
    (scope : ScopeId)
    (key : Key) :
    left.findLocal? scope key = right.findLocal? scope key :=
  congrFun₂ (congrArg ScopeContents.findLocal? same) scope key

/-- The scope that is looked up for a declaration, or added, is saved for it. -/
theorem savedScope?_scopeFor
    (scopes : Scopes)
    (decl : DeclId)
    (parent : ScopeId)
    (kind : ScopeKind) :
    (scopes.scopeFor decl parent kind).2.saved.lookup decl =
      some (scopes.scopeFor decl parent kind).1 := by
  cases known : scopes.saved.lookup decl with
  | some scope => simp [scopeFor, savedScope?, known]
  | none => simp [scopeFor, savedScope?, known, push]

/--
Giving a key a set in the table gives it that set in what the scopes hold.
-/
theorem contents_put
    (scopes : Scopes)
    (scope : ScopeId)
    (key : Key)
    (set : OverloadSet) :
    contents { scopes with table := scopes.table.put scope key set } =
      scopes.contents.put scope key set := by
  apply ScopeContents.ext
  · exact ScopeTable.size_put ..
  · funext other
    exact ScopeTable.kindOf?_put ..
  · funext other
    exact ScopeTable.parentOf?_put ..
  · funext other name
    exact ScopeTable.findLocal?_put_eq ..
  · rfl

/-- Removing the last scope takes away what lookups found there. -/
private theorem contents_pop
    (scopes : Scopes) :
    contents { scopes with table := scopes.table.pop } =
      scopes.contents.undo .scopeAdded := by
  have popped (scope : ScopeId) :
      scopes.table.pop[scope.raw]? =
        if scope.raw < scopes.table.size - 1 then scopes.table[scope.raw]?
            else none :=
    Array.getElem?_pop
  apply ScopeContents.ext
  · exact Array.size_pop
  · funext scope
    by_cases kept : scope.raw < scopes.table.size - 1 <;>
      simp only [contents, ScopeContents.undo, ScopeTable.kindOf?, popped, kept,
        ↓reduceIte, Option.map_none]
  · funext scope
    by_cases kept : scope.raw < scopes.table.size - 1 <;>
      simp only [contents, ScopeContents.undo, ScopeTable.parentOf?, popped,
        kept, ↓reduceIte, Option.bind_none]
  · funext scope key
    by_cases kept : scope.raw < scopes.table.size - 1 <;>
      simp only [contents, ScopeContents.undo, findLocal?,
        ScopeTable.findLocal?, popped, kept, ↓reduceIte, Option.bind_none]
  · rfl

/-- Undoing a change does to what the scopes hold what it says. -/
theorem contents_undo
    (scopes : Scopes)
    (change : ScopeChange) :
    (scopes.undo change).contents = scopes.contents.undo change := by
  cases change with
  | scopeAdded =>
      exact contents_pop scopes
  | scopeSaved decl =>
      apply ScopeContents.ext <;> try rfl
      funext other
      exact lookup_filter_ne scopes.saved decl other
  | declared scope key =>
      have lookup : scopes.contents.findLocal? scope key =
          scopes.findLocal? scope key := rfl
      cases found : scopes.findLocal? scope key with
      | none => simp [undo, ScopeContents.undo, lookup, found]
      | some set => simpa [undo, ScopeContents.undo, lookup, found]
          using contents_put ..
  | replaced scope key position previous =>
      have lookup : scopes.contents.findLocal? scope key =
          scopes.findLocal? scope key := rfl
      cases found : scopes.findLocal? scope key with
      | none => simp [undo, ScopeContents.undo, lookup, found]
      | some set => simpa [undo, ScopeContents.undo, lookup, found]
          using contents_put ..
  | removed scope key position decl =>
      exact contents_put ..

/-- Undoing changes one after the other does so to what the scopes hold. -/
theorem contents_foldl_undo
    (made : List ScopeChange)
    (scopes : Scopes) :
    (made.foldl undo scopes).contents =
      made.foldl ScopeContents.undo scopes.contents := by
  induction made generalizing scopes with
  | nil =>
      rfl
  | cons change rest inductionHypothesis =>
      rw [List.foldl_cons, List.foldl_cons, inductionHypothesis, contents_undo]

/-- A set found among scopes without empty sets is not empty. -/
theorem findLocal?_ne_nil
    {scopes : Scopes}
    (noEmptySet : scopes.table.NoEmptySet)
    {scope : ScopeId}
    {key : Key}
    {set : OverloadSet}
    (found : scopes.findLocal? scope key = some set) :
    set ≠ [] := by
  obtain ⟨holder, stored, bound⟩ := Option.bind_eq_some_iff.mp found
  exact (noEmptySet holder (Array.mem_of_getElem? stored)).find?_ne_nil bound

/-- A set is found in scopes that are there only. -/
theorem lt_of_findLocal?
    {scopes : Scopes}
    {scope : ScopeId}
    {key : Key}
    {set : OverloadSet}
    (found : scopes.findLocal? scope key = some set) :
    scope.raw < scopes.contents.count := by
  obtain ⟨holder, stored, -⟩ := Option.bind_eq_some_iff.mp found
  exact (Array.getElem?_eq_some_iff.mp stored).1

/-- Undoing the addition of a scope gives back what the scopes held. -/
theorem contents_undo_pushed
    (scopes : Scopes)
    (kind : ScopeKind)
    (parent : ScopeId) :
    (undo
        { scopes with
          table :=
            scopes.table.push
              { parent? := some parent, kind := kind, bindings := [] } }
        .scopeAdded).contents =
      scopes.contents := by
  simp only [undo, Array.pop_push]

section Members

variable {scopes : Scopes} {scope : ScopeId} {key : Key} {set : OverloadSet}
  {position : Nat}

/-- Undoing the addition of a member gives back what the scopes held. -/
theorem contents_undo_declared
    (noEmptySet : scopes.table.NoEmptySet)
    (scope : ScopeId)
    (key : Key)
    (decl : DeclId) :
    (undo
        { scopes with
          table :=
            scopes.table.put scope key
              ((scopes.findLocal? scope key).getD [] ++ [decl]) }
        (.declared scope key)).contents =
      scopes.contents := by
  have wellFormed :
      WellFormed { scopes with journal := [], outstanding := 0 } :=
    { noEmptySet := noEmptySet, journalDropped := fun _ => rfl }
  have undone := congrArg contents (undo_declare wellFormed scope key decl)
  rw [contents_undo] at undone ⊢
  exact undone

/-- Undoing the replacement of a member gives back what the scopes held. -/
theorem contents_undo_replaced
    (noEmptySet : scopes.table.NoEmptySet)
    (found : scopes.findLocal? scope key = some set)
    {previous : DeclId}
    (stands : set.idxOf? previous = some position)
    (next : DeclId) :
    (undo { scopes with
            table := scopes.table.put scope key (set.set position next) }
        (.replaced scope key position previous)).contents =
      scopes.contents := by
  have nonempty : set ≠ [] := findLocal?_ne_nil noEmptySet found
  obtain ⟨inBounds, isPrevious, -⟩ :=
    List.findIdx?_eq_some_iff_getElem.mp stands
  have previousBack : (set.set position next).set position previous = set := by
    rw [List.set_set, ← beq_iff_eq.mp isPrevious, List.set_getElem_self]
  have changed : set.set position next ≠ [] := by
    simpa using nonempty
  rw [contents_undo, contents_put]
  simp only [ScopeContents.undo,
    ScopeContents.findLocal?_put (lt_of_findLocal? found), changed, ↓reduceIte,
    ScopeContents.put_put, previousBack]
  exact ScopeContents.put_findLocal? found nonempty

/-- Undoing the removal of a member gives back what the scopes held. -/
theorem contents_undo_removed
    (noEmptySet : scopes.table.NoEmptySet)
    (found : scopes.findLocal? scope key = some set)
    {decl : DeclId}
    (stands : set.idxOf? decl = some position) :
    (undo { scopes with
            table := scopes.table.put scope key (set.eraseIdx position) }
        (.removed scope key position decl)).contents =
      scopes.contents := by
  have nonempty : set ≠ [] := findLocal?_ne_nil noEmptySet found
  obtain ⟨inBounds, isDecl, -⟩ := List.findIdx?_eq_some_iff_getElem.mp stands
  have declBack : (set.eraseIdx position).insertIdx position decl = set := by
    rw [← beq_iff_eq.mp isDecl]
    exact List.insertIdx_eraseIdx_getElem inBounds
  have remaining (shorter : OverloadSet) :
      (if shorter = [] then none else some shorter : Option OverloadSet).getD
        [] = shorter := by
    by_cases empty : shorter = [] <;> simp [empty]
  rw [contents_undo, contents_put]
  simp only [ScopeContents.undo, ScopeContents.findLocal?_put
    (lt_of_findLocal? found), remaining, ScopeContents.put_put, declBack]
  exact ScopeContents.put_findLocal? found nonempty

end Members

end Scopes

end Tern
