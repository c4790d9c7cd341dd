import Tern.Proofs.Scope.Marks

namespace Tern

/-!
# Looking names up

Every scope but that of the unit lies in an earlier one, so the walk outward
from a scope passes each scope once and ends at the unit. A lookup finds the set
of the first scope on that walk that binds the key. Both rest on invariants that
hold whatever was declared, replaced, removed and gone back from: no set is
empty, so a key without members hides nothing, and a declaration's scope stays
its own until the scopes go back to where it had none.
-/

namespace ScopeContents

/-- What scopes hold once a scope is added inside another one. -/
def push
    (contents : ScopeContents)
    (kind : ScopeKind)
    (parent : ScopeId) :
    ScopeContents :=
  { contents with
    count := contents.count + 1
    kindOf? := fun scope => if scope.raw = contents.count then some kind
      else contents.kindOf? scope
    parentOf? := fun scope =>
      if scope.raw = contents.count then some parent
        else contents.parentOf? scope }

/-- What scopes hold once a declaration has a scope of its own. -/
def save
    (contents : ScopeContents)
    (decl : DeclId)
    (scope : ScopeId) :
    ScopeContents :=
  { contents with
    savedScope? :=
      fun other => if other = decl then some scope
        else contents.savedScope? other }

/-- Scopes lie in earlier ones, and what is saved is among them. -/
structure Nested (contents : ScopeContents) : Prop where
  rootStored : ScopeTable.root.raw < contents.count
  rootOutermost : contents.parentOf? ScopeTable.root = none
  parentEarlier : ∀ scope : ScopeId, scope.raw < contents.count →
    scope ≠ ScopeTable.root →
    ∃ parent, contents.parentOf? scope = some parent ∧ parent.raw < scope.raw
  savedStored : ∀ decl scope, contents.savedScope? decl = some scope →
    scope.raw < contents.count
  /-- No two declarations have the same scope. -/
  savedApart : ∀ decl other scope, contents.savedScope? decl = some scope →
    contents.savedScope? other = some scope → decl = other

variable {contents : ScopeContents}

/-- Giving a key a set leaves scopes where they are. -/
private theorem Nested.put
    (nested : contents.Nested)
    (scope : ScopeId)
    (key : Key)
    (set : OverloadSet) :
    (contents.put scope key set).Nested :=
  { nested with }

/-- A scope added inside a stored one lies in an earlier one. -/
private theorem Nested.push
    (nested : contents.Nested)
    (kind : ScopeKind)
    {parent : ScopeId}
    (stored : parent.raw < contents.count) :
    (contents.push kind parent).Nested where
  rootStored := Nat.lt_succ_of_lt nested.rootStored
  rootOutermost := by
    have earlier : ScopeTable.root.raw ≠ contents.count :=
      Nat.ne_of_lt nested.rootStored
    simpa only [ScopeContents.push, earlier, ↓reduceIte]
      using nested.rootOutermost
  parentEarlier := by
    intro scope inBounds notRoot
    by_cases added : scope.raw = contents.count
    · exact ⟨parent, if_pos added, added ▸ stored⟩
    · have known : scope.raw < contents.count :=
        Nat.lt_of_le_of_ne (Nat.le_of_lt_succ inBounds) added
      obtain ⟨outer, found, earlier⟩ := nested.parentEarlier scope known notRoot
      exact ⟨outer, (if_neg added).trans found, earlier⟩
  savedStored decl scope saved :=
    Nat.lt_succ_of_lt (nested.savedStored decl scope saved)
  savedApart := nested.savedApart

/-- A new scope can be saved for a declaration that has none. -/
private theorem Nested.save
    (nested : contents.Nested)
    (kind : ScopeKind)
    {parent : ScopeId}
    (stored : parent.raw < contents.count)
    (decl : DeclId) :
    ((contents.push kind parent).save decl
      { raw := contents.count }).Nested := by
  have pushed := nested.push kind stored
  have unshared (other : DeclId) (scope : ScopeId)
      (saved : contents.savedScope? other = some scope) :
        scope ≠ { raw := contents.count } := by
    intro same
    have inBounds := nested.savedStored other scope saved
    simp [same] at inBounds
  refine { pushed with savedStored := ?_, savedApart := ?_ }
  · intro other scope saved
    by_cases own : other = decl
    · obtain rfl : { raw := contents.count } = scope := by
        simpa [ScopeContents.save, own] using saved
      exact Nat.lt_succ_self contents.count
    · have earlier : contents.savedScope? other = some scope := by
        simpa [ScopeContents.save, ScopeContents.push, own] using saved
      exact Nat.lt_succ_of_lt (nested.savedStored other scope earlier)
  · intro first second scope firstSaved secondSaved
    by_cases firstOwn : first = decl <;> by_cases secondOwn : second = decl
    · rw [firstOwn, secondOwn]
    · simp only [ScopeContents.save, ScopeContents.push, firstOwn, secondOwn,
        ↓reduceIte, Option.some.injEq] at firstSaved secondSaved
      exact absurd firstSaved.symm (unshared second scope secondSaved)
    · simp only [ScopeContents.save, ScopeContents.push, firstOwn, secondOwn,
        ↓reduceIte, Option.some.injEq] at firstSaved secondSaved
      exact absurd secondSaved.symm (unshared first scope firstSaved)
    · simp only [ScopeContents.save, ScopeContents.push, firstOwn, secondOwn,
        ↓reduceIte]
        at firstSaved secondSaved
      exact nested.savedApart first second scope firstSaved secondSaved

end ScopeContents

namespace Scopes

/-- What is written down is no part of what the scopes hold. -/
@[simp]
theorem contents_record
    (scopes : Scopes)
    (change : ScopeChange) :
    (scopes.record change).contents = scopes.contents := by
  unfold record
  split <;> rfl

/-- A scope added to the table is added to what the scopes hold. -/
private theorem contents_push
    (scopes : Scopes)
    (kind : ScopeKind)
    (parent : ScopeId) :
    (scopes.push kind parent).2.contents =
      scopes.contents.push kind parent := by
  have pushed (scope : ScopeId) :
      (scopes.table.push
        { parent? := some parent, kind := kind, bindings := [] })[scope.raw]? =
        if scope.raw = scopes.table.size then
          some { parent? := some parent, kind := kind, bindings := [] }
        else scopes.table[scope.raw]? :=
    Array.getElem?_push
  rw [push, contents_record]
  apply ScopeContents.ext
  · exact Array.size_push _
  · funext scope
    by_cases added : scope.raw = scopes.table.size <;>
      simp [contents, ScopeContents.push, ScopeTable.kindOf?, pushed, added]
  · funext scope
    by_cases added : scope.raw = scopes.table.size <;>
      simp [contents, ScopeContents.push, ScopeTable.parentOf?, pushed, added]
  · funext scope key
    by_cases added : scope.raw = scopes.table.size <;>
      simp [contents, ScopeContents.push, findLocal?, ScopeTable.findLocal?,
        pushed, added, Bindings.find?]
  · rfl

/-- The scope of a declaration that has none is added and saved. -/
private theorem scopeFor_of_unsaved
    {scopes : Scopes}
    {decl : DeclId}
    (unsaved : scopes.savedScope? decl = none)
    (parent : ScopeId)
    (kind : ScopeKind) :
    (scopes.scopeFor decl parent kind).1 = { raw := scopes.table.size } ∧
      (scopes.scopeFor decl parent kind).2.contents =
        (scopes.contents.push kind parent).save decl
          { raw := scopes.table.size } := by
  simp only [scopeFor, unsaved]
  refine ⟨rfl, ?_⟩
  rw [contents_record, ← contents_push]
  apply ScopeContents.ext <;> try rfl
  funext other
  by_cases own : other = decl
  · simp [contents, ScopeContents.save, savedScope?, own, push]
  · have missed : (other == decl) = false := by
      simpa using own
    simp [contents, ScopeContents.save, savedScope?, own, List.lookup_cons,
      missed]

/-- A change leaves what the scopes hold, gives a key a set, or adds a scope. -/
private theorem contents_call_cases
    {scopes : Scopes}
    {call : ScopeCall}
    (changes : call.Changes scopes) :
    (scopes.call call).contents = scopes.contents ∨
      (∃ scope key set, (scopes.call call).contents =
        scopes.contents.put scope key set) ∨
      ∃ kind parent, parent.raw < scopes.table.size ∧
        ((scopes.call call).contents = scopes.contents.push kind parent ∨
          ∃ decl, scopes.savedScope? decl = none ∧
            (scopes.call call).contents =
              (scopes.contents.push kind parent).save decl
                { raw := scopes.table.size }) := by
  cases call with
  | enter scope =>
      exact .inl (by simp only [call]; rfl)
  | push kind parent =>
      exact .inr
        (.inr ⟨kind, parent, changes,
          .inl (by simpa only [call] using contents_push ..)⟩)
  | scopeFor decl parent kind =>
      cases saved : scopes.savedScope? decl with
      | some scope => exact .inl (by simp only [call, scopeFor, saved])
      | none =>
          exact .inr (.inr ⟨kind, parent, changes, .inr ⟨decl, saved, by
            simpa only [call] using (scopeFor_of_unsaved saved parent kind).2⟩⟩)
  | declare scope key decl =>
      exact .inr (.inl ⟨scope, key, _, by
        simp only [call, declare, contents_record]
        exact contents_put ..⟩)
  | replaceMember scope key previous next =>
      simp only [call, replaceMember?]
      split
      · exact .inl rfl
      · split
        · exact .inl rfl
        · exact .inr (.inl ⟨scope, key, _, by
            simp only [Option.getD_some, contents_record]
            exact contents_put ..⟩)
  | removeMember scope key decl =>
      simp only [call, removeMember?]
      split
      · exact .inl rfl
      · split
        · exact .inl rfl
        · exact .inr (.inl ⟨scope, key, _, by
            simp only [Option.getD_some, contents_record]
            exact contents_put ..⟩)
  | released calls => exact changes.elim
  | takenBack calls => exact changes.elim

/-- Changes keep scopes in earlier ones. -/
private theorem nested_call
    {scopes : Scopes}
    {call : ScopeCall}
    (changes : call.Changes scopes)
    (nested : scopes.contents.Nested) :
    (scopes.call call).contents.Nested := by
  obtain same | ⟨scope, key, set, given⟩ |
      ⟨kind, parent, stored, added | ⟨decl, -, saved⟩⟩ :=
    contents_call_cases changes
  · rw [same]
    exact nested
  · rw [given]
    exact nested.put scope key set
  · rw [added]
    exact nested.push kind stored
  · rw [saved]
    exact nested.save kind stored decl

/-- Changes leave declarations the scopes that they have. -/
private theorem savedScope?_call
    {scopes : Scopes}
    {call : ScopeCall}
    (changes : call.Changes scopes)
    {decl : DeclId}
    {scope : ScopeId}
    (saved : scopes.contents.savedScope? decl = some scope) :
    (scopes.call call).contents.savedScope? decl = some scope := by
  obtain same | ⟨holder, key, set, given⟩ |
      ⟨kind, parent, -, added | ⟨other, unsaved, new⟩⟩ :=
    contents_call_cases changes
  · rwa [same]
  · rwa [given]
  · rwa [added]
  · have different : decl ≠ other := by
      rintro rfl
      simp [contents, unsaved] at saved
    rw [new]
    exact (if_neg different).trans saved

/-- Before anything is parsed the scope of the unit is the only one. -/
private theorem nested_initial : Scopes.initial.contents.Nested where
  rootStored := Nat.zero_lt_one
  rootOutermost := rfl
  parentEarlier := by
    intro scope inBounds notRoot
    have first : scope = ScopeTable.root := by
      rcases scope with ⟨raw⟩
      exact congrArg Slot.mk (Nat.lt_one_iff.mp inBounds)
    exact absurd first notRoot
  savedStored decl scope saved := by
    simp [contents, initial, savedScope?] at saved
  savedApart decl other scope saved := by
    simp [contents, initial, savedScope?] at saved

section Runs

variable {marks own left : List ScopesMark} {scopes later : Scopes}

/-- In scopes made in order every scope lies in an earlier one. -/
private theorem Disciplined.nested
    (disciplined : scopes.Disciplined marks) :
    scopes.Marked marks ∧ scopes.contents.Nested := by
  obtain ⟨marked, upholds⟩ :=
    disciplined.upholds (fun _ => nested_call) .initial nested_initial
  exact ⟨by simpa using marked, upholds.now⟩

/--
A declaration keeps its scope as long as the scopes do not go back to an earlier
mark.
-/
private theorem Onward.savedScope?
    (marked : scopes.Marked marks)
    (run : Onward scopes marks own left later)
    {decl : DeclId}
    {scope : ScopeId}
    (saved : scopes.savedScope? decl = some scope) :
    later.savedScope? decl = some scope :=
  let keeps (contents : ScopeContents) : Prop :=
    contents.savedScope? decl = some scope
  have upheld : later.Upholds own keeps :=
    (run.upholds (fun _ changes saved => savedScope?_call changes saved) marked
      saved).2
  upheld.now

end Runs

end Scopes

namespace ScopeTable

/--
The scopes passed on the walk outward from a scope, the scope itself first.
-/
inductive Outward (table : ScopeTable) : ScopeId → List ScopeId → Prop where
  | outermost {scope : ScopeId} (outside : table.parentOf? scope = none) :
      Outward table scope [scope]
  | inside {scope parent : ScopeId} {walk : List ScopeId}
      (around : table.parentOf? scope = some parent)
        (further : Outward table parent walk) :
      Outward table scope (scope :: walk)

variable {table : ScopeTable} {scope : ScopeId} {walk other : List ScopeId}

/-- The walk outward from a scope is determined. -/
private theorem Outward.unique
    (outward : table.Outward scope walk)
    (outward' : table.Outward scope other) :
    walk = other := by
  induction outward generalizing other with
  | outermost outside =>
      cases outward' with
      | outermost _ => rfl
      | inside around _ => simp [outside] at around
  | inside around _ inductionHypothesis =>
      cases outward' with
      | outermost outside => simp [outside] at around
      | inside around' further =>
          obtain rfl := Option.some.inj (around.symm.trans around')
          rw [inductionHypothesis further]

/--
A bounded search that can walk all the way finds the first set on the walk.
-/
private theorem Outward.findWithin?
    (outward : table.Outward scope walk)
    (key : Key)
    {bound : Nat}
    (enough : walk.length ≤ bound) :
    table.findWithin? key bound scope =
      walk.findSome? (table.findLocal? · key) := by
  induction outward generalizing bound with
  | @outermost scope outside =>
      obtain ⟨further, rfl⟩ := Nat.exists_eq_add_of_le' enough
      simp only [List.length_singleton, ScopeTable.findWithin?, outside,
        List.findSome?_cons, List.findSome?_nil]
      cases table.findLocal? scope key <;> rfl
  | @inside scope parent walk around _ inductionHypothesis =>
      obtain ⟨further, rfl⟩ : ∃ further, bound = further + 1 :=
        Nat.exists_eq_add_of_le' (Nat.le_trans (Nat.le_add_left 1 _) enough)
      have fromParent := inductionHypothesis (Nat.le_of_succ_le_succ enough)
      simp only [ScopeTable.findWithin?, around, List.findSome?_cons,
        fromParent]
      cases table.findLocal? scope key <;> rfl

end ScopeTable

namespace Scopes

variable {scopes : Scopes}

/--
From a scope that is there the walk outward passes ever earlier scopes up to the
unit's. The walk ends since each parent has a smaller number than the scope
inside it.
-/
private theorem exists_outward
    (nested : scopes.contents.Nested)
    (scope : ScopeId)
    (stored : scope.raw < scopes.table.size) :
    ∃ walk, scopes.table.Outward scope walk ∧ walk.getLast? =
      some ScopeTable.root ∧
      walk.length ≤ scope.raw + 1 := by
  induction number : scope.raw using Nat.strongRecOn generalizing scope with
  | ind number inductionHypothesis =>
      subst number
      by_cases isRoot : scope = ScopeTable.root
      · subst isRoot
        exact ⟨[ScopeTable.root], .outermost nested.rootOutermost, rfl, by simp⟩
      · obtain ⟨parent, around, earlier⟩ :=
          nested.parentEarlier scope stored isRoot
        obtain ⟨walk, outward, last, short⟩ :=
          inductionHypothesis parent.raw earlier parent
            (Nat.lt_trans earlier stored) rfl
        refine ⟨scope :: walk, .inside around outward, ?_, ?_⟩
        · rw [List.getLast?_cons, last, Option.getD_some]
        · simp only [List.length_cons]
          omega

/--
What becomes of a declaration tells whether its key was bound, and how often.
-/
private theorem declare_became
    (noEmptySet : scopes.table.NoEmptySet)
    (scope : ScopeId)
    (key : Key)
    (decl : DeclId) :
    ((scopes.declare scope key decl).1 = .fresh ↔ scopes.findLocal? scope key =
      none) ∧
      ∀ position, (scopes.declare scope key decl).1 = .merged position ↔
        ∃ set, scopes.findLocal? scope key = some set ∧ position =
          set.length := by
  cases found : scopes.findLocal? scope key with
  | none => simp [declare, found]
  | some set =>
      have nonempty := findLocal?_ne_nil noEmptySet found
      refine ⟨by simp [declare, found, nonempty], ?_⟩
      intro position
      have became : (scopes.declare scope key decl).1 = .merged set.length := by
        simp [declare, found, nonempty]
      rw [became]
      constructor
      · rintro ⟨⟩
        exact ⟨set, rfl, rfl⟩
      · rintro ⟨_, ⟨⟩, rfl⟩
        rfl

/--
A declaration comes last in the set of its key, and every other set stays.
-/
private theorem findLocal?_declare
    {scope : ScopeId}
    (stored : scope.raw < scopes.table.size)
    (key : Key)
    (decl : DeclId)
    (other : ScopeId)
    (name : Key) :
    (scopes.declare scope key decl).2.findLocal? other name =
      if other = scope ∧ name = key then
        some ((scopes.findLocal? scope key).getD [] ++ [decl])
      else scopes.findLocal? other name := by
  simp [declare, findLocal?, ScopeTable.findLocal?_put_eq, stored]

/--
In scopes made in order, with marks released and gone back to as in a stack:
every scope but the unit's lies in an earlier one, and no set is empty. A
declaration that was given a scope keeps it as long as the scopes do not go back
to an earlier mark. A declaration comes last in the set of its key, and is told
whether the key was bound and at which place it stands. The walk outward from a
scope ends at the unit, and a lookup finds the set of the first scope on it that
binds the key, and nothing just if none of them does.
-/
theorem finds_nearest
    {marks : List ScopesMark}
    (disciplined : scopes.Disciplined marks) :
    ((∀ scope : ScopeId, scope.raw < scopes.table.size →
      scope ≠ ScopeTable.root →
          ∃ parent, scopes.table.parentOf? scope = some parent ∧
            parent.raw < scope.raw) ∧
        scopes.table.NoEmptySet) ∧
      (∀ decl parent kind, parent.raw < scopes.table.size →
        ∀ {own left later},
          Onward (scopes.scopeFor decl parent kind).2 marks own left later →
            ∀ parent' kind',
              later.scopeFor decl parent' kind' =
                ((scopes.scopeFor decl parent kind).1, later)) ∧
      (∀ scope key decl, scope.raw < scopes.table.size →
        ((scopes.declare scope key decl).1 = .fresh ↔
          scopes.findLocal? scope key = none) ∧
          (∀ position, (scopes.declare scope key decl).1 = .merged position ↔
            ∃ set, scopes.findLocal? scope key = some set ∧ position =
              set.length) ∧
          ∀ other name, (scopes.declare scope key decl).2.findLocal? other
            name =
            if other = scope ∧ name = key then
              some ((scopes.findLocal? scope key).getD [] ++ [decl])
            else scopes.findLocal? other name) ∧
      ∀ scope : ScopeId, scope.raw < scopes.table.size →
        ∃ walk, scopes.table.Outward scope walk ∧ walk.getLast? =
          some ScopeTable.root ∧
          ∀ key,
            (∀ bound, walk.length ≤ bound →
              scopes.table.findWithin? key bound scope =
                scopes.find? scope key) ∧
            (∀ set, scopes.find? scope key = some set ↔
              ∃ passed holder further, walk = passed ++ holder :: further ∧
                scopes.findLocal? holder key = some set ∧
                ∀ inner ∈ passed, scopes.findLocal? inner key = none) ∧
            (scopes.find? scope key = none ↔
              ∀ outer ∈ walk, scopes.findLocal? outer key = none) := by
  obtain ⟨marked, nested⟩ := disciplined.nested
  have noEmptySet := marked.wellFormed.noEmptySet
  refine ⟨⟨nested.parentEarlier, noEmptySet⟩, ?_, ?_, ?_⟩
  · intro decl parent kind stored own left later run parent' kind'
    have saved :
        (scopes.scopeFor decl parent kind).2.savedScope? decl =
          some (scopes.scopeFor decl parent kind).1 :=
      savedScope?_scopeFor scopes decl parent kind
    have markedAfter : (scopes.scopeFor decl parent kind).2.Marked marks := by
      simpa only [call] using marked.call (.scopeFor decl parent kind)
    have still := run.savedScope? markedAfter saved
    simp only [scopeFor, still]
  · intro scope key decl stored
    obtain ⟨fresh, merged⟩ := declare_became noEmptySet scope key decl
    exact ⟨fresh, merged, findLocal?_declare stored key decl⟩
  · intro scope stored
    obtain ⟨walk, outward, last, short⟩ := exists_outward nested scope stored
    refine ⟨walk, outward, last, ?_⟩
    intro key
    have found : scopes.find? scope key =
        walk.findSome? (scopes.findLocal? · key) :=
      outward.findWithin? key (by omega)
    refine ⟨?_, ?_, ?_⟩
    · intro bound enough
      rw [found]
      exact outward.findWithin? key enough
    · intro set
      rw [found, List.findSome?_eq_some_iff]
    · rw [found, List.findSome?_eq_none_iff]

/--
A set that was emptied hides no outer one, and the scope outlives the mark set
in it.
-/
theorem finds_nearest_emptied :
    let key := Key.placeholder 0
    let outer : DeclId := { raw := 0 }
    let function : DeclId := { raw := 1 }
    let bound := (initial.declare ScopeTable.root key outer).2
    let opened := bound.scopeFor function ScopeTable.root .function
    let hidden := (opened.2.mark.2.declare opened.1 key function).2
    let emptied := hidden.call (.removeMember opened.1 key function)
    Disciplined [] bound ∧ Disciplined [opened.2.mark.1] emptied ∧
      hidden.find? opened.1 key = some [function] ∧
      emptied.find? opened.1 key = some [outer] ∧
      (emptied.goBack opened.2.mark.1).scopeFor function opened.1 .block =
        (opened.1, emptied.goBack opened.2.mark.1) := by
  intro key outer function bound opened hidden emptied
  have boundRun : Disciplined [] bound :=
    .call .refl (.declare ScopeTable.root key outer) Nat.zero_lt_one
  have openedRun : Disciplined [] opened.2 :=
    .call boundRun (.scopeFor function ScopeTable.root .function)
      (by decide : 0 < bound.table.size)
  have stored : opened.1.raw < opened.2.mark.2.table.size := by
    decide
  have storedStill : opened.1.raw < hidden.table.size := by
    decide
  have emptiedSince : Onward opened.2 [] [opened.2.mark.1] [] emptied :=
    .call (.call (.mark .refl) (.declare opened.1 key function) stored)
      (.removeMember opened.1 key function) storedStill
  have emptiedRun : Disciplined [opened.2.mark.1] emptied :=
    .call (.call (.mark openedRun) (.declare opened.1 key function) stored)
      (.removeMember opened.1 key function) storedStill
  have hiddenFinds : hidden.find? opened.1 key = some [function] := by
    decide
  obtain ⟨walk, outward, -, finds⟩ :=
    (finds_nearest emptiedRun).2.2.2 opened.1 (by decide)
  have walked : walk = [opened.1, ScopeTable.root] :=
    outward.unique (.inside (by decide) (.outermost (by decide)))
  have emptiedFinds : emptied.find? opened.1 key = some [outer] := by
    refine ((finds key).2.1 [outer]).mpr
      ⟨[opened.1], ScopeTable.root, [], walked, ?_, ?_⟩
    · decide
    · decide
  have kept :=
    (finds_nearest boundRun).2.1 function ScopeTable.root .function (by decide)
      (.goBack emptiedSince) opened.1 .block
  exact ⟨boundRun, emptiedRun, hiddenFinds, emptiedFinds, kept⟩

end Scopes

end Tern
