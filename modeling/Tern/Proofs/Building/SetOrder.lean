import Tern.Proofs.Building.Enrolling

namespace Tern

/-!
# Overload sets in order

The members of an overload set follow each other in the text, and what a scope
binds starts before some offset. Some declarations do not count. Here it is said
what of that is left when members are added, replaced or taken away.
-/

/-- The offset at which a declaration starts. -/
def Arena.startOf (arena : Arena) (decl : DeclId) : Nat :=
  (arena.decl decl).span.start

namespace ScopeTable

/--
All that is bound in a scope under identifiers starts before an offset, but for
some declarations that do not count.
-/
def BindsBefore
    (table : ScopeTable)
    (arena : Arena)
    (out : DeclId → Prop)
    (scope : ScopeId)
    (offset : Nat) : Prop :=
  ∀ ⦃name set⦄, table.findLocal? scope (.simple name) = some set → ∀ decl ∈ set,
    ¬ out decl →
    arena.startOf decl < offset

/--
The members of each overload set of an identifier start one behind the other.
-/
def InOrder (table : ScopeTable) (arena : Arena) (out : DeclId → Prop) : Prop :=
  ∀ ⦃scope name set⦄, table.findLocal? scope (.simple name) = some set →
    set.Pairwise fun first second =>
      ¬ out first → ¬ out second → arena.startOf first < arena.startOf second

variable {table later : ScopeTable} {arena after : Arena} {out : DeclId → Prop}
  {scope : ScopeId}
  {offset : Nat}

/-- What starts before an offset starts before later ones. -/
theorem BindsBefore.mono
    (before : table.BindsBefore arena out scope offset)
    {further : Nat}
    (onward : offset ≤ further) :
    table.BindsBefore arena out scope further :=
  fun _ _ found decl listed counts =>
    Nat.lt_of_lt_of_le (before found decl listed counts) onward

/--
Where a scope binds the same declarations, and these start where they did,
nothing changes.
-/
theorem BindsBefore.congr
    (before : table.BindsBefore arena out scope offset)
    (same : ∀ name, later.findLocal? scope (.simple name) =
      table.findLocal? scope (.simple name))
    (starts : ∀ name set, table.findLocal? scope (.simple name) = some set →
      ∀ decl ∈ set,
      after.startOf decl = arena.startOf decl) :
    later.BindsBefore after out scope offset := by
  intro name set found decl listed counts
  rw [same] at found
  rw [starts name set found decl listed]
  exact before found decl listed counts

theorem InOrder.congr
    (inOrder : table.InOrder arena out)
    (same : ∀ scope name,
      later.findLocal? scope (.simple name) =
        table.findLocal? scope (.simple name))
    (starts : ∀ scope name set, table.findLocal? scope (.simple name) =
      some set → ∀ decl ∈ set,
      after.startOf decl = arena.startOf decl) :
    later.InOrder after out := by
  intro scope name set found
  rw [same] at found
  refine (inOrder found).imp_of_mem fun {first second} here there order => ?_
  rw [starts scope name set found first here,
    starts scope name set found second there]
  exact order

/--
A declaration that starts behind all that a scope binds may be added to a set
there.
-/
theorem InOrder.append
    (inOrder : table.InOrder arena out)
    {key : Key}
    {decl : DeclId}
    (behind : ¬ out decl → (∃ name, key = .simple name) →
      table.BindsBefore arena out scope (arena.startOf decl)) :
    (table.put scope key
      ((table.findLocal? scope key).getD [] ++ [decl])).InOrder arena out := by
  intro other name set found
  rw [findLocal?_put_eq] at found
  split at found
  next here =>
    obtain ⟨-, rfl, rfl⟩ := here
    rw [if_neg (by simp)] at found
    cases found
    cases known : table.findLocal? other (.simple name) with
    | none => exact List.pairwise_singleton _ _
    | some set =>
        refine List.pairwise_append.mpr
          ⟨inOrder known, List.pairwise_singleton _ _,
            fun first member last isLast => ?_⟩
        obtain rfl := List.mem_singleton.mp isLast
        exact fun counts countsLast =>
          behind countsLast ⟨name, rfl⟩ known first member counts
  next => exact inOrder found

/-- What is added to a set of a scope may be all that is new there. -/
theorem BindsBefore.append
    (before : table.BindsBefore arena out scope offset)
    {key : Key}
    {decl : DeclId}
    (starts : ¬ out decl → arena.startOf decl < offset) :
    (table.put scope key
      ((table.findLocal? scope key).getD [] ++ [decl])).BindsBefore arena out
      scope offset := by
  intro name set found other listed counts
  rw [findLocal?_put_eq] at found
  split at found
  next here =>
    obtain ⟨-, -, rfl⟩ := here
    rw [if_neg (by simp)] at found
    cases found
    rcases List.mem_append.mp listed with old | new
    · cases known : table.findLocal? scope (.simple name) with
      | none =>
          rw [known] at old
          cases old
      | some set =>
          rw [known] at old
          exact before known other old counts
    · obtain rfl := List.mem_singleton.mp new
      exact starts counts
  next => exact before found other listed counts

/-- If more declarations do not count, no more is said of the others. -/
theorem InOrder.weaken
    (inOrder : table.InOrder arena out)
    {more : DeclId → Prop}
    (fewer : ∀ {decl}, out decl → more decl) :
    table.InOrder arena more :=
  fun _ _ _ found => (inOrder found).imp fun order counts countsToo =>
    order (fun gone => counts (fewer gone)) fun gone => countsToo (fewer gone)

theorem BindsBefore.weaken
    (before : table.BindsBefore arena out scope offset)
    {more : DeclId → Prop}
    (fewer : ∀ {decl}, out decl → more decl) :
    table.BindsBefore arena more scope offset :=
  fun _ _ found decl listed counts => before found decl listed fun gone =>
    counts (fewer gone)

/-- Members may leave a set. -/
theorem InOrder.erase
    (inOrder : table.InOrder arena out)
    {key : Key}
    {set : OverloadSet}
    (found : table.findLocal? scope key = some set)
    (position : Nat) :
    (table.put scope key (set.eraseIdx position)).InOrder arena out := by
  intro home name left lookup
  rw [findLocal?_put_eq] at lookup
  split at lookup
  next here =>
    obtain ⟨-, rfl, rfl⟩ := here
    split at lookup
    · cases lookup
    · cases lookup
      exact (inOrder found).sublist (List.eraseIdx_sublist _ _)
  next => exact inOrder lookup

theorem BindsBefore.erase
    {home : ScopeId}
    (before : table.BindsBefore arena out home offset)
    {key : Key}
    {set : OverloadSet}
    (found : table.findLocal? scope key = some set)
    (position : Nat) :
    (table.put scope key (set.eraseIdx position)).BindsBefore arena out home
      offset := by
  intro name left lookup decl listed counts
  rw [findLocal?_put_eq] at lookup
  split at lookup
  next here =>
    obtain ⟨-, rfl, rfl⟩ := here
    split at lookup
    · cases lookup
    · cases lookup
      exact before found decl (List.mem_of_mem_eraseIdx listed) counts
  next => exact before lookup decl listed counts

/--
A declaration may take the place of one that counts and starts where it does.
-/
theorem InOrder.replace
    (inOrder : table.InOrder arena out)
    {key : Key}
    {set : OverloadSet}
    {position : Nat}
    {previous next : DeclId}
    (found : table.findLocal? scope key = some set)
    (listed : set.idxOf? previous = some position)
    (counted : ¬ out previous)
    (starts : arena.startOf next = arena.startOf previous) :
    (table.put scope key (set.set position next)).InOrder arena out := by
  obtain ⟨inside, same, -⟩ := List.idxOf?_eq_some_iff.mp listed
  intro home name now lookup
  rw [findLocal?_put_eq] at lookup
  split at lookup
  next here =>
    obtain ⟨-, rfl, rfl⟩ := here
    split at lookup
    · cases lookup
    cases lookup
    have before := List.pairwise_iff_getElem.mp (inOrder found)
    refine List.pairwise_iff_getElem.mpr
      fun first second bound boundToo order counts countsToo => ?_
    rw [List.length_set] at bound boundToo
    have behind := before first second bound boundToo order
    rw [List.getElem_set] at counts countsToo ⊢
    rw [List.getElem_set]
    split at counts <;> split at countsToo
    · omega
    next here _ =>
      subst here
      rw [if_pos rfl, if_neg (by assumption), starts, ← same]
      exact behind (same.symm ▸ counted) countsToo
    next _ here =>
      subst here
      rw [if_neg (by assumption), if_pos rfl, starts, ← same]
      exact behind counts (same.symm ▸ counted)
    · rw [if_neg (by assumption), if_neg (by assumption)]
      exact behind counts countsToo
  next => exact inOrder lookup

theorem BindsBefore.replace
    {home : ScopeId}
    (before : table.BindsBefore arena out home offset)
    {key : Key}
    {set : OverloadSet}
    {position : Nat}
    {previous next : DeclId}
    (found : table.findLocal? scope key = some set)
    (listed : set.idxOf? previous = some position)
    (counted : ¬ out previous)
    (starts : arena.startOf next = arena.startOf previous) :
    (table.put scope key (set.set position next)).BindsBefore arena out home
      offset := by
  obtain ⟨inside, same, -⟩ := List.idxOf?_eq_some_iff.mp listed
  intro name now lookup decl member counts
  rw [findLocal?_put_eq] at lookup
  split at lookup
  next here =>
    obtain ⟨-, rfl, rfl⟩ := here
    split at lookup
    · cases lookup
    cases lookup
    rcases List.mem_or_eq_of_mem_set member with old | rfl
    · exact before found decl old counts
    · exact starts ▸ before found previous (same ▸ List.getElem_mem inside)
        counted
  next => exact before lookup decl member counts

/-- Other scopes bind what they did. -/
theorem findLocal?_put_of_ne
    {other : ScopeId}
    (apart : other ≠ scope)
    (key name : Key)
    (set : OverloadSet) :
    (table.put scope key set).findLocal? other name =
      table.findLocal? other name := by
  rw [findLocal?_put_eq, if_neg fun here => apart here.2.1]

end ScopeTable

end Tern
