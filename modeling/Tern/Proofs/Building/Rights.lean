import Tern.Proofs.Building.SetOrder

namespace Tern

/-!
# Rights to bind

No two pieces at hand are the right to bind in one scope. So what is built binds
nothing in the scopes of others, in which there was no right to bind at first.
-/

/-- The scopes that a piece is the right to bind in. -/
def Piece.rights : Piece → Multiset ScopeId
  | .binder scope _ => {scope}
  | .asleep _ scope _ _ _ => {scope}
  | _ => 0

/-- The scopes that some pieces are the rights to bind in. -/
def Stock.rights (stock : Stock) : Multiset ScopeId :=
  stock.bind Piece.rights

namespace Stock

@[simp]
theorem rights_zero : rights 0 = 0 :=
  rfl

@[simp]
theorem rights_cons (piece : Piece) (stock : Stock) :
    rights (piece ::ₘ stock) = piece.rights + stock.rights :=
  Multiset.cons_bind ..

@[simp]
theorem rights_add (first second : Stock) :
    rights (first + second) = first.rights + second.rights :=
  Multiset.add_bind ..

theorem mem_rights {stock : Stock} {scope : ScopeId} :
    scope ∈ stock.rights ↔ ∃ piece ∈ stock, scope ∈ piece.rights :=
  Multiset.mem_bind

/-- Pieces none of which is a right give none. -/
theorem rights_eq_zero
    {stock : Stock}
    (none : ∀ piece ∈ stock, piece.rights = 0) :
    stock.rights = 0 := by
  refine Multiset.eq_zero_of_forall_notMem fun scope listed => ?_
  obtain ⟨piece, among, right⟩ := mem_rights.mp listed
  rw [none piece among] at right
  cases Multiset.notMem_zero _ right

@[simp]
theorem rights_terms (terms : List Term) : rights (Piece.terms terms) = 0 :=
  rights_eq_zero fun piece listed => by
    obtain ⟨term, -, rfl⟩ := List.mem_map.mp (Multiset.mem_coe.mp listed)
    rfl

@[simp]
theorem rights_slated (scope : ScopeId) (params : List (DeclId × Key × Nat)) :
    rights (Piece.slated scope params) = 0 :=
  rights_eq_zero fun piece listed => by
    obtain ⟨param, -, rfl⟩ := List.mem_map.mp (Multiset.mem_coe.mp listed)
    rfl

@[simp]
theorem rights_loose (arena : Arena) (term : Term) :
    rights (arena.loose term) = 0 :=
  rights_eq_zero fun piece listed => by
    obtain ⟨rfl, -⟩ | ⟨_, _, -, rfl, -⟩ := Worksite.mem_loose listed <;> rfl

@[simp]
theorem rights_fee (name : NameId) (key : Key) :
    rights (Piece.fee name key) = 0 := by
  cases key <;> rfl

/-- A right that is held once is held by no other piece. -/
theorem notMem_rights_of_nodup
    {stock rest : Stock}
    {piece : Piece}
    {scope : ScopeId}
    (single : stock.rights.Nodup)
    (split : stock = piece ::ₘ rest)
    (right : scope ∈ piece.rights) :
    scope ∉ rest.rights := by
  rw [split, rights_cons, Multiset.nodup_add] at single
  exact Multiset.disjoint_left.mp single.2.2 right

end Stock

namespace Worksite

variable {base site later : Worksite} {order : Order}

/-- Scopes in which someone has the right to bind are stored. -/
private theorem Sound.room_of_rights
    (sound : site.Sound)
    {scope : ScopeId}
    (right : scope ∈ site.stock.rights) :
    scope.raw < site.table.size := by
  obtain ⟨piece, listed, held⟩ := Stock.mem_rights.mp right
  have backed := sound.backed piece listed
  cases piece with
  | binder home place =>
      obtain rfl := Multiset.mem_singleton.mp held
      exact backed
  | asleep decl home place params stop =>
      obtain rfl := Multiset.mem_singleton.mp held
      obtain ⟨_, _, looked, -⟩ := List.lookup_eq_some_iff.mp backed.1
      exact (sound.saved (decl, scope) (looked ▸ by simp)).2
  | _ => cases Multiset.notMem_zero _ held

/--
What has been built binds only where there were rights to bind, or in scopes
that were added. No two rights are to bind in one scope.
-/
structure Confined (base site : Worksite) : Prop where
  single : site.stock.rights.Nodup
  reach : ∀ scope ∈ site.stock.rights, scope ∈ base.stock.rights ∨
    base.table.size ≤ scope.raw
  outside : ∀ {scope}, scope.raw < base.table.size → scope ∉ base.stock.rights →
    ∀ key,
    site.table.findLocal? scope key = base.table.findLocal? scope key

namespace Confined

theorem refl (single : site.stock.rights.Nodup) : site.Confined site where
  single := single
  reach _ := .inl
  outside _ _ _ := rfl

/-- A step that neither binds anything nor gives a right. -/
theorem beside
    (confined : base.Confined site)
    (rights : later.stock.rights = site.stock.rights)
    (table : ∀ scope key, later.table.findLocal? scope key =
      site.table.findLocal? scope key) :
    base.Confined later where
  single := rights ▸ confined.single
  reach := rights ▸ confined.reach
  outside room absent key :=
    (table _ _).trans (confined.outside room absent key)

end Confined

end Worksite

/-- After one more step building is confined as it was before. -/
theorem BuildStep.confined
    {order : Order}
    {base site later : Worksite}
    (step : BuildStep order site later)
    (kept : order.kept)
    (sound : site.Sound)
    (keeps : base.Keeps site)
    (confined : base.Confined site) :
    base.Confined later := by
  cases step with
  | @bind arena table saved rest decl scope key place lower behind =>
      refine ⟨?_, ?_, fun {other} room absent name => ?_⟩
      · simpa [Piece.rights] using confined.single
      · simpa [Piece.rights] using confined.reach
      · have apart : other ≠ scope := by
          rintro rfl
          rcases confined.reach other (by simp [Piece.rights]) with before | new
          · exact absent before
          · exact absurd room (Nat.not_lt.mpr new)
        rw [← confined.outside room absent name]
        exact ScopeTable.findLocal?_put_of_ne apart _ _ _
  | @push arena table saved rest kind parent room =>
      refine ⟨?_, fun scope listed => ?_, fun room absent name => ?_⟩
      · rw [Stock.rights_cons, Stock.rights_cons]
        refine (Multiset.nodup_add.mpr
          ⟨Multiset.nodup_zero, ?_, by simp [Piece.rights]⟩)
        refine Multiset.nodup_add.mpr
          ⟨Multiset.nodup_singleton _, confined.single, ?_⟩
        refine Multiset.disjoint_left.mpr fun {scope} new old => ?_
        obtain rfl := Multiset.mem_singleton.mp new
        exact absurd (sound.room_of_rights old) (Nat.lt_irrefl _)
      · simp only [Stock.rights_cons, Piece.rights, zero_add, Multiset.mem_add,
          Multiset.mem_singleton] at listed
        rcases listed with rfl | old
        · exact .inr keeps.size
        · exact confined.reach scope old
      · rw [← confined.outside room absent name]
        exact ScopeTable.findLocal?_push ..
  | claim unordered room => exact absurd kept unordered
  | dub named entitled plain starts =>
      cases entitled <;>
        exact confined.beside (by simp [Piece.rights]) fun _ _ => rfl
  | relax onward stock =>
      exact confined.beside (by simp [stock, Piece.rights]) fun _ _ => rfl
  | doze saved rising before stock =>
      exact confined.beside (by simp [stock, Piece.rights]) fun _ _ => rfl
  | _ => exact confined.beside (by simp [Piece.rights]) fun _ _ => rfl

end Tern
