import Tern.Proofs.Term.Succession

namespace Tern

/-!
# Indices of type parameters

A type parameter is known by its index. The parameters of a template or of a
concept are indexed: each of them is a type parameter, and its index is its
place among them. Terms that are added keep the indices, and so does a change of
a declaration that is no type parameter.
-/

/-- The parameters of a template or of a concept. -/
def DeclForm.parms : DeclForm → List DeclId
  | .template parms _ _ => parms
  | .concept parms _ => parms
  | _ => []

/-- The index of a type parameter. -/
def DeclForm.index? : DeclForm → Option Nat
  | .typeParameter index _ => some index
  | _ => none

/-- What has an index is a parameter. -/
private theorem DeclForm.isParam_of_index?
    {form : DeclForm}
    {index : Nat}
    (given : form.index? = some index) :
    form.isParam = true := by
  cases form <;> simp_all [index?, isParam]

namespace Arena

/--
Each of some declarations is a type parameter whose index is its place among
them, counted from a first one on.
-/
def Indexes (arena : Arena) (first : Nat) (parms : List DeclId) : Prop :=
  ∀ (place : Nat) (parm : DeclId), parms[place]? = some parm →
    (arena.decl parm).form.index? = some (first + place)

/--
The parameters of all templates and concepts stored from a slot on are indexed.
-/
def IndexedFrom (arena : Arena) (low : Nat) : Prop :=
  ∀ decl : DeclId, low ≤ decl.raw →
    arena.Indexes 0 (arena.decl decl).form.parms

/-- The parameters of all templates and concepts are indexed. -/
def Indexed (arena : Arena) : Prop :=
  arena.IndexedFrom 0

/-- Indices are seen in the declarations alone. -/
theorem Indexed.of_decl_eq
    {older newer : Arena}
    (indexed : older.Indexed)
    (same : ∀ decl, newer.decl decl = older.decl decl) :
    newer.Indexed := by
  intro decl above place parm found
  rw [same] at found ⊢
  exact indexed decl above place parm found

theorem indexes_nil (arena : Arena) (first : Nat) :
    arena.Indexes first [] := by
  intro place parm found
  simp at found

/-- A type parameter is indexed by its index. -/
theorem indexes_singleton
    {arena : Arena}
    {index : Nat}
    {parm : DeclId}
    (given : (arena.decl parm).form.index? = some index) :
    arena.Indexes index [parm] := by
  intro place other found
  obtain ⟨rfl, rfl⟩ : place = 0 ∧ parm = other := by
    simpa [List.getElem?_singleton] using found
  exact given

/-- Parameters are indexed on behind others. -/
theorem Indexes.append
    {arena : Arena}
    {first : Nat}
    {parms more : List DeclId}
    (indexes : arena.Indexes first parms)
    (further : arena.Indexes (first + parms.length) more) :
    arena.Indexes first (parms ++ more) := by
  intro place parm found
  rw [List.getElem?_append] at found
  split at found
  next => exact indexes place parm found
  next past =>
    rw [further _ parm found]
    congr 1
    omega

/-- A declaration that is not stored has no parameters. -/
private theorem parms_of_size_le
    {arena : Arena}
    {decl : DeclId}
    (past : arena.decls.size ≤ decl.raw) :
    (arena.decl decl).form.parms = [] := by
  simp [Arena.decl, Array.getD_eq_getD_getElem?, past, Vacant.decl,
    DeclForm.parms]

/-- Beyond the last slot there is nothing to be indexed. -/
theorem indexedFrom_size (arena : Arena) :
    arena.IndexedFrom arena.decls.size := by
  intro decl past
  rw [parms_of_size_le past]
  exact arena.indexes_nil 0

/-- A type parameter is stored. -/
private theorem holds_of_index?
    {arena : Arena}
    {decl : DeclId}
    {index : Nat}
    (given : (arena.decl decl).form.index? = some index) :
    arena.Holds (.decl decl) := by
  refine Nat.lt_of_not_le fun past => ?_
  simp [Arena.decl, Array.getD_eq_getD_getElem?, past, Vacant.decl,
    DeclForm.index?] at given

/-- The declarations of an arena are stored with their forms in another one. -/
structure SameForms (older newer : Arena) : Prop where
  held : ∀ {decl : DeclId}, older.Holds (.decl decl) →
    newer.Holds (.decl decl)
  form : ∀ {decl : DeclId}, older.Holds (.decl decl) →
    (newer.decl decl).form = (older.decl decl).form

namespace SameForms

variable {older middle newer : Arena}

theorem refl (arena : Arena) : arena.SameForms arena where
  held := id
  form _ := rfl

theorem trans
    (first : older.SameForms middle)
    (second : middle.SameForms newer) :
    older.SameForms newer where
  held stored := second.held (first.held stored)
  form stored := (second.form (first.held stored)).trans (first.form stored)

/-- Indices are seen in the forms of declarations. -/
theorem indexes
    (same : older.SameForms newer)
    {first : Nat}
    {parms : List DeclId}
    (indexes : older.Indexes first parms) :
    newer.Indexes first parms := by
  intro place parm found
  have given := indexes place parm found
  rw [same.form (holds_of_index? given)]
  exact given

/-- A declaration that is changed may keep its form. -/
theorem updateDecl
    {arena : Arena}
    {decl : DeclId}
    {change : Decl → Decl}
    (kept : (change (arena.decl decl)).form = (arena.decl decl).form) :
    arena.SameForms (arena.updateDecl decl change) where
  held stored := (holds_updateDecl change _).mpr stored
  form {other} stored := by
    by_cases same : other = decl
    · subst same
      rw [decl_updateDecl stored, kept]
    · rw [decl_updateDecl_of_ne same]

end SameForms

namespace Extends

variable {older newer : Arena}

/-- Terms that are added change no declarations. -/
theorem sameForms (extended : older.Extends newer) :
    older.SameForms newer where
  held := extended.holds
  form stored := by rw [extended.decl_eq stored]

/-- Terms that are added leave indices as they are. -/
theorem indexes
    (extended : older.Extends newer)
    {first : Nat}
    {parms : List DeclId}
    (indexes : older.Indexes first parms) :
    newer.Indexes first parms :=
  extended.sameForms.indexes indexes

/-- What was indexed and what is added to it make up what is indexed. -/
theorem indexedFrom
    (extended : older.Extends newer)
    {low : Nat}
    (indexed : older.IndexedFrom low)
    (fresh : newer.IndexedFrom older.decls.size) :
    newer.IndexedFrom low := by
  intro decl above
  by_cases stored : decl.raw < older.decls.size
  · rw [extended.decl_eq stored]
    exact extended.indexes (indexed decl above)
  · exact fresh decl (Nat.le_of_not_lt stored)

end Extends

/-- A declaration may be added whose parameters are indexed. -/
theorem indexedFrom_addDecl
    (arena : Arena)
    {added : Decl}
    (indexes : arena.Indexes 0 added.form.parms) :
    (arena.addDecl added).2.IndexedFrom arena.decls.size := by
  intro decl above
  by_cases same : decl = (arena.addDecl added).1
  · rw [same, decl_addDecl]
    exact (arena.extends_addDecl added).indexes indexes
  · have apart : decl.raw ≠ arena.decls.size :=
      fun equal => same (by cases decl; simp_all [addDecl])
    refine (arena.addDecl added).2.indexedFrom_size decl ?_
    simp only [addDecl, Array.size_push]
    omega

/-- Where no declaration is added there is nothing to be indexed. -/
theorem indexedFrom_of_decls_eq
    {older newer : Arena}
    (same : newer.decls = older.decls) :
    newer.IndexedFrom older.decls.size :=
  same ▸ newer.indexedFrom_size

section

variable {arena : Arena} {decl : DeclId} {change : Decl → Decl}

/-- A change of a declaration that keeps parameters keeps indices. -/
theorem Indexes.updateDecl
    (keeps : arena.KeepsParam decl change)
    {first : Nat}
    {parms : List DeclId}
    (indexes : arena.Indexes first parms) :
    (arena.updateDecl decl change).Indexes first parms := by
  intro place parm found
  have given := indexes place parm found
  by_cases same : parm = decl
  · subst same
    rw [decl_updateDecl (holds_of_index? given),
      (keeps (DeclForm.isParam_of_index? given)).2]
    exact given
  · rw [decl_updateDecl_of_ne same]
    exact given

/-- A declaration may change to one whose parameters are indexed. -/
theorem IndexedFrom.updateDecl
    {low : Nat}
    (indexed : arena.IndexedFrom low)
    (keeps : arena.KeepsParam decl change)
    (indexes : arena.Indexes 0 (change (arena.decl decl)).form.parms) :
    (arena.updateDecl decl change).IndexedFrom low := by
  intro other above
  by_cases same : other = decl
  · subst same
    by_cases held : arena.Holds (.decl other)
    · rw [decl_updateDecl held]
      exact indexes.updateDecl keeps
    · have past : arena.decls.size ≤ other.raw := Nat.le_of_not_lt held
      refine (arena.updateDecl other change).indexedFrom_size other ?_
      simpa [Arena.updateDecl] using past
  · rw [decl_updateDecl_of_ne same]
    exact (indexed other above).updateDecl keeps

end

end Arena

end Tern
