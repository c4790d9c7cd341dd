import Tern.Proofs.Building.Distinction

namespace Tern

/-!
# Declarations built are members

No step of building takes a member away from an overload set, and a statement is
built to hold a declaration only after that was bound. So every statement that
building has added holds a declaration that it has added as well, which is a
member of an overload set and not elaborated yet.
-/

namespace ScopeTable

variable {table : ScopeTable} {decl : DeclId}

/-- A declaration is a member of some overload set. -/
def Enlists (table : ScopeTable) (decl : DeclId) : Prop :=
  ∃ scope key set, table.findLocal? scope key = some set ∧ decl ∈ set

/--
Another set takes the place of one, so what was in neither that one nor its
place stays.
-/
theorem Enlists.put
    {scope : ScopeId}
    {key : Key}
    {set : OverloadSet}
    (enlists : table.Enlists decl)
    (kept : ∀ old, table.findLocal? scope key = some old → decl ∈ old →
      decl ∈ set) :
    (table.put scope key set).Enlists decl := by
  obtain ⟨home, name, found, lookup, member⟩ := enlists
  refine ⟨home, name, ?_⟩
  rw [findLocal?_put_eq]
  split
  next here =>
    obtain ⟨-, rfl, rfl⟩ := here
    have listed := kept found lookup member
    rw [if_neg (List.ne_nil_of_mem listed)]
    exact ⟨set, rfl, listed⟩
  next => exact ⟨found, lookup, member⟩

/-- Members stay when another one is added behind them. -/
theorem Enlists.append
    {scope : ScopeId}
    {key : Key}
    (enlists : table.Enlists decl)
    (more : DeclId) :
    (table.put scope key
      ((table.findLocal? scope key).getD [] ++ [more])).Enlists decl :=
  enlists.put fun old lookup member => by simp [lookup, member]

/-- What is added behind the members of a set is a member. -/
theorem enlists_append
    {scope : ScopeId}
    (stored : scope.raw < table.size)
    (key : Key)
    (decl : DeclId) :
    (table.put scope key
      ((table.findLocal? scope key).getD [] ++ [decl])).Enlists decl := by
  refine ⟨scope, key, (table.findLocal? scope key).getD [] ++ [decl],
    ?_, by simp⟩
  simp [findLocal?_put_eq, stored]

/-- Members stay when a scope is added. -/
theorem Enlists.push
    (enlists : table.Enlists decl)
    (kind : ScopeKind)
    (parent : ScopeId) :
    ScopeTable.Enlists
      (table.push { parent? := some parent, kind := kind, bindings := [] })
      decl := by
  obtain ⟨scope, key, set, lookup, member⟩ := enlists
  exact ⟨scope, key, set, by rw [findLocal?_push, lookup], member⟩

end ScopeTable

namespace Worksite

/-- A declaration is at hand as a term, or waits for its form. -/
def Keeping (site : Worksite) (decl : DeclId) : Prop :=
  Piece.term (.decl decl) ∈ site.stock ∨ site.Begun decl

/--
What building has made of a worksite. Members have stayed. What was at hand of
the declarations that were there was so before, and of those added what is noted
as bound is a member. Statements added hold declarations that are such.
-/
structure Enrolls (base site : Worksite) : Prop where
  members : ∀ {decl}, base.table.Enlists decl → site.table.Enlists decl
  phase : ∀ {decl}, base.arena.Holds (.decl decl) →
    (site.arena.decl decl).phase = (base.arena.decl decl).phase
  early : ∀ {decl}, ¬ base.arena.Holds (.decl decl) →
    (site.arena.decl decl).phase = .unelaborated
  bound : ∀ {decl scope key}, Piece.bound decl scope key ∈ site.stock →
    base.arena.Holds (.decl decl) ∨ site.table.Enlists decl
  keeping : ∀ {decl}, site.Keeping decl → base.arena.Holds (.decl decl) →
    base.Keeping decl
  stmts : ∀ {stmt decl}, site.arena.Holds (.stmt stmt) →
    ¬ base.arena.Holds (.stmt stmt) →
    (site.arena.stmt stmt).form = .declaration decl →
      site.arena.Holds (.decl decl) ∧
      (base.arena.Holds (.decl decl) → base.Keeping decl) ∧
        (base.arena.Holds (.decl decl) ∨ site.table.Enlists decl)

variable {base site later : Worksite}

namespace Enrolls

/-- Nothing is built yet. -/
theorem refl (sound : site.Sound) : site.Enrolls site where
  members := id
  phase _ := rfl
  early {decl} absent := by
    have past : site.arena.decls.size ≤ decl.raw := Nat.le_of_not_lt absent
    simp [Arena.decl, Array.getD_eq_getD_getElem?, past, Vacant.decl]
  bound listed := .inl (sound.backed _ listed).1.held
  keeping kept _ := kept
  stmts held absent := absurd held absent

/--
A step that changes neither declarations nor statements, nor takes away a
member.
-/
theorem beside
    (enrolls : base.Enrolls site)
    (members : ∀ {decl}, site.table.Enlists decl → later.table.Enlists decl)
    (decls : later.arena.decls = site.arena.decls)
    (stmts : later.arena.stmts = site.arena.stmts)
    (bound : ∀ {decl scope key}, Piece.bound decl scope key ∈ later.stock →
      base.arena.Holds (.decl decl) ∨ later.table.Enlists decl)
    (keeping : ∀ {decl}, later.Keeping decl → site.Keeping decl) :
    base.Enrolls later where
  members was := members (enrolls.members was)
  phase held := by simpa only [Arena.decl, decls] using enrolls.phase held
  early absent := by simpa only [Arena.decl, decls] using enrolls.early absent
  bound := bound
  keeping kept held := enrolls.keeping (keeping kept) held
  stmts {stmt decl} held absent form := by
    simp only [Arena.Holds, Arena.stmt, stmts, decls] at held form ⊢
    obtain ⟨stored, older, known⟩ := enrolls.stmts held absent form
    exact ⟨stored, older, known.imp_right members⟩

/-- A step that only notes something, or takes notes away. -/
private theorem note
    (enrolls : base.Enrolls site)
    {stock : Stock}
    (bound : ∀ {decl scope key}, Piece.bound decl scope key ∈ stock →
      Piece.bound decl scope key ∈ site.stock ∨ base.arena.Holds (.decl decl) ∨
        site.table.Enlists decl)
    (keeping : ∀ {decl}, Worksite.Keeping { site with stock := stock } decl →
      site.Keeping decl) :
    base.Enrolls { site with stock := stock } :=
  enrolls.beside id rfl rfl (fun listed => (bound listed).elim enrolls.bound id)
    keeping

/-- A step that changes a declaration that has its slot, but not its phase. -/
private theorem updateDecl
    (enrolls : base.Enrolls site)
    {decl : DeclId}
    {change : Decl → Decl}
    {stock : Stock}
    (phase : (change (site.arena.decl decl)).phase =
      (site.arena.decl decl).phase)
    (bound : ∀ {other scope key}, Piece.bound other scope key ∈ stock →
      Piece.bound other scope key ∈ site.stock)
    (keeping : ∀ {other}, Worksite.Keeping { site with stock := stock } other →
      site.Keeping other) :
    base.Enrolls
      { site with arena := site.arena.updateDecl decl change,
                  stock := stock } := by
  have same (other : DeclId) :
      ((site.arena.updateDecl decl change).decl other).phase =
        (site.arena.decl other).phase := by
    by_cases here : other = decl
    · subst here
      by_cases held : site.arena.Holds (.decl other)
      · rw [Arena.decl_updateDecl held, phase]
      · have past : site.arena.decls.size ≤ other.raw := Nat.le_of_not_lt held
        simp [Arena.decl, Arena.updateDecl, Array.getD_eq_getD_getElem?, past]
    · rw [Arena.decl_updateDecl_of_ne here]
  exact
    { members := enrolls.members
      phase := fun held => (same _).trans (enrolls.phase held)
      early := fun absent => (same _).trans (enrolls.early absent)
      bound := fun listed => enrolls.bound (bound listed)
      keeping := fun kept held => enrolls.keeping (keeping kept) held
      stmts := fun held absent form => by
        obtain ⟨stored, older, known⟩ :=
          enrolls.stmts ((Arena.holds_updateDecl _ _).mp held) absent form
        exact ⟨(Arena.holds_updateDecl _ _).mpr stored, older, known⟩ }

/-- A declaration is added. -/
private theorem addDecl
    (enrolls : base.Enrolls site)
    (keeps : base.Keeps site)
    {decl : Decl}
    {stock : Stock}
    (early : decl.phase = .unelaborated)
    (bound : ∀ {other scope key}, Piece.bound other scope key ∈ stock →
      Piece.bound other scope key ∈ site.stock)
    (keeping : ∀ {other}, Worksite.Keeping { site with stock := stock } other →
      other = (site.arena.addDecl decl).1 ∨ site.Keeping other) :
    base.Enrolls { site with arena := (site.arena.addDecl decl).2,
                             stock := stock } := by
  have new : ¬ base.arena.Holds (.decl (site.arena.addDecl decl).1) :=
    fun held => Arena.not_holds_addDecl decl (keeps.held held)
  exact
    { members := enrolls.members
      phase := fun {other} held => by
        rw [Arena.decl_addDecl_of_ne (by rintro rfl; exact new held)]
        exact enrolls.phase held
      early := fun {other} absent => by
        by_cases here : other = (site.arena.addDecl decl).1
        · rw [here, Arena.decl_addDecl, early]
        · rw [Arena.decl_addDecl_of_ne here]
          exact enrolls.early absent
      bound := fun listed => enrolls.bound (bound listed)
      keeping := fun {other} kept held => by
        rcases keeping kept with rfl | old
        · exact absurd held new
        · exact enrolls.keeping old held
      stmts := fun held absent form => by
        obtain ⟨stored, older, known⟩ :=
          enrolls.stmts (by simpa [Arena.holds_addDecl] using held)
          absent form
        exact ⟨Arena.holds_addDecl decl |>.mpr (.inl stored), older, known⟩ }

/-- A term that is no declaration is added on top of others at hand. -/
private theorem add
    (enrolls : base.Enrolls site)
    {order : Order}
    {after : Arena}
    {rest : Stock}
    {term : Term}
    (adds : site.arena.Adds term after)
    (warranted : rest.Warrants order after term)
    (sound : site.Sound)
    (stock : site.stock = Piece.terms (after.children term) + rest) :
    base.Enrolls { site with arena := after, stock := after.loose term +
      rest } := by
  have decl (other : DeclId) : after.decl other = site.arena.decl other := by
    simp only [Arena.decl, adds.decls_eq]
  have old {piece : Piece} (listed : piece ∈ rest) : piece ∈ site.stock := by
    simp [stock, listed]
  have bound {decl : DeclId} {scope : ScopeId} {key : Key}
      (listed : Piece.bound decl scope key ∈ after.loose term + rest) :
      Piece.bound decl scope key ∈ site.stock := by
    rcases Multiset.mem_add.mp listed with new | rested
    · obtain ⟨same, -⟩ | ⟨_, _, -, same, -⟩ := mem_loose new <;> cases same
    · exact old rested
  have keeping {decl : DeclId}
      (kept : Worksite.Keeping
        { site with arena := after, stock := after.loose term + rest } decl) :
      site.Keeping decl := by
    rcases kept with loose | begun
    · rcases Multiset.mem_add.mp loose with new | rested
      · obtain ⟨same, -⟩ | ⟨_, _, -, same, -⟩ := mem_loose new
        · cases same
          cases adds
        · cases same
      · exact .inl (old rested)
    · rcases Multiset.mem_add.mp begun with new | rested
      · obtain ⟨same, -⟩ | ⟨_, _, -, same, -⟩ := mem_loose new <;> cases same
      · exact .inr (old rested)
  exact
    { members := enrolls.members
      phase := fun held => by rw [decl]; exact enrolls.phase held
      early := fun absent => by rw [decl]; exact enrolls.early absent
      bound := fun listed => enrolls.bound (bound listed)
      keeping := fun kept held => enrolls.keeping (keeping kept) held
      stmts := fun {stmt declared} held absent form => by
        by_cases here : Term.stmt stmt = term
        · subst here
          obtain ⟨scope, key, noted⟩ :=
            warranted.declared declared
              (by simp [Arena.declared?, form, StmtForm.declared?])
          have loose : Piece.term (.decl declared) ∈ site.stock := by
            rw [stock, Arena.children, form]
            exact Multiset.mem_add.mpr
              (.inl (Multiset.mem_coe.mpr (List.mem_singleton_self _)))
          refine ⟨adds.holds.mpr (.inl (sound.forest.loose loose).1.1),
            enrolls.keeping (.inl loose), enrolls.bound (old noted)⟩
        · have stored := (adds.holds.mp held).resolve_right here
          rw [show after.stmt stmt = site.arena.stmt stmt from adds.reads here]
            at form
          obtain ⟨inside, older, known⟩ := enrolls.stmts stored absent form
          exact ⟨adds.holds.mpr (.inl inside), older, known⟩ }

end Enrolls

end Worksite

/--
What building has made of a worksite it has made of it after one more step.
-/
private theorem BuildStep.enrolls
    {order : Order}
    {base site later : Worksite}
    (step : BuildStep order site later)
    (sound : site.Sound)
    (keeps : base.Keeps site)
    (enrolls : base.Enrolls site) :
    base.Enrolls later := by
  cases step with
  | add adds spelled warranted => exact enrolls.add adds warranted sound rfl
  | mint span =>
      exact enrolls.beside id rfl rfl
        (fun listed =>
          enrolls.bound (by simpa using Worksite.mem_of_mintName span listed))
        fun kept => kept.imp
          (fun loose => by simpa using Worksite.mem_of_mintName span loose)
          fun begun => by
            simpa [Worksite.Begun] using Worksite.mem_of_mintName span begun
  | begin decl hollow nameless early room starts =>
      exact enrolls.addDecl keeps early (by simp)
        (by simp +contextual [Worksite.Keeping, Worksite.Begun, or_left_comm])
  | christen named =>
      exact enrolls.updateDecl rfl (by simp)
        (by simp [Worksite.Keeping, Worksite.Begun])
  | complete located named starts rests =>
      refine enrolls.updateDecl rfl (by simp +contextual) fun kept => ?_
      rcases kept with loose | begun
      · rcases Multiset.mem_cons.mp loose with same | old
        · cases same
          exact .inr (by simp [Worksite.Begun])
        · exact .inl (by simp [old])
      · rcases Multiset.mem_cons.mp begun with same | old
        · cases same
        · exact .inr (by simp [Worksite.Begun, old])
  | dub named entitled plain starts =>
      refine enrolls.updateDecl rfl (by simp +contextual) fun kept => ?_
      rcases kept with loose | begun
      · rcases Multiset.mem_cons.mp loose with same | old
        · cases same
          exact .inr (Multiset.mem_cons_self ..)
        · exact .inl (by simp_all)
      · exact .inr (by simp_all [Worksite.Begun])
  | @bind arena table saved rest decl scope key place lower behind =>
      have room : scope.raw < table.size :=
        sound.backed (.binder scope lower) (by simp)
      refine enrolls.beside (fun was => was.append decl) rfl rfl
        (fun {other home name} listed => ?_)
        (by simp [Worksite.Keeping, Worksite.Begun])
      simp only [Multiset.mem_cons, reduceCtorEq, Piece.bound.injEq, false_or]
        at listed
      rcases listed with ⟨rfl, rfl, rfl⟩ | old
      · exact .inr (ScopeTable.enlists_append room name other)
      · have noted : Piece.bound other home name ∈
            (.fresh decl scope key place ::ₘ .binder scope lower ::ₘ rest :
              Stock) := by simp [old]
        exact (enrolls.bound noted).imp_right fun was => was.append decl
  | @push arena table saved rest kind parent room =>
      refine enrolls.beside (fun was => was.push kind parent) rfl rfl
        (fun listed => ?_)
        (by simp [Worksite.Keeping, Worksite.Begun])
      exact (enrolls.bound (by simpa using listed)).imp_right fun was =>
        was.push kind parent
  | save room =>
      exact enrolls.beside id rfl rfl
        (fun listed => enrolls.bound (by simpa using listed))
        (by simp [Worksite.Keeping, Worksite.Begun])
  | relax onward stock =>
      exact enrolls.note (fun listed => .inl (by simpa [stock] using listed))
        (by simp [Worksite.Keeping, Worksite.Begun, stock])
  | noteMember found member =>
      refine enrolls.note (fun listed => ?_)
        (by simp [Worksite.Keeping, Worksite.Begun])
      rcases Multiset.mem_cons.mp listed with same | old
      · cases same
        exact .inr (.inr ⟨_, _, _, found, member⟩)
      · exact .inl old
  | noteAgain bound =>
      refine enrolls.note (fun listed => ?_)
        (by simp [Worksite.Keeping, Worksite.Begun])
      rcases Multiset.mem_cons.mp listed with same | old
      · cases same
        exact .inl bound
      · exact .inl old
  | doze saved rising before stock =>
      refine enrolls.note (fun listed => .inl (by simp_all)) fun kept => ?_
      exact kept.imp (fun loose => by simp_all) fun begun => by
        simp_all [Worksite.Begun]
  | _ =>
      exact enrolls.note (fun listed => .inl (by simpa using listed))
        (by simp [Worksite.Keeping, Worksite.Begun])

/--
Behind any number of steps a statement added holds a declaration added, which is
a member.
-/
theorem BuildSteps.enrolls
    {order : Order}
    {base site : Worksite}
    (steps : BuildSteps order base site)
    (sound : base.Sound) :
    base.Enrolls site := by
  induction steps with
  | refl => exact .refl sound
  | tail steps step inductionHypothesis =>
      obtain ⟨keeps, middle⟩ := BuildSteps.sound steps sound
      exact step.enrolls middle keeps inductionHypothesis

/--
If what was at hand still is, a statement added holds a declaration that was
added, and that is a member of an overload set.
-/
theorem Worksite.Enrolls.declared
    {base site : Worksite}
    (enrolls : base.Enrolls site)
    (sound : site.Sound)
    (kept : ∀ {decl}, base.Keeping decl → site.Keeping decl)
    {stmt : StmtId}
    {decl : DeclId}
    (held : site.arena.Holds (.stmt stmt))
    (absent : ¬ base.arena.Holds (.stmt stmt))
    (form : (site.arena.stmt stmt).form = .declaration decl) :
    ¬ base.arena.Holds (.decl decl) ∧ site.table.Enlists decl := by
  obtain ⟨-, older, known⟩ := enrolls.stmts held absent form
  have owned : Term.decl decl ∈ site.arena.parts (.stmt stmt) := by
    simp [Arena.parts, Arena.children, form, StmtForm.children]
  have whole : site.Whole (.stmt stmt) := ⟨held, fun _ => Term.noConfusion⟩
  have new : ¬ base.arena.Holds (.decl decl) := by
    intro stored
    rcases kept (older stored) with loose | begun
    · exact (sound.forest.loose loose).2.2 _ whole owned
    · exact (sound.forest.below whole owned).1.2 decl rfl begun
  exact ⟨new, known.resolve_left new⟩

end Tern
