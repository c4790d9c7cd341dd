import Tern.Proofs.Building.Declarations
import Tern.Proofs.Building.Exchange
import Tern.Proofs.Term.Progress

namespace Tern

/-!
# What elaboration does to a worksite

A parsed term moves into the slot of a range of tokens. A template takes the
place of a declaration in its statement and in its overload set. Declarations
reach phases, templates get parameters, and sets lose members. Each of these
keeps a worksite sound.
-/

namespace Arena

/--
A term has moved out of its slot into another one. All other terms read as
before.
-/
structure Shifts (older newer : Arena) (target source : Term) : Prop where
  apart : target ≠ source
  inline : ∀ decl, .decl decl ≠ target ∧ .decl decl ≠ source
  unnamed : ∀ name, .name name ≠ target ∧ .name name ≠ source
  holds : ∀ term, newer.Holds term ↔ older.Holds term
  count : older.placeholders ≤ newer.placeholders
  reads : ∀ term, term ≠ target → term ≠ source → older.Reads newer term
  filled : newer.children target = older.children source ∧
    newer.mentions target = older.mentions source ∧ newer.scope? target =
      older.scope? source ∧
      newer.isUnit target = older.isUnit source
  vacated : newer.children source = [] ∧ newer.mentions source = [] ∧
    newer.scope? source = none ∧ newer.isUnit source = false

/-- What moves and what it takes the place of own all that they own alone. -/
private theorem Shifts.parts_eq
    {older newer : Arena}
    {target source : Term}
    (shifts : older.Shifts newer target source)
    (arena : Arena) :
    arena.parts target = arena.children target ∧ arena.parts source =
      arena.children source := by
  constructor
  · cases target with
    | decl id => exact absurd rfl (shifts.inline id).1
    | _ => rfl
  · cases source with
    | decl id => exact absurd rfl (shifts.inline id).2
    | _ => rfl

/-- What moves and what it takes the place of are no applied names. -/
private theorem Shifts.template?_eq
    {older newer : Arena}
    {target source : Term}
    (shifts : older.Shifts newer target source)
    (arena : Arena) :
    arena.template? target = none ∧ arena.template? source = none := by
  constructor
  · cases target with
    | name id => exact absurd rfl (shifts.unnamed id).1
    | _ => rfl
  · cases source with
    | name id => exact absurd rfl (shifts.unnamed id).2
    | _ => rfl

section

variable {arena : Arena}

theorem shifts_moveType
    {target source : TypeId}
    (held : arena.Holds (.type target))
    (apart : target ≠ source) :
    arena.Shifts (arena.moveType target source) (.type target)
      (.type source) where
  apart := fun same => apart (Term.type.inj same)
  inline _ := ⟨nofun, nofun⟩
  unnamed _ := ⟨nofun, nofun⟩
  holds _ := (moved_moveType held source).holds
  count := by
    unfold moveType
    split <;> exact Nat.le_refl _
  reads term notTarget notSource := by
    cases term with
    | type id =>
        have notTarget : id ≠ target := fun same => notTarget (congrArg _ same)
        have notSource : id ≠ source := fun same => notSource (congrArg _ same)
        simp [Reads, type_moveType held, notTarget, notSource]
    | _ =>
        simp only [moveType, apart]
        rfl
  filled := by simp [children, mentions, scope?, isUnit, type_moveType held]
  vacated := by
    simp [children, mentions, scope?, isUnit, type_moveType held, apart.symm,
      Vacant.type, TypeForm.children, TypeForm.mentions]

theorem shifts_moveExpr
    {target source : ExprId}
    (held : arena.Holds (.expr target))
    (apart : target ≠ source) :
    arena.Shifts (arena.moveExpr target source) (.expr target)
      (.expr source) where
  apart := fun same => apart (Term.expr.inj same)
  inline _ := ⟨nofun, nofun⟩
  unnamed _ := ⟨nofun, nofun⟩
  holds _ := (moved_moveExpr held source).holds
  count := by
    unfold moveExpr
    split <;> exact Nat.le_refl _
  reads term notTarget notSource := by
    cases term with
    | expr id =>
        have notTarget : id ≠ target := fun same => notTarget (congrArg _ same)
        have notSource : id ≠ source := fun same => notSource (congrArg _ same)
        simp [Reads, expr_moveExpr held, notTarget, notSource]
    | _ =>
        simp only [moveExpr, apart]
        rfl
  filled := by simp [children, mentions, scope?, isUnit, expr_moveExpr held]
  vacated := by
    simp [children, mentions, scope?, isUnit, expr_moveExpr held, apart.symm,
      Vacant.expr, ExprForm.children, ExprForm.mentions, ExprForm.scope?]

theorem shifts_moveStmt
    {target source : StmtId}
    (held : arena.Holds (.stmt target))
    (apart : target ≠ source) :
    arena.Shifts (arena.moveStmt target source) (.stmt target)
      (.stmt source) where
  apart := fun same => apart (Term.stmt.inj same)
  inline _ := ⟨nofun, nofun⟩
  unnamed _ := ⟨nofun, nofun⟩
  holds _ := (moved_moveStmt held source).holds
  count := by
    unfold moveStmt
    split <;> exact Nat.le_refl _
  reads term notTarget notSource := by
    cases term with
    | stmt id =>
        have notTarget : id ≠ target := fun same => notTarget (congrArg _ same)
        have notSource : id ≠ source := fun same => notSource (congrArg _ same)
        simp [Reads, stmt_moveStmt held, notTarget, notSource]
    | _ =>
        simp only [moveStmt, apart]
        rfl
  filled := by simp [children, mentions, scope?, isUnit, stmt_moveStmt held]
  vacated := by
    simp [children, mentions, scope?, isUnit, stmt_moveStmt held, apart.symm,
      Vacant.stmt, StmtForm.children, StmtForm.scope?, StmtForm.isUnit]

end

end Arena

/--
What is found after a set was put in place was found before, or is that set.
-/
private theorem ScopeTable.findLocal?_of_put
    {table : ScopeTable}
    {scope region : ScopeId}
    {key name : Key}
    {set found : OverloadSet}
    (listed : (table.put scope key set).findLocal? region name = some found) :
    table.findLocal? region name = some found ∨
      (region = scope ∧ name = key ∧ found = set) := by
  rw [findLocal?_put_eq] at listed
  split at listed
  next there =>
    split at listed
    · cases listed
    · exact .inr ⟨there.2.1, there.2.2, (Option.some.inj listed).symm⟩
  next => exact .inl listed

namespace Worksite

variable {arena after : Arena} {table : ScopeTable}
  {saved : List (DeclId × ScopeId)} {rest : Stock}
  {decl : DeclId} {scope : ScopeId}

/--
Nothing that is at hand is used up or given when slots exchange their parts.
-/
theorem Sound.shift
    {target source : Term}
    (sound :
      Sound { arena := arena, table := table, saved := saved, stock := rest })
    (whole : Whole { arena := arena, table := table, saved := saved,
                     stock := rest } target)
    (loose : Piece.term source ∈ rest)
    (empty : arena.children target = [])
    (shifts : arena.Shifts after target source) :
    Keeps { arena := arena, table := table, saved := saved, stock := rest }
        { arena := after, table := table, saved := saved, stock := rest } ∧
      Sound { arena := after, table := table, saved := saved,
              stock := rest } := by
  have sourceWhole := (sound.forest.loose loose).1
  have plain := (sound.forest.loose loose).2.1
  rw [← zero_add rest] at sound whole sourceWhole ⊢
  refine @Sound.exchange arena after table saved rest [target, source] [] []
    sound ?_
    (by simp [shifts.apart]) ?_ shifts.holds ?_
      (fun decl listed => absurd listed ?_) shifts.count
    (fun _ listed => absurd listed List.not_mem_nil) ?_ ?_ (fun keeps => ?_)
    (fun _ decl listed => absurd listed ?_)
  · exact List.forall_mem_cons.mpr
      ⟨whole, List.forall_mem_singleton.mpr sourceWhole⟩
  · exact fun name => by simpa using shifts.unnamed name
  · exact fun term apart => by
      simpa using shifts.reads term (by simp_all) (by simp_all)
  · simpa using shifts.inline decl
  · simp [shifts.filled, shifts.vacated, plain]
  · simp [shifts.parts_eq, empty, shifts.filled, shifts.vacated]
  · have was := sound.fit source sourceWhole.1
    simp only [List.forall_mem_cons, List.not_mem_nil, false_imp_iff,
      implies_true, and_true]
    refine ⟨⟨fun mention listed => ?_, ?_, fun inside kept => ?_⟩, ⟨?_, ?_, ?_⟩⟩
    · rw [shifts.filled.2.1] at listed
      exact (was.mentions mention listed).imp fun _ known =>
        ⟨keeps.named known.1, keeps.keyed known.2⟩
    · simp [shifts.template?_eq]
    · rw [shifts.filled.2.2.1] at kept
      exact was.scope inside kept
    · simp [shifts.vacated]
    · simp [shifts.template?_eq]
    · simp [shifts.vacated]
  · simpa using shifts.inline decl

/--
A declaration that keeps its name and scope may get parts, and may get more
phases.
-/
theorem Sound.update
    {change : Decl → Decl}
    {taken given : List Term}
    (sound : Sound
      { arena := arena, table := table, saved := saved,
        stock := Piece.terms taken + rest })
    (whole : Whole
      { arena := arena, table := table, saved := saved,
        stock := Piece.terms taken + rest }
      (.decl decl))
    (name : (change (arena.decl decl)).name = (arena.decl decl).name)
    (inside : (change (arena.decl decl)).scope = (arena.decl decl).scope)
    (kind : (change (arena.decl decl)).form.hollow =
      (arena.decl decl).form.hollow)
    (inline : ∀ other, .decl other ∉ given)
    (trade : (taken ++ (arena.decl decl).form.children).Perm
      (given ++ (change (arena.decl decl)).form.children))
    (callable : ∀ role params result definition,
      (change (arena.decl decl)).form =
        .callable role params result definition →
        (arena.decl decl).form = .callable role params result definition) :
    Keeps { arena := arena, table := table, saved := saved,
            stock := Piece.terms taken + rest }
        { arena := arena.updateDecl decl change, table := table, saved := saved
          stock := Piece.terms given + rest } ∧
      Sound { arena := arena.updateDecl decl change, table := table,
              saved := saved
              stock := Piece.terms given + rest } := by
  have found := Arena.decl_updateDecl whole.1 change
  refine @Sound.exchange arena _ table saved rest [.decl decl] taken given sound
    (List.forall_mem_singleton.mpr whole) (List.nodup_singleton _) (by simp)
    (fun term => Arena.holds_updateDecl change term)
    (fun term apart => Arena.reads_updateDecl (by simpa using apart) change) ?_
      (Nat.le_refl _)
    (fun other listed => absurd listed (inline other))
      (List.forall_mem_singleton.mpr id) ?_
    (fun keeps => ?_) (fun keeps other listed => ?_)
  · simpa [found] using ⟨name, inside, kind⟩
  · simpa [Arena.parts, found] using trade
  · refine List.forall_mem_singleton.mpr
      ⟨by rintro _ ⟨⟩, by rintro _ ⟨⟩, fun region kept => ?_⟩
    refine (sound.fit (.decl decl) whole.1).scope region ?_
    simpa [Arena.scope?, found, inside] using kept
  · obtain rfl : other = decl := by simpa using listed
    intro role params result definition form
    rw [found] at form
    have was := callable _ _ _ _ form
    obtain ⟨region, saving, params⟩ := sound.located other whole _ _ _ _ was
    refine ⟨region, saving, fun param listed => ?_⟩
    have part : Term.decl param ∈ arena.parts (.decl other) := by
      simp [Arena.parts, was, DeclForm.children, listed]
    exact (keeps.scope (sound.forest.below whole part).1.1).trans
      (params param listed)

/-- A declaration reaches a phase. -/
theorem Sound.raise
    (phase : Phase)
    (sound :
      Sound { arena := arena, table := table, saved := saved, stock := rest })
    (whole : Whole { arena := arena, table := table, saved := saved,
                     stock := rest } (.decl decl)) :
    Keeps { arena := arena, table := table, saved := saved, stock := rest }
        { arena := arena.updateDecl decl fun old =>
          old.raiseTo phase, table := table, saved := saved
          stock := rest } ∧
      Sound { arena := arena.updateDecl decl fun old =>
        old.raiseTo phase, table := table
              saved := saved, stock := rest } := by
  rw [← zero_add rest] at sound whole ⊢
  exact @Sound.update arena table saved rest decl (fun old => old.raiseTo phase)
    [] [] sound whole
    rfl rfl rfl (by simp) (.refl _) fun _ _ _ _ => id

/-- A statement gets another form. -/
theorem Sound.setStmt
    {stmt : StmtId}
    {form : StmtForm}
    {taken given : List Term}
    (sound : Sound
      { arena := arena, table := table, saved := saved,
        stock := Piece.terms taken + rest })
    (whole : Whole
      { arena := arena, table := table, saved := saved,
        stock := Piece.terms taken + rest }
      (.stmt stmt))
    (noScope : form.scope? = none)
    (noUnit : form.isUnit = false)
    (surrendered : ∀ decl, .decl decl ∈ given → ∀ number, ¬ Keyed
      { arena := arena, table := table, saved := saved,
        stock := Piece.terms taken + rest } decl
      (.placeholder number))
    (trade : (taken ++ (arena.stmt stmt).form.children).Perm
      (given ++ form.children)) :
    Keeps { arena := arena, table := table, saved := saved,
            stock := Piece.terms taken + rest }
        { arena := arena.setStmtForm stmt form, table := table, saved := saved
          stock := Piece.terms given + rest } ∧
      Sound { arena := arena.setStmtForm stmt form, table := table,
              saved := saved
              stock := Piece.terms given + rest } := by
  have found : ((arena.setStmtForm stmt form).stmt stmt).form = form :=
    Arena.stmt_setStmtForm whole.1
  refine @Sound.exchange arena _ table saved rest [.stmt stmt] taken given sound
    (List.forall_mem_singleton.mpr whole) (List.nodup_singleton _) (by simp)
    (fun term => Arena.holds_setStmtForm)
    (fun term apart => Arena.reads_setStmtForm (by simpa using apart) form)
      (by simp) (Nat.le_refl _)
    surrendered ?_ ?_ (fun keeps => ?_) (by simp)
  · exact List.forall_mem_singleton.mpr fun unit => by
      simp [Arena.isUnit, found, noUnit] at unit
  · simpa [Arena.parts, Arena.children, found] using trade
  · refine List.forall_mem_singleton.mpr
      ⟨by rintro _ ⟨⟩, by rintro _ ⟨⟩, fun region kept => ?_⟩
    simp [Arena.scope?, found, noScope] at kept

/--
A declaration is added with a name that is paid for, on top of terms that
nothing owns.
-/
theorem Sound.addDecl
    {added : Decl}
    {key : Key}
    (sound : Sound
      { arena := arena, table := table, saved := saved
        stock :=
          Piece.fee added.name key + (Piece.terms added.form.children + rest) })
    (plain : added.form.isPlain = true)
    (named : Piece.named added.name key true ∈ rest)
    (room : Piece.room added.scope ∈ rest) :
    Keeps
        { arena := arena, table := table, saved := saved
          stock := Piece.fee added.name key +
            (Piece.terms added.form.children + rest) }
        { arena := (arena.addDecl added).2, table := table, saved := saved
          stock := .term (.decl (arena.addDecl added).1) ::ₘ
            .fresh (arena.addDecl added).1 added.scope key 0 ::ₘ
              .unsaved (arena.addDecl added).1 ::ₘ rest } ∧
      Sound
        { arena := (arena.addDecl added).2, table := table, saved := saved
          stock := .term (.decl (arena.addDecl added).1) ::ₘ
            .fresh (arena.addDecl added).1 added.scope key 0 ::ₘ
              .unsaved (arena.addDecl added).1 ::ₘ rest } := by
  have stay {piece : Piece} (listed : piece ∈ rest) :
      piece ∈ Piece.fee added.name key +
        (Piece.terms added.form.children + rest) := by
    simp [listed]
  let hollow : Decl :=
    { added with name := .invalid, form := added.form.hollow }
  obtain ⟨keepsFirst, first⟩ := @Sound.begin arena table saved _ hollow 0 sound
    (DeclForm.hollow_hollow _) rfl (stay room)
  have slot : (arena.addDecl hollow).1 = (arena.addDecl added).1 := rfl
  rw [slot] at first keepsFirst
  have regroup :
      ((.begun (arena.addDecl added).1 ::ₘ .unsaved (arena.addDecl added).1 ::ₘ
      .unnamed (arena.addDecl added).1 hollow.scope 0 ::ₘ
        (Piece.fee added.name key +
        (Piece.terms added.form.children + rest)) : Stock)) =
      .begun (arena.addDecl added).1 ::ₘ .unnamed (arena.addDecl added).1
        added.scope 0 ::ₘ
        (Piece.fee added.name key + (Piece.terms added.form.children +
          (.unsaved (arena.addDecl added).1 ::ₘ rest))) := by
    simp only [← Multiset.singleton_add, hollow]
    abel
  rw [regroup] at first keepsFirst
  obtain ⟨keepsSecond, second⟩ :=
    @Sound.dub _ table saved _ _ added.scope added.name key 0 added.form
    added.span _ first (Multiset.mem_cons_of_mem named) .paid plain
  rw [← slot, Arena.updateDecl_addDecl, slot] at second keepsSecond
  exact ⟨keepsFirst.trans keepsSecond, second⟩

/--
A declaration that is not bound takes the place of a member of an overload set.
-/
theorem Sound.replace
    {key : Key}
    {set : OverloadSet}
    {position place : Nat}
    (sound : Sound
      { arena := arena, table := table, saved := saved
        stock := .fresh decl scope key place ::ₘ rest })
    (found : table.findLocal? scope key = some set) :
    Keeps
        { arena := arena, table := table, saved := saved
          stock := .fresh decl scope key place ::ₘ rest }
        { arena := arena, table := table.put scope key (set.set position decl),
          saved := saved
          stock := rest } ∧
      Sound
        { arena := arena, table := table.put scope key (set.set position decl),
          saved := saved
          stock := rest } := by
  have keyed := sound.backed (.fresh decl scope key place) (by simp)
  have free := sound.unbound decl (by simp [Piece.claims])
  have linear := sound.linear
  simp only [Stock.claims_cons, Piece.claims, Multiset.singleton_add,
    Multiset.nodup_cons] at linear
  have keeps : Keeps
      { arena := arena, table := table, saved := saved
        stock := .fresh decl scope key place ::ₘ rest }
      { arena := arena, table := table.put scope key (set.set position decl),
        saved := saved
        stock := rest } :=
    keeps_beside (fun piece listed _ => Multiset.mem_cons_of_mem listed)
      (by simp) id
  refine ⟨keeps, sound.beside keeps
    (fun piece listed => .inl (Multiset.mem_cons_of_mem listed))
    (fun piece listed mark => ?_) linear.2
      (fun other claimed region name now listed => ?_)
    (fun other listed =>
      (sound.unsaved other (Multiset.mem_cons_of_mem listed)).2)
    (fun region name now listed => ?_)
      (fun other parent listed => .inl (by simpa using listed))
    (fun _ => .inl)⟩
  · rcases Multiset.mem_cons.mp listed with rfl | old
    · cases mark
    · exact old
  · have unbound := sound.unbound other (by simp [claimed])
    rcases ScopeTable.findLocal?_of_put listed with old | ⟨rfl, rfl, rfl⟩
    · exact unbound _ _ _ old
    · intro member
      rcases List.mem_or_eq_of_mem_set member with old | rfl
      · exact unbound _ _ _ found old
      · exact linear.1 claimed
  · rcases ScopeTable.findLocal?_of_put listed with old | ⟨rfl, rfl, rfl⟩
    · exact .inl old
    · have was := sound.members _ _ _ found
      refine .inr ⟨List.Nodup.set was.1 (free _ _ _ found), fun member listed =>
        ?_⟩
      rcases List.mem_or_eq_of_mem_set listed with old | rfl
      · exact was.2 member old
      · exact keyed

/-- A member leaves its overload set. -/
theorem Sound.leave
    {key : Key}
    {set : OverloadSet}
    (position : Nat)
    (sound :
      Sound { arena := arena, table := table, saved := saved, stock := rest })
    (found : table.findLocal? scope key = some set) :
    Keeps { arena := arena, table := table, saved := saved, stock := rest }
        { arena := arena, table := table.put scope key (set.eraseIdx position),
          saved := saved
          stock := rest } ∧
      Sound
        { arena := arena, table := table.put scope key (set.eraseIdx position),
          saved := saved
          stock := rest } := by
  have keeps :
      Keeps { arena := arena, table := table, saved := saved, stock := rest }
      { arena := arena, table := table.put scope key (set.eraseIdx position),
        saved := saved
        stock := rest } := keeps_beside (fun _ listed _ => listed) (by simp) id
  refine ⟨keeps, sound.beside keeps (fun _ => .inl) (fun _ listed _ => listed)
    sound.linear
    (fun other claimed region name now listed => ?_)
      (fun other listed => (sound.unsaved other listed).2)
    (fun region name now listed => ?_)
      (fun other parent listed => .inl (by simpa using listed))
    (fun _ => .inl)⟩
  · have unbound := sound.unbound other claimed
    rcases ScopeTable.findLocal?_of_put listed with old | ⟨rfl, rfl, rfl⟩
    · exact unbound _ _ _ old
    · exact fun member => unbound _ _ _ found (List.mem_of_mem_eraseIdx member)
  · rcases ScopeTable.findLocal?_of_put listed with old | ⟨rfl, rfl, rfl⟩
    · exact .inl old
    · have was := sound.members _ _ _ found
      exact .inr ⟨was.1.eraseIdx position, fun member listed =>
        was.2 member (List.mem_of_mem_eraseIdx listed)⟩

/--
A declaration becomes a member of a set of its scope and key, whoever else may
have meant to bind it.
-/
theorem Sound.enlist
    {key : Key}
    (sound :
      Sound { arena := arena, table := table, saved := saved, stock := rest })
    (keyed : Keyed { arena := arena, table := table, saved := saved,
                     stock := rest } decl key)
    (inside : (arena.decl decl).scope = scope)
    (apart : ∀ set, table.findLocal? scope key = some set → decl ∉ set) :
    Keeps { arena := arena, table := table, saved := saved, stock := rest }
        { arena := arena
          table :=
            table.put scope key ((table.findLocal? scope key).getD [] ++ [decl])
          saved := saved
          stock := rest.filter fun piece => .unbound decl ∉ piece.claims } ∧
      Sound
        { arena := arena
          table :=
            table.put scope key ((table.findLocal? scope key).getD [] ++ [decl])
          saved := saved
          stock := rest.filter fun piece => .unbound decl ∉ piece.claims } := by
  have keeps :
      Keeps { arena := arena, table := table, saved := saved, stock := rest }
      { arena := arena
        table :=
          table.put scope key ((table.findLocal? scope key).getD [] ++ [decl])
        saved := saved
        stock := rest.filter fun piece => .unbound decl ∉ piece.claims } :=
    keeps_beside (fun _ listed _ => Multiset.mem_of_mem_filter listed)
      (by simp) id
  have fewer : Stock.claims
      (rest.filter fun piece => .unbound decl ∉ piece.claims) ≤ rest.claims :=
    Stock.claims_le (Multiset.filter_le _ _)
  refine ⟨keeps, sound.beside keeps
    (fun _ listed => .inl (Multiset.mem_of_mem_filter listed))
    (fun piece listed mark => Multiset.mem_filter.mpr ⟨listed, ?_⟩)
    (Multiset.nodup_of_le fewer sound.linear)
      (fun other claimed region name now listed => ?_)
    (fun other listed =>
      (sound.unsaved other (Multiset.mem_of_mem_filter listed)).2)
    (fun region name now listed => ?_)
      (fun other parent listed => .inl (by simpa using listed))
    (fun _ => .inl)⟩
  · cases piece with
    | unnamed other region place =>
        simp only [Piece.claims, Multiset.mem_singleton, Claim.unbound.injEq]
        rintro rfl
        exact keyed.christened ⟨region, place, listed⟩
    | begun other => simp [Piece.claims]
    | _ => cases mark
  · have other_ne : other ≠ decl := by
      rintro rfl
      obtain ⟨piece, kept, claim⟩ := Stock.mem_claims.mp claimed
      exact (Multiset.mem_filter.mp kept).2 claim
    have unbound := sound.unbound other (Multiset.mem_of_le fewer claimed)
    rcases ScopeTable.findLocal?_of_put listed with old | ⟨rfl, rfl, rfl⟩
    · exact unbound _ _ _ old
    · cases before : table.findLocal? region name with
      | none => simpa using other_ne
      | some old => simpa using ⟨unbound _ _ _ before, other_ne⟩
  · rcases ScopeTable.findLocal?_of_put listed with old | ⟨rfl, rfl, rfl⟩
    · exact .inl old
    · right
      cases before : table.findLocal? region name with
      | none => exact ⟨by simp, fun member listed => by simp_all⟩
      | some old =>
          have was := sound.members _ _ _ before
          refine ⟨List.nodup_append.mpr ⟨was.1, by simp, ?_⟩,
            fun member listed => ?_⟩
          · rintro member old _ new rfl
            rw [List.mem_singleton.mp new] at old
            exact apart _ before old
          · rcases List.mem_append.mp listed with old | new
            · exact was.2 member old
            · rw [List.mem_singleton.mp new]
              exact ⟨keyed, inside⟩

/--
A scope is saved for a declaration that has none, whoever else may have meant to
do so.
-/
theorem Sound.saveAnew
    (sound :
      Sound { arena := arena, table := table, saved := saved, stock := rest })
    (held : arena.Holds (.decl decl))
    (free : saved.lookup decl = none)
    (inside : scope.raw < table.size) :
    Keeps { arena := arena, table := table, saved := saved, stock := rest }
        { arena := arena, table := table, saved := (decl, scope) :: saved
          stock := rest.filter (· ≠ .unsaved decl) } ∧
      Sound
        { arena := arena, table := table, saved := (decl, scope) :: saved
          stock := rest.filter (· ≠ .unsaved decl) } := by
  have apart {other : DeclId} {found : ScopeId}
      (known : saved.lookup other = some found) :
      ((decl, scope) :: saved).lookup other = some found := by
    have different : other ≠ decl := by
      rintro rfl
      simp [free] at known
    simpa [List.lookup_cons, beq_eq_false_iff_ne.mpr different] using known
  have keeps :
      Keeps { arena := arena, table := table, saved := saved, stock := rest }
      { arena := arena, table := table, saved := (decl, scope) :: saved
        stock := rest.filter (· ≠ .unsaved decl) } :=
    keeps_beside (fun _ listed _ => Multiset.mem_of_mem_filter listed)
      (Nat.le_refl _) apart
  have fewer : Stock.claims (rest.filter (· ≠ .unsaved decl)) ≤ rest.claims :=
    Stock.claims_le (Multiset.filter_le _ _)
  refine ⟨keeps, sound.beside keeps
    (fun _ listed => .inl (Multiset.mem_of_mem_filter listed))
    (fun piece listed mark => Multiset.mem_filter.mpr ⟨listed, ?_⟩)
    (Multiset.nodup_of_le fewer sound.linear)
    (fun other claimed =>
      sound.unbound other (Multiset.mem_of_le fewer claimed))
    (fun other listed => ?_) (fun _ _ _ => .inl) (fun _ _ => .inl)
      (fun entry listed => ?_)⟩
  · rintro rfl
    cases mark
  · obtain ⟨old, different⟩ := Multiset.mem_filter.mp listed
    have different : other ≠ decl := fun same => different (congrArg _ same)
    simpa [List.lookup_cons, beq_eq_false_iff_ne.mpr different]
      using (sound.unsaved other old).2
  · rcases List.mem_cons.mp listed with rfl | old
    · exact .inr ⟨held, inside⟩
    · exact .inl old

end Worksite

end Tern
