import Tern.Proofs.Building.Rights
import Tern.Proofs.Building.Trees

namespace Tern

/-!
# Overload sets grow in order

Whoever has the right to bind in a scope binds behind all that is bound there,
and no one else has that right. So the members of an overload set follow each
other in the text. What is left for later goes on waiting for its turn: the
parameters of a declaration begin behind all that its scope binds, and its body
begins behind the parameters.
-/

/-- A declaration has been added since an arena, and begins at a place. -/
structure Arena.Begins
    (order : Order)
    (base arena : Arena)
    (decl : DeclId)
    (place : Nat) :
    Prop where
  held : arena.Holds (.decl decl)
  new : ¬ base.Holds (.decl decl)
  starts : arena.startOf decl = order.startOf place

/--
A piece is where it claims to be: what may be bound begins behind all that is
bound there, and where a captured body begins is told as it is. What had no name
on an earlier worksite makes no such claim.
-/
def Piece.Placed
    (order : Order)
    (out : DeclId → Prop)
    (base site : Worksite) :
    Piece → Prop
  | .binder scope place =>
      site.table.BindsBefore site.arena out scope (order.startOf place)
  | .asleep _ scope place params stop =>
      site.table.BindsBefore site.arena out scope (order.startOf place) ∧
        Rising place (params.map fun param => param.2.2) stop ∧ place ≤ stop ∧
          ∀ param ∈ params, base.arena.Begins order site.arena param.1 param.2.2
  | .fresh decl _ _ place => base.arena.Begins order site.arena decl place
  | .since decl place => base.arena.Begins order site.arena decl place
  | .unnamed decl _ place => base.Unnamed decl ∨
      base.arena.Begins order site.arena decl place
  | .bound decl scope key => ∃ set, site.table.findLocal? scope key = some set ∧
      decl ∈ set
  | .opens opened place? => site.arena.Opens place? opened
  | _ => True

/-- A piece that no step of building takes away. -/
def Piece.isLasting : Piece → Bool
  | .asleep _ _ _ _ _ => true
  | .bound _ _ _ => true
  | .opens _ _ => true
  | _ => false

/-- What declarations rest on stays at hand. -/
theorem Stock.Rests.mono
    {stock more : Stock}
    {eager : Prop}
    {decl : DeclId}
    {form : DeclForm}
    (rests : stock.Rests eager decl form)
    (stay : ∀ piece ∈ stock, piece.isLasting = true → piece ∈ more) :
    more.Rests eager decl form := by
  cases form with
  | callable role params result definition =>
      refine ⟨fun inline param listed => ?_, fun captured => ?_⟩
      · obtain ⟨scope, key, bound⟩ := rests.1 inline param listed
        exact ⟨scope, key, stay _ bound rfl⟩
      · obtain ⟨scope, place, slated, stop, asleep, same, opens⟩ :=
          rests.2 captured
        exact ⟨scope, place, slated, stop, stay _ asleep rfl, same,
          stay _ opens rfl⟩
  | classType kind definition =>
      intro captured
      rcases rests captured with opens | ⟨scope, place, stop, asleep, opens⟩
      · exact .inl (stay _ opens rfl)
      · exact .inr ⟨scope, place, stop, stay _ asleep rfl, stay _ opens rfl⟩
  | _ => trivial

namespace Worksite

/--
A declaration is ready for what is left for later, and the declarations in it
are new since a worksite, or were at hand there.
-/
structure Assembled
    (order : Order)
    (base : Worksite)
    (stock : Stock)
    (decl : DeclId)
    (form : DeclForm) : Prop where
  rests : stock.Rests order.eager decl form
  inner : ∀ inner, .decl inner ∈ form.children →
    base.arena.Holds (.decl inner) →
    base.Keeping inner

/-- A declaration stays ready while what it rests on stays at hand. -/
theorem Assembled.mono
    {order : Order}
    {base : Worksite}
    {stock more : Stock}
    {decl : DeclId}
    {form : DeclForm}
    (assembled : Assembled order base stock decl form)
    (stay : ∀ piece ∈ stock, piece.isLasting = true → piece ∈ more) :
    Assembled order base more decl form :=
  ⟨assembled.rests.mono stay, assembled.inner⟩

/--
Overload sets are in order, as are the pieces at hand, and what has been added
since a worksite is ready for what is left for later.
-/
structure Ordered
    (order : Order)
    (out : DeclId → Prop)
    (base site : Worksite) :
    Prop where
  sets : site.table.InOrder site.arena out
  placed : ∀ piece ∈ site.stock, piece.Placed order out base site
  inline : order.eager → ∀ {stmt : StmtId}, site.arena.Holds (.stmt stmt) →
    (site.arena.stmt stmt).form.isUnparsed = false
  assembled : ∀ {decl : DeclId}, site.Whole (.decl decl) →
    ¬ base.arena.Holds (.decl decl) →
    Assembled order base site.stock decl (site.arena.decl decl).form
  enlisted : ∀ {decl : DeclId}, site.table.Enlists decl →
    base.arena.Holds (.decl decl) →
    base.table.Enlists decl

/--
From one worksite to another all declarations go on to start where they did.
-/
structure Stays (older newer : Worksite) : Prop where
  held : ∀ {term}, older.arena.Holds term → newer.arena.Holds term
  starts : ∀ {decl}, older.arena.Holds (.decl decl) →
    newer.arena.startOf decl = older.arena.startOf decl
  opens : ∀ {term place?}, older.arena.Holds term →
    older.arena.Opens place? term →
    newer.arena.Opens place? term

variable {order : Order} {out : DeclId → Prop} {base site later : Worksite}

/-- What begins at a place goes on to begin there. -/
private theorem Stays.begins
    {decl : DeclId}
    {place : Nat}
    (stays : site.Stays later)
    (begins : base.arena.Begins order site.arena decl place) :
    base.arena.Begins order later.arena decl place where
  held := stays.held begins.held
  new := begins.new
  starts := (stays.starts begins.held).trans begins.starts

/-- Members start where they did. -/
private theorem Stays.starts_of_member
    (stays : site.Stays later)
    (sound : site.Sound)
    (scope : ScopeId)
    (name : Name)
    (set : OverloadSet)
    (found : site.table.findLocal? scope (.simple name) = some set)
    (decl : DeclId)
    (listed : decl ∈ set) :
    later.arena.startOf decl = site.arena.startOf decl :=
  stays.starts ((sound.members _ _ _ found).2 decl listed).1.held

/--
A piece stays in its place as long as nothing is bound where it is the right to
bind.
-/
private theorem Stays.placed
    {piece : Piece}
    (stays : site.Stays later)
    (sound : site.Sound)
    (listed : piece ∈ site.stock)
    (placed : piece.Placed order out base site)
    (untouched : ∀ scope ∈ piece.rights, ∀ name,
      later.table.findLocal? scope (.simple name) =
        site.table.findLocal? scope (.simple name))
    (members : ∀ scope key set, site.table.findLocal? scope key = some set →
      ∃ more, later.table.findLocal? scope key = some (set ++ more)) :
    piece.Placed order out base later := by
  cases piece with
  | binder scope place =>
      exact placed.congr (untouched scope (Multiset.mem_singleton_self _))
        (stays.starts_of_member sound scope)
  | asleep decl scope place params stop =>
      obtain ⟨before, rising, onward, begins⟩ := placed
      exact ⟨before.congr (untouched scope (Multiset.mem_singleton_self _))
        (stays.starts_of_member sound scope), rising, onward,
        fun param among => stays.begins (begins param among)⟩
  | fresh decl scope key place => exact stays.begins placed
  | since decl place => exact stays.begins placed
  | unnamed decl scope place => exact placed.imp_right stays.begins
  | bound decl scope key =>
      obtain ⟨set, found, member⟩ := placed
      obtain ⟨more, now⟩ := members scope key set found
      exact ⟨_, now, List.mem_append_left _ member⟩
  | opens opened place? => exact stays.opens (sound.backed _ listed) placed
  | _ => trivial

/--
All that is no declaration reads the same, so captured bodies begin where they
did.
-/
private theorem Sound.stays
    (sound : site.Sound)
    (held : ∀ {term}, site.arena.Holds term → later.arena.Holds term)
    (starts : ∀ {decl}, site.arena.Holds (.decl decl) →
      later.arena.startOf decl = site.arena.startOf decl)
    (reads : ∀ {term : Term}, site.arena.Holds term →
      (∀ decl, term ≠ .decl decl) →
      site.arena.Reads later.arena term) :
    site.Stays later where
  held := held
  starts := starts
  opens {term place?} stored opens := by
    have same {stmt : StmtId} (stored : site.arena.Holds (.stmt stmt)) :
        later.arena.stmt stmt = site.arena.stmt stmt := reads stored nofun
    cases term with
    | stmt stmt => simpa only [Arena.Opens, same stored] using opens
    | definition definition =>
        have definitionSame : later.arena.definition definition =
          site.arena.definition definition := reads stored nofun
        intro stmt block
        rw [definitionSame] at block
        have inside : site.Whole (.stmt stmt) :=
          sound.whole_child ⟨stored, nofun⟩ (by
            cases form : (site.arena.definition definition).form <;>
              simp_all [Arena.children, DefForm.block?, DefForm.children])
        rw [same inside.1]
        exact opens stmt block
    | _ => trivial

namespace Ordered

/--
A step that binds nothing, but may add terms, pieces that are in place, and
whole declarations.
-/
theorem beside
    (ordered : base.Ordered order out site)
    (sound : site.Sound)
    (stays : site.Stays later)
    (table : ∀ scope key, later.table.findLocal? scope key =
      site.table.findLocal? scope key)
    (come : ∀ piece ∈ later.stock, piece ∈ site.stock ∨
      piece.Placed order out base later)
    (lasting : ∀ piece ∈ site.stock, piece.isLasting = true →
      piece ∈ later.stock)
    (inline : order.eager → ∀ {stmt : StmtId}, later.arena.Holds (.stmt stmt) →
      ¬ site.arena.Holds (.stmt stmt) →
        (later.arena.stmt stmt).form.isUnparsed = false)
    (stmts : ∀ {stmt : StmtId}, site.arena.Holds (.stmt stmt) →
      later.arena.stmt stmt = site.arena.stmt stmt)
    (whole : ∀ {decl : DeclId}, later.Whole (.decl decl) →
      (site.Whole (.decl decl) ∧ (later.arena.decl decl).form =
        (site.arena.decl decl).form) ∨
        Assembled order base later.stock decl (later.arena.decl decl).form) :
    base.Ordered order out later where
  sets :=
    ordered.sets.congr (fun _ _ => table _ _) (stays.starts_of_member sound)
  placed piece listed := (come piece listed).elim
    (fun old => stays.placed sound old (ordered.placed piece old)
      (fun _ _ _ => table _ _)
      fun scope key set found => ⟨[], by rw [table, found, List.append_nil]⟩) id
  inline eager {stmt} held := by
    by_cases stored : site.arena.Holds (.stmt stmt)
    · rw [stmts stored]
      exact ordered.inline eager stored
    · exact inline eager held stored
  assembled {decl} finished new := by
    rcases whole finished with ⟨before, form⟩ | assembled
    · rw [form]
      exact (ordered.assembled before new).mono lasting
    · exact assembled
  enlisted {decl} enlists stored := by
    obtain ⟨scope, key, set, found, member⟩ := enlists
    exact ordered.enlisted
      ⟨scope, key, set, (table _ _).symm.trans found, member⟩ stored

/-- A step that only notes something, or takes notes away. -/
private theorem note
    (ordered : base.Ordered order out site)
    (sound : site.Sound)
    {stock : Stock}
    (come : ∀ piece ∈ stock, piece ∈ site.stock ∨
      piece.Placed order out base { site with stock := stock })
    (lasting : ∀ piece ∈ site.stock, piece.isLasting = true → piece ∈ stock)
    (begun : ∀ decl, Piece.begun decl ∈ site.stock → Piece.begun decl ∈ stock) :
    base.Ordered order out { site with stock := stock } :=
  ordered.beside sound ⟨id, fun _ => rfl, fun _ => id⟩ (fun _ _ => rfl) come
    lasting
    (fun _ _ held absent => absurd held absent) (fun _ => rfl)
    fun whole =>
      .inl ⟨⟨whole.1, fun decl same listed =>
        whole.2 decl same (begun decl listed)⟩, rfl⟩

/-- A step that notes something that is in place. -/
private theorem noteOne
    (ordered : base.Ordered order out site)
    (sound : site.Sound)
    {piece : Piece}
    (placed : piece.Placed order out base site) :
    base.Ordered order out { site with stock := piece ::ₘ site.stock } := by
  refine ordered.note sound (fun other listed => ?_)
    (fun _ listed _ => Multiset.mem_cons_of_mem listed)
    fun _ => Multiset.mem_cons_of_mem
  rcases Multiset.mem_cons.mp listed with rfl | old
  · exact .inr placed
  · exact .inl old

/-- A step that changes a declaration, but not where it starts. -/
private theorem updateDecl
    (ordered : base.Ordered order out site)
    (sound : site.Sound)
    {decl : DeclId}
    {change : Decl → Decl}
    {stock : Stock}
    (starts : (change (site.arena.decl decl)).span.start =
      site.arena.startOf decl)
    (come : ∀ piece ∈ stock, piece ∈ site.stock ∨ piece.Placed order out base
      { site with arena := site.arena.updateDecl decl change, stock := stock })
    (lasting : ∀ piece ∈ site.stock, piece.isLasting = true → piece ∈ stock)
    (begun : ∀ other, other ≠ decl → Piece.begun other ∈ site.stock →
      Piece.begun other ∈ stock)
    (whole : Whole { site with arena := site.arena.updateDecl decl change,
                               stock := stock }
        (.decl decl) →
      (site.Whole (.decl decl) ∧ (change (site.arena.decl decl)).form =
        (site.arena.decl decl).form) ∨
        Assembled order base stock decl (change (site.arena.decl decl)).form) :
    base.Ordered order out
      { site with arena := site.arena.updateDecl decl change,
                  stock := stock } := by
  refine ordered.beside sound
    (sound.stays (Arena.holds_updateDecl _ _).mpr (fun {other} held => ?_)
    fun {term} _ plain => Arena.reads_updateDecl (plain decl) change)
      (fun _ _ => rfl) come lasting
    (fun _ _ held absent =>
      absurd ((Arena.holds_updateDecl _ _).mp held) absent) (fun _ => rfl)
    fun {other} finished => ?_
  · by_cases same : other = decl
    · subst same
      rw [Arena.startOf, Arena.decl_updateDecl held]
      exact starts
    · rw [Arena.startOf, Arena.decl_updateDecl_of_ne same, Arena.startOf]
  · have held := (Arena.holds_updateDecl _ _).mp finished.1
    by_cases same : other = decl
    · subst same
      rw [Arena.decl_updateDecl held]
      exact whole finished
    · refine .inl ⟨⟨held, ?_⟩, by rw [Arena.decl_updateDecl_of_ne same]⟩
      rintro _ ⟨⟩ listed
      exact finished.2 other rfl (begun other same listed)

/-- A term that is no declaration is added. -/
private theorem add
    (ordered : base.Ordered order out site)
    (sound : site.Sound)
    {after : Arena}
    {term : Term}
    {stock : Stock}
    (adds : site.arena.Adds term after)
    (come : ∀ piece ∈ stock, piece ∈ site.stock ∨
      piece.Placed order out base { site with arena := after, stock := stock })
    (lasting : ∀ piece ∈ site.stock, piece.isLasting = true → piece ∈ stock)
    (begun : ∀ decl, Piece.begun decl ∈ site.stock → Piece.begun decl ∈ stock)
    (inline : order.eager → ∀ stmt, term = .stmt stmt →
      (after.stmt stmt).form.isUnparsed = false) :
    base.Ordered order out { site with arena := after, stock := stock } := by
  have reads {other : Term} (held : site.arena.Holds other) :
      site.arena.Reads after other :=
    adds.reads fun same => adds.new (same ▸ held)
  have decl (other : DeclId) : after.decl other = site.arena.decl other := by
    simp only [Arena.decl, adds.decls_eq]
  refine ordered.beside sound
    (sound.stays (fun held => adds.holds.mpr (.inl held))
    (fun _ => by simp only [Arena.startOf, decl]) fun held _ => reads held)
      (fun _ _ => rfl) come
    lasting (fun eager {stmt} held absent => inline eager stmt
      ((adds.holds.mp held).resolve_left absent).symm) (fun held => reads held)
    fun {other} finished => .inl ⟨⟨?_, ?_⟩, by rw [decl]⟩
  · have held := finished.1
    simpa only [Arena.Holds, adds.decls_eq] using held
  · rintro _ ⟨⟩ listed
    exact finished.2 other rfl (begun other listed)

/-- A declaration is added that begins at a place. -/
private theorem addDecl
    (ordered : base.Ordered order out site)
    (sound : site.Sound)
    {decl : Decl}
    {stock : Stock}
    (come : ∀ piece ∈ stock, piece ∈ site.stock ∨ piece.Placed order out base
      { site with arena := (site.arena.addDecl decl).2, stock := stock })
    (lasting : ∀ piece ∈ site.stock, piece.isLasting = true → piece ∈ stock)
    (begun : ∀ other, Piece.begun other ∈ site.stock →
      Piece.begun other ∈ stock)
    (waits : Piece.begun (site.arena.addDecl decl).1 ∈ stock) :
    base.Ordered order out { site with arena := (site.arena.addDecl decl).2,
                                       stock := stock } := by
  have new {other : DeclId} (held : site.arena.Holds (.decl other)) :
      other ≠ (site.arena.addDecl decl).1 := by
    rintro rfl
    exact Arena.not_holds_addDecl decl held
  refine ordered.beside sound
    (sound.stays (fun held => (Arena.holds_addDecl decl).mpr (.inl held))
    (fun {other} held => ?_) fun {term} _ plain =>
      Arena.reads_addDecl (plain _)) (fun _ _ => rfl)
    come lasting (fun _ _ held absent => absurd held absent) (fun _ => rfl)
    fun {other} finished => ?_
  · rw [Arena.startOf, Arena.decl_addDecl_of_ne (new held), Arena.startOf]
  · rcases (Arena.holds_addDecl decl).mp finished.1 with held | same
    · refine .inl ⟨⟨held, ?_⟩, by rw [Arena.decl_addDecl_of_ne (new held)]⟩
      rintro _ ⟨⟩ listed
      exact finished.2 other rfl (begun other listed)
    · cases same
      exact absurd waits (finished.2 _ rfl)

/-- A declaration that begins behind all that its scope binds is bound there. -/
theorem bind
    {arena : Arena}
    {table : ScopeTable}
    {saved : List (DeclId × ScopeId)}
    {rest : Stock}
    {decl : DeclId}
    {scope : ScopeId}
    {key : Key}
    {place lower : Nat}
    (ordered : base.Ordered order out
      { arena := arena, table := table, saved := saved
        stock := .fresh decl scope key place ::ₘ .binder scope lower ::ₘ rest })
    (sound : Sound
      { arena := arena, table := table, saved := saved
        stock := .fresh decl scope key place ::ₘ .binder scope lower ::ₘ rest })
    (single : Stock.rights
      (.fresh decl scope key place ::ₘ .binder scope lower ::ₘ rest) |>.Nodup)
    (rising : StrictMono order.startOf)
    (behind : lower ≤ place) :
    base.Ordered order out
      { arena := arena
        table :=
          table.put scope key ((table.findLocal? scope key).getD [] ++ [decl]),
            saved := saved
        stock :=
          .binder scope (place + 1) ::ₘ .bound decl scope key ::ₘ rest } := by
  have begins := ordered.placed (.fresh decl scope key place) (by simp)
  have before := ordered.placed (.binder scope lower) (by simp)
  have room : scope.raw < table.size :=
    sound.backed (.binder scope lower) (by simp)
  have starts : arena.startOf decl = order.startOf place := begins.starts
  have stays : Stays
      { arena := arena, table := table, saved := saved
        stock := .fresh decl scope key place ::ₘ .binder scope lower ::ₘ rest }
      { arena := arena
        table :=
          table.put scope key ((table.findLocal? scope key).getD [] ++ [decl]),
            saved := saved
        stock :=
          .binder scope (place + 1) ::ₘ .bound decl scope key ::ₘ rest } :=
    ⟨id, fun _ => rfl, fun _ => id⟩
  have behindAll : table.BindsBefore arena out scope (arena.startOf decl) :=
    starts ▸ before.mono (rising.monotone behind)
  refine
    { sets := ordered.sets.append fun _ _ => behindAll
      placed := fun piece listed => ?_
      inline := ordered.inline
      assembled := fun {other} whole new => ?_
      enlisted := fun {other} enlists stored => ?_ }
  · rcases Multiset.mem_cons.mp listed with rfl | listed
    · exact (before.mono (rising.monotone (Nat.le_succ_of_le behind))).append
          fun _ =>
        starts ▸ rising (Nat.lt_succ_self place)
    rcases Multiset.mem_cons.mp listed with rfl | old
    · refine ⟨(table.findLocal? scope key).getD [] ++ [decl], ?_, by simp⟩
      rw [ScopeTable.findLocal?_put_eq, if_pos ⟨room, rfl, rfl⟩,
        if_neg (by simp)]
    have was : piece ∈
        (.fresh decl scope key place ::ₘ .binder scope lower ::ₘ rest :
          Stock) := by
      simp [old]
    refine stays.placed sound was (ordered.placed piece was)
      (fun other right name => ?_)
      fun other name set found => ?_
    · refine ScopeTable.findLocal?_put_of_ne ?_ _ _ _
      rintro rfl
      simp only [Stock.rights_cons, Piece.rights, zero_add, Multiset.nodup_add]
        at single
      exact Multiset.disjoint_left.mp single.2.2 (Multiset.mem_singleton_self _)
        (Stock.mem_rights.mpr ⟨piece, old, right⟩)
    · dsimp only at found ⊢
      rw [ScopeTable.findLocal?_put_eq]
      split
      next here =>
        obtain ⟨-, rfl, rfl⟩ := here
        exact ⟨[decl], by simp [found]⟩
      next => exact ⟨[], by rw [found, List.append_nil]⟩
  · refine (ordered.assembled ⟨whole.1, fun id same listed =>
      whole.2 id same ?_⟩ new).mono ?_
    · simpa [Begun] using listed
    · intro piece listed lasting
      simp only [Multiset.mem_cons] at listed ⊢
      rcases listed with rfl | rfl | old
      · cases lasting
      · cases lasting
      · exact .inr (.inr old)
  · obtain ⟨home, name, set, found, member⟩ := enlists
    dsimp only at found
    rw [ScopeTable.findLocal?_put_eq] at found
    split at found
    next here =>
      obtain ⟨-, rfl, rfl⟩ := here
      rw [if_neg (by simp)] at found
      cases found
      rcases List.mem_append.mp member with old | isNew
      · cases known : table.findLocal? home name with
        | none =>
            rw [known] at old
            cases old
        | some set =>
            rw [known] at old
            exact ordered.enlisted ⟨home, name, set, known, old⟩ stored
      · obtain rfl := List.mem_singleton.mp isNew
        exact absurd stored begins.new
    next => exact ordered.enlisted ⟨home, name, set, found, member⟩ stored

end Ordered

end Worksite

/--
After one more step all is in order as it was before, if what had no name at
first still has none.
-/
private theorem BuildStep.ordered
    {order : Order}
    {out : DeclId → Prop}
    {base site later : Worksite}
    (step : BuildStep order site later)
    (kept : order.kept)
    (rising : StrictMono order.startOf)
    (sound : site.Sound)
    (keeps : base.Keeps site)
    (enrolls : base.Enrolls site)
    (confined : base.Confined site)
    (still : ∀ decl, base.Unnamed decl → later.Unnamed decl)
    (ordered : base.Ordered order out site) :
    base.Ordered order out later := by
  have soundLater := (step.sound sound).2
  cases step with
  | @add arena after table saved rest term adds spelled warranted =>
      refine ordered.add sound adds (fun piece listed => ?_)
        (fun piece listed lasting => ?_)
        (fun decl listed => ?_) (warranted.inline kept)
      · rcases Multiset.mem_add.mp listed with new | old
        · obtain ⟨rfl, -⟩ | ⟨_, _, -, rfl, -⟩ :=
            Worksite.mem_loose new <;> exact .inr trivial
        · exact .inl (Multiset.mem_add.mpr (.inr old))
      · rcases Multiset.mem_add.mp listed with owned | old
        · obtain ⟨child, -, rfl⟩ := List.mem_map.mp (Multiset.mem_coe.mp owned)
          cases lasting
        · exact Multiset.mem_add.mpr (.inr old)
      · rcases Multiset.mem_add.mp listed with owned | old
        · obtain ⟨child, -, same⟩ := List.mem_map.mp (Multiset.mem_coe.mp owned)
          cases same
        · exact Multiset.mem_add.mpr (.inr old)
  | @mint arena table saved rest span =>
      refine ordered.add sound (.placeholder span) (fun piece listed => ?_)
        (fun piece listed lasting => by simp_all)
          (fun decl listed => by simp_all) nofun
      rcases Worksite.mem_of_mintName span listed with rfl | rfl |
          ⟨_, _, rfl⟩ | old
      · exact .inr trivial
      · exact .inr trivial
      · exact .inr trivial
      · exact .inl old
  | @begin arena table saved rest place decl hollow nameless early room
      starts =>
      refine ordered.addDecl sound (fun piece listed => ?_)
        (fun piece listed _ => by simp_all)
        (fun other listed => by simp_all) (by simp)
      simp only [Multiset.mem_cons] at listed
      rcases listed with rfl | rfl | rfl | old
      · exact .inr trivial
      · exact .inr trivial
      · refine .inr
          (.inr ⟨(Arena.holds_addDecl decl).mpr (.inr rfl), fun held => ?_, ?_⟩)
        · exact Arena.not_holds_addDecl decl (keeps.held held)
        · rw [Arena.startOf, Arena.decl_addDecl]
          exact starts kept
      · exact .inl old
  | @christen arena table saved rest decl name spelling scope place named =>
      have placed := ordered.placed (.unnamed decl scope place) (by simp)
      have christened : ¬ base.Unnamed decl := fun unnamed =>
        (soundLater.backed (.fresh decl scope (.simple spelling) place)
          (by simp)).1.christened
          (still decl unnamed)
      refine ordered.updateDecl sound rfl (fun piece listed => ?_)
        (fun piece listed lasting => ?_) (fun other _ listed => by simp_all)
          fun whole => .inl ⟨?_, rfl⟩
      · rcases Multiset.mem_cons.mp listed with rfl | old
        · obtain ⟨held, new, starts⟩ := placed.resolve_left christened
          refine .inr ⟨(Arena.holds_updateDecl _ _).mpr held, new, ?_⟩
          rw [Arena.startOf, Arena.decl_updateDecl held]
          exact starts
        · exact .inl (Multiset.mem_cons_of_mem old)
      · rcases Multiset.mem_cons.mp listed with rfl | old
        · cases lasting
        · exact Multiset.mem_cons_of_mem old
      · have begun := (sound.unnamed decl scope place (by simp)).1
        exact absurd (by simpa [Worksite.Begun] using begun) (whole.2 decl rfl)
  | @complete arena table saved rest decl form span located named starts
      rests =>
      obtain ⟨place, since, same⟩ := starts kept
      have begins := ordered.placed (.since decl place) (by simp [since])
      refine ordered.updateDecl sound (same.trans begins.starts.symm)
        (fun piece listed => ?_)
        (fun piece listed lasting => ?_) (fun other apart listed => ?_) fun _ =>
          .inr ⟨(rests kept).mono fun piece listed _ =>
            Multiset.mem_cons_of_mem listed,
            fun inner among => enrolls.keeping (.inl ?_)⟩
      · rcases Multiset.mem_cons.mp listed with rfl | old
        · exact .inr trivial
        · exact .inl (by simp [old])
      · simp only [Multiset.mem_cons, Multiset.mem_add] at listed
        rcases listed with rfl | owned | old
        · cases lasting
        · obtain ⟨child, -, rfl⟩ := List.mem_map.mp (Multiset.mem_coe.mp owned)
          cases lasting
        · exact Multiset.mem_cons_of_mem old
      · simp only [Multiset.mem_cons, Multiset.mem_add, Piece.begun.injEq]
          at listed
        rcases listed with same | owned | old
        · exact absurd same apart
        · obtain ⟨child, -, same⟩ := List.mem_map.mp (Multiset.mem_coe.mp owned)
          cases same
        · exact Multiset.mem_cons_of_mem old
      · have loose : Piece.term (.decl inner) ∈ Piece.terms form.children :=
          Multiset.mem_coe.mpr (List.mem_map_of_mem among)
        simp [loose]
  | @dub arena table saved rest fee decl name key scope place form span named
      entitled plain starts =>
      have placed := ordered.placed (.unnamed decl scope place) (by simp)
      have christened : ¬ base.Unnamed decl := fun unnamed =>
        (soundLater.backed (.fresh decl scope key place) (by simp)).1.christened
          (still decl unnamed)
      obtain ⟨held, new, starting⟩ := placed.resolve_left christened
      have noFee {piece : Piece} (listed : piece ∈ fee) : ∃ name, piece =
          .unspent name := by
        cases entitled with
        | paid =>
            cases key with
            | simple _ => cases Multiset.notMem_zero _ listed
            | placeholder _ => exact ⟨name, Multiset.mem_singleton.mp listed⟩
        | shared => cases Multiset.notMem_zero _ listed
      refine ordered.updateDecl sound ((starts kept).trans starting.symm)
        (fun piece listed => ?_)
        (fun piece listed lasting => ?_) (fun other apart listed => ?_) fun _ =>
          .inr ⟨(Stock.readies_of_isPlain plain _ _ _).2,
            fun inner among => enrolls.keeping (.inl ?_)⟩
      · simp only [Multiset.mem_cons] at listed
        rcases listed with rfl | rfl | old
        · exact .inr trivial
        · refine .inr ⟨(Arena.holds_updateDecl _ _).mpr held, new, ?_⟩
          rw [Arena.startOf, Arena.decl_updateDecl held]
          exact starts kept
        · exact .inl (by simp [old])
      · simp only [Multiset.mem_cons, Multiset.mem_add] at listed ⊢
        rcases listed with rfl | rfl | paid | owned | old
        · cases lasting
        · cases lasting
        · obtain ⟨_, rfl⟩ := noFee paid
          cases lasting
        · obtain ⟨child, -, rfl⟩ := List.mem_map.mp (Multiset.mem_coe.mp owned)
          cases lasting
        · exact .inr (.inr old)
      · simp only [Multiset.mem_cons, Multiset.mem_add, Piece.begun.injEq,
          reduceCtorEq, false_or]
          at listed ⊢
        rcases listed with same | paid | owned | old
        · exact absurd same apart
        · obtain ⟨_, same⟩ := noFee paid
          cases same
        · obtain ⟨child, -, same⟩ := List.mem_map.mp (Multiset.mem_coe.mp owned)
          cases same
        · exact old
      · have loose : Piece.term (.decl inner) ∈ Piece.terms form.children :=
          Multiset.mem_coe.mpr (List.mem_map_of_mem among)
        simp [loose]
  | bind behind => exact ordered.bind sound confined.single rising behind
  | @push arena table saved rest kind parent room =>
      refine ordered.beside sound ⟨id, fun _ => rfl, fun _ => id⟩
        (fun _ _ => ScopeTable.findLocal?_push ..) (fun piece listed => ?_)
        (fun piece listed _ => by simp [listed])
          (fun _ _ held absent => absurd held absent)
        (fun _ => rfl) fun whole =>
          .inl ⟨⟨whole.1, fun id same listed => whole.2 id same ?_⟩, rfl⟩
      · simp only [Multiset.mem_cons] at listed
        rcases listed with rfl | rfl | old
        · exact .inr trivial
        · refine .inr fun name set found => ?_
          have past : table.findLocal? { raw := table.size } (.simple name) =
              none := by
            simp [ScopeTable.findLocal?]
          rw [ScopeTable.findLocal?_push, past] at found
          cases found
        · exact .inl old
      · simpa [Worksite.Begun] using listed
  | @save arena table saved rest decl scope room =>
      refine ordered.beside sound ⟨id, fun _ => rfl, fun _ => id⟩
        (fun _ _ => rfl)
        (fun piece listed => ?_) (fun piece listed lasting => ?_)
        (fun _ _ held absent => absurd held absent) (fun _ => rfl)
        fun whole =>
          .inl ⟨⟨whole.1, fun id same listed => whole.2 id same ?_⟩, rfl⟩
      · rcases Multiset.mem_cons.mp listed with rfl | old
        · exact .inr trivial
        · exact .inl (Multiset.mem_cons_of_mem old)
      · rcases Multiset.mem_cons.mp listed with rfl | old
        · cases lasting
        · exact Multiset.mem_cons_of_mem old
      · simpa [Worksite.Begun] using listed
  | @relax _ rest scope place further onward stock =>
      have before := ordered.placed (.binder scope place) (by simp [stock])
      refine ordered.note sound (fun piece listed => ?_)
        (fun piece listed lasting => ?_) (by simp [stock])
      · rcases Multiset.mem_cons.mp listed with rfl | old
        · exact .inr (before.mono (rising.monotone onward))
        · exact .inl (by simp [stock, old])
      · rw [stock] at listed
        rcases Multiset.mem_cons.mp listed with rfl | old
        · cases lasting
        · exact Multiset.mem_cons_of_mem old
  | claim unordered room => exact absurd kept unordered
  | noteMember found member => exact ordered.noteOne sound ⟨_, found, member⟩
  | noteAgain bound => exact ordered.noteOne sound (ordered.placed _ bound)
  | noteBound bound => exact ordered.noteOne sound trivial
  | @noteSince _ decl scope key place fresh =>
      exact ordered.noteOne sound
        (ordered.placed (.fresh decl scope key place) fresh)
  | noteApplied held applied bound => exact ordered.noteOne sound trivial
  | noteOpens held opens => exact ordered.noteOne sound opens
  | noteBody held block opens =>
      refine ordered.noteOne sound fun stmt found => ?_
      cases block.symm.trans found
      exact ordered.placed _ opens
  | @doze _ rest decl scope place stop params saved between before stock =>
      have behind := ordered.placed (.binder scope place) (by simp [stock])
      refine ordered.note sound (fun piece listed => ?_)
        (fun piece listed lasting => ?_)
        fun other listed => ?_
      · rcases Multiset.mem_cons.mp listed with rfl | old
        · refine .inr ⟨behind, between, before, fun param among => ?_⟩
          exact ordered.placed (.fresh param.1 scope param.2.1 param.2.2) (by
            rw [stock]
            exact Multiset.mem_cons_of_mem
              (Multiset.mem_add.mpr (.inl (Multiset.mem_coe.mpr
              (List.mem_map_of_mem among)))))
        · exact .inl (by simp [stock, old])
      all_goals
        rw [stock] at listed
        simp only [Multiset.mem_cons, Multiset.mem_add] at listed
      · rcases listed with rfl | slated | old
        · cases lasting
        · obtain ⟨param, -, rfl⟩ := List.mem_map.mp (Multiset.mem_coe.mp slated)
          cases lasting
        · exact Multiset.mem_cons_of_mem old
      · rcases listed with same | slated | old
        · cases same
        · obtain ⟨param, -, same⟩ :=
            List.mem_map.mp (Multiset.mem_coe.mp slated)
          cases same
        · exact Multiset.mem_cons_of_mem old

namespace BuildSteps

variable {order : Order} {out : DeclId → Prop} {base site : Worksite}

/-- What had no name at first and has none in the end had none in between. -/
private theorem unnamed_of_still
    (steps : BuildSteps order base site)
    (sound : base.Sound)
    {decl : DeclId}
    (held : base.arena.Holds (.decl decl))
    (still : site.Unnamed decl) :
    base.Unnamed decl := by
  by_contra christened
  obtain ⟨key, keyed⟩ := sound.christened decl held christened
  exact ((BuildSteps.sound steps sound).1.keyed keyed).christened still

/--
Any number of steps that keep order leave all in order, and bind only where they
may.
-/
theorem ordered
    (steps : BuildSteps order base site)
    (kept : order.kept)
    (rising : StrictMono order.startOf)
    (sound : base.Sound)
    (single : base.stock.rights.Nodup)
    (still : ∀ decl, base.Unnamed decl → site.Unnamed decl)
    (initial : base.Ordered order out base) :
    base.Confined site ∧ base.Ordered order out site := by
  induction steps with
  | refl => exact ⟨.refl single, initial⟩
  | @tail middle last steps step inductionHypothesis =>
      obtain ⟨keeps, soundMiddle⟩ := BuildSteps.sound steps sound
      have before (decl : DeclId) (unnamed : base.Unnamed decl) :
          middle.Unnamed decl := by
        have ⟨_, _, listed⟩ := unnamed
        have held := (sound.begun decl (sound.unnamed _ _ _ listed).1).1
        exact unnamed_of_still (.single step) soundMiddle (keeps.held held)
          (still decl unnamed)
      obtain ⟨confined, ordered⟩ := inductionHypothesis before
      exact ⟨step.confined kept soundMiddle keeps confined,
        step.ordered kept rising soundMiddle keeps
          (BuildSteps.enrolls steps sound) confined still
          ordered⟩

end BuildSteps

end Tern
