import Tern.Proofs.Elaboration.Arrangement

namespace Tern

/-!
# Arranged worksites stay arranged

What elaborators do to worksites keeps them arranged. Parameters are bound in
their turn, parsed bodies take their places, templates take the places of
functions in overload sets, and of members that leave their sets nothing is said
any more.
-/

/--
What is a member once a set is put in its place is one of that set, or was a
member before.
-/
theorem ScopeTable.mem_or_enlists_of_put
    {table : ScopeTable}
    {scope : ScopeId}
    {key : Key}
    {set : OverloadSet}
    {decl : DeclId}
    (enlists : (table.put scope key set).Enlists decl) :
    decl ∈ set ∨ table.Enlists decl := by
  obtain ⟨home, name, found, lookup, member⟩ := enlists
  rw [findLocal?_put_eq] at lookup
  split at lookup
  next =>
    split at lookup
    · cases lookup
    · cases lookup
      exact .inl member
  next => exact .inr ⟨home, name, found, lookup, member⟩

/--
Behind the members of a set one declaration is added, and no other one becomes a
member.
-/
theorem ScopeTable.eq_or_enlists_of_append
    {table : ScopeTable}
    {scope : ScopeId}
    {key : Key}
    {decl new : DeclId}
    (enlists : (table.put scope key
      ((table.findLocal? scope key).getD [] ++ [new])).Enlists decl) :
    decl = new ∨ table.Enlists decl := by
  rcases mem_or_enlists_of_put enlists with member | before
  · rcases List.mem_append.mp member with old | last
    · cases found : table.findLocal? scope key with
      | none =>
          rw [found] at old
          cases old
      | some set =>
          rw [found] at old
          exact .inr ⟨scope, key, set, found, old⟩
    · exact .inl (List.mem_singleton.mp last)
  · exact .inr before

namespace Arena

variable {arena : Arena} {target source : StmtId} {range : TokenRange}
  {role : ListRole}
  {stmts : List StmtId} {scope : ScopeId}

/--
Where a statement list moves into the slot of a range of tokens, the same
declarations are held.
-/
private theorem declaration_moveStmt_iff
    (captured : (arena.stmt target).form = .unparsed range)
    (list : (arena.stmt source).form = .list role stmts scope)
    {stmt : StmtId}
    {decl : DeclId} :
    ((arena.moveStmt target source).stmt stmt).form = .declaration decl ↔
      (arena.stmt stmt).form = .declaration decl := by
  rw [stmt_moveStmt (holds_of_unparsed captured)]
  split
  next here => simp [here, captured, list]
  next =>
    split
    next here => simp [here, list, Vacant.stmt]
    next => rfl

/-- No range of tokens comes about there. -/
theorem unparsed_of_moveStmt
    (captured : (arena.stmt target).form = .unparsed range)
    (list : (arena.stmt source).form = .list role stmts scope)
    {stmt : StmtId}
    {other : TokenRange}
    (form : ((arena.moveStmt target source).stmt stmt).form = .unparsed other) :
    stmt ≠ target ∧ (arena.stmt stmt).form = .unparsed other := by
  rw [stmt_moveStmt (holds_of_unparsed captured)] at form
  split at form
  next => cases list.symm.trans form
  next apart =>
    split at form
    next => cases form
    next => exact ⟨apart, form⟩

/-- Definitions stay as they are. -/
theorem definition_moveStmt
    (arena : Arena)
    (target source : StmtId)
    (definition : DefId) :
    (arena.moveStmt target source).definition definition =
      arena.definition definition := by
  unfold moveStmt
  split <;> rfl

/-- What is captured afterwards was so before. -/
theorem capturedAt_of_moveStmt
    (captured : (arena.stmt target).form = .unparsed range)
    (list : (arena.stmt source).form = .list role stmts scope)
    {decl : DeclId}
    {place : Nat}
    (now : (arena.moveStmt target source).CapturedAt decl place) :
    arena.CapturedAt decl place := by
  obtain ⟨plain, definition, stmt, other, defines, block, form, begins⟩ := now
  rw [(moved_moveStmt (holds_of_unparsed captured) source).decl]
    at plain defines
  rw [definition_moveStmt] at block
  exact ⟨plain, definition, stmt, other, defines, block,
    (unparsed_of_moveStmt captured list form).2,
    begins⟩

end Arena

/--
Where a statement list moves into the slot of a range of tokens, nothing else is
declared.
-/
theorem Worksite.Sound.declares_of_moveStmt
    {site : Worksite}
    {target source : StmtId}
    {range : TokenRange}
    {role : ListRole}
    {stmts : List StmtId}
    {scope : ScopeId}
    {decl : DeclId}
    (sound : site.Sound)
    (captured : (site.arena.stmt target).form = .unparsed range)
    (list : (site.arena.stmt source).form = .list role stmts scope)
    (declares : (site.arena.moveStmt target source).Declares decl) :
    site.arena.Declares decl := by
  obtain ⟨owner, outer, form, houses⟩ := declares
  have held := (Arena.declaration_moveStmt_iff captured list).mp form
  have moved := Arena.moved_moveStmt (Arena.holds_of_unparsed captured) source
  exact ⟨owner, outer, held,
    sound.houses_of_resembles (fun _ => .of_eq (moved.decl _))
    (sound.whole_of_declares (Arena.declares_of_stmt held)) houses⟩

namespace Worksite.Arranged

variable {order : Order} {out but more : DeclId → Prop} {site : Worksite}
  {decl : DeclId}
  {scope : ScopeId} {key : Key}

/-- More declarations may be set apart. -/
theorem apart
    (arranged : site.Arranged order out but)
    (fewer : ∀ {decl}, but decl → more decl) :
    site.Arranged order out more :=
  { arranged with
    waits := fun declares kept => arranged.waits declares fun apart =>
      kept (fewer apart)
    alone := fun declares declaresToo kept keptToo =>
      arranged.alone declares declaresToo
      (fun apart => kept (fewer apart)) fun apart => keptToo (fewer apart) }

/--
A declaration that is apart may join the others if it waits in a scope of its
own.
-/
private theorem join
    (arranged : site.Arranged order out (· = decl))
    (waits : site.Waits order out decl)
    (alone : ∀ {other scope}, other ≠ decl → site.arena.Declares other →
      site.Dozes decl →
      site.Dozes other → site.saved.lookup decl = some scope →
        site.saved.lookup other ≠ some scope) :
    site.Arranged order out fun _ => False :=
  { arranged with
    waits := fun {other} declares _ => by
      by_cases here : other = decl
      · exact here ▸ waits
      · exact arranged.waits declares here
    alone :=
      fun {first second
          scope} declares declaresToo _ _ dozes dozesToo saved savedToo => by
      by_cases here : first = decl <;> by_cases hereToo : second = decl
      · exact here.trans hereToo.symm
      · subst here
        exact absurd savedToo (alone hereToo declaresToo dozes dozesToo saved)
      · subst hereToo
        exact absurd saved (alone here declares dozesToo dozes savedToo)
      · exact arranged.alone declares declaresToo here hereToo dozes dozesToo
          saved savedToo }

/--
A parameter is bound in its turn: the parameters in front of it are members
already.
-/
theorem bindParam
    {param : DeclId}
    {done rest : List DeclId}
    (arranged : site.Arranged order out fun _ => False)
    (sound : site.Sound)
    (declares : site.arena.Declares decl)
    (params : (site.arena.decl decl).form.params = done ++ param :: rest)
    (bound : ∀ param ∈ done, site.table.Enlists param)
    (unbound : ¬ site.table.Enlists param)
    (saved : site.saved.lookup decl = some scope)
    (room : scope.raw < site.table.size) :
    Worksite.Arranged order out (fun _ => False)
      { site with table :=
          site.table.put scope key ((site.table.findLocal? scope key).getD [] ++
            [param]) } := by
  have listed : param ∈ (site.arena.decl decl).form.params := by simp [params]
  have dozes : site.Dozes decl := .inl ⟨param, listed, unbound⟩
  have waits := arranged.waits declares id
  have known {home : ScopeId} (found : site.saved.lookup decl = some home) :
      home = scope :=
    Option.some.inj (found.symm.trans saved)
  obtain ⟨home, found, before⟩ :=
    (waits.unbound param listed).resolve_left unbound
  obtain rfl := known found
  have mono {other : DeclId} (was : site.table.Enlists other) :
      (site.table.put home key
        ((site.table.findLocal? home key).getD [] ++ [param])).Enlists other :=
    was.append param
  let later : Worksite :=
    { site with table :=
        site.table.put home key ((site.table.findLocal? home key).getD [] ++
          [param]) }
  have dozed {other : DeclId} (now : later.Dozes other) : site.Dozes other :=
    now.back rfl id fun _ _ => mono
  have parted : site.Arranged order out (· = decl) := arranged.apart False.elim
  refine join (carry parted sound (fun _ => .of_eq rfl) (fun _ => rfl) id
    id .inr
    (arranged.sets.append fun _ _ => before)
      (fun form => (arranged.settled form).imp_left mono)
    (fun _ => mono) id
      (fun {other scope
        offset} otherDeclares different otherDozes opened earlier => ?_)
    fun now before => absurd now before) ?_ ?_
  · refine earlier.congr (fun name => ScopeTable.findLocal?_put_of_ne ?_ _ _ _)
      fun _ _ _ _ _ => rfl
    rintro rfl
    exact different (arranged.alone otherDeclares declares id id otherDozes
      dozes opened found)
  · refine
      { rising := waits.rising.imp fun earlier => earlier.imp_left mono
        unbound := fun other among => ?_
        captured := fun place here => ?_ }
    · by_cases same : other = param
      · exact .inl (same ▸ ScopeTable.enlists_append room key param)
      · rcases waits.unbound other among with member | ⟨scope, opened, earlier⟩
        · exact .inl (mono member)
        · obtain rfl := known opened
          by_cases enlisted : site.table.Enlists other
          · exact .inl (mono enlisted)
          refine .inr ⟨_, opened, earlier.append fun _ => ?_⟩
          have later : other ∈ rest := by
            have somewhere : other ∈ done ++ param :: rest := params ▸ among
            rcases List.mem_append.mp somewhere with front | behind
            · exact absurd (bound other front) enlisted
            · exact (List.mem_cons.mp behind).resolve_left same
          have rising := waits.rising
          rw [params] at rising
          have behind :=
            (List.pairwise_cons.mp (List.pairwise_append.mp rising).2.1).1
              other later
          exact behind.resolve_left unbound
    · obtain ⟨scope, opened, earlier, behind⟩ := waits.captured place here
      obtain rfl := known opened
      exact ⟨_, opened, earlier.append fun _ =>
        (behind param listed).resolve_left unbound,
        fun other among => (behind other among).imp_left mono⟩
  · intro other scope different otherDeclares dozesNow otherDozes opened
      openedToo
    exact different
      (arranged.alone otherDeclares declares id id (dozed otherDozes) dozes
        openedToo opened)

/--
The statement list that a body was parsed to moves into the slot of its tokens.
-/
theorem moveStmt
    {target source : StmtId}
    {range : TokenRange}
    {role : ListRole}
    {stmts : List StmtId}
    {inner : ScopeId}
    (arranged : site.Arranged order out but)
    (sound : site.Sound)
    (captured : (site.arena.stmt target).form = .unparsed range)
    (list : (site.arena.stmt source).form = .list role stmts inner) :
    Worksite.Arranged order out but
      { site with arena := site.arena.moveStmt target source } := by
  have held := Arena.holds_of_unparsed captured
  have decls (decl : DeclId) : (site.arena.moveStmt target source).decl decl =
      site.arena.decl decl :=
    (Arena.moved_moveStmt held source).decl decl
  have starts (decl : DeclId) :
      (site.arena.moveStmt target source).startOf decl =
        site.arena.startOf decl := by
    rw [Arena.startOf, decls, Arena.startOf]
  have holds {stmt : StmtId} {decl : DeclId} :
      ((site.arena.moveStmt target source).stmt stmt).form = .declaration decl ↔
        (site.arena.stmt stmt).form = .declaration decl :=
    Arena.declaration_moveStmt_iff captured list
  have resembles {other : DeclId} :
      site.arena.Resembles (site.arena.moveStmt target source) other :=
    .of_eq (decls other)
  refine carry arranged sound (fun _ => resembles)
    (fun _ => Arena.definition_moveStmt ..)
    (fun form => (Arena.unparsed_of_moveStmt captured list form).2) ?_ ?_
    (arranged.sets.congr (fun _ _ => rfl) fun _ _ _ _ _ _ => starts _)
    (fun form => arranged.settled (holds.mp form)) (fun _ => id) id
    (fun _ _ _ _ before => before.congr (fun _ => rfl) fun _ _ _ _ _ =>
      starts _)
    fun now before => absurd now before
  · rintro other ⟨owner, outer, form, houses⟩
    exact ⟨owner, outer, holds.mpr form, houses.of_resembles fun _ => resembles⟩
  · exact fun declares =>
      .inr (sound.declares_of_moveStmt captured list declares)

/--
A template takes the place of a function in its statement and in its overload
set.
-/
theorem wrap
    {stmt : StmtId}
    {wrapper : DeclId}
    {parms : List DeclId}
    {constraint? : Option ExprId}
    {set : OverloadSet}
    {position : Nat}
    {arena : Arena}
    (arranged : site.Arranged order out fun _ => False)
    (sound : site.Sound)
    (holds : (site.arena.stmt stmt).form = .declaration decl)
    (counts : ¬ out decl)
    (found : site.table.findLocal? scope key = some set)
    (listed : set.idxOf? decl = some position)
    (decls : ∀ {decl}, site.arena.Holds (.decl decl) → arena.decl decl =
      site.arena.decl decl)
    (definitions : ∀ {definition}, site.arena.Holds (.definition definition) →
      arena.definition definition = site.arena.definition definition)
    (stmts : ∀ {other}, other ≠ stmt → arena.stmt other = site.arena.stmt other)
    (now : (arena.stmt stmt).form = .declaration wrapper)
    (template : (arena.decl wrapper).form = .template parms constraint? decl)
    (starts : arena.startOf wrapper = arena.startOf decl) :
    Worksite.Arranged order out (fun _ => False)
      { site with
        arena := arena
        table := site.table.put scope key (set.set position wrapper) } := by
  have resembles {other : DeclId} (held : site.arena.Holds (.decl other)) :
      site.arena.Resembles arena other := .of_eq (decls held)
  have declares := Arena.declares_of_stmt holds
  have same (scope : ScopeId) (name : Name) (set : OverloadSet)
      (found : site.table.findLocal? scope (.simple name) = some set)
        (decl : DeclId)
      (listed : decl ∈ set) : arena.startOf decl = site.arena.startOf decl := by
    rw [Arena.startOf, decls ((sound.members _ _ _ found).2 decl listed).1.held,
      Arena.startOf]
  have kept {other : DeclId} (was : site.table.Enlists other)
      (different : other ≠ decl) :
      (site.table.put scope key (set.set position wrapper)).Enlists other :=
    was.set found listed different
  refine carry arranged sound resembles definitions ?_ ?_ ?_
    ((arranged.sets.congr (fun _ _ => rfl) same).replace found listed counts
      starts) ?_
    (fun undeclared was => kept was fun here => undeclared (here ▸ declares)) id
    (fun _ _ _ _ before =>
      (before.congr (fun _ => rfl) (same _)).replace found listed counts starts)
    fun now before => absurd now before
  · intro other range form
    by_cases here : other = stmt
    · rw [here] at form
      cases now.symm.trans form
    · exact stmts here ▸ form
  · rintro other ⟨owner, outer, form, houses⟩
    by_cases here : owner = stmt
    · subst here
      cases holds.symm.trans form
      exact ⟨owner, wrapper, now,
        .template template (houses.of_resembles resembles)⟩
    · exact ⟨owner, outer, (stmts here).symm ▸ form,
        houses.of_resembles resembles⟩
  · rintro other ⟨owner, outer, form, houses⟩
    have within {owner outer : _}
        (form : (site.arena.stmt owner).form = .declaration outer)
        (houses : arena.Houses outer other) : site.arena.Declares other :=
      ⟨owner, outer, form, sound.houses_of_resembles resembles
        (sound.whole_of_declares (Arena.declares_of_stmt form)) houses⟩
    by_cases here : owner = stmt
    · subst here
      cases now.symm.trans form
      cases houses with
      | refl => exact .inl (by rw [template]; rfl)
      | template around below =>
          cases template.symm.trans around
          exact .inr (within holds below)
    · exact .inr (within (stmts here ▸ form) houses)
  · intro owner other form
    by_cases here : owner = stmt
    · subst here
      cases now.symm.trans form
      exact .inl (ScopeTable.enlists_set found listed)
    · rw [stmts here] at form
      refine (arranged.settled form).imp_left fun was => kept was ?_
      rintro rfl
      exact here (sound.holder_unique form holds (.refl _) (.refl _))

/-- Of more declarations that are typed nothing may be said. -/
theorem widen
    (arranged : site.Arranged order out but)
    (wider : ∀ {decl}, out decl → more decl)
    (gone : ∀ {decl}, more decl → ¬ out decl →
      site.arena.Declares decl ∧ (site.arena.decl decl).phase ≠ .unelaborated) :
    site.Arranged order more but where
  sets := arranged.sets.weaken wider
  settled form := (arranged.settled form).imp_right wider
  inline := arranged.inline
  waits declares kept :=
    (arranged.waits declares kept).onward rfl id (fun _ _ => id)
      (fun _ _ => rfl) id
      fun _ before => before.weaken wider
  alone := arranged.alone
  gone {decl} left := by
    by_cases before : out decl
    · exact arranged.gone before
    · exact gone left before

/-- A member of which nothing is said leaves its set. -/
theorem leave
    {set : OverloadSet}
    {position : Nat}
    (arranged : site.Arranged order out but)
    (sound : site.Sound)
    (left : out decl)
    (found : site.table.findLocal? scope key = some set)
    (listed : set.idxOf? decl = some position) :
    Worksite.Arranged order out but
      { site with table := site.table.put scope key (set.eraseIdx position)
        } := by
  have declares := (arranged.gone left).1
  refine carry arranged sound (fun _ => .of_eq rfl) (fun _ => rfl) id id .inr
    (arranged.sets.erase found position) (fun {owner other} form => ?_)
    (fun undeclared was => was.eraseIdx found listed fun here =>
      undeclared (here ▸ declares)) id
    (fun _ _ _ _ before => before.erase found position) fun now before =>
      absurd now before
  by_cases here : other = decl
  · exact .inr (here ▸ left)
  · exact (arranged.settled form).imp_left fun was =>
      was.eraseIdx found listed here

/-- A declaration of which nothing is said may become a member again. -/
theorem comeBack
    (arranged : site.Arranged order out but)
    (sound : site.Sound)
    (left : out decl) :
    Worksite.Arranged order out but
      { site with table :=
          site.table.put scope key ((site.table.findLocal? scope key).getD [] ++
            [decl]) } := by
  refine carry arranged sound (fun _ => .of_eq rfl) (fun _ => rfl) id id .inr
    (arranged.sets.append fun counts => absurd left counts)
    (fun form => (arranged.settled form).imp_left fun was => was.append decl)
    (fun _ was => was.append decl) id
      (fun {other home offset} _ _ _ _ before => ?_)
    fun now before => absurd now before
  by_cases here : home = scope
  · subst here
    exact before.append fun counts => absurd left counts
  · exact before.congr (fun name => ScopeTable.findLocal?_put_of_ne here _ _ _)
      fun _ _ _ _ _ => rfl

end Worksite.Arranged

end Tern
