import Tern.Proofs.Building.Enrolling
import Tern.Proofs.Building.Minting
import Tern.Proofs.Elaboration.Restraint

namespace Tern

/-!
# Steady elaboration

Most of what elaboration does is calm: no declaration but parameters reaches a
phase, no member leaves its overload set, and a statement comes to hold only a
member. What is more is said by name: which declarations reach a phase, and
which leave their sets.
-/

namespace Arena

/--
A declaration is another one, or is a template around what is that other one.
-/
inductive Houses (arena : Arena) : DeclId → DeclId → Prop where
  | refl (decl : DeclId) : Houses arena decl decl
  | template {outer inner decl : DeclId} {parms : List DeclId}
      {constraint? : Option ExprId}
      (form : (arena.decl outer).form = .template parms constraint? inner)
      (below : Houses arena inner decl) : Houses arena outer decl

/-- A declaration is within some templates, or is a parameter of one of them. -/
def Comprises (arena : Arena) (outer decl : DeclId) : Prop :=
  ∃ inner, arena.Houses outer inner ∧
    (decl = inner ∨ decl ∈ (arena.decl inner).form.parms)

/--
What is within a template, or a parameter there, is so for all templates around
it.
-/
theorem Comprises.template
    {arena : Arena}
    {outer inner decl : DeclId}
    {parms : List DeclId}
    {constraint? : Option ExprId}
    (comprises : arena.Comprises inner decl)
    (form : (arena.decl outer).form = .template parms constraint? inner) :
    arena.Comprises outer decl :=
  have ⟨within, below, here⟩ := comprises
  ⟨within, .template form below, here⟩

theorem Comprises.refl (arena : Arena) (decl : DeclId) :
    arena.Comprises decl decl :=
  ⟨decl, .refl decl, .inl rfl⟩

end Arena

namespace ScopeTable

variable {table : ScopeTable} {decl : DeclId}

/-- Another member stands in another place. -/
private theorem place_ne_of_idxOf?
    {set : OverloadSet}
    {previous : DeclId}
    {position place : Nat}
    (listed : set.idxOf? previous = some position)
    (found : set[place]? = some decl)
    (apart : decl ≠ previous) :
    place ≠ position := by
  rintro rfl
  obtain ⟨inside, same, -⟩ := List.idxOf?_eq_some_iff.mp listed
  rw [List.getElem?_eq_getElem inside, same] at found
  exact apart (Option.some.inj found).symm

/-- What takes the place of a member is a member. -/
theorem enlists_set
    {scope : ScopeId}
    {key : Key}
    {set : OverloadSet}
    {position : Nat}
    {next : DeclId}
    (found : table.findLocal? scope key = some set)
    (listed : set.idxOf? decl = some position) :
    (table.put scope key (set.set position next)).Enlists next := by
  have inside : position < set.length := (List.idxOf?_eq_some_iff.mp listed).1
  have member : next ∈ set.set position next := List.mem_set inside next
  obtain ⟨holder, stored, -⟩ := Option.bind_eq_some_iff.mp found
  have room : scope.raw < table.size := (Array.getElem?_eq_some_iff.mp stored).1
  refine ⟨scope, key, set.set position next, ?_, member⟩
  rw [findLocal?_put_eq, if_pos ⟨room, rfl, rfl⟩,
    if_neg (List.ne_nil_of_mem member)]

/-- Members stay when one of them is replaced, that one apart. -/
theorem Enlists.set
    {scope : ScopeId}
    {key : Key}
    {set : OverloadSet}
    {position : Nat}
    {previous next : DeclId}
    (enlists : table.Enlists decl)
    (found : table.findLocal? scope key = some set)
    (listed : set.idxOf? previous = some position)
    (apart : decl ≠ previous) :
    (table.put scope key (set.set position next)).Enlists decl :=
  enlists.put fun old lookup member => by
    obtain rfl : set = old := Option.some.inj (found.symm.trans lookup)
    obtain ⟨place, at_⟩ := List.mem_iff_getElem?.mp member
    have elsewhere := place_ne_of_idxOf? listed at_ apart
    exact List.mem_iff_getElem?.mpr
      ⟨place, by rw [List.getElem?_set_ne elsewhere.symm, at_]⟩

/-- Members stay when one of them is removed, that one apart. -/
theorem Enlists.eraseIdx
    {scope : ScopeId}
    {key : Key}
    {set : OverloadSet}
    {position : Nat}
    {previous : DeclId}
    (enlists : table.Enlists decl)
    (found : table.findLocal? scope key = some set)
    (listed : set.idxOf? previous = some position)
    (apart : decl ≠ previous) :
    (table.put scope key (set.eraseIdx position)).Enlists decl :=
  enlists.put fun old lookup member => by
    obtain rfl : set = old := Option.some.inj (found.symm.trans lookup)
    obtain ⟨place, at_⟩ := List.mem_iff_getElem?.mp member
    exact List.mem_eraseIdx_iff_getElem?.mpr
      ⟨place, place_ne_of_idxOf? listed at_ apart, at_⟩

end ScopeTable

namespace Scopes

variable {scopes : Scopes} {decl other : DeclId}

/-- Members stay when the scope of a declaration is looked up or added. -/
theorem enlists_scopeFor
    (enlists : scopes.table.Enlists other)
    (parent : ScopeId)
    (kind : ScopeKind) :
    (scopes.scopeFor decl parent kind).2.table.Enlists other := by
  cases known : scopes.saved.lookup decl with
  | some scope =>
      have same : (scopes.scopeFor decl parent kind).2 = scopes := by
        simp [scopeFor, savedScope?, known]
      exact same.symm ▸ enlists
  | none =>
      have table : (scopes.scopeFor decl parent kind).2.table =
          scopes.table.push
            { parent? := some parent, kind := kind, bindings := [] } := by
        simp [scopeFor, savedScope?, known, push]
      exact table ▸ enlists.push kind parent

/-- What is declared becomes a member, and other members stay. -/
private theorem enlists_declare
    {scope : ScopeId}
    (room : scope.raw < scopes.table.size)
    (key : Key)
    (decl : DeclId) :
    (scopes.declare scope key decl).2.table.Enlists decl ∧
      ∀ {other}, scopes.table.Enlists other →
        (scopes.declare scope key decl).2.table.Enlists other := by
  have table : (scopes.declare scope key decl).2.table =
      scopes.table.put scope key
        ((scopes.table.findLocal? scope key).getD [] ++ [decl]) := by
    simp [declare, findLocal?]
  rw [table]
  exact ⟨ScopeTable.enlists_append room key decl, fun was => was.append decl⟩

/--
What takes the place of a member, or is declared for want of one, becomes a
member.
-/
theorem enlists_supplant
    {scope : ScopeId}
    (room : scope.raw < scopes.table.size)
    (key : Key)
    (decl next : DeclId) :
    let placed :=
      (scopes.replaceMember? scope key decl next).getD
        (scopes.declare scope key next).2
    placed.table.Enlists next ∧
      ∀ {other}, scopes.table.Enlists other → placed.table.Enlists other ∨
        other = decl := by
  intro placed
  cases replaced : scopes.replaceMember? scope key decl next with
  | none =>
      have same : placed = (scopes.declare scope key next).2 := by
        simp [placed, replaced]
      obtain ⟨member, others⟩ := enlists_declare room key next
      exact same ▸ ⟨member, fun was => .inl (others was)⟩
  | some changed =>
      have same : placed = changed := by simp [placed, replaced]
      obtain ⟨set, position, found, listed, table, -, -⟩ :=
        of_replaceMember? replaced
      rw [same, table]
      refine ⟨ScopeTable.enlists_set found listed, fun {other} was => ?_⟩
      by_cases here : other = decl
      · exact .inr here
      · exact .inl (was.set found listed here)

end Scopes

/-- What is not stored has reached no phase. -/
theorem Arena.phase_of_not_holds
    {arena : Arena}
    {decl : DeclId}
    (missing : ¬ arena.Holds (.decl decl)) :
    (arena.decl decl).phase = .unelaborated :=
  Classical.byContradiction fun reached =>
    missing (Arena.holds_of_phase_ne reached)

/--
Whether a declaration is a parameter does not change within the frame of
elaboration.
-/
theorem Arena.DeclFramed.isParam_eq
    {origin older newer : Arena}
    {decl : DeclId}
    (framed : Arena.DeclFramed origin older newer decl) :
    (newer.decl decl).form.isParam = (older.decl decl).form.isParam := by
  rcases framed.form with same | ⟨_, _, _, _, was, now, -⟩
  · rw [same]
  · rw [was, now]
    rfl

/-- What is typed has come to a phase. -/
theorem Phase.latest_typed_ne (phase : Phase) :
    phase.latest .typeElaborated ≠ .unelaborated := by
  cases phase <;> decide

/-- What has reached no phase had reached none before. -/
theorem Arena.Framed.phase_unelaborated
    {input : ElabInput}
    {origin older newer : Arena}
    (framed : Arena.Framed input origin older newer)
    {decl : DeclId}
    (early : (newer.decl decl).phase = .unelaborated) :
    (older.decl decl).phase = .unelaborated := by
  by_cases held : older.Holds (.decl decl)
  · have order := (framed.decl held).phase
    rw [early] at order
    revert order
    cases (older.decl decl).phase <;> simp [Phase.rank]
  · exact phase_of_not_holds held

/-- Only declarations are typed that had reached no phase in the older arena. -/
abbrev Arena.Respects (older newer : Arena) : Prop :=
  older.Restrained (fun decl => (older.decl decl).phase = .unelaborated) newer

theorem Arena.Respects.trans
    {input : ElabInput}
    {origin older middle newer : Arena}
    (first : older.Respects middle)
    (second : middle.Respects newer)
    (framed : Arena.Framed input origin older middle) :
    older.Respects newer :=
  Restrained.trans first (second.weaken framed.phase_unelaborated)

/-- The parameters of a template stay among its parameters. -/
private theorem Arena.DeclFramed.parms_subset
    {origin older newer : Arena}
    {decl : DeclId}
    (framed : Arena.DeclFramed origin older newer decl) :
    (older.decl decl).form.parms ⊆ (newer.decl decl).form.parms := by
  rcases framed.form with same | ⟨parms, _, _, more, was, now, -⟩
  · exact same ▸ List.Subset.refl _
  · rw [was, now]
    exact List.subset_append_left parms more

/-- A template comprises itself and the parameters that it had before. -/
theorem Arena.Comprises.of_parms
    {origin older newer : Arena}
    {decl other : DeclId}
    (framed : Arena.DeclFramed origin older newer decl)
    (known : other = decl ∨ other ∈ (older.decl decl).form.parms) :
    newer.Comprises decl other :=
  ⟨decl, .refl decl, known.imp_right fun listed => framed.parms_subset listed⟩

namespace Worksite

/--
What is done between two worksites: some declarations may reach a phase besides
parameters, some may leave their overload sets, and some are typed.
-/
structure Steady (raised : DeclId → Phase → Prop) (lost typed : DeclId → Prop)
    (older newer : Worksite) : Prop where
  phase : ∀ decl, (newer.arena.decl decl).phase =
    (older.arena.decl decl).phase ∨
    (newer.arena.decl decl).form.isParam = true ∨
      raised decl (newer.arena.decl decl).phase
  members : ∀ {decl}, older.table.Enlists decl → newer.table.Enlists decl ∨
    lost decl
  stmts : ∀ {stmt decl}, newer.arena.Holds (.stmt stmt) →
    (newer.arena.stmt stmt).form = .declaration decl →
      (older.arena.Holds (.stmt stmt) ∧ (older.arena.stmt stmt).form =
        .declaration decl) ∨
        newer.table.Enlists decl ∨ lost decl
  restrained : older.arena.Restrained typed newer.arena

/--
What typing a declaration of a statement may lead to: what it comprises is
typed, or a template in its place, which takes its place as a member.
-/
def Types
    (stmt? : Option StmtId)
    (decl : DeclId)
    (older newer : Worksite) :
    Prop :=
  Steady (fun other reached => reached = .typeElaborated ∧
    (newer.arena.Comprises decl other ∨
      ∃ stmt ∈ stmt?, (newer.arena.stmt stmt).form = .declaration other))
    (fun other => other = decl ∧ ∃ stmt ∈ stmt?, (newer.arena.stmt stmt).form ≠
      .declaration other)
    (fun other => (older.arena.decl other).phase = .unelaborated)
    older newer

/-- Nothing but parameters reaches a phase, and no member leaves its set. -/
abbrev Calm (older newer : Worksite) : Prop :=
  Steady (fun _ _ => False) (fun _ => False) (fun _ => False) older newer

/-- So it is while a declaration is typed. -/
abbrev CalmFor (decl : DeclId) (older newer : Worksite) : Prop :=
  Steady (fun _ _ => False) (fun _ => False) (· = decl) older newer

variable {input : ElabInput} {origin : Arena}
  {raised more : DeclId → Phase → Prop}
  {lost fewer typed wider : DeclId → Prop} {older middle newer : Worksite}

namespace Steady

theorem refl (site : Worksite) : site.Steady raised lost typed site where
  phase _ := .inl rfl
  members := .inl
  stmts held form := .inl ⟨held, form⟩
  restrained := .refl _

theorem weaken
    (steady : older.Steady raised lost typed newer)
    (raises : ∀ {decl reached}, raised decl reached → more decl reached)
    (loses : ∀ {decl}, lost decl → fewer decl)
    (types : ∀ {decl}, typed decl → wider decl) :
    older.Steady more fewer wider newer where
  phase decl := (steady.phase decl).imp_right (Or.imp_right raises)
  members was := (steady.members was).imp_right loses
  stmts held form := (steady.stmts held form).imp_right (Or.imp_right loses)
  restrained := steady.restrained.weaken types

theorem trans
    (first : older.Steady raised lost typed middle)
    (second : middle.Steady raised lost typed newer)
    (framed : Arena.Framed input origin older.arena middle.arena)
    (further : Arena.Framed input origin middle.arena newer.arena) :
    older.Steady raised lost typed newer where
  phase decl := by
    rcases second.phase decl with same | now
    · rw [same]
      rcases first.phase decl with before | isParam | named
      · exact .inl before
      · by_cases held : middle.arena.Holds (.decl decl)
        · exact .inr (.inl ((further.decl held).isParam_eq.trans isParam))
        · exact .inl ((Arena.phase_of_not_holds held).trans
            (Arena.phase_of_not_holds fun was => held (framed.held was)).symm)
      · exact .inr (.inr named)
    · exact .inr now
  members was := (first.members was).elim second.members .inr
  stmts held form := by
    rcases second.stmts held form with ⟨stored, same⟩ | now
    · rcases first.stmts stored same with before | member | named
      · exact .inl before
      · exact .inr (second.members member)
      · exact .inr (.inr named)
    · exact .inr now
  restrained := first.restrained.trans second.restrained

/-- Some steps that are steady, one behind the other. -/
theorem calmly
    (first : older.Calm middle)
    (second : middle.Steady raised lost typed newer)
    (framed : Arena.Framed input origin older.arena middle.arena)
    (further : Arena.Framed input origin middle.arena newer.arena) :
    older.Steady raised lost typed newer :=
  (first.weaken False.elim False.elim False.elim).trans second framed further

/-- A declaration reaches a phase. -/
theorem raise (site : Worksite) (decl : DeclId) (phase : Phase) :
    site.Steady (fun other reached => other = decl ∧ reached = phase) lost typed
      { site with arena := site.arena.updateDecl decl fun old =>
        old.raiseTo phase } where
  phase other := by
    by_cases here : other = decl
    · subst here
      by_cases held : site.arena.Holds (.decl other)
      · dsimp only
        rw [Arena.decl_updateDecl held]
        dsimp only [Decl.raiseTo, Phase.latest]
        split
        · exact .inr (.inr ⟨rfl, rfl⟩)
        · exact .inl rfl
      · have past : site.arena.decls.size ≤ other.raw := Nat.le_of_not_lt held
        simp [Arena.decl, Arena.updateDecl, Array.getD_eq_getD_getElem?, past]
    · exact .inl (by rw [Arena.decl_updateDecl_of_ne here])
  members := .inl
  stmts held form := .inl ⟨held, form⟩
  restrained := .raise _ decl phase

/-- A parameter that reaches a phase reaches it calmly. -/
theorem calm
    {decls : DeclId → Prop}
    {phase : Phase}
    (steady : older.Steady (fun decl reached => decls decl ∧ reached = phase)
      (fun _ => False) typed newer)
    (params : ∀ decl, decls decl → (newer.arena.decl decl).form.isParam =
      true) :
    older.Steady (fun _ _ => False) (fun _ => False) typed newer where
  phase decl := (steady.phase decl).imp_right fun now =>
    .inl (now.elim id fun named => params decl named.1)
  members := steady.members
  stmts := steady.stmts
  restrained := steady.restrained

end Steady

namespace Calm

/-- The scopes are changed, but no member leaves its set. -/
theorem of_scopes
    (arena : newer.arena = older.arena)
    (members : ∀ {decl}, older.table.Enlists decl → newer.table.Enlists decl) :
    older.Calm newer where
  phase decl := .inl (by rw [arena])
  members was := .inl (members was)
  stmts held form := .inl (by rw [arena] at held form; exact ⟨held, form⟩)
  restrained := arena ▸ .refl _

/-- Fragments are parsed to terms that are added. -/
theorem of_enrolls
    (enrolls : older.Enrolls newer)
    (sound : newer.Sound)
    (kept : ∀ {decl}, older.Keeping decl → newer.Keeping decl)
    (extended : older.arena.Extends newer.arena) :
    older.Calm newer where
  phase decl := by
    by_cases held : older.arena.Holds (.decl decl)
    · exact .inl (enrolls.phase held)
    · exact .inl
        ((enrolls.early held).trans (Arena.phase_of_not_holds held).symm)
  members was := .inl (enrolls.members was)
  stmts {stmt decl} held form := by
    by_cases stored : older.arena.Holds (.stmt stmt)
    · exact .inl ⟨stored, extended.stmt_eq stored ▸ form⟩
    · exact .inr (.inl (enrolls.declared sound kept held stored form).2)
  restrained := .of_extends extended

/-- A type or an expression moves into another slot. -/
theorem move
    {arena : Arena}
    (calm : older.Calm middle)
    (decls : arena.decls = middle.arena.decls)
    (stmts : arena.stmts = middle.arena.stmts)
    (restrained : older.arena.Restrained (fun _ => False) arena) :
    older.Calm { middle with arena := arena } where
  phase decl := by simpa only [Arena.decl, decls] using calm.phase decl
  members := calm.members
  stmts {stmt decl} held form := by
    simp only [Arena.Holds, Arena.stmt, stmts] at held form
    exact calm.stmts held form
  restrained := restrained

/-- A statement that was added moves into another slot. -/
theorem moveStmt
    {target source : StmtId}
    (calm : older.Calm middle)
    (held : middle.arena.Holds (.stmt target))
    (new : ¬ older.arena.Holds (.stmt source)) :
    older.Calm { middle with arena := middle.arena.moveStmt target source
      } where
  phase decl := by
    have same := (Arena.moved_moveStmt held source).decl decl
    simpa only [same] using calm.phase decl
  members := calm.members
  stmts {stmt decl} stored form := by
    simp only [Arena.stmt_moveStmt held] at form
    split at form
    next =>
      have added : middle.arena.Holds (.stmt source) := by
        refine Classical.byContradiction fun absent => ?_
        have past : middle.arena.stmts.size ≤ source.raw :=
          Nat.le_of_not_lt absent
        simp [Arena.stmt, Array.getD_eq_getD_getElem?, past, Vacant.stmt]
          at form
      exact (calm.stmts added form).imp_left fun was => absurd was.1 new
    next =>
      split at form
      next => cases form
      next =>
        exact calm.stmts ((Arena.moved_moveStmt held source).holds.mp stored)
          form
  restrained := by
    refine calm.restrained.trans
      (.of_moved (Arena.moved_moveStmt held source) ?_)
    unfold Arena.moveStmt
    split <;> rfl

end Calm

end Worksite

end Tern
