import Tern.Proofs.Elaboration.Histories
import Tern.Proofs.Elaboration.Remerging
import Tern.Proofs.Elaboration.Touring

namespace Tern

/-!
# Elaborating what is finished

Where all passes have gone over the statement lists of a unit, they go over them
again without changing anything: what is finished is passed by, memberships are
confirmed and taken back as before, and no phase is raised.
-/

namespace Arena

/--
A declaration is finished, and so are the parameters of the requires-expressions
within it.
-/
structure Finished (arena : Arena) (decl : DeclId) : Prop where
  phase : (arena.decl decl).phase = .definitionElaborated
  requiresParams : ∀ param ∈ arena.ownedRequiresParams (.decl decl),
    (arena.decl param).phase = .definitionElaborated

/-- What is finished reaches no further phase. -/
private theorem updateDecl_of_finished
    {arena : Arena}
    {decl : DeclId}
    (finished : (arena.decl decl).phase = .definitionElaborated)
    (phase : Phase) :
    arena.updateDecl decl (fun old => old.raiseTo phase) = arena := by
  have held : decl.raw < arena.decls.size :=
    holds_of_phase_ne (by rw [finished]; nofun)
  have same : (arena.decl decl).raiseTo phase = arena.decls[decl.raw] := by
    have kept : Phase.latest .definitionElaborated phase =
        .definitionElaborated := by cases phase <;> rfl
    have stored : arena.decl decl = arena.decls[decl.raw] := by
      simp [Arena.decl, Array.getD_eq_getD_getElem?, held]
    rw [Decl.raiseTo, finished, kept, ← finished, stored]
  rw [updateDecl, same, Array.setIfInBounds, dif_pos held,
    Array.set_getElem_self]

end Arena

namespace ElabState

/-- All passes have gone over statements. -/
structure HasPassed (state : ElabState) (stmts : List StmtId) : Prop where
  merged : state.HasMerged stmts
  finished : ∀ decl ∈ state.arena.declarationsAmong stmts,
    state.arena.Finished decl

/-- All passes have gone over the statement lists among landmarks. -/
def HasPassedAll (state : ElabState) (landmarks : List Landmark) : Prop :=
  ∀ stmts, Landmark.list stmts ∈ landmarks → state.HasPassed stmts

theorem HasPassedAll.weaken
    {state : ElabState}
    {landmarks fewer : List Landmark}
    (passed : state.HasPassedAll landmarks)
    (order : fewer ⊆ landmarks) :
    state.HasPassedAll fewer :=
  fun stmts listed => passed stmts (order listed)

end ElabState

namespace Arena

/--
A statement may be elaborated again with tasks nested no deeper than a depth.
-/
structure Reenters (arena : Arena) (depth : Nat) (stmt : StmtId) : Prop where
  bounded : arena.Bounded (.stmt stmt)
  room : ∃ height, arena.Shallow height (.stmt stmt) ∧ 2 * height < depth

namespace Reenters

variable {arena : Arena} {depth more : Nat} {stmt inner : StmtId}

private theorem two_lt (reenters : arena.Reenters depth stmt) : 2 < depth := by
  obtain ⟨height, shallow, room⟩ := reenters.room
  cases height with
  | zero => exact shallow.elim
  | succ height => omega

private theorem mono
    (reenters : arena.Reenters depth stmt)
    (enough : depth ≤ more) :
    arena.Reenters more stmt :=
  { reenters with
    room :=
      have ⟨height, shallow, room⟩ := reenters.room
      ⟨height, shallow, Nat.lt_of_lt_of_le room enough⟩ }

/-- A step down takes two tasks. -/
private theorem child
    (reenters : arena.Reenters depth stmt)
    (owned : .stmt inner ∈ arena.children (.stmt stmt)) :
    arena.Reenters (depth - 2) inner := by
  refine ⟨reenters.bounded.child owned, ?_⟩
  obtain ⟨height, shallow, room⟩ := reenters.room
  cases height with
  | zero => exact shallow.elim
  | succ height => exact ⟨height, shallow _ owned, by omega⟩

end Reenters

end Arena

/--
A task is about what all passes have gone over, and fits a depth when it is
carried out again.
-/
def ElabTask.Passed (base : ElabState) (depth : Nat) : ElabTask → Prop
  | .statements stmts scope =>
      base.HasPassedAll (landmarks base.arena (.statements stmts scope)) ∧
        1 < depth ∧
        ∀ stmt ∈ stmts, base.arena.Bounded (.stmt stmt) ∧
          ((base.arena.stmt stmt).form.isDeclaration = false →
            base.arena.Reenters (depth - 1) stmt)
  | .statement stmt scope =>
      base.HasPassedAll (landmarks base.arena (.statement stmt scope)) ∧
        base.arena.Reenters depth stmt
  | .definition decl =>
      0 < depth ∧ (base.arena.decl decl).phase = .definitionElaborated

namespace Elab

/--
From whatever state differs from one in nothing but findings that come again, an
action is done, and ends in such a state.
-/
def Restores {Value : Type} (base : ElabState) (action : Elab Value) : Prop :=
  ∀ (input : ElabInput) (state : ElabState), base.Alike state →
    ∃ value after, action input state = .done value after ∧ base.Alike after

namespace Restores

variable {Value Next : Type} {base : ElabState}

theorem pure (value : Value) : Restores base (Pure.pure value) :=
  fun _ state alike => ⟨value, state, rfl, alike⟩

theorem bind
    {action : Elab Value}
    {next : Value → Elab Next}
    (first : action.Restores base)
    (rest : ∀ value, (next value).Restores base) :
    (action >>= next).Restores base := by
  intro input state alike
  obtain ⟨value, middle, run, alike⟩ := first input state alike
  obtain ⟨result, after, next, alike⟩ := rest value input middle alike
  exact ⟨result, after, (Action.run_bind run).trans next, alike⟩

theorem forM
    {Item : Type}
    {items : List Item}
    {action : Item → Elab Unit}
    (each : ∀ item ∈ items, (action item).Restores base) :
    (items.forM action).Restores base := by
  induction items with
  | nil => exact pure ()
  | cons item items inductionHypothesis =>
      obtain ⟨first, others⟩ := List.forall_mem_cons.mp each
      exact bind first fun _ => inductionHypothesis others

/-- What is read from an arena is as it was. -/
private theorem read
    {next : Arena → Elab Value}
    (rest : (next base.arena).Restores base) :
    (Elab.arena >>= next).Restores base := by
  intro input state alike
  have same : (Elab.arena >>= next) input state =
      next base.arena input state := by
    rw [← alike.arena]
    rfl
  rw [same]
  exact rest input state alike

/-- What an elaborator reads is read first. -/
private theorem consult
    {next : ElabInput → Elab Value}
    (rest : ∀ input, (next input).Restores base) :
    Restores base (Action.environment >>= next) :=
  fun input state alike => rest input input state alike

/-- What is finished is let reach a phase. -/
private theorem raise
    {decl : DeclId}
    (finished : (base.arena.decl decl).phase = .definitionElaborated)
    (phase : Phase) :
    Restores base (Elab.raise decl phase) := by
  intro input state alike
  have same : state.arena.updateDecl decl (fun old => old.raiseTo phase) =
      state.arena :=
    Arena.updateDecl_of_finished (alike.arena ▸ finished) phase
  exact ⟨(), state, by rw [Elab.raise, changeArena, Action.modify, same], alike⟩

private theorem raiseRequiresParams
    {decl : DeclId}
    (finished : base.arena.Finished decl)
    (phase : Phase) :
    Restores base (Elab.raiseRequiresParams decl phase) :=
  read (forM fun param listed =>
    raise (finished.requiresParams param listed) phase)

private theorem readDeclaration
    {stmt : StmtId}
    {next : Option DeclId → Elab Value}
    (holds : ∀ decl, (base.arena.stmt stmt).form = .declaration decl →
      (next (some decl)).Restores base)
    (plain : (base.arena.stmt stmt).form.isDeclaration = false →
      (next none).Restores base) :
    (Elab.declarationOf? stmt >>= next).Restores base := by
  rw [declarationOf?, bind_assoc]
  refine read ?_
  cases form : (base.arena.stmt stmt).form with
  | declaration decl => exact holds decl form
  | _ => exact plain (by rw [form]; rfl)

private theorem elaborateTypes
    {stmt : StmtId}
    (finished : ∀ decl, (base.arena.stmt stmt).form = .declaration decl →
      base.arena.Finished decl) :
    Restores base (Elab.elaborateTypes stmt) := by
  refine readDeclaration (fun decl form => ?_) fun _ => pure ()
  have finished := finished decl form
  refine read (bind (read ?_) fun _ => raiseRequiresParams finished _)
  rw [if_neg (by rw [finished.phase]; nofun)]
  exact pure ()

private theorem elaborateDefinition
    {perform : ElabTask → Elab Unit}
    {decl : DeclId}
    (finished : (base.arena.decl decl).phase = .definitionElaborated) :
    Restores base (Elab.elaborateDefinition perform decl) := by
  refine read ?_
  rw [if_pos finished]
  exact pure ()

section

variable {depth : Nat} {perform : ElabTask → Elab Unit}
  (restores : ∀ task, task.Passed base depth → (perform task).Restores base)

include restores

private theorem elaborateStatement
    {stmt : StmtId}
    {scope : ScopeId}
    (passed : (ElabTask.statement stmt scope).Passed base (depth + 1)) :
    Restores base (Elab.elaborateStatement perform stmt scope) := by
  obtain ⟨passed, reenters⟩ := passed
  have bounded := reenters.bounded
  have room := reenters.two_lt
  have nested {inner : StmtId}
      (owned : .stmt inner ∈ (base.arena.stmt stmt).form.children)
      (alone : ∀ role stmts scope,
        (base.arena.stmt stmt).form ≠ .list role stmts scope) :
      (perform (.statement inner scope)).Restores base :=
    restores _ ⟨passed.weaken (bounded.walk_nested owned alone),
      (reenters.child owned).mono (by omega)⟩
  refine read ?_
  cases form : (base.arena.stmt stmt).form with
  | list role stmts inner =>
      have items : ∀ item ∈ stmts, base.arena.Reenters (depth - 1) item :=
        fun item listed => (reenters.child (by
          simp [Arena.children, form, StmtForm.children, listed])).mono
          (by omega)
      refine restores _ ⟨?_, by omega, fun item listed =>
        ⟨(items item listed).bounded, fun _ => items item listed⟩⟩
      rw [ElabTask.landmarks, ← bounded.walk_list form]
      exact passed
  | branch condition accepted rejected? =>
      refine bind (nested (by simp [form, StmtForm.children]) (by simp [form]))
        fun _ => forM fun rejected listed => nested ?_ (by simp [form])
      simp [form, StmtForm.children, Option.mem_toList.mp listed]
  | loop condition body =>
      exact nested (by simp [form, StmtForm.children]) (by simp [form])
  | declaration decl =>
      refine restores _ ⟨?_, by omega, List.forall_mem_singleton.mpr
        ⟨bounded, fun plain => ?_⟩⟩
      · have same : ElabTask.landmarks base.arena (.statements [stmt] scope) =
            base.arena.walk (.stmt stmt) := by
          rw [bounded.walk_declaration form]
          simp [ElabTask.landmarks, Arena.inside, form]
        exact same ▸ passed
      · rw [form] at plain
        cases plain
  | _ => exact pure ()

private theorem defineStatement
    {stmt : StmtId}
    {scope : ScopeId}
    (enough : 0 < depth)
    (finished : ∀ decl, (base.arena.stmt stmt).form = .declaration decl →
      base.arena.Finished decl)
    (passed : (base.arena.stmt stmt).form.isDeclaration = false →
      (ElabTask.statement stmt scope).Passed base depth) :
    Restores base (Elab.defineStatement perform scope stmt) :=
  readDeclaration
    (fun decl form =>
      bind (restores _ ⟨enough, (finished decl form).phase⟩) fun _ =>
        raiseRequiresParams (finished decl form) _)
    fun plain => restores _ (passed plain)

private theorem elaborateStatements
    {stmts : List StmtId}
    {scope : ScopeId}
    (passed : (ElabTask.statements stmts scope).Passed base (depth + 1)) :
    Restores base (Elab.elaborateStatements perform stmts scope) := by
  obtain ⟨passed, enough, items⟩ := passed
  have here := passed stmts (List.mem_cons_self ..)
  have finished {stmt : StmtId} (listed : stmt ∈ stmts) {decl : DeclId}
      (form : (base.arena.stmt stmt).form = .declaration decl) :
      base.arena.Finished decl :=
    here.finished decl (Arena.mem_declarationsAmong.mpr ⟨stmt, listed, form⟩)
  have merging : Restores base (do
      stmts.forM Elab.confirmMembership
      Elab.mergeForwardDeclarations stmts) := fun input _ alike =>
    have ⟨after, run, alike⟩ := remerge_alike here.merged alike input
    ⟨(), after, run, alike⟩
  have defining : Restores base
      (stmts.forM (Elab.defineStatement perform scope)) := by
    refine forM fun stmt listed => defineStatement restores (by omega)
      (fun decl => finished listed) fun plain => ?_
    refine ⟨passed.weaken fun landmark inside => ?_,
      (items stmt listed).2 plain⟩
    refine List.mem_cons_of_mem _ (List.mem_flatMap.mpr ⟨stmt, listed, ?_⟩)
    have same : base.arena.inside stmt = .stmt stmt := by
      rw [Arena.inside]
      cases form : (base.arena.stmt stmt).form <;>
        simp_all [StmtForm.isDeclaration]
    exact same ▸ inside
  have both := bind merging fun _ => defining
  rw [bind_assoc] at both
  exact bind (forM fun stmt listed => elaborateTypes fun decl =>
    finished listed) fun _ => both

end

/-- However deep tasks are nested, they restore what the passes left. -/
private theorem nested
    (depth : Nat)
    {task : ElabTask}
    (passed : task.Passed base depth) :
    Restores base (Elab.nested depth task) := by
  induction depth generalizing task with
  | zero =>
      cases task with
      | statements stmts scope => exact absurd passed.2.1 (Nat.not_lt_zero _)
      | statement stmt scope =>
          obtain ⟨_, -, room⟩ := passed.2.room
          exact absurd room (Nat.not_lt_zero _)
      | definition decl => exact absurd passed.1 (Nat.lt_irrefl 0)
  | succ depth inductionHypothesis =>
      have restores (task : ElabTask) (passed : task.Passed base depth) :
          (Elab.nested depth task).Restores base := inductionHypothesis passed
      cases task with
      | statements stmts scope => exact elaborateStatements restores passed
      | statement stmt scope => exact elaborateStatement restores passed
      | definition decl => exact elaborateDefinition passed.2

/-- A complete unit that all passes have gone over is elaborated again. -/
theorem elaborateUnit
    {unit : StmtId}
    {stmts : List StmtId}
    {scope : ScopeId}
    (form : (base.arena.stmt unit).form = .list .unit stmts scope)
    (bounded : base.arena.Bounded (.stmt unit))
    (complete : base.arena.Complete (.stmt unit))
    (passed : base.HasPassedAll (base.arena.walk (.stmt unit))) :
    Restores base (Elab.elaborateUnit unit) := by
  have carrying : Restores base (Elab.carryOut (.statements stmts scope)) := by
    have enters (input : ElabInput) : ElabTask.Passed base
        (4 * (base.arena.termCount + input.tokens.size + 1))
        (.statements stmts scope) := by
      refine ⟨?_, by omega, fun stmt listed => ?_⟩
      · rw [ElabTask.landmarks, ← bounded.walk_list form]
        exact passed
      · have below := bounded.child (by
          simp [Arena.children, form, StmtForm.children, listed] :
          .stmt stmt ∈ base.arena.children (.stmt unit))
        exact ⟨below, fun _ => ⟨below, _, below, by omega⟩⟩
    exact consult fun input => by
      refine read ?_
      exact nested _ (enters input)
  refine read ?_
  dsimp only
  rw [form]
  refine bind carrying fun _ => read ?_
  rw [complete.firstUnparsed?_eq_none]
  exact pure ()

end Restores

/--
A run of elaboration of a unit ends in some state, whether it is done or has
failed.
-/
def RunsTo
    (input : ElabInput)
    (unit : StmtId)
    (before after : ElabState) :
    Prop :=
  ((elaborateUnit unit).run input before).EndsIn after

/-- However often a unit is elaborated that restores a state, it does so. -/
theorem Restores.alike_of_runsTo
    {input : ElabInput}
    {unit : StmtId}
    {base after : ElabState}
    (restores : (Elab.elaborateUnit unit).Restores base)
    (wellFormed : base.scopes.WellFormed)
    (runs : Relation.ReflTransGen (RunsTo input unit) base after) :
    base.Alike after := by
  induction runs with
  | refl => exact .refl wellFormed
  | @tail middle after _ ends inductionHypothesis =>
      obtain ⟨_, last, run, alike⟩ := restores input middle inductionHypothesis
      have ends : (Elab.elaborateUnit unit input middle).EndsIn after := ends
      rw [run] at ends
      rcases ends with ⟨_, ⟨⟩⟩ | ⟨_, ⟨⟩⟩
      exact alike

end Elab

end Tern
