import Tern.Elaboration.Definitions
import Tern.Proofs.Elaboration.MergePolicy

namespace Tern

/-!
# Elaboration on record

An elaborator may keep a record of the statement lists that all passes go over,
in the order in which they begin, each with the state between the second and the
third pass. With a list goes how the first pass completed the signatures of the
functions in it. Otherwise the elaborator does what it does without a record.
-/

/-- The type of a parameter, with the arena in which it was just completed. -/
structure Reading where
  type : TypeId
  arena : Arena

/-- The type to be inferred that the type was, if it was. -/
def Reading.slot? (reading : Reading) : Option TypeId :=
  reading.arena.inferred? reading.type

/--
How the signature of a function was completed: where the function was come by,
how the types of its parameters were read, and what was minted for them.
-/
structure Signing where
  decl : DeclId
  /-- The statement that the function is in the place of, if any. -/
  stmt? : Option StmtId
  /-- The template around the function, if any. -/
  wrapper? : Option DeclId
  /-- The arena before. -/
  before : Arena
  readings : List Reading
  minted : List DeclId

/-- A statement list that all passes go over. -/
structure Visit where
  stmts : List StmtId
  /-- The signatures that the first pass completed, in order. -/
  signings : List Signing
  /-- The state between the second and the third pass. -/
  between : ElabState

/-- The declarations that the statements hold, in order. -/
def Visit.declared (visit : Visit) : List DeclId :=
  visit.between.arena.declarationsAmong visit.stmts

/-- How a declaration stands in its overload set. -/
def ElabState.standing (state : ElabState) (decl : DeclId) : Membership where
  scope := (state.arena.decl decl).scope
  decl := decl
  position := (state.overloads decl).idxOf decl
  setSize := (state.overloads decl).length

namespace Elab

/-- Record what is done for each item, one after the other. -/
def recordEach {Item Entry : Type} (action : Item → Elab (List Entry)) :
    List Item → Elab (List Entry)
  | [] => return []
  | item :: items => do
      let first ← action item
      let others ← recordEach action items
      return first ++ others

/--
Complete the type of a parameter, and record it behind those of other ones. What
was minted so far goes with them.
-/
def recordParam
    (scope : ScopeId)
    (firstIndex : Nat)
    (soFar : List DeclId × List Reading)
    (param : DeclId) :
    Elab (List DeclId × List Reading) := do
  match (← arena).paramType? param with
  | none => return soFar
  | some type =>
      completeType type scope
      let reading : Reading := { type := type, arena := ← arena }
      match reading.slot? with
      | none =>
          raise param .typeElaborated
          return (soFar.1, soFar.2 ++ [reading])
      | some slot =>
          let parm ← mintTypeParam slot scope (firstIndex + soFar.1.length)
          raise param .typeElaborated
          return (soFar.1 ++ [parm], soFar.2 ++ [reading])

/-- Complete the types of a callable declaration on record. -/
def recordSignature
    (stmt? : Option StmtId)
    (decl : DeclId)
    (params : List DeclId)
    (result : TypeId) (wrapper? : Option DeclId) : Elab (List Signing) := do
  let before ← arena
  let scope ← inScopes fun scopes =>
      scopes.scopeFor decl (before.decl decl).scope .function
  let firstIndex := (wrapper?.map before.templateParamCount).getD 0
  let read ← params.foldlM (recordParam scope firstIndex) ([], [])
  completeType result scope
  raise decl .typeElaborated
  registerOpenMethod decl params
  addTemplateParams stmt? decl wrapper? read.1
  return [{ decl := decl, stmt? := stmt?, wrapper? := wrapper?, before := before
            readings := read.2, minted := read.1 }]

/--
Complete the types of a declaration on record, looking through templates down to
a depth.
-/
def recordTypeWithin :
    Nat → Option StmtId → Option DeclId → DeclId → Elab (List Signing)
  | 0, _, _, _ => Action.exhaust
  | depth + 1, stmt?, wrapper?, decl => do
      let found := (← arena).decl decl
      if found.phase = .unelaborated then
        match found.form with
        | .callable _ params result _ =>
            recordSignature stmt? decl params result wrapper?
        | .template parms _ inner =>
            raiseAll parms .typeElaborated
            raise decl .typeElaborated
            recordTypeWithin depth none (some decl) inner
        | _ => do
            elaborateTypeWithin (depth + 1) stmt? wrapper? decl
            return []
      else
        return []

/-- Complete the types of the declaration that a statement holds, on record. -/
def recordTypes (stmt : StmtId) : Elab (List Signing) := do
  match ← declarationOf? stmt with
  | none => return []
  | some decl =>
      let arena ← arena
      let signings ←
        recordTypeWithin (arena.decls.size + 1) (some stmt) none decl
      raiseRequiresParams decl .typeElaborated
      return signings

section Passes

variable (perform : ElabTask → Elab (List Visit))

/-- Complete the body of a function and elaborate what it declares. -/
def recordBody (definition : DefId) (scope : ScopeId) : Elab (List Visit) := do
  match ((← arena).definition definition).form with
  | .body stmt =>
      completeStmt stmt scope Parser.bodyFragment
      perform (.statement stmt scope)
  | .expression expr => do
      completeExpr expr scope
      return []
  | _ => return []

/-- Complete the body of a class and elaborate its members. -/
def recordMembers (definition : DefId) (scope : ScopeId) :
    Elab (List Visit) := do
  match ((← arena).definition definition).form with
  | .members stmt =>
      completeStmt stmt scope Parser.memberFragment
      perform (.statement stmt scope)
  | _ => return []

/--
Complete the definition of a callable declaration, its parameters being visible
in it.
-/
def recordCallable (decl : DeclId) (params : List DeclId) (definition : DefId)
    (parent : ScopeId) : Elab (List Visit) := do
  let scope ← inScopes fun scopes => scopes.scopeFor decl parent .function
  params.forM (bindParam scope)
  recordBody perform definition scope

/-- Complete the definition of a class. -/
def recordClass (decl : DeclId) (definition : DefId) (parent : ScopeId) :
    Elab (List Visit) := do
  let scope ← inScopes fun scopes => scopes.scopeFor decl parent .classType
  recordMembers perform definition scope

/-- Complete the definition of a declaration, by its form. -/
def recordForm (decl : DeclId) (scope : ScopeId) : DeclForm → Elab (List Visit)
  | .object _ _ definition => do
      elaborateInitializer definition scope
      return []
  | .callable _ params _ definition =>
      recordCallable perform decl params definition scope
  | .classType _ definition => recordClass perform decl definition scope
  | .template parms _ inner => do
      raiseAll parms .definitionElaborated
      perform (.definition inner)
  | .concept parms _ => do
      raiseAll parms .definitionElaborated
      return []
  | .parameter _ => return []
  | .typeParameter _ _ => return []
  | .namespaceBlock _ => refuseNamespace decl

/-- Complete the definition of a declaration, unless that is done. -/
def recordDefinition (decl : DeclId) : Elab (List Visit) := do
  let found := (← arena).decl decl
  if found.phase = .definitionElaborated then
    return []
  else
    let visits ← recordForm perform decl found.scope found.form
    raise decl .definitionElaborated
    return visits

/-- Elaborate the statement lists within a statement. -/
def recordStatement (stmt : StmtId) (scope : ScopeId) : Elab (List Visit) := do
  match ((← arena).stmt stmt).form with
  | .list _ stmts inner => perform (.statements stmts inner)
  | .branch _ accepted rejected? => do
      let first ← perform (.statement accepted scope)
      let others ← recordEach
          (fun rejected => perform (.statement rejected scope)) rejected?.toList
      return first ++ others
  | .loop _ body => perform (.statement body scope)
  | .declaration _ => perform (.statements [stmt] scope)
  | _ => return []

/--
Complete the definition that a statement holds, or the statement lists within
it.
-/
def recordDefined (scope : ScopeId) (stmt : StmtId) : Elab (List Visit) := do
  match ← declarationOf? stmt with
  | some decl =>
      let visits ← perform (.definition decl)
      raiseRequiresParams decl .definitionElaborated
      return visits
  | none => perform (.statement stmt scope)

/--
All four passes over statements that belong to a scope, which are put on record
first.
-/
def recordStatements (stmts : List StmtId) (scope : ScopeId) :
    Elab (List Visit) := do
  let signings ← recordEach recordTypes stmts
  stmts.forM confirmMembership
  let between ← Action.state
  mergeForwardDeclarations stmts
  let visits ← recordEach (recordDefined perform scope) stmts
  return { stmts := stmts, signings := signings, between := between } :: visits

/-- Carry out one task. -/
def recordTask : ElabTask → Elab (List Visit)
  | .statements stmts scope => recordStatements perform stmts scope
  | .statement stmt scope => recordStatement perform stmt scope
  | .definition decl => recordDefinition perform decl

end Passes

/--
Carry out a task on record, with the tasks in it nested no deeper than a bound.
-/
def recorded : Nat → ElabTask → Elab (List Visit)
  | 0, _ => Action.exhaust
  | depth + 1, task => recordTask (recorded depth) task

/-- Elaborate a compilation unit on record. -/
def recordUnit (unit : StmtId) : Elab (List Visit) := do
  let found := (← arena).stmt unit
  match found.form with
  | .list .unit stmts scope =>
      let input ← Action.environment
      let arena ← arena
      let visits ← recorded (4 * (arena.termCount + input.tokens.size + 1))
          (.statements stmts scope)
      refuseResidual unit
      return visits
  | form => Action.fail (.unhandled .statement form.kindName found.span)

/-- An action does what another one does, besides keeping a record of it. -/
def Records
    {Entry : Type}
    (recording : Elab (List Entry))
    (action : Elab Unit) :
    Prop :=
  (do
    let _ ← recording
    return ()) = action

namespace Records

variable {Entry Value : Type} {recording : Elab (List Entry)}
  {action : Elab Unit}

/-- What the recording does is done without it. -/
theorem run_eq
    (records : recording.Records action)
    (input : ElabInput)
    (state : ElabState) :
    action input state = match recording input state with
      | .done _ after => .done () after
      | .failed error after => .failed error after
      | .exhausted => .exhausted := by
  rw [← records]
  simp only [Bind.bind, Action.bind, Pure.pure, Action.pure]
  cases recording input state <;> rfl

/-- What is done on record is done. -/
theorem done
    {input : ElabInput}
    {state after : ElabState}
    {entries : List Entry}
    (records : recording.Records action)
    (run : recording input state = .done entries after) :
    action input state = .done () after := by
  rw [records.run_eq, run]

/-- What is done is done on record. -/
theorem exists_run
    {input : ElabInput}
    {state after : ElabState}
    (records : recording.Records action)
    (run : action input state = .done () after) :
    ∃ entries, recording input state = .done entries after := by
  rw [records.run_eq] at run
  cases recorded : recording input state with
  | done entries later =>
      rw [recorded] at run
      cases run
      exact ⟨entries, rfl⟩
  | _ =>
      rw [recorded] at run
      cases run

private theorem none : Records (pure ([] : List Entry)) (pure ()) := rfl

theorem fail (error : ElabError) :
    @Records Entry (Action.fail error) (Action.fail error) := rfl

/-- Something is done first. -/
theorem bind
    {first : Elab Value}
    {recording : Value → Elab (List Entry)}
    {action : Value → Elab Unit}
    (records : ∀ value, (recording value).Records (action value)) :
    Records (first >>= recording) (first >>= action) := by
  rw [Records, bind_assoc]
  exact bind_congr records

theorem ite
    {condition : Prop}
    [Decidable condition]
    {other : Elab (List Entry)}
    {last : Elab Unit}
    (records : recording.Records action)
    (others : other.Records last) :
    Records (if condition then recording else other)
      (if condition then action else last) := by
  split
  · exact records
  · exact others

/-- What is recorded of an action is known before. -/
private theorem plain (action : Elab Unit) (entries : List Entry) :
    Records (do
      action
      return entries) action := by simp [Records]

/-- What is done may depend on the arena, or there is nothing on record. -/
private theorem observed
    {recording : Arena → Elab (List Entry)}
    {action : Arena → Elab Unit}
    (records : ∀ found, (recording found).Records (action found) ∨
      recording found = (do
        arena >>= action
        return [])) :
    Records (arena >>= recording) (arena >>= action) := by
  funext input state
  change (do
    let _ ← recording state.arena
    return ()) input state = action state.arena input state
  rcases records state.arena with same | unrecorded
  · exact congrFun (congrFun same input) state
  · rw [unrecorded]
    exact congrFun (congrFun (plain (arena >>= action) []) input) state

/-- Something is done behind what is on record. -/
private theorem before (records : recording.Records action) (last : Elab Unit) :
    Records (do
        let entries ← recording
        last
        return entries)
      (do
        action
        last) := by
  rw [Records, ← show _ = action from records]
  simp

/-- Two actions are on record one behind the other. -/
theorem append
    {further : Elab (List Entry)}
    {last : Elab Unit}
    (records : recording.Records action)
    (others : further.Records last) :
    Records (do
        let first ← recording
        let others ← further
        return first ++ others)
      (do
        action
        last) := by
  rw [Records, ← show _ = action from records, ← show _ = last from others]
  simp

/-- What is done for each item is on record. -/
theorem each
    {Item : Type}
    {recording : Item → Elab (List Entry)}
    {action : Item → Elab Unit}
    (records : ∀ item, (recording item).Records (action item))
    (items : List Item) :
    (recordEach recording items).Records (items.forM action) := by
  induction items with
  | nil => exact none
  | cons item items inductionHypothesis =>
      exact (records item).append inductionHypothesis

/-- The type of a parameter is completed as it is without a record. -/
private theorem param
    (scope : ScopeId)
    (firstIndex : Nat)
    (soFar : List DeclId × List Reading)
    (param : DeclId) :
    Prod.fst <$> recordParam scope firstIndex soFar param =
      elaborateParam scope firstIndex soFar.1 param := by
  unfold recordParam elaborateParam
  rw [map_bind]
  refine bind_congr fun arena => ?_
  cases arena.paramType? param with
  | none => rfl
  | some type =>
      dsimp only
      rw [map_bind]
      refine bind_congr fun _ => ?_
      rw [map_bind]
      refine bind_congr fun read => ?_
      dsimp only [Reading.slot?]
      cases read.inferred? type <;> simp

/-- The type of a parameter that is completed on record is completed. -/
theorem param_done
    {scope : ScopeId}
    {firstIndex : Nat}
    {soFar all : List DeclId × List Reading}
    {name : DeclId}
    {input : ElabInput}
    {state after : ElabState}
    (run : recordParam scope firstIndex soFar name input state =
      .done all after) :
    elaborateParam scope firstIndex soFar.1 name input state =
      .done all.1 after := by
  rw [← param]
  change Action.bind (recordParam scope firstIndex soFar name) _ input state = _
  simp only [Action.bind, run]
  rfl

/-- The types of parameters are completed as they are without a record. -/
private theorem params
    (scope : ScopeId)
    (firstIndex : Nat)
    (params : List DeclId)
    (soFar : List DeclId × List Reading) :
    Prod.fst <$> params.foldlM (recordParam scope firstIndex) soFar =
      params.foldlM (elaborateParam scope firstIndex) soFar.1 := by
  induction params generalizing soFar with
  | nil => rfl
  | cons first params inductionHypothesis =>
      rw [List.foldlM_cons, List.foldlM_cons, map_bind, ← param,
        bind_map_left]
      exact bind_congr fun _ => inductionHypothesis _

/-- A signature is completed as it is without a record. -/
private theorem signature
    (stmt? : Option StmtId)
    (decl : DeclId)
    (names : List DeclId)
    (result : TypeId)
    (wrapper? : Option DeclId) :
    (recordSignature stmt? decl names result wrapper?).Records
      (elaborateSignature stmt? decl names result wrapper?) := by
  refine bind fun arena => bind fun scope => ?_
  have same := params scope
    ((wrapper?.map arena.templateParamCount).getD 0) names ([], [])
  dsimp only at same ⊢
  rw [← same, bind_map_left]
  exact bind fun _ => bind fun _ => bind fun _ => bind fun _ => .plain _ _

/-- Types are completed as they are without a record, however deep they are. -/
theorem typeWithin
    (depth : Nat)
    (stmt? : Option StmtId)
    (wrapper? : Option DeclId)
    (decl : DeclId) :
    (recordTypeWithin depth stmt? wrapper? decl).Records
      (elaborateTypeWithin depth stmt? wrapper? decl) := by
  induction depth generalizing stmt? wrapper? decl with
  | zero => rfl
  | succ depth inductionHypothesis =>
      refine observed fun found => ?_
      dsimp only
      split
      · cases (found.decl decl).form with
        | callable role params result definition =>
            exact .inl (signature stmt? decl params result wrapper?)
        | template parms constraint? inner =>
            exact .inl (bind fun _ => bind fun _ => inductionHypothesis _ _ _)
        | _ => exact .inr rfl
      · exact .inl none

theorem types (stmt : StmtId) :
    (recordTypes stmt).Records (elaborateTypes stmt) := by
  refine bind fun decl? => ?_
  cases decl? with
  | none => exact none
  | some decl => exact bind fun _ => (typeWithin _ _ _ _).before _

section

variable {perform : ElabTask → Elab (List Visit)} {plain : ElabTask → Elab Unit}
  (records : ∀ task, (perform task).Records (plain task))

include records

private theorem body (definition : DefId) (scope : ScopeId) :
    (recordBody perform definition scope).Records
      (elaborateBody plain definition scope) := by
  refine bind fun arena => ?_
  cases (arena.definition definition).form with
  | body stmt => exact bind fun _ => records _
  | expression expr => exact .plain _ _
  | _ => exact none

private theorem members (definition : DefId) (scope : ScopeId) :
    (recordMembers perform definition scope).Records
      (elaborateMembers plain definition scope) := by
  refine bind fun arena => ?_
  cases (arena.definition definition).form with
  | members stmt => exact bind fun _ => records _
  | _ => exact none

private theorem form (decl : DeclId) (scope : ScopeId) (form : DeclForm) :
    (recordForm perform decl scope form).Records
      (elaborateForm plain decl scope form) := by
  cases form with
  | object role type definition => exact .plain _ _
  | callable role params result definition =>
      exact bind fun _ => bind fun _ => body records _ _
  | classType kind definition => exact bind fun _ => members records _ _
  | template parms constraint? inner => exact bind fun _ => records _
  | concept parms definition => exact .plain _ _
  | namespaceBlock body => exact bind fun _ => fail _
  | _ => exact none

theorem definition (decl : DeclId) :
    (recordDefinition perform decl).Records (elaborateDefinition plain decl) :=
  bind fun _ => ite none ((form records _ _ _).before _)

private theorem statement (stmt : StmtId) (scope : ScopeId) :
    (recordStatement perform stmt scope).Records
      (elaborateStatement plain stmt scope) := by
  refine bind fun arena => ?_
  cases (arena.stmt stmt).form with
  | list role stmts inner => exact records _
  | branch condition accepted rejected? =>
      exact (records _).append (each (fun _ => records _) _)
  | loop condition body => exact records _
  | declaration decl => exact records _
  | _ => exact none

theorem defined (scope : ScopeId) (stmt : StmtId) :
    (recordDefined perform scope stmt).Records
      (defineStatement plain scope stmt) := by
  refine bind fun decl? => ?_
  cases decl? with
  | none => exact records _
  | some decl => exact (records _).before _

/-- The list comes first on record, and then what is within its statements. -/
private theorem statements (stmts : List StmtId) (scope : ScopeId) :
    (recordStatements perform stmts scope).Records
      (elaborateStatements plain stmts scope) := by
  have typed : (recordEach recordTypes stmts).Records
      (stmts.forM elaborateTypes) := each types stmts
  have inner := each (defined records scope) stmts
  unfold Records at typed inner ⊢
  unfold recordStatements elaborateStatements
  rw [← typed, ← inner]
  simp only [bind_assoc, pure_bind]
  refine bind_congr fun _ => bind_congr fun _ => ?_
  rfl

private theorem task (task : ElabTask) :
    (recordTask perform task).Records (elaborateTask plain task) := by
  cases task with
  | statements stmts scope => exact statements records stmts scope
  | statement stmt scope => exact statement records stmt scope
  | definition decl => exact definition records decl

end

/-- A task carried out on record is carried out. -/
theorem nested (depth : Nat) (task : ElabTask) :
    (recorded depth task).Records (Elab.nested depth task) := by
  induction depth generalizing task with
  | zero => rfl
  | succ depth inductionHypothesis => exact .task inductionHypothesis task

/-- A compilation unit elaborated on record is elaborated. -/
theorem unit (unit : StmtId) :
    (recordUnit unit).Records (elaborateUnit unit) := by
  refine bind fun arena => ?_
  dsimp only
  cases (arena.stmt unit).form with
  | list role stmts scope =>
      cases role with
      | unit =>
          simp only [carryOut, bind_assoc]
          exact bind fun _ => bind fun _ => (nested _ _).before _
      | _ => exact fail _
  | _ => exact fail _

end Records

end Elab

end Tern
