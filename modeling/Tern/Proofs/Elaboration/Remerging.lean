import Tern.Elaboration.Membership
import Tern.Proofs.Elaboration.MergePolicy
import Tern.Proofs.Grammar.Runs
import Tern.Proofs.Scope.Lookup

namespace Tern

/-!
# Merging again

Where the forward declarations among statements have been merged, confirming
memberships adds to the overload sets again what has left them, at their ends.
Merging comes to the same verdicts as before, so it takes away just that, and
notes what is noted already. After both passes the sets and the notes are what
they were.
-/

namespace Merges

/-- What is noted of a declaration is not changed by noting it again. -/
private theorem note_of_lookup
    {merges : Merges}
    {source target : DeclId}
    (noted : merges.lookup source = some target) :
    merges.note source target = merges := by
  induction merges with
  | nil => cases noted
  | cons entry rest inductionHypothesis =>
      rcases entry with ⟨known, old⟩
      by_cases same : source = known
      · subst same
        rw [List.lookup_cons_self] at noted
        cases noted
        exact if_pos rfl
      · have missed : (source == known) = false := by simpa using same
        rw [List.lookup_cons, missed] at noted
        rw [note, if_neg (Ne.symm same), inductionHypothesis noted]

theorem noteAll_of_lookup
    {merges noted : Merges}
    (known : ∀ source target, (source, target) ∈ noted →
      merges.lookup source = some target) :
    merges.noteAll noted = merges := by
  induction noted with
  | nil => rfl
  | cons entry rest inductionHypothesis =>
      have first := note_of_lookup (known _ _ (List.mem_cons_self ..))
      rw [noteAll, List.foldl_cons, first]
      exact inductionHypothesis fun source target listed =>
        known source target (List.mem_cons_of_mem _ listed)

end Merges

namespace Scopes

/-- Scopes hold what well-formed ones do, but for their overload sets. -/
private structure Rebinds (older newer : Scopes) : Prop where
  contents : newer.contents =
    { older.contents with findLocal? := newer.contents.findLocal? }
  current : newer.current = older.current
  outstanding : newer.outstanding = older.outstanding
  wellFormed : older.WellFormed → newer.WellFormed

private theorem Rebinds.refl (scopes : Scopes) : scopes.Rebinds scopes where
  contents := rfl
  current := rfl
  outstanding := rfl
  wellFormed := id

private theorem Rebinds.trans
    {older middle newer : Scopes}
    (first : older.Rebinds middle)
    (second : middle.Rebinds newer) :
    older.Rebinds newer where
  contents := by rw [second.contents, first.contents]
  current := second.current.trans first.current
  outstanding := second.outstanding.trans first.outstanding
  wellFormed := second.wellFormed ∘ first.wellFormed

private theorem Rebinds.foldl
    {step : Scopes → DeclId → Scopes}
    (each : ∀ scopes decl, Rebinds scopes (step scopes decl))
    (decls : List DeclId)
    (scopes : Scopes) :
    scopes.Rebinds (decls.foldl step scopes) := by
  induction decls generalizing scopes with
  | nil => exact .refl scopes
  | cons decl decls inductionHypothesis =>
      exact (each scopes decl).trans (inductionHypothesis (step scopes decl))

private theorem rebinds_declare
    (scopes : Scopes)
    (scope : ScopeId)
    (key : Key)
    (decl : DeclId) :
    scopes.Rebinds (scopes.declare scope key decl).2 where
  contents := by
    simp only [declare, contents_record, contents_put]
    rfl
  current := by simp [declare]
  outstanding := by simp [declare]
  wellFormed wellFormed := wellFormed.declare scope key decl

private theorem rebinds_removeMember?
    (scopes : Scopes)
    (scope : ScopeId)
    (key : Key)
    (decl : DeclId) :
    scopes.Rebinds ((scopes.removeMember? scope key decl).getD scopes) := by
  cases removed : scopes.removeMember? scope key decl with
  | none => exact .refl scopes
  | some left =>
      have known := removed
      simp only [removeMember?] at removed
      split at removed
      · cases removed
      · split at removed
        · cases removed
        · cases removed
          refine ⟨?_, by simp, by simp,
            fun wellFormed => wellFormed.removeMember? known⟩
          simp only [Option.getD_some, contents_record, contents_put]
          rfl

/-- Scopes with the same overload sets otherwise hold the same. -/
private theorem Rebinds.contents_eq
    {older newer : Scopes}
    (rebinds : older.Rebinds newer)
    (before : older.WellFormed)
    (sets : ∀ scope key, newer.setAt scope key = older.setAt scope key) :
    newer.contents = older.contents := by
  have found {scopes : Scopes} (wellFormed : scopes.WellFormed)
      (scope : ScopeId) (key : Key) :
      scopes.findLocal? scope key =
        if scopes.setAt scope key = [] then none
        else some (scopes.setAt scope key) := by
    rw [setAt]
    cases found : scopes.findLocal? scope key with
    | none => simp
    | some set =>
        simp [findLocal?_ne_nil wellFormed.noEmptySet found]
  rw [rebinds.contents]
  apply ScopeContents.ext <;> try rfl
  funext scope key
  exact (found (rebinds.wellFormed before) scope key).trans
    (sets scope key ▸ (found before scope key).symm)

/-- A declaration that is added is at the end of its set; other sets stay. -/
private theorem setAt_declare
    {scopes : Scopes}
    {scope : ScopeId}
    (roomy : scope.raw < scopes.table.size)
    (key : Key)
    (decl : DeclId)
    (other : ScopeId)
    (name : Key) :
    (scopes.declare scope key decl).2.setAt other name =
      if other = scope ∧ name = key then scopes.setAt scope key ++ [decl]
      else scopes.setAt other name := by
  simp only [declare, setAt, findLocal?, record_table,
    ScopeTable.findLocal?_put_eq, roomy, true_and]
  by_cases same : other = scope ∧ name = key <;> simp [same]

private theorem contains_iff
    {scopes : Scopes}
    {scope : ScopeId}
    {key : Key}
    {decl : DeclId} :
    scopes.contains scope key decl = true ↔ decl ∈ scopes.setAt scope key := by
  rw [contains, setAt]
  cases scopes.findLocal? scope key <;> simp

/-- Declarations that are no members of the sets of their keys are added. -/
def enlistAll
    (scopes : Scopes)
    (arena : Arena)
    (decls : List DeclId) :
    Scopes :=
  decls.foldl (fun scopes decl =>
    if scopes.contains (arena.decl decl).scope (arena.declKey decl) decl
      then scopes
    else
      (scopes.declare (arena.decl decl).scope (arena.declKey decl) decl).2)
    scopes

private theorem enlistAll_append
    (scopes : Scopes)
    (arena : Arena)
    (decls more : List DeclId) :
    scopes.enlistAll arena (decls ++ more) =
      (scopes.enlistAll arena decls).enlistAll arena more :=
  List.foldl_append

/-- A declaration belongs to the set of a key in a scope. -/
private abbrev BelongsTo
    (arena : Arena)
    (scope : ScopeId)
    (key : Key)
    (decl : DeclId) :
    Prop :=
  scope = (arena.decl decl).scope ∧ key = arena.declKey decl

/-- What was no member before comes last, in order. -/
private theorem setAt_enlistAll
    {scopes : Scopes}
    {arena : Arena}
    {decls : List DeclId}
    (distinct : decls.Nodup)
    (roomy : ∀ decl ∈ decls, (arena.decl decl).scope.raw < scopes.table.size)
    (scope : ScopeId)
    (key : Key) :
    (scopes.enlistAll arena decls).setAt scope key =
      scopes.setAt scope key ++ decls.filter fun decl =>
        BelongsTo arena scope key decl ∧ decl ∉ scopes.setAt scope key := by
  induction decls generalizing scopes with
  | nil => simp [enlistAll]
  | cons decl decls inductionHypothesis =>
      obtain ⟨new, others⟩ := List.nodup_cons.mp distinct
      obtain ⟨roomyFirst, roomyOthers⟩ := List.forall_mem_cons.mp roomy
      rw [enlistAll, List.foldl_cons]
      split
      next known =>
        have member := contains_iff.mp known
        have step := inductionHypothesis others roomyOthers
        rw [enlistAll] at step
        rw [step, List.filter_cons_of_neg]
        rintro inside
        obtain ⟨⟨rfl, rfl⟩, apart⟩ := of_decide_eq_true inside
        exact apart member
      next unknown =>
        have absent := mt contains_iff.mpr unknown
        have size : (scopes.declare (arena.decl decl).scope
            (arena.declKey decl) decl).2.table.size = scopes.table.size := by
          simp [declare]
        have step := @inductionHypothesis
          (scopes.declare (arena.decl decl).scope (arena.declKey decl) decl).2
          others (fun other listed => size ▸ roomyOthers other listed)
        rw [enlistAll] at step
        rw [step, setAt_declare (roomyFirst : _)]
        by_cases here : BelongsTo arena scope key decl
        · obtain ⟨rfl, rfl⟩ := here
          rw [if_pos ⟨rfl, rfl⟩, List.append_assoc,
            List.filter_cons_of_pos (by simpa using absent)]
          refine congrArg (_ ++ decl :: ·) (List.filter_congr ?_)
          intro other listed
          have apart : other ≠ decl := fun same => new (same ▸ listed)
          simp [apart]
        · rw [if_neg here, List.filter_cons_of_neg (by simp [here])]

/-- Taking away again what was added leaves the sets as they were. -/
private theorem setAt_dropAll_enlistAll
    {scopes : Scopes}
    {arena : Arena}
    {decls sources : List DeclId}
    (distinct : decls.Nodup)
    (roomy : ∀ decl ∈ decls, (arena.decl decl).scope.raw < scopes.table.size)
    (once : sources.Nodup)
    (added : ∀ decl, decl ∈ sources ↔ decl ∈ decls ∧
      decl ∉ scopes.setAt (arena.decl decl).scope (arena.declKey decl))
    {scope : ScopeId}
    {key : Key}
    (members : (scopes.setAt scope key).Nodup) :
    ((scopes.enlistAll arena decls).dropAll arena sources).setAt scope key =
      scopes.setAt scope key := by
  rw [setAt_dropAll, setAt_enlistAll distinct roomy]
  have same : (sources.filter (BelongsTo arena scope key ·)).Perm
      (decls.filter fun decl =>
        BelongsTo arena scope key decl ∧ decl ∉ scopes.setAt scope key) := by
    refine (List.perm_ext_iff_of_nodup (once.filter _)
      (distinct.filter _)).mpr fun decl => ?_
    simp only [List.mem_filter, decide_eq_true_eq, added decl]
    constructor
    · rintro ⟨⟨listed, absent⟩, rfl, rfl⟩
      exact ⟨listed, ⟨rfl, rfl⟩, absent⟩
    · rintro ⟨listed, ⟨rfl, rfl⟩, absent⟩
      exact ⟨⟨listed, absent⟩, rfl, rfl⟩
  rw [same.diff_left]
  generalize more : (decls.filter fun decl =>
    BelongsTo arena scope key decl ∧ decl ∉ scopes.setAt scope key) = new
  have apart : ∀ decl ∈ new, decl ∉ scopes.setAt scope key := by
    intro decl listed
    rw [← more] at listed
    exact (of_decide_eq_true (List.mem_filter.mp listed).2).2
  have newNodup : new.Nodup := more ▸ distinct.filter _
  have whole : (scopes.setAt scope key ++ new).Nodup :=
    List.nodup_append.mpr ⟨members, newNodup, fun _ old other listed same =>
      apart other listed (same ▸ old)⟩
  rw [whole.sdiff_eq_filter, List.filter_append,
    List.filter_eq_self.mpr fun decl old => by
      simpa using fun listed => apart decl listed old,
    List.filter_eq_nil_iff.mpr fun decl listed => by simpa using listed,
    List.append_nil]

/-- Taking away again what was added leaves the scopes as they were. -/
private theorem dropAll_enlistAll
    {scopes : Scopes}
    {arena : Arena}
    {decls sources : List DeclId}
    (wellFormed : scopes.WellFormed)
    (members : ∀ scope key, (scopes.setAt scope key).Nodup)
    (distinct : decls.Nodup)
    (roomy : ∀ decl ∈ decls, (arena.decl decl).scope.raw < scopes.table.size)
    (once : sources.Nodup)
    (added : ∀ decl, decl ∈ sources ↔ decl ∈ decls ∧
      decl ∉ scopes.setAt (arena.decl decl).scope (arena.declKey decl)) :
    let left := (scopes.enlistAll arena decls).dropAll arena sources
    left.contents = scopes.contents ∧ left.current = scopes.current ∧
      left.outstanding = scopes.outstanding ∧ left.WellFormed := by
  have enlists : scopes.Rebinds (scopes.enlistAll arena decls) := by
    refine .foldl (fun scopes decl => ?_) decls scopes
    split
    · exact .refl scopes
    · exact rebinds_declare ..
  have drops : (scopes.enlistAll arena decls).Rebinds
      ((scopes.enlistAll arena decls).dropAll arena sources) :=
    .foldl (fun scopes decl => rebinds_removeMember? scopes _ _ decl) sources _
  have rebinds := enlists.trans drops
  exact ⟨rebinds.contents_eq wellFormed fun scope key =>
    setAt_dropAll_enlistAll distinct roomy once added (members scope key),
    rebinds.current, rebinds.outstanding, rebinds.wellFormed wellFormed⟩

end Scopes

namespace ElabState

/--
A state differs from another one only in the faults, the memberships and the
numbers of shapes, and in where its scopes keep what they hold.
-/
structure Alike (older newer : ElabState) : Prop where
  arena : newer.arena = older.arena
  contents : newer.scopes.contents = older.scopes.contents
  current : newer.scopes.current = older.scopes.current
  outstanding : newer.scopes.outstanding = older.scopes.outstanding
  wellFormed : newer.scopes.WellFormed
  merges : newer.findings.merges = older.findings.merges
  openMethods : newer.findings.openMethods = older.findings.openMethods

theorem Alike.refl {state : ElabState} (wellFormed : state.scopes.WellFormed) :
    state.Alike state :=
  ⟨rfl, rfl, rfl, rfl, wellFormed, rfl, rfl⟩

theorem Alike.trans
    {older middle newer : ElabState}
    (first : older.Alike middle)
    (second : middle.Alike newer) :
    older.Alike newer where
  arena := second.arena.trans first.arena
  contents := second.contents.trans first.contents
  current := second.current.trans first.current
  outstanding := second.outstanding.trans first.outstanding
  wellFormed := second.wellFormed
  merges := second.merges.trans first.merges
  openMethods := second.openMethods.trans first.openMethods

/--
The forward declarations among statements have been merged: what has left its
overload set is what merging takes away, and this is noted.
-/
structure HasMerged (state : ElabState) (stmts : List StmtId) : Prop where
  members : ∀ scope key, (state.scopes.setAt scope key).Nodup
  distinct : (state.arena.declarationsAmong stmts).Nodup
  roomy : ∀ decl ∈ state.arena.declarationsAmong stmts,
    (state.arena.decl decl).scope.raw < state.scopes.table.size
  noted : ∃ alive faults noted,
    Merging state.arena (state.arena.declarationsAmong stmts) alive faults
        noted ∧
      (∀ decl ∈ state.arena.declarationsAmong stmts,
        decl ∈ noted.map Prod.fst ↔ decl ∉ state.overloads decl) ∧
      ∀ source target, (source, target) ∈ noted →
        state.findings.merges.lookup source = some target

/-- This depends on nothing else of a state. -/
private theorem HasMerged.of_alike
    {base state : ElabState}
    {stmts : List StmtId}
    (merged : base.HasMerged stmts)
    (alike : base.Alike state) :
    state.HasMerged stmts := by
  have sets (scope : ScopeId) (key : Key) :
      state.scopes.setAt scope key = base.scopes.setAt scope key := by
    rw [Scopes.setAt, Scopes.findLocal?_of_contents alike.contents,
      Scopes.setAt]
  have size : state.scopes.table.size = base.scopes.table.size :=
    congrArg ScopeContents.count alike.contents
  have overloads (decl : DeclId) :
      state.overloads decl = base.overloads decl := by
    rw [ElabState.overloads, ElabState.overloads, sets, alike.arena]
  obtain ⟨members, distinct, roomy, noted⟩ := merged
  constructor
  · exact fun scope key => sets scope key ▸ members scope key
  · rwa [alike.arena]
  · rwa [alike.arena, size]
  · simpa only [alike.arena, alike.merges, overloads] using noted

end ElabState

namespace Elab

/-- Nothing but memberships changes as one is reported. -/
private theorem reportMember_run
    (scope : ScopeId)
    (key : Key)
    (decl : DeclId)
    (input : ElabInput)
    (state : ElabState) :
    ∃ memberships, reportMember scope key decl input state = .done ()
      { state with
        findings := { state.findings with memberships := memberships } } := by
  cases place : ((state.scopes.findLocal? scope key).getD []).idxOf? decl with
  | none =>
      refine ⟨state.findings.memberships, ?_⟩
      simp only [reportMember, bind, Action.bind, scopes, Action.state, place,
        pure, Action.pure]
  | some position =>
      let set := (state.scopes.findLocal? scope key).getD []
      refine ⟨state.findings.memberships ++ [
        { scope := scope, decl := decl, position := position,
          setSize := set.length }], ?_⟩
      simp only [reportMember, bind, Action.bind, scopes, Action.state, place,
        find, Action.modify, pure, Action.pure, set]

/-- The declaration that a statement holds is confirmed as a member. -/
private theorem confirmMembership_enlists
    (stmt : StmtId)
    (input : ElabInput)
    (state : ElabState) :
    ∃ memberships, confirmMembership stmt input state = .done ()
      { state with
        scopes := state.scopes.enlistAll state.arena
          (state.arena.declarationsAmong [stmt])
        findings := { state.findings with memberships := memberships } } := by
  have read : declarationOf? stmt input state = _ :=
    declarationOf?_run stmt input state
  cases form : (state.arena.stmt stmt).form with
  | declaration decl =>
      rw [form] at read
      simp only [confirmMembership, ensureMember, bind, Action.bind, read,
        arena, Action.state, changeScopes, Action.modify, pure, Action.pure,
        Arena.declarationsAmong, form, List.filterMap_cons, List.filterMap_nil,
        Scopes.enlistAll, List.foldl_cons, List.foldl_nil]
      exact reportMember_run ..
  | _ =>
      rw [form] at read
      simp only [confirmMembership, bind, Action.bind, read, pure, Action.pure,
        Arena.declarationsAmong, form, List.filterMap_cons, List.filterMap_nil,
        Scopes.enlistAll, List.foldl_nil]
      exact ⟨_, rfl⟩

private theorem confirmMemberships_enlist
    (stmts : List StmtId)
    (input : ElabInput)
    (state : ElabState) :
    ∃ memberships, stmts.forM confirmMembership input state = .done ()
      { state with
        scopes := state.scopes.enlistAll state.arena
          (state.arena.declarationsAmong stmts)
        findings := { state.findings with memberships := memberships } } := by
  induction stmts generalizing state with
  | nil => exact ⟨_, rfl⟩
  | cons stmt stmts inductionHypothesis =>
      obtain ⟨first, confirmed⟩ := confirmMembership_enlists stmt input state
      obtain ⟨all, others⟩ := inductionHypothesis
        { state with
          scopes := state.scopes.enlistAll state.arena
            (state.arena.declarationsAmong [stmt])
          findings := { state.findings with memberships := first } }
      refine ⟨all, (Action.run_bind confirmed).trans ?_⟩
      rw [Arena.declarationsAmong_cons state.arena stmt stmts,
        Scopes.enlistAll_append]
      exact others

/--
Where forward declarations have been merged, confirming memberships and merging
again changes neither the overload sets nor the notes.
-/
theorem remerge_alike
    {stmts : List StmtId}
    {base state : ElabState}
    (merged : base.HasMerged stmts)
    (alike : base.Alike state)
    (input : ElabInput) :
    ∃ after,
      (do
        stmts.forM confirmMembership
        mergeForwardDeclarations stmts) input state = .done () after ∧
        base.Alike after := by
  obtain ⟨members, distinct, roomy, _, _, noted, merging, left, known⟩ :=
    merged.of_alike alike
  obtain ⟨memberships, confirmed⟩ :=
    confirmMemberships_enlist stmts input state
  obtain ⟨_, faults, merges, shapes, again, run⟩ :=
    mergeForwardDeclarations_run stmts input
      { state with
        scopes := state.scopes.enlistAll state.arena
          (state.arena.declarationsAmong stmts)
        findings := { state.findings with memberships := memberships } }
  obtain ⟨-, -, rfl⟩ := merging.unique again
  refine ⟨_, (Action.run_bind confirmed).trans run, ?_⟩
  obtain ⟨contents, current, outstanding, wellFormed⟩ :=
    Scopes.dropAll_enlistAll alike.wellFormed members distinct roomy
      (merging.sources_nodup distinct) fun decl =>
        ⟨fun source =>
          have listed := merging.sources_subset source
          ⟨listed, (left decl listed).mp source⟩,
          fun ⟨listed, absent⟩ => (left decl listed).mpr absent⟩
  exact alike.trans
    { arena := rfl
      contents := contents
      current := current
      outstanding := outstanding
      wellFormed := wellFormed
      merges := Merges.noteAll_of_lookup known
      openMethods := rfl }

end Elab

end Tern
