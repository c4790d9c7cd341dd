import Tern.Proofs.Elaboration.ArrangedTypes

namespace Tern

/-!
# The second and the third pass keep worksites arranged

Only what has been merged away before is not a member when the second pass comes
to it. It becomes one again and is reported a second time. The third pass lets
forward declarations leave their sets, and they count no more.
-/

namespace Elab

variable {input : ElabInput} {state after : ElabState} {scope : ScopeId}
  {key : Key} {decl : DeclId}

/--
A declaration is a member afterwards: it was one, or else it is added behind the
others.
-/
theorem ensureMember_done
    (room : scope.raw < state.scopes.table.size)
    (run : ensureMember scope key decl input state = .done () after) :
    after.arena = state.arena ∧ after.findings = state.findings ∧
      after.scopes.saved = state.scopes.saved ∧
        (∃ set, after.scopes.findLocal? scope key = some set ∧ decl ∈ set) ∧
          (after = state ∨ (state.scopes.contains scope key decl = false ∧
            after.scopes.table = state.scopes.table.put scope key
              ((state.scopes.table.findLocal? scope key).getD [] ++
                [decl]))) := by
  have ran : ensureMember scope key decl input state =
      .done () { state with scopes :=
        if state.scopes.contains scope key decl then state.scopes
        else (state.scopes.declare scope key decl).2 } := rfl
  cases contained : state.scopes.contains scope key decl with
  | true =>
      rw [contained, if_pos rfl] at ran
      cases ran.symm.trans run
      refine ⟨rfl, rfl, rfl, ?_, .inl rfl⟩
      cases found : state.scopes.findLocal? scope key with
      | none => simp [Scopes.contains, found] at contained
      | some set =>
          exact ⟨set, rfl, by simpa [Scopes.contains, found] using contained⟩
  | false =>
      rw [contained, if_neg Bool.false_ne_true] at ran
      cases ran.symm.trans run
      have table : (state.scopes.declare scope key decl).2.table =
          state.scopes.table.put scope key
          ((state.scopes.table.findLocal? scope key).getD [] ++ [decl]) := by
        simp [Scopes.declare, Scopes.findLocal?]
      have found : (state.scopes.declare scope key decl).2.findLocal?
          scope key =
          some ((state.scopes.table.findLocal? scope key).getD [] ++
            [decl]) := by
        rw [Scopes.findLocal?, table]
        exact ScopeTable.findLocal?_put room key (by simp)
      exact ⟨rfl, rfl, by simp [Scopes.declare], ⟨_, found, by simp⟩,
        .inr ⟨rfl, table⟩⟩

/-- A member is reported. -/
private theorem reportMember_done
    {set : OverloadSet}
    (found : state.scopes.findLocal? scope key = some set)
    (member : decl ∈ set)
    (run : reportMember scope key decl input state = .done () after) :
    ∃ membership : Membership, membership.decl = decl ∧
      after = { state with findings :=
        { state.findings with memberships := state.findings.memberships ++
          [membership] } } := by
  obtain ⟨_, _, observed, run⟩ := Action.done_of_bind run
  cases observed
  have listed : set.idxOf? decl = some (set.idxOf decl) :=
    List.findIdx?_eq_some_iff_findIdx_eq.mpr
      ⟨List.idxOf_lt_length_of_mem member, rfl⟩
  simp only [found, Option.getD_some, listed] at run
  cases run
  exact ⟨_, rfl, rfl⟩

end Elab

/--
Declarations of which nothing is said leave their sets one behind the other.
-/
private theorem Worksite.Arranged.dropAll
    {order : Order}
    {out but : DeclId → Prop}
    {arena : Arena}
    {scopes : Scopes}
    {stock : Stock}
    {decls : List DeclId}
    (arranged : Worksite.Arranged order out but
      { arena := arena, table := scopes.table, saved := scopes.saved,
        stock := stock })
    (sound : Worksite.Sound
      { arena := arena, table := scopes.table, saved := scopes.saved,
        stock := stock })
    (left : ∀ decl ∈ decls, out decl) :
    Worksite.Arranged order out but
      { arena := arena, table := (scopes.dropAll arena decls).table
        saved := (scopes.dropAll arena decls).saved, stock := stock } := by
  induction decls generalizing scopes with
  | nil => exact arranged
  | cons decl decls inductionHypothesis =>
      obtain ⟨first, others⟩ := List.forall_mem_cons.mp left
      simp only [Scopes.dropAll, List.foldl_cons] at inductionHypothesis ⊢
      cases removed : scopes.removeMember? (arena.decl decl).scope
          (arena.declKey decl) decl with
      | none => exact inductionHypothesis arranged sound others
      | some changed =>
          obtain ⟨set, position, found, listed, table, saved, -⟩ :=
            Scopes.of_removeMember? removed
          obtain ⟨-, soundNow⟩ := sound.leave position found
          have site : ({ arena := arena, table := changed.table,
                         saved := changed.saved
                         stock := stock } : Worksite) =
              { arena := arena
                table :=
                  scopes.table.put (arena.decl decl).scope (arena.declKey decl)
                  (set.eraseIdx position)
                saved := scopes.saved, stock := stock } := by
            rw [table, saved]
          refine inductionHypothesis ?_ ?_ others
          · rw [Option.getD_some, site]
            exact arranged.leave sound first found listed
          · rw [Option.getD_some, site]
            exact soundNow

/-- Notes are about what was noted before, and about what is noted. -/
theorem Merges.mem_keys_noteAll
    (merges noted : Merges)
    (decl : DeclId) :
    decl ∈ (merges.noteAll noted).map Prod.fst ↔
      decl ∈ merges.map Prod.fst ∨ decl ∈ noted.map Prod.fst := by
  induction noted generalizing merges with
  | nil => simp [Merges.noteAll]
  | cons entry noted inductionHypothesis =>
      have first : decl ∈ (merges.note entry.1 entry.2).map Prod.fst ↔
          decl ∈ merges.map Prod.fst ∨ decl = entry.1 := by
        rw [Merges.keys_note]
        split
        next known => exact ⟨.inl, fun either => either.elim id fun same =>
          same ▸ known⟩
        next => rw [List.mem_append, List.mem_singleton]
      have rest := inductionHypothesis (merges.note entry.1 entry.2)
      rw [first, or_assoc, ← List.mem_cons, ← List.map_cons] at rest
      exact rest

namespace ElabState

variable {input : ElabInput} {origin : Arena} {state after : ElabState}

namespace Stands

/--
What is no member of the set of its key in its own scope is no member at all.
-/
theorem not_enlists_of_contains
    (stands : state.Stands input origin)
    {decl : DeclId}
    (missing : state.scopes.contains (state.arena.decl decl).scope
      (state.arena.declKey decl) decl =
      false) :
    ¬ state.scopes.table.Enlists decl := by
  obtain ⟨stock, since⟩ := stands.sited
  intro enlists
  obtain ⟨set, found, member⟩ := since.sound.member_of_enlists enlists
  have found : state.scopes.findLocal? (state.arena.decl decl).scope
      (state.arena.declKey decl) =
      some set := found
  simp [Scopes.contains, found, member] at missing

/--
The declaration that a statement holds is a member afterwards, and is reported
as one.
-/
private theorem confirmMembership
    {stmt : StmtId}
    (stands : state.Stands input origin)
    (run : Elab.confirmMembership stmt input state = .done () after) :
    Leads input origin state after ∧ after.arena = state.arena ∧
      (∀ decl, state.told decl ≤ after.told decl) ∧
        ∀ decl, (state.arena.stmt stmt).form = .declaration decl →
          1 ≤ after.told decl := by
  have ran := run
  obtain ⟨_, _, read, run⟩ := Action.done_of_bind run
  cases (Elab.declarationOf?_run stmt input state).symm.trans read
  cases form : (state.arena.stmt stmt).form with
  | declaration decl =>
      rw [form] at run
      obtain ⟨_, _, observed, run⟩ := Action.done_of_bind run
      cases observed
      obtain ⟨_, middle, ensures, run⟩ := Action.done_of_bind run
      have works (stock : Stock) (sound : (state.site stock).Sound) :=
        @Works.confirmMembership input origin (state.site stock) stmt
          ⟨Arena.holds_of_declaration form, nofun⟩
      obtain ⟨stock, more, since, wellFormed, onward, -⟩ :=
        stands.reach works ran
      have room := since.sound.room_of_held
        (since.sound.whole_of_declares (Arena.declares_of_stmt form)).1
      obtain ⟨arena, findings, saved, ⟨set, found, member⟩, table⟩ :=
        Elab.ensureMember_done room ensures
      have came : (middle.site 0).Arranged input.order state.Retired
          (fun _ => False) ∧
          ∀ {other}, middle.scopes.table.Enlists other →
            state.scopes.table.Enlists other ∨
            (other = decl ∧ state.Retired decl) := by
        rcases table with rfl | ⟨missing, table⟩
        · exact ⟨stands.arranged, .inl⟩
        · have left := (stands.arranged.settled form).resolve_left
            (stands.not_enlists_of_contains missing)
          refine ⟨((stands.arrangedWith stock).comeBack since.sound left).of_eq
            arena table saved,
            fun now => ?_⟩
          rw [table] at now
          exact (ScopeTable.eq_or_enlists_of_append now).symm.imp_right
            fun same => ⟨same, left⟩
      obtain ⟨membership, rfl, rfl⟩ := Elab.reportMember_done found member run
      have told (other : DeclId) : ElabState.told
          { middle with findings := { middle.findings with
            memberships := middle.findings.memberships ++ [membership] } }
              other =
          state.told other + if membership.decl = other then 1 else 0 := by
        simp [ElabState.told, findings, List.count_append, List.count_singleton]
      have retired : ElabState.Retired
          { middle with findings := { middle.findings with
            memberships := middle.findings.memberships ++ [membership] } } =
              state.Retired := by
        funext other
        simp only [Retired, findings]
      refine ⟨⟨⟨wellFormed, ⟨more, onward.since since⟩, retired ▸ came.1,
        fun {other} gone => ?_⟩,
        onward.framed, onward.settles, onward.keeps.saved⟩, arena,
          fun other => ?_,
        fun other held => ?_⟩
      · rw [retired] at gone
        obtain ⟨once, twice⟩ := stands.told gone
        rw [told]
        refine ⟨Nat.le_add_right_of_le once, fun enlists => ?_⟩
        rcases came.2 enlists with before | ⟨rfl, -⟩
        · exact Nat.le_add_right_of_le (twice before)
        · rw [if_pos rfl]
          exact Nat.succ_le_succ once
      · rw [told]
        exact Nat.le_add_right ..
      · cases held
        rw [told, if_pos rfl]
        exact Nat.le_add_left ..
  | _ =>
      rw [form] at run
      cases run
      exact ⟨.refl stands, rfl, fun _ => le_refl _, fun _ held => by cases held⟩

/--
The second pass goes over statements, and what they hold has been reported
afterwards.
-/
theorem confirmMembershipOf
    {stmts : List StmtId}
    (stands : state.Stands input origin)
    (run : stmts.forM Elab.confirmMembership input state = .done () after) :
    Leads input origin state after ∧ after.arena = state.arena ∧
      (∀ decl, state.told decl ≤ after.told decl) ∧
        ∀ stmt ∈ stmts, ∀ decl, (state.arena.stmt stmt).form =
          .declaration decl →
          1 ≤ after.told decl := by
  induction stmts generalizing state with
  | nil =>
      cases run
      exact ⟨.refl stands, rfl, fun _ => le_refl _, by simp⟩
  | cons stmt rest inductionHypothesis =>
      rw [List.forM_eq_forM, List.forM_cons] at run
      obtain ⟨_, middle, first, run⟩ := Action.done_of_bind run
      obtain ⟨leads, same, more, here⟩ := stands.confirmMembership first
      obtain ⟨further, sameNow, moreNow, others⟩ :=
        inductionHypothesis leads.stands run
      rw [same] at others
      exact ⟨leads.trans further, sameNow.trans same, fun decl =>
        (more decl).trans (moreNow decl),
        List.forall_mem_cons.mpr
          ⟨fun decl held => (here decl held).trans (moreNow decl), others⟩⟩

/--
The third pass lets declarations leave their sets that are typed and have been
reported.
-/
theorem mergeForwardDeclarations
    {stmts : List StmtId}
    (stands : state.Stands input origin)
    (typed : ∀ stmt ∈ stmts, state.Types stmt)
    (told : ∀ stmt ∈ stmts, ∀ decl, (state.arena.stmt stmt).form =
      .declaration decl →
      1 ≤ state.told decl)
    (run : Elab.mergeForwardDeclarations stmts input state = .done () after) :
    Leads input origin state after ∧ after.arena = state.arena := by
  obtain ⟨alive, faults, merges, shapes, merging, ran⟩ :=
    Elab.mergeForwardDeclarations_run stmts input state
  have ran : Elab.mergeForwardDeclarations stmts input state =
      .done () (state.merged faults merges shapes) := ran
  obtain ⟨stock, more, since, wellFormed, onward, -⟩ :=
    stands.reach (fun stock _ => Works.mergeForwardDeclarations stmts) run
  cases ran.symm.trans run
  have among {decl : DeclId} (source : decl ∈ merges.map Prod.fst) :
      ∃ stmt ∈ stmts, (state.arena.stmt stmt).form = .declaration decl := by
    obtain ⟨stmt, listed, held⟩ :=
      List.mem_filterMap.mp (merging.sources_subset source)
    refine ⟨stmt, listed, ?_⟩
    split at held <;> simp_all
  have retired (decl : DeclId) :
      (state.merged faults merges shapes).Retired decl ↔
      state.Retired decl ∨ decl ∈ merges.map Prod.fst :=
        Merges.mem_keys_noteAll ..
  have left {decl : DeclId} (enlists :
      (state.merged faults merges shapes).scopes.table.Enlists decl) :
      state.scopes.table.Enlists decl ∧ decl ∉ merges.map Prod.fst := by
    obtain ⟨set, found, member⟩ := onward.sound.member_of_enlists enlists
    have dropped := state.scopes.setAt_dropAll state.arena (merges.map Prod.fst)
      (state.arena.decl decl).scope (state.arena.declKey decl)
    have found :
        (state.scopes.dropAll state.arena (merges.map Prod.fst)).findLocal?
        (state.arena.decl decl).scope (state.arena.declKey decl) = some set :=
          found
    rw [Scopes.setAt, found, Option.getD_some] at dropped
    cases before : state.scopes.findLocal? (state.arena.decl decl).scope
        (state.arena.declKey decl) with
    | none => simp [dropped, Scopes.setAt, before] at member
    | some old =>
        rw [Scopes.setAt, before, Option.getD_some] at dropped
        rw [dropped, (since.sound.members _ _ _ before).1.mem_sdiff_iff]
          at member
        exact ⟨⟨_, _, old, before, member.1⟩, fun source =>
          member.2 (by simpa using source)⟩
  have arranged : ((state.merged faults merges shapes).site stock).Arranged
      input.order
      (state.merged faults merges shapes).Retired fun _ => False := by
    refine ((stands.arrangedWith stock).widen
      (fun gone => (retired _).mpr (.inl gone))
      fun gone new => ?_).dropAll since.sound fun decl source =>
        (retired decl).mpr (.inr source)
    obtain ⟨stmt, listed, held⟩ :=
      among (((retired _).mp gone).resolve_left new)
    exact ⟨Arena.declares_of_stmt held, typed stmt listed _ held⟩
  refine ⟨⟨⟨wellFormed, ⟨more, onward.since since⟩, arranged.restock 0,
    fun {decl} gone => ?_⟩,
    onward.framed, onward.settles, onward.keeps.saved⟩, rfl⟩
  rcases (retired decl).mp gone with before | source
  · exact ⟨(stands.told before).1, fun enlists =>
      (stands.told before).2 (left enlists).1⟩
  · obtain ⟨stmt, listed, held⟩ := among source
    exact ⟨told stmt listed decl held, fun enlists =>
      absurd source (left enlists).2⟩

end Stands

end ElabState

end Tern
