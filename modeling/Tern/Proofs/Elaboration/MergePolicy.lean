import Tern.Proofs.Elaboration.Groups
import Tern.Proofs.Scope.Contents

namespace Tern

/-!
# The policy of merging

What the pass that merges forward declarations makes of a state: which
declarations leave their overload sets, which notes and which faults there are.
What is left of a group are its definitions, or its first declaration if it has
none; who left is noted with a declaration of its group, and following the notes
ends at one that is left. Every two definitions of a group are a fault, and so
are every two declarations left of one scope and key one of which has no
signature.
-/

namespace Scopes

/-- The overload set of a key, empty if the key is not bound. -/
def setAt (scopes : Scopes) (scope : ScopeId) (key : Key) : OverloadSet :=
  (scopes.findLocal? scope key).getD []

/-- A declaration that is removed is gone from its set; other sets stay. -/
private theorem setAt_removeMember?
    (scopes : Scopes)
    (scope : ScopeId)
    (key : Key)
    (decl : DeclId)
    (other : ScopeId)
    (name : Key) :
    ((scopes.removeMember? scope key decl).getD scopes).setAt other name =
      if other = scope ∧ name = key then (scopes.setAt scope key).erase decl
      else scopes.setAt other name := by
  cases found : scopes.findLocal? scope key with
  | none =>
      by_cases same : other = scope ∧ name = key
      · obtain ⟨rfl, rfl⟩ := same
        simp [removeMember?, setAt, found]
      · simp [removeMember?, found, same]
  | some set =>
      have erased := List.erase_eq_eraseIdx set decl
      cases stands : set.idxOf? decl with
      | none =>
          rw [stands] at erased
          by_cases same : other = scope ∧ name = key
          · obtain ⟨rfl, rfl⟩ := same
            simp [removeMember?, setAt, found, stands, erased]
          · simp [removeMember?, found, stands, same]
      | some position =>
          rw [stands] at erased
          have stored : scope.raw < scopes.table.size := lt_of_findLocal? found
          have emptyOrNot :
              (if set.eraseIdx position = [] then none
                else some (set.eraseIdx position) : Option OverloadSet).getD
                  [] =
                set.eraseIdx position := by
            by_cases empty : set.eraseIdx position = [] <;> simp [empty]
          have whole : scopes.setAt scope key = set := by
            simp [setAt, found]
          rw [whole, erased]
          simp only [removeMember?, found, stands, Option.getD_some]
          simp only [setAt, findLocal?, record_table,
            ScopeTable.findLocal?_put_eq, stored, true_and]
          by_cases same : other = scope ∧ name = key
          · simp only [if_pos same, emptyOrNot]
          · simp only [if_neg same]

/-- Declarations that leave are gone from the sets of their scope and key. -/
theorem setAt_dropAll
    (scopes : Scopes)
    (arena : Arena)
    (gone : List DeclId)
    (scope : ScopeId)
    (key : Key) :
    (scopes.dropAll arena gone).setAt scope key =
      (scopes.setAt scope key).diff
        (gone.filter fun decl => scope = (arena.decl decl).scope ∧ key =
          arena.declKey decl) := by
  induction gone generalizing scopes with
  | nil =>
      simp [dropAll]
  | cons decl rest inductionHypothesis =>
      have next := inductionHypothesis
        ((scopes.removeMember? (arena.decl decl).scope (arena.declKey decl)
          decl).getD scopes)
      rw [setAt_removeMember?] at next
      by_cases same : scope = (arena.decl decl).scope ∧ key = arena.declKey decl
      · rw [List.filter_cons_of_pos (by simpa using same), List.diff_cons]
        rw [if_pos same, ← same.1, ← same.2] at next
        simpa [dropAll, ← same.1, ← same.2] using next
      · rw [List.filter_cons_of_neg (by simpa using same)]
        rw [if_neg same] at next
        exact next

end Scopes

namespace Merges

/-- What a declaration was merged into is what was noted for it last. -/
private theorem lookup_note
    (merges : Merges)
    (source target decl : DeclId) :
    (merges.note source target).lookup decl =
      if decl = source then some target else merges.lookup decl := by
  induction merges with
  | nil =>
      by_cases same : decl = source
      · simp [note, same]
      · have missed : (decl == source) = false := by
          simpa using same
        simp [note, same, List.lookup_cons, missed]
  | cons entry rest inductionHypothesis =>
      rcases entry with ⟨known, old⟩
      by_cases isKnown : known = source
      · subst isKnown
        by_cases same : decl = known
        · simp [note, same]
        · have missed : (decl == known) = false := by
            simpa using same
          simp [note, same, List.lookup_cons, missed]
      · by_cases same : decl = known
        · subst same
          simp [note, isKnown]
        · have missed : (decl == known) = false := by
            simpa using same
          simpa [note, isKnown, List.lookup_cons, missed]
            using inductionHypothesis

/-- Noting adds no second entry for a declaration. -/
theorem keys_note
    (merges : Merges)
    (source target : DeclId) :
    (merges.note source target).map Prod.fst =
      if source ∈ merges.map Prod.fst then merges.map Prod.fst
      else merges.map Prod.fst ++ [source] := by
  induction merges with
  | nil =>
      simp [note]
  | cons entry rest inductionHypothesis =>
      rcases entry with ⟨known, old⟩
      by_cases isKnown : known = source
      · simp [note, isKnown]
      · have others : source ≠ known := Ne.symm isKnown
        simp only [note, isKnown, ↓reduceIte, List.map_cons,
          inductionHypothesis, List.mem_cons, others, false_or]
        split <;> rfl

/-- What was noted for other declarations stays. -/
private theorem lookup_noteAll_of_not_mem
    (merges : Merges)
    {noted : Merges}
    {decl : DeclId}
    (other : decl ∉ noted.map Prod.fst) :
    (merges.noteAll noted).lookup decl = merges.lookup decl := by
  induction noted generalizing merges with
  | nil =>
      rfl
  | cons entry rest inductionHypothesis =>
      have notFirst := List.ne_of_not_mem_cons other
      have next := inductionHypothesis (merges.note entry.1 entry.2)
        (List.not_mem_of_not_mem_cons other)
      rw [lookup_note, if_neg notFirst] at next
      exact next

/-- What is noted for distinct declarations is found for each of them. -/
theorem lookup_noteAll
    (merges : Merges)
    {noted : Merges}
    (distinct : (noted.map Prod.fst).Nodup)
    {source target : DeclId}
    (member : (source, target) ∈ noted) :
    (merges.noteAll noted).lookup source = some target := by
  induction noted generalizing merges with
  | nil =>
      simp at member
  | cons entry rest inductionHypothesis =>
      obtain ⟨notAgain, restDistinct⟩ := List.nodup_cons.mp distinct
      rcases List.mem_cons.mp member with rfl | inRest
      · have kept :=
          lookup_noteAll_of_not_mem (merges.note source target) notAgain
        rw [lookup_note, if_pos rfl] at kept
        exact kept
      · exact inductionHypothesis (merges.note entry.1 entry.2) restDistinct
          inRest

/-- Noting keeps one entry for each declaration. -/
private theorem nodup_noteAll
    {merges : Merges}
    (distinct : (merges.map Prod.fst).Nodup)
    (noted : Merges) :
    ((merges.noteAll noted).map Prod.fst).Nodup := by
  induction noted generalizing merges with
  | nil =>
      exact distinct
  | cons entry rest inductionHypothesis =>
      refine inductionHypothesis ?_
      rw [keys_note]
      split
      · exact distinct
      · rename_i absent
        exact List.nodup_append.mpr ⟨distinct, by simp, by
          rintro known member _ isNew rfl
          exact absent (List.mem_singleton.mp isNew ▸ member)⟩

end Merges

namespace ElabState

/-- The overload set that a declaration belongs to. -/
def overloads (state : ElabState) (decl : DeclId) : OverloadSet :=
  state.scopes.setAt (state.arena.decl decl).scope (state.arena.declKey decl)

/--
A declaration is not in its overload set, and was merged into another one.
-/
def MergedInto (state : ElabState) (former latter : DeclId) : Prop :=
  former ∉ state.overloads former ∧ state.findings.merges.lookup former =
    some latter

/-- The faults found since an earlier moment. -/
def faultsSince (state before : ElabState) : List StructuralFault :=
  state.findings.faults.drop before.findings.faults.length

end ElabState

/--
Where every item leads to one at most and a path leads to an end, no path leads
back.
-/
private theorem not_transGen_self
    {Item : Type}
    {leads : Item → Item → Prop}
    (functional : ∀ {item left right}, leads item left → leads item right →
      left = right)
    {start last : Item}
    (path : Relation.TransGen leads start last)
    (isEnd : ∀ next, ¬ leads last next) :
    ¬ Relation.TransGen leads start start := by
  have turn {item next : Item} (cycle : Relation.TransGen leads item item)
      (step : leads item next) : Relation.TransGen leads next next := by
    obtain ⟨second, first, back⟩ := Relation.TransGen.head'_iff.mp cycle
    obtain rfl := functional step first
    exact Relation.TransGen.tail' back step
  intro cycle
  have everyCycle {item : Item} (path : Relation.TransGen leads start item) :
      Relation.TransGen leads item item := by
    induction path with
    | single step => exact turn cycle step
    | tail _ step inductionHypothesis => exact turn inductionHypothesis step
  obtain ⟨next, step, -⟩ := Relation.TransGen.head'_iff.mp (everyCycle path)
  exact isEnd next step

/--
What merging the forward declarations among some declarations makes of a state.
Groups are made of the declarations of one scope, key and signature; those
without a signature are in no group.
-/
structure MergedByPolicy (before after : ElabState) (decls : List DeclId) :
    Prop where
  arena : after.arena = before.arena
  /-- Of a group with a definition exactly the forward declarations leave. -/
  definedGroup : ∀ decl ∈ decls, ∀ definition ∈ decls,
    before.arena.SameGroup definition decl →
    before.arena.isDefinition definition = true →
      (decl ∈ after.overloads decl ↔ before.arena.isDefinition decl = true)
  /-- Of a group without a definition exactly the first declaration stays. -/
  forwardGroup : ∀ decl ∈ decls, before.arena.SameSignature decl decl →
    (∀ other ∈ decls, before.arena.SameGroup other decl →
      before.arena.isDefinition other = false) →
      (decl ∈ after.overloads decl ↔
        ¬ ∃ other, [other, decl].Sublist decls ∧
          before.arena.SameGroup other decl)
  /-- Definitions and declarations without a signature stay. -/
  stays : ∀ decl ∈ decls, before.arena.isDefinition decl = true ∨
    before.arena.indexedSignature? decl = none → decl ∈ after.overloads decl
  /-- Those that stay keep their order. -/
  order : ∀ scope key,
    (after.scopes.setAt scope key).Sublist (before.scopes.setAt scope key)
  /-- Nothing else leaves a set. -/
  others : ∀ scope key, ∀ decl ∈ before.scopes.setAt scope key, decl ∉ decls →
    decl ∈ after.scopes.setAt scope key
  /-- What leaves is noted with a declaration of its group. -/
  noted : ∀ decl ∈ decls, decl ∉ after.overloads decl →
    ∃ target ∈ decls, before.arena.SameGroup decl target ∧
      after.findings.merges.lookup decl = some target
  /-- A declaration has one note at most. -/
  notedOnce : (before.findings.merges.map Prod.fst).Nodup →
    (after.findings.merges.map Prod.fst).Nodup
  /-- Nothing else is noted. -/
  notNoted : ∀ decl, decl ∉ decls ∨ decl ∈ after.overloads decl →
    after.findings.merges.lookup decl = before.findings.merges.lookup decl
  /--
  From what leaves the notes lead to a declaration that is still in its set.
  -/
  leads : ∀ decl ∈ decls, decl ∉ after.overloads decl →
    ∃ survivor ∈ decls, survivor ∈ after.overloads survivor ∧
      Relation.TransGen after.MergedInto decl survivor
  /-- The notes never lead back. -/
  acyclic : ∀ decl ∈ decls, ¬ Relation.TransGen after.MergedInto decl decl
  faultsKept : before.findings.faults <+: after.findings.faults
  /--
  Two definitions of one group are one fault of the later, naming the earlier.
  -/
  redefinition : ∀ earlier later, [earlier, later].Sublist decls →
    before.arena.SameGroup earlier later → before.arena.isDefinition earlier =
      true →
      before.arena.isDefinition later = true →
        (Merging.faultsOn (after.faultsSince before) later
          (.redefinition earlier)).length = 1
  /-- There are no other redefinitions. -/
  noOtherRedefinition : ∀ fault ∈ after.faultsSince before, ∀ previous,
    fault.cause = .redefinition previous →
      [previous, fault.decl].Sublist decls ∧
        before.arena.SameGroup previous fault.decl ∧
        before.arena.isDefinition previous = true ∧
          before.arena.isDefinition fault.decl = true
  /--
  Two declarations left of one scope and key, one without a signature, are one
  fault.
  -/
  conflict : ∀ earlier later, [earlier, later].Sublist decls →
    before.arena.SamePlace earlier later → before.arena.Unsigned earlier later →
      earlier ∈ after.overloads earlier → later ∈ after.overloads later →
        (Merging.faultsOn (after.faultsSince before) later
          (.conflictingDeclaration earlier)).length = 1

/--
After the comparisons a declaration is still in its overload set exactly if it
has not left.
-/
private theorem mem_overloads_merged
    {state : ElabState}
    (faults : List StructuralFault)
    (merges : Merges)
    (shapes : TypeShapes)
    {decl : DeclId}
    (bound : decl ∈ state.overloads decl)
    (distinct : (state.overloads decl).Nodup) :
    decl ∈ (state.merged faults merges shapes).overloads decl ↔
      decl ∉ merges.map Prod.fst := by
  have dropped := state.scopes.setAt_dropAll state.arena (merges.map Prod.fst)
    (state.arena.decl decl).scope (state.arena.declKey decl)
  have isLeft :
      (state.merged faults merges shapes).overloads decl =
        (state.overloads decl).diff
          ((merges.map Prod.fst).filter fun source =>
            (state.arena.decl decl).scope = (state.arena.decl source).scope ∧
              state.arena.declKey decl = state.arena.declKey source) := dropped
  rw [isLeft, distinct.mem_sdiff_iff]
  simp [bound]

/--
Merging the forward declarations among statements ends, and does what the policy
says, if the declarations are distinct and are members of their overload sets.
-/
theorem mergeForwardDeclarations_policy
    (stmts : List StmtId)
    (input : ElabInput)
    (state : ElabState)
    (distinct : (state.arena.declarationsAmong stmts).Nodup)
    (bound : ∀ decl ∈ state.arena.declarationsAmong stmts,
      decl ∈ state.overloads decl ∧ (state.overloads decl).Nodup) :
    ∃ after,
      (Elab.mergeForwardDeclarations stmts).run input state = .done () after ∧
        MergedByPolicy state after (state.arena.declarationsAmong stmts) := by
  obtain ⟨alive, faults, merges, shapes, merging, run⟩ :=
    Elab.mergeForwardDeclarations_run stmts input state
  refine ⟨state.merged faults merges shapes, run, ?_⟩
  generalize state.arena.declarationsAmong stmts =
    decls at distinct bound merging
  have stays_iff {decl : DeclId} (member : decl ∈ decls) :
      decl ∈ (state.merged faults merges shapes).overloads decl ↔
        decl ∉ merges.map Prod.fst :=
    mem_overloads_merged faults merges shapes (bound decl member).1
      (bound decl member).2
  have left_iff {decl : DeclId} (member : decl ∈ decls) :
      decl ∉ (state.merged faults merges shapes).overloads decl ↔
        decl ∈ merges.map Prod.fst := by
    rw [stays_iff member, not_not]
  have sources := merging.sources_nodup distinct
  have found {former latter : DeclId} (noted : (former, latter) ∈ merges) :
      (state.merged faults merges shapes).findings.merges.lookup former =
        some latter :=
    Merges.lookup_noteAll _ sources noted
  have step {former latter : DeclId} (noted : (former, latter) ∈ merges) :
      (state.merged faults merges shapes).MergedInto former latter := by
    have leaves : former ∈ merges.map Prod.fst := List.mem_map_of_mem noted
    exact ⟨(left_iff (merging.sources_subset leaves)).mpr leaves, found noted⟩
  have leads {decl : DeclId} (member : decl ∈ decls)
      (left : decl ∉ (state.merged faults merges shapes).overloads decl) :
      ∃ survivor ∈ decls,
        survivor ∈ (state.merged faults merges shapes).overloads survivor ∧
          Relation.TransGen (state.merged faults merges shapes).MergedInto decl
            survivor := by
    obtain ⟨survivor, isAlive, path⟩ :=
      merging.leads_to_alive distinct ((left_iff member).mp left)
    obtain ⟨isAmong, stays⟩ :=
      (merging.mem_alive_iff distinct survivor).mp isAlive
    exact ⟨survivor, isAmong, (stays_iff isAmong).mpr stays,
      Relation.TransGen.mono (fun _ _ => step) decl survivor path⟩
  have since :
      (state.merged faults merges shapes).faultsSince state = faults := by
    simp [ElabState.faultsSince, ElabState.merged]
  exact
    { arena := rfl
      definedGroup := by
        intro decl member definition isAmong same defines
        rw [stays_iff member]
        exact merging.not_mem_sources_iff_definition distinct member isAmong
          same defines
      forwardGroup := by
        intro decl member signed allForward
        rw [stays_iff member]
        exact merging.not_mem_sources_iff_first distinct member signed
          allForward
      stays := by
        intro decl member stays
        have isAlive := merging.alive_of_stays distinct member stays
        exact (stays_iff member).mpr
          ((merging.mem_alive_iff distinct decl).mp isAlive).2
      order := by
        intro scope key
        have dropped :=
          state.scopes.setAt_dropAll state.arena (merges.map Prod.fst) scope key
        exact dropped ▸ List.diff_sublist _ _
      others := by
        intro scope key decl member other
        have dropped :=
          state.scopes.setAt_dropAll state.arena (merges.map Prod.fst) scope key
        refine dropped ▸ List.mem_diff_of_mem member fun leaves => other ?_
        exact merging.sources_subset (List.mem_of_mem_filter leaves)
      noted := by
        intro decl member left
        obtain ⟨⟨_, target⟩, noted, rfl⟩ :=
          List.mem_map.mp ((left_iff member).mp left)
        obtain ⟨isAmong, same, -⟩ := merging.noted noted
        exact ⟨target, isAmong, same, found noted⟩
      notedOnce := fun once => Merges.nodup_noteAll once merges
      notNoted := by
        intro decl unaffected
        refine Merges.lookup_noteAll_of_not_mem _ fun leaves => ?_
        have member := merging.sources_subset leaves
        rcases unaffected with absent | stays
        · exact absent member
        · exact (stays_iff member).mp stays leaves
      leads := fun decl member => leads member
      acyclic := by
        intro decl member cycle
        obtain ⟨_, ⟨left, -⟩, -⟩ := Relation.TransGen.head'_iff.mp cycle
        obtain ⟨survivor, -, stays, path⟩ := leads member left
        refine not_transGen_self ?_ path (fun _ next => next.1 stays) cycle
        intro former first second firstStep secondStep
        exact Option.some.inj (firstStep.2.symm.trans secondStep.2)
      faultsKept := List.prefix_append _ _
      redefinition := by
        intro earlier later precedes same earlierDefines laterDefines
        rw [since]
        exact merging.length_faultsOn_redefinition distinct precedes same
          earlierDefines laterDefines
      noOtherRedefinition := by
        intro fault recorded previous cause
        rw [since] at recorded
        exact merging.of_redefinition recorded cause
      conflict := by
        intro earlier later precedes samePlace unsigned earlierStays laterStays
        rw [since]
        exact merging.length_faultsOn_conflict distinct precedes
          ((stays_iff (precedes.subset (by simp))).mp earlierStays)
          ((stays_iff (precedes.subset (by simp))).mp laterStays) samePlace
            unsigned }

/--
A forward declaration of a class and its definition, both bound in the unit.
-/
def forwardAndDefined : ElabState :=
  let classOf (definition : DefId) : Decl :=
    { name := { raw := 0 }, specifiers := .none
      form := .classType { raw := 0 } definition
      span := .synthetic, scope := ScopeTable.root, phase := .typeElaborated }
  let declared :=
    Scopes.initial.declare ScopeTable.root (.placeholder 0) { raw := 0 }
  { arena :=
      { Arena.empty with
        names := #[{ form := .placeholder 0, span := .synthetic }]
        types := #[{ form := .builtin .typename, span := .synthetic }]
        stmts :=
          #[{ form := .declaration { raw := 0 }, span := .synthetic },
            { form := .declaration { raw := 1 }, span := .synthetic },
            { form := .list .members [] ScopeTable.root, span := .synthetic }]
        decls := #[classOf { raw := 0 }, classOf { raw := 1 }]
        definitions :=
          #[{ form := .empty, span := .synthetic },
            { form := .members { raw := 2 }, span := .synthetic }] }
    scopes :=
      (declared.2.declare ScopeTable.root (.placeholder 0) { raw := 1 }).2
    shapes := .empty
    findings := .none }

/-- The forward declaration of a class leaves for its definition. -/
theorem mergeForwardDeclarations_policy_forwardAndDefined :
    let input : ElabInput :=
      { tokens := #[], names := .initial,
        options := { mode := .deferred, openMethods := false } }
    let forward : DeclId := { raw := 0 }
    let defined : DeclId := { raw := 1 }
    ∃ after,
      (Elab.mergeForwardDeclarations [{ raw := 0 }, { raw := 1 }]).run input
        forwardAndDefined =
          .done () after ∧
        forward ∉ after.overloads forward ∧
          defined ∈ after.overloads defined := by
  intro input forward defined
  have declared :
      forwardAndDefined.arena.declarationsAmong [{ raw := 0 }, { raw := 1 }] =
        [forward, defined] := by
    decide
  have distinct :
      (forwardAndDefined.arena.declarationsAmong
        [{ raw := 0 }, { raw := 1 }]).Nodup := by
    decide
  have bound :
      ∀ decl ∈ forwardAndDefined.arena.declarationsAmong [{ raw := 0 },
        { raw := 1 }],
        decl ∈ forwardAndDefined.overloads decl ∧
          (forwardAndDefined.overloads decl).Nodup := by
    decide
  obtain ⟨after, run, policy⟩ :=
    mergeForwardDeclarations_policy [{ raw := 0 }, { raw := 1 }] input
      forwardAndDefined distinct
      bound
  rw [declared] at policy
  have sameGroup : forwardAndDefined.arena.SameGroup defined forward :=
    ⟨by decide, rfl, rfl⟩
  have defines : forwardAndDefined.arena.isDefinition defined = true := rfl
  have isForward : forwardAndDefined.arena.isDefinition forward = false := rfl
  have leaves :=
    policy.definedGroup forward (by simp) defined (by simp) sameGroup defines
  refine ⟨after, run, ?_, policy.stays defined (by simp) (.inl defines)⟩
  rw [leaves, isForward]
  simp

end Tern
