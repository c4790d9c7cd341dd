import Mathlib.Data.List.Perm.Basic
import Tern.Proofs.Elaboration.TypeIdentity

namespace Tern

/-!
# Comparing declarations of one key

The pass that merges forward declarations compares each declaration with the
earlier ones of its scope and key, one by one, while it changes which of them
are alive. What comes of one comparison depends on the two declarations alone,
and the comparisons of one declaration are described by a relation that follows
the loop: which faults it records, which declarations leave their sets for
which, and whether the declaration stays.
-/

namespace Arena

variable (arena : Arena)

/-- Two declarations have signatures, and these are the same. -/
def SameSignature (left right : DeclId) : Prop :=
  arena.indexedSignature? left = arena.indexedSignature? right ∧
    (arena.indexedSignature? left).isSome

/-- One of two declarations has no signature. -/
def Unsigned (left right : DeclId) : Prop :=
  arena.indexedSignature? left = none ∨ arena.indexedSignature? right = none

/-- What becomes of two declarations of one key, the earlier one first. -/
inductive Judged (earlier later : DeclId) : MergeVerdict → Prop where
  | conflicts
      (unsigned : arena.Unsigned earlier later) :
      Judged earlier later (.fault (.conflictingDeclaration earlier))
  | overloads
      (signed : ¬ arena.Unsigned earlier later)
      (different : ¬ arena.SameSignature earlier later) :
      Judged earlier later .distinct
  | redefines
      (same : arena.SameSignature earlier later)
      (earlierDefines : arena.isDefinition earlier = true)
      (laterDefines : arena.isDefinition later = true) :
      Judged earlier later (.fault (.redefinition earlier))
  | completes
      (same : arena.SameSignature earlier later)
      (earlierForward : arena.isDefinition earlier = false)
      (laterDefines : arena.isDefinition later = true) :
      Judged earlier later (.merge earlier later)
  | repeats
      (same : arena.SameSignature earlier later)
      (laterForward : arena.isDefinition later = false) :
      Judged earlier later (.merge later earlier)

variable {arena}

theorem SameSignature.symm
    {left right : DeclId}
    (same : arena.SameSignature left right) :
    arena.SameSignature right left :=
  ⟨same.1.symm, same.1 ▸ same.2⟩

theorem SameSignature.trans
    {left middle right : DeclId}
    (first : arena.SameSignature left middle)
    (second : arena.SameSignature middle right) :
    arena.SameSignature left right :=
  ⟨first.1.trans second.1, first.2⟩

variable (arena)

/-- The verdict on two declarations, given what was read as their signatures. -/
def verdictOn (earlier later : DeclId) :
    Option Signature → Option Signature → MergeVerdict
  | some earlierSignature, some laterSignature =>
      if earlierSignature ≠ laterSignature then .distinct
      else
        match arena.isDefinition earlier, arena.isDefinition later with
        | true, true => .fault (.redefinition earlier)
        | false, true => .merge earlier later
        | _, false => .merge later earlier
  | _, _ => .fault (.conflictingDeclaration earlier)

/-- Judging reads two signatures and numbers nothing else. -/
private theorem judge_eq
    (earlier later : DeclId) :
    arena.judge earlier later = do
      let earlier? ← arena.signature? earlier
      let later? ← arena.signature? later
      return arena.verdictOn earlier later earlier? later? := by
  refine bind_congr fun earlier? => bind_congr fun later? => ?_
  rcases earlier? with _ | earlierSignature <;> rcases later? with _ |
      laterSignature <;> try rfl
  simp only [verdictOn]
  split
  · rfl
  · cases arena.isDefinition earlier <;> cases arena.isDefinition later <;> rfl

private theorem judge_settles
    (earlier later : DeclId) :
    Settles (arena.judge earlier later) := by
  rw [judge_eq]
  exact (arena.signature?_settles earlier).bind fun _ =>
    (arena.signature?_settles later).bind fun _ => .pure _

variable {arena} {known : TypeShapes} {earlier later : DeclId}

/-- If no signature is read for a declaration, it has none. -/
private theorem indexedSignature?_of_reads_none
    (reads : known.Reads (arena.signature? earlier) none) :
    arena.indexedSignature? earlier = none := by
  have mirrors := arena.signature?_mirrors reads
  generalize arena.indexedSignature? earlier = tree? at mirrors ⊢
  cases mirrors
  rfl

/--
If a signature is read for a declaration, it agrees with the one that the
declaration has.
-/
private theorem indexedSignature?_of_reads_some
    {signature : Signature}
    (reads : known.Reads (arena.signature? earlier) (some signature)) :
    ∃ tree, arena.indexedSignature? earlier = some tree ∧
      SignatureMirrors (known.NumberOf arena.identify (arena.typeTree byIndex))
        signature tree := by
  have mirrors := arena.signature?_mirrors reads
  generalize arena.indexedSignature? earlier = tree? at mirrors ⊢
  cases mirrors with
  | some agree => exact ⟨_, rfl, agree⟩

/-- Signatures are read as the same exactly if they are the same. -/
private theorem signature_eq_iff
    {earlierSignature laterSignature : Signature}
    (earlierReads :
      known.Reads (arena.signature? earlier) (some earlierSignature))
    (laterReads : known.Reads (arena.signature? later) (some laterSignature)) :
    earlierSignature = laterSignature ↔ arena.SameSignature earlier later := by
  obtain ⟨earlierTree, earlierIs, earlierAgrees⟩ :=
    indexedSignature?_of_reads_some earlierReads
  obtain ⟨laterTree, laterIs, laterAgrees⟩ :=
    indexedSignature?_of_reads_some laterReads
  have unique := SignatureMirrors.biUnique (arena.identify_biUnique known)
  constructor
  · rintro rfl
    obtain rfl := unique.2 earlierAgrees laterAgrees
    exact ⟨earlierIs.trans laterIs.symm, by simp [earlierIs]⟩
  · rintro ⟨same, -⟩
    obtain rfl : earlierTree = laterTree := by
      simpa [earlierIs, laterIs] using same
    exact unique.1 earlierAgrees laterAgrees

/--
The verdict on two declarations is the one that their trees give, whatever was
numbered before.
-/
private theorem judged_of_reads
    {verdict : MergeVerdict}
    (reads : known.Reads (arena.judge earlier later) verdict) :
    arena.Judged earlier later verdict := by
  rw [judge_eq] at reads
  obtain ⟨earlier?, earlierReads, reads⟩ :=
    reads.bind (arena.signature?_settles earlier) fun _ =>
      (arena.signature?_settles later).bind fun _ => .pure _
  obtain ⟨later?, laterReads, reads⟩ :=
    reads.bind (arena.signature?_settles later) fun _ => .pure _
  obtain rfl := TypeShapes.Reads.pure_iff.mp reads
  rcases earlier? with _ | earlierSignature
  · exact .conflicts (.inl (indexedSignature?_of_reads_none earlierReads))
  rcases later? with _ | laterSignature
  · exact .conflicts (.inr (indexedSignature?_of_reads_none laterReads))
  have same := signature_eq_iff earlierReads laterReads
  by_cases equal : earlierSignature = laterSignature
  · have sameSignature := same.mp equal
    simp only [verdictOn, equal, ne_eq, not_true_eq_false, ↓reduceIte]
    cases earlierDefines : arena.isDefinition earlier <;>
      cases laterDefines : arena.isDefinition later
    · exact .repeats sameSignature laterDefines
    · exact .completes sameSignature earlierDefines laterDefines
    · exact .repeats sameSignature laterDefines
    · exact .redefines sameSignature earlierDefines laterDefines
  · obtain ⟨earlierTree, earlierIs, -⟩ :=
      indexedSignature?_of_reads_some earlierReads
    obtain ⟨laterTree, laterIs, -⟩ := indexedSignature?_of_reads_some laterReads
    simp only [verdictOn, ne_eq, equal, not_false_eq_true, ↓reduceIte]
    exact .overloads (by simp [Unsigned, earlierIs, laterIs])
      (mt same.mpr equal)

end Arena

/--
What comes of comparing a declaration with earlier ones in turn: the faults of
it, who leaves its set for whom, and whether the declaration stays.
-/
inductive Compared (arena : Arena) (decl : DeclId) :
    List DeclId → List FaultCause → Merges → Bool → Prop where
  | nil : Compared arena decl [] [] [] true
  | overloads {earlier : DeclId} {rest : List DeclId} {causes : List FaultCause}
      {merges : Merges} {stays : Bool} (signed : ¬ arena.Unsigned earlier decl)
      (different : ¬ arena.SameSignature earlier decl)
      (compared : Compared arena decl rest causes merges stays) :
      Compared arena decl (earlier :: rest) causes merges stays
  | conflicts {earlier : DeclId} {rest : List DeclId} {causes : List FaultCause}
      {merges : Merges} {stays : Bool} (unsigned : arena.Unsigned earlier decl)
      (compared : Compared arena decl rest causes merges stays) :
      Compared arena decl (earlier :: rest)
        (.conflictingDeclaration earlier :: causes) merges stays
  | redefines {earlier : DeclId} {rest : List DeclId} {causes : List FaultCause}
      {merges : Merges} {stays : Bool} (same : arena.SameSignature earlier decl)
      (earlierDefines : arena.isDefinition earlier = true)
      (declDefines : arena.isDefinition decl = true)
      (compared : Compared arena decl rest causes merges stays) :
      Compared arena decl (earlier :: rest) (.redefinition earlier :: causes)
        merges stays
  | takesOver {earlier : DeclId} {rest : List DeclId} {causes : List FaultCause}
      {merges : Merges} {stays : Bool} (same : arena.SameSignature earlier decl)
      (earlierForward : arena.isDefinition earlier = false)
      (declDefines : arena.isDefinition decl = true)
      (compared : Compared arena decl rest causes merges stays) :
      Compared arena decl (earlier :: rest) causes
        ((earlier, decl) :: merges) stays
  | leaves {earlier : DeclId} {rest : List DeclId}
      (same : arena.SameSignature earlier decl)
      (declForward : arena.isDefinition decl = false) :
      Compared arena decl (earlier :: rest) [] [(decl, earlier)] false

/-- A declaration with its scope and key. -/
def Arena.bound (arena : Arena) (decl : DeclId) : BoundDecl :=
  { scope := (arena.decl decl).scope, key := arena.declKey decl, decl := decl }

/-- Two declarations have the same scope and key. -/
def Arena.SamePlace (arena : Arena) (left right : DeclId) : Prop :=
  (arena.decl left).scope = (arena.decl right).scope ∧ arena.declKey left =
    arena.declKey right

instance (arena : Arena) (left right : DeclId) :
    Decidable (arena.SamePlace left right) :=
  inferInstanceAs (Decidable (_ ∧ _))

/-- The fault of a declaration. -/
def Arena.faultOf
    (arena : Arena)
    (decl : DeclId)
    (cause : FaultCause) :
    StructuralFault :=
  { decl := decl, cause := cause, span := (arena.decl decl).span }

/-- Let declarations leave their overload sets. -/
def Scopes.dropAll
    (scopes : Scopes)
    (arena : Arena)
    (decls : List DeclId) :
    Scopes :=
  decls.foldl (fun scopes decl =>
    (scopes.removeMember? (arena.decl decl).scope (arena.declKey decl)
      decl).getD scopes) scopes

/-- Note what declarations were merged into, one after the other. -/
def Merges.noteAll (merges noted : Merges) : Merges :=
  noted.foldl (fun merges merge => merges.note merge.1 merge.2) merges

/--
The state after faults are recorded and declarations have left their sets for
others.
-/
def ElabState.merged
    (state : ElabState)
    (faults : List StructuralFault)
    (merges : Merges)
    (shapes : TypeShapes) : ElabState :=
  { state with
    scopes := state.scopes.dropAll state.arena (merges.map Prod.fst)
    shapes := shapes
    findings :=
      { state.findings with
        faults := state.findings.faults ++ faults
        merges := state.findings.merges.noteAll merges } }

namespace ElabState

/-- Faults and merges one behind the other. -/
private theorem merged_merged
    (state : ElabState)
    (faults laterFaults : List StructuralFault)
    (merges laterMerges : Merges)
    (shapes laterShapes : TypeShapes) :
    (state.merged faults merges shapes).merged laterFaults laterMerges
      laterShapes =
      state.merged (faults ++ laterFaults) (merges ++ laterMerges)
        laterShapes := by
  simp [merged, Scopes.dropAll, Merges.noteAll, List.append_assoc]

end ElabState

namespace Elab

/-- One round of the comparisons follows the verdict. -/
private theorem mergeWith_cons
    (bound earlier : BoundDecl)
    (rest alive : List BoundDecl)
    (input : ElabInput)
    {state : ElabState}
    {verdict : MergeVerdict}
    {shapes : TypeShapes}
    (judged : (state.arena.judge earlier.decl bound.decl).run state.shapes =
      (verdict, shapes)) :
    (mergeWith bound (earlier :: rest) alive).run input state =
      (match verdict with
        | .distinct => mergeWith bound rest alive
        | .fault cause => do
            recordFault bound.decl cause
            mergeWith bound rest alive
        | .merge source target => do
            mergeAway bound source target
            let left := alive.filter fun other : BoundDecl =>
              other.decl ≠ source
            if source = bound.decl then
              return left
            else
              mergeWith bound rest left).run input { state with shapes :=
                shapes } := by
  rw [mergeWith]
  have shaped :
      (shaping fun arena => arena.judge earlier.decl bound.decl).run input
        state =
        .done verdict { state with shapes := shapes } := by
    simp only [shaping, Action.run, Action.update]
    rw [judged]
  simp only [Action.run] at shaped ⊢
  cases verdict <;> simp only [bind, Action.bind, shaped]

section Steps

variable (input : ElabInput) (state : ElabState) (shapes : TypeShapes)

private theorem mergeAway_run
    {decl source : DeclId}
    (samePlace : state.arena.SamePlace source decl)
    (target : DeclId) :
    (mergeAway (state.arena.bound decl) source target).run input
      { state with shapes := shapes } =
      .done () (state.merged [] [(source, target)] shapes) := by
  obtain ⟨sameScope, sameKey⟩ := samePlace
  simp [mergeAway, changeScopes, find, ElabState.merged, Scopes.dropAll,
    Merges.noteAll, Arena.bound, sameScope, sameKey, Action.run, bind,
    Action.bind, Action.modify]

end Steps

/-- Filtering declarations with their places is filtering the declarations. -/
private theorem filter_map_bound
    (arena : Arena)
    (alive : List DeclId)
    (source : DeclId) :
    ((alive.map arena.bound).filter fun other => other.decl ≠ source) =
      (alive.filter (· ≠ source)).map arena.bound := by
  rw [List.filter_map]
  rfl

/--
Comparing a declaration with earlier ones of its scope and key does what the
verdicts say.
-/
private theorem mergeWith_run
    (decl : DeclId)
    {earlier : List DeclId}
    (alive : List DeclId)
    (input : ElabInput)
    (state : ElabState)
    (samePlace : ∀ other ∈ earlier, state.arena.SamePlace other decl) :
    ∃ causes merges stays shapes,
      Compared state.arena decl earlier causes merges stays ∧
        (mergeWith (state.arena.bound decl) (earlier.map state.arena.bound)
            (alive.map state.arena.bound)).run input state =
          .done
            ((alive.filter (· ∉ merges.map Prod.fst) ++ if stays then [decl]
              else []).map
              state.arena.bound)
            (state.merged (causes.map (state.arena.faultOf decl)) merges
              shapes) := by
  induction earlier generalizing alive state with
  | nil =>
      refine ⟨[], [], true, state.shapes, .nil, ?_⟩
      simp [mergeWith, ElabState.merged, Scopes.dropAll, Merges.noteAll,
        Action.run, pure, Action.pure]
  | cons first rest inductionHypothesis =>
      have firstPlace := samePlace first (by simp)
      have restPlace : ∀ other ∈ rest, state.arena.SamePlace other decl :=
        fun other member =>
        samePlace other (by simp [member])
      obtain ⟨verdict, shapes, run⟩ :
          ∃ verdict shapes, (state.arena.judge first decl).run state.shapes =
            (verdict, shapes) :=
        ⟨_, _, rfl⟩
      have judged : state.arena.Judged first decl verdict := by
        have reads :=
          (state.arena.judge_settles first decl).reads state.shapes (.refl _)
        rw [run] at reads
        exact Arena.judged_of_reads reads
      have step :=
        mergeWith_cons (state.arena.bound decl) (state.arena.bound first)
        (rest.map state.arena.bound) (alive.map state.arena.bound) input run
      rw [List.map_cons, step]
      cases judged with
      | overloads signed different =>
          obtain ⟨causes, merges, stays, later, compared, after⟩ :=
            inductionHypothesis alive { state with shapes := shapes } restPlace
          exact ⟨causes, merges, stays, later,
            .overloads signed different compared, after⟩
      | conflicts unsigned =>
          obtain ⟨causes, merges, stays, later, compared, after⟩ :=
            inductionHypothesis alive
              (state.merged [state.arena.faultOf decl
                (.conflictingDeclaration first)] [] shapes)
              restPlace
          refine ⟨_ :: causes, merges, stays, later,
            .conflicts unsigned compared, ?_⟩
          rw [ElabState.merged_merged] at after
          exact after
      | redefines same earlierDefines laterDefines =>
          obtain ⟨causes, merges, stays, later, compared, after⟩ :=
            inductionHypothesis alive
              (state.merged [state.arena.faultOf decl (.redefinition first)] []
                shapes)
              restPlace
          refine ⟨_ :: causes, merges, stays, later,
            .redefines same earlierDefines laterDefines compared, ?_⟩
          rw [ElabState.merged_merged] at after
          exact after
      | completes same earlierForward laterDefines =>
          have firstOther : first ≠ decl := by
            rintro rfl
            simp [earlierForward] at laterDefines
          have away := mergeAway_run input state shapes firstPlace decl
          obtain ⟨causes, merges, stays, later, compared, after⟩ :=
            inductionHypothesis (alive.filter (· ≠ first))
              (state.merged [] [(first, decl)] shapes) restPlace
          refine ⟨causes, (first, decl) :: merges, stays, later,
            .takesOver same earlierForward laterDefines compared, ?_⟩
          have filtered :
              (alive.filter (· ≠ first)).filter (· ∉ merges.map Prod.fst) =
                alive.filter (· ∉ ((first, decl) :: merges).map Prod.fst) := by
            rw [List.filter_filter]
            refine List.filter_congr fun other _ => ?_
            simp only [List.map_cons, List.mem_cons, not_or, Bool.decide_and,
              ne_eq, Bool.and_comm]
          rw [ElabState.merged_merged, filtered] at after
          simp only [Action.run] at away after ⊢
          simp only [bind, Action.bind, away, filter_map_bound]
          rw [if_neg (by simpa [Arena.bound] using firstOther)]
          exact after
      | repeats same laterForward =>
          have ownPlace : state.arena.SamePlace decl decl := ⟨rfl, rfl⟩
          have away := mergeAway_run input state shapes ownPlace first
          refine ⟨[], [(decl, first)], false, shapes,
            .leaves same laterForward, ?_⟩
          simp only [Action.run] at away ⊢
          simp only [bind, Action.bind, away, filter_map_bound]
          rw [if_pos (by simp [Arena.bound])]
          simp [pure, Action.pure]

end Elab

/--
What comes of comparing declarations in turn, each with those still alive of its
scope and key: which are alive, the faults, and who left its set for whom.
-/
inductive Merging (arena : Arena) :
    List DeclId → List DeclId → List StructuralFault → Merges → Prop where
  | start : Merging arena [] [] [] []
  | next {decls alive : List DeclId} {faults :
      List StructuralFault} {merges newMerges : Merges}
      {causes : List FaultCause} {stays : Bool}
        (before : Merging arena decls alive faults merges)
      (decl : DeclId)
      (compared :
        Compared arena decl (alive.filter (arena.SamePlace · decl)) causes
          newMerges stays) :
      Merging arena (decls ++ [decl])
        (alive.filter (· ∉ newMerges.map Prod.fst) ++ if stays then [decl]
          else [])
        (faults ++ causes.map (arena.faultOf decl)) (merges ++ newMerges)

/-- The declarations alive are some of those compared so far, in order. -/
theorem Merging.alive_sublist
    {arena : Arena}
    {decls alive : List DeclId}
    {faults : List StructuralFault}
    {merges : Merges}
    (merging : Merging arena decls alive faults merges) :
    alive.Sublist decls := by
  induction merging with
  | start =>
      exact .slnil
  | @next _ _ _ _ _ _ stays _ decl _ inductionHypothesis =>
      refine (List.filter_sublist.trans inductionHypothesis).append ?_
      cases stays
      · exact List.nil_sublist _
      · exact .refl _

/-- The declarations that statements hold, in order. -/
def Arena.declarationsAmong (arena : Arena) (stmts : List StmtId) :
    List DeclId :=
  stmts.filterMap fun stmt =>
    match (arena.stmt stmt).form with
    | .declaration decl => some decl
    | _ => none

namespace Arena

theorem declarationsAmong_nil (arena : Arena) :
    arena.declarationsAmong [] = [] :=
  rfl

theorem declarationsAmong_cons
    (arena : Arena)
    (stmt : StmtId)
    (stmts : List StmtId) :
    arena.declarationsAmong (stmt :: stmts) =
      arena.declarationsAmong [stmt] ++ arena.declarationsAmong stmts :=
  List.filterMap_append (l := [stmt])

end Arena

namespace Elab

/-- The declaration that a statement holds is read from the arena. -/
theorem declarationOf?_run
    (stmt : StmtId)
    (input : ElabInput)
    (state : ElabState) :
    (declarationOf? stmt).run input state =
      .done
        (match (state.arena.stmt stmt).form with
          | .declaration decl => some decl
          | _ => none)
        state := by
  simp only [declarationOf?, Action.run, bind, Action.bind, arena, Action.state,
    pure, Action.pure]
  cases (state.arena.stmt stmt).form <;> rfl

private theorem declarationsOf_run
    (stmts : List StmtId)
    (input : ElabInput)
    (state : ElabState) :
    (declarationsOf stmts).run input state =
      .done (state.arena.declarationsAmong stmts) state := by
  induction stmts with
  | nil =>
      rfl
  | cons stmt rest inductionHypothesis =>
      have head := declarationOf?_run stmt input state
      simp only [Action.run] at head inductionHypothesis ⊢
      simp only [declarationsOf, bind, Action.bind, head, inductionHypothesis,
        pure, Action.pure, Arena.declarationsAmong, List.filterMap_cons]
      split <;> rfl

private theorem mergeOne_run
    (decl : DeclId)
    (alive : List DeclId)
    (input : ElabInput)
    (state : ElabState) :
    ∃ causes merges stays shapes,
      Compared state.arena decl (alive.filter (state.arena.SamePlace · decl))
        causes merges
          stays ∧
        (mergeOne (alive.map state.arena.bound) decl).run input state =
          .done
            ((alive.filter (· ∉ merges.map Prod.fst) ++ if stays then [decl]
              else []).map
              state.arena.bound)
            (state.merged (causes.map (state.arena.faultOf decl)) merges
              shapes) := by
  have samePlace : ∀ other ∈ alive.filter (state.arena.SamePlace · decl),
      state.arena.SamePlace other decl := fun other member => by
    simpa using (List.mem_filter.mp member).2
  obtain ⟨causes, merges, stays, shapes, compared, run⟩ :=
    mergeWith_run decl alive input state samePlace
  have filtered :
      ((alive.map state.arena.bound).filter fun other =>
          other.scope = (state.arena.bound decl).scope ∧
            other.key = (state.arena.bound decl).key) =
        (alive.filter (state.arena.SamePlace · decl)).map
          state.arena.bound := by
    rw [List.filter_map]
    rfl
  rw [← filtered] at run
  exact ⟨causes, merges, stays, shapes, compared, run⟩

/--
From what was merged before, comparing further declarations goes on with the
merging.
-/
private theorem foldlM_mergeOne_run
    (rest : List DeclId)
    {decls alive : List DeclId}
    {faults : List StructuralFault}
    {merges : Merges}
    (input : ElabInput)
    (state : ElabState)
    (shapes : TypeShapes)
    (merging : Merging state.arena decls alive faults merges) :
    ∃ alive' faults' merges' shapes',
      Merging state.arena (decls ++ rest) alive' faults' merges' ∧
        (rest.foldlM mergeOne (alive.map state.arena.bound)).run input
            (state.merged faults merges shapes) =
          .done (alive'.map state.arena.bound)
            (state.merged faults' merges' shapes') := by
  induction rest generalizing decls alive faults merges shapes with
  | nil =>
      exact ⟨alive, faults, merges, shapes, by simpa using merging, rfl⟩
  | cons decl rest inductionHypothesis =>
      obtain ⟨causes, newMerges, stays, newShapes, compared, run⟩ :=
        mergeOne_run decl alive input (state.merged faults merges shapes)
      obtain ⟨alive', faults', merges', shapes', merged, after⟩ :=
        inductionHypothesis newShapes (merging.next decl compared)
      refine ⟨alive', faults', merges', shapes', by simpa using merged, ?_⟩
      rw [ElabState.merged_merged] at run
      simp only [Action.run] at run after ⊢
      have head :
          mergeOne (alive.map state.arena.bound) decl input
            (state.merged faults merges shapes) =
            .done _ (state.merged _ _ newShapes) := run
      simp only [List.foldlM_cons, bind, Action.bind, head]
      exact after

/--
Merging the forward declarations among statements compares all declarations in
turn.
-/
theorem mergeForwardDeclarations_run
    (stmts : List StmtId)
    (input : ElabInput)
    (state : ElabState) :
    ∃ alive faults merges shapes,
      Merging state.arena (state.arena.declarationsAmong stmts) alive faults
        merges ∧
        (mergeForwardDeclarations stmts).run input state =
          .done () (state.merged faults merges shapes) := by
  obtain ⟨alive, faults, merges, shapes, merging, run⟩ :=
    foldlM_mergeOne_run (state.arena.declarationsAmong stmts) input state
      state.shapes .start
  refine ⟨alive, faults, merges, shapes, by simpa using merging, ?_⟩
  have unmerged : state.merged [] [] state.shapes = state := by
    simp [ElabState.merged, Scopes.dropAll, Merges.noteAll]
  rw [unmerged] at run
  have declared := declarationsOf_run stmts input state
  simp only [Action.run, List.map_nil] at run declared ⊢
  simp only [mergeForwardDeclarations, bind, Action.bind, declared, run]
  rfl

end Elab

end Tern
