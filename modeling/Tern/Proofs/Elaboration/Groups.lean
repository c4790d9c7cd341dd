import Mathlib.Data.List.Nodup
import Mathlib.Logic.Relation
import Tern.Proofs.Elaboration.Comparing

namespace Tern

/-!
# Groups of declarations

Declarations of one scope, key and signature form a group. This module looks at
the comparisons alone: who leaves for whom, and which faults are found, in terms
of the groups that the declarations form.

The comparisons of one declaration come first. What they come to depends on
which declarations are alive then, and two facts on those carry the induction
over all declarations: a declaration is alive unless it has left, and of every
group met so far some declaration is alive.
-/

namespace Arena

variable (arena : Arena)

/-- Two declarations have the same scope, key and signature. -/
def SameGroup (left right : DeclId) : Prop :=
  arena.SamePlace left right ∧ arena.SameSignature left right

variable {arena} {left middle right : DeclId}

theorem SamePlace.symm
    (same : arena.SamePlace left right) :
    arena.SamePlace right left :=
  ⟨same.1.symm, same.2.symm⟩

theorem SameGroup.symm
    (same : arena.SameGroup left right) :
    arena.SameGroup right left :=
  ⟨same.1.symm, same.2.symm⟩

theorem SameGroup.trans
    (first : arena.SameGroup left middle)
    (second : arena.SameGroup middle right) :
    arena.SameGroup left right :=
  ⟨⟨first.1.1.trans second.1.1, first.1.2.trans second.1.2⟩,
    first.2.trans second.2⟩

/-- Declarations of the same signature both have one. -/
private theorem SameSignature.not_unsigned
    (same : arena.SameSignature left right) :
    ¬ arena.Unsigned left right := by
  obtain ⟨equal, signed⟩ := same
  rintro (missing | missing)
  · simp [missing] at signed
  · rw [equal, missing] at signed
    simp at signed

end Arena

namespace Compared

variable {arena : Arena} {decl : DeclId} {earlier : List DeclId}
  {causes : List FaultCause}
    {merges : Merges} {stays : Bool}

/--
One of two declarations of the same signature leaves for the other, and it is no
definition.
-/
private theorem merge_cases
    (compared : Compared arena decl earlier causes merges stays)
    {source target : DeclId}
    (noted : (source, target) ∈ merges) :
    (source ∈ earlier ∧ target = decl ∧ arena.SameSignature source decl ∧
        arena.isDefinition source = false ∧ arena.isDefinition decl = true) ∨
      (source = decl ∧ target ∈ earlier ∧ arena.SameSignature target decl ∧
        arena.isDefinition decl = false ∧ stays = false) := by
  induction compared with
  | nil =>
      simp at noted
  | overloads _ _ _ inductionHypothesis | conflicts _ _ inductionHypothesis
  | redefines _ _ _ _ inductionHypothesis =>
      rcases inductionHypothesis noted with ⟨member, rest⟩ |
          ⟨isDecl, member, rest⟩
      · exact .inl ⟨List.mem_cons_of_mem _ member, rest⟩
      · exact .inr ⟨isDecl, List.mem_cons_of_mem _ member, rest⟩
  | takesOver same forward defines _ inductionHypothesis =>
      rcases List.mem_cons.mp noted with isNew | noted
      · obtain ⟨rfl, rfl⟩ := Prod.mk.inj isNew
        exact .inl ⟨List.mem_cons_self, rfl, same, forward, defines⟩
      · rcases inductionHypothesis noted with ⟨member, rest⟩ |
            ⟨isDecl, member, rest⟩
        · exact .inl ⟨List.mem_cons_of_mem _ member, rest⟩
        · exact .inr ⟨isDecl, List.mem_cons_of_mem _ member, rest⟩
  | leaves same forward =>
      obtain ⟨rfl, rfl⟩ := Prod.mk.inj (List.mem_singleton.mp noted)
      exact .inr ⟨rfl, List.mem_cons_self, same, forward, rfl⟩

/-- Who leaves is the declaration or one of the earlier ones. -/
private theorem mem_of_mem_sources
    (compared : Compared arena decl earlier causes merges stays)
    {source : DeclId}
    (leaves : source ∈ merges.map Prod.fst) :
    source ∈ earlier ∨ source = decl := by
  obtain ⟨⟨_, target⟩, noted, rfl⟩ := List.mem_map.mp leaves
  rcases compared.merge_cases noted with ⟨member, -⟩ | ⟨isDecl, -⟩
  · exact .inl member
  · exact .inr isDecl

/-- Nobody leaves for one that leaves too. -/
private theorem target_not_mem_sources
    (compared : Compared arena decl earlier causes merges stays)
    (notEarlier : decl ∉ earlier)
    {source target : DeclId}
    (noted : (source, target) ∈ merges) :
    target ∉ merges.map Prod.fst := by
  intro leaves
  obtain ⟨⟨_, further⟩, next, rfl⟩ := List.mem_map.mp leaves
  rcases compared.merge_cases noted with ⟨-, isDecl, -, -, defines⟩ |
      ⟨-, member, -, forward, -⟩
  · rcases compared.merge_cases next with ⟨member, -⟩ | ⟨-, -, -, forward, -⟩
    · exact notEarlier (isDecl ▸ member)
    · simp [defines] at forward
  · rcases compared.merge_cases next with ⟨-, -, -, -, defines⟩ | ⟨isDecl, -⟩
    · simp [forward] at defines
    · exact notEarlier (isDecl ▸ member)

/-- A declaration stays unless it leaves. -/
private theorem stays_iff
    (compared : Compared arena decl earlier causes merges stays)
    (notEarlier : decl ∉ earlier) :
    stays = true ↔ decl ∉ merges.map Prod.fst := by
  induction compared with
  | nil =>
      simp
  | overloads _ _ _ inductionHypothesis | conflicts _ _ inductionHypothesis
  | redefines _ _ _ _ inductionHypothesis =>
      exact inductionHypothesis fun member =>
        notEarlier (List.mem_cons_of_mem _ member)
  | takesOver _ _ _ _ inductionHypothesis =>
      have notFirst := List.ne_of_not_mem_cons notEarlier
      have notRest := List.not_mem_of_not_mem_cons notEarlier
      simpa [notFirst] using inductionHypothesis notRest
  | leaves =>
      simp

/-- Nobody leaves twice. -/
private theorem sources_nodup
    (compared : Compared arena decl earlier causes merges stays)
    (distinct : earlier.Nodup)
    (notEarlier : decl ∉ earlier) :
    (merges.map Prod.fst).Nodup := by
  induction compared with
  | nil =>
      simp
  | overloads _ _ _ inductionHypothesis | conflicts _ _ inductionHypothesis
  | redefines _ _ _ _ inductionHypothesis =>
      exact inductionHypothesis distinct.of_cons
        (List.not_mem_of_not_mem_cons notEarlier)
  | @takesOver first _ _ _ _ _ _ _ compared inductionHypothesis =>
      have notFirst := List.ne_of_not_mem_cons notEarlier
      have notRest := List.not_mem_of_not_mem_cons notEarlier
      have once : first ∉ _ := fun leaves =>
        match compared.mem_of_mem_sources leaves with
        | .inl member => (List.nodup_cons.mp distinct).1 member
        | .inr isDecl => notFirst isDecl.symm
      exact List.nodup_cons.mpr
        ⟨once, inductionHypothesis distinct.of_cons notRest⟩
  | leaves =>
      simp

/-- A forward declaration leaves if an earlier declaration has its signature. -/
private theorem leaves_of_forward
    (compared : Compared arena decl earlier causes merges stays)
    (forward : arena.isDefinition decl = false)
    {other : DeclId}
    (member : other ∈ earlier)
    (same : arena.SameSignature other decl) :
    decl ∈ merges.map Prod.fst := by
  induction compared with
  | nil =>
      simp at member
  | overloads _ different _ inductionHypothesis =>
      rcases List.mem_cons.mp member with rfl | member
      · exact absurd same different
      · exact inductionHypothesis member
  | conflicts unsigned _ inductionHypothesis =>
      rcases List.mem_cons.mp member with rfl | member
      · exact absurd unsigned same.not_unsigned
      · exact inductionHypothesis member
  | redefines _ _ defines | takesOver _ _ defines =>
      simp [forward] at defines
  | leaves =>
      simp

/-- Earlier forward declarations leave for a definition of their signature. -/
private theorem leaves_of_definition
    (compared : Compared arena decl earlier causes merges stays)
    (defines : arena.isDefinition decl = true)
    {other : DeclId}
    (member : other ∈ earlier)
    (same : arena.SameSignature other decl)
    (forward : arena.isDefinition other = false) :
    other ∈ merges.map Prod.fst := by
  induction compared with
  | nil =>
      simp at member
  | overloads _ different _ inductionHypothesis =>
      rcases List.mem_cons.mp member with rfl | member
      · exact absurd same different
      · exact inductionHypothesis member
  | conflicts unsigned _ inductionHypothesis =>
      rcases List.mem_cons.mp member with rfl | member
      · exact absurd unsigned same.not_unsigned
      · exact inductionHypothesis member
  | redefines _ otherDefines _ _ inductionHypothesis =>
      rcases List.mem_cons.mp member with rfl | member
      · simp [forward] at otherDefines
      · exact inductionHypothesis member
  | takesOver _ _ _ _ inductionHypothesis =>
      rcases List.mem_cons.mp member with rfl | member
      · simp
      · exact List.mem_cons_of_mem _ (inductionHypothesis member)
  | leaves _ declForward =>
      simp [defines] at declForward

/-- A redefinition is a fault of two definitions of the same signature. -/
private theorem of_redefinition_mem
    (compared : Compared arena decl earlier causes merges stays)
    {other : DeclId}
    (recorded : .redefinition other ∈ causes) :
    other ∈ earlier ∧ arena.SameSignature other decl ∧
      arena.isDefinition other = true ∧
      arena.isDefinition decl = true := by
  induction compared with
  | nil | leaves =>
      simp at recorded
  | overloads _ _ _ inductionHypothesis
  | takesOver _ _ _ _ inductionHypothesis =>
      exact (inductionHypothesis recorded).imp_left (List.mem_cons_of_mem _)
  | conflicts _ _ inductionHypothesis =>
      have inRest := (List.mem_cons.mp recorded).resolve_left (by simp)
      exact (inductionHypothesis inRest).imp_left (List.mem_cons_of_mem _)
  | redefines same otherDefines defines _ inductionHypothesis =>
      rcases List.mem_cons.mp recorded with isNew | recorded
      · obtain rfl := FaultCause.redefinition.inj isNew
        exact ⟨List.mem_cons_self, same, otherDefines, defines⟩
      · exact (inductionHypothesis recorded).imp_left (List.mem_cons_of_mem _)

/-- Two definitions of the same signature are one fault. -/
private theorem count_redefinition
    (compared : Compared arena decl earlier causes merges stays)
    (distinct : earlier.Nodup)
    (defines : arena.isDefinition decl = true)
    {other : DeclId}
    (member : other ∈ earlier)
    (same : arena.SameSignature other decl)
    (otherDefines : arena.isDefinition other = true) :
    causes.count (.redefinition other) = 1 := by
  induction compared with
  | nil =>
      simp at member
  | overloads _ different _ inductionHypothesis =>
      rcases List.mem_cons.mp member with rfl | member
      · exact absurd same different
      · exact inductionHypothesis distinct.of_cons member
  | conflicts unsigned _ inductionHypothesis =>
      rcases List.mem_cons.mp member with rfl | member
      · exact absurd unsigned same.not_unsigned
      · simpa using inductionHypothesis distinct.of_cons member
  | @redefines first _ _ _ _ _ _ _ compared inductionHypothesis =>
      have notRest := (List.nodup_cons.mp distinct).1
      rcases List.mem_cons.mp member with rfl | inRest
      · have notAgain : FaultCause.redefinition other ∉ _ := fun recorded =>
          notRest (compared.of_redefinition_mem recorded).1
        rw [List.count_cons_self, List.count_eq_zero_of_not_mem notAgain]
      · have notFirst : FaultCause.redefinition first ≠
            .redefinition other := by
          rintro ⟨⟩
          exact notRest inRest
        rw [List.count_cons_of_ne notFirst]
        exact inductionHypothesis distinct.of_cons inRest
  | takesOver _ otherForward _ _ inductionHypothesis =>
      rcases List.mem_cons.mp member with rfl | member
      · simp [otherDefines] at otherForward
      · exact inductionHypothesis distinct.of_cons member
  | leaves _ declForward =>
      simp [defines] at declForward

/-- A conflict is a fault of two declarations one of which has no signature. -/
private theorem of_conflict_mem
    (compared : Compared arena decl earlier causes merges stays)
    {other : DeclId}
    (recorded : .conflictingDeclaration other ∈ causes) :
    other ∈ earlier ∧ arena.Unsigned other decl := by
  induction compared with
  | nil | leaves =>
      simp at recorded
  | overloads _ _ _ inductionHypothesis
  | takesOver _ _ _ _ inductionHypothesis =>
      exact (inductionHypothesis recorded).imp_left (List.mem_cons_of_mem _)
  | conflicts unsigned _ inductionHypothesis =>
      rcases List.mem_cons.mp recorded with isNew | recorded
      · obtain rfl := FaultCause.conflictingDeclaration.inj isNew
        exact ⟨List.mem_cons_self, unsigned⟩
      · exact (inductionHypothesis recorded).imp_left (List.mem_cons_of_mem _)
  | redefines _ _ _ _ inductionHypothesis =>
      have inRest := (List.mem_cons.mp recorded).resolve_left (by simp)
      exact (inductionHypothesis inRest).imp_left (List.mem_cons_of_mem _)

/-- The comparisons come to the same whenever they are made. -/
private theorem unique
    {others : List FaultCause}
    {noted : Merges}
    {remains : Bool}
    (compared : Compared arena decl earlier causes merges stays)
    (again : Compared arena decl earlier others noted remains) :
    others = causes ∧ noted = merges ∧ remains = stays := by
  induction compared generalizing others noted remains with
  | nil =>
      cases again
      exact ⟨rfl, rfl, rfl⟩
  | overloads signed different _ inductionHypothesis =>
      cases again with
      | overloads _ _ again => exact inductionHypothesis again
      | conflicts unsigned _ => exact absurd unsigned signed
      | redefines same _ _ _ => exact absurd same different
      | takesOver same _ _ _ => exact absurd same different
      | leaves same _ => exact absurd same different
  | conflicts unsigned _ inductionHypothesis =>
      cases again with
      | overloads signed _ _ => exact absurd unsigned signed
      | conflicts _ again =>
          obtain ⟨rfl, rest⟩ := inductionHypothesis again
          exact ⟨rfl, rest⟩
      | redefines same _ _ _ => exact absurd unsigned same.not_unsigned
      | takesOver same _ _ _ => exact absurd unsigned same.not_unsigned
      | leaves same _ => exact absurd unsigned same.not_unsigned
  | redefines same earlierDefines defines _ inductionHypothesis =>
      cases again with
      | overloads _ different _ => exact absurd same different
      | conflicts unsigned _ => exact absurd unsigned same.not_unsigned
      | redefines _ _ _ again =>
          obtain ⟨rfl, rest⟩ := inductionHypothesis again
          exact ⟨rfl, rest⟩
      | takesOver _ forward _ _ => simp [earlierDefines] at forward
      | leaves _ forward => simp [defines] at forward
  | takesOver same earlierForward defines _ inductionHypothesis =>
      cases again with
      | overloads _ different _ => exact absurd same different
      | conflicts unsigned _ => exact absurd unsigned same.not_unsigned
      | redefines _ earlierDefines _ _ =>
          simp [earlierForward] at earlierDefines
      | takesOver _ _ _ again =>
          obtain ⟨rfl, rfl, rest⟩ := inductionHypothesis again
          exact ⟨rfl, rfl, rest⟩
      | leaves _ forward => simp [defines] at forward
  | leaves same forward =>
      cases again with
      | overloads _ different _ => exact absurd same different
      | conflicts unsigned _ => exact absurd unsigned same.not_unsigned
      | redefines _ _ defines _ => simp [forward] at defines
      | takesOver _ _ defines _ => simp [forward] at defines
      | leaves _ _ => exact ⟨rfl, rfl, rfl⟩

/--
A declaration that stays is in one conflict with each earlier one that it
conflicts with.
-/
private theorem count_conflict
    (compared : Compared arena decl earlier causes merges stays)
    (distinct : earlier.Nodup)
    (stayed : stays = true)
    {other : DeclId}
    (member : other ∈ earlier)
    (unsigned : arena.Unsigned other decl) :
    causes.count (.conflictingDeclaration other) = 1 := by
  induction compared with
  | nil =>
      simp at member
  | overloads signed _ _ inductionHypothesis =>
      rcases List.mem_cons.mp member with rfl | member
      · exact absurd unsigned signed
      · exact inductionHypothesis distinct.of_cons stayed member
  | @conflicts first _ _ _ _ _ compared inductionHypothesis =>
      have notRest := (List.nodup_cons.mp distinct).1
      rcases List.mem_cons.mp member with rfl | inRest
      · have notAgain : FaultCause.conflictingDeclaration other ∉ _ :=
          fun recorded =>
          notRest (compared.of_conflict_mem recorded).1
        rw [List.count_cons_self, List.count_eq_zero_of_not_mem notAgain]
      · have notFirst :
            FaultCause.conflictingDeclaration first ≠
              .conflictingDeclaration other := by
          rintro ⟨⟩
          exact notRest inRest
        rw [List.count_cons_of_ne notFirst]
        exact inductionHypothesis distinct.of_cons stayed inRest
  | redefines same _ _ _ inductionHypothesis =>
      rcases List.mem_cons.mp member with rfl | member
      · exact absurd unsigned same.not_unsigned
      · simpa using inductionHypothesis distinct.of_cons stayed member
  | takesOver same _ _ _ inductionHypothesis =>
      rcases List.mem_cons.mp member with rfl | member
      · exact absurd unsigned same.not_unsigned
      · exact inductionHypothesis distinct.of_cons stayed member
  | leaves =>
      simp at stayed

end Compared

/--
Of items one precedes another if it does so before the last one, or that is the
other one.
-/
private theorem pair_sublist_snoc
    {Item : Type}
    {first second last : Item}
    {items : List Item} :
    [first, second].Sublist (items ++ [last]) ↔
      [first, second].Sublist items ∨ (first ∈ items ∧ second = last) := by
  rw [← List.reverse_sublist, ← @List.reverse_sublist _ _ items,
    List.reverse_append]
  simp [List.sublist_cons_iff, and_comm]

namespace Merging

variable {arena : Arena} {decls alive : List DeclId}
  {faults : List StructuralFault}
    {merges : Merges}

/-- Only declarations compared so far have left. -/
theorem sources_subset
    (merging : Merging arena decls alive faults merges) :
    merges.map Prod.fst ⊆ decls := by
  induction merging with
  | start =>
      simp
  | next before decl compared inductionHypothesis =>
      intro source leaves
      rw [List.map_append] at leaves
      rcases List.mem_append.mp leaves with leaves | leaves
      · exact List.mem_append_left _ (inductionHypothesis leaves)
      · rcases compared.mem_of_mem_sources leaves with member | rfl
        · exact List.mem_append_left _
            (before.alive_sublist.subset (List.mem_of_mem_filter member))
        · simp

/-- Declarations of one arena are merged in one way only. -/
theorem unique
    {living : List DeclId}
    {found : List StructuralFault}
    {noted : Merges}
    (merging : Merging arena decls alive faults merges)
    (again : Merging arena decls living found noted) :
    living = alive ∧ found = faults ∧ noted = merges := by
  induction merging generalizing living found noted with
  | start =>
      generalize none : ([] : List DeclId) = decls at again
      cases again with
      | start => exact ⟨rfl, rfl, rfl⟩
      | next _ _ _ => simp at none
  | @next decls _ _ _ _ _ _ _ decl compared inductionHypothesis =>
      generalize all : decls ++ [decl] = listed at again
      cases again with
      | start => simp at all
      | next before last comparedToo =>
          obtain ⟨rfl, same⟩ := List.append_inj' all rfl
          cases same
          obtain ⟨rfl, rfl, rfl⟩ := inductionHypothesis before
          obtain ⟨rfl, rfl, rfl⟩ := compared.unique comparedToo
          exact ⟨rfl, rfl, rfl⟩

/--
A declaration that is compared next is new, so it is not among those that it is
compared with.
-/
private theorem not_mem_earlier
    (before : Merging arena decls alive faults merges)
    {decl : DeclId}
    (distinct : (decls ++ [decl]).Nodup) :
    decl ∉ decls ∧ decl ∉ alive.filter (arena.SamePlace · decl) := by
  obtain ⟨-, -, apart⟩ := List.nodup_append.mp distinct
  have new : decl ∉ decls := fun member => apart decl member decl (by simp) rfl
  exact ⟨new, fun member =>
    new (before.alive_sublist.subset (List.mem_of_mem_filter member))⟩

/-- Those that a declaration is compared with are distinct. -/
private theorem earlier_nodup
    (before : Merging arena decls alive faults merges)
    {decl : DeclId}
    (distinct : (decls ++ [decl]).Nodup) :
    (alive.filter (arena.SamePlace · decl)).Nodup :=
  (before.alive_sublist.nodup distinct.of_append_left).filter _

/-- The declarations alive are those that have not left. -/
theorem mem_alive_iff
    (merging : Merging arena decls alive faults merges)
    (distinct : decls.Nodup)
    (other : DeclId) :
    other ∈ alive ↔ other ∈ decls ∧ other ∉ merges.map Prod.fst := by
  induction merging with
  | start =>
      simp
  | @next decls alive _ merges newMerges _ stays before decl compared
      inductionHypothesis =>
      have distinctBefore := distinct.of_append_left
      obtain ⟨new, notEarlier⟩ := before.not_mem_earlier distinct
      have stays_iff := compared.stays_iff notEarlier
      have aliveBefore := inductionHypothesis distinctBefore
      have neverLeft : decl ∉ merges.map Prod.fst :=
        fun leaves => new (before.sources_subset leaves)
      have newcomer : (other ∈ if stays = true then [decl] else []) ↔
          stays = true ∧ other = decl := by
        cases stays <;> simp
      rw [List.mem_append, List.mem_filter, aliveBefore, newcomer, stays_iff,
        List.map_append]
      by_cases same : other = decl
      · subst same
        simp [new, neverLeft]
      · simp [same, and_assoc]

/-- Nobody leaves twice. -/
theorem sources_nodup
    (merging : Merging arena decls alive faults merges)
    (distinct : decls.Nodup) :
    (merges.map Prod.fst).Nodup := by
  induction merging with
  | start =>
      simp
  | @next decls alive _ merges newMerges _ _ before decl compared
      inductionHypothesis =>
      have distinctBefore := distinct.of_append_left
      obtain ⟨new, notEarlier⟩ := before.not_mem_earlier distinct
      have newNodup :=
        compared.sources_nodup (before.earlier_nodup distinct) notEarlier
      rw [List.map_append]
      refine List.nodup_append.mpr
        ⟨inductionHypothesis distinctBefore, newNodup, ?_⟩
      rintro source left _ leaves rfl
      rcases compared.mem_of_mem_sources leaves with member | rfl
      · have stillAlive := List.mem_of_mem_filter member
        exact ((before.mem_alive_iff distinctBefore source).mp stillAlive).2
          left
      · exact new (before.sources_subset left)

/-- A forward declaration leaves for a declaration of its own group. -/
theorem noted
    (merging : Merging arena decls alive faults merges)
    {source target : DeclId}
    (noted : (source, target) ∈ merges) :
    target ∈ decls ∧ arena.SameGroup source target ∧ arena.isDefinition source =
      false := by
  induction merging with
  | start =>
      simp at noted
  | next before decl compared inductionHypothesis =>
      rcases List.mem_append.mp noted with noted | noted
      · exact (inductionHypothesis noted).imp_left (List.mem_append_left _)
      · rcases compared.merge_cases noted with
          ⟨member, rfl, same, forward, -⟩ | ⟨rfl, member, same, forward, -⟩
        · obtain ⟨-, samePlace⟩ := List.mem_filter.mp member
          exact ⟨by simp, ⟨of_decide_eq_true samePlace, same⟩, forward⟩
        · obtain ⟨stillAlive, samePlace⟩ := List.mem_filter.mp member
          exact
            ⟨List.mem_append_left _ (before.alive_sublist.subset stillAlive),
              ⟨(of_decide_eq_true samePlace).symm, same.symm⟩, forward⟩

/-- From a declaration that has left the notes lead to one that is alive. -/
theorem leads_to_alive
    (merging : Merging arena decls alive faults merges)
    (distinct : decls.Nodup)
    {source : DeclId}
    (left : source ∈ merges.map Prod.fst) :
    ∃ survivor ∈ alive,
      Relation.TransGen (fun former latter => (former, latter) ∈ merges) source
        survivor := by
  induction merging with
  | start =>
      simp at left
  | @next decls alive _ merges newMerges _ _ before decl compared
      inductionHypothesis =>
      have after := before.next decl compared
      have distinctBefore := distinct.of_append_left
      obtain ⟨new, notEarlier⟩ := before.not_mem_earlier distinct
      have targetAlive {former latter : DeclId}
          (noted : (former, latter) ∈ newMerges) :
          latter ∈ decls ++ [decl] ∧
            latter ∉ (merges ++ newMerges).map Prod.fst := by
        have notLeaving := compared.target_not_mem_sources notEarlier noted
        simp only [List.map_append, List.mem_append, not_or]
        rcases compared.merge_cases noted with ⟨-, rfl, -⟩ | ⟨-, member, -⟩
        · exact ⟨by simp, fun leaves => new (before.sources_subset leaves),
            notLeaving⟩
        · have wasAlive := (before.mem_alive_iff distinctBefore latter).mp
            (List.mem_of_mem_filter member)
          exact ⟨.inl wasAlive.1, wasAlive.2, notLeaving⟩
      have aliveAfter (other : DeclId) := after.mem_alive_iff distinct other
      rw [List.map_append] at left
      rcases List.mem_append.mp left with left | leaves
      · obtain ⟨survivor, wasAlive, path⟩ :=
          inductionHypothesis distinctBefore left
        have longer := Relation.TransGen.mono
          (fun _ _ noted => List.mem_append_left newMerges noted) source
            survivor path
        by_cases leaves : survivor ∈ newMerges.map Prod.fst
        · obtain ⟨⟨_, latter⟩, noted, rfl⟩ := List.mem_map.mp leaves
          exact ⟨latter, (aliveAfter latter).mpr (targetAlive noted),
            longer.tail (List.mem_append_right _ noted)⟩
        · have still :=
            (before.mem_alive_iff distinctBefore survivor).mp wasAlive
          refine ⟨survivor, (aliveAfter survivor).mpr
            ⟨List.mem_append_left _ still.1, ?_⟩, longer⟩
          rw [List.map_append, List.mem_append, not_or]
          exact ⟨still.2, leaves⟩
      · obtain ⟨⟨_, latter⟩, noted, rfl⟩ := List.mem_map.mp leaves
        exact ⟨latter, (aliveAfter latter).mpr (targetAlive noted),
          .single (List.mem_append_right _ noted)⟩

/-- The notes lead from a declaration to others of its group. -/
private theorem sameGroup_of_path
    (merging : Merging arena decls alive faults merges)
    {source target : DeclId}
    (path : Relation.TransGen (fun former latter => (former, latter) ∈ merges)
      source target) :
    arena.SameGroup source target := by
  induction path with
  | single noted => exact (merging.noted noted).2.1
  | tail _ noted inductionHypothesis =>
      exact inductionHypothesis.trans (merging.noted noted).2.1

/-- Of every group some declaration is alive. -/
private theorem exists_alive
    (merging : Merging arena decls alive faults merges)
    (distinct : decls.Nodup)
    {decl : DeclId}
    (member : decl ∈ decls)
    (signed : arena.SameSignature decl decl) :
    ∃ survivor ∈ alive, arena.SameGroup decl survivor := by
  by_cases left : decl ∈ merges.map Prod.fst
  · obtain ⟨survivor, isAlive, path⟩ := merging.leads_to_alive distinct left
    exact ⟨survivor, isAlive, merging.sameGroup_of_path path⟩
  · exact ⟨decl, (merging.mem_alive_iff distinct decl).mpr ⟨member, left⟩,
      ⟨rfl, rfl⟩, signed⟩

/--
A forward declaration has left exactly if its group has a definition, or a
declaration before it.
-/
private theorem mem_sources_iff
    (merging : Merging arena decls alive faults merges)
    (distinct : decls.Nodup)
    (source : DeclId) :
    source ∈ merges.map Prod.fst ↔
      source ∈ decls ∧ arena.isDefinition source = false ∧
        ((∃ other ∈ decls, arena.SameGroup other source ∧
          arena.isDefinition other = true) ∨
          ∃ other, [other, source].Sublist decls ∧
            arena.SameGroup other source) := by
  induction merging with
  | start =>
      simp
  | @next decls alive _ merges newMerges _ _ before decl compared
      inductionHypothesis =>
      have distinctBefore := distinct.of_append_left
      obtain ⟨new, notEarlier⟩ := before.not_mem_earlier distinct
      have leftBefore := inductionHypothesis distinctBefore
      rw [List.map_append, List.mem_append]
      constructor
      · rintro (left | leaves)
        · obtain ⟨member, forward, reason⟩ := leftBefore.mp left
          refine ⟨List.mem_append_left _ member, forward, ?_⟩
          rcases reason with ⟨other, otherMember, rest⟩ |
              ⟨other, precedes, same⟩
          · exact .inl ⟨other, List.mem_append_left _ otherMember, rest⟩
          · exact .inr ⟨other, precedes.trans (List.sublist_append_left _ _),
              same⟩
        · obtain ⟨⟨_, target⟩, noted, rfl⟩ := List.mem_map.mp leaves
          rcases compared.merge_cases noted with
            ⟨member, rfl, same, forward, defines⟩ | ⟨rfl, member, same,
              forward, -⟩
          · obtain ⟨isAlive, samePlace⟩ := List.mem_filter.mp member
            have sameGroup := And.intro (of_decide_eq_true samePlace) same
            exact ⟨List.mem_append_left _ (before.alive_sublist.subset isAlive),
              forward,
              .inl ⟨target, by simp, Arena.SameGroup.symm sameGroup, defines⟩⟩
          · obtain ⟨isAlive, samePlace⟩ := List.mem_filter.mp member
            exact ⟨by simp, forward,
              .inr ⟨target,
                pair_sublist_snoc.mpr
                  (.inr ⟨before.alive_sublist.subset isAlive, rfl⟩),
                of_decide_eq_true samePlace, same⟩⟩
      · rintro ⟨member, forward, reason⟩
        by_cases isNew : source = decl
        · subst isNew
          have met : ∃ other ∈ decls, arena.SameGroup other source := by
            rcases reason with ⟨other, otherMember, same, defines⟩ |
                ⟨other, precedes, same⟩
            · have notNew : other ≠ source := by
                rintro rfl
                simp [forward] at defines
              exact ⟨other, by simpa [notNew] using otherMember, same⟩
            · rcases pair_sublist_snoc.mp precedes with precedes |
                  ⟨otherMember, -⟩
              · exact absurd (precedes.subset (by simp)) new
              · exact ⟨other, otherMember, same⟩
          obtain ⟨other, otherMember, same⟩ := met
          have otherSigned : arena.SameSignature other other :=
            same.2.trans same.2.symm
          obtain ⟨survivor, isAlive, sameGroup⟩ :=
            before.exists_alive distinctBefore otherMember otherSigned
          have together := sameGroup.symm.trans same
          have isEarlier : survivor ∈ alive.filter (arena.SamePlace · source) :=
            List.mem_filter.mpr ⟨isAlive, decide_eq_true together.1⟩
          exact .inr (compared.leaves_of_forward forward isEarlier together.2)
        · have memberBefore : source ∈ decls := by
            simpa [isNew] using member
          by_cases left : source ∈ merges.map Prod.fst
          · exact .inl left
          have isAlive : source ∈ alive :=
            (before.mem_alive_iff distinctBefore source).mpr
              ⟨memberBefore, left⟩
          rcases reason with ⟨other, otherMember, same, defines⟩ |
              ⟨other, precedes, same⟩
          · rcases List.mem_append.mp otherMember with otherMember | isDecl
            · exact .inl (leftBefore.mpr
                ⟨memberBefore, forward,
                  .inl ⟨other, otherMember, same, defines⟩⟩)
            · obtain rfl := List.mem_singleton.mp isDecl
              have isEarlier :
                  source ∈ alive.filter (arena.SamePlace · other) :=
                List.mem_filter.mpr ⟨isAlive, decide_eq_true same.1.symm⟩
              exact .inr (compared.leaves_of_definition defines isEarlier
                same.2.symm forward)
          · rcases pair_sublist_snoc.mp precedes with precedes | ⟨-, isDecl⟩
            · exact .inl (leftBefore.mpr
                ⟨memberBefore, forward, .inr ⟨other, precedes, same⟩⟩)
            · exact absurd isDecl isNew

/-- Of a group with a definition exactly the definitions have not left. -/
theorem not_mem_sources_iff_definition
    (merging : Merging arena decls alive faults merges)
    (distinct : decls.Nodup)
    {decl definition : DeclId}
    (member : decl ∈ decls)
    (isAmong : definition ∈ decls)
    (same : arena.SameGroup definition decl)
    (defines : arena.isDefinition definition = true) :
    decl ∉ merges.map Prod.fst ↔ arena.isDefinition decl = true := by
  rw [merging.mem_sources_iff distinct]
  constructor
  · intro stays
    by_contra forward
    exact stays ⟨member, by simpa using forward,
      .inl ⟨definition, isAmong, same, defines⟩⟩
  · rintro declDefines ⟨-, forward, -⟩
    simp [declDefines] at forward

/--
Of a group without a definition exactly the first declaration has not left.
-/
theorem not_mem_sources_iff_first
    (merging : Merging arena decls alive faults merges)
    (distinct : decls.Nodup)
    {decl : DeclId}
    (member : decl ∈ decls)
    (signed : arena.SameSignature decl decl)
    (allForward : ∀ other ∈ decls, arena.SameGroup other decl →
      arena.isDefinition other = false) :
    decl ∉ merges.map Prod.fst ↔
      ¬ ∃ other, [other, decl].Sublist decls ∧ arena.SameGroup other decl := by
  rw [merging.mem_sources_iff distinct]
  have forward := allForward decl member ⟨⟨rfl, rfl⟩, signed⟩
  refine not_congr ⟨?_, fun second => ⟨member, forward, .inr second⟩⟩
  rintro ⟨-, -, ⟨other, isAmong, same, defines⟩ | second⟩
  · simp [allForward other isAmong same] at defines
  · exact second

/-- Definitions and declarations without a signature stay alive. -/
theorem alive_of_stays
    (merging : Merging arena decls alive faults merges)
    (distinct : decls.Nodup)
    {decl : DeclId}
    (member : decl ∈ decls)
    (stays : arena.isDefinition decl = true ∨ arena.indexedSignature? decl =
      none) :
    decl ∈ alive := by
  refine (merging.mem_alive_iff distinct decl).mpr ⟨member, fun left => ?_⟩
  obtain ⟨⟨_, target⟩, noted, rfl⟩ := List.mem_map.mp left
  obtain ⟨-, ⟨-, -, signed⟩, forward⟩ := merging.noted noted
  rcases stays with defines | unsigned
  · simp [forward] at defines
  · simp [unsigned] at signed

/-- Only declarations compared so far have faults. -/
private theorem fault_mem
    (merging : Merging arena decls alive faults merges)
    {fault : StructuralFault}
    (recorded : fault ∈ faults) :
    fault.decl ∈ decls := by
  induction merging with
  | start =>
      simp at recorded
  | next before decl compared inductionHypothesis =>
      rcases List.mem_append.mp recorded with recorded | recorded
      · exact List.mem_append_left _ (inductionHypothesis recorded)
      · obtain ⟨cause, -, rfl⟩ := List.mem_map.mp recorded
        simp [Arena.faultOf]

/-- A redefinition is a fault of two definitions of one group, in order. -/
theorem of_redefinition
    (merging : Merging arena decls alive faults merges)
    {fault : StructuralFault}
    (recorded : fault ∈ faults)
    {previous : DeclId}
    (cause : fault.cause = .redefinition previous) :
    [previous, fault.decl].Sublist decls ∧ arena.SameGroup previous fault.decl ∧
      arena.isDefinition previous = true ∧ arena.isDefinition fault.decl =
        true := by
  induction merging with
  | start =>
      simp at recorded
  | next before decl compared inductionHypothesis =>
      rcases List.mem_append.mp recorded with recorded | recorded
      · obtain ⟨precedes, rest⟩ := inductionHypothesis recorded
        exact ⟨precedes.trans (List.sublist_append_left _ _), rest⟩
      · obtain ⟨_, caused, rfl⟩ := List.mem_map.mp recorded
        obtain rfl : _ = FaultCause.redefinition previous := cause
        obtain ⟨member, same, defines⟩ := compared.of_redefinition_mem caused
        obtain ⟨isAlive, samePlace⟩ := List.mem_filter.mp member
        exact
          ⟨pair_sublist_snoc.mpr
            (.inr ⟨before.alive_sublist.subset isAlive, rfl⟩),
            ⟨of_decide_eq_true samePlace, same⟩, defines⟩

/-- The faults of a declaration with a cause. -/
def faultsOn
    (faults : List StructuralFault)
    (decl : DeclId)
    (cause : FaultCause) :
    List StructuralFault :=
  faults.filter fun fault => fault.decl = decl ∧ fault.cause = cause

/-- Faults of one declaration with a cause are as many as the cause occurs. -/
private theorem length_faultsOn_map
    (arena : Arena)
    (decl : DeclId)
    (causes : List FaultCause)
    (cause : FaultCause) :
    (faultsOn (causes.map (arena.faultOf decl)) decl cause).length =
      causes.count cause := by
  induction causes with
  | nil =>
      rfl
  | cons first rest inductionHypothesis =>
      by_cases same : first = cause
      · subst same
        simpa [faultsOn, Arena.faultOf] using! inductionHypothesis
      · simpa [faultsOn, Arena.faultOf, same] using! inductionHypothesis

/-- There are no faults of a declaration among those of others. -/
private theorem faultsOn_eq_nil
    {decl : DeclId}
    (others : ∀ fault ∈ faults, fault.decl ≠ decl)
    (cause : FaultCause) :
    faultsOn faults decl cause = [] := by
  simp only [faultsOn, List.filter_eq_nil_iff, decide_eq_true_eq, not_and]
  exact fun fault recorded isDecl => absurd isDecl (others fault recorded)

/--
The faults on the last declaration compared are those of its own comparisons.
-/
private theorem length_faultsOn_last
    (before : Merging arena decls alive faults merges)
    {decl : DeclId}
    (new : decl ∉ decls)
    (causes : List FaultCause)
    (cause : FaultCause) :
    (faultsOn (faults ++ causes.map (arena.faultOf decl)) decl cause).length =
      causes.count cause := by
  have none : faultsOn faults decl cause = [] := by
    refine faultsOn_eq_nil (fun fault recorded isDecl => new ?_) cause
    rw [← isDecl]
    exact before.fault_mem recorded
  rw [← length_faultsOn_map arena decl causes cause]
  simp only [faultsOn] at none ⊢
  rw [List.filter_append, none, List.nil_append]

/--
The comparisons of another declaration add nothing to the faults on a
declaration.
-/
private theorem faultsOn_append_other
    {decl other : DeclId}
    (different : decl ≠ other)
    (causes : List FaultCause)
    (cause : FaultCause) :
    faultsOn (faults ++ causes.map (arena.faultOf decl)) other cause =
      faultsOn faults other cause := by
  have none : faultsOn (causes.map (arena.faultOf decl)) other cause = [] := by
    refine faultsOn_eq_nil (fun fault recorded => ?_) cause
    obtain ⟨_, -, rfl⟩ := List.mem_map.mp recorded
    exact different
  simp only [faultsOn] at none ⊢
  rw [List.filter_append, none, List.append_nil]

/--
Two definitions of one group are one fault of the later, naming the earlier.
-/
theorem length_faultsOn_redefinition
    (merging : Merging arena decls alive faults merges)
    (distinct : decls.Nodup)
    {earlier later : DeclId}
    (precedes : [earlier, later].Sublist decls)
    (same : arena.SameGroup earlier later)
    (earlierDefines : arena.isDefinition earlier = true)
    (laterDefines : arena.isDefinition later = true) :
    (faultsOn faults later (.redefinition earlier)).length = 1 := by
  induction merging with
  | start =>
      simp at precedes
  | @next decls alive _ _ _ causes _ before decl compared inductionHypothesis =>
      have distinctBefore := distinct.of_append_left
      obtain ⟨new, -⟩ := before.not_mem_earlier distinct
      rcases pair_sublist_snoc.mp precedes with precedes | ⟨member, rfl⟩
      · have notNew : decl ≠ later := by
          rintro rfl
          exact new (precedes.subset (by simp))
        rw [faultsOn_append_other notNew]
        exact inductionHypothesis distinctBefore precedes
      · have isAlive :=
          before.alive_of_stays distinctBefore member (.inl earlierDefines)
        have isEarlier : earlier ∈ alive.filter (arena.SamePlace · later) :=
          List.mem_filter.mpr ⟨isAlive, decide_eq_true same.1⟩
        rw [before.length_faultsOn_last new]
        exact compared.count_redefinition (before.earlier_nodup distinct)
          laterDefines isEarlier
          same.2 earlierDefines

/--
Two declarations left of one scope and key, one without a signature, are one
fault.
-/
theorem length_faultsOn_conflict
    (merging : Merging arena decls alive faults merges)
    (distinct : decls.Nodup)
    {earlier later : DeclId}
    (precedes : [earlier, later].Sublist decls)
    (earlierStays : earlier ∉ merges.map Prod.fst)
    (laterStays : later ∉ merges.map Prod.fst)
    (samePlace : arena.SamePlace earlier later)
    (unsigned : arena.Unsigned earlier later) :
    (faultsOn faults later (.conflictingDeclaration earlier)).length = 1 := by
  induction merging with
  | start =>
      simp at precedes
  | @next decls alive _ _ newMerges causes _ before decl compared
      inductionHypothesis =>
      have distinctBefore := distinct.of_append_left
      obtain ⟨new, notEarlier⟩ := before.not_mem_earlier distinct
      rw [List.map_append, List.mem_append, not_or] at earlierStays laterStays
      rcases pair_sublist_snoc.mp precedes with precedes | ⟨member, rfl⟩
      · have notNew : decl ≠ later := by
          rintro rfl
          exact new (precedes.subset (by simp))
        rw [faultsOn_append_other notNew]
        exact inductionHypothesis distinctBefore precedes earlierStays.1
          laterStays.1
      · have isAlive :=
          (before.mem_alive_iff distinctBefore earlier).mpr
            ⟨member, earlierStays.1⟩
        have isEarlier : earlier ∈ alive.filter (arena.SamePlace · later) :=
          List.mem_filter.mpr ⟨isAlive, decide_eq_true samePlace⟩
        rw [before.length_faultsOn_last new]
        exact compared.count_conflict (before.earlier_nodup distinct)
          ((compared.stays_iff notEarlier).mpr laterStays.2) isEarlier unsigned

end Merging

end Tern
