import Mathlib.Data.List.Nodup
import Mathlib.Data.List.Perm.Subperm
import Mathlib.Logic.Relation
import Tern.Proofs.Term.Trails

namespace Tern

/-!
# How far down a way leads

Terms lead to others: to those that they own, or to those that their written
forms show. Where that comes to an end and passes stored terms only, no way down
is longer than the arena, for no term on it is passed twice.
-/

namespace Term

variable {next : Term → List Term} {term : Term}

/-- No term that a term leads to is as many steps away as a depth says. -/
def Within (next : Term → List Term) : Nat → Term → Prop
  | 0, _ => False
  | depth + 1, term => ∀ follower ∈ next term, Within next depth follower

instance decidableWithin (next : Term → List Term) :
    (depth : Nat) → (term : Term) → Decidable (Within next depth term)
  | 0, _ => .isFalse id
  | depth + 1, term =>
      have := decidableWithin next depth
      inferInstanceAs
        (Decidable (∀ follower ∈ next term, Within next depth follower))

theorem Within.ends {depth : Nat} (within : Within next depth term) :
    Acc (fun follower term => follower ∈ next term) term := by
  induction depth generalizing term with
  | zero => exact within.elim
  | succ depth inductionHypothesis =>
      exact ⟨_, fun follower step => inductionHypothesis (within follower step)⟩

/-- A term leads to another one in one step or more. -/
def Leads (next : Term → List Term) : Term → Term → Prop :=
  Relation.TransGen fun term follower => follower ∈ next term

/-- Where every way comes to an end, none comes back. -/
private theorem not_leads_self
    (ends : Acc (fun follower term => follower ∈ next term) term) :
    ¬ Leads next term term := by
  induction ends with
  | intro term _ inductionHypothesis =>
      intro around
      obtain ⟨follower, step, onward⟩ := Relation.TransGen.head'_iff.mp around
      exact inductionHypothesis follower step (.tail' onward step)

/--
With different terms passed before, none of which leads back to itself, a term
leads no farther than there are others that lead on.
-/
private theorem within_of_passed
    {stored : Term → Prop}
    {bound : Nat}
    (few : ∀ passed : List Term, passed.Nodup →
      (∀ earlier ∈ passed, stored earlier) → passed.length ≤ bound)
    (ends : Acc (fun follower term => follower ∈ next term) term)
    (held : ∀ other, Relation.ReflTransGen
      (fun term follower => follower ∈ next term) term other →
      next other ≠ [] → stored other)
    (passed : List Term)
    (distinct : passed.Nodup)
    (leading : ∀ earlier ∈ passed, stored earlier ∧ Leads next earlier term)
    (loops : ∀ earlier ∈ passed, ¬ Leads next earlier earlier) :
    Within next (bound + 1 - passed.length) term := by
  induction ends generalizing passed with
  | intro term below inductionHypothesis =>
      have room : passed.length ≤ bound :=
        few passed distinct fun earlier listed => (leading earlier listed).1
      obtain ⟨depth, left⟩ : ∃ depth, bound + 1 - passed.length = depth + 1 :=
        Nat.exists_eq_add_of_le' (by omega)
      rw [left]
      intro follower step
      have here : stored term := held term .refl (List.ne_nil_of_mem step)
      have new : term ∉ passed :=
        fun listed => loops term listed (leading term listed).2
      have same : depth = bound + 1 - (term :: passed).length := by
        rw [List.length_cons]
        omega
      rw [same]
      refine inductionHypothesis follower step
        (fun other onward => held other (.head step onward))
        (term :: passed) (List.nodup_cons.mpr ⟨new, distinct⟩) ?_ ?_
      · exact List.forall_mem_cons.mpr
          ⟨⟨here, .single step⟩, fun earlier listed =>
            ⟨(leading earlier listed).1, (leading earlier listed).2.tail step⟩⟩
      · exact List.forall_mem_cons.mpr ⟨not_leads_self ⟨_, below⟩, loops⟩

/-- No way down from a term is longer than there are terms on it. -/
private theorem within_of_few
    {stored : Term → Prop}
    {bound : Nat}
    (few : ∀ passed : List Term, passed.Nodup →
      (∀ earlier ∈ passed, stored earlier) → passed.length ≤ bound)
    (ends : Acc (fun follower term => follower ∈ next term) term)
    (held : ∀ other, Relation.ReflTransGen
      (fun term follower => follower ∈ next term) term other →
      next other ≠ [] → stored other) :
    Within next (bound + 1) term :=
  within_of_passed few ends held [] List.nodup_nil (List.forall_mem_nil _)
    (List.forall_mem_nil _)

/-- No way down from a term is longer than the arena. -/
theorem within_termCount
    {arena : Arena}
    (ends : Acc (fun follower term => follower ∈ next term) term)
    (held : ∀ other, Relation.ReflTransGen
      (fun term follower => follower ∈ next term) term other →
      next other ≠ [] → arena.Holds other) :
    Within next (arena.termCount + 1) term :=
  within_of_few (fun _ => Arena.length_le_termCount) ends held

/--
No way down through the slots of one family, below some number, is longer than
that number.
-/
theorem within_of_slots
    {space : Space}
    {bound : Nat}
    (make : Slot space → Term)
    (ends : Acc (fun follower term => follower ∈ next term) term)
    (slots : ∀ other, next other ≠ [] → ∃ slot, make slot = other ∧
      slot.raw < bound) :
    Within next (bound + 1) term := by
  refine within_of_few (fun passed distinct inside => ?_) ends
    fun other _ => slots other
  have listed : ∀ earlier ∈ passed, earlier ∈ (List.range bound).map
      fun number => make ⟨number⟩ := by
    intro earlier isPassed
    obtain ⟨slot, rfl, below⟩ := inside earlier isPassed
    exact List.mem_map.mpr ⟨slot.raw, List.mem_range.mpr below, rfl⟩
  simpa using (List.subperm_of_subset distinct listed).length_le

end Term

end Tern
