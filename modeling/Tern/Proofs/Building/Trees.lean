import Tern.Proofs.Building.Distinction
import Tern.Proofs.Term.Trails

namespace Tern

/-!
# Trees of whole terms

On a sound worksite what a whole term owns is whole, and what a whole unit owns
is a tree. A declaration that waits for its form stores no slot yet.
-/

/-- A form that is hollow stores no slot that is known. -/
private theorem DeclForm.isValid_of_mem_hollow
    {form : DeclForm}
    {term : Term}
    (owned : term ∈ form.hollow.children) :
    term.isValid = false := by
  have missing {space : Space} : (Slot.invalid : Slot space).isValid = false :=
    rfl
  cases form <;>
    simp only [DeclForm.hollow, DeclForm.children, List.map_nil,
      List.nil_append,
    Option.toList_none, List.mem_cons, List.not_mem_nil, or_false] at owned
  case object => rcases owned with rfl | rfl <;> exact missing
  case callable => rcases owned with rfl | rfl <;> exact missing
  case classType => rcases owned with rfl | rfl <;> exact missing
  all_goals exact owned ▸ missing

namespace Worksite

variable {site : Worksite} (sound : site.Sound)

include sound

/-- A whole declaration has a name with a key of its own. -/
theorem Sound.keyed_of_whole {decl : DeclId} (whole : site.Whole (.decl decl)) :
    ∃ key, site.Keyed decl key :=
  sound.christened decl whole.1 fun ⟨scope, place, unnamed⟩ =>
    whole.2 decl rfl (sound.unnamed decl scope place unnamed).1

/-- What a whole term owns is whole. -/
theorem Sound.whole_child
    {owner term : Term}
    (whole : site.Whole owner)
    (owned : term ∈ site.arena.children owner) :
    site.Whole term := by
  rcases Arena.mem_children_iff.mp owned with part | ⟨decl, rfl, rfl⟩
  · exact (sound.forest.below whole part).1
  · obtain ⟨key, keyed⟩ := sound.keyed_of_whole whole
    exact ⟨keyed.name, nofun⟩

theorem Sound.whole_of_owns
    {root term : Term}
    (whole : site.Whole root)
    (reached : site.arena.Owns root term) :
    site.Whole term := by
  induction reached with
  | self => exact whole
  | child _ owned inductionHypothesis =>
      exact sound.whole_child inductionHypothesis owned

/-- Nothing owns a term at hand, so nothing that the term owns does. -/
theorem Sound.unowned_of_loose
    {term owner : Term}
    (loose : .term term ∈ site.stock)
    (inline : ∀ name, .name name ≠ term)
    (reached : site.arena.Owns term owner) :
    term ∉ site.arena.children owner := by
  obtain ⟨whole, -, unowned⟩ := sound.forest.loose loose
  intro owned
  rcases Arena.mem_children_iff.mp owned with part | ⟨decl, -, same⟩
  · exact unowned owner (sound.whole_of_owns whole reached) part
  · exact inline _ same.symm

/-- What is referred to has a name with a key of its own. -/
private theorem Sound.keyed_of_referred
    {term : Term}
    {decl : DeclId}
    (held : site.arena.Holds term)
    (referred : decl ∈ site.arena.referred term) :
    ∃ key, site.Keyed decl key := by
  rcases List.mem_append.mp referred with listed | applied
  · obtain ⟨mention, mentioned, rfl⟩ := List.mem_map.mp listed
    obtain ⟨key, -, keyed⟩ := (sound.fit term held).mentions mention mentioned
    exact ⟨key, keyed⟩
  · exact (sound.fit term held).template decl (Option.mem_toList.mp applied)

/-- A slot that is stored holds a term, or it is not known yet. -/
theorem Sound.holds_of_stored
    {term other : Term}
    (held : site.arena.Holds term)
    (stored : other ∈ site.arena.stored term) :
    other.isValid = false ∨ site.arena.Holds other := by
  rcases List.mem_append.mp stored with owned | referred
  · by_cases whole : site.Whole term
    · exact .inr (sound.whole_child whole owned).1
    · obtain ⟨decl, rfl, begun⟩ : ∃ decl, term = .decl decl ∧
          site.Begun decl := by
        simpa [Whole, held] using whole
      rcases Arena.mem_children_iff.mp owned with part | ⟨_, same, rfl⟩
      · have hollow := (sound.begun decl begun).2
        rw [Arena.parts, ← hollow] at part
        exact .inl (DeclForm.isValid_of_mem_hollow part)
      · obtain rfl := Term.decl.inj same
        by_cases unnamed : site.Unnamed decl
        · obtain ⟨scope, place, listed⟩ := unnamed
          rw [(sound.unnamed decl scope place listed).2.1]
          exact .inl rfl
        · obtain ⟨key, keyed⟩ := sound.christened decl held unnamed
          exact .inr keyed.name
  · obtain ⟨decl, listed, rfl⟩ := List.mem_map.mp referred
    obtain ⟨key, keyed⟩ := sound.keyed_of_referred held listed
    exact .inr keyed.held

/-- A whole unit is the root of what it owns. -/
theorem Sound.rooted
    {unit : StmtId}
    (held : site.arena.Holds (.stmt unit))
    (root : site.arena.isUnit (.stmt unit) = true) :
    site.arena.Rooted (.stmt unit) := by
  have whole {term : Term} (reached : site.arena.Owns (.stmt unit) term) :
      site.Whole term :=
    sound.whole_of_owns ⟨held, fun _ => Term.noConfusion⟩ reached
  have plain {decl : DeclId} {key : Key} (keyed : site.Keyed decl key) :
      (site.arena.name (site.arena.decl decl).name).form.template? = none := by
    have key := keyed.key
    cases form : (site.arena.name (site.arena.decl decl).name).form <;>
      simp_all [NameForm.key?, NameForm.template?]
  exact
    { held := fun reached => (whole reached).1
      stored := fun reached other stored => by
        rcases List.mem_append.mp stored with owned | referred
        · exact (sound.whole_child (whole reached) owned).1
        · obtain ⟨decl, listed, rfl⟩ := List.mem_map.mp referred
          obtain ⟨key, keyed⟩ :=
            sound.keyed_of_referred (whole reached).1 listed
          exact keyed.held
      plain := fun {owner decl} reached which => by
        rcases which with rfl | referred
        · obtain ⟨key, keyed⟩ := sound.keyed_of_whole (whole reached)
          exact plain keyed
        · obtain ⟨key, keyed⟩ :=
            sound.keyed_of_referred (whole reached).1 referred
          exact plain keyed
      top := ⟨fun _ => Term.noConfusion, fun reached owned =>
        (sound.forest.below (whole reached) owned).2 root⟩
      nodup := fun reached => sound.forest.nodup (whole reached)
      single :=
        fun reached also => sound.forest.single (whole reached) (whole also) }

end Worksite

end Tern
