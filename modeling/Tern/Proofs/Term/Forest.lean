import Mathlib.Data.List.Nodup
import Mathlib.Data.List.Pairwise
import Tern.Proofs.Term.Reading

namespace Tern

/-!
# Forests of terms

Every term is owned by at most one other term. The name of a declaration is the
exception: a template shares it with what it is around. So the parts of a
declaration are what it owns besides its name, and the parts of any other term
are all that it owns.

Terms change hands one slot at a time. A slot takes terms that nothing owns, or
that it owned before, and gives others up.
-/

/-- The terms that are owned by a term alone. -/
def Arena.parts (arena : Arena) : Term → List Term
  | .decl id => (arena.decl id).form.children
  | term => arena.children term

/-- What a term owns is the name of a declaration or a part of the term. -/
theorem Arena.mem_children_iff {arena : Arena} {owner term : Term} :
    term ∈ arena.children owner ↔
      term ∈ arena.parts owner ∨
        ∃ decl, owner = .decl decl ∧ term = .name (arena.decl decl).name := by
  cases owner <;> simp [children, parts, or_comm]

/-- A term that reads the same has the same parts. -/
theorem Arena.Reads.parts
    {older newer : Arena}
    {term : Term}
    (reads : older.Reads newer term) :
    newer.parts term = older.parts term := by
  cases term with
  | decl id => simp only [Reads] at reads; simp only [Arena.parts, reads]
  | _ => exact reads.children

/--
Terms that are whole own their parts alone. Some whole terms are roots and some
are loose; neither are owned.
-/
structure Forest (whole root loose : Term → Prop) (parts : Term → List Term) :
    Prop where
  below : ∀ {owner part : Term}, whole owner → part ∈ parts owner → whole part ∧
    ¬ root part
  nodup : ∀ {owner : Term}, whole owner → (parts owner).Nodup
  single : ∀ {owner other part : Term}, whole owner → whole other →
    part ∈ parts owner →
    part ∈ parts other → owner = other
  loose : ∀ {term : Term}, loose term →
    whole term ∧ ¬ root term ∧ ∀ owner, whole owner → term ∉ parts owner

namespace Forest

variable {whole wholeNow root rootNow loose looseNow : Term → Prop}
  {parts partsNow : Term → List Term}

/--
A forest whose whole terms have the same parts is the same one; fewer terms may
be loose.
-/
theorem congr
    (forest : Forest whole root loose parts)
    (wholes : ∀ term, wholeNow term ↔ whole term)
    (roots : ∀ term, rootNow term → root term)
    (same : ∀ term, whole term → partsNow term = parts term)
    (fewer : ∀ term, looseNow term → loose term) :
    Forest wholeNow rootNow looseNow partsNow := by
  obtain rfl : wholeNow = whole := funext fun term => propext (wholes term)
  refine ⟨fun now owned => ?_, fun now => ?_, fun now nowToo owned also =>
    ?_, fun given => ?_⟩
  · rw [same _ now] at owned
    exact ⟨(forest.below now owned).1, fun rooted =>
      (forest.below now owned).2 (roots _ rooted)⟩
  · rw [same _ now]
    exact forest.nodup now
  · rw [same _ now] at owned
    rw [same _ nowToo] at also
    exact forest.single now nowToo owned also
  · obtain ⟨inside, plain, unowned⟩ := forest.loose (fewer _ given)
    refine ⟨inside, fun rooted => plain (roots _ rooted), fun owner now owned =>
      ?_⟩
    rw [same _ now] at owned
    exact unowned owner now owned

/--
A slot has new parts, and is whole if it was not before. Its parts were loose or
its own; what is loose now was so, or was a part of the slot, or is the slot
itself if it is new. What the slot had or what was loose is owned by no other
slot.
-/
theorem change
    (forest : Forest whole root loose parts)
    {slot : Term}
    (wholes : ∀ term, wholeNow term ↔ whole term ∨ term = slot)
    (roots : ∀ term, rootNow term → root term ∨ (term = slot ∧ ¬ whole slot))
    (others : ∀ term, term ≠ slot → whole term → partsNow term = parts term)
    (nodup : (partsNow slot).Nodup)
    (taken : ∀ part ∈ partsNow slot, loose part ∨
      (whole slot ∧ part ∈ parts slot))
    (left : ∀ term, looseNow term → term ∉ partsNow slot ∧
      ((loose term ∨ (whole slot ∧ term ∈ parts slot)) ∨
        (term = slot ∧ ¬ whole slot ∧ ¬ rootNow slot))) :
    Forest wholeNow rootNow looseNow partsNow := by
  have inner {part : Term}
      (had : loose part ∨ (whole slot ∧ part ∈ parts slot)) :
      whole part ∧ ¬ root part := by
    rcases had with free | ⟨old, owned⟩
    · exact ⟨(forest.loose free).1, (forest.loose free).2.1⟩
    · exact forest.below old owned
  have stays {part : Term} (inside : whole part ∧ ¬ root part) :
      wholeNow part ∧ ¬ rootNow part := by
    refine ⟨(wholes _).mpr (.inl inside.1), fun rooted => ?_⟩
    rcases roots _ rooted with old | ⟨rfl, fresh⟩
    · exact inside.2 old
    · exact fresh inside.1
  have apart {part owner : Term}
      (had : loose part ∨ (whole slot ∧ part ∈ parts slot))
      (other : owner ≠ slot) (old : whole owner) : part ∉ parts owner := by
    rcases had with free | ⟨slotWhole, owned⟩
    · exact (forest.loose free).2.2 owner old
    · exact fun also => other (forest.single old slotWhole also owned)
  have before {owner : Term} (now : wholeNow owner) (other : owner ≠ slot) :
      whole owner :=
    ((wholes owner).mp now).resolve_right other
  refine ⟨fun {owner part} now owned => ?_, fun {owner} now => ?_,
    fun {owner other part} now otherNow owned also =>
      ?_, fun {term} given => ?_⟩
  · by_cases same : owner = slot
    · subst same
      exact stays (inner (taken part owned))
    · rw [others owner same (before now same)] at owned
      exact stays (forest.below (before now same) owned)
  · by_cases same : owner = slot
    · exact same ▸ nodup
    · rw [others owner same (before now same)]
      exact forest.nodup (before now same)
  · by_cases same : owner = slot <;> by_cases sameToo : other = slot
    · exact same.trans sameToo.symm
    · subst same
      rw [others other sameToo (before otherNow sameToo)] at also
      exact absurd also
        (apart (taken part owned) sameToo (before otherNow sameToo))
    · subst sameToo
      rw [others owner same (before now same)] at owned
      exact absurd owned (apart (taken part also) same (before now same))
    · rw [others owner same (before now same)] at owned
      rw [others other sameToo (before otherNow sameToo)] at also
      exact forest.single (before now same) (before otherNow sameToo) owned also
  · obtain ⟨missed, had | ⟨rfl, fresh, plain⟩⟩ := left term given
    · refine ⟨(stays (inner had)).1, (stays (inner had)).2,
        fun owner now owned => ?_⟩
      by_cases same : owner = slot
      · exact missed (same ▸ owned)
      · rw [others owner same (before now same)] at owned
        exact apart had same (before now same) owned
    · refine ⟨(wholes _).mpr (.inr rfl), plain, fun owner now owned => ?_⟩
      by_cases same : owner = term
      · exact missed (same ▸ owned)
      · rw [others owner same (before now same)] at owned
        exact fresh (forest.below (before now same) owned).1

/-- What is loose and the parts of some slots are all different. -/
theorem nodup_slots
    (forest : Forest whole root loose parts)
    {slots taken : List Term}
    (inside : ∀ slot ∈ slots, whole slot)
    (distinct : slots.Nodup)
    (free : ∀ term ∈ taken, loose term)
    (once : taken.Nodup) :
    (taken ++ slots.flatMap parts).Nodup := by
  refine List.nodup_append.mpr ⟨once, List.nodup_flatMap.mpr
    ⟨fun slot listed => forest.nodup (inside slot listed), ?_⟩, ?_⟩
  · refine distinct.imp_of_mem fun {slot other} listed otherListed apart => ?_
    exact List.disjoint_left.mpr fun part owned also =>
      apart (forest.single (inside slot listed) (inside other otherListed)
        owned also)
  · rintro term isTaken _ owned rfl
    obtain ⟨slot, listed, owns⟩ := List.mem_flatMap.mp owned
    exact (forest.loose (free term isTaken)).2.2 slot (inside slot listed) owns

/--
Some slots exchange their parts among each other and with what is loose: what is
taken and what they had is what is given and what they have.
-/
theorem exchange
    (forest : Forest whole root loose parts)
    {slots taken given : List Term}
    (inside : ∀ slot ∈ slots, whole slot)
    (distinct : slots.Nodup)
    (roots : ∀ term, rootNow term → root term)
    (others : ∀ term, term ∉ slots → whole term → partsNow term = parts term)
    (free : ∀ term ∈ taken, loose term)
    (once : taken.Nodup)
    (trade : (taken ++ slots.flatMap parts).Perm
      (given ++ slots.flatMap partsNow))
    (left : ∀ term, looseNow term → term ∈ given ∨
      (loose term ∧ term ∉ taken)) :
    Forest whole rootNow looseNow partsNow := by
  have has := trade.nodup_iff.mp (forest.nodup_slots inside distinct free once)
  obtain ⟨-, hasParts, apart⟩ := List.nodup_append.mp has
  obtain ⟨each, between⟩ := List.nodup_flatMap.mp hasParts
  have source {term : Term} (listed : term ∈ given ++ slots.flatMap partsNow) :
      loose term ∨ ∃ slot ∈ slots, term ∈ parts slot :=
    (List.mem_append.mp (trade.mem_iff.mpr listed)).imp (free term)
      List.mem_flatMap.mp
  have inner {term : Term} (listed : term ∈ given ++ slots.flatMap partsNow) :
      whole term ∧ ¬ rootNow term := by
    rcases source listed with atHand | ⟨slot, isSlot, owned⟩
    · exact ⟨(forest.loose atHand).1, fun rooted =>
        (forest.loose atHand).2.1 (roots _ rooted)⟩
    · have below := forest.below (inside slot isSlot) owned
      exact ⟨below.1, fun rooted => below.2 (roots _ rooted)⟩
  have elsewhere {term owner : Term}
      (listed : term ∈ given ++ slots.flatMap partsNow)
      (other : owner ∉ slots) (old : whole owner) : term ∉ parts owner := by
    rcases source listed with atHand | ⟨slot, isSlot, owned⟩
    · exact (forest.loose atHand).2.2 owner old
    · exact fun also =>
        other (forest.single old (inside slot isSlot) also owned ▸ isSlot)
  have part {slot term : Term} (listed : slot ∈ slots)
      (owned : term ∈ partsNow slot) :
      term ∈ given ++ slots.flatMap partsNow :=
    List.mem_append_right _ (List.mem_flatMap.mpr ⟨slot, listed, owned⟩)
  refine ⟨fun {owner term} now owned => ?_, fun {owner} now => ?_,
    fun {owner other term} now otherNow owned also => ?_, fun {term} now => ?_⟩
  · by_cases slot : owner ∈ slots
    · exact inner (part slot owned)
    · rw [others owner slot now] at owned
      have below := forest.below now owned
      exact ⟨below.1, fun rooted => below.2 (roots _ rooted)⟩
  · by_cases slot : owner ∈ slots
    · exact each owner slot
    · rw [others owner slot now]
      exact forest.nodup now
  · by_cases slot : owner ∈ slots <;> by_cases slotToo : other ∈ slots
    · by_contra different
      have : Std.Symm (Function.onFun List.Disjoint partsNow) :=
        ⟨fun _ _ => List.disjoint_symm⟩
      exact List.disjoint_left.mp (between.forall slot slotToo different)
        owned also
    · rw [others other slotToo otherNow] at also
      exact absurd also (elsewhere (part slot owned) slotToo otherNow)
    · rw [others owner slot now] at owned
      exact absurd owned (elsewhere (part slotToo also) slot now)
    · rw [others owner slot now] at owned
      rw [others other slotToo otherNow] at also
      exact forest.single now otherNow owned also
  · rcases left term now with isGiven | ⟨atHand, untaken⟩
    · have listed : term ∈ given ++ slots.flatMap partsNow :=
        List.mem_append_left _ isGiven
      refine ⟨(inner listed).1, (inner listed).2, fun owner old owned => ?_⟩
      by_cases slot : owner ∈ slots
      · exact apart term isGiven term
          (List.mem_flatMap.mpr ⟨owner, slot, owned⟩) rfl
      · rw [others owner slot old] at owned
        exact elsewhere listed slot old owned
    · obtain ⟨old, plain, unowned⟩ := forest.loose atHand
      refine ⟨old, fun rooted => plain (roots _ rooted),
        fun owner inWhole owned => ?_⟩
      by_cases slot : owner ∈ slots
      · rcases List.mem_append.mp (trade.mem_iff.mpr (part slot owned))
          with isTaken | has
        · exact untaken isTaken
        · obtain ⟨first, isSlot, owns⟩ := List.mem_flatMap.mp has
          exact unowned first (inside first isSlot) owns
      · rw [others owner slot inWhole] at owned
        exact unowned owner inWhole owned

end Forest

end Tern
