import Mathlib.Data.List.Perm.Basic
import Tern.Proofs.Building.Distinction

namespace Tern

/-!
# Terms that change in their slots

Elaboration changes terms in place: what some slots hold afterwards owns terms
that were at hand or that these slots owned before, and what they no longer own
is at hand. Such an exchange keeps a worksite sound as long as no declaration
with a minted name is given up: one around it might have that name already.
-/

namespace Worksite

variable {arena after : Arena} {table : ScopeTable}
  {saved : List (DeclId × ScopeId)} {rest : Stock}

/--
What some slots take and what they had before are what they give up and have
afterwards. Names stay, and so do the names, the scopes and the kinds of
declarations.
-/
theorem Sound.exchange
    {slots taken given : List Term}
    (sound : Sound
      { arena := arena, table := table, saved := saved,
        stock := Piece.terms taken + rest })
    (whole : ∀ slot ∈ slots, Whole
      { arena := arena, table := table, saved := saved,
        stock := Piece.terms taken + rest } slot)
    (distinct : slots.Nodup)
    (unnamed : ∀ name, .name name ∉ slots)
    (holds : ∀ term, after.Holds term ↔ arena.Holds term)
    (reads : ∀ term, term ∉ slots → arena.Reads after term)
    (decls : ∀ decl, .decl decl ∈ slots → (after.decl decl).name =
      (arena.decl decl).name ∧
      (after.decl decl).scope = (arena.decl decl).scope ∧
        (after.decl decl).form.hollow = (arena.decl decl).form.hollow)
    (count : arena.placeholders ≤ after.placeholders)
    (surrendered : ∀ decl, .decl decl ∈ given → ∀ number, ¬ Keyed
      { arena := arena, table := table, saved := saved,
        stock := Piece.terms taken + rest } decl
      (.placeholder number))
    (units : ∀ slot ∈ slots, after.isUnit slot = true →
      arena.isUnit slot = true)
    (trade : (taken ++ slots.flatMap arena.parts).Perm
      (given ++ slots.flatMap after.parts))
    (fit : Keeps
        { arena := arena, table := table, saved := saved,
          stock := Piece.terms taken + rest }
        { arena := after, table := table, saved := saved,
          stock := Piece.terms given + rest } →
      ∀ slot ∈ slots, Fit
        { arena := after, table := table, saved := saved,
          stock := Piece.terms given + rest } slot)
    (located : Keeps
        { arena := arena, table := table, saved := saved,
          stock := Piece.terms taken + rest }
        { arena := after, table := table, saved := saved,
          stock := Piece.terms given + rest } →
      ∀ decl, .decl decl ∈ slots → Located
        { arena := after, table := table, saved := saved,
          stock := Piece.terms given + rest }
        decl (after.decl decl).form) :
    Keeps { arena := arena, table := table, saved := saved,
            stock := Piece.terms taken + rest }
        { arena := after, table := table, saved := saved,
          stock := Piece.terms given + rest } ∧
      Sound { arena := after, table := table, saved := saved,
              stock := Piece.terms given + rest } := by
  have others {terms more : List Term} {piece : Piece}
      (plain : ∀ term, piece ≠ .term term)
      (listed : piece ∈ Piece.terms terms + rest) : piece ∈ Piece.terms more +
        rest := by
    refine Multiset.mem_add.mpr
      (.inr ((Multiset.mem_add.mp listed).resolve_left fun new => ?_))
    obtain ⟨term, -, rfl⟩ := List.mem_map.mp (Multiset.mem_coe.mp new)
    exact plain term rfl
  have begun (decl : DeclId) :
      Begun { arena := after, table := table, saved := saved,
              stock := Piece.terms given + rest }
          decl ↔
        Begun { arena := arena, table := table, saved := saved,
                stock := Piece.terms taken + rest }
          decl :=
    ⟨others (fun _ => Piece.noConfusion), others fun _ => Piece.noConfusion⟩
  have wholes (term : Term) :
      Whole { arena := after, table := table, saved := saved,
              stock := Piece.terms given + rest }
          term ↔
        Whole { arena := arena, table := table, saved := saved,
                stock := Piece.terms taken + rest }
          term := by
    simp only [Whole, begun, holds]
  have kept {decl : DeclId} :
      (after.decl decl).name = (arena.decl decl).name ∧
        (after.decl decl).scope = (arena.decl decl).scope ∧
          (after.decl decl).form.hollow = (arena.decl decl).form.hollow := by
    by_cases slot : .decl decl ∈ slots
    · exact decls decl slot
    · have read : after.decl decl = arena.decl decl := reads (.decl decl) slot
      exact ⟨congrArg _ read, congrArg _ read,
        congrArg (fun same => same.form.hollow) read⟩
  have keeps : Keeps
      { arena := arena, table := table, saved := saved,
        stock := Piece.terms taken + rest }
      { arena := after, table := table, saved := saved,
        stock := Piece.terms given + rest } :=
    keeps_of (holds _).mpr (fun {name} _ => reads (.name name) (unnamed name))
      (fun _ => (begun _).mp)
      (by
        rintro _ _ ⟨scope, place, again⟩
        exact ⟨scope, place, others (fun _ => Piece.noConfusion) again⟩)
      (fun _ => ⟨kept.2.1, fun _ => kept.1⟩) (Nat.le_refl _) id
  have loose {term : Term} (listed : term ∈ taken) :
      Piece.term term ∈ Piece.terms taken + rest :=
    Multiset.mem_add.mpr
      (.inl (Multiset.mem_coe.mpr (List.mem_map_of_mem listed)))
  have linear := sound.linear
  simp only [Stock.claims_add, Stock.claims_terms, Multiset.nodup_add,
    Multiset.coe_nodup] at linear
  have unclaimed {term : Term} (listed : term ∈ taken) :
      Piece.term term ∉ rest :=
    Stock.term_notMem_of_nodup sound.linear (le_refl _) listed
  have forest : Forest
      (Whole { arena := after, table := table, saved := saved,
               stock := Piece.terms given + rest })
      (fun term => after.isUnit term = true)
      (fun term => Piece.term term ∈ Piece.terms given + rest) after.parts := by
    rw [funext fun term => propext (wholes term)]
    refine sound.forest.exchange whole distinct (fun term unit => ?_)
      (fun term apart _ => (reads term apart).parts)
        (fun term listed => loose listed)
      (List.Nodup.of_map _ linear.1) trade fun term listed => ?_
    · by_cases slot : term ∈ slots
      · exact units term slot unit
      · exact (reads term slot).isUnit ▸ unit
    · rcases Multiset.mem_add.mp listed with new | old
      · obtain ⟨other, isGiven, same⟩ :=
          List.mem_map.mp (Multiset.mem_coe.mp new)
        exact .inl (Piece.term.inj same ▸ isGiven)
      · exact .inr ⟨Multiset.mem_add.mpr (.inr old), fun isTaken =>
          unclaimed isTaken old⟩
  have givenOnce : given.Nodup ∧ ∀ term ∈ given, Piece.term term ∉ rest := by
    have source {term : Term} (isGiven : term ∈ given) :=
      List.mem_append.mp (trade.mem_iff.mpr (List.mem_append_left _ isGiven))
    refine ⟨(List.nodup_append.mp
      (trade.nodup_iff.mp (sound.forest.nodup_slots whole distinct
      (fun term => loose) (List.Nodup.of_map _ linear.1)))).1,
        fun term isGiven old => ?_⟩
    rcases source isGiven with isTaken | owned
    · exact unclaimed isTaken old
    · obtain ⟨slot, listed, owns⟩ := List.mem_flatMap.mp owned
      exact (sound.forest.loose (Multiset.mem_add.mpr (.inr old))).2.2 slot
        (whole slot listed) owns
  have known {decl : DeclId} {key : Key}
      (keyed : Keyed
        { arena := after, table := table, saved := saved,
          stock := Piece.terms given + rest } decl key) :
      arena.Holds (.decl decl) ∧ ¬ Unnamed
        { arena := arena, table := table, saved := saved,
          stock := Piece.terms taken + rest }
        decl := by
    refine ⟨(holds _).mp keyed.held, ?_⟩
    rintro ⟨scope, place, was⟩
    exact keyed.christened
      ⟨scope, place, others (fun _ => Piece.noConfusion) was⟩
  refine ⟨keeps, sound.advance keeps forest ?_ ?_ ?_ ?_ ?_ ?_ ?_ ?_
    (fun _ _ _ => .inl)
    (fun _ _ => .inl) (fun _ => .inl) ?_,
      sound.distinct.advance sound.toUpright keeps count
    (fun name number mints => ?_) (fun _ _ => known) (fun _ _ _ => kept.2.2)
    (fun decl number keyed listed => ?_) fun _ listed =>
      others (fun _ => Piece.noConfusion) listed⟩
  · simp only [Stock.claims_add, Stock.claims_terms, Multiset.nodup_add,
      Multiset.coe_nodup]
    refine ⟨givenOnce.1.map fun _ _ => Claim.term.inj, linear.2.1,
      Multiset.disjoint_left.mpr ?_⟩
    intro claim new old
    obtain ⟨term, isGiven, rfl⟩ := List.mem_map.mp (Multiset.mem_coe.mp new)
    exact givenOnce.2 term isGiven (Stock.term_mem_claims.mp old)
  · intro piece listed
    cases piece with
    | term => exact .inr trivial
    | _ => exact .inl (others (fun _ => Piece.noConfusion) listed)
  · intro decl listed
    have was := (begun decl).mp listed
    have same : after.decl decl = arena.decl decl :=
      reads (.decl decl) fun slot => (whole _ slot).2 decl rfl was
    exact .inl ⟨was, congrArg _ same⟩
  · intro decl scope place listed
    have was : Piece.unnamed decl scope place ∈ Piece.terms taken + rest :=
      others (fun _ => Piece.noConfusion) listed
    exact ⟨(begun decl).mpr (sound.unnamed _ _ _ was).1, .inl ⟨was, kept.1⟩⟩
  · intro decl claimed
    have old : Claim.unbound decl ∈ rest.claims := by
      simpa [Stock.claims_add, Stock.claims_terms] using claimed
    exact sound.unbound decl (by simp [old])
  · intro decl listed
    obtain ⟨held, free⟩ :=
      sound.unsaved decl (others (fun _ => Piece.noConfusion) listed)
    exact ⟨(holds _).mpr held, free⟩
  · exact fun decl held named => .inl ⟨(holds _).mp held,
      by rintro ⟨scope, place, was⟩
         exact named ⟨scope, place, others (fun _ => Piece.noConfusion) was⟩⟩
  · intro term held
    by_cases slot : term ∈ slots
    · exact .inr (fit keeps term slot)
    · exact .inl ⟨(holds _).mp held, reads term slot⟩
  · intro decl now
    by_cases slot : .decl decl ∈ slots
    · exact .inr (located keeps decl slot)
    · have read : after.decl decl = arena.decl decl := reads (.decl decl) slot
      exact .inl ⟨(wholes _).mp now, congrArg _ read⟩
  · have read : after.name name = arena.name name :=
      reads (.name name) (unnamed name)
    exact ⟨(holds _).mp mints.1, read ▸ mints.2⟩
  · rcases Multiset.mem_add.mp listed with new | old
    · obtain ⟨term, isGiven, same⟩ := List.mem_map.mp (Multiset.mem_coe.mp new)
      obtain rfl := Piece.term.inj same
      exact absurd (sound.keyed_before keeps keyed (known keyed).1
        (known keyed).2)
        (surrendered decl isGiven number)
    · exact Multiset.mem_add.mpr (.inr old)

end Worksite

end Tern
