import Mathlib.Tactic.Abel
import Tern.Proofs.Building.Preservation

namespace Tern

/-!
# Steps keep declarations told apart

A name is minted with a number that no name has carried, and it is not spent on
any declaration yet. It is spent once, and from then on only templates come to
share it, each further out than all declarations that have it. So every step of
building leaves a sound worksite behind.
-/

/-- Two changes of a declaration are one change. -/
private theorem Arena.updateDecl_updateDecl
    {arena : Arena}
    {decl : DeclId}
    (held : arena.Holds (.decl decl))
    (first second : Decl → Decl) :
    (arena.updateDecl decl first).updateDecl decl second =
      arena.updateDecl decl fun old => second (first old) := by
  rw [updateDecl, decl_updateDecl held]
  simp only [updateDecl, Arena.mk.injEq, true_and, and_true]
  exact Array.ext_getElem? fun place => by
    simp only [Array.getElem?_setIfInBounds, Array.size_setIfInBounds]
    split <;> rfl

/-- The count of minted names never goes down when a term is added. -/
private theorem Arena.Adds.placeholders_le
    {arena after : Arena}
    {term : Term}
    (adds : arena.Adds term after) :
    arena.placeholders ≤ after.placeholders := by
  cases adds <;> first | exact Nat.le_refl _ | exact Nat.le_succ _

/-- What a name is paid for with is at most the name itself, not spent. -/
private theorem Stock.Entitles.fee_le
    {rest fee : Stock}
    {scope : ScopeId}
    {form : DeclForm}
    {name : NameId}
    {key : Key}
    (entitled : rest.Entitles scope form name key fee) :
    fee ≤ {.unspent name} := by
  cases entitled with
  | paid => cases key <;> simp [Piece.fee]
  | shared => exact Multiset.zero_le _

namespace Worksite

variable {arena : Arena} {table : ScopeTable} {saved : List (DeclId × ScopeId)}
  {rest : Stock}
  {decl : DeclId} {scope : ScopeId}

/-- A name that is not spent was at hand before a term was added. -/
private theorem unspent_of_adds
    {term : Term}
    {name : NameId}
    (listed : .unspent name ∈ arena.loose term + rest) :
    .unspent name ∈ rest := by
  refine (Multiset.mem_add.mp listed).resolve_left fun new => ?_
  obtain ⟨same, -⟩ | ⟨_, _, -, same, -⟩ := mem_loose new <;> cases same

/-- No declaration comes to hand when a term is added. -/
private theorem loose_of_adds
    {after : Arena}
    {term : Term}
    (adds : arena.Adds term after)
    (listed : .term (.decl decl) ∈ after.loose term + rest) :
    .term (.decl decl) ∈ rest := by
  refine (Multiset.mem_add.mp listed).resolve_left fun new => ?_
  obtain ⟨same, -⟩ | ⟨_, _, -, same, -⟩ := mem_loose new
  · obtain rfl := Piece.term.inj same
    cases adds
  · cases same

/-- A term that is neither a declaration nor a minted name is added. -/
theorem Sound.add
    {order : Order}
    {after : Arena}
    {term : Term}
    (sound : Sound
      { arena := arena, table := table, saved := saved
        stock := Piece.terms (after.children term) + rest })
    (adds : arena.Adds term after)
    (spelled : after.Spells term)
    (warranted : rest.Warrants order after term) :
    Keeps
        { arena := arena, table := table, saved := saved
          stock := Piece.terms (after.children term) + rest }
        { arena := after, table := table, saved := saved,
          stock := after.loose term + rest } ∧
      Sound { arena := after, table := table, saved := saved,
              stock := after.loose term + rest } := by
  obtain ⟨keeps, upright⟩ := sound.toUpright.add adds warranted
  refine ⟨keeps, upright, sound.distinct.advance sound.toUpright keeps
    adds.placeholders_le
    (fun name number mints => ?_) (fun other _ keyed => ⟨?_, ?_⟩)
      (fun other _ _ => ?_)
    (fun _ _ _ listed =>
      Multiset.mem_add.mpr (.inr (loose_of_adds adds listed)))
    fun _ listed => Multiset.mem_add.mpr (.inr (unspent_of_adds listed))⟩
  · have apart : Term.name name ≠ term := by
      rintro rfl
      exact spelled number mints.2
    have read : after.name name = arena.name name := adds.reads apart
    exact ⟨(adds.holds.mp mints.1).resolve_right apart, read ▸ mints.2⟩
  · refine (adds.holds.mp keyed.held).resolve_right ?_
    rintro rfl
    cases adds
  · rintro ⟨inside, place, listed⟩
    have old : Piece.unnamed other inside place ∈ rest := by
      simpa [Piece.terms] using listed
    exact keyed.christened ⟨inside, place, Multiset.mem_add.mpr (.inr old)⟩
  · simp only [Arena.decl, adds.decls_eq]

section

variable (span : Span)

/-- A minted name is at hand as a term that is not spent. -/
private theorem Upright.mintName
    (upright : Upright { arena := arena, table := table, saved := saved,
                         stock := rest }) :
    let minted := arena.addPlaceholder span
    Keeps { arena := arena, table := table, saved := saved, stock := rest }
        { arena := minted.2, table := table, saved := saved
          stock :=
            .unspent minted.1 ::ₘ (minted.2.loose (.name minted.1) + rest) } ∧
      Upright
        { arena := minted.2, table := table, saved := saved
          stock :=
            .unspent minted.1 ::ₘ (minted.2.loose (.name minted.1) + rest)
              } := by
  intro minted
  have adds : arena.Adds (.name minted.1) minted.2 := .placeholder span
  have found : minted.2.name minted.1 =
      { form := .placeholder arena.placeholders, span := span } :=
    Arena.name_addName _ _ _
  have before : Piece.terms (minted.2.children (.name minted.1)) + rest =
      rest := by
    rw [show minted.2.children (.name minted.1) =
      [] by simp [Arena.children, found, NameForm.children]]
    exact zero_add _
  obtain ⟨keepsName, named⟩ :=
    @Upright.add arena table saved rest Order.none minted.2
    (.name minted.1) (before.symm ▸ upright) adds
    ⟨by rintro _ ⟨⟩,
      by simp [Arena.template?, found, NameForm.template?],
      by rintro _ ⟨⟩,
      by rintro _ ⟨⟩,
      fun _ _ _ => Term.noConfusion⟩
  rw [before] at keepsName
  have keepsUnspent := @keeps_beside
    { arena := minted.2, table := table, saved := saved
      stock := minted.2.loose (.name minted.1) + rest } table saved
    (.unspent minted.1 ::ₘ (minted.2.loose (.name minted.1) + rest))
    (fun piece listed mark => (Multiset.mem_cons.mp listed).resolve_left
      (by rintro rfl; cases mark)) (Nat.le_refl _) id
  have unclaimed : Claim.unspent minted.1 ∉
      Stock.claims (minted.2.loose (.name minted.1) + rest) := by
    rw [Stock.claims_add, Multiset.mem_add]
    rintro (new | old)
    · cases Multiset.mem_singleton.mp
        (Multiset.mem_of_le (claims_loose _ _) new)
    · exact adds.new (upright.held_of_claimed old)
  refine ⟨keepsName.trans keepsUnspent,
    named.beside keepsUnspent (fun piece listed => ?_)
    (fun _ listed _ => Multiset.mem_cons_of_mem listed) ?_
    (fun other claimed =>
      named.unbound other (by simpa [Piece.claims] using claimed))
    (fun other listed => (named.unsaved other (by simpa using listed)).2)
      (fun _ _ _ => .inl)
    (fun _ _ => .inl) fun _ => .inl⟩
  · rcases Multiset.mem_cons.mp listed with rfl | old
    · exact .inr ⟨.inr ⟨_, rfl⟩, adds.holds.mpr (.inr rfl)⟩
    · exact .inl old
  · rw [Stock.claims_cons]
    exact Multiset.nodup_cons.mpr ⟨unclaimed, named.linear⟩

/--
What is at hand when a name is minted is of that name, or was at hand before.
-/
theorem mem_of_mintName
    {piece : Piece}
    (listed : piece ∈ .unspent (arena.addPlaceholder span).1 ::ₘ
      ((arena.addPlaceholder span).2.loose
        (.name (arena.addPlaceholder span).1) + rest)) :
    piece = .unspent (arena.addPlaceholder span).1 ∨
      piece = .term (.name (arena.addPlaceholder span).1) ∨
        (∃ name key, piece = .named name key true) ∨ piece ∈ rest := by
  rcases Multiset.mem_cons.mp listed with same | listed
  · exact .inl same
  rcases Multiset.mem_add.mp listed with new | old
  · obtain ⟨same, -⟩ | ⟨name, key, -, same, -⟩ := mem_loose new
    · exact .inr (.inl same)
    · exact .inr (.inr (.inl ⟨name, key, same⟩))
  · exact .inr (.inr (.inr old))

/--
A name carries the number minted last if it is the one minted last, and else one
minted before.
-/
private theorem mints_addPlaceholder
    {name : NameId}
    {number : Nat}
    (mints : (arena.addPlaceholder span).2.Mints name number) :
    (name = (arena.addPlaceholder span).1 ∧ number = arena.placeholders) ∨
      arena.Mints name number := by
  have adds : arena.Adds (.name (arena.addPlaceholder span).1)
      (arena.addPlaceholder span).2 :=
    .placeholder span
  obtain ⟨held, form⟩ := mints
  by_cases last : Term.name name = .name (arena.addPlaceholder span).1
  · obtain rfl := Term.name.inj last
    rw [show (arena.addPlaceholder span).2.name (arena.addPlaceholder span).1 =
      { form := .placeholder arena.placeholders, span := span }
        from Arena.name_addName _ _ _] at form
    exact .inl ⟨rfl, (NameForm.placeholder.inj form).symm⟩
  · have read : (arena.addPlaceholder span).2.name name = arena.name name :=
      adds.reads last
    exact .inr ⟨(adds.holds.mp held).resolve_right last, read ▸ form⟩

/-- A name is minted, with a number that no name has carried. -/
theorem Sound.mintName
    (sound :
      Sound { arena := arena, table := table, saved := saved, stock := rest }) :
    let minted := arena.addPlaceholder span
    Keeps { arena := arena, table := table, saved := saved, stock := rest }
        { arena := minted.2, table := table, saved := saved
          stock :=
            .unspent minted.1 ::ₘ (minted.2.loose (.name minted.1) + rest) } ∧
      Sound
        { arena := minted.2, table := table, saved := saved
          stock :=
            .unspent minted.1 ::ₘ (minted.2.loose (.name minted.1) + rest)
              } := by
  intro minted
  have adds : arena.Adds (.name minted.1) minted.2 := .placeholder span
  obtain ⟨keeps, upright⟩ := sound.toUpright.mintName span
  have same (other : DeclId) : minted.2.decl other = arena.decl other := by
    simp only [Arena.decl, adds.decls_eq]
  have unused {name : NameId} : ¬ arena.Mints name arena.placeholders :=
    fun mints =>
    Nat.lt_irrefl _ (sound.distinct.below _ _ mints)
  have back {other : DeclId} {number : Nat}
      (keyed : Keyed
        { arena := minted.2, table := table, saved := saved
          stock :=
            .unspent minted.1 ::ₘ (minted.2.loose (.name minted.1) + rest) }
        other (.placeholder number)) :
      Keyed { arena := arena, table := table, saved := saved, stock := rest }
        other
        (.placeholder number) := by
    refine sound.keyed_before keeps keyed
      ((adds.holds.mp keyed.held).resolve_right Term.noConfusion) ?_
    rintro ⟨inside, place, listed⟩
    exact keyed.christened ⟨inside, place, by simp [listed]⟩
  refine ⟨keeps, upright, fun name number mints =>
    ?_, fun first second number mints again => ?_,
    fun name number other listed mints keyed =>
      ?_, fun first second number one two => ?_,
    fun one two number listed first second => ?_, fun other number keyed => ?_⟩
  · rcases mints_addPlaceholder span mints with ⟨-, rfl⟩ | old
    · exact Nat.lt_succ_self _
    · exact Nat.lt_succ_of_lt (sound.distinct.below _ _ old)
  · rcases mints_addPlaceholder span mints with ⟨rfl, rfl⟩ | old <;>
      rcases mints_addPlaceholder span again with ⟨rfl, same⟩ | older
    · rfl
    · exact absurd older unused
    · exact absurd (same ▸ old) unused
    · exact sound.distinct.single _ _ _ old older
  · rcases mints_addPlaceholder span mints with ⟨rfl, rfl⟩ | old
    · exact unused (back keyed).mints
    · have apart : name ≠ minted.1 := by
        rintro rfl
        exact adds.new old.1
      have listed : Piece.unspent name ∈ rest := by
        simpa [minted, apart] using mem_of_mintName span listed
      exact sound.distinct.unspent _ _ _ listed old (back keyed)
  · simpa only [Covers, Arena.isTemplate, same] using
      sound.distinct.apart _ _ _ (back one) (back two)
  · have listed : Piece.term (.decl one) ∈ rest := by
      simpa using mem_of_mintName span listed
    simpa only [same] using sound.distinct.outermost _ _ _ listed (back first)
      (back second)
  · simpa only [same] using sound.distinct.plain _ _ (back keyed)

end

/-- A declaration is added, which has neither a name nor a form yet. -/
theorem Sound.begin
    {decl : Decl}
    {place : Nat}
    (sound :
      Sound { arena := arena, table := table, saved := saved, stock := rest })
    (hollow : decl.form.hollow = decl.form)
    (nameless : decl.name = .invalid)
    (room : Piece.room decl.scope ∈ rest) :
    Keeps { arena := arena, table := table, saved := saved, stock := rest }
        { arena := (arena.addDecl decl).2, table := table, saved := saved
          stock :=
            .begun (arena.addDecl decl).1 ::ₘ .unsaved
              (arena.addDecl decl).1 ::ₘ
            .unnamed (arena.addDecl decl).1 decl.scope place ::ₘ rest } ∧
      Sound
        { arena := (arena.addDecl decl).2, table := table, saved := saved
          stock :=
            .begun (arena.addDecl decl).1 ::ₘ .unsaved
              (arena.addDecl decl).1 ::ₘ
            .unnamed (arena.addDecl decl).1 decl.scope place ::ₘ rest } := by
  obtain ⟨keeps, upright⟩ :=
    @Upright.begin arena table saved rest decl place sound.toUpright hollow
    nameless room
  refine ⟨keeps, upright, sound.distinct.advance sound.toUpright keeps
    (Nat.le_refl _)
    (fun _ _ mints => mints) (fun other _ keyed => ⟨?_, ?_⟩)
      (fun other _ keyed => ?_)
    (fun _ _ _ listed => by simpa using listed) fun _ listed =>
      by simpa using listed⟩
  · refine ((Arena.holds_addDecl decl).mp keyed.held).resolve_right ?_
    rintro ⟨⟩
    exact keyed.christened ⟨decl.scope, place, by simp⟩
  · rintro ⟨inside, region, listed⟩
    exact keyed.christened ⟨inside, region, by simp [listed]⟩
  · rw [Arena.decl_addDecl_of_ne]
    rintro rfl
    exact Arena.not_holds_addDecl decl keyed.held

/-- A declaration has no other key than the one that it is known to have. -/
private theorem Keyed.unique
    {site : Worksite}
    {first second : Key}
    (keyed : site.Keyed decl first)
    (again : site.Keyed decl second) :
    first = second :=
  Option.some.inj (keyed.key.symm.trans again.key)

/-- A declaration gets an identifier for a name. -/
private theorem Sound.christen
    {name : NameId}
    {spelling : Name}
    {place : Nat}
    (sound : Sound
      { arena := arena, table := table, saved := saved,
        stock := .unnamed decl scope place ::ₘ rest })
    (named : Piece.named name (.simple spelling) true ∈ rest) :
    Keeps
        { arena := arena, table := table, saved := saved
          stock := .unnamed decl scope place ::ₘ rest }
        { arena := arena.updateDecl decl fun old => { old with name := name }
          table := table, saved := saved
          stock := .fresh decl scope (.simple spelling) place ::ₘ rest } ∧
      Sound
        { arena := arena.updateDecl decl fun old => { old with name := name }
          table := table, saved := saved
          stock := .fresh decl scope (.simple spelling) place ::ₘ rest } := by
  obtain ⟨keeps, upright⟩ := sound.toUpright.christen named
  have simple := (upright.backed _ (Multiset.mem_cons_self ..)).1
  have apart {other : DeclId} {number : Nat}
      (keyed : Keyed
        { arena := arena.updateDecl decl fun old => { old with name := name }
          table := table, saved := saved
          stock := .fresh decl scope (.simple spelling) place ::ₘ rest }
        other (.placeholder number)) : other ≠ decl := by
    rintro rfl
    cases simple.unique keyed
  refine ⟨keeps, upright, sound.distinct.advance sound.toUpright keeps
    (Nat.le_refl _)
    (fun _ _ mints => mints)
      (fun other _ keyed => ⟨(Arena.holds_updateDecl _ _).mp keyed.held, ?_⟩)
    (fun other _ keyed => ?_) (fun _ _ _ listed => by simpa using listed)
    fun _ listed => by simpa using listed⟩
  · rintro ⟨inside, region, listed⟩
    refine keyed.christened ⟨inside, region, ?_⟩
    simp only [Multiset.mem_cons, Piece.unnamed.injEq, apart keyed, false_and,
      false_or] at listed
    simp [listed]
  · rw [Arena.decl_updateDecl_of_ne]
    rintro rfl
    exact keyed.christened ⟨scope, place, Multiset.mem_cons_self ..⟩

/-- A declaration that has an identifier for a name gets its final form. -/
private theorem Sound.complete
    {form : DeclForm}
    {span : Span}
    (sound : Sound
      { arena := arena, table := table, saved := saved
        stock := .begun decl ::ₘ (Piece.terms form.children + rest) })
    (located : rest.Locates decl form)
    (named : ∃ scope spelling, Piece.bound decl scope (.simple spelling) ∈
      rest ∨
      ∃ place, Piece.fresh decl scope (.simple spelling) place ∈ rest) :
    Keeps
        { arena := arena, table := table, saved := saved
          stock := .begun decl ::ₘ (Piece.terms form.children + rest) }
        { arena := arena.updateDecl decl fun old =>
          { old with form := form, span := span }
          table := table, saved := saved, stock :=
            .term (.decl decl) ::ₘ rest } ∧
      Sound
        { arena := arena.updateDecl decl fun old =>
          { old with form := form, span := span }
          table := table, saved := saved, stock :=
            .term (.decl decl) ::ₘ rest } := by
  obtain ⟨scope, spelling, noted⟩ := named
  obtain ⟨keeps, upright⟩ :=
    @Upright.complete arena table saved rest decl form span sound.toUpright
    located ⟨scope, .simple spelling, noted⟩
  have simple : Keyed
      { arena := arena, table := table, saved := saved
        stock := .begun decl ::ₘ (Piece.terms form.children + rest) } decl
          (.simple spelling) := by
    rcases noted with bound | ⟨place, fresh⟩
    · exact (sound.backed (.bound decl scope (.simple spelling))
        (by simp [bound])).1
    · exact (sound.backed (.fresh decl scope (.simple spelling) place)
        (by simp [fresh])).1
  refine ⟨keeps, upright, sound.distinct.advance sound.toUpright keeps
    (Nat.le_refl _)
    (fun _ _ mints => mints)
      (fun other _ keyed => ⟨(Arena.holds_updateDecl _ _).mp keyed.held, ?_⟩)
    (fun other _ keyed => ?_) (fun other _ keyed listed => ?_)
      fun name listed => ?_⟩
  · rintro ⟨inside, region, listed⟩
    refine keyed.christened ⟨inside, region, ?_⟩
    simpa [Piece.terms] using listed
  · rw [Arena.decl_updateDecl_of_ne]
    rintro rfl
    cases simple.unique keyed
  · rcases Multiset.mem_cons.mp listed with same | old
    · obtain rfl : other = decl := Term.decl.inj (Piece.term.inj same)
      cases (keeps.keyed simple).unique keyed
    · simp [old]
  · have old : Piece.unspent name ∈ rest := by simpa using listed
    simp [old]

section

variable {name : NameId} {key : Key} {place : Nat} {form : DeclForm}
  {span : Span} {fee : Stock}

/-- A declaration gets its name and its final form at once. -/
private theorem Upright.dub
    (upright : Upright
      { arena := arena, table := table, saved := saved
        stock := .begun decl ::ₘ .unnamed decl scope place ::ₘ
          (fee + (Piece.terms form.children + rest)) })
    (named : Piece.named name key true ∈ rest)
    (entitled : rest.Entitles scope form name key fee)
    (plain : form.isPlain = true) :
    Keeps
        { arena := arena, table := table, saved := saved
          stock := .begun decl ::ₘ .unnamed decl scope place ::ₘ
            (fee + (Piece.terms form.children + rest)) }
        { arena := arena.updateDecl decl fun old =>
            { old with name := name, form := form, span := span }
          table := table, saved := saved
          stock :=
            .term (.decl decl) ::ₘ .fresh decl scope key place ::ₘ rest } ∧
      Upright
        { arena := arena.updateDecl decl fun old =>
            { old with name := name, form := form, span := span }
          table := table, saved := saved
          stock :=
            .term (.decl decl) ::ₘ .fresh decl scope key place ::ₘ rest } := by
  let paid : Stock :=
    .unnamed decl scope place ::ₘ .begun decl ::ₘ
      (Piece.terms form.children + rest)
  have split : (.begun decl ::ₘ .unnamed decl scope place ::ₘ
      (fee + (Piece.terms form.children + rest)) : Stock) = fee + paid := by
    simp only [paid, ← Multiset.singleton_add]
    abel
  rw [split] at upright ⊢
  have marks {piece : Piece} (listed : piece ∈ fee) : piece.isMark = false := by
    obtain rfl :=
      Multiset.mem_singleton.mp (Multiset.mem_of_le entitled.fee_le listed)
    rfl
  have stay {piece : Piece} (listed : piece ∈ paid) : piece ∈ fee + paid :=
    Multiset.mem_add.mpr (.inr listed)
  have fewer : paid.claims ≤ (fee + paid).claims :=
    Stock.claims_le (Multiset.le_add_left _ _)
  have keepsPaid := @keeps_beside
    { arena := arena, table := table, saved := saved, stock := fee + paid }
      table saved paid
    (fun _ listed _ => stay listed) (Nat.le_refl _) id
  have first := upright.beside keepsPaid (fun _ listed => .inl (stay listed))
    (fun piece listed mark =>
      (Multiset.mem_add.mp listed).resolve_left fun gone =>
      by simp [marks gone] at mark)
    (Multiset.nodup_of_le fewer upright.linear)
    (fun other claimed =>
      upright.unbound other (Multiset.mem_of_le fewer claimed))
    (fun other listed => (upright.unsaved other (stay listed)).2)
      (fun _ _ _ => .inl)
    (fun _ _ => .inl) fun _ => .inl
  have held := (first.begun decl (by simp [paid, Begun])).1
  obtain ⟨keepsName, second⟩ :=
    first.christen (show Piece.named name key true ∈ _ by simp [named])
  have regroup : (.fresh decl scope key place ::ₘ .begun decl ::ₘ
      (Piece.terms form.children + rest) : Stock) =
        .begun decl ::ₘ (Piece.terms form.children +
          .fresh decl scope key place ::ₘ rest) := by
    simp only [← Multiset.singleton_add]
    abel
  rw [regroup] at keepsName second
  obtain ⟨keepsForm, third⟩ :=
    @Upright.complete _ table saved _ decl form span second
    (Stock.readies_of_isPlain plain _ True decl).1
    ⟨scope, key, .inr ⟨place, Multiset.mem_cons_self ..⟩⟩
  rw [Arena.updateDecl_updateDecl held] at keepsForm third
  exact ⟨keepsPaid.trans (keepsName.trans keepsForm), third⟩

/--
If a declaration may have a minted name, it is to be a template further out than
those that have the name already, none of which is still at hand.
-/
structure Admits
    (site : Worksite)
    (rest : Stock)
    (scope : ScopeId)
    (form : DeclForm)
    (number : Nat) : Prop where
  covers : ∀ {other}, site.Keyed other (.placeholder number) →
    (∃ parms constraint? inner, form = .template parms constraint? inner) ∧
      scope.raw < (site.arena.decl other).scope.raw
  gone : ∀ {other}, .term (.decl other) ∈ rest →
    ¬ site.Keyed other (.placeholder number)
  spent : ∀ {other}, .unspent other ∈ rest → ¬ site.arena.Mints other number

/-- Who is entitled to a minted name is admitted to it. -/
private theorem Sound.admits
    {number : Nat}
    {site : Worksite}
    (sound : site.Sound)
    (stock : site.stock = .begun decl ::ₘ .unnamed decl scope place ::ₘ
      (fee + (Piece.terms form.children + rest)))
    (named : Piece.named name (.placeholder number) true ∈ rest)
    (entitled : rest.Entitles scope form name (.placeholder number) fee) :
    site.Admits rest scope form number := by
  have old {piece : Piece} (listed : piece ∈ rest) : piece ∈ site.stock := by
    simp [stock, listed]
  have payment : fee + rest ≤ site.stock := by
    rw [stock]
    exact (Multiset.add_le_add_left (Multiset.le_add_left _ _)).trans
      ((Multiset.le_cons_self _ _).trans (Multiset.le_cons_self _ _))
  have parts : Piece.terms form.children + rest ≤ site.stock := by
    rw [stock]
    exact (Multiset.le_add_left _ _).trans
      ((Multiset.le_cons_self _ _).trans (Multiset.le_cons_self _ _))
  cases entitled with
  | paid =>
      have mints : site.arena.Mints name number := by
        obtain ⟨⟨held, -⟩, keyed⟩ := sound.backed _ (old named)
        exact ⟨held, NameForm.eq_placeholder_of_key? (keyed rfl)⟩
      have free {other : DeclId} : ¬ site.Keyed other (.placeholder number) :=
        sound.distinct.unspent name number other
          (by simp [stock, Piece.fee]) mints
      refine ⟨fun keyed => absurd keyed free, fun _ =>
        free, fun {other} listed again => ?_⟩
      obtain rfl := sound.distinct.single _ _ _ again mints
      exact Stock.notMem_of_nodup sound.linear payment
        (Multiset.mem_singleton_self _)
        (Multiset.mem_singleton_self _) listed
  | @shared parms constraint? inner region wraps within bound =>
      obtain ⟨keyed, inside⟩ := sound.backed _ (old bound)
      have owned : Term.decl inner ∈ form.children := by
        simp [wraps, DeclForm.children]
      have loose : Piece.term (.decl inner) ∈ site.stock := by
        simp [stock, Piece.terms, owned]
      have outermost {other : DeclId}
          (again : site.Keyed other (.placeholder number)) :=
        sound.distinct.outermost _ _ _ loose keyed again
      refine ⟨fun again => ⟨⟨_, _, _, wraps⟩, ?_⟩, fun {other} listed again =>
        ?_,
        fun listed mints =>
          sound.distinct.unspent _ _ _ (old listed) mints keyed⟩
      · exact Nat.lt_of_lt_of_le within (inside ▸ outermost again)
      · have level := Nat.le_antisymm (outermost again)
          (sound.distinct.outermost _ _ _ (old listed) again keyed)
        obtain rfl : inner = other := by
          rcases sound.distinct.apart _ _ _ keyed again with same | ⟨-, less⟩ |
              ⟨-, less⟩
          · exact same
          · exact absurd level (Nat.ne_of_lt less)
          · exact absurd level (Nat.ne_of_gt less)
        exact Stock.term_notMem_of_nodup sound.linear parts owned listed

/--
A declaration that was admitted to its name is told apart from those that have
it already.
-/
private theorem Sound.distinct_of_dub
    {older newer : Worksite}
    (sound : older.Sound)
    (keeps : older.Keeps newer)
    (upright : newer.Upright)
    (arena : newer.arena = older.arena.updateDecl decl fun old =>
      { old with name := name, form := form, span := span })
    (before : older.stock = .begun decl ::ₘ .unnamed decl scope place ::ₘ
      (fee + (Piece.terms form.children + rest)))
    (after : newer.stock = .term (.decl decl) ::ₘ .fresh decl scope key place
      ::ₘ rest)
    (fees : fee ≤ {.unspent name})
    (admits : ∀ number, key = .placeholder number →
      older.Admits rest scope form number)
    (plain : form.isPlain = true) :
    newer.Distinct := by
  have old {piece : Piece} (listed : piece ∈ rest) : piece ∈ older.stock := by
    simp [before, listed]
  obtain ⟨dubbed, inside⟩ :=
    upright.backed (.fresh decl scope key place) (by simp [after])
  have held : older.arena.Holds (.decl decl) :=
    (sound.begun decl (by simp [Begun, before])).1
  have formed : (newer.arena.decl decl).form = form := by
    rw [arena, Arena.decl_updateDecl held]
  have same {other : DeclId} (apart : other ≠ decl) :
      newer.arena.decl other = older.arena.decl other := by
    rw [arena, Arena.decl_updateDecl_of_ne apart]
  have mints {other : NameId} {number : Nat}
      (now : newer.arena.Mints other number) :
      older.arena.Mints other number := by rwa [arena] at now
  have known {other : DeclId} {number : Nat} (apart : other ≠ decl)
      (keyed : newer.Keyed other (.placeholder number)) :
        older.Keyed other (.placeholder number) := by
    refine sound.keyed_before keeps keyed
      ((Arena.holds_updateDecl _ _).mp (arena ▸ keyed.held)) ?_
    rintro ⟨region, origin, listed⟩
    have unpaid : Piece.unnamed other region origin ∉ fee := fun paid => by
      cases Multiset.mem_singleton.mp (Multiset.mem_of_le fees paid)
    refine keyed.christened ⟨region, origin, ?_⟩
    simpa [before, after, Piece.terms, apart, unpaid] using listed
  have admitted {number : Nat}
      (keyed : newer.Keyed decl (.placeholder number)) :
      older.Admits rest scope form number := admits number (dubbed.unique keyed)
  have covers {other : DeclId} {number : Nat} (apart : other ≠ decl)
      (first : newer.Keyed decl (.placeholder number))
      (second : newer.Keyed other (.placeholder number)) :
        newer.Covers decl other := by
    obtain ⟨⟨parms, constraint?, inner, wraps⟩, less⟩ :=
      (admitted first).covers (known apart second)
    refine ⟨by simp [Arena.isTemplate, formed, wraps], ?_⟩
    rwa [inside, same apart]
  have loose {other : DeclId} (listed : Piece.term (.decl other) ∈ newer.stock)
      (apart : other ≠ decl) :
      Piece.term (.decl other) ∈ rest := by simpa [after, apart] using listed
  refine ⟨fun other number now => ?_, fun first second number one two => ?_,
    fun other number now listed carries keyed =>
      ?_, fun first second number one two => ?_,
    fun first second number listed one two => ?_, fun other number keyed => ?_⟩
  · rw [arena]
    exact sound.distinct.below _ _ (mints now)
  · exact sound.distinct.single _ _ _ (mints one) (mints two)
  · have listed : Piece.unspent other ∈ rest := by simpa [after] using listed
    by_cases here : now = decl
    · subst here
      exact (admitted keyed).spent listed (mints carries)
    · exact sound.distinct.unspent _ _ _ (old listed) (mints carries)
        (known here keyed)
  · by_cases here : first = decl <;> by_cases there : second = decl
    · exact .inl (here.trans there.symm)
    · subst here
      exact .inr (.inl (covers there one two))
    · subst there
      exact .inr (.inr (covers here two one))
    · simpa only [Covers, Arena.isTemplate, same here, same there] using
        sound.distinct.apart _ _ _ (known here one) (known there two)
  · by_cases here : first = decl <;> by_cases there : second = decl
    · rw [here, there]
    · subst here
      exact Nat.le_of_lt (covers there one two).2
    · subst there
      exact absurd (known here one) ((admitted two).gone (loose listed here))
    · rw [same here, same there]
      exact sound.distinct.outermost _ _ _ (old (loose listed here))
        (known here one)
        (known there two)
  · by_cases here : other = decl
    · rw [here, formed, plain]
    · rw [same here]
      exact sound.distinct.plain _ _ (known here keyed)

/--
A declaration gets its name and its final form at once, and is at hand with its
name.
-/
theorem Sound.dub
    (sound : Sound
      { arena := arena, table := table, saved := saved
        stock := .begun decl ::ₘ .unnamed decl scope place ::ₘ
          (fee + (Piece.terms form.children + rest)) })
    (named : Piece.named name key true ∈ rest)
    (entitled : rest.Entitles scope form name key fee)
    (plain : form.isPlain = true) :
    Keeps
        { arena := arena, table := table, saved := saved
          stock := .begun decl ::ₘ .unnamed decl scope place ::ₘ
            (fee + (Piece.terms form.children + rest)) }
        { arena := arena.updateDecl decl fun old =>
            { old with name := name, form := form, span := span }
          table := table, saved := saved
          stock :=
            .term (.decl decl) ::ₘ .fresh decl scope key place ::ₘ rest } ∧
      Sound
        { arena := arena.updateDecl decl fun old =>
            { old with name := name, form := form, span := span }
          table := table, saved := saved
          stock :=
            .term (.decl decl) ::ₘ .fresh decl scope key place ::ₘ rest } := by
  obtain ⟨keeps, upright⟩ :=
    @Upright.dub arena table saved rest decl scope name key place form span
    fee sound.toUpright named entitled plain
  refine ⟨keeps, upright, sound.distinct_of_dub keeps upright rfl rfl rfl
    entitled.fee_le ?_ plain⟩
  rintro number rfl
  exact sound.admits rfl named entitled

end

end Worksite

/--
A step of building keeps what was said of a sound worksite, and leaves a sound
one behind.
-/
theorem BuildStep.sound
    {order : Order}
    {before after : Worksite}
    (step : BuildStep order before after)
    (sound : before.Sound) :
    before.Keeps after ∧ after.Sound := by
  cases step with
  | add adds spelled warranted => exact sound.add adds spelled warranted
  | mint span => exact sound.mintName span
  | begin decl hollow nameless early room starts =>
      exact sound.begin hollow nameless room
  | christen named => exact sound.christen named
  | complete located named starts rests => exact sound.complete located named
  | dub named entitled plain starts => exact sound.dub named entitled plain
  | bind behind => exact sound.bind
  | push room => exact sound.push room
  | save room => exact sound.save room
  | @relax _ rest scope place further onward stock =>
      obtain ⟨arena, table, saved, _⟩ := before
      subst stock
      have inside : scope.raw < table.size :=
        sound.backed (.binder scope place) (Multiset.mem_cons_self ..)
      refine sound.restock (fun piece listed => ?_)
        (fun piece listed mark => ?_)
        (by simp [Piece.claims])
      · rcases Multiset.mem_cons.mp listed with rfl | old
        · exact .inr ⟨rfl, inside⟩
        · exact .inl (Multiset.mem_cons_of_mem old)
      · rcases Multiset.mem_cons.mp listed with rfl | old
        · cases mark
        · exact Multiset.mem_cons_of_mem old
  | @claim _ scope place unordered room =>
      have inside : scope.raw < before.table.size :=
        sound.backed (.room scope) room
      exact sound.note rfl inside rfl
  | noteMember found member =>
      exact sound.note rfl ((sound.members _ _ _ found).2 _ member) rfl
  | noteAgain bound => exact sound.note rfl (sound.backed _ bound) rfl
  | noteBound bound =>
      obtain ⟨keyed, -⟩ := sound.backed _ bound
      exact sound.note rfl ⟨⟨keyed.name, .inl keyed.key⟩, fun _ =>
        keyed.key⟩ rfl
  | noteApplied held applied bound =>
      exact sound.note rfl
        ⟨⟨held, .inr ⟨_, applied, (sound.backed _ bound).1⟩⟩, Bool.noConfusion⟩
          rfl
  | noteSince fresh => exact sound.note rfl trivial rfl
  | noteOpens held opens => exact sound.note rfl held rfl
  | noteBody held block opens => exact sound.note rfl held rfl
  | @doze _ rest decl scope place stop params saving rising early stock =>
      obtain ⟨arena, table, saved, _⟩ := before
      subst stock
      refine sound.restock (fun piece listed => ?_)
        (fun piece listed mark => ?_)
        (by simp [Piece.claims])
      · rcases Multiset.mem_cons.mp listed with rfl | old
        · refine .inr ⟨rfl, sound.backed (.saved decl scope) (by simp [saving]),
            fun param given => ?_⟩
          exact sound.backed (.fresh param.1 scope param.2.1 param.2.2)
            (by
              simp only [Piece.slated, Multiset.mem_cons, Multiset.mem_add,
                Multiset.mem_coe]
              exact .inr (.inl (List.mem_map_of_mem given)))
        · exact .inl (by simp [old])
      · simp only [Piece.slated, Multiset.mem_cons, Multiset.mem_add,
          Multiset.mem_coe, List.mem_map] at listed
        rcases listed with rfl | ⟨param, -, rfl⟩ | old
        · cases mark
        · cases mark
        · exact Multiset.mem_cons_of_mem old

/-- So does a run of steps. -/
theorem BuildSteps.sound
    {order : Order}
    {before after : Worksite}
    (steps : BuildSteps order before after)
    (sound : before.Sound) :
    before.Keeps after ∧ after.Sound := by
  induction steps with
  | refl => exact ⟨.refl _, sound⟩
  | tail _ step inductionHypothesis =>
      obtain ⟨keeps, middle⟩ := inductionHypothesis
      obtain ⟨further, last⟩ := step.sound middle
      exact ⟨keeps.trans further, last⟩

end Tern
