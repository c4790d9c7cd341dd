import Tern.Proofs.Building.Additions

namespace Tern

/-!
# Names and what they denote

A name that is looked up denotes declarations that are bound under it, all in
one scope. A name that is read for a declaration is a term of its own, which
nothing owns: a template shares it with the declaration in it.
-/

/-- A set found outward from a scope is the set of some scope. -/
theorem ScopeTable.exists_findLocal?
    {table : ScopeTable}
    {scope : ScopeId}
    {key : Key}
    {set : OverloadSet}
    (found : table.find? scope key = some set) :
    ∃ region, table.findLocal? region key = some set := by
  rw [find?] at found
  generalize table.size + 1 = fuel at found
  induction fuel generalizing scope with
  | zero => cases found
  | succ fuel inductionHypothesis =>
      rw [findWithin?] at found
      split at found
      next inner => exact ⟨scope, by rw [inner, found]⟩
      next =>
          split at found
          · exact inductionHypothesis found
          · cases found

/-- It is known of declarations that they are bound in a scope under one key. -/
def Piece.bounds
    (region : ScopeId)
    (key : Key)
    (decls : List DeclId) :
    List Piece :=
  decls.map fun decl => .bound decl region key

/-- Of each declaration it is known where it is bound. -/
theorem Piece.mem_bounds
    {region : ScopeId}
    {key : Key}
    {decls : List DeclId}
    {decl : DeclId}
    (listed : decl ∈ decls) :
    .bound decl region key ∈ bounds region key decls :=
  List.mem_map_of_mem listed

namespace Builds

variable {Value First : Type} {order : Order} {input : ParserInput}
  {scope : ScopeId}
  {facts : List Piece} {pre : Stock} {start : Nat}
    {post : Nat → Value → Stock → Prop}

/-- Of each member of a set it is noted that it is bound. -/
private theorem recallAll
    {arena : Arena}
    {table : ScopeTable}
    {saved : List (DeclId × ScopeId)}
    {region : ScopeId}
    {name : Name}
    {set decls : OverloadSet}
    (found : table.findLocal? region (.simple name) = some set)
    (members : decls ⊆ set)
    (rest : Stock) :
    BuildSteps order
      { arena := arena, table := table, saved := saved, stock := rest }
      { arena := arena, table := table, saved := saved
        stock := ↑(Piece.bounds region (.simple name) decls) + rest } := by
  induction decls with
  | nil => exact regroup (zero_add rest).symm
  | cons decl decls inductionHypothesis =>
      obtain ⟨member, others⟩ := List.cons_subset.mp members
      refine .trans (inductionHypothesis others)
        (.head (.noteMember found member) (regroup ?_))
      rw [← Multiset.cons_add, Multiset.cons_coe]
      rfl

/-- What a name denotes is bound under it, all in one scope. -/
theorem lookup? (name : Name) :
    Builds order input scope facts 0 start
        (Parser.lookup? name) fun _ found? out =>
      ∃ region, out = ↑(Piece.bounds region (.simple name) (found?.getD [])) :=
  of_done fun state rest stands _ _ => by
    have atSame := { stands with onward := Nat.le_refl _ }
    cases found : state.scopes.find? state.scopes.current (.simple name) with
    | none =>
        exact ⟨none, state, 0, congrArg (Outcome.done · state) found, atSame,
          fun _ => rfl,
          ⟨scope, rfl⟩, .refl⟩
    | some set =>
        obtain ⟨region, within⟩ := ScopeTable.exists_findLocal? found
        refine ⟨some set, state, _, congrArg (Outcome.done · state) found,
          atSame, fun _ => rfl,
          ⟨region, rfl⟩, ?_⟩
        rw [zero_add]
        exact recallAll within (List.Subset.refl _) rest

/-- An identifier is read as a name. -/
theorem identifier (reads : order.Reads input) :
    Builds order input scope facts 0 start Parser.identifier fun later id out =>
      start < later ∧ start < input.window.stop ∧
        ∃ spelling, out = {.term (.name id)} +
          {.named id (.simple spelling) true} := by
  refine call (expectIdentifier reads) ?_
  rintro ⟨name, span⟩ later _ - ⟨onward, inside, rfl⟩
  refine (addSimple name span).weaken ?_
  rintro id last _ further rfl
  exact ⟨Nat.lt_of_lt_of_le onward further, inside, _, rfl⟩

/-- Behind an identifier the rest knows how it is spelled. -/
theorem identified
    {next : NameId → Parser Value}
    (reads : order.Reads input)
    (rest : ∀ id spelling later, start < later → start < input.window.stop →
      Builds order input scope (.named id (.simple spelling) true :: facts) pre
        later (next id) post) :
    Builds order input scope facts pre start (Parser.identifier >>= next)
      post := by
  refine call (identifier reads) ?_
  rintro id later _ - ⟨onward, inside, spelling, rfl⟩
  rw [add_assoc]
  exact drop (keep (rest id spelling later onward inside))

/--
Behind an identifier, or a name minted in its place, the rest knows its key, and
can pay for a declaration to have that name.
-/
theorem identifiedOrMinted
    {next : NameId → Parser Value}
    {place : Span}
    (reads : order.Reads input)
    (rest : ∀ id key, Builds order input scope (.named id key true :: facts)
      (Piece.fee id key + pre) start (next id) post) :
    Builds order input scope facts pre start
      (Parser.identifierOrPlaceholder place >>= next)
      post := by
  have name : Builds order input scope facts 0 start
      (Parser.identifierOrPlaceholder place)
      fun _ id out => ∃ key, out = {.term (.name id)} +
          ({.named id key true} + Piece.fee id key) := by
    refine Builds.next (observe _) fun _ => ite (fun _ => ?_) fun _ => ?_
    · refine (identifier reads).weaken ?_
      rintro id last _ - ⟨-, -, spelling, rfl⟩
      exact ⟨.simple spelling, by simp [Piece.fee]⟩
    · refine (addPlaceholder place).weaken ?_
      rintro id last _ - ⟨number, rfl⟩
      exact ⟨.placeholder number, rfl⟩
  refine call name ?_
  rintro id later _ onward ⟨key, rfl⟩
  rw [add_assoc, add_assoc]
  exact drop (keep ((rest id key).later onward))

end Builds

end Tern
