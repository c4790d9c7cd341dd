import Tern.Compilation
import Tern.Proofs.Elaboration.Histories

namespace Tern

/-!
# What holds after every history

Whatever was parsed, taken back and elaborated before, the overload sets hold
what they should, the slots that terms store hold terms, and a unit is a tree.
An elaboration changes no more than its frame admits.
-/

namespace ParserState

/--
Every overload set holds, each once, declarations of its scope with its key, and
at least one. The scopes saved for declarations are there. A declaration that is
mentioned has the key of the name that it is mentioned by.
-/
structure Coherent (state : ParserState) : Prop where
  sets : ∀ {scope key set}, state.scopes.findLocal? scope key = some set →
    set ≠ [] ∧ set.Nodup ∧ ∀ decl ∈ set, state.arena.Holds (.decl decl) ∧
      (state.arena.decl decl).scope = scope ∧ state.arena.declKey decl = key
  saved : ∀ entry ∈ state.scopes.saved,
    state.arena.Holds (.decl entry.1) ∧ entry.2.raw < state.scopes.table.size
  mentions : ∀ {term}, state.arena.Holds term →
    ∀ mention ∈ state.arena.mentions term,
    state.arena.Holds (.name mention.1) ∧ state.arena.Holds (.decl mention.2) ∧
      state.arena.declKey mention.2 = state.arena.keyOf mention.1

/--
A slot stored in a term is not known yet, or it holds a term; so it is with
scopes.
-/
structure Stored (state : ParserState) : Prop where
  terms : ∀ {term}, state.arena.Holds term → ∀ other ∈ state.arena.stored term,
    other.isValid = false ∨ state.arena.Holds other
  scopes : ∀ {term}, state.arena.Holds term → ∀ scope ∈ state.arena.scope? term,
    scope.raw < state.scopes.table.size

end ParserState

/-- One step is enough to the key of a name that has one of its own. -/
private theorem Arena.keyWithin_of_key?
    {arena : Arena}
    {name : NameId}
    {key : Key}
    (fuel : Nat)
    (keyed : (arena.name name).form.key? = some key) :
    arena.keyWithin (fuel + 1) name = key := by
  cases form : (arena.name name).form <;> simp_all [keyWithin, NameForm.key?]

namespace Worksite

variable {site : Worksite}

/-- What a declaration is bound under is the key of its name. -/
private theorem Keyed.declKey_eq
    {decl : DeclId}
    {key : Key}
    (keyed : site.Keyed decl key) :
    site.arena.declKey decl = key :=
  Arena.keyOf_of_key? keyed.key

/--
A name without a key of its own has the key of the template that it applies.
-/
private theorem Named.keyOf_eq
    {name : NameId}
    {key : Key}
    (named : site.Named name key) :
    site.arena.keyOf name = key := by
  obtain ⟨held, plain | ⟨template, applied, keyed⟩⟩ := named
  · exact Arena.keyOf_of_key? plain
  · obtain ⟨fuel, size⟩ := Nat.exists_eq_succ_of_ne_zero
      (Nat.ne_of_gt (Nat.lt_of_le_of_lt (Nat.zero_le _) held))
    cases form : (site.arena.name name).form with
    | applied head args =>
        obtain rfl : head = template := by
          simpa [form, NameForm.template?] using applied
        rw [Arena.keyOf, Arena.keyWithin, form, size]
        exact Arena.keyWithin_of_key? fuel keyed.key
    | _ => simp [form, NameForm.template?] at applied

end Worksite

/-- A function with a parameter whose type is to be inferred. -/
def inferredParameter : ParserInput :=
  { window := .whole
      #[{ kind := .keyword .defWord, span := { start := 0, stop := 3 } },
        { kind := .identifier { number := 1 },
          span := { start := 4, stop := 5 } },
        { kind := .symbol (.opening .paren),
          span := { start := 5, stop := 6 } },
        { kind := .identifier { number := 2 },
          span := { start := 6, stop := 7 } },
        { kind := .symbol .colon, span := { start := 7, stop := 8 } },
        { kind := .keyword .autoWord, span := { start := 9, stop := 13 } },
        { kind := .symbol (.closing .paren),
          span := { start := 13, stop := 14 } },
        { kind := .symbol .semicolon, span := { start := 14, stop := 15 } }]
    names := { texts := ["", "f", "x"] }
    mode := .eager }

section

variable {snapshots : List Snapshot} {state : ParserState}

/--
After every history the scopes and the arena agree on what is bound where.
-/
theorem bindings_coherent (history : History snapshots state) :
    state.Coherent := by
  obtain ⟨wellFormed, -, stock, sound⟩ := history.grounded
  exact
    { sets := fun {scope key set} found => by
        obtain ⟨distinct, members⟩ := sound.members scope key set found
        refine ⟨Scopes.findLocal?_ne_nil wellFormed.noEmptySet found, distinct,
          fun decl listed => ?_⟩
        obtain ⟨keyed, inside⟩ := members decl listed
        exact ⟨keyed.held, inside, keyed.declKey_eq⟩
      saved := sound.saved
      mentions := fun held mention listed => by
        obtain ⟨key, named, keyed⟩ := (sound.fit _ held).mentions mention listed
        exact ⟨named.1, keyed.held, keyed.declKey_eq.trans named.keyOf_eq.symm⟩
          }

/-- The function is parsed, and bound in the outermost scope. -/
theorem bindings_coherent_inferredParameter :
    ∃ (unit : StmtId) (after : ParserState),
      Parser.unit.run inferredParameter
        (.start inferredParameter.window .initial .empty) =
          .done unit after ∧
        after.scopes.findLocal? { raw := 0 } (.simple { number := 1 }) =
          some [{ raw := 0 }] ∧
          after.Coherent :=
  ⟨_, _, rfl, rfl,
    bindings_coherent (.parse (.start inferredParameter.window) .unit
    inferredParameter (Window.whole_closed _) (Nat.zero_le _) (.inl ⟨_, rfl⟩))⟩

/-- A unit stays one when it is elaborated. -/
private theorem Arena.Framed.isUnit
    {input : ElabInput}
    {origin older newer : Arena}
    {unit : StmtId}
    (framed : Arena.Framed input origin older newer)
    (held : older.Holds (.stmt unit))
    (root : older.isUnit (.stmt unit) = true) :
    newer.isUnit (.stmt unit) = true := by
  rw [Arena.isUnit] at root ⊢
  cases framed.stmt held with
  | same same => rwa [same]
  | parsed _ captured _ => simp [captured, StmtForm.isUnit] at root
  | wrapped form _ _ _ => simp [form, StmtForm.isUnit] at root

/--
After every history the slots that terms store hold terms, or are not known yet.
What a unit owns is a tree when it was parsed, and when it was elaborated.
-/
theorem arena_wellFormed (history : History snapshots state) :
    state.Stored ∧
      (∀ (input : ParserInput) (unit : StmtId) (after : ParserState),
        input.window.Closed →
        state.position ≤ input.window.stop → Parser.unit.run input state =
          .done unit after →
          after.arena.Tree (.stmt unit)) ∧
      ∀ (input : ElabInput) (unit : StmtId) (before after : ElabState),
        snapshots = [] →
        state.arena.Holds (.stmt unit) → state.arena.isUnit (.stmt unit) =
          true →
          before.arena = state.arena → before.scopes = state.scopes →
            ((Elab.elaborateUnit unit).run input before).EndsIn after →
              after.arena.Tree (.stmt unit) := by
  have tree {snapshots : List Snapshot} {state : ParserState}
      (history : History snapshots state)
      {unit : StmtId} (held : state.arena.Holds (.stmt unit))
      (root : state.arena.isUnit (.stmt unit) = true) :
        state.arena.Tree (.stmt unit) := by
    obtain ⟨-, -, stock, sound⟩ := history.grounded
    exact (sound.rooted held root).tree
  refine ⟨?_, fun input unit after closed inside done => ?_,
    fun input unit before after none held root arena scopes ends => ?_⟩
  · obtain ⟨-, -, stock, sound⟩ := history.grounded
    exact ⟨fun held _ => sound.holds_of_stored held, fun held =>
      (sound.fit _ held).scope⟩
  · obtain ⟨held, stmts, scope, form⟩ :=
      Parser.AddsList.unit input state unit after done
    exact tree (history.parse .unit input closed inside (.inl ⟨_, done⟩)) held
      (by rw [Arena.isUnit, form]; rfl)
  · subst none
    obtain ⟨-, framed, -⟩ := history.grounded.elaborate held arena scopes ends
    exact tree (history.elaborate input unit held arena scopes ends)
      (framed.held held)
      (framed.isUnit held root)

/-- The unit with the function is a tree when it was parsed. -/
theorem arena_wellFormed_inferredParameter :
    ∃ (unit : StmtId) (after : ParserState),
      Parser.unit.run inferredParameter
        (.start inferredParameter.window .initial .empty) =
          .done unit after ∧
        after.arena.Tree (.stmt unit) :=
  ⟨_, _, rfl, (arena_wellFormed (.start inferredParameter.window)).2.1
    inferredParameter _ _
    (Window.whole_closed _) (Nat.zero_le _) rfl⟩

end

end Tern
