import Tern.Proofs.Elaboration.Histories

namespace Tern

/-!
# Minted names are fresh

Whatever was parsed, taken back and elaborated before, no two names carry one
minted number. So declarations with minted names stay alone under their keys.
-/

/--
Minted numbers are distinct and less than their count, and only one declaration
is bound in a scope under each. A declaration bound elsewhere under the same one
shares its name with it: of the two, the one further out is a template. So
whoever is looked up under the number of a declaration is that declaration
itself, or a template further out that has its name.
-/
structure ParserState.Fresh (state : ParserState) : Prop where
  below : ∀ {name number}, state.arena.Mints name number →
    number < state.arena.placeholders
  single : ∀ {first second number}, state.arena.Mints first number →
    state.arena.Mints second number → first = second
  alone : ∀ {scope number set},
    state.scopes.findLocal? scope (.placeholder number) = some set →
    ∃ decl, set = [decl]
  apart : ∀ {here there number one two},
    state.scopes.findLocal? here (.placeholder number) = some [one] →
    state.scopes.findLocal? there (.placeholder number) = some [two] →
      one = two ∨ (here.raw < there.raw ∧ state.arena.isTemplate one = true) ∨
        (there.raw < here.raw ∧ state.arena.isTemplate two = true)
  uncaptured : ∀ {home scope number one set},
    state.scopes.findLocal? home (.placeholder number) = some [one] →
    state.arena.isTemplate one = false →
    state.scopes.find? scope (.placeholder number) = some set →
      set = [one] ∨ ∃ outer, set = [outer] ∧ state.arena.isTemplate outer =
        true ∧
          (state.arena.decl outer).scope.raw < home.raw

namespace Worksite

variable {site : Worksite} {scope : ScopeId} {number : Nat} {set : OverloadSet}

/-- Two declarations of one scope with one minted name are the same. -/
private theorem Sound.unique_of_minted
    (sound : site.Sound)
    {first second : DeclId}
    (one : site.Keyed first (.placeholder number))
    (two : site.Keyed second (.placeholder number))
    (level : (site.arena.decl first).scope = (site.arena.decl second).scope) :
    first = second := by
  rcases sound.distinct.apart first second number one two with same |
      ⟨-, less⟩ | ⟨-, less⟩
  · exact same
  · exact absurd less (level ▸ Nat.lt_irrefl _)
  · exact absurd less (level ▸ Nat.lt_irrefl _)

/-- A set that is bound under a minted number has one member. -/
private theorem Sound.alone
    (sound : site.Sound)
    (found : site.table.findLocal? scope (.placeholder number) = some set)
    (nonempty : set ≠ []) :
    ∃ decl, set = [decl] := by
  obtain ⟨nodup, members⟩ := sound.members scope (.placeholder number) set found
  obtain ⟨decl, rest, rfl⟩ := List.exists_cons_of_ne_nil nonempty
  refine ⟨decl, ?_⟩
  cases rest with
  | nil => rfl
  | cons other rest =>
      obtain ⟨one, here⟩ := members decl (by simp)
      obtain ⟨two, there⟩ := members other (by simp)
      obtain rfl := sound.unique_of_minted one two (here.trans there.symm)
      simp at nodup

end Worksite

/-- On a sound worksite minted names are fresh. -/
private theorem ParserState.Grounded.fresh
    {state : ParserState}
    (grounded : state.Grounded) :
    state.Fresh := by
  obtain ⟨wellFormed, -, stock, sound⟩ := grounded
  have alone {scope : ScopeId} {number : Nat} {set : OverloadSet}
      (found : state.scopes.findLocal? scope (.placeholder number) = some set) :
      ∃ decl, set = [decl] :=
    sound.alone found (Scopes.findLocal?_ne_nil wellFormed.noEmptySet found)
  have keyed {scope : ScopeId} {number : Nat} {decl : DeclId}
      (found : state.scopes.findLocal? scope (.placeholder number) =
        some [decl]) :
      (state.site stock).Keyed decl (.placeholder number) ∧
        (state.arena.decl decl).scope = scope :=
    (sound.members scope (.placeholder number) [decl] found).2 decl
      (List.mem_singleton_self _)
  have apart {here there : ScopeId} {number : Nat} {one two : DeclId}
      (first : state.scopes.findLocal? here (.placeholder number) = some [one])
      (second : state.scopes.findLocal? there (.placeholder number) =
        some [two]) :
      one = two ∨ (here.raw < there.raw ∧ state.arena.isTemplate one = true) ∨
        (there.raw < here.raw ∧ state.arena.isTemplate two = true) := by
    obtain ⟨oneKeyed, rfl⟩ := keyed first
    obtain ⟨twoKeyed, rfl⟩ := keyed second
    exact (sound.distinct.apart one two number oneKeyed twoKeyed).imp_right
      (Or.imp And.symm And.symm)
  refine ⟨sound.distinct.below _ _, sound.distinct.single _ _ _, alone,
    apart, ?_⟩
  intro home scope number one set bound plain found
  obtain ⟨region, within⟩ := ScopeTable.exists_findLocal? found
  obtain ⟨other, rfl⟩ := alone within
  rcases apart bound within with rfl | ⟨-, wraps⟩ | ⟨further, wraps⟩
  · exact .inl rfl
  · simp [plain] at wraps
  · exact .inr ⟨other, rfl, wraps, (keyed within).2.symm ▸ further⟩

/--
A base class without a name, and a template of another with a parameter without
one.
-/
def unnamedSupers : ParserInput :=
  { window := .whole
      #[{ kind := .keyword .superWord, span := { start := 0, stop := 5 } },
        { kind := .symbol .colon, span := { start := 6, stop := 7 } },
        { kind := .keyword .intWord, span := { start := 8, stop := 11 } },
        { kind := .symbol .semicolon, span := { start := 11, stop := 12 } },
        { kind := .keyword .templateWord, span := { start := 13, stop := 21 } },
        { kind := .symbol .less, span := { start := 21, stop := 22 } },
        { kind := .keyword .typenameWord, span := { start := 22, stop := 30 } },
        { kind := .symbol .greater, span := { start := 30, stop := 31 } },
        { kind := .keyword .superWord, span := { start := 32, stop := 37 } },
        { kind := .symbol .colon, span := { start := 38, stop := 39 } },
        { kind := .keyword .boolWord, span := { start := 40, stop := 44 } },
        { kind := .symbol .semicolon, span := { start := 44, stop := 45 } }]
    names := { texts := [""] }
    mode := .eager }

section

variable {snapshots : List Snapshot} {state : ParserState}

/--
Minted names are fresh after every history. A trial that is rewound gives its
numbers back: it leaves the state that it began in, in which they are fresh too.
-/
theorem placeholders_fresh (history : History snapshots state) :
    state.Fresh ∧ ∀ latest older, snapshots = latest :: older →
      ∃ base : ParserState,
        latest = base.snapshot.1 ∧ state.restore latest = base ∧
          base.Fresh := by
  refine ⟨history.grounded.fresh, ?_⟩
  rintro latest older rfl
  obtain ⟨-, watched⟩ := history.grounded_watched
  cases watched with
  | @taken _ base _ watched grounded changed =>
      exact ⟨base, rfl, changed.restore_snapshot grounded.wellFormed,
        grounded.fresh⟩

end

/--
The last of the three numbers is bound twice: outside to the template, inside to
the class. The parser that is taken back has given out none.
-/
theorem placeholders_fresh_unnamedSupers :
    ∃ (mark : Snapshot) (before after : ParserState) (unit : StmtId),
      ParserState.snapshot (.start unnamedSupers.window .initial .empty) =
        (mark, before) ∧
        Parser.unit.run unnamedSupers before = .done unit after ∧
        after.arena.placeholders = 3 ∧
        after.scopes.findLocal? { raw := 0 } (.placeholder 2) =
          some [{ raw := 1 }] ∧
        after.arena.isTemplate { raw := 1 } = true ∧
        after.scopes.findLocal? { raw := 1 } (.placeholder 2) =
          some [{ raw := 3 }] ∧
        after.arena.isTemplate { raw := 3 } = false ∧
        after.Fresh ∧
        (after.restore mark).arena.placeholders = 0 ∧
        (after.restore mark).Fresh := by
  obtain ⟨fresh, rewound⟩ := placeholders_fresh
    (.parse (.snapshot (.start unnamedSupers.window)) .unit unnamedSupers
      (Window.whole_closed _)
      (Nat.zero_le _) (.inl ⟨_, rfl⟩))
  obtain ⟨base, -, restored, free⟩ := rewound _ _ rfl
  exact ⟨_, _, _, _, rfl, rfl, rfl, rfl, rfl, rfl, rfl, fresh, rfl,
    restored ▸ free⟩

end Tern
