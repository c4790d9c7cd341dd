import Tern.Proofs.Building.Places
import Tern.Proofs.Elaboration.MergePolicy
import Tern.Proofs.Elaboration.Passes
import Tern.Proofs.Elaboration.Rearranging

namespace Tern

/-!
# Elaborators keep worksites arranged

An elaborator takes an arranged worksite to an arranged one. What has been
merged away is of no account any more, and is reported more than once if it is a
member again. Fragments are parsed where no one else binds, parameters are bound
in their turn, and a template starts where the function does that it is put
around.
-/

/-- The order that the tokens give to what begins at them. -/
def ElabInput.order (input : ElabInput) : Order :=
  input.tokens.order input.options.mode

/-- The tokens lie one behind the other, as those of a text do. -/
structure ElabInput.Scanned (input : ElabInput) : Prop where
  aligned : input.tokens.Aligned
  ascending : input.tokens.Ascending

namespace ElabState

/-- The worksite that a state shows, with pieces at hand. -/
def site (state : ElabState) (stock : Stock) : Worksite :=
  { arena := state.arena, table := state.scopes.table,
    saved := state.scopes.saved, stock := stock }

/-- A declaration has been merged into another one. -/
def Retired (state : ElabState) (decl : DeclId) : Prop :=
  decl ∈ state.findings.merges.map Prod.fst

/-- The number of times that a declaration has been reported as a member. -/
def told (state : ElabState) (decl : DeclId) : Nat :=
  (state.findings.memberships.map Membership.decl).count decl

/--
A state shows a sound worksite, which is arranged but for what has been merged
away. That has been reported as a member, and once more if it is one again.
-/
structure Stands
    (input : ElabInput)
    (origin : Arena)
    (state : ElabState) :
    Prop where
  wellFormed : state.scopes.WellFormed
  sited : ∃ stock, (state.site stock).Since origin
  arranged : (state.site 0).Arranged input.order state.Retired fun _ => False
  told : ∀ {decl}, state.Retired decl →
    1 ≤ state.told decl ∧
      (state.scopes.table.Enlists decl → 2 ≤ state.told decl)

/--
From one state to another elaboration goes on within its frame, and neither
merges nor reports.
-/
structure Tends
    (input : ElabInput)
    (origin : Arena)
    (state after : ElabState) :
    Prop where
  stands : after.Stands input origin
  framed : Arena.Framed input origin state.arena after.arena
  settles : Arena.Settles input.tokens state.arena after.arena
  saved : ∀ {decl scope}, state.scopes.saved.lookup decl = some scope →
    after.scopes.saved.lookup decl = some scope
  merges : after.findings.merges = state.findings.merges
  memberships : after.findings.memberships = state.findings.memberships

/-- From one state to another elaboration goes on within its frame. -/
structure Leads
    (input : ElabInput)
    (origin : Arena)
    (state after : ElabState) :
    Prop where
  stands : after.Stands input origin
  framed : Arena.Framed input origin state.arena after.arena
  settles : Arena.Settles input.tokens state.arena after.arena
  saved : ∀ {decl scope}, state.scopes.saved.lookup decl = some scope →
    after.scopes.saved.lookup decl = some scope

/--
What parsing in a scope makes of a state: all is arranged, apart from the
declarations that have this scope, if anything may be bound in it.
-/
structure Parses (input : ElabInput) (scope : ScopeId) (binds : Prop)
    (state after : ElabState) : Prop where
  arranged : (after.site 0).Arranged input.order state.Retired fun decl =>
    binds ∧ state.scopes.saved.lookup decl = some scope
  sound : ∃ stock, (after.site stock).Sound
  extended : state.arena.Extends after.arena
  saved : ∀ {decl scope}, state.scopes.saved.lookup decl = some scope →
    after.scopes.saved.lookup decl = some scope
  enlists : ∀ {decl}, state.scopes.table.Enlists decl →
    after.scopes.table.Enlists decl
  enlisted : ∀ {decl}, state.arena.Holds (.decl decl) →
    after.scopes.table.Enlists decl →
    state.scopes.table.Enlists decl
  declared : ∀ {decl}, state.arena.Holds (.decl decl) →
    after.arena.Declares decl →
    state.arena.Declares decl
  findings : after.findings = state.findings

variable {input : ElabInput} {origin : Arena} {state middle after : ElabState}

namespace Leads

theorem refl (stands : state.Stands input origin) :
    Leads input origin state state where
  stands := stands
  framed := .refl _ _ _
  settles := .refl _ _
  saved := id

theorem trans
    (first : Leads input origin state middle)
    (second : Leads input origin middle after) :
    Leads input origin state after where
  stands := second.stands
  framed := first.framed.trans second.framed
  settles := first.settles.trans second.settles
  saved known := second.saved (first.saved known)

/-- What lies in its place goes on doing so. -/
theorem laid
    (leads : Leads input origin state after)
    (scanned : input.Scanned)
    {term : Term}
    (laid : state.arena.Laid .empty input.tokens term) :
    after.arena.Laid .empty input.tokens term :=
  (leads.settles scanned.aligned term laid).1

end Leads

namespace Tends

theorem refl (stands : state.Stands input origin) :
    Tends input origin state state where
  stands := stands
  framed := .refl _ _ _
  settles := .refl _ _
  saved := id
  merges := rfl
  memberships := rfl

theorem trans
    (first : Tends input origin state middle)
    (second : Tends input origin middle after) :
    Tends input origin state after where
  stands := second.stands
  framed := first.framed.trans second.framed
  settles := first.settles.trans second.settles
  saved known := second.saved (first.saved known)
  merges := second.merges.trans first.merges
  memberships := second.memberships.trans first.memberships

/-- Nothing but that is asked of elaboration in general. -/
theorem leads (tends : Tends input origin state after) :
    Leads input origin state after where
  stands := tends.stands
  framed := tends.framed
  settles := tends.settles
  saved := tends.saved

/-- What was merged away was so before. -/
theorem retired_iff (tends : Tends input origin state after) {decl : DeclId} :
    after.Retired decl ↔ state.Retired decl := by
  rw [Retired, Retired, tends.merges]

end Tends

namespace Stands

variable {Value : Type} {action : Elab Value} {value : Value}
  {known : Stock → Worksite → Value → Prop}

/-- Whatever is at hand, all is arranged. -/
theorem arrangedWith (stands : state.Stands input origin) (stock : Stock) :
    (state.site stock).Arranged input.order state.Retired fun _ => False :=
  stands.arranged.restock stock

/-- What has been merged away is declared, so it is stored. -/
theorem held_of_retired
    (stands : state.Stands input origin)
    {decl : DeclId}
    (retired : state.Retired decl) :
    state.arena.Holds (.decl decl) :=
  have ⟨_, since⟩ := stands.sited
  (since.sound.whole_of_declares (stands.arranged.gone retired).1).1

/-- What works leads to another worksite when it is done. -/
theorem reach
    (stands : state.Stands input origin)
    (works : ∀ stock, (state.site stock).Sound →
      Works input origin (state.site stock) action (known stock))
    (run : action input state = .done value after) :
    ∃ stock more, (state.site stock).Since origin ∧ after.scopes.WellFormed ∧
      (state.site stock).Onward input origin (after.site more) ∧
        known stock (after.site more) value := by
  obtain ⟨stock, since⟩ := stands.sited
  obtain ⟨⟨_, _, _, more⟩, ⟨rfl, rfl, rfl, wellFormed⟩, onward, fact⟩ :=
    (works stock since.sound).reach ⟨rfl, rfl, rfl, stands.wellFormed⟩ since run
  exact ⟨stock, more, since, wellFormed, onward, fact⟩

/--
What neither merges nor reports goes on if all is arranged afterwards, and what
has been merged away is a member only if it was one at some point on the way.
-/
theorem onward
    (stands : state.Stands input origin)
    (works : ∀ stock, (state.site stock).Sound →
      Works input origin (state.site stock) action (known stock))
    (run : action input state = .done value after)
    (tends : Tends input origin state middle)
    (arranged : (after.site 0).Arranged input.order middle.Retired fun _ =>
      False)
    (members : ∀ {decl}, middle.Retired decl → after.scopes.table.Enlists decl →
      middle.scopes.table.Enlists decl)
    (merges : after.findings.merges = middle.findings.merges)
    (memberships : after.findings.memberships = middle.findings.memberships) :
    Tends input origin state after := by
  obtain ⟨stock, more, since, wellFormed, onward, -⟩ := stands.reach works run
  have retired : after.Retired = middle.Retired := by
    funext decl
    rw [Retired, Retired, merges]
  refine
    { stands :=
        { wellFormed := wellFormed
          sited := ⟨more, onward.since since⟩
          arranged := retired ▸ arranged
          told := fun {decl} gone => ?_ }
      framed := onward.framed
      settles := onward.settles
      saved := onward.keeps.saved
      merges := merges.trans tends.merges
      memberships := memberships.trans tends.memberships }
  rw [retired] at gone
  rw [ElabState.told, memberships]
  exact ⟨(tends.stands.told gone).1, fun enlists =>
    (tends.stands.told gone).2 (members gone enlists)⟩

/-- So it does if no merged declaration has become a member. -/
theorem tends
    (stands : state.Stands input origin)
    (works : ∀ stock, (state.site stock).Sound →
      Works input origin (state.site stock) action (known stock))
    (run : action input state = .done value after)
    (arranged : (after.site 0).Arranged input.order state.Retired fun _ =>
      False)
    (members : ∀ {decl}, state.Retired decl → after.scopes.table.Enlists decl →
      state.scopes.table.Enlists decl)
    (merges : after.findings.merges = state.findings.merges)
    (memberships : after.findings.memberships = state.findings.memberships) :
    Tends input origin state after :=
  stands.onward works run (.refl stands) arranged members merges memberships

/-- So does what changes no statement, and binds nothing but minted names. -/
theorem beside
    (stands : state.Stands input origin)
    (works : ∀ stock, (state.site stock).Sound →
      Works input origin (state.site stock) action (known stock))
    (run : action input state = .done value after)
    (stmts : after.arena.stmts = state.arena.stmts)
    (same : ∀ scope name, after.scopes.table.findLocal? scope (.simple name) =
      state.scopes.table.findLocal? scope (.simple name))
    (members : ∀ {decl}, state.scopes.table.Enlists decl →
      after.scopes.table.Enlists decl)
    (fewer : ∀ {decl}, state.arena.Holds (.decl decl) →
      after.scopes.table.Enlists decl →
      state.scopes.table.Enlists decl)
    (merges : after.findings.merges = state.findings.merges)
    (memberships : after.findings.memberships = state.findings.memberships) :
    Tends input origin state after := by
  obtain ⟨stock, more, since, -, onward, -⟩ := stands.reach works run
  refine stands.tends works run ?_
    (fun retired => fewer (stands.held_of_retired retired)) merges
    memberships
  have arranged : (after.site more).Arranged input.order state.Retired fun _ =>
      False :=
    (stands.arrangedWith stock).beside since.sound
      (fun held => (onward.framed.decl held).resembles)
      onward.framed.definition stmts same members onward.keeps.saved
  exact arranged.restock 0

/--
A fragment is parsed in a scope where all that is bound starts in front of it.
All stays arranged, apart from the declarations that have that scope. Of what is
at hand only the marks are left, so that nobody else has a right to bind.
-/
theorem parseRange
    (fragment : Fragment Value)
    {scope : ScopeId}
    {range : TokenRange}
    (stands : state.Stands input origin)
    (scanned : input.Scanned)
    (room : scope.raw < state.scopes.table.size)
    (nonempty : range.start < range.stop)
    (inside : range.stop ≤ input.tokens.size)
    (before : scope ∈ Stock.rights (fragment.needs scope range.start) →
      state.scopes.table.BindsBefore state.arena state.Retired scope
        (input.order.startOf range.start))
    (run : Elab.parseRange scope range fragment.captured input state =
      .done value after) :
    state.Parses input scope
      (scope ∈ Stock.rights (fragment.needs scope range.start)) after := by
  obtain ⟨stock, since⟩ := stands.sited
  let window := Window.ofRange input.tokens range
  let parserInput : ParserInput :=
    { window := window, names := input.names, mode := input.options.mode }
  let parserState : ParserState :=
    .start window (state.scopes.enter scope) state.arena
  let marks : Stock := stock.filter fun piece => piece.isMark = true
  have marked {piece : Piece} (listed : piece ∈ marks) : piece ∈ stock ∧
      piece.isMark = true :=
    Multiset.mem_filter.mp listed
  let pieces : Stock := fragment.needs scope range.start + .room scope ::ₘ marks
  have ready : (state.site pieces).Sound := by
    refine (@Worksite.Sound.restock (state.site stock) pieces since.sound
      (fun piece listed => ?_)
      (fun piece listed mark => ?_) ?_).2
    · rcases Multiset.mem_add.mp listed with need | noted
      · obtain rfl := fragment.mem_needs need
        exact .inr ⟨rfl, room⟩
      · rcases Multiset.mem_cons.mp noted with rfl | mark
        · exact .inr ⟨rfl, room⟩
        · exact .inl (marked mark).1
    · exact Multiset.mem_add.mpr
        (.inr
          (Multiset.mem_cons_of_mem (Multiset.mem_filter.mpr ⟨listed, mark⟩)))
    · simp only [pieces, Stock.claims_add, Stock.claims_cons,
        fragment.claims_needs, Piece.claims, zero_add]
      exact Stock.claims_le (Multiset.filter_le _ _)
  have reads : input.order.Reads parserInput :=
    scanned.ascending.reads rfl (Window.ofRange_closed _ _)
      (by
        show max (min range.stop input.tokens.size) range.start ≤
          input.tokens.size
        omega) _ _
  have starts : parserState.At parserInput scope window.start :=
    { current := rfl, wellFormed := stands.wellFormed.enter scope,
      onward := Nat.le_refl _
      inside := Nat.le_max_right _ _ }
  have site (stock : Stock) : parserState.site stock = state.site stock := by
    simp [parserState, ParserState.site, ParserState.start, Scopes.enter,
      ElabState.site]
  have built :=
    fragment.builds reads (List.mem_singleton_self (Piece.room scope))
      parserState
    false (.room scope ::ₘ marks) starts (by simp) (by
      simp only [site, ParserTrack.pieces, add_zero]
      exact ready)
  have leaves := fragment.composed.leaves_changedSince parserInput
    (.refl starts.wellFormed : parserState.ChangedSince parserState) (by simp)
  simp only [Elab.parseRange, Action.run] at run
  split at run
  next value last ending =>
    cases run
    have ending : fragment.captured parserInput parserState =
        .done value last := ending
    rw [ending] at built leaves
    obtain ⟨-, out, more, given, steps⟩ := built
    simp only [ParserTrack.pieces, add_zero, site] at steps
    have steps : BuildSteps input.order (state.site pieces)
        (last.site (out + more + .room scope ::ₘ marks)) := steps
    obtain ⟨keeps, soundNow⟩ := steps.sound ready
    have extended : state.arena.Extends last.arena := leaves.arena
    have old {piece : Piece} (listed : piece ∈ pieces)
        (mark : piece.isMark = true) :
        piece ∈ out + more + .room scope ::ₘ marks := by
      rcases Multiset.mem_add.mp listed with need | noted
      · obtain rfl := fragment.mem_needs need
        cases mark
      · exact Multiset.mem_add.mpr (.inr noted)
    have rights : Stock.rights pieces =
        Stock.rights (fragment.needs scope range.start) := by
      have none : Stock.rights marks = 0 :=
        Stock.rights_eq_zero fun piece listed => by
        have mark := (marked listed).2
        cases piece <;> first | rfl | cases mark
      simp [pieces, none, Piece.rights]
    have right {home : ScopeId} (listed : home ∈ Stock.rights pieces) :
        home = scope ∧
          scope ∈ Stock.rights (fragment.needs scope range.start) := by
      rw [rights] at listed
      obtain ⟨piece, need, among⟩ := Stock.mem_rights.mp listed
      obtain rfl := fragment.mem_needs need
      obtain rfl := Multiset.mem_singleton.mp among
      exact ⟨rfl, listed⟩
    have single : (Stock.rights pieces).Nodup := by
      rw [rights]
      cases fragment with
      | type => exact Multiset.nodup_zero
      | expression => exact Multiset.nodup_zero
      | body => exact Multiset.nodup_singleton _
      | members => exact Multiset.nodup_singleton _
    have loose (decl : DeclId) : Piece.term (.decl decl) ∉ pieces :=
      fun listed => by
      rcases Multiset.mem_add.mp listed with need | noted
      · cases fragment.mem_needs need
      · rcases Multiset.mem_cons.mp noted with same | mark
        · cases same
        · cases (marked mark).2
    have placed : ∀ piece ∈ pieces,
        piece.Placed input.order state.Retired (state.site pieces)
        (state.site pieces) := by
      intro piece listed
      rcases Multiset.mem_add.mp listed with need | noted
      · obtain rfl := fragment.mem_needs need
        exact before
          (Stock.mem_rights.mpr ⟨_, need, Multiset.mem_singleton_self _⟩)
      · rcases Multiset.mem_cons.mp noted with rfl | mark
        · trivial
        · have kind := (marked mark).2
          cases piece with
          | unnamed decl home place => exact .inl ⟨home, place, listed⟩
          | begun decl => trivial
          | _ => cases kind
    have enrolls := BuildSteps.enrolls steps ready
    obtain ⟨arranged, members, declared⟩ :=
      (stands.arrangedWith pieces).built steps trivial
      scanned.ascending.strictMono_startAt ready single
      (by
        rintro decl ⟨home, place, listed⟩
        exact ⟨home, place, old listed rfl⟩)
      (fun {decl} kept => kept.elim (fun listed => absurd listed (loose decl))
        fun begun => .inr (old begun rfl)) placed extended
    refine
      { arranged := (Worksite.Arranged.apart arranged ?_).restock 0
        sound := ⟨_, soundNow⟩
        extended := extended
        saved := keeps.saved
        enlists := enrolls.members
        enlisted := fun held now => members now held
        declared := fun held now => declared now held
        findings := rfl }
    rintro decl ⟨-, home, listed, saved⟩
    obtain ⟨rfl, needed⟩ := right listed
    exact ⟨needed, saved⟩
  · cases run
  · cases run

/--
A type or an expression that is parsed moves into the slot of its tokens, and
all stays arranged.
-/
private theorem parseInto
    (fragment : Fragment Value)
    {scope : ScopeId}
    {range : TokenRange}
    {change : Value → Arena → Arena}
    (stands : state.Stands input origin)
    (scanned : input.Scanned)
    (room : scope.raw < state.scopes.table.size)
    (nonempty : range.start < range.stop)
    (inside : range.stop ≤ input.tokens.size)
    (inline : Stock.rights (fragment.needs scope range.start) = 0)
    (others : ∀ value arena, (change value arena).decls = arena.decls ∧
      (change value arena).definitions = arena.definitions ∧
        (change value arena).stmts = arena.stmts)
    (run : (do
        let parsed ← Elab.parseRange scope range fragment.captured
        Elab.changeArena (change parsed)) input state = .done () after) :
    (after.site 0).Arranged input.order state.Retired (fun _ => False) ∧
      (∀ {decl}, state.arena.Holds (.decl decl) →
        after.scopes.table.Enlists decl →
        state.scopes.table.Enlists decl) ∧ after.findings = state.findings := by
  obtain ⟨parsed, middle, first, last⟩ := Action.done_of_bind run
  cases last
  have right : scope ∉ Stock.rights (fragment.needs scope range.start) := by
    rw [inline]
    exact Multiset.notMem_zero _
  have parses := stands.parseRange fragment scanned room nonempty inside
    (fun needed => absurd needed right) first
  obtain ⟨stock, sound⟩ := parses.sound
  obtain ⟨decls, definitions, stmts⟩ := others parsed middle.arena
  have whole : (middle.site stock).Arranged input.order state.Retired fun _ =>
      False :=
    (parses.arranged.apart fun now => right now.1).restock stock
  let later : Worksite :=
    { middle.site stock with arena := change parsed middle.arena }
  have moved : later.Arranged input.order state.Retired fun _ => False := by
    refine whole.beside sound (fun _ => .of_eq ?_) (fun _ => ?_) stmts
      (fun _ _ => rfl) id id
    · simp only [later, ElabState.site, Arena.decl, decls]
    · simp only [later, ElabState.site, Arena.definition, definitions]
  exact ⟨moved.restock 0, parses.enlisted, parses.findings⟩

/-- A type that is a range of tokens is parsed, and no statement changes. -/
theorem completeType
    {type : TypeId}
    {scope : ScopeId}
    (stands : state.Stands input origin)
    (scanned : input.Scanned)
    (room : scope.raw < state.scopes.table.size)
    (laid : state.arena.Laid .empty input.tokens (.type type))
    (run : Elab.completeType type scope input state = .done () after) :
    Tends input origin state after ∧ ∀ {stmt : StmtId},
      state.arena.Holds (.stmt stmt) →
      after.arena.stmt stmt = state.arena.stmt stmt := by
  have works (stock : Stock) (_ : (state.site stock).Sound) :=
    @Works.completeType input origin (state.site stock) scope room type
      ⟨laid.here.held, nofun⟩
  obtain ⟨_, _, -, -, -, spares, -⟩ := stands.reach works run
  refine ⟨?_, spares.stmts⟩
  obtain ⟨_, _, observed, rest⟩ := Action.done_of_bind run
  cases observed
  cases form : (state.arena.type type).form with
  | unparsed range =>
      obtain ⟨nonempty, inside, -⟩ := laid.here.encloses.captured range
        (by rw [Arena.range?, form]; rfl)
      rw [form] at rest
      obtain ⟨arranged, members, findings⟩ :=
        stands.parseInto .type scanned room nonempty inside rfl
        (fun value arena => by
          unfold Arena.moveType
          split <;> exact ⟨rfl, rfl, rfl⟩) rest
      exact stands.tends works run arranged
        (fun retired => members (stands.held_of_retired retired))
        (congrArg Findings.merges findings)
          (congrArg Findings.memberships findings)
  | _ =>
      rw [form] at rest
      cases rest
      exact .refl stands

/-- An expression that is a range of tokens is parsed. -/
theorem completeExpr
    {expr : ExprId}
    {scope : ScopeId}
    (stands : state.Stands input origin)
    (scanned : input.Scanned)
    (room : scope.raw < state.scopes.table.size)
    (laid : state.arena.Laid .empty input.tokens (.expr expr))
    (run : Elab.completeExpr expr scope input state = .done () after) :
    Tends input origin state after := by
  have works (stock : Stock) (_ : (state.site stock).Sound) :=
    @Works.completeExpr input origin (state.site stock) scope room expr
      ⟨laid.here.held, nofun⟩
  obtain ⟨_, _, observed, rest⟩ := Action.done_of_bind run
  cases observed
  cases form : (state.arena.expr expr).form with
  | unparsed range =>
      obtain ⟨nonempty, inside, -⟩ := laid.here.encloses.captured range
        (by rw [Arena.range?, form]; rfl)
      rw [form] at rest
      obtain ⟨arranged, members, findings⟩ :=
        stands.parseInto .expression scanned room nonempty
        inside rfl (fun value arena => by
          unfold Arena.moveExpr
          split <;> exact ⟨rfl, rfl, rfl⟩) rest
      exact stands.tends works run arranged
        (fun retired => members (stands.held_of_retired retired))
        (congrArg Findings.merges findings)
          (congrArg Findings.memberships findings)
  | _ =>
      rw [form] at rest
      cases rest
      exact .refl stands

/-- Declarations reach phases, and nothing else changes. -/
private theorem rephase
    {raised : DeclId → Prop}
    {arena : Arena}
    (stands : state.Stands input origin)
    (works : ∀ stock, (state.site stock).Sound →
      Works input origin (state.site stock) action (known stock))
    (run : action input state = .done value { state with arena := arena })
    (rephased : state.arena.Rephased raised arena) :
    Tends input origin state { state with arena := arena } :=
  stands.beside works run (by rw [rephased.arena]) (fun _ _ => rfl) id
    (fun _ => id) rfl rfl

/-- A declaration reaches a phase. -/
theorem raise
    {decl : DeclId}
    {phase : Phase}
    (stands : state.Stands input origin)
    (whole : ∀ stock, (state.site stock).Sound →
      (state.site stock).Whole (.decl decl))
    (run : Elab.raise decl phase input state = .done () after) :
    Tends input origin state after ∧ after.arena.stmts = state.arena.stmts ∧
      (after.arena.decl decl).phase =
        (state.arena.decl decl).phase.latest phase := by
  obtain ⟨stock, since⟩ := stands.sited
  have held : state.arena.Holds (.decl decl) := (whole stock since.sound).1
  have ran : Elab.raise decl phase input state = .done ()
      { state with arena := state.arena.updateDecl decl fun old =>
        old.raiseTo phase } := rfl
  have tends :=
    stands.rephase (fun stock sound => Works.raise phase (whole stock sound))
      ran
    (.raise state.arena decl phase)
  cases run
  refine ⟨tends, rfl, ?_⟩
  show (((state.arena.updateDecl decl _)).decl decl).phase = _
  rw [Arena.decl_updateDecl held]
  rfl

/-- Declarations reach a phase. -/
theorem raiseAll
    {decls : List DeclId}
    {phase : Phase}
    (stands : state.Stands input origin)
    (whole : ∀ stock, (state.site stock).Sound →
      ∀ decl ∈ decls, (state.site stock).Whole (.decl decl))
    (run : Elab.raiseAll decls phase input state = .done () after) :
    Tends input origin state after ∧ after.arena.stmts = state.arena.stmts := by
  obtain ⟨arena, rfl, rephased, -⟩ := Elab.raiseAll_done run
  exact ⟨stands.rephase
    (fun stock sound => Works.raiseAll phase (whole stock sound)) run rephased,
    by rw [rephased.arena]⟩

/-- The parameters of requires-expressions reach a phase. -/
theorem raiseRequiresParams
    {decl : DeclId}
    {phase : Phase}
    (stands : state.Stands input origin)
    (whole : ∀ stock, (state.site stock).Sound →
      (state.site stock).Whole (.decl decl))
    (run : Elab.raiseRequiresParams decl phase input state = .done () after) :
    Tends input origin state after ∧ after.arena.stmts = state.arena.stmts := by
  have works (stock : Stock) (sound : (state.site stock).Sound) :=
    @Works.raiseRequiresParams input origin _ decl phase (whole stock sound)
  obtain ⟨arena, rfl, rephased, -⟩ := Elab.raiseAll_done run
  exact ⟨stands.rephase works run rephased, by rw [rephased.arena]⟩

/-- The scope of a declaration is looked up, or added and saved. -/
theorem scopeFor
    {decl : DeclId}
    {parent scope : ScopeId}
    {kind : ScopeKind}
    (stands : state.Stands input origin)
    (held : state.arena.Holds (.decl decl))
    (room : parent.raw < state.scopes.table.size)
    (run : Elab.inScopes (fun scopes => scopes.scopeFor decl parent kind) input
      state =
      .done scope after) :
    Tends input origin state after ∧ after.arena = state.arena ∧
      after.scopes.saved.lookup decl = some scope ∧
        scope.raw < after.scopes.table.size := by
  have works (stock : Stock) (_ : (state.site stock).Sound) :=
    @Works.scopeFor input origin (state.site stock) decl parent kind held room
  obtain ⟨_, _, -, -, -, roomy, saved, -, -⟩ := stands.reach works run
  have table (home : ScopeId) (key : Key) :
      (state.scopes.scopeFor decl parent kind).2.table.findLocal? home key =
        state.scopes.table.findLocal? home key := by
    cases found : state.scopes.saved.lookup decl with
    | some scope =>
        have same : (state.scopes.scopeFor decl parent kind).2 =
            state.scopes := by
          simp [Scopes.scopeFor, Scopes.savedScope?, found]
        rw [same]
    | none =>
        have pushed : (state.scopes.scopeFor decl parent kind).2.table =
            state.scopes.table.push
              { parent? := some parent, kind := kind, bindings := [] } := by
          simp [Scopes.scopeFor, Scopes.savedScope?, found, Scopes.push]
        rw [pushed]
        exact ScopeTable.findLocal?_push ..
  cases run
  refine ⟨stands.beside works rfl rfl (fun _ _ => table _ _) (fun was => ?_)
    (fun _ now => ?_) rfl rfl,
    rfl, saved, roomy⟩
  · obtain ⟨home, key, set, found, member⟩ := was
    exact ⟨home, key, set, (table _ _).trans found, member⟩
  · obtain ⟨home, key, set, found, member⟩ := now
    exact ⟨home, key, set, (table _ _).symm.trans found, member⟩

/-- A type parameter is minted, and no statement changes. -/
theorem mintTypeParam
    {slot : TypeId}
    {scope : ScopeId}
    {index : Nat}
    {parm : DeclId}
    (stands : state.Stands input origin)
    (whole : ∀ stock, (state.site stock).Sound →
      (state.site stock).Whole (.type slot))
    (inferred : (state.arena.type slot).form = .builtin .auto)
    (reached : state.arena.BelowParam slot)
    (room : scope.raw < state.scopes.table.size)
    (run : Elab.mintTypeParam slot scope index input state = .done parm after) :
    Tends input origin state after ∧ after.arena.stmts = state.arena.stmts := by
  obtain ⟨decl, found⟩ := reached.found
  have works (stock : Stock) (sound : (state.site stock).Sound) :=
    @Works.mintTypeParam input origin (state.site stock) decl slot scope index
      (whole stock sound) inferred ⟨found⟩ room
  let span := (state.arena.type slot).span
  let named := state.arena.addPlaceholder span
  let declared := named.2.addDecl
    { name := named.1, specifiers := .none, form := .typeParameter index none,
      span := span
      scope := scope, phase := .typeElaborated }
  let typed := declared.2.addType (.declared declared.1 named.1) span
  have ran : Elab.mintTypeParam slot scope index input state = .done declared.1
      { state with
        arena := typed.2.moveType slot typed.1
        scopes :=
          (state.scopes.declare scope (declared.2.keyOf named.1) declared.1).2
            } := rfl
  have key : declared.2.keyOf named.1 =
      .placeholder state.arena.placeholders := by
    refine Arena.keyOf_of_key? ?_
    simp [declared, named, Arena.addDecl, Arena.addPlaceholder, Arena.addName,
      Arena.name, NameForm.key?]
  have table :
      (state.scopes.declare scope (declared.2.keyOf named.1)
        declared.1).2.table =
      state.scopes.table.put scope (declared.2.keyOf named.1)
        ((state.scopes.table.findLocal? scope (declared.2.keyOf named.1)).getD
          [] ++ [declared.1]) := by
    simp [Scopes.declare, Scopes.findLocal?]
  have stmts : (typed.2.moveType slot typed.1).stmts = state.arena.stmts := by
    unfold Arena.moveType
    split <;> rfl
  cases ran.symm.trans run
  refine ⟨stands.beside works ran stmts (fun home name => ?_) (fun was => ?_)
    (fun held now => ?_) rfl rfl, stmts⟩
  · dsimp only
    rw [table, ScopeTable.findLocal?_put_eq, if_neg (by simp [key])]
  · dsimp only
    rw [table]
    exact was.append _
  · dsimp only at now
    rw [table] at now
    refine (ScopeTable.eq_or_enlists_of_append now).resolve_left ?_
    rintro rfl
    exact Arena.not_holds_addDecl
      _ ((state.arena.extends_addPlaceholder span).holds held)

/--
A template takes the place of a function that was not typed before, and starts
where it does.
-/
theorem wrapInTemplate
    {stmt : StmtId}
    {decl : DeclId}
    {parms : List DeclId}
    (stands : state.Stands input origin)
    (holds : (state.arena.stmt stmt).form = .declaration decl)
    (counts : ¬ state.Retired decl)
    (run : Elab.wrapInTemplate (some stmt) decl parms input state =
      .done () after) :
    (after.site 0).Arranged input.order state.Retired (fun _ => False) ∧
      (∀ {decl}, state.arena.Holds (.decl decl) →
        after.scopes.table.Enlists decl →
        state.scopes.table.Enlists decl) ∧
          (∀ {other}, other ≠ stmt → after.arena.stmt other =
            state.arena.stmt other) ∧
            after.findings = state.findings ∧ ∃ wrapper,
              (after.arena.stmt stmt).form = .declaration wrapper ∧
                (after.arena.decl wrapper).phase = .typeElaborated := by
  obtain ⟨stock, since⟩ := stands.sited
  have declares := Arena.declares_of_stmt holds
  have held : state.arena.Holds (.decl decl) :=
    (since.sound.whole_of_declares declares).1
  let old := state.arena.decl decl
  let wrapper : Decl :=
    { name := old.name, specifiers := .none, form := .template parms none decl,
      span := old.span
      scope := old.scope, phase := .typeElaborated }
  let wrapping := state.arena.addDecl wrapper
  let arena := wrapping.2.setStmtForm stmt (.declaration wrapping.1)
  have key : arena.keyOf old.name = state.arena.declKey decl := by
    obtain ⟨key, keyed⟩ :=
      since.sound.keyed_of_whole (since.sound.whole_of_declares declares)
    have named : (arena.name old.name).form.key? = some key := keyed.key
    exact (Arena.keyOf_of_key? named).trans (Arena.keyOf_of_key? keyed.key).symm
  obtain ⟨set, found, member⟩ := since.sound.member_of_enlists
    ((stands.arranged.settled holds).resolve_right counts)
  have listed : set.idxOf? decl = some (set.idxOf decl) :=
    List.findIdx?_eq_some_iff_findIdx_eq.mpr
      ⟨List.idxOf_lt_length_of_mem member, rfl⟩
  have found : state.scopes.table.findLocal? old.scope (arena.keyOf old.name) =
      some set :=
    key ▸ found
  obtain ⟨changed, replaced⟩ : ∃ changed, state.scopes.replaceMember? old.scope
      (arena.keyOf old.name) decl wrapping.1 = some changed := by
    simp [Scopes.replaceMember?, Scopes.findLocal?, found, listed]
  have ran : Elab.wrapInTemplate (some stmt) decl parms input state =
      .done () { state with arena := arena, scopes := changed } := by
    have general : Elab.wrapInTemplate (some stmt) decl parms input state = _ :=
      Elab.wrapInTemplate_run input state stmt decl parms
    rw [general, replaced, Option.getD_some]
  obtain ⟨setAgain, position, foundAgain, listedAgain, table, saved, -⟩ :=
    Scopes.of_replaceMember? replaced
  cases found.symm.trans foundAgain
  cases listed.symm.trans listedAgain
  cases ran.symm.trans run
  have stored : wrapping.2.Holds (.stmt stmt) :=
    (state.arena.extends_addDecl wrapper).holds
      (Arena.holds_of_declaration holds)
  have now : (arena.stmt stmt).form = .declaration wrapping.1 := by
    rw [Arena.node_setStmtForm stored]
  have decls {other : DeclId} (stored : state.arena.Holds (.decl other)) :
      arena.decl other = state.arena.decl other :=
    (state.arena.extends_addDecl wrapper).decl_eq stored
  have template : arena.decl wrapping.1 = wrapper :=
    state.arena.decl_addDecl wrapper
  have others {other : StmtId} (apart : other ≠ stmt) :
      arena.stmt other = state.arena.stmt other :=
    Arena.reads_setStmtForm (fun same => apart (Term.stmt.inj same)) _
  have starts : arena.startOf wrapping.1 = arena.startOf decl := by
    rw [Arena.startOf, Arena.startOf, template, decls held]
  let later : Worksite :=
    { (state.site stock) with
      arena := arena
      table := state.scopes.table.put old.scope (arena.keyOf old.name)
        (set.set (set.idxOf decl) wrapping.1) }
  have arranged : later.Arranged input.order state.Retired fun _ => False :=
    (stands.arrangedWith stock).wrap since.sound holds counts found listed decls
      (fun _ => rfl)
      others now (congrArg Decl.form template) starts
  refine ⟨?_, fun {other} stored enlists => ?_, others, rfl, wrapping.1,
    now, by rw [template]⟩
  · have same : ElabState.site { state with arena := arena, scopes := changed }
      0 =
        { later with stock := 0 } := by
      simp only [later, ElabState.site, table, saved]
    rw [same]
    exact arranged.restock 0
  · dsimp only at enlists
    rw [table] at enlists
    rcases ScopeTable.mem_or_enlists_of_put enlists with among | before
    · rcases List.mem_or_eq_of_mem_set among with old | rfl
      · exact ⟨_, _, set, found, old⟩
      · exact absurd stored (Arena.not_holds_addDecl wrapper)
    · exact before

/-- A template gets more parameters, and all stays arranged. -/
theorem extendTemplate
    {wrapper inner : DeclId}
    {parms more : List DeclId}
    {constraint? : Option ExprId}
    (stands : state.Stands input origin)
    (form : (state.arena.decl wrapper).form = .template parms constraint? inner)
    (run : Elab.extendTemplate wrapper more input state = .done () after) :
    (after.site 0).Arranged input.order state.Retired (fun _ => False) ∧
      after.scopes = state.scopes ∧ after.arena.stmts = state.arena.stmts ∧
        after.findings = state.findings := by
  obtain ⟨stock, since⟩ := stands.sited
  obtain ⟨change, same, changed⟩ := Elab.exists_extendTemplate_eq form more
  rw [same] at run
  cases run
  refine ⟨?_, rfl, rfl, rfl⟩
  let later : Worksite :=
    { (state.site stock) with arena := state.arena.updateDecl wrapper change }
  have arranged : later.Arranged input.order state.Retired fun _ => False := by
    refine (stands.arrangedWith stock).beside since.sound
      (fun {decl} held => ?_) (fun _ => rfl) rfl
      (fun _ _ => rfl) id id
    by_cases same : decl = wrapper
    · subst same
      have found : later.arena.decl decl = _ :=
        Arena.decl_updateDecl held change
      rw [ElabState.site, changed] at found
      exact ⟨by rw [found]; rfl, by rw [found]; exact Nat.le_refl _,
        .inr ⟨parms, parms ++ more, constraint?, inner, form, by rw [found]⟩⟩
    · exact .of_eq (Arena.decl_updateDecl_of_ne same change)
  exact arranged.restock 0

/--
Where nothing is merged or reported, and the same is stored and bound, nothing
has happened.
-/
theorem of_same
    (stands : state.Stands input origin)
    (arena : after.arena = state.arena)
    (scopes : after.scopes = state.scopes)
    (merges : after.findings.merges = state.findings.merges)
    (memberships : after.findings.memberships = state.findings.memberships) :
    Tends input origin state after := by
  obtain ⟨arenaNow, scopesNow, shapesNow, findingsNow⟩ := after
  obtain ⟨arenaThen, scopesThen, shapesThen, findingsThen⟩ := state
  dsimp only at arena scopes merges memberships
  subst arena scopes
  have retired :
      ElabState.Retired ⟨arenaNow, scopesNow, shapesNow, findingsNow⟩ =
      ElabState.Retired ⟨arenaNow, scopesNow, shapesThen, findingsThen⟩ := by
    funext decl
    simp only [Retired, merges]
  refine
    { stands :=
        { wellFormed := stands.wellFormed
          sited := stands.sited
          arranged := retired ▸ stands.arranged
          told := fun {decl} gone => ?_ }
      framed := .refl _ _ _
      settles := .refl _ _
      saved := id
      merges := merges
      memberships := memberships }
  rw [retired] at gone
  simp only [ElabState.told, memberships]
  exact stands.told gone

end Stands

end ElabState

end Tern
