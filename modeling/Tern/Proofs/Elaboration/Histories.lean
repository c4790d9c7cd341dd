import Tern.Proofs.Elaboration.Passes

namespace Tern

/-!
# Histories

Parsers and elaborators work on one arena and one table of scopes, one after the
other. Parsing may fail, snapshots may be restored or released in the order of a
stack, and a failed elaboration may be followed by another one. Whatever the
history, the worksite stays sound.
-/

/-- A run is done or has failed in a state. -/
def Outcome.EndsIn
    {Failure State Value : Type}
    (outcome : Outcome Failure State Value)
    (after : State) : Prop :=
  (∃ value, outcome = .done value after) ∨ ∃ failure, outcome =
    .failed failure after

/-- Whether a run is done with a value and a state that pass a check. -/
def Outcome.passes
    {Failure State Value : Type}
    (outcome : Outcome Failure State Value)
    (check : Value → State → Bool) : Bool :=
  match outcome with
  | .done value state => check value state
  | .failed _ _ => false
  | .exhausted => false

/-- A run that passes a check is done. -/
theorem Outcome.done_of_passes
    {Failure State Value : Type}
    {outcome : Outcome Failure State Value}
    {check : Value → State → Bool}
    (passed : outcome.passes check = true) :
    ∃ value state, outcome = .done value state ∧ check value state = true := by
  cases outcome with
  | done value state => exact ⟨value, state, rfl, passed⟩
  | _ => cases passed

/--
The parsers that are called from outside: whole units, captured fragments and
nonterminals.
-/
inductive Parser.IsEntry : {Value : Type} → Parser Value → Prop where
  | unit : IsEntry Parser.unit
  | fragment {Value : Type} (fragment : Fragment Value) :
      IsEntry fragment.captured
  | nonterminal {Value : Type} (nonterminal : Nonterminal Value)
      (alone : nonterminal.standsAlone = true) :
        IsEntry (Parser.parse nonterminal)

/--
What parsing and elaborating can make of an empty arena and the scopes before
anything is parsed, with the snapshots still outstanding, latest first. A new
parser may stand anywhere in its window, and keep track of anything.
-/
inductive History : List Snapshot → ParserState → Prop where
  | start (window : Window) : History [] (.start window .initial .empty)
  | stand {snapshots : List Snapshot} {state : ParserState}
      (history : History snapshots state)
      (position : Nat) (track : ParserTrack) :
      History snapshots { state with position := position, track := track }
  | enter {snapshots : List Snapshot} {state : ParserState}
      (history : History snapshots state)
      (scope : ScopeId) (inside : scope.raw < state.scopes.table.size) :
      History snapshots { state with scopes := state.scopes.enter scope }
  | parse {snapshots : List Snapshot} {state after : ParserState} {Value : Type}
      {parser : Parser Value} (history : History snapshots state)
        (entry : Parser.IsEntry parser)
      (input : ParserInput) (closed : input.window.Closed)
      (inside : state.position ≤ input.window.stop)
      (ends : (parser.run input state).EndsIn after) : History snapshots after
  | snapshot {snapshots : List Snapshot} {state : ParserState}
      (history : History snapshots state) :
      History (state.snapshot.1 :: snapshots) state.snapshot.2
  | restore {snapshots : List Snapshot} {state : ParserState}
      {latest : Snapshot}
      (history : History (latest :: snapshots) state) :
        History snapshots (state.restore latest)
  | release {snapshots : List Snapshot} {state : ParserState}
      {latest : Snapshot}
      (history : History (latest :: snapshots) state) :
        History snapshots state.release
  | /-- No snapshot is outstanding when a unit is elaborated. -/
    elaborate {state : ParserState} {before after : ElabState}
      (history : History [] state)
      (input : ElabInput) (unit : StmtId)
        (held : state.arena.Holds (.stmt unit))
      (arena : before.arena = state.arena)
        (scopes : before.scopes = state.scopes)
      (ends : ((Elab.elaborateUnit unit).run input before).EndsIn after) :
      History [] { state with arena := after.arena, scopes := after.scopes }

namespace ParserState

/--
A state is a sound worksite with some pieces at hand, and its current scope is
stored.
-/
structure Grounded (state : ParserState) : Prop where
  wellFormed : state.scopes.WellFormed
  room : state.scopes.current.raw < state.scopes.table.size
  sound : ∃ stock, (state.site stock).Sound

end ParserState

/-- Nothing is out of order before anything is parsed. -/
theorem Worksite.Sound.initial :
    Worksite.Sound
      { arena := .empty, table := Scopes.initial.table, saved := [],
        stock := 0 } := by
  have missing {term : Term} : ¬ Arena.empty.Holds term := by
    cases term <;> simp [Arena.Holds, Arena.empty]
  have unbound {scope : ScopeId} {key : Key} {set : OverloadSet}
      (found : Scopes.initial.table.findLocal? scope key = some set) :
        False := by
    obtain ⟨raw⟩ := scope
    cases raw <;>
      simp [Scopes.initial, ScopeTable.initial, ScopeTable.findLocal?,
        Bindings.find?] at found
  exact
    { forest :=
        { below := fun whole => absurd whole.1 missing
          nodup := fun whole => absurd whole.1 missing
          single := fun whole => absurd whole.1 missing
          loose := fun listed => absurd listed (Multiset.notMem_zero _) }
      linear := Multiset.nodup_zero
      backed := fun _ listed => absurd listed (Multiset.notMem_zero _)
      begun := fun _ listed => absurd listed (Multiset.notMem_zero _)
      unnamed := fun _ _ _ listed => absurd listed (Multiset.notMem_zero _)
      unbound := fun _ listed => absurd listed (Multiset.notMem_zero _)
      unsaved := fun _ listed => absurd listed (Multiset.notMem_zero _)
      christened := fun _ held => absurd held missing
      fit := fun _ held => absurd held missing
      members := fun _ _ _ found => (unbound found).elim
      parents := fun scope parent found => by
        obtain ⟨raw⟩ := scope
        cases raw <;>
          simp [Scopes.initial, ScopeTable.initial, ScopeTable.parentOf?]
            at found
      saved := by rintro _ ⟨⟩
      located := fun _ whole => absurd whole.1 missing
      distinct :=
        { below := fun _ _ mints => absurd mints.1 missing
          single := fun _ _ _ mints => absurd mints.1 missing
          unspent := fun _ _ _ listed => absurd listed (Multiset.notMem_zero _)
          apart := fun _ _ _ keyed => absurd keyed.held missing
          outermost :=
            fun _ _ _ listed => absurd listed (Multiset.notMem_zero _)
          plain := fun _ _ keyed => absurd keyed.held missing } }

namespace Parser.IsEntry

variable {Value : Type} {parser : Parser Value} (entry : IsEntry parser)

include entry

/-- A parser called from outside is composed of steps. -/
private theorem composed : Composed [] parser := by
  cases entry with
  | unit => exact .unit
  | fragment fragment => exact fragment.composed
  | nonterminal nonterminal => exact .parse nonterminal

/-- It takes no more than the right to bind in its scope. -/
private theorem builds
    {order : Order}
    {input : ParserInput}
    (scope : ScopeId)
    (start : Nat)
    (reads : order.Reads input) :
    ∃ (pre : Stock) (post : Nat → Value → Stock → Prop),
      (pre = 0 ∨ pre = {.binder scope start}) ∧
        Builds order input scope [.room scope] pre start parser post := by
  have room : Piece.room scope ∈ [Piece.room scope] := List.mem_singleton_self _
  cases entry with
  | unit => exact ⟨_, _, .inr rfl, .unit reads room⟩
  | fragment fragment =>
      refine ⟨_, _, ?_, fragment.builds reads room⟩
      cases fragment with
      | type => exact .inl rfl
      | expression => exact .inl rfl
      | body => exact .inr rfl
      | members => exact .inr rfl
  | nonterminal nonterminal alone =>
      refine ⟨_, _, ?_, nonterminal.builds reads room⟩
      cases nonterminal with
      | params bound => cases bound <;> simp [Nonterminal.needs]
      | _ => first | exact .inl rfl | exact .inr rfl | cases alone

end Parser.IsEntry

namespace ParserState.Grounded

variable {state after : ParserState}

/-- Only the scopes and the arena count. -/
theorem congr
    (grounded : state.Grounded)
    (arena : after.arena = state.arena)
    (table : after.scopes.table = state.scopes.table)
    (saved : after.scopes.saved = state.scopes.saved)
    (wellFormed : after.scopes.WellFormed)
    (room : after.scopes.current.raw < state.scopes.table.size) :
    after.Grounded where
  wellFormed := wellFormed
  room := table.symm ▸ room
  sound := by
    obtain ⟨stock, sound⟩ := grounded.sound
    refine ⟨stock, ?_⟩
    rwa [site, arena, table, saved]

/--
Whether parsing is done or fails, it has built something from what was at hand
and no more than rights to bind in the current scope.
-/
theorem steps
    {Value : Type}
    {parser : Parser Value}
    {input : ParserInput}
    {stock : Stock}
    (grounded : state.Grounded)
    (sound : (state.site stock).Sound)
    (entry : Parser.IsEntry parser)
    (closed : input.window.Closed)
    (inside : state.position ≤ input.window.stop)
    (ends : (parser.run input state).EndsIn after) :
    ∃ rights more : Stock,
      (∀ piece ∈ rights, piece = .binder state.scopes.current state.position ∨
        piece = .room state.scopes.current) ∧
        (state.site (rights + stock)).Sound ∧
          BuildSteps Order.none (state.site (rights + stock))
            (after.site more) ∧
            after.scopes.WellFormed ∧ after.scopes.current =
              state.scopes.current := by
  have reads : Order.none.Reads input :=
    { closed := closed, starts := False.elim, behind := False.elim,
      rising := False.elim
      eager := False.elim }
  let scope := state.scopes.current
  obtain ⟨pre, post, needs, builds⟩ :=
    entry.builds scope state.position reads
  have right {piece : Piece} (listed : piece ∈ pre) :
      piece = .binder scope state.position := by
    rcases needs with rfl | rfl
    · exact absurd listed (Multiset.notMem_zero _)
    · exact Multiset.mem_singleton.mp listed
  have claims : pre.claims = 0 := by rcases needs with rfl | rfl <;> rfl
  have split : pre + state.track.pieces false + .room scope ::ₘ stock =
      .room scope ::ₘ pre + stock := by
    simp [ParserTrack.pieces]
  have ready :
      (state.site (pre + state.track.pieces false +
        .room scope ::ₘ stock)).Sound := by
    refine (@Worksite.Sound.restock
      _ (pre + state.track.pieces false + .room scope ::ₘ stock) sound
      (fun piece listed => ?_) (fun _ listed _ =>
        Multiset.mem_add.mpr (.inr (Multiset.mem_cons_of_mem listed)))
      (by simp [claims, Piece.claims, ParserTrack.pieces, site])).2
    simp only [ParserTrack.pieces, add_zero, Multiset.mem_add,
      Multiset.mem_cons] at listed
    rcases listed with need | rfl | old
    · obtain rfl := right need
      exact .inr ⟨rfl, grounded.room⟩
    · exact .inr ⟨rfl, grounded.room⟩
    · exact .inl old
  have built := builds state false (.room scope ::ₘ stock)
    ⟨rfl, grounded.wellFormed, Nat.le_refl _, inside⟩ (by simp) ready
  rw [split] at ready built
  refine ⟨.room scope ::ₘ pre, ?_⟩
  have rights : ∀ piece ∈ .room scope ::ₘ pre,
      piece = .binder scope state.position ∨ piece = .room scope :=
        fun piece listed =>
    (Multiset.mem_cons.mp listed).symm.imp_left right
  rcases ends with ⟨value, done⟩ | ⟨error, failed⟩
  · have done : parser input state = .done value after := done
    rw [done] at built
    obtain ⟨stands, out, more, -, steps⟩ := built
    exact ⟨_, rights, ready, steps, stands.wellFormed, stands.current⟩
  · have failed : parser input state = .failed error after := failed
    rw [failed] at built
    obtain ⟨current, wellFormed, more, steps⟩ := built
    exact ⟨_, rights, ready, steps, wellFormed, current⟩

/-- Whether parsing is done or fails, it leaves a sound worksite. -/
private theorem parse
    {Value : Type}
    {parser : Parser Value}
    {input : ParserInput}
    (grounded : state.Grounded)
    (entry : Parser.IsEntry parser)
    (closed : input.window.Closed)
    (inside : state.position ≤ input.window.stop)
    (ends : (parser.run input state).EndsIn after) :
    after.Grounded := by
  obtain ⟨stock, sound⟩ := grounded.sound
  obtain ⟨rights, more, -, ready, steps, wellFormed, current⟩ :=
    grounded.steps sound entry closed inside ends
  obtain ⟨keeps, soundNow⟩ := BuildSteps.sound steps ready
  exact ⟨wellFormed, current ▸ Nat.lt_of_lt_of_le grounded.room keeps.size, _,
    soundNow⟩

/--
Whether elaboration is done or fails, it has gone on from one sound worksite to
another one.
-/
theorem onward
    {before last : ElabState}
    {input : ElabInput}
    {unit : StmtId}
    (grounded : state.Grounded)
    (held : state.arena.Holds (.stmt unit))
    (arena : before.arena = state.arena)
    (scopes : before.scopes = state.scopes)
    (ends : ((Elab.elaborateUnit unit).run input before).EndsIn last) :
    ∃ older newer : Worksite, older.arena = state.arena ∧ older.table =
      state.scopes.table ∧
      last.Shows newer ∧ last.scopes.current = state.scopes.current ∧
        older.Onward input state.arena newer := by
  obtain ⟨stock, sound⟩ := grounded.sound
  have shows : before.Shows (state.site stock) :=
    ⟨arena, by rw [scopes]; rfl, by rw [scopes]; rfl, scopes ▸
      grounded.wellFormed⟩
  have works := @Works.elaborateUnit input state.arena (state.site stock) unit
    ⟨held, nofun⟩ before
    shows ⟨sound, id⟩
  rcases ends with ⟨value, done⟩ | ⟨error, failed⟩
  · have done : Elab.elaborateUnit unit input before = .done value last := done
    rw [done] at works
    obtain ⟨site, shown, current, onward, -⟩ := works
    exact ⟨_, site, rfl, rfl, shown, scopes ▸ current, onward⟩
  · have failed : Elab.elaborateUnit unit input before = .failed error last :=
      failed
    rw [failed] at works
    obtain ⟨site, shown, current, onward⟩ := works
    exact ⟨_, site, rfl, rfl, shown, scopes ▸ current, onward⟩

/--
Whether elaboration is done or fails, it leaves a sound worksite within the
frame.
-/
theorem elaborate
    {before last : ElabState}
    {input : ElabInput}
    {unit : StmtId}
    (grounded : state.Grounded)
    (held : state.arena.Holds (.stmt unit))
    (arena : before.arena = state.arena)
    (scopes : before.scopes = state.scopes)
    (ends : ((Elab.elaborateUnit unit).run input before).EndsIn last) :
    ParserState.Grounded
      { state with arena := last.arena, scopes := last.scopes } ∧
      Arena.Framed input state.arena state.arena last.arena ∧
        last.scopes.current = state.scopes.current := by
  obtain ⟨older, ⟨_, _, _, rest⟩, sameArena, sameTable, shown, current,
      onward⟩ :=
    grounded.onward held arena scopes ends
  obtain ⟨rfl, rfl, rfl, wellFormed⟩ := shown
  have room : last.scopes.current.raw < last.scopes.table.size :=
    current ▸ Nat.lt_of_lt_of_le grounded.room (sameTable ▸ onward.keeps.size)
  exact ⟨⟨wellFormed, room, rest, onward.sound⟩, sameArena ▸ onward.framed,
    current⟩

end ParserState.Grounded

namespace ParserState

/-- A state came about under snapshots, each taken in a grounded state. -/
inductive Watched : List Snapshot → ParserState → Prop where
  | none (state : ParserState) : Watched [] state
  | taken {snapshots : List Snapshot} {base state : ParserState}
      (watched : Watched snapshots base)
      (grounded : base.Grounded)
        (changed : base.snapshot.2.ChangedSince state) :
      Watched (base.snapshot.1 :: snapshots) state

/-- More changes that can be taken back may follow. -/
private theorem Watched.onward
    {snapshots : List Snapshot}
    {state after : ParserState}
    (watched : Watched snapshots state)
    (changes : ∀ base : ParserState, base.ChangedSince state →
      base.ChangedSince after) :
    Watched snapshots after := by
  cases watched with
  | none => exact .none after
  | taken watched grounded changed =>
      exact .taken watched grounded (changes _ changed)

end ParserState

namespace History

variable {snapshots : List Snapshot} {state : ParserState}

/--
Whatever the history of a state, it is grounded, and so it was when snapshots
were taken.
-/
theorem grounded_watched (history : History snapshots state) :
    state.Grounded ∧ state.Watched snapshots := by
  induction history with
  | start window => exact ⟨⟨.initial, Nat.zero_lt_one, 0, .initial⟩, .none _⟩
  | stand _ position track inductionHypothesis =>
      obtain ⟨grounded, watched⟩ := inductionHypothesis
      exact ⟨grounded.congr rfl rfl rfl grounded.wellFormed grounded.room,
        watched.onward fun _ changed => ⟨changed.scopes, changed.arena⟩⟩
  | enter _ scope inside inductionHypothesis =>
      obtain ⟨grounded, watched⟩ := inductionHypothesis
      exact ⟨grounded.congr rfl rfl rfl (grounded.wellFormed.enter scope)
        inside,
        watched.onward fun _ changed =>
          ⟨changed.scopes.enter scope, changed.arena⟩⟩
  | @parse _ state after Value parser _ entry input closed inside ends
      inductionHypothesis =>
      obtain ⟨grounded, watched⟩ := inductionHypothesis
      refine ⟨grounded.parse entry closed inside ends,
        watched.onward fun base changed => ?_⟩
      have leaves := entry.composed.leaves_changedSince input changed nofun
      rcases ends with ⟨value, done⟩ | ⟨error, failed⟩
      · have done : parser input state = .done value after := done
        rwa [done] at leaves
      · have failed : parser input state = .failed error after := failed
        rwa [failed] at leaves
  | snapshot _ inductionHypothesis =>
      obtain ⟨grounded, watched⟩ := inductionHypothesis
      exact ⟨grounded.congr rfl rfl rfl grounded.wellFormed.mark grounded.room,
        .taken watched grounded (.refl grounded.wellFormed.mark)⟩
  | restore _ inductionHypothesis =>
      obtain ⟨-, watched⟩ := inductionHypothesis
      cases watched with
      | taken watched grounded changed =>
          rw [changed.restore_snapshot grounded.wellFormed]
          exact ⟨grounded, watched⟩
  | @release _ state latest _ inductionHypothesis =>
      obtain ⟨grounded, watched⟩ := inductionHypothesis
      refine ⟨grounded.congr rfl rfl rfl grounded.wellFormed.release
        grounded.room, ?_⟩
      cases watched with
      | taken watched _ changed =>
          exact watched.onward fun _ before => before.release changed
  | elaborate _ input unit held arena scopes ends inductionHypothesis =>
      exact ⟨(inductionHypothesis.1.elaborate held arena scopes ends).1,
        .none _⟩

theorem grounded (history : History snapshots state) : state.Grounded :=
  history.grounded_watched.1

end History

/-- A compilation unit is parsed to a grounded state. -/
theorem ParserState.Grounded.of_unit
    {names : Names}
    {tokens : Tokens}
    {mode : ParseMode}
    {unit : StmtId}
    {parsed : ParserState}
    (parses : parseUnit names tokens mode = .done unit parsed) :
    parsed.Grounded := by
  let input : ParserInput :=
    { window := .whole tokens, names := names, mode := mode }
  have inside : (Window.whole tokens).start ≤ input.window.stop :=
    Window.whole_start tokens ▸ Nat.zero_le _
  exact (History.parse (.start (.whole tokens)) .unit input
    (Window.whole_closed tokens) inside
    (.inl ⟨_, parses⟩)).grounded

end Tern
