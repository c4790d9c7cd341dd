import Tern.Proofs.Building.Rework
import Tern.Proofs.Building.Trees
import Tern.Proofs.Elaboration.Comparing
import Tern.Proofs.Elaboration.Frame
import Tern.Proofs.Elaboration.Steadiness
import Tern.Proofs.Grammar.Balance
import Tern.Proofs.Grammar.Extents
import Tern.Proofs.Term.Settling

namespace Tern

/-!
# Elaborators at work

An elaborator takes a sound worksite to a sound worksite, whether it is done or
fails: what was said once and for all is kept, terms stay within the frame of
elaboration, and the former scope is current again. This module says so of the
actions that passes are made of.
-/

/-- A state shows a worksite, and its overload sets are not empty. -/
structure ElabState.Shows (state : ElabState) (site : Worksite) : Prop where
  arena : state.arena = site.arena
  table : state.scopes.table = site.table
  saved : state.scopes.saved = site.saved
  wellFormed : state.scopes.WellFormed

namespace Worksite

/-- A sound worksite holds what the arena held that elaboration began with. -/
structure Since (origin : Arena) (site : Worksite) : Prop where
  sound : site.Sound
  held : ∀ {term}, origin.Holds term → site.arena.Holds term

/-- A worksite as elaboration may leave it behind. -/
structure Onward
    (input : ElabInput)
    (origin : Arena)
    (older newer : Worksite) :
    Prop where
  sound : newer.Sound
  keeps : older.Keeps newer
  framed : Arena.Framed input origin older.arena newer.arena
  carries : Arena.Carries input.tokens older.arena newer.arena
  settles : Arena.Settles input.tokens older.arena newer.arena

/-- What was at hand still is, and no statement has changed. -/
structure Spares (older newer : Worksite) : Prop where
  stock : older.stock ≤ newer.stock
  stmts : ∀ {stmt : StmtId}, older.arena.Holds (.stmt stmt) →
    newer.arena.stmt stmt = older.arena.stmt stmt

variable {input : ElabInput} {origin : Arena} {older middle newer : Worksite}

namespace Onward

theorem refl (sound : older.Sound) : older.Onward input origin older where
  sound := sound
  keeps := .refl _
  framed := .refl _ _ _
  carries := .refl _ _
  settles := .refl _ _

theorem trans
    (first : older.Onward input origin middle)
    (second : middle.Onward input origin newer) :
    older.Onward input origin newer where
  sound := second.sound
  keeps := first.keeps.trans second.keeps
  framed := first.framed.trans second.framed
  carries := first.carries.trans first.framed.held second.carries
  settles := first.settles.trans second.settles

theorem since
    (onward : older.Onward input origin newer)
    (since : older.Since origin) :
    newer.Since origin where
  sound := onward.sound
  held was := onward.framed.held (since.held was)

end Onward

namespace Spares

theorem refl (site : Worksite) : site.Spares site where
  stock := le_refl _
  stmts _ := rfl

end Spares

end Worksite

/-- What an elaboration that is done or has failed has made of a worksite. -/
def Outcome.Works
    {Value : Type}
    (input : ElabInput)
    (origin : Arena)
    (current : ScopeId)
    (start : Worksite) (known : Worksite → Value → Prop) :
      Outcome ElabError ElabState Value → Prop
  | .done value after => ∃ site, after.Shows site ∧ after.scopes.current =
      current ∧
      start.Onward input origin site ∧ known site value
  | .failed _ after => ∃ site, after.Shows site ∧ after.scopes.current =
      current ∧
      start.Onward input origin site
  | .exhausted => True

/--
From a sound worksite an action goes on to another one, about which and its
value something is known if the action is done.
-/
def Works {Value : Type} (input : ElabInput) (origin : Arena) (start : Worksite)
    (action : Elab Value) (known : Worksite → Value → Prop) : Prop :=
  ∀ state : ElabState, state.Shows start → start.Since origin →
    (action input state).Works input origin state.scopes.current start known

namespace Elab

variable {Value Next : Type}

/-- An action is done and changes neither the arena nor the scopes. -/
def Apart (action : Elab Value) : Prop :=
  ∀ (input : ElabInput) (state : ElabState), ∃ value after,
    action input state = .done value after ∧ after.arena = state.arena ∧
      after.scopes = state.scopes

namespace Apart

theorem pure (value : Value) : Apart (Pure.pure value) :=
  fun _ state => ⟨value, state, rfl, rfl, rfl⟩

theorem bind
    {action : Elab Value}
    {next : Value → Elab Next}
    (first : action.Apart)
    (rest : ∀ value, (next value).Apart) :
    (action >>= next).Apart := by
  intro input state
  obtain ⟨value, middle, ending, same, sameScopes⟩ := first input state
  obtain ⟨result, after, finish, sameNow, sameScopesNow⟩ :=
    rest value input middle
  refine ⟨result, after, ?_, sameNow.trans same, sameScopesNow.trans sameScopes⟩
  simp only [Bind.bind, Action.bind, ending, finish]

theorem arena : Apart Elab.arena :=
  fun _ state => ⟨state.arena, state, rfl, rfl, rfl⟩

theorem scopes : Apart Elab.scopes :=
  fun _ state => ⟨state.scopes, state, rfl, rfl, rfl⟩

theorem environment : Apart Action.environment :=
  fun input state => ⟨input, state, rfl, rfl, rfl⟩

theorem find (change : Findings → Findings) : Apart (Elab.find change) :=
  fun _ _ => ⟨_, _, rfl, rfl, rfl⟩

theorem recordFault (decl : DeclId) (cause : FaultCause) :
    Apart (Elab.recordFault decl cause) :=
  fun _ _ => ⟨_, _, rfl, rfl, rfl⟩

end Apart

end Elab

namespace Works

variable {Value Next : Type} {input : ElabInput} {origin : Arena}
  {start : Worksite}

/-- What works leads to another worksite when it is done. -/
theorem reach
    {action : Elab Value}
    {known : Worksite → Value → Prop}
    {state after : ElabState}
    {value : Value}
    (works : Works input origin start action known)
    (shows : state.Shows start)
    (since : start.Since origin)
    (run : action input state = .done value after) :
    ∃ later, after.Shows later ∧ start.Onward input origin later ∧
      known later value := by
  have worked := works state shows since
  rw [run] at worked
  obtain ⟨later, showing, -, onward, fact⟩ := worked
  exact ⟨later, showing, onward, fact⟩

/-- What a sound worksite is like may be used. -/
theorem given
    {action : Elab Value}
    {known : Worksite → Value → Prop}
    (works : start.Since origin → Works input origin start action known) :
    Works input origin start action known :=
  fun state shows since => works since state shows since

theorem weaken
    {action : Elab Value}
    {known less : Worksite → Value → Prop}
    (works : Works input origin start action known)
    (implied : ∀ later value, start.Onward input origin later →
      known later value → less later value) :
    Works input origin start action less := by
  intro state shows since
  have outcome := works state shows since
  cases ending : action input state with
  | done value after =>
      rw [ending] at outcome
      obtain ⟨site, showing, current, onward, fact⟩ := outcome
      exact ⟨site, showing, current, onward, implied _ _ onward fact⟩
  | failed error after =>
      rw [ending] at outcome
      exact outcome
  | exhausted => trivial

/-- Nothing needs to be known. -/
theorem forget
    {action : Elab Value}
    {known : Worksite → Value → Prop}
    (works : Works input origin start action known) :
    Works input origin start action fun _ _ => True :=
  works.weaken fun _ _ _ _ => trivial

theorem pure
    {value : Value}
    {known : Worksite → Value → Prop}
    (fact : known start value) :
    Works input origin start (Pure.pure value) known :=
  fun _ shows since => ⟨start, shows, rfl, .refl since.sound, fact⟩

theorem fail (error : ElabError) (known : Worksite → Value → Prop) :
    Works input origin start (Action.fail error) known :=
  fun _ shows since => ⟨start, shows, rfl, .refl since.sound⟩

theorem exhaust (known : Worksite → Value → Prop) :
    Works input origin start Action.exhaust known :=
  fun _ _ _ => trivial

theorem bind
    {action : Elab Value}
    {next : Value → Elab Next}
    {known : Worksite → Value → Prop}
    {final : Worksite → Next → Prop}
    (first : Works input origin start action known)
    (rest : ∀ middle value, start.Onward input origin middle →
      known middle value →
      Works input origin middle (next value) final) :
    Works input origin start (action >>= next) final := by
  intro state shows since
  have outcome := first state shows since
  simp only [Bind.bind, Action.bind]
  cases ending : action input state with
  | done value after =>
      rw [ending] at outcome
      obtain ⟨middle, showing, current, onward, fact⟩ := outcome
      have later :=
        rest middle value onward fact after showing (onward.since since)
      dsimp only
      cases finish : next value input after with
      | done result last =>
          rw [finish] at later
          obtain ⟨site, shown, currentNow, onwardNow, factNow⟩ := later
          exact ⟨site, shown, currentNow.trans current, onward.trans onwardNow,
            factNow⟩
      | failed error last =>
          rw [finish] at later
          obtain ⟨site, shown, currentNow, onwardNow⟩ := later
          exact ⟨site, shown, currentNow.trans current, onward.trans onwardNow⟩
      | exhausted => trivial
  | failed error after =>
      rw [ending] at outcome
      exact outcome
  | exhausted => trivial

theorem ite
    {condition : Prop}
    [Decidable condition]
    {yes no : Elab Value}
    {known : Worksite → Value → Prop}
    (worksYes : condition → Works input origin start yes known)
    (worksNo : ¬ condition → Works input origin start no known) :
    Works input origin start (if condition then yes else no) known := by
  split
  next holds => exact worksYes holds
  next fails => exact worksNo fails

/-- The arena is read. -/
theorem observe
    {next : Arena → Elab Next}
    {final : Worksite → Next → Prop}
    (rest : Works input origin start (next start.arena) final) :
    Works input origin start (Elab.arena >>= next) final := by
  intro state shows since
  have run : (Elab.arena >>= next) input state = next state.arena input state :=
    rfl
  rw [run, shows.arena]
  exact rest state shows since

/-- An action apart is done before another one. -/
theorem next
    {action : Elab Value}
    {next : Value → Elab Next}
    {final : Worksite → Next → Prop}
    (apart : action.Apart)
    (rest : ∀ value, Works input origin start (next value) final) :
    Works input origin start (action >>= next) final := by
  intro state shows since
  obtain ⟨value, after, ending, same, sameScopes⟩ := apart input state
  simp only [Bind.bind, Action.bind, ending]
  rw [← sameScopes]
  exact rest value after ⟨same.trans shows.arena, sameScopes ▸ shows.table,
    sameScopes ▸ shows.saved,
    sameScopes ▸ shows.wellFormed⟩ since

/-- An action apart leaves everything as it is. -/
theorem apart
    {action : Elab Value}
    (apart : action.Apart) :
    Works input origin start action fun later _ => later = start := by
  intro state shows since
  obtain ⟨value, after, ending, same, sameScopes⟩ := apart input state
  rw [ending, ← sameScopes]
  exact ⟨start, ⟨same.trans shows.arena, sameScopes ▸ shows.table, sameScopes ▸
    shows.saved,
    sameScopes ▸ shows.wellFormed⟩, rfl, .refl since.sound, rfl⟩

/--
Something is done for all items of a list, for each of which it is known to be
in order, and which leads from worksite to worksite in the same way.
-/
theorem forM
    {Item : Type}
    {items : List Item}
    {action : Item → Elab Unit}
    {fit : Worksite → Item → Prop}
    {leads : Worksite → Worksite → Prop}
    (refl : ∀ site, leads site site)
    (trans : ∀ {older middle newer : Worksite},
      older.Onward input origin middle →
      middle.Onward input origin newer → leads older middle →
        leads middle newer →
        leads older newer)
    (kept : ∀ {older newer : Worksite} {item : Item},
      older.Onward input origin newer → fit older item →
      fit newer item)
    (each : ∀ item middle, fit middle item →
      Works input origin middle (action item) fun later _ => leads middle later)
    (fits : ∀ item ∈ items, fit start item) :
    Works input origin start (items.forM action) fun later _ =>
      leads start later := by
  induction items generalizing start with
  | nil => exact pure (refl start)
  | cons item items inductionHypothesis =>
      obtain ⟨first, others⟩ := List.forall_mem_cons.mp fits
      refine bind (each item start first) fun middle _ onward led => ?_
      refine (inductionHypothesis fun other listed =>
        kept onward (others other listed)).weaken ?_
      exact fun _ _ further => trans onward further led

/-- Something steady is done for all items of a list. -/
theorem forMSteady
    {Item : Type}
    {items : List Item}
    {action : Item → Elab Unit}
    {fit : Worksite → Item → Prop}
    {raised : DeclId → Phase → Prop}
    {lost typed : DeclId → Prop}
    (kept : ∀ {older newer : Worksite} {item : Item},
      older.Onward input origin newer → fit older item →
      fit newer item)
    (each : ∀ item middle, fit middle item →
      Works input origin middle (action item) fun later _ =>
        middle.Steady raised lost typed later)
    (fits : ∀ item ∈ items, fit start item) :
    Works input origin start (items.forM action) fun later _ =>
      start.Steady raised lost typed later :=
  @forM input origin start Item items action fit
    (Worksite.Steady raised lost typed) .refl
    (fun onward further first second =>
      first.trans second onward.framed further.framed)
    kept each fits

/-- A value is carried through all items of a list, and stays in order. -/
theorem foldlM
    {Item : Type}
    {items : List Item}
    {step : Value → Item → Elab Value}
    {fit : Worksite → Item → Prop}
    {kept : Worksite → Value → Prop}
    (stays : ∀ {older newer : Worksite} {item : Item},
      older.Onward input origin newer →
      fit older item → fit newer item)
    (each : ∀ item middle value, fit middle item → kept middle value →
      Works input origin middle (step value item) kept)
    (fits : ∀ item ∈ items, fit start item)
    {value : Value}
    (initial : kept start value) :
    Works input origin start (items.foldlM step value) kept := by
  induction items generalizing start value with
  | nil => exact pure initial
  | cons item items inductionHypothesis =>
      obtain ⟨first, others⟩ := List.forall_mem_cons.mp fits
      rw [List.foldlM_cons]
      exact bind (each item start value first initial)
          fun middle next onward now =>
        inductionHypothesis
          (fun other listed => stays onward (others other listed)) now

/-- The arena is changed. -/
theorem changeArena
    {change : Arena → Arena}
    (stock : Stock)
    (framed : Arena.Framed input origin start.arena (change start.arena))
    (carries : Arena.Carries input.tokens start.arena (change start.arena))
    (settles : Arena.Settles input.tokens start.arena (change start.arena))
    (kept : start.Sound →
      start.Keeps { start with arena := change start.arena, stock := stock } ∧
      Worksite.Sound
        { start with arena := change start.arena, stock := stock }) :
    Works input origin start (Elab.changeArena change) fun later _ =>
      later = { start with arena := change start.arena, stock := stock } := by
  intro state shows since
  obtain ⟨keeps, soundNow⟩ := kept since.sound
  refine ⟨{ start with arena := change start.arena, stock := stock },
    ⟨?_, shows.table, shows.saved, shows.wellFormed⟩, rfl,
    ⟨soundNow, keeps, framed, carries, settles⟩, rfl⟩
  simp only [shows.arena]

/-- The scopes are changed, but not which one is current. -/
theorem changeScopes
    {change : Scopes → Scopes}
    {known : Worksite → Prop}
    (changes : ∀ scopes : Scopes, scopes.table = start.table → scopes.saved =
      start.saved →
      scopes.WellFormed → start.Sound → (change scopes).current =
        scopes.current ∧
        (change scopes).WellFormed ∧ ∃ stock,
          let site : Worksite :=
            { arena := start.arena, table := (change scopes).table,
              saved := (change scopes).saved
              stock := stock }
          start.Keeps site ∧ site.Sound ∧ known site) :
    Works input origin start (Elab.changeScopes change) fun later _ =>
      known later := by
  intro state shows since
  obtain ⟨current, wellFormed, stock, keeps, soundNow, fact⟩ :=
    changes state.scopes shows.table shows.saved shows.wellFormed since.sound
  exact ⟨{ arena := start.arena, table := (change state.scopes).table
           saved := (change state.scopes).saved, stock := stock },
    ⟨shows.arena, rfl, rfl, wellFormed⟩, current,
    ⟨soundNow, keeps, .refl _ _ _, .refl _ _, .refl _ _⟩, fact⟩

/-- What an action gives is put into the arena at once. -/
private theorem bindChange
    {First : Type}
    {action : Elab First}
    {change : First → Arena → Arena}
    {known : Worksite → First → Prop}
    {final : Worksite → Unit → Prop}
    (first : Works input origin start action known)
    (leads : ∀ middle value, start.Onward input origin middle →
      known middle value →
      middle.Keeps { middle with arena := change value middle.arena } ∧
        Worksite.Sound { middle with arena := change value middle.arena } ∧
          Arena.Framed input origin start.arena (change value middle.arena) ∧
            Arena.Carries input.tokens start.arena (change value middle.arena) ∧
              Arena.Settles input.tokens start.arena
                (change value middle.arena) ∧
                final { middle with arena := change value middle.arena } ()) :
    Works input origin start
      (action >>= fun value => Elab.changeArena (change value)) final := by
  intro state shows since
  have outcome := first state shows since
  simp only [Bind.bind, Action.bind]
  cases ending : action input state with
  | done value after =>
      rw [ending] at outcome
      obtain ⟨middle, showing, current, onward, fact⟩ := outcome
      obtain ⟨keeps, soundNow, framed, carries, settles, last⟩ :=
        leads middle value onward fact
      refine ⟨{ middle with arena := change value middle.arena },
        ⟨?_, showing.table, showing.saved, showing.wellFormed⟩, current,
        ⟨soundNow, onward.keeps.trans keeps, framed, carries, settles⟩, last⟩
      simp only [showing.arena]
  | failed error after =>
      rw [ending] at outcome
      exact outcome
  | exhausted => trivial

end Works

namespace Fragment

variable {Value : Type} (fragment : Fragment Value) {scope : ScopeId}
  {start : Worksite}

/-- A fragment takes no more than the right to bind in its scope. -/
theorem mem_needs
    {position : Nat}
    {piece : Piece}
    (listed : piece ∈ fragment.needs scope position) :
    piece = .binder scope position := by
  cases fragment with
  | type => cases Multiset.notMem_zero _ listed
  | expression => cases Multiset.notMem_zero _ listed
  | body => exact Multiset.mem_singleton.mp listed
  | members => exact Multiset.mem_singleton.mp listed

theorem claims_needs (position : Nat) :
    Stock.claims (fragment.needs scope position) = 0 := by
  cases fragment <;> rfl

/-- A fragment is parsed to no declaration. -/
private theorem term_inline {value : Value} (decl : DeclId) :
    fragment.term value ≠ .decl decl := by
  cases fragment <;> nofun

/-- What a fragment takes may be noted wherever its scope is stored. -/
private theorem readied
    (position : Nat)
    (room : scope.raw < start.table.size)
    (sound : start.Sound) :
    start.Keeps
        { start with stock := fragment.needs scope position +
                       .room scope ::ₘ start.stock } ∧
      Worksite.Sound
        { start with stock := fragment.needs scope position +
                       .room scope ::ₘ start.stock } := by
  refine sound.restock (fun piece listed => ?_)
    (fun piece listed _ => by simp [listed])
    (by simp [claims_needs, Piece.claims])
  rcases Multiset.mem_add.mp listed with need | noted
  · obtain rfl := fragment.mem_needs need
    exact .inr ⟨rfl, room⟩
  · rcases Multiset.mem_cons.mp noted with rfl | old
    · exact .inr ⟨rfl, room⟩
    · exact .inl old

/-- What a fragment takes is no declaration. -/
private theorem keeping_readied
    {position : Nat}
    {decl : DeclId}
    (kept : Worksite.Keeping
      { start with stock := fragment.needs scope position +
                     .room scope ::ₘ start.stock } decl) :
    start.Keeping decl := by
  have old {piece : Piece}
      (listed : piece ∈ fragment.needs scope position +
        .room scope ::ₘ start.stock)
      (noBinder : piece ≠ .binder scope position)
        (noRoom : piece ≠ .room scope) :
      piece ∈ start.stock := by
    rcases Multiset.mem_add.mp listed with need | noted
    · exact absurd (fragment.mem_needs need) noBinder
    · exact (Multiset.mem_cons.mp noted).resolve_left noRoom
  exact kept.imp (fun loose => old loose nofun nofun) fun begun =>
    old begun nofun nofun

end Fragment

namespace Works

variable {Value : Type} {input : ElabInput} {origin : Arena} {start : Worksite}

/-- A range of tokens is parsed to a term that is added and at hand. -/
private theorem parseRange
    (fragment : Fragment Value)
    {scope : ScopeId}
    (range : TokenRange)
    (room : scope.raw < start.table.size) :
    Works input origin start (Elab.parseRange scope range fragment.captured)
        fun later value =>
      start.Calm later ∧ start.arena.Extends later.arena ∧
        start.stock ≤ later.stock ∧
        Piece.term (fragment.term value) ∈ later.stock ∧
          ¬ start.arena.Holds (fragment.term value) ∧
            (later.arena.Tidy start.arena input.tokens (fragment.term value) →
              input.tokens.Balances range) ∧
                (∀ {Node : Type} (read : Arena → Value → Node),
                  input.Parses fragment read range (read later.arena value)) ∧
                    (input.tokens.Aligned → range.start < range.stop →
                      range.stop ≤ input.tokens.size →
                        later.arena.Laid start.arena input.tokens
                          (fragment.term value) ∧
                          (later.arena.spanOf (fragment.term value)).Within
                            (input.tokens.spanOf range)) := by
  intro state shows since
  let window := Window.ofRange input.tokens range
  let parserInput : ParserInput :=
    { window := window, names := input.names, mode := input.options.mode }
  let parserState : ParserState :=
    .start window (state.scopes.enter scope) state.arena
  obtain ⟨keepsNotes, noted⟩ := fragment.readied window.start room since.sound
  have site (stock : Stock) : parserState.site stock =
      { start with stock := stock } := by
    simp [parserState, ParserState.site, ParserState.start, Scopes.enter,
      shows.arena, shows.table, shows.saved]
  have reads : Order.none.Reads parserInput :=
    { closed := Window.ofRange_closed _ _, starts := False.elim,
      behind := False.elim
      rising := False.elim, eager := False.elim }
  have stands : parserState.At parserInput scope window.start :=
    { current := rfl, wellFormed := shows.wellFormed.enter scope,
      onward := Nat.le_refl _
      inside := Nat.le_max_right _ _ }
  have built :=
    fragment.builds reads (List.mem_singleton_self (Piece.room scope))
      parserState
    false (.room scope ::ₘ start.stock) stands (by simp) (by
      rw [site]
      simpa [ParserTrack.pieces] using noted)
  have changed : parserState.ChangedSince parserState := .refl stands.wellFormed
  have leaves :=
    fragment.composed.leaves_changedSince parserInput changed (by simp)
  simp only [Elab.parseRange, Action.run]
  split
  next value after ending =>
    have ending : fragment.captured parserInput parserState =
        .done value after := ending
    rw [ending] at built leaves
    obtain ⟨standsAfter, out, more, given, steps⟩ := built
    obtain rfl : out = _ := given
    simp only [ParserTrack.pieces, add_zero, site] at steps
    obtain ⟨keeps, soundNow⟩ := steps.sound noted
    have extended : start.arena.Extends after.arena :=
      shows.arena ▸ leaves.arena
    have loose : Piece.term (fragment.term value) ∈
        ({Piece.term (fragment.term value)} + more +
          .room scope ::ₘ start.stock : Stock) := by simp
    have old {piece : Piece} (was : piece ∈ start.stock) :
        piece ∈ ({.term (fragment.term value)} + more +
          .room scope ::ₘ start.stock : Stock) := by
      simp [was]
    have calm := Worksite.Calm.of_enrolls (steps.enrolls noted) soundNow
      (fun kept => (fragment.keeping_readied kept).imp old old) extended
    refine ⟨_, ⟨rfl, rfl, rfl, standsAfter.wellFormed.enter _⟩, rfl,
      ⟨soundNow, keepsNotes.trans keeps, .of_extends input origin extended,
        .of_extends extended,
        .of_extends extended⟩,
      ⟨calm.phase, calm.members, calm.stmts, calm.restrained⟩, extended, ?_,
      loose, ?_, fun tidy => ?_, ?_,
      fun aligned nonempty inside => ?_⟩
    · refine Multiset.le_iff_exists_add.mpr
        ⟨{.term (fragment.term value)} + more + {.room scope}, ?_⟩
      simp only [ParserState.site, ← Multiset.singleton_add]
      abel
    · rcases BuildSteps.new steps noted fragment.term_inline loose with old |
          new
      · rcases Multiset.mem_add.mp old with need | old
        · cases fragment.mem_needs need
        · have old : Piece.term (fragment.term value) ∈ start.stock := by
            simpa using old
          have linear := soundNow.linear
          simp only [ParserState.site, Stock.claims_add, Stock.claims_cons,
            Multiset.nodup_add]
            at linear
          refine absurd old fun old => Multiset.disjoint_left.mp linear.2.2
            (Multiset.mem_add.mpr (.inl (Stock.mem_claims.mpr
              ⟨_, Multiset.mem_singleton_self _,
                Multiset.mem_singleton_self _⟩)))
            (Multiset.mem_add.mpr (.inr (Stock.mem_claims.mpr
              ⟨_, old, Multiset.mem_singleton_self _⟩)))
      · exact new
    · rw [← shows.arena] at tidy
      exact fragment.balances ending standsAfter.inside tidy
    · exact fun read => ⟨_, _, value, after, ending, rfl⟩
    · rw [← shows.arena]
      exact fragment.captured_laid aligned nonempty inside ending
  next error after ending =>
    have ending : fragment.captured parserInput parserState =
        .failed error after := ending
    rw [ending] at built leaves
    obtain ⟨-, wellFormed, more, steps⟩ := built
    simp only [ParserTrack.pieces, add_zero, site] at steps
    obtain ⟨keeps, soundNow⟩ := steps.sound noted
    exact ⟨_, ⟨rfl, rfl, rfl, wellFormed.enter _⟩, rfl,
      ⟨soundNow, keepsNotes.trans keeps,
        .of_extends input origin (shows.arena ▸ leaves.arena),
        .of_extends (shows.arena ▸ leaves.arena),
          .of_extends (shows.arena ▸ leaves.arena)⟩⟩
  next => trivial

/--
What a range of tokens is parsed to moves into the slot of a term that owns
nothing.
-/
private theorem parseInto
    (fragment : Fragment Value)
    {scope : ScopeId}
    {range : TokenRange}
    {target : Term}
    {change : Value → Arena → Arena}
    (room : scope.raw < start.table.size)
    (whole : start.Whole target)
    (captured : start.arena.range? target = some range)
    (filled : ∀ (middle : Arena) (value : Value), middle.Holds target →
      (change value middle).range? target =
        middle.range? (fragment.term value) ∧
        (change value middle).spanOf target =
          middle.spanOf (fragment.term value))
    (shifts : ∀ (middle : Arena) (value : Value), middle.Holds target →
      fragment.term value ≠ target →
        middle.Shifts (change value middle) target (fragment.term value))
    (framed : ∀ (middle : Arena) (value : Value), start.arena.Extends middle →
      (∀ {Node : Type} (read : Arena → Value → Node),
        input.Parses fragment read range (read middle value)) →
          Arena.TermFramed input origin start.arena (change value middle)
            target)
    (calms : ∀ (middle : Worksite) (value : Value), start.Calm middle →
      start.arena.Extends middle.arena → middle.arena.Holds target →
        ¬ start.arena.Holds (fragment.term value) →
          start.Calm { middle with arena := change value middle.arena }) :
    Works input origin start
      (do
        let parsed ← Elab.parseRange scope range fragment.captured
        Elab.changeArena (change parsed)) fun later _ =>
          start.Calm later ∧ start.stock ≤ later.stock ∧ ∃ middle value,
            start.arena.Extends middle ∧
              ¬ start.arena.Holds (fragment.term value) ∧
              later.arena = change value middle := by
  refine bindChange (parseRange fragment range room) ?_
  rintro middle value onward ⟨calm, extended, more, loose, new, balances,
    parses, lies⟩
  have wholeNow := onward.keeps.whole whole
  have apart : fragment.term value ≠ target := by
    rintro rfl
    exact new whole.1
  have emptyNow : middle.arena.children target = [] := by
    rw [(extended.reads whole.1).children,
      (Arena.unparsed_of_range? captured).2]
  have shift := shifts middle.arena value wholeNow.1 apart
  obtain ⟨keeps, sound⟩ := onward.sound.shift wholeNow loose emptyNow shift
  refine ⟨keeps, sound,
    .of_slot (fun held => (shift.holds _).mpr (extended.holds held))
    (fun held different => ?_) (framed _ _ extended parses),
    .of_shifts extended captured new shift (filled _ _ wholeNow.1).1 balances,
    .of_shifts extended captured new shift (filled _ _ wholeNow.1)
      (fun _ owns => onward.sound.unowned_of_loose loose
        (fun name => (shift.unnamed name).2) owns)
      lies,
    calms _ _ calm extended wholeNow.1 new, more, _, _, extended, new, rfl⟩
  refine (extended.reads held).trans (shift.reads _ different ?_)
  rintro rfl
  exact new held

section

variable {scope : ScopeId} (room : scope.raw < start.table.size)

include room

/-- A type that is a range of tokens is parsed; no statement changes. -/
theorem completeType
    {type : TypeId}
    (whole : start.Whole (.type type)) :
    Works input origin start (Elab.completeType type scope) fun later _ =>
      start.Spares later ∧ start.Calm later := by
  refine observe ?_
  cases form : (start.arena.type type).form with
  | unparsed range =>
      refine (parseInto .type room whole (by rw [Arena.range?, form]; rfl)
        (fun middle value held =>
          ⟨Arena.range?_moveType held value, Arena.spanOf_moveType held value⟩)
        (fun middle value held apart => Arena.shifts_moveType held fun same =>
          apart (congrArg _ same.symm)) (fun middle value extended parses => ?_)
        fun middle value calm extended _ new => ?_).weaken ?_
      · have found : (middle.moveType type value).type type =
            middle.type value := by
          simp [Arena.type_moveType (extended.holds whole.1)]
        exact .parsed form (found ▸ parses Arena.type)
      · have captured : start.arena.isUnparsed (.type type) = true := by
          rw [Arena.isUnparsed, form]
          rfl
        refine calm.move ?_ ?_ (.moveType extended whole.1 new captured) <;>
        · unfold Arena.moveType
          split <;> rfl
      · rintro later _ onward ⟨calm, more, middle, value, extended, new, same⟩
        refine ⟨⟨more, fun {stmt} held => ?_⟩, calm⟩
        rw [same, ← extended.stmt_eq held]
        unfold Arena.moveType
        split <;> rfl
  | _ => exact pure ⟨.refl _, .refl _⟩

/-- An expression that is a range of tokens is parsed. -/
theorem completeExpr
    {expr : ExprId}
    (whole : start.Whole (.expr expr)) :
    Works input origin start (Elab.completeExpr expr scope) fun later _ =>
      start.Calm later := by
  refine observe ?_
  cases form : (start.arena.expr expr).form with
  | unparsed range =>
      refine (parseInto .expression room whole (by rw [Arena.range?, form]; rfl)
        (fun middle value held =>
          ⟨Arena.range?_moveExpr held value, Arena.spanOf_moveExpr held value⟩)
        (fun middle value held apart => Arena.shifts_moveExpr held fun same =>
          apart (congrArg _ same.symm)) (fun middle value extended parses => ?_)
        fun middle value calm _ held _ => ?_).weaken fun _ _ _ known => known.1
      · have found : (middle.moveExpr expr value).expr expr =
            middle.expr value := by
          simp [Arena.expr_moveExpr (extended.holds whole.1)]
        exact .parsed form (found ▸ parses Arena.expr)
      · refine calm.move ?_ ?_ (calm.restrained.trans
          (.of_moved (Arena.moved_moveExpr held value) ?_)) <;>
        · unfold Arena.moveExpr
          split <;> rfl
  | _ => exact pure (.refl _)

/-- A statement that is a range of tokens is parsed as a body. -/
theorem completeStmt
    {fragment : Fragment StmtId}
    (block : fragment = .body ∨ fragment = .members)
    {stmt : StmtId}
    (whole : start.Whole (.stmt stmt)) :
    Works input origin start (Elab.completeStmt stmt scope fragment.captured)
        fun later _ =>
      start.Calm later := by
  refine observe ?_
  have term (value : StmtId) : fragment.term value = .stmt value := by
    rcases block with rfl | rfl <;> rfl
  cases form : (start.arena.stmt stmt).form with
  | unparsed range =>
      refine (parseInto fragment room whole (by rw [Arena.range?, form]; rfl)
        (fun middle value held => term value ▸
          ⟨Arena.range?_moveStmt held value, Arena.spanOf_moveStmt held value⟩)
        (fun middle value held apart => ?_)
          (fun middle value extended parses => ?_)
        fun middle value calm _ held new =>
          calm.moveStmt held (term value ▸ new)).weaken
          fun _ _ _ known => known.1
      · rw [term] at apart ⊢
        exact Arena.shifts_moveStmt held fun same =>
          apart (congrArg _ same.symm)
      · have found : (middle.moveStmt stmt value).stmt stmt =
            middle.stmt value := by
          simp [Arena.stmt_moveStmt (extended.holds whole.1)]
        exact .parsed block form (found ▸ parses Arena.stmt)
  | _ => exact pure (.refl _)

end

end Works

end Tern
