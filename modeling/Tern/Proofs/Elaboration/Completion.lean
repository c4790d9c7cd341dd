import Tern.Elaboration.Definitions
import Tern.Proofs.Elaboration.Comparing
import Tern.Proofs.Grammar.Entries
import Tern.Proofs.Grammar.Sweeping
import Tern.Proofs.Term.Standing

namespace Tern

/-!
# What an elaborator completes

An action of the elaborator takes an arena through steps that keep what the
phases tell. It is never exhausted, and ends early only when a captured fragment
does not parse or a namespace is met. This module proves it of the actions that
the passes are made of.
-/

/--
Running an action from a state comes to another action, which is run from a
state of its own.
-/
inductive Elab.ComesTo {Part : Type} (input : ElabInput) (part : Elab Part)
    (before : ElabState) : {Value : Type} → Elab Value → ElabState → Prop where
  | here : ComesTo input part before part before
  | first {Value Next : Type} {action : Elab Value} {next : Value → Elab Next}
      {state : ElabState}
      (comes : ComesTo input part before action state) :
      ComesTo input part before (action >>= next) state
  | behind {Value Next : Type} {action : Elab Value} {next : Value → Elab Next}
      {state middle : ElabState} {value : Value}
      (done : action input state = .done value middle)
      (comes : ComesTo input part before (next value) middle) :
      ComesTo input part before (action >>= next) state

/--
Why running an action from a state may end early. It has come to a slot with a
range of tokens that does not parse, and which is in the slot in the end, or to
a namespace.
-/
inductive ElabError.Expected {Value : Type} (input : ElabInput)
    (action : Elab Value) (state after : ElabState) : ElabError → Prop where
  | parse {Part : Type} {fragment : Fragment Part} {slot : Part}
      {range : TokenRange} {scope : ScopeId} {before : ElabState}
      {error : ParseError}
      (comes : Elab.ComesTo input
        (Elab.parseRange scope range fragment.captured) before action state)
      (captured : before.arena.range? (fragment.term slot) = some range)
      (failed : Elab.parseRange scope range fragment.captured input before =
        .failed (.parse error) after)
      (remains : after.arena.range? (fragment.term slot) = some range)
      (plain : error.cause.isPlain = true) :
      Expected input action state after (.parse error)
  | refused {decl : DeclId} {body : StmtId}
      (form : (after.arena.decl decl).form = .namespaceBlock body) :
      Expected input action state after
        (.notImplemented "namespace declarations" (after.arena.decl decl).span)

namespace ElabError.Expected

variable {Value Next : Type} {input : ElabInput} {action : Elab Value}
  {next : Value → Elab Next} {state middle after : ElabState}
    {error : ElabError}

/-- What is expected of the first part of a sequence is expected of it all. -/
private theorem first
    (expected : error.Expected input action state after) :
    error.Expected input (action >>= next) state after := by
  cases expected with
  | parse comes captured failed remains plain =>
      exact .parse (.first comes) captured failed remains plain
  | refused form => exact .refused form

/-- What is expected behind a part that is done is expected of it all. -/
private theorem behind
    {value : Value}
    (done : action input state = .done value middle)
    (expected : error.Expected input (next value) middle after) :
    error.Expected input (action >>= next) state after := by
  cases expected with
  | parse comes captured failed remains plain =>
      exact .parse (.behind done comes) captured failed remains plain
  | refused form => exact .refused form

end ElabError.Expected

/--
An elaboration that is done went on from an arena by steps. One that fails does
so for an expected reason.
-/
def Outcome.Completes {Value : Type} (fixed : StmtId → Prop)
    (pending : List DeclId) (start : Arena)
    (expected : ElabState → ElabError → Prop) (known : Arena → Value → Prop) :
    Outcome ElabError ElabState Value → Prop
  | .done value after =>
      start.Later fixed after.arena ∧ after.arena.Standing pending ∧
        known after.arena value
  | .failed error after => expected after error
  | .exhausted => False

/-- What is known of an elaboration that is done may be put differently. -/
private theorem Outcome.Completes.imp
    {Value : Type}
    {fixed fewer : StmtId → Prop}
    {pending fewerPending : List DeclId}
    {start earlier : Arena}
    {expected other : ElabState → ElabError → Prop}
    {known less : Arena → Value → Prop}
    {outcome : Outcome ElabError ElabState Value}
    (completes : outcome.Completes fixed pending start expected known)
    (wider : ∀ {after error}, expected after error → other after error)
    (implied : ∀ later value, start.Later fixed later →
      later.Standing pending → known later value →
        earlier.Later fewer later ∧ later.Standing fewerPending ∧
          less later value) :
    outcome.Completes fewer fewerPending earlier other less := by
  cases outcome with
  | done value after =>
      exact implied _ _ completes.1 completes.2.1 completes.2.2
  | failed error after => exact wider completes
  | exhausted => exact completes

/--
From an arena an action goes on by steps to another one, about which and its
value something is known. Some statements keep their forms, and the phases tell
what they have to, some templates being pending.
-/
def Completes
    {Value : Type}
    (input : ElabInput)
    (fixed : StmtId → Prop)
    (pending : List DeclId)
    (start : Arena) (action : Elab Value) (known : Arena → Value → Prop) :
      Prop :=
  ∀ state : ElabState, state.arena = start → start.Standing pending →
    (action input state).Completes fixed pending start
      (fun after error => error.Expected input action state after) known

namespace Elab

variable {Value Next : Type}

/-- An action is done without changing the arena. -/
def Aside (action : Elab Value) : Prop :=
  ∀ (input : ElabInput) (state : ElabState), ∃ value after,
    action input state = .done value after ∧ after.arena = state.arena

namespace Aside

theorem pure (value : Value) : Aside (Pure.pure value) :=
  fun _ state => ⟨value, state, rfl, rfl⟩

theorem bind
    {action : Elab Value}
    {next : Value → Elab Next}
    (first : action.Aside)
    (rest : ∀ value, (next value).Aside) :
    (action >>= next).Aside := by
  intro input state
  obtain ⟨value, middle, ending, same⟩ := first input state
  obtain ⟨result, after, finish, sameNow⟩ := rest value input middle
  refine ⟨result, after, ?_, sameNow.trans same⟩
  simp only [Bind.bind, Action.bind, ending, finish]

theorem arena : Aside Elab.arena :=
  fun _ state => ⟨state.arena, state, rfl, rfl⟩

theorem environment : Aside Action.environment :=
  fun input state => ⟨input, state, rfl, rfl⟩

theorem inScopes (change : Scopes → Value × Scopes) :
    Aside (Elab.inScopes change) :=
  fun _ _ => ⟨_, _, rfl, rfl⟩

theorem changeScopes (change : Scopes → Scopes) :
    Aside (Elab.changeScopes change) :=
  fun _ _ => ⟨_, _, rfl, rfl⟩

theorem find (change : Findings → Findings) : Aside (Elab.find change) :=
  fun _ _ => ⟨_, _, rfl, rfl⟩

theorem recordFault (decl : DeclId) (cause : FaultCause) :
    Aside (Elab.recordFault decl cause) :=
  fun _ _ => ⟨_, _, rfl, rfl⟩

theorem scopes : Aside Elab.scopes :=
  fun _ state => ⟨state.scopes, state, rfl, rfl⟩

theorem declarationOf? (stmt : StmtId) : Aside (Elab.declarationOf? stmt) :=
  fun input state => ⟨_, state, Elab.declarationOf?_run stmt input state, rfl⟩

theorem forM
    {Item : Type}
    {items : List Item}
    {action : Item → Elab Unit}
    (each : ∀ item, (action item).Aside) :
    (items.forM action).Aside := by
  induction items with
  | nil => exact pure ()
  | cons item items inductionHypothesis => exact bind (each item) fun _ =>
      inductionHypothesis

private theorem reportMember (scope : ScopeId) (key : Key) (decl : DeclId) :
    Aside (Elab.reportMember scope key decl) := by
  refine bind scopes fun found => ?_
  dsimp only
  split
  · exact pure ()
  · exact find _

theorem confirmMembership (stmt : StmtId) :
    Aside (Elab.confirmMembership stmt) := by
  refine bind (declarationOf? stmt) fun decl? => ?_
  split
  · exact pure ()
  · exact bind arena fun _ => bind (changeScopes _) fun _ => reportMember _ _ _

theorem mergeForwardDeclarations (stmts : List StmtId) :
    Aside (Elab.mergeForwardDeclarations stmts) := by
  intro input state
  obtain ⟨_, faults, merges, shapes, _, run⟩ :=
    Elab.mergeForwardDeclarations_run stmts input state
  exact ⟨(), state.merged faults merges shapes, run, rfl⟩

end Aside

end Elab

namespace Completes

variable {Value Next : Type} {input : ElabInput} {fixed : StmtId → Prop}
  {pending : List DeclId}
  {start : Arena}

/-- What the phases tell may be used. -/
theorem given
    {action : Elab Value}
    {known : Arena → Value → Prop}
    (completes : start.Standing pending →
      Completes input fixed pending start action known) :
    Completes input fixed pending start action known :=
  fun state same standing => completes standing state same standing

theorem weaken
    {action : Elab Value}
    {known less : Arena → Value → Prop}
    (completes : Completes input fixed pending start action known)
    (implied : ∀ later value, start.Later fixed later → later.Standing pending →
      known later value → less later value) :
    Completes input fixed pending start action less :=
  fun state same standing => (completes state same standing).imp id
    fun _ _ order kept known => ⟨order, kept, implied _ _ order kept known⟩

/-- Fewer statements need to keep their forms. -/
theorem narrow
    {fewer : StmtId → Prop}
    {action : Elab Value}
    {known : Arena → Value → Prop}
    (completes : Completes input fixed pending start action known)
    (order : ∀ stmt, fewer stmt → fixed stmt) :
    Completes input fewer pending start action known :=
  fun state same standing => (completes state same standing).imp id
    fun _ _ later kept known => ⟨later.weaken order, kept, known⟩

/--
A template may be pending while what it is around is brought to the first phase.
-/
theorem settle
    {action : Elab Value}
    {known : Arena → Value → Prop}
    {wrapper : DeclId}
    (completes : Completes input fixed (wrapper :: pending) start action known)
    (elaborated : ∀ later value, start.Later fixed later → known later value →
      ∀ {parms : List DeclId} {constraint? : Option ExprId} {inner : DeclId},
        (later.decl wrapper).form = .template parms constraint? inner →
          (later.decl inner).phase ≠ .unelaborated) :
    Completes input fixed pending start action known :=
  fun state same standing =>
    (completes state same (standing.defer wrapper)).imp id
    fun _ _ later kept known =>
      ⟨later, kept.settle (elaborated _ _ later known), known⟩

theorem pure
    {value : Value}
    {known : Arena → Value → Prop}
    (fact : known start value) :
    Completes input fixed pending start (Pure.pure value) known := by
  rintro state rfl standing
  exact ⟨.refl _, standing, fact⟩

/-- More statements may keep their forms in what comes first. -/
theorem bindWider
    {wider : StmtId → Prop}
    (order : ∀ stmt, fixed stmt → wider stmt)
    {action : Elab Value}
    {next : Value → Elab Next}
    {known : Arena → Value → Prop}
    {final : Arena → Next → Prop}
    (first : Completes input wider pending start action known)
    (rest : ∀ middle value, start.Later wider middle → known middle value →
      Completes input fixed pending middle (next value) final) :
    Completes input fixed pending start (action >>= next) final := by
  intro state same standing
  have outcome := first state same standing
  cases ending : action input state with
  | done value after =>
      rw [ending] at outcome
      obtain ⟨later, kept, fact⟩ := outcome
      have run : (action >>= next) input state = next value input after := by
        simp only [Bind.bind, Action.bind, ending]
      rw [run]
      exact (rest after.arena value later fact after rfl kept).imp
        (.behind ending)
        fun _ _ onward kept known =>
          ⟨(later.weaken order).trans onward, kept, known⟩
  | failed error after =>
      rw [ending] at outcome
      have run : (action >>= next) input state = .failed error after := by
        simp only [Bind.bind, Action.bind, ending]
      rw [run]
      exact outcome.first
  | exhausted =>
      rw [ending] at outcome
      exact outcome.elim

theorem bind
    {action : Elab Value}
    {next : Value → Elab Next}
    {known : Arena → Value → Prop}
    {final : Arena → Next → Prop}
    (first : Completes input fixed pending start action known)
    (rest : ∀ middle value, start.Later fixed middle → known middle value →
      Completes input fixed pending middle (next value) final) :
    Completes input fixed pending start (action >>= next) final :=
  bindWider (fun _ => id) first rest

theorem ite
    {condition : Prop}
    [Decidable condition]
    {yes no : Elab Value}
    {known : Arena → Value → Prop}
    (completesYes : condition → Completes input fixed pending start yes known)
    (completesNo : ¬ condition → Completes input fixed pending start no known) :
    Completes input fixed pending start (if condition then yes else no)
      known := by
  split
  next holds => exact completesYes holds
  next fails => exact completesNo fails

/-- Something is done before another action without changing the arena. -/
theorem behind
    {action : Elab Value}
    {next : Value → Elab Next}
    {final : Arena → Next → Prop}
    (done : ∀ state : ElabState, state.arena = start → ∃ value after,
      action input state = .done value after ∧ after.arena = start ∧
        Completes input fixed pending start (next value) final) :
    Completes input fixed pending start (action >>= next) final := by
  intro state same standing
  obtain ⟨value, after, ending, sameNow, rest⟩ := done state same
  have run : (action >>= next) input state = next value input after := by
    simp only [Bind.bind, Action.bind, ending]
  rw [run]
  exact (rest after sameNow standing).imp (.behind ending)
    fun _ _ later kept known => ⟨later, kept, known⟩

/-- The arena is read. -/
theorem observe
    {next : Arena → Elab Next}
    {final : Arena → Next → Prop}
    (rest : Completes input fixed pending start (next start) final) :
    Completes input fixed pending start (Elab.arena >>= next) final :=
  behind fun state same => ⟨start, state, by subst same; rfl, same, rest⟩

/-- What an elaborator reads is read. -/
theorem consult
    {next : ElabInput → Elab Next}
    {final : Arena → Next → Prop}
    (rest : Completes input fixed pending start (next input) final) :
    Completes input fixed pending start (Action.environment >>= next) final :=
  behind fun state same => ⟨input, state, rfl, same, rest⟩

/-- An action beside the arena is done before another one. -/
theorem next
    {action : Elab Value}
    {next : Value → Elab Next}
    {final : Arena → Next → Prop}
    (aside : action.Aside)
    (rest : ∀ value, Completes input fixed pending start (next value) final) :
    Completes input fixed pending start (action >>= next) final :=
  behind fun state same =>
    have ⟨value, after, ending, sameNow⟩ := aside input state
    ⟨value, after, ending, sameNow.trans same, rest value⟩

private theorem aside
    {action : Elab Value}
    (aside : action.Aside) :
    Completes input fixed pending start action fun later _ =>
      later = start := by
  rintro state rfl standing
  obtain ⟨value, after, ending, same⟩ := aside input state
  rw [ending]
  exact ⟨same ▸ .refl _, same ▸ standing, same⟩

/-- An action beside the arena of which nothing is to be known. -/
theorem beside
    {action : Elab Value}
    (beside : action.Aside) :
    Completes input fixed pending start action fun _ _ => True :=
  (aside beside).weaken fun _ _ _ _ _ => trivial

/--
Something is done for all items of a list, which is known of each item ever
after.
-/
theorem forM
    {Item : Type}
    {items : List Item}
    {action : Item → Elab Unit}
    {known : Arena → Item → Prop}
    (kept : ∀ {older newer : Arena} {item : Item}, older.Later fixed newer →
      known older item →
      known newer item)
    (each : ∀ item ∈ items, ∀ middle, start.Later fixed middle →
      Completes input fixed pending middle (action item) fun later _ =>
        known later item) :
    Completes input fixed pending start (items.forM action) fun later _ =>
      ∀ item ∈ items, known later item := by
  induction items generalizing start with
  | nil => exact pure (List.forall_mem_nil _)
  | cons item items inductionHypothesis =>
      refine bind (each item (List.mem_cons_self ..) start (.refl _))
        fun middle _ later first => ?_
      refine (inductionHypothesis fun other listed next order => ?_).weaken
        fun final _ order _ others =>
          List.forall_mem_cons.mpr ⟨kept order first, others⟩
      exact each other (List.mem_cons_of_mem _ listed) next (later.trans order)

/-- A change of the arena is a step that keeps what the phases tell. -/
theorem changeArena
    {change : Arena → Arena}
    (progress : start.Progress (change start))
    (forms : ∀ {stmt : StmtId}, fixed stmt → start.Holds (.stmt stmt) →
      ((change start).stmt stmt).form = (start.stmt stmt).form)
    (kept : start.Standing pending → (change start).Standing pending) :
    Completes input fixed pending start (Elab.changeArena change) fun later _ =>
      later = change start := by
  rintro state rfl standing
  exact ⟨.single progress forms, kept standing, rfl⟩

/-- Terms are added, which keeps what the phases tell. -/
theorem inArena
    {change : Arena → Value × Arena}
    (extended : start.Extends (change start).2)
    (fresh : (change start).2.IndexedFrom start.decls.size)
    (kept : start.Standing pending → (change start).2.Standing pending) :
    Completes input fixed pending start (Elab.inArena change) fun later value =>
      later = (change start).2 ∧ value = (change start).1 := by
  rintro state rfl standing
  exact ⟨extended.later fresh fixed, kept standing, rfl, rfl⟩

/-- A declaration reaches a phase for which it is complete enough. -/
theorem raise
    {decl : DeclId}
    {phase : Phase}
    (held : start.Holds (.decl decl))
    (heads : ∀ head ∈ (start.decl decl).form.heads, start.Parsed head)
    (wrapped : decl ∉ pending →
      ∀ {parms : List DeclId} {constraint? : Option ExprId}
      {inner : DeclId}, (start.decl decl).form =
        .template parms constraint? inner →
        (start.decl inner).phase ≠ .unelaborated)
    (finished : phase = .definitionElaborated → start.Complete (.decl decl)) :
    Completes input fixed pending start (Elab.raise decl phase) fun later _ =>
      later = start.updateDecl decl fun old => old.raiseTo phase :=
  changeArena (Arena.progress_raise decl phase) (fun _ _ => rfl) fun standing =>
    standing.raise held heads wrapped finished

/-- A parameter that is parsed reaches a phase. -/
theorem raiseParsed
    {decl : DeclId}
    (phase : Phase)
    (parsed : start.Parsed (.decl decl)) :
    Completes input fixed pending start (Elab.raise decl phase) fun later _ =>
      later = start.updateDecl decl fun old => old.raiseTo phase := by
  have isParam : (start.decl decl).form.isParam = true := parsed.here.2 decl rfl
  refine raise parsed.here.1.1 (fun head listed => ?_) (fun _ _ _ _ form => ?_)
    fun _ => parsed.complete
  · exact parsed.child
      (List.mem_cons_of_mem _ (DeclForm.mem_children.mpr (.inl listed)))
  · rw [form] at isParam
    cases isParam

/-- Parameters that are parsed reach a phase, by which no term is added. -/
theorem raiseAll
    {decls : List DeclId}
    (phase : Phase)
    (parsed : ∀ decl ∈ decls, start.Parsed (.decl decl)) :
    Completes input fixed pending start
        (Elab.raiseAll decls phase) fun later _ =>
      later.decls.size = start.decls.size := by
  induction decls generalizing start with
  | nil => exact pure rfl
  | cons decl decls inductionHypothesis =>
      refine bind (raiseParsed phase (parsed decl (List.mem_cons_self ..))) ?_
      rintro middle _ later rfl
      refine (inductionHypothesis fun other listed => ?_).weaken
        fun final _ _ _ same => ?_
      · exact later.parsed (parsed other (List.mem_cons_of_mem _ listed))
      · simpa [Arena.updateDecl] using same

/-- A namespace is refused. -/
theorem refuseNamespace
    {decl : DeclId}
    {body : StmtId}
    (form : (start.decl decl).form = .namespaceBlock body)
    (known : Arena → Value → Prop) :
    Completes input fixed pending start (Elab.refuseNamespace decl) known := by
  rintro state rfl _
  exact .refused form

end Completes

/-- What is due and no range of tokens is parsed. -/
private theorem Arena.Due.parsed_of
    {arena : Arena}
    {term : Term}
    (due : arena.Due term)
    (inline : term.family ≠ .declaration)
    (whole : arena.isUnparsed term = false) :
    arena.Parsed term := by
  cases due with
  | parsed parsed => exact parsed
  | captured captured _ =>
      rw [captured.2] at whole
      cases whole
  | param => exact absurd rfl inline

/--
A declaration whose phases are those of another arena keeps what they tell, in a
step.
-/
private theorem Arena.Moved.standing
    {older newer : Arena}
    {target source : Term}
    {pending : List DeclId}
    (moved : older.Moved newer target source)
    (progress : older.Progress newer)
    (standing : older.Standing pending) :
    newer.Standing pending :=
  standing.progress progress fun decl => by rw [moved.decl]

namespace Completes

variable {Value : Type} {input : ElabInput} {fixed : StmtId → Prop}
  {pending : List DeclId}
  {start : Arena}

/-- The range of tokens in a slot is parsed to terms that are added. -/
private theorem parseRange
    (fragment : Fragment Value)
    (scope : ScopeId)
    {slot : Value}
    {range : TokenRange}
    (captured : start.range? (fragment.term slot) = some range) :
    Completes input fixed pending start
      (Elab.parseRange scope range fragment.captured) fun later value =>
        start.Extends later ∧ fragment.Parsed range start later value := by
  rintro state rfl standing
  let parserInput : ParserInput :=
    { window := .ofRange input.tokens range
      names := input.names
      mode := input.options.mode }
  let parserState : ParserState :=
    .start (.ofRange input.tokens range) (state.scopes.enter scope) state.arena
  have parses := fragment.captured_parses input.tokens range input.names
    input.options.mode (state.scopes.enter scope) state.arena
  cases ending : fragment.captured parserInput parserState with
  | done value after =>
      rw [ending] at parses
      obtain ⟨extended, phases, fresh, known⟩ := parses
      have run : Elab.parseRange scope range fragment.captured input state =
          .done value { state with
            arena := after.arena
            scopes := after.scopes.enter state.scopes.current } := by
        simp only [Elab.parseRange, Action.run, parserInput, parserState]
          at ending ⊢
        rw [ending]
      rw [run]
      exact ⟨extended.later fresh fixed,
        standing.progress (extended.progress fresh) phases, extended, known⟩
  | failed error after =>
      rw [ending] at parses
      have run : Elab.parseRange scope range fragment.captured input state =
          .failed (.parse error) { state with
            arena := after.arena
            scopes := after.scopes.enter state.scopes.current } := by
        simp only [Elab.parseRange, Action.run, parserInput, parserState]
          at ending ⊢
        rw [ending]
      rw [run]
      have extended := fragment.captured_composed.leaves_extends parserInput
        (Arena.Extends.refl parserState.arena) (List.forall_mem_nil _)
      rw [ending] at extended
      have same := (extended.reads (Arena.holds_of_range? captured)).range?
      exact .parse .here captured run (same.trans captured) parses
  | exhausted =>
      rw [ending] at parses
      exact parses.elim

/--
A term that is parsed moves into the slot of another one, and leaves all
statements alone.
-/
private theorem move
    {change : Arena → Arena}
    {target source : Term}
    (moved : start.Moved (change start) target source)
    (progress : start.Progress (change start))
    (stmts : (change start).stmts = start.stmts)
    (held : start.Holds target)
    (parsed : start.Parsed source) :
    Completes input fixed pending start (Elab.changeArena change) fun later _ =>
      later.Parsed target ∧ start.SameForms later := by
  refine (changeArena progress (fun _ _ => ?_) (moved.standing progress)).weaken
    ?_
  · simp only [Arena.stmt, stmts]
  · rintro _ _ _ _ rfl
    exact ⟨moved.target_parsed held parsed, moved.sameForms⟩

theorem moveType
    {target source : TypeId}
    (held : start.Holds (.type target))
    (parsed : start.Parsed (.type source)) :
    Completes input fixed pending start
      (Elab.changeArena fun arena => arena.moveType target source)
          fun later _ =>
        later.Parsed (.type target) ∧ start.SameForms later := by
  refine move (Arena.moved_moveType held source)
    (Arena.progress_moveType held parsed) ?_ held parsed
  unfold Arena.moveType
  split <;> rfl

private theorem moveExpr
    {target source : ExprId}
    (held : start.Holds (.expr target))
    (parsed : start.Parsed (.expr source)) :
    Completes input fixed pending start
      (Elab.changeArena fun arena => arena.moveExpr target source)
          fun later _ =>
        later.Parsed (.expr target) ∧ start.SameForms later := by
  refine move (Arena.moved_moveExpr held source)
    (Arena.progress_moveExpr held parsed) ?_ held parsed
  unfold Arena.moveExpr
  split <;> rfl

/-- A type that is due is completed, which changes no form of a declaration. -/
theorem completeTypeInPlace
    {type : TypeId}
    (scope : ScopeId)
    (due : start.Due (.type type)) :
    Completes input fixed pending start
        (Elab.completeType type scope) fun later _ =>
      later.Parsed (.type type) ∧ start.SameForms later := by
  refine observe ?_
  cases form : (start.type type).form with
  | unparsed range =>
      have captured : start.range? (.type type) = some range := by
        rw [Arena.range?, form]
        rfl
      exact bind (parseRange .type scope captured)
        fun _ source later known =>
          (moveType (later.holds due.holds) known.2).weaken
            fun _ _ _ _ moved =>
              ⟨moved.1, known.1.sameForms.trans moved.2⟩
  | _ =>
      refine pure ⟨due.parsed_of Family.noConfusion ?_, .refl start⟩
      rw [Arena.isUnparsed, form]
      rfl

/-- A type that is due is completed. -/
theorem completeType
    {type : TypeId}
    (scope : ScopeId)
    (due : start.Due (.type type)) :
    Completes input fixed pending start
        (Elab.completeType type scope) fun later _ =>
      later.Parsed (.type type) :=
  (completeTypeInPlace scope due).weaken fun _ _ _ _ => And.left

/-- An expression that is due is completed. -/
theorem completeExpr
    {expr : ExprId}
    (scope : ScopeId)
    (due : start.Due (.expr expr)) :
    Completes input fixed pending start
        (Elab.completeExpr expr scope) fun later _ =>
      later.Parsed (.expr expr) := by
  refine observe ?_
  cases form : (start.expr expr).form with
  | unparsed range =>
      have captured : start.range? (.expr expr) = some range := by
        rw [Arena.range?, form]
        rfl
      exact bind (parseRange .expression scope captured)
          fun _ source later known =>
        (moveExpr (later.holds due.holds) known.2).weaken
          fun _ _ _ _ => And.left
  | _ =>
      refine pure (due.parsed_of Family.noConfusion ?_)
      rw [Arena.isUnparsed, form]
      rfl

/--
The body of a definition that is ready is completed to a statement that is ready
within it.
-/
theorem completeStmt
    {fragment : Fragment StmtId}
    (isBlock : fragment = .body ∨ fragment = .members)
    (lists : ∀ range older later stmt, fragment.Parsed range older later stmt →
      older.stmts.size ≤ stmt.raw ∧
        later.Ready older.decls.size (4 * (range.stop - range.start))
          (.stmt stmt))
    {bound : Nat}
    {definition : DefId}
    {stmt : StmtId}
    (scope : ScopeId)
    (ready : start.Ready 0 bound (.definition definition))
    (block : (start.definition definition).form.block? = some stmt)
    (typed : ∀ other, fixed other → start.Typed other) :
    Completes input fixed pending start
      (Elab.completeStmt stmt scope fragment.captured)
      fun later _ => ∃ inner, inner + 1 ≤ bound ∧
          later.Ready 0 inner (.stmt stmt) := by
  refine observe ?_
  cases ready with
  | nothing _ flat =>
      rw [block] at flat
      cases flat
  | initializer _ form _ =>
      rw [form] at block
      cases block
  | @block _ inner _ other _ form inside room =>
      obtain rfl : other = stmt := by simpa using form.symm.trans block
      split
      next range captured =>
        have present := inside.present
        rw [Arena.isUnparsed, captured] at present
        cases present
      next => exact pure ⟨inner, room, inside⟩
  | @capturedBlock _ _ other range _ form stored captured room =>
      obtain rfl : other = stmt := by simpa using form.symm.trans block
      rw [captured]
      have here : start.range? (fragment.term other) = some range := by
        rcases isBlock with rfl | rfl <;>
          simp [Fragment.term, Arena.range?, StmtForm.range?, captured]
      refine bind (parseRange fragment scope here) ?_
      rintro middle source later ⟨extended, known⟩
      obtain ⟨new, inside⟩ := lists _ _ _ _ known
      have ready := inside.weaken (Nat.zero_le _) (Nat.le_refl _)
      have held := later.holds stored
      have capturedNow : (middle.stmt other).form = .unparsed range := by
        rw [extended.stmt_eq stored, captured]
      have moved := Arena.moved_moveStmt held source
      have progress := Arena.progress_moveStmt held capturedNow ready
      refine (changeArena progress (fun {item} given _ => ?_)
        (moved.standing progress)).weaken ?_
      · have before := typed item given
        have atTarget : item ≠ other := by
          rintro rfl
          have present := before.parsed
          rw [Arena.isUnparsed, captured] at present
          cases present
        have atSource : item ≠ source := by
          rintro rfl
          exact Nat.lt_irrefl _ (Nat.lt_of_lt_of_le before.held new)
        simp [Arena.stmt_moveStmt held, atTarget, atSource]
      · rintro final _ order _ rfl
        refine ⟨4 * (range.stop - range.start), room, ?_⟩
        refine progress.ready_of_form
          (fun _ _ _ inner => progress.toSucceeds.ready inner)
          (progress.holds held) ?_ ready
        simp [Arena.stmt_moveStmt held]

end Completes

end Tern
