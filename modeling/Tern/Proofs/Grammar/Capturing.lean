import Tern.Proofs.Grammar.Swept

namespace Tern

/-!
# Parsers that capture what they have read

Whatever range of tokens a parser stores, done or failed, it has read itself:
the range is not empty, begins where the parser began or behind it, and ends
within the window. Of a parser that captures nothing it is said that it stores
no ranges at all.
-/

/--
A range holds some tokens from a position on, and none from another one on.
-/
structure TokenRange.Between (range : TokenRange) (first stop : Nat) :
    Prop where
  behind : first ≤ range.start
  nonempty : range.start < range.stop
  before : range.stop ≤ stop

namespace Arena

variable {arena older middle newer after : Arena} {term : Term}
  {allowed : TokenRange → Prop}

/--
A range of tokens that an arena stores was stored in an older one or is allowed.
-/
def StoresOnly (older newer : Arena) (allowed : TokenRange → Prop) : Prop :=
  ∀ term range, newer.range? term = some range → older.range? term =
    some range ∨ allowed range

theorem StoresOnly.refl (arena : Arena) : arena.StoresOnly arena allowed :=
  fun _ _ stored => .inl stored

theorem StoresOnly.trans
    (first : older.StoresOnly middle allowed)
    (second : middle.StoresOnly newer allowed) :
    older.StoresOnly newer allowed := by
  intro term range stored
  rcases second term range stored with earlier | new
  · exact first term range earlier
  · exact .inr new

theorem StoresOnly.weaken
    {more : TokenRange → Prop}
    (stores : older.StoresOnly newer allowed)
    (implied : ∀ range, allowed range → more range) :
    older.StoresOnly newer more :=
  fun term range stored => (stores term range stored).imp_right (implied range)

/-- Where a term is added, it is the only one that may be a new range. -/
theorem Adds.storesOnly
    (adds : arena.Adds term after)
    (fits : ∀ range, after.range? term = some range → allowed range) :
    arena.StoresOnly after allowed := by
  intro other range stored
  by_cases same : other = term
  · exact .inr (fits range (same ▸ stored))
  · exact .inl ((adds.reads same).range? ▸ stored)

/-- No declaration is a range of tokens. -/
private theorem storesOnly_addDecl (decl : Decl) :
    arena.StoresOnly (arena.addDecl decl).2 allowed := by
  intro term range stored
  cases term <;> exact .inl stored

private theorem storesOnly_updateDecl (decl : DeclId) (change : Decl → Decl) :
    arena.StoresOnly (arena.updateDecl decl change) allowed := by
  intro term range stored
  cases term <;> exact .inl stored

/-- What is left of an arena was there before. -/
private theorem storesOnly_rewind (arena : Arena) (mark : ArenaMark) :
    arena.StoresOnly (arena.rewind mark) allowed := by
  intro term range stored
  have held := holds_of_range? stored
  left
  cases term with
  | type id =>
      have kept : id.raw < (arena.types.take mark.types).size := held
      rw [← stored]
      simp only [Arena.range?, Arena.type, rewind, Array.getD_eq_getD_getElem?]
      simp at kept
      simp [kept]
  | expr id =>
      have kept : id.raw < (arena.exprs.take mark.exprs).size := held
      rw [← stored]
      simp only [Arena.range?, Arena.expr, rewind, Array.getD_eq_getD_getElem?]
      simp at kept
      simp [kept]
  | stmt id =>
      have kept : id.raw < (arena.stmts.take mark.stmts).size := held
      rw [← stored]
      simp only [Arena.range?, Arena.stmt, rewind, Array.getD_eq_getD_getElem?]
      simp at kept
      simp [kept]
  | _ => cases stored

end Arena

/-- Braces that were captured are at least one token. -/
private theorem Parser.lt_of_captureBraces_done
    {input : ParserInput}
    {state after : ParserState}
    {range : TokenRange}
    (closed : input.window.Closed)
    (run : captureBraces input state = .done range after) :
    state.position < after.position := by
  have captured :
      (expect (Delimiter.opener .brace) >>= fun _ => remaining >>= fun left =>
      skipOut (input.window.tokenAt state.position).span state.track.depth
        (left + 1) >>=
        fun _ => rangeFrom state.position) input state = .done range after :=
          run
  obtain ⟨_, opened, opens, rest⟩ := done_of_bind captured
  obtain ⟨found, rfl⟩ := expect_done opens
  obtain ⟨left, _, counted, rest⟩ := done_of_bind rest
  cases counted
  obtain ⟨_, middle, skipped, ranged⟩ := done_of_bind rest
  cases ranged
  have inside : state.position < input.window.stop :=
    closed.lt_stop (by rw [found]; nofun)
  have further := behind_position inside
  have onward := (skipOut_done skipped).1
  omega

/--
A range that a parser may store that began at a position, if it may capture any.
-/
def Captured
    (capturing : Bool)
    (first stop : Nat)
    (range : TokenRange) :
    Prop :=
  capturing = true ∧ range.Between first (max first stop)

/-- What was read from a position on was read from any one before. -/
private theorem Captured.since
    {capturing : Bool}
    {first middle stop : Nat}
    {range : TokenRange}
    (captured : Captured capturing middle stop range)
    (onward : first ≤ middle)
    (within : middle ≤ max first stop) :
    Captured capturing first stop range := by
  obtain ⟨may, behind, nonempty, before⟩ := captured
  exact ⟨may, Nat.le_trans onward behind, nonempty, by omega⟩

/--
What a parser stores that is done or has failed, and where it stands when it is
done.
-/
def Outcome.Stores
    {Value : Type}
    (capturing : Bool)
    (stop : Nat)
    (start : ParserState) :
    Outcome ParseError ParserState Value → Prop
  | .done _ after =>
      start.position ≤ after.position ∧
        after.position ≤ max start.position stop ∧
        start.arena.StoresOnly after.arena
          (Captured capturing start.position stop)
  | .failed _ after =>
      start.arena.StoresOnly after.arena
        (Captured capturing start.position stop)
  | .exhausted => True

/--
All ranges that a parser stores are captured by it; it goes on, but not past the
window.
-/
def Captures
    {Value : Type}
    (input : ParserInput)
    (capturing : Bool)
    (parser : Parser Value) :
    Prop :=
  ∀ state : ParserState,
    (parser input state).Stores capturing input.window.stop state

/-- What is stored behind a part was stored since that began. -/
private theorem Outcome.Stores.since
    {Value : Type}
    {capturing : Bool}
    {stop : Nat}
    {start middle : ParserState}
    {outcome : Outcome ParseError ParserState Value}
    (stores : outcome.Stores capturing stop middle)
    (onward : start.position ≤ middle.position)
    (within : middle.position ≤ max start.position stop)
    (before : start.arena.StoresOnly middle.arena
      (Captured capturing start.position stop)) :
    outcome.Stores capturing stop start := by
  have captured (range : TokenRange)
      (captured : Captured capturing middle.position stop range) :
      Captured capturing start.position stop range :=
    captured.since onward within
  cases outcome with
  | done value after =>
      obtain ⟨further, inside, stored⟩ := stores
      exact ⟨Nat.le_trans onward further, by omega,
        before.trans (stored.weaken captured)⟩
  | failed error after =>
      exact before.trans (Arena.StoresOnly.weaken stores captured)
  | exhausted => trivial

namespace Captures

variable {Value First : Type} {input : ParserInput} {capturing : Bool}

theorem pure (value : Value) : Captures input capturing (Pure.pure value) :=
  fun state => ⟨Nat.le_refl _, Nat.le_max_left _ _, .refl state.arena⟩

theorem fail {error : ParseError} :
    Captures input capturing (Action.fail error : Parser Value) :=
  fun state => .refl state.arena

theorem failAt {cause : ParseCause} {span : Span} :
    Captures input capturing (Parser.failAt cause span : Parser Value) :=
  fail

theorem bind
    {parser : Parser First}
    {next : First → Parser Value}
    (first : Captures input capturing parser)
    (rest : ∀ value, Captures input capturing (next value)) :
    Captures input capturing (parser >>= next) := by
  intro state
  have ended := first state
  simp only [Bind.bind, Action.bind]
  cases ending : parser input state with
  | done value middle =>
      rw [ending] at ended
      obtain ⟨onward, within, stored⟩ := ended
      exact (rest value middle).since onward within stored
  | failed error middle =>
      rw [ending] at ended
      exact ended
  | exhausted => trivial

theorem ite {condition : Prop} [Decidable condition] {yes no : Parser Value}
    (capturesYes : Captures input capturing yes)
    (capturesNo : Captures input capturing no) :
    Captures input capturing (if condition then yes else no) := by
  split
  · exact capturesYes
  · exact capturesNo

/-- What captures nothing stores no range that must not be captured. -/
theorem quiet
    {parser : Parser Value}
    (captures : Captures input false parser) :
    Captures input capturing parser := by
  intro state
  have ended := captures state
  have none (range : TokenRange)
      (captured : Captured false state.position input.window.stop range) :
      Captured capturing state.position input.window.stop range :=
    nomatch captured.1
  generalize parser input state = outcome at ended
  cases outcome with
  | done value after => exact ⟨ended.1, ended.2.1, ended.2.2.weaken none⟩
  | failed error after => exact Arena.StoresOnly.weaken ended none
  | exhausted => trivial

/-- A parser that stays where it is and stores no ranges is done. -/
def Stays (input : ParserInput) (parser : Parser Value) : Prop :=
  ∀ state : ParserState, ∃ value after, parser input state = .done value after ∧
    after.position = state.position ∧ ∀ term, after.arena.range? term =
      state.arena.range? term

/-- A step that stays where it is and stores no ranges. -/
theorem step
    {parser : Parser Value}
    (stays : Stays input parser) :
    Captures input capturing parser := by
  intro state
  obtain ⟨value, after, ending, position, same⟩ := stays state
  rw [ending]
  refine ⟨Nat.le_of_eq position.symm, position ▸ Nat.le_max_left _ _,
    fun term range stored => ?_⟩
  exact .inl (same term ▸ stored)

/-- What is done beside the arena stores nothing. -/
theorem aside
    {parser : Parser First}
    {next : First → Parser Value}
    (done : ∀ state : ParserState, ∃ value after, parser input state =
      .done value after ∧
      after.position = state.position ∧ after.arena = state.arena)
    (rest : ∀ value, Captures input capturing (next value)) :
    Captures input capturing (parser >>= next) := by
  refine bind (step fun state => ?_) rest
  obtain ⟨value, after, ending, position, arena⟩ := done state
  exact ⟨value, after, ending, position, fun _ => arena ▸ rfl⟩

/-- A term is added that is no range of tokens. -/
private theorem adds
    {change : Arena → Value × Arena}
    {term : Value → Term}
    (added : ∀ arena : Arena,
      arena.Adds (term (change arena).1) (change arena).2)
    (parsed : ∀ arena : Arena, (change arena).2.range? (term (change arena).1) =
      none) :
    Captures input capturing (Parser.inArena change) := by
  intro state
  refine ⟨Nat.le_refl _, Nat.le_max_left _ _, (added state.arena).storesOnly ?_⟩
  intro range stored
  exact absurd ((parsed state.arena).symm.trans stored) nofun

theorem addName (form : NameForm) (span : Span) :
    Captures input capturing (Parser.addName form span) :=
  adds (fun _ => .name form span) fun _ => rfl

private theorem addPlaceholder (span : Span) :
    Captures input capturing (Parser.inArena fun arena =>
      arena.addPlaceholder span) :=
  adds (fun _ => .placeholder span) fun _ => rfl

theorem addType {form : TypeForm} (parsed : form.range? = none) (span : Span) :
    Captures input capturing (Parser.addType form span) :=
  adds (fun _ => .type form span) fun arena => by
    rw [Arena.range?, Arena.type_addType, parsed]

theorem addExpr {form : ExprForm} (parsed : form.range? = none) (span : Span) :
    Captures input capturing (Parser.addExpr form span) :=
  adds (fun _ => .expr form span) fun arena => by
    rw [Arena.range?, Arena.expr_addExpr, parsed]

theorem addStmt {form : StmtForm} (parsed : form.range? = none) (span : Span) :
    Captures input capturing (Parser.addStmt form span) :=
  adds (fun _ => .stmt form span) fun arena => by
    rw [Arena.range?, Arena.stmt_addStmt, parsed]

theorem addDefinition (form : DefForm) (span : Span) :
    Captures input capturing (Parser.addDefinition form span) :=
  adds (fun _ => .definition form span) fun _ => rfl

theorem addRequirement (form : ReqForm) (span : Span) :
    Captures input capturing (Parser.addRequirement form span) :=
  adds (fun _ => .requirement form span) fun _ => rfl

theorem addDecl
    (name : NameId)
    (specifiers : Specifiers)
    (form : DeclForm)
    (span : Span) :
    Captures input capturing (Parser.addDecl name specifiers form span) :=
  fun _ => ⟨Nat.le_refl _, Nat.le_max_left _ _, Arena.storesOnly_addDecl _⟩

theorem updateDecl (decl : DeclId) (change : ParserState → Decl → Decl) :
    Captures input capturing (Action.modify fun state => { state with
      arena := state.arena.updateDecl decl (change state) }) :=
  fun _ => ⟨Nat.le_refl _, Nat.le_max_left _ _, Arena.storesOnly_updateDecl _ _⟩

theorem completeDecl (decl : DeclId) (form : DeclForm) (span : Span) :
    Captures input capturing (Parser.completeDecl decl form span) :=
  updateDecl decl fun _ old => { old with form := form, span := span }

/-- The token behind the current one is in the window or at its end. -/
private theorem behind_le (input : ParserInput) (state : ParserState) :
    (Parser.behind input state).position ≤
      max state.position input.window.stop := by
  simp only [Parser.behind, Window.next]
  split <;> omega

theorem advance : Captures input capturing Parser.advance :=
  fun state =>
    ⟨Parser.le_behind input state, behind_le input state, .refl state.arena⟩

theorem skip : Captures input capturing Parser.skip :=
  bind advance fun _ => pure _

theorem peek
    {next : Token → Parser Value}
    (rest : ∀ token, Captures input capturing (next token)) :
    Captures input capturing (Parser.current >>= next) :=
  aside (fun _ => ⟨_, _, rfl, rfl, rfl⟩) rest

theorem peekKind
    {next : TokenKind → Parser Value}
    (rest : ∀ kind, Captures input capturing (next kind)) :
    Captures input capturing (Parser.currentKind >>= next) :=
  aside (fun _ => ⟨_, _, rfl, rfl, rfl⟩) rest

theorem check
    {kind : TokenKind}
    {yes no : Parser Value}
    (capturesYes : Captures input capturing yes)
    (capturesNo : Captures input capturing no) :
    Captures input capturing
      (Parser.check kind >>= fun found => if found = true then yes else no) :=
  aside (fun _ => ⟨_, _, rfl, rfl, rfl⟩) fun _ => ite capturesYes capturesNo

theorem eaten (kind : TokenKind) : Captures input capturing (Parser.eat kind) :=
  check (bind skip fun _ => pure _) (pure _)

theorem eat
    {kind : TokenKind}
    {yes no : Parser Value}
    (capturesYes : Captures input capturing yes)
    (capturesNo : Captures input capturing no) :
    Captures input capturing (Parser.eat kind >>= fun found =>
      if found = true then yes else no) :=
  bind (eaten kind) fun _ => ite capturesYes capturesNo

theorem expect (kind : TokenKind) :
    Captures input capturing (Parser.expect kind) := by
  refine peek fun token => ite skip ?_
  split
  · exact failAt
  · exact failAt

theorem expectIdentifier :
    Captures input capturing Parser.expectIdentifier := by
  refine peek fun token => ?_
  split
  · exact bind skip fun _ => pure _
  · exact failAt

theorem identifier : Captures input capturing Parser.identifier :=
  bind expectIdentifier fun _ => addName _ _

theorem identifierOrPlaceholder (place : Span) :
    Captures input capturing (Parser.identifierOrPlaceholder place) :=
  aside (fun _ => ⟨_, _, rfl, rfl, rfl⟩) fun _ =>
    ite identifier (addPlaceholder place)

/-- A term is added behind what was read of it. -/
theorem spanned
    {add : Span → Parser Value}
    (start : Span)
    (captures : ∀ span, Captures input capturing (add span)) :
    Captures input capturing (Parser.spanFrom start >>= add) :=
  aside (fun _ => ⟨_, _, rfl, rfl, rfl⟩) captures

theorem within
    (scope : ScopeId)
    {parser : Parser Value}
    (inner : Captures input capturing parser) :
    Captures input capturing (Parser.within scope parser) := by
  intro state
  have ended := inner { state with scopes := state.scopes.enter scope }
  rw [Parser.within_run]
  generalize parser input { state with scopes := state.scopes.enter scope } =
    outcome at ended
  cases outcome with
  | done value after => exact ended
  | failed error after => exact ended
  | exhausted => trivial

theorem withTemplate
    (context : TemplateContext)
    {parser : Parser Value}
    (inner : Captures input capturing parser) :
    Captures input capturing (Parser.withTemplate context parser) := by
  intro state
  have ended :=
    inner { state with track := { state.track with template? := some context } }
  rw [Parser.withTemplate_run]
  generalize parser input
    { state with track := { state.track with template? := some context } } =
    outcome at ended
  cases outcome with
  | done value after => exact ended
  | failed error after => exact ended
  | exhausted => trivial

/--
What is tried and fails is taken back, up to ranges that were captured in it.
-/
theorem either
    {first second : Parser Value}
    (tried : Captures input capturing first)
    (instead : Captures input capturing second) :
    Captures input capturing (Parser.either first second) := by
  intro state
  have ended := tried state.snapshot.2
  simp only [Parser.either_run, Parser.attempt]
  generalize first input state.snapshot.2 = outcome at ended
  cases outcome with
  | done value after => exact ended
  | failed error after =>
      have left : state.arena.StoresOnly (after.restore state.snapshot.1).arena
          (Captured capturing state.position input.window.stop) :=
        Arena.StoresOnly.trans ended (Arena.storesOnly_rewind _ _)
      exact (instead (after.restore state.snapshot.1)).since (Nat.le_refl _)
        (Nat.le_max_left _ _) left
  | exhausted => trivial

private theorem skipTo (terminators : List TokenKind) (level fuel : Nat) :
    Captures input capturing (Parser.skipTo terminators level fuel) := by
  induction fuel with
  | zero => exact fun _ => trivial
  | succ fuel inductionHypothesis =>
      exact peek fun _ => aside (fun _ => ⟨_, _, rfl, rfl, rfl⟩) fun _ =>
        ite (pure ())
          (ite failAt (ite failAt (bind skip fun _ => inductionHypothesis)))

private theorem skipOut (opened : Span) (level fuel : Nat) :
    Captures input capturing (Parser.skipOut opened level fuel) := by
  induction fuel with
  | zero => exact fun _ => trivial
  | succ fuel inductionHypothesis =>
      exact aside (fun _ => ⟨_, _, rfl, rfl, rfl⟩) fun _ =>
        ite (aside (fun _ => ⟨_, _, rfl, rfl, rfl⟩) fun _ =>
          ite failAt (bind skip fun _ => inductionHypothesis)) (pure ())

private theorem captureTo (terminators : List TokenKind) :
    Captures input capturing (Parser.captureTo terminators) :=
  aside (fun _ => ⟨_, _, rfl, rfl, rfl⟩) fun _ =>
    aside (fun _ => ⟨_, _, rfl, rfl, rfl⟩) fun _ =>
    aside (fun _ => ⟨_, _, rfl, rfl, rfl⟩) fun _ => bind (skipTo _ _ _) fun _ =>
      aside (fun _ => ⟨_, _, rfl, rfl, rfl⟩) fun _ => pure _

private theorem captureBraces : Captures input capturing Parser.captureBraces :=
  aside (fun _ => ⟨_, _, rfl, rfl, rfl⟩) fun _ =>
    aside (fun _ => ⟨_, _, rfl, rfl, rfl⟩) fun _ =>
    aside (fun _ => ⟨_, _, rfl, rfl, rfl⟩) fun _ => bind (expect _) fun _ =>
      aside (fun _ => ⟨_, _, rfl, rfl, rfl⟩) fun _ =>
        bind (skipOut _ _ _) fun _ =>
        aside (fun _ => ⟨_, _, rfl, rfl, rfl⟩) fun _ => pure _

/--
Behind a range captured a parser fails on the spot, or stores that range, which
is not empty.
-/
def Keeps
    (input : ParserInput)
    (range : TokenRange)
    (parser : Parser Value) :
    Prop :=
  ∀ state : ParserState,
    (∃ error, parser input state = .failed error state) ∨
      ∃ value after, parser input state = .done value after ∧ after.position =
        state.position ∧
        range.start < range.stop ∧
          state.arena.StoresOnly after.arena (· = range)

/-- A range that was captured is kept. -/
private theorem keep
    {reading : Parser TokenRange}
    {next : TokenRange → Parser Value}
    (reads : Captures input true reading)
    (takes : ∀ {state after : ParserState} {range : TokenRange},
      reading input state = .done range after →
        range = { start := state.position, stop := after.position } ∧
          after.arena = state.arena ∧ Keeps input range (next range)) :
    Captures input true (reading >>= next) := by
  intro state
  have ended := reads state
  simp only [Bind.bind, Action.bind]
  cases ending : reading input state with
  | done range middle =>
      rw [ending] at ended
      obtain ⟨onward, within, -⟩ := ended
      obtain ⟨rfl, arena, keeps⟩ := takes ending
      rcases keeps middle with ⟨error, failed⟩ |
          ⟨value, after, done, position, nonempty, stored⟩
      · simp only [failed, Outcome.Stores, arena]
        exact .refl _
      · simp only [done]
        refine ⟨position ▸ onward, position ▸ within, ?_⟩
        rw [← arena]
        refine stored.weaken ?_
        rintro range rfl
        exact ⟨rfl, Nat.le_refl _, nonempty, within⟩
  | failed error middle =>
      rw [ending] at ended
      exact ended
  | exhausted => trivial

/-- A range that may be empty is kept if it is not. -/
theorem keepTo
    {terminators : List TokenKind}
    {failure : Parser Value}
    {store : TokenRange → Parser Value}
    (fails : ∀ state, ∃ error, failure input state = .failed error state)
    (stores : ∀ range state, ∃ value after, store range input state =
      .done value after ∧
      after.position = state.position ∧
        state.arena.StoresOnly after.arena (· = range)) :
    Captures input true (Parser.captureTo terminators >>= fun range =>
      if range.isEmpty = true then failure else store range) := by
  refine keep (captureTo _) fun {state after range} run => ?_
  obtain ⟨rfl, order, arena⟩ := Parser.captureTo_done run
  refine ⟨rfl, arena, fun next => ?_⟩
  generalize ranged :
    ({ start := state.position, stop := after.position } : TokenRange) = range
  by_cases empty : range.isEmpty = true
  · exact .inl (by simpa [empty] using fails next)
  · obtain ⟨value, last, done, position, stored⟩ := stores range next
    have nonempty : range.start < range.stop := by
      subst ranged
      exact Nat.lt_of_le_of_ne order (by simpa [TokenRange.isEmpty] using empty)
    exact .inr ⟨value, last, by simpa [empty] using done, position, nonempty,
      stored⟩

/-- A pair of braces is kept, which is not empty. -/
theorem keepBraces
    (closed : input.window.Closed)
    {store : TokenRange → Parser Value}
    (stores : ∀ range state, ∃ value after, store range input state =
      .done value after ∧
      after.position = state.position ∧
        state.arena.StoresOnly after.arena (· = range)) :
    Captures input true (Parser.captureBraces >>= store) := by
  refine keep captureBraces fun {state after range} run => ?_
  obtain ⟨read, -, arena⟩ := Parser.captureBraces_done run
  refine ⟨read, arena, fun next => ?_⟩
  obtain ⟨value, last, done, position, stored⟩ := stores range next
  have nonempty : range.start < range.stop := by
    rw [read]
    exact Parser.lt_of_captureBraces_done closed run
  exact .inr ⟨value, last, done, position, nonempty, stored⟩

end Captures

end Tern
