import Tern.Proofs.Grammar.Atomicity
import Tern.Proofs.Grammar.Passing

namespace Tern

/-!
# Parsers keep track

A parser that is done has closed the delimiters that it has opened and no
others, and has taken the specifiers that it has made wait. Done or failed, it
is in the scope in which it began, and in the template context in which it began
unless it reads the parameters or the constraint of that context itself.
-/

/--
Whether it is done or has failed, a parser composed of steps is in the scope it
began in.
-/
theorem Composed.leaves_current
    {own : List DeclId}
    {Value : Type}
    {parser : Parser Value}
    (composed : Composed own parser)
    (input : ParserInput)
    (state : ParserState) :
    (parser input state).Leaves fun after => after.scopes.current =
      state.scopes.current := by
  induction composed generalizing state with
  | @bind own First Value parser next _ _ first rest =>
      have ended := first state
      simp only [Bind.bind, Action.bind]
      cases ending : parser input state with
      | done value middle =>
          rw [ending] at ended
          have onward := rest value middle
          rwa [show middle.scopes.current = state.scopes.current from ended]
            at onward
      | failed error middle =>
          rw [ending] at ended
          exact ended
      | exhausted => trivial
  | @orElse own Value parser handle _ _ first rest =>
      have ended := first state
      simp only [Action.orElse]
      cases ending : parser input state with
      | done value middle =>
          rw [ending] at ended
          exact ended
      | failed error middle =>
          rw [ending] at ended
          have onward := rest error middle
          rwa [show middle.scopes.current = state.scopes.current from ended]
            at onward
      | exhausted => trivial
  | @speculate own Value keeps parser _ inner =>
      have watched := inner state.snapshot.2
      have settled (ending : Except ParseError Value) (after : ParserState)
          (same : after.scopes.current = state.scopes.current) :
          (if keeps ending then after.release
            else after.restore state.snapshot.1).scopes.current =
            state.scopes.current := by
        split
        · exact same
        · rfl
      simp only [Parser.speculate]
      cases ending : parser input state.snapshot.2 with
      | done value after =>
          rw [ending] at watched
          exact settled (.ok value) after watched
      | failed error after =>
          rw [ending] at watched
          exact settled (.error error) after watched
      | exhausted => trivial
  | @within own Value scope parser _ inner =>
      rw [Parser.within_run]
      cases parser input { state with scopes := state.scopes.enter scope } with
      | done value after => exact rfl
      | failed error after => exact rfl
      | exhausted => trivial
  | @withTemplate own Value context parser _ inner =>
      have ended :=
        inner { state with
                track := { state.track with template? := some context } }
      rw [Parser.withTemplate_run]
      cases ending : parser input
          { state with track := { state.track with template? := some context } }
            with
      | done value after =>
          rw [ending] at ended
          exact ended
      | failed error after =>
          rw [ending] at ended
          exact ended
      | exhausted => trivial
  | addDecl name specifiers form span _ rest => exact rest _ _
  | scopeFor decl kind =>
      simp only [Parser.scopeFor, Parser.inScopes, Action.update,
        Outcome.Leaves, Scopes.scopeFor]
      split
      · rfl
      · simp [Scopes.push]
  | bindDecl decl => exact Scopes.record_current _ _
  | pushScope kind => exact Scopes.record_current _ _
  | exhaust => trivial
  | _ => exact rfl

/-- Nothing is known of the waiting specifiers. -/
def anyWaiting (_ : Specifiers) : Prop :=
  True

/-- No specifiers wait for a declaration. -/
def noneWaiting (specifiers : Specifiers) : Prop :=
  specifiers = .none

/--
What was kept track of when a parser was done, and what it has left of it when
it has failed.
-/
def Outcome.Tracked {Value : Type} (inTemplate : Bool) (start : ParserTrack)
    (left : List Delimiter) (settled : Specifiers → Prop) :
    Outcome ParseError ParserState Value → Prop
  | .done _ after =>
      after.track.delimiters = left ∧ settled after.track.specifiers ∧
        (inTemplate = false → after.track.template? = start.template?)
  | .failed _ after => inTemplate = false → after.track.template? =
      start.template?
  | .exhausted => True

/--
What is kept track of behind a step that keeps the template context is so before
it.
-/
private theorem Outcome.Tracked.since
    {Value : Type}
    {inTemplate : Bool}
    {start middle : ParserTrack}
    {left : List Delimiter}
    {settled : Specifiers → Prop}
    {outcome : Outcome ParseError ParserState Value}
    (tracked : outcome.Tracked inTemplate middle left settled)
    (kept : inTemplate = false → middle.template? = start.template?) :
    outcome.Tracked inTemplate start left settled := by
  cases outcome with
  | done value after =>
      obtain ⟨opens, waits, keeps⟩ := tracked
      exact ⟨opens, waits, fun outside => (keeps outside).trans (kept outside)⟩
  | failed error after => exact fun outside =>
      (tracked outside).trans (kept outside)
  | exhausted => trivial

/--
From some delimiters being open and some specifiers waiting, a parser that is
done comes to others, if the kind of the current token is as known. Done or
failed, it keeps the template context, unless it stands in a template itself.
-/
def Tracks
    {Value : Type}
    (input : ParserInput)
    (inTemplate : Bool)
    (known : TokenKind → Prop)
    (opened : List Delimiter) (waiting : Specifiers → Prop)
      (left : List Delimiter)
    (settled : Specifiers → Prop) (parser : Parser Value) : Prop :=
  ∀ state : ParserState, known (input.window.kindAt state.position) →
    state.track.delimiters = opened → waiting state.track.specifiers →
      (parser input state).Tracked inTemplate state.track left settled

/-- A parser is done where it began, and keeps all that is kept track of. -/
def Parser.Idles
    {Value : Type}
    (input : ParserInput)
    (parser : Parser Value) :
    Prop :=
  ∀ state : ParserState, ∃ value after, parser input state = .done value after ∧
    after.position = state.position ∧ after.track = state.track

namespace Tracks

variable {Value First : Type} {input : ParserInput} {inTemplate : Bool}
  {known : TokenKind → Prop} {opened between left : List Delimiter}
  {waiting meanwhile settled : Specifiers → Prop}

theorem pure (value : Value) :
    Tracks input inTemplate known opened waiting opened waiting
      (Pure.pure value) :=
  fun _ _ opens waits => ⟨opens, waits, fun _ => rfl⟩

theorem fail {error : ParseError} :
    Tracks input inTemplate known opened waiting left settled
      (Action.fail error : Parser Value) :=
  fun _ _ _ _ _ => rfl

theorem failAt {cause : ParseCause} {span : Span} :
    Tracks input inTemplate known opened waiting left settled
      (Parser.failAt cause span : Parser Value) :=
  fail

theorem bind
    {parser : Parser First}
    {next : First → Parser Value}
    (first : Tracks input inTemplate known opened waiting between meanwhile
      parser)
    (rest : ∀ value,
      Tracks input inTemplate anyKind between meanwhile left settled
        (next value)) :
    Tracks input inTemplate known opened waiting left settled
      (parser >>= next) := by
  intro state isKnown opens waits
  have ended := first state isKnown opens waits
  simp only [Bind.bind, Action.bind]
  cases ending : parser input state with
  | done value middle =>
      rw [ending] at ended
      obtain ⟨opensMiddle, waitsMiddle, kept⟩ := ended
      exact (rest value middle trivial opensMiddle waitsMiddle).since kept
  | failed error middle =>
      rw [ending] at ended
      exact ended
  | exhausted => trivial

theorem ite {condition : Prop} [Decidable condition] {yes no : Parser Value}
    (tracksYes : Tracks input inTemplate known opened waiting left settled yes)
    (tracksNo : Tracks input inTemplate known opened waiting left settled no) :
    Tracks input inTemplate known opened waiting left settled
      (if condition then yes else no) := by
  split
  · exact tracksYes
  · exact tracksNo

theorem forget
    {parser : Parser Value}
    (tracks : Tracks input inTemplate anyKind opened waiting left settled
      parser) :
    Tracks input inTemplate known opened waiting left settled parser :=
  fun state _ opens waits => tracks state trivial opens waits

/-- In a template less is said of a parser. -/
theorem inside
    {parser : Parser Value}
    (tracks : Tracks input false known opened waiting left settled parser) :
    Tracks input inTemplate known opened waiting left settled parser := by
  intro state isKnown opens waits
  have ended := tracks state isKnown opens waits
  generalize parser input state = outcome at ended
  cases outcome with
  | done value after => exact ⟨ended.1, ended.2.1, fun _ => ended.2.2 rfl⟩
  | failed error after => exact fun _ => ended rfl
  | exhausted => trivial

/--
What is known of the specifiers may be more before a parser and less behind it.
-/
theorem weaken
    {more less : Specifiers → Prop}
    {parser : Parser Value}
    (tracks : Tracks input inTemplate known opened waiting left settled parser)
    (before : ∀ specifiers, more specifiers → waiting specifiers)
    (behind : ∀ specifiers, settled specifiers → less specifiers) :
    Tracks input inTemplate known opened more left less parser := by
  intro state isKnown opens waits
  have ended := tracks state isKnown opens (before _ waits)
  generalize parser input state = outcome at ended
  cases outcome with
  | done value after => exact ⟨ended.1, behind _ ended.2.1, ended.2.2⟩
  | failed error after => exact ended
  | exhausted => trivial

/-- Where a parser idles, the rest begins as if it were not there. -/
theorem aside
    {parser : Parser First}
    {next : First → Parser Value}
    (idles : parser.Idles input)
    (rest : ∀ value, Tracks input inTemplate known opened waiting left settled
      (next value)) :
    Tracks input inTemplate known opened waiting left settled
      (parser >>= next) := by
  intro state isKnown opens waits
  obtain ⟨value, middle, ending, position, track⟩ := idles state
  rw [Parser.run_bind ending, ← track]
  exact rest value middle (position ▸ isKnown) (track ▸ opens) (track ▸ waits)

theorem idle
    {parser : Parser Value}
    (idles : parser.Idles input) :
    Tracks input inTemplate known opened waiting opened waiting parser := by
  intro state _ opens waits
  obtain ⟨value, after, ending, -, track⟩ := idles state
  rw [ending]
  exact ⟨track ▸ opens, track ▸ waits, fun _ => congrArg _ track⟩

theorem peek
    {next : Token → Parser Value}
    (rest : ∀ token,
      Tracks input inTemplate (· = token.kind) opened waiting left settled
        (next token)) :
    Tracks input inTemplate known opened waiting left settled
      (Parser.current >>= next) :=
  fun state _ opens waits =>
    rest (input.window.tokenAt state.position) state rfl opens waits

theorem peekKind
    {next : TokenKind → Parser Value}
    (rest : ∀ kind,
      Tracks input inTemplate (· = kind) opened waiting left settled
        (next kind)) :
    Tracks input inTemplate known opened waiting left settled
      (Parser.currentKind >>= next) :=
  fun state _ opens waits =>
    rest (input.window.kindAt state.position) state rfl opens waits

/-- Behind a token the delimiters follow it, and nothing else has changed. -/
private theorem behind
    (follows : ∀ kind, known kind → Delimiter.follow opened kind = left)
    {state : ParserState}
    (isKnown : known (input.window.kindAt state.position))
    (opens : state.track.delimiters = opened)
    (waits : waiting state.track.specifiers)
    (value : Value) :
    (Outcome.done value (Parser.behind input state)).Tracked inTemplate
      state.track left
      waiting := by
  refine ⟨?_, ?_, fun _ => ParserTrack.follow_template? _ _⟩
  · rw [← follows _ isKnown, ← opens]
    exact ParserTrack.follow_delimiters _ _
  · rwa [Parser.behind, ParserTrack.follow_specifiers]

theorem advance
    (follows : ∀ kind, known kind → Delimiter.follow opened kind = left) :
    Tracks input inTemplate known opened waiting left waiting Parser.advance :=
  fun _ isKnown opens waits => behind follows isKnown opens waits _

theorem skip
    (follows : ∀ kind, known kind → Delimiter.follow opened kind = left) :
    Tracks input inTemplate known opened waiting left waiting Parser.skip :=
  bind (advance follows) fun _ => pure _

theorem check
    {kind : TokenKind}
    {yes no : Parser Value}
    (tracksYes : Tracks input inTemplate (· = kind) opened waiting left
      settled yes)
    (tracksNo : Tracks input inTemplate anyKind opened waiting left
      settled no) :
    Tracks input inTemplate known opened waiting left settled
      (Parser.check kind >>= fun found => if found = true then yes
        else no) := by
  refine @peek Value input inTemplate known opened left waiting settled
    (fun token => if decide (token.kind = kind) = true then yes else no)
      fun token => ?_
  by_cases same : token.kind = kind
  · simpa [same] using tracksYes
  · simpa [same] using tracksNo.forget

theorem eat
    {kind : TokenKind}
    {yes no : Parser Value}
    (follows : Delimiter.follow opened kind = between)
    (tracksYes : Tracks input inTemplate anyKind between waiting left
      settled yes)
    (tracksNo : Tracks input inTemplate anyKind opened waiting left
      settled no) :
    Tracks input inTemplate known opened waiting left settled
      (Parser.eat kind >>= fun found => if found = true then yes else no) := by
  have eaten : Tracks input inTemplate (· = kind) opened waiting left settled
      (Parser.skip >>= fun _ => yes) :=
    bind (skip fun _ same => same ▸ follows) fun _ => tracksYes
  refine Eq.mp (congrArg _ ?_) (check eaten tracksNo)
  simp only [Parser.eat, bind_assoc]
  congr 1
  funext found
  cases found <;> rfl

/-- A token that may be there neither opens nor closes a delimiter. -/
theorem eatPlain
    {kind : TokenKind}
    (follows : Delimiter.follow opened kind = opened) :
    Tracks input inTemplate known opened waiting opened waiting
      (Parser.eat kind) :=
  check (bind (skip fun _ same => same ▸ follows) fun _ => pure _) (pure _)

theorem expect
    {kind : TokenKind}
    (follows : Delimiter.follow opened kind = left) :
    Tracks input inTemplate known opened waiting left waiting
      (Parser.expect kind) := by
  refine peek fun token => ?_
  split
  next same => exact skip fun other found => (found.trans same).symm ▸ follows
  next => split <;> exact failAt

theorem expectIdentifier :
    Tracks input inTemplate known opened waiting opened waiting
      Parser.expectIdentifier := by
  refine peek fun token => ?_
  split
  next name same =>
    exact bind (skip fun other found => (found.trans same).symm ▸ rfl) fun _ =>
      pure _
  next => exact failAt

theorem identifier :
    Tracks input inTemplate known opened waiting opened waiting
      Parser.identifier :=
  bind expectIdentifier fun _ => idle fun _ => ⟨_, _, rfl, rfl, rfl⟩

theorem identifierOrPlaceholder (place : Span) :
    Tracks input inTemplate known opened waiting opened waiting
      (Parser.identifierOrPlaceholder place) :=
  aside (fun _ => ⟨_, _, rfl, rfl, rfl⟩) fun _ =>
    ite identifier (idle fun _ => ⟨_, _, rfl, rfl, rfl⟩)

/-- The specifiers are changed. -/
private theorem respecify
    (change : Specifiers → Value × Specifiers)
    (changes : ∀ specifiers, waiting specifiers →
      settled (change specifiers).2) :
    Tracks input inTemplate known opened waiting opened settled (fun _ state =>
      .done (change state.track.specifiers).1
        { state with track :=
          { state.track with specifiers := (change state.track.specifiers).2 }
            }) :=
  fun _ _ opens waits => ⟨opens, changes _ waits, fun _ => rfl⟩

theorem takeSpecifiers :
    Tracks input inTemplate known opened waiting opened noneWaiting
      Parser.takeSpecifiers :=
  respecify (fun specifiers => (specifiers, .none)) fun _ _ => rfl

theorem addSpecifier (specifier : Specifier) :
    Tracks input inTemplate known opened waiting opened anyWaiting
      (Parser.addSpecifier specifier) :=
  respecify (fun specifiers => ((), specifiers.insert specifier)) fun _ _ =>
    trivial

/-- In a template its context may be changed. -/
theorem retemplate (change : Option TemplateContext → Option TemplateContext) :
    Tracks input true known opened waiting opened waiting
        (Parser.retrack fun track =>
      { track with template? := change track.template? }) :=
  fun _ _ opens waits => ⟨opens, waits, nofun⟩

theorem within
    (scope : ScopeId)
    {parser : Parser Value}
    (inner : Tracks input inTemplate known opened waiting left settled parser) :
    Tracks input inTemplate known opened waiting left settled
      (Parser.within scope parser) := by
  intro state isKnown opens waits
  have ended :=
    inner { state with scopes := state.scopes.enter scope } isKnown opens waits
  rw [Parser.within_run]
  generalize parser input { state with scopes := state.scopes.enter scope } =
    outcome at ended
  cases outcome with
  | done value after => exact ended
  | failed error after => exact ended
  | exhausted => trivial

/-- Around a template the context in force is another one. -/
theorem withTemplate
    (context : TemplateContext)
    {parser : Parser Value}
    (inner : Tracks input true known opened waiting left settled parser) :
    Tracks input inTemplate known opened waiting left settled
      (Parser.withTemplate context parser) := by
  intro state isKnown opens waits
  have ended := inner
    { state with track := { state.track with template? := some context } }
      isKnown opens waits
  rw [Parser.withTemplate_run]
  generalize parser input
    { state with track := { state.track with template? := some context } } =
    outcome at ended
  cases outcome with
  | done value after => exact ⟨ended.1, ended.2.1, fun _ => rfl⟩
  | failed error after => exact fun _ => rfl
  | exhausted => trivial

/-- What is tried and fails is taken back with all that it has tracked. -/
theorem either
    {first second : Parser Value}
    (tried : Tracks input inTemplate known opened waiting left settled first)
    (instead : Tracks input inTemplate known opened waiting left settled
      second) :
    Tracks input inTemplate known opened waiting left settled
      (Parser.either first second) := by
  intro state isKnown opens waits
  have ended := tried state.snapshot.2 isKnown opens waits
  simp only [Parser.either_run, Parser.attempt]
  generalize first input state.snapshot.2 = outcome at ended
  cases outcome with
  | done value after => exact ended
  | failed error after =>
      exact instead (after.restore state.snapshot.1) isKnown opens waits
  | exhausted => trivial

/-- Reading on to a terminator closes all that has been opened since a level. -/
private theorem skipTo
    (terminators : List TokenKind)
    (inner outer : List Delimiter)
    (fuel : Nat) :
    Tracks input inTemplate anyKind (inner ++ outer) waiting outer waiting
      (Parser.skipTo terminators outer.length fuel) := by
  induction fuel generalizing inner with
  | zero => exact fun _ _ _ _ => trivial
  | succ fuel inductionHypothesis =>
      intro state _ opens waits
      have level : state.track.depth = outer.length ↔ inner = [] := by
        simp [ParserTrack.depth, opens]
      rw [Parser.skipTo_succ]
      dsimp only
      split
      next found =>
        obtain rfl := level.mp found.1
        exact ⟨opens, waits, fun _ => rfl⟩
      split
      · exact fun _ => rfl
      split
      · exact fun _ => rfl
      next goesOn =>
        have nested (closes :
            (input.window.kindAt state.position).closes?.isSome = true) :
            inner ≠ [] :=
          fun atLevel => goesOn ⟨level.mpr atLevel, closes⟩
        refine (inductionHypothesis _ (Parser.behind input state) trivial
          (Parser.behind_delimiters opens nested) ?_).since
            fun _ => ParserTrack.follow_template? _ _
        rwa [Parser.behind, ParserTrack.follow_specifiers]

/--
Reading on until a level is reached again closes all that has been opened since.
-/
private theorem skipOut
    (start : Span)
    (inner outer : List Delimiter)
    (fuel : Nat) :
    Tracks input inTemplate anyKind (inner ++ outer) waiting outer waiting
      (Parser.skipOut start outer.length fuel) := by
  induction fuel generalizing inner with
  | zero => exact fun _ _ _ _ => trivial
  | succ fuel inductionHypothesis =>
      intro state _ opens waits
      rw [Parser.skipOut_succ]
      split
      next deeper =>
        have nested : inner ≠ [] := by
          rintro rfl
          simp [ParserTrack.depth, opens] at deeper
        split
        · exact fun _ => rfl
        · refine (inductionHypothesis _ (Parser.behind input state) trivial
            (Parser.behind_delimiters opens fun _ => nested) ?_).since
              fun _ => ParserTrack.follow_template? _ _
          rwa [Parser.behind, ParserTrack.follow_specifiers]
      next reached =>
        have atLevel : inner = [] := by
          simpa [ParserTrack.depth, opens] using reached
        exact ⟨by simp [opens, atLevel], waits, fun _ => rfl⟩

/-- The number of delimiters open is read where it is known which ones are. -/
private theorem atDepth
    {next : Nat → Parser Value}
    (rest : Tracks input inTemplate known opened waiting left settled
      (next opened.length)) :
    Tracks input inTemplate known opened waiting left settled
      (Parser.depth >>= next) := by
  intro state isKnown opens waits
  have ended := rest state isKnown opens waits
  rwa [← opens] at ended

theorem captureTo (terminators : List TokenKind) :
    Tracks input inTemplate known opened waiting opened waiting
      (Parser.captureTo terminators) :=
  aside (fun _ => ⟨_, _, rfl, rfl, rfl⟩) fun _ => atDepth <|
    aside (fun _ => ⟨_, _, rfl, rfl, rfl⟩) fun _ =>
      bind (skipTo terminators [] opened _).forget fun _ => idle fun _ =>
        ⟨_, _, rfl, rfl, rfl⟩

private theorem captureBraces :
    Tracks input inTemplate known opened waiting opened waiting
      Parser.captureBraces :=
  aside (fun _ => ⟨_, _, rfl, rfl, rfl⟩) fun _ =>
    aside (fun _ => ⟨_, _, rfl, rfl, rfl⟩) fun _ =>
    atDepth <| bind (expect (Delimiter.follow_opener opened .brace)) fun _ =>
      aside (fun _ => ⟨_, _, rfl, rfl, rfl⟩) fun _ =>
        bind (skipOut _ [.brace] opened _) fun _ => idle fun _ =>
          ⟨_, _, rfl, rfl, rfl⟩

/-- A body is captured with its braces, or parsed. -/
theorem bracedBody
    {body : Parser StmtId}
    (tracks : Tracks input inTemplate known opened waiting opened waiting
      body) :
    Tracks input inTemplate known opened waiting opened waiting
      (Parser.bracedBody body) :=
  aside (fun _ => ⟨_, _, rfl, rfl, rfl⟩) fun _ => ite
    (bind captureBraces fun _ => aside (fun _ => ⟨_, _, rfl, rfl, rfl⟩) fun _ =>
      idle fun _ => ⟨_, _, rfl, rfl, rfl⟩)
    tracks

end Tracks

end Tern
