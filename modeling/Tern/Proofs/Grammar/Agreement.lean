import Tern.Proofs.Grammar.Alternatives
import Tern.Proofs.Grammar.Atomicity

namespace Tern

/-!
# Windows with the same tokens

A parse that ends before a position is the same on all windows that show the
same tokens before it: what stands there, or whether the window ends there,
plays no part. Only trials look further, and what they find there makes no
difference, since an alternative that gets that far ends no earlier than the one
tried before.
-/

/-- Two inputs that show the same tokens before a position. -/
structure ParserInput.Shares (input other : ParserInput) (bound : Nat) :
    Prop where
  closed : input.window.Closed
  otherClosed : other.window.Closed
  tokens : input.window.tokens = other.window.tokens
  names : input.names = other.names
  mode : input.mode = other.mode
  inside : bound ≤ input.window.stop
  otherInside : bound ≤ other.window.stop
  listed : bound ≤ input.window.tokens.size

namespace ParserInput.Shares

variable {input other : ParserInput} {bound position : Nat}

theorem symm (shares : input.Shares other bound) :
    other.Shares input bound where
  closed := shares.otherClosed
  otherClosed := shares.closed
  tokens := shares.tokens.symm
  names := shares.names.symm
  mode := shares.mode.symm
  inside := shares.otherInside
  otherInside := shares.inside
  listed := shares.tokens ▸ shares.listed

/-- Before the position both inputs show the same token. -/
theorem tokenAt_eq
    (shares : input.Shares other bound)
    (early : position < bound) :
    input.window.tokenAt position = other.window.tokenAt position := by
  have inside : position < input.window.stop :=
    Nat.lt_of_lt_of_le early shares.inside
  have otherInside : position < other.window.stop :=
    Nat.lt_of_lt_of_le early shares.otherInside
  have listed : position < input.window.tokens.size :=
    Nat.lt_of_lt_of_le early shares.listed
  have otherListed : position < other.window.tokens.size :=
    shares.tokens ▸ listed
  simp only [Window.tokenAt, inside, otherInside, ↓reduceIte, Array.getD,
    otherListed, ↓reduceDIte, Array.getInternal_eq_getElem, shares.tokens]

/-- Before the position the kind of the current token is the same. -/
theorem kindAt_eq
    (shares : input.Shares other bound)
    (early : position < bound) :
    input.window.kindAt position = other.window.kindAt position :=
  congrArg Token.kind (shares.tokenAt_eq early)

/-- Before the position reading a token leads to the same position. -/
private theorem next_eq
    (shares : input.Shares other bound)
    (early : position < bound) :
    input.window.next position = other.window.next position := by
  have inside : position < input.window.stop :=
    Nat.lt_of_lt_of_le early shares.inside
  have otherInside : position < other.window.stop :=
    Nat.lt_of_lt_of_le early shares.otherInside
  simp only [Window.next, inside, otherInside, ↓reduceIte]

/-- If the next token is before the position too, it is the same. -/
theorem ahead_eq
    (shares : input.Shares other bound)
    (early : position + 1 < bound) :
    input.window.ahead position 1 = other.window.ahead position 1 := by
  have inside : position + 1 < input.window.stop :=
    Nat.lt_of_lt_of_le early shares.inside
  have otherInside : position + 1 < other.window.stop :=
    Nat.lt_of_lt_of_le early shares.otherInside
  simp only [Window.ahead, inside, otherInside, ↓reduceIte,
    shares.kindAt_eq early]

/-- Before the position neither input is at its end. -/
theorem atEnd_eq
    (shares : input.Shares other bound)
    (early : position < bound) :
    input.window.atEnd position = other.window.atEnd position := by
  have inside : ¬ input.window.stop ≤ position :=
    Nat.not_le.mpr (Nat.lt_of_lt_of_le early shares.inside)
  have otherInside : ¬ other.window.stop ≤ position :=
    Nat.not_le.mpr (Nat.lt_of_lt_of_le early shares.otherInside)
  simp only [Window.atEnd, inside, otherInside]

end ParserInput.Shares

/--
Two states that differ at most in the delimiters that are open, and in the
template context unless it matters.
-/
structure ParserState.Alike (inTemplate : Bool) (state other : ParserState) :
    Prop where
  position : state.position = other.position
  scopes : state.scopes = other.scopes
  arena : state.arena = other.arena
  specifiers : state.track.specifiers = other.track.specifiers
  template? : inTemplate = true → state.track.template? = other.track.template?

namespace ParserState.Alike

variable {inTemplate : Bool} {state other : ParserState}
  {input otherInput : ParserInput}
  {bound : Nat}

theorem symm (alike : state.Alike inTemplate other) :
    other.Alike inTemplate state where
  position := alike.position.symm
  scopes := alike.scopes.symm
  arena := alike.arena.symm
  specifiers := alike.specifiers.symm
  template? := fun matters => (alike.template? matters).symm

/-- All but the delimiters and the template context are the same. -/
theorem exists_retracked (alike : state.Alike inTemplate other) :
    ∃ (delimiters : List Delimiter) (template? : Option TemplateContext),
      other =
          { state with track :=
            { state.track with delimiters := delimiters,
                               template? := template? } } ∧
        (inTemplate = true → state.track.template? = template?) := by
  obtain ⟨position, ⟨_, specifiers, _⟩, scopes, arena⟩ := state
  obtain ⟨otherPosition, ⟨delimiters, otherSpecifiers, template?⟩, otherScopes,
      otherArena⟩ := other
  obtain ⟨rfl, rfl, rfl, rfl, same⟩ := alike
  exact ⟨delimiters, template?, rfl, same⟩

/-- What surrounds a parser is the same, given the same tokens. -/
theorem surroundings_eq
    (alike : state.Alike inTemplate other)
    (shares : input.Shares otherInput bound) :
    state.surroundings input = other.surroundings otherInput := by
  simp only [ParserState.surroundings, shares.tokens, shares.names, shares.mode,
    alike.position, alike.scopes, alike.arena]

/-- Making the same scope current in both leaves them alike. -/
theorem enter
    (alike : state.Alike inTemplate other)
    (scope : ScopeId) :
    ParserState.Alike inTemplate
      { state with scopes := state.scopes.enter scope }
      { other with scopes := other.scopes.enter scope } :=
  { alike with scopes := congrArg (Scopes.enter · scope) alike.scopes }

/-- Following a token changes nothing but delimiters. -/
theorem behind
    (alike : state.Alike inTemplate other)
    (shares : input.Shares otherInput bound)
    (early : state.position < bound) :
    (Parser.behind input state).Alike inTemplate
      (Parser.behind otherInput other) where
  position := by
    simp only [Parser.behind, ← alike.position]
    exact shares.next_eq early
  scopes := alike.scopes
  arena := alike.arena
  specifiers := by
    simp only [Parser.behind, ParserTrack.follow_specifiers, alike.specifiers]
  template? := by
    intro matters
    simp only [Parser.behind, ParserTrack.follow_template?,
      alike.template? matters]

end ParserState.Alike

/--
What is done before a position is done by the other parser too, in a state that
is alike.
-/
def Outcome.Followed {Value : Type} (inTemplate : Bool) (bound : Nat)
    (outcome other : Outcome ParseError ParserState Value) : Prop :=
  ∀ ⦃value : Value⦄ ⦃after : ParserState⦄,
    outcome = .done value after → after.position < bound →
      ∃ otherAfter, other = .done value otherAfter ∧
        after.Alike inTemplate otherAfter

namespace Parser

variable {inTemplate : Bool} {input other : ParserInput} {bound : Nat}
  {state otherState : ParserState} {opened outer otherOuter : List Delimiter}

/-- Reading on to a terminator depends on what is opened on the way only. -/
private theorem skipTo_followed
    (shares : input.Shares other bound)
    (terminators : List TokenKind)
    {fuel otherFuel : Nat}
    (alike : state.Alike inTemplate otherState)
    (opens : state.track.delimiters = opened ++ outer)
    (otherOpens : otherState.track.delimiters = opened ++ otherOuter)
    (enough : input.window.remaining state.position < fuel)
    (otherEnough : other.window.remaining state.position < otherFuel) :
    Outcome.Followed inTemplate bound
      (skipTo terminators outer.length fuel input state)
      (skipTo terminators otherOuter.length otherFuel other otherState) := by
  induction fuel generalizing state otherState opened otherFuel with
  | zero =>
      omega
  | succ fuel inductionHypothesis =>
      intro value after run ends
      have onward :=
        skipTo_advances shares.closed terminators outer.length (fuel + 1) state
          enough
      rw [run] at onward
      have early : state.position < bound := Nat.lt_of_le_of_lt onward.1 ends
      obtain ⟨otherFuel, rfl⟩ : ∃ fewer, otherFuel = fewer + 1 :=
        ⟨otherFuel - 1, by omega⟩
      have level : state.track.depth = outer.length ↔ opened = [] := by
        simp [ParserTrack.depth, opens]
      have otherLevel : otherState.track.depth = otherOuter.length ↔
          opened = [] := by
        simp [ParserTrack.depth, otherOpens]
      rw [skipTo_succ] at run ⊢
      rw [← alike.position, ← shares.tokenAt_eq early]
      simp only [level, otherLevel] at run ⊢
      split at run
      next reached =>
        cases run
        rw [if_pos reached]
        exact ⟨otherState, rfl, alike⟩
      next further =>
        rw [if_neg further]
        split at run
        · cases run
        next real =>
          rw [if_neg real]
          split at run
          · cases run
          next nested =>
            rw [if_neg nested]
            have inside := shares.closed.lt_stop real
            have next := behind_position inside
            have otherInside : state.position < other.window.stop :=
              Nat.lt_of_lt_of_le early shares.otherInside
            have nestedIn :
                (input.window.kindAt state.position).closes?.isSome = true →
                opened ≠ [] :=
              fun closes atLevel => nested ⟨atLevel, closes⟩
            have opensBehind := behind_delimiters opens nestedIn
            rw [shares.kindAt_eq early] at nestedIn
            rw [alike.position] at nestedIn
            have otherOpensBehind := behind_delimiters otherOpens nestedIn
            rw [← alike.position, ← shares.kindAt_eq early] at otherOpensBehind
            refine inductionHypothesis (alike.behind shares early) opensBehind
              otherOpensBehind
              ?_ ?_ run ends
            · rw [next]
              simp only [Window.remaining] at enough ⊢
              omega
            · rw [next]
              simp only [Window.remaining] at otherEnough ⊢
              omega

/-- Reading on to a nesting level depends on what is opened on the way only. -/
private theorem skipOut_followed
    (shares : input.Shares other bound)
    (start otherStart : Span)
    {fuel otherFuel : Nat}
    (alike : state.Alike inTemplate otherState)
    (opens : state.track.delimiters = opened ++ outer)
    (otherOpens : otherState.track.delimiters = opened ++ otherOuter)
    (enough : input.window.remaining state.position < fuel)
    (otherEnough : other.window.remaining state.position < otherFuel) :
    Outcome.Followed inTemplate bound
      (skipOut start outer.length fuel input state)
      (skipOut otherStart otherOuter.length otherFuel other otherState) := by
  induction fuel generalizing state otherState opened otherFuel with
  | zero =>
      omega
  | succ fuel inductionHypothesis =>
      intro value after run ends
      have onward := skipOut_advances start outer.length (fuel + 1) state enough
      rw [run] at onward
      have early : state.position < bound := Nat.lt_of_le_of_lt onward.1 ends
      obtain ⟨otherFuel, rfl⟩ : ∃ fewer, otherFuel = fewer + 1 :=
        ⟨otherFuel - 1, by omega⟩
      have deeper : outer.length < state.track.depth ↔ opened ≠ [] := by
        simp [ParserTrack.depth, opens, List.length_pos_iff]
      have otherDeeper : otherOuter.length < otherState.track.depth ↔
          opened ≠ [] := by
        simp [ParserTrack.depth, otherOpens, List.length_pos_iff]
      rw [skipOut_succ] at run ⊢
      rw [← alike.position, ← shares.atEnd_eq early]
      simp only [deeper, otherDeeper] at run ⊢
      split at run
      next nested =>
        rw [if_pos nested]
        split at run
        · cases run
        next going =>
          rw [if_neg going]
          have inside : state.position < input.window.stop :=
            Nat.lt_of_lt_of_le early shares.inside
          have next := behind_position inside
          have nestedIn : (input.window.kindAt state.position).closes?.isSome =
              true →
              opened ≠ [] :=
            fun _ => nested
          have otherNestedIn :
              (other.window.kindAt otherState.position).closes?.isSome = true →
              opened ≠ [] :=
            fun _ => nested
          have opensBehind := behind_delimiters opens nestedIn
          have otherOpensBehind := behind_delimiters otherOpens otherNestedIn
          rw [← alike.position, ← shares.kindAt_eq early] at otherOpensBehind
          refine inductionHypothesis (alike.behind shares early) opensBehind
            otherOpensBehind
            ?_ ?_ run ends
          · rw [next]
            simp only [Window.remaining] at enough ⊢
            omega
          · rw [next]
            have otherInside : state.position < other.window.stop :=
              Nat.lt_of_lt_of_le early shares.otherInside
            simp only [Window.remaining] at otherEnough ⊢
            omega
      next reached =>
        cases run
        rw [if_neg reached]
        exact ⟨otherState, rfl, alike⟩

/--
A capture up to a terminator depends on the tokens up to the terminator only.
-/
theorem captureTo_followed
    (shares : input.Shares other bound)
    (terminators : List TokenKind)
    (alike : state.Alike inTemplate otherState) :
    Outcome.Followed inTemplate bound (captureTo terminators input state)
      (captureTo terminators other otherState) := by
  intro value after run ends
  have captured : (skipTo terminators state.track.depth
      (input.window.remaining state.position + 1) >>=
        fun _ => rangeFrom state.position) input state = .done value after :=
          run
  obtain ⟨_, middle, skipped, ranged⟩ := done_of_bind captured
  cases ranged
  have followed : Outcome.Followed inTemplate bound
      (skipTo terminators state.track.depth
        (input.window.remaining state.position + 1) input state)
      (skipTo terminators otherState.track.depth
        (other.window.remaining otherState.position + 1) other otherState) :=
    skipTo_followed shares terminators alike (List.nil_append _).symm
      (List.nil_append _).symm
      (Nat.lt_succ_self _) (by rw [alike.position]; exact Nat.lt_succ_self _)
  obtain ⟨otherAfter, otherRun, alikeAfter⟩ := followed skipped ends
  have otherCaptured : captureTo terminators other otherState =
      (skipTo terminators otherState.track.depth
        (other.window.remaining otherState.position + 1) >>=
          fun _ => rangeFrom otherState.position) other otherState := rfl
  refine ⟨otherAfter, ?_, alikeAfter⟩
  rw [otherCaptured, run_bind otherRun, alike.position, alikeAfter.position]
  rfl

/-- A capture of braces depends on the tokens up to its closer only. -/
theorem captureBraces_followed
    (shares : input.Shares other bound)
    (alike : state.Alike inTemplate otherState) :
    Outcome.Followed inTemplate bound (captureBraces input state)
      (captureBraces other otherState) := by
  intro value after run ends
  have captured :
      (expect (Delimiter.opener .brace) >>= fun _ => remaining >>= fun left =>
      skipOut (input.window.tokenAt state.position).span state.track.depth
        (left + 1) >>=
        fun _ => rangeFrom state.position) input state = .done value after :=
          run
  obtain ⟨_, opened, opens, rest⟩ := done_of_bind captured
  obtain ⟨opener, rfl⟩ := expect_done opens
  obtain ⟨left, _, counted, rest⟩ := done_of_bind rest
  cases counted
  obtain ⟨_, middle, skipped, ranged⟩ := done_of_bind rest
  cases ranged
  have inside := shares.closed.lt_stop (by rw [opener]; exact nofun)
  have onward :=
    skipOut_advances (input.window.tokenAt state.position).span
      state.track.depth
    (input.window.remaining (behind input state).position + 1)
      (behind input state)
    (Nat.lt_succ_self _)
  rw [skipped, behind_position inside] at onward
  have early : state.position < bound := by
    have order : state.position + 1 ≤ after.position := onward.1
    omega
  have otherOpener : other.window.kindAt otherState.position =
      Delimiter.opener .brace := by
    rw [← alike.position, ← shares.kindAt_eq early, opener]
  have alikeBehind := alike.behind shares early
  have opensBehind : (behind input state).track.delimiters =
      [.brace] ++ state.track.delimiters := by
    have follows : (behind input state).track.delimiters = _ :=
      ParserTrack.follow_delimiters state.track
        (input.window.kindAt state.position)
    rw [follows, opener]
    rfl
  have otherOpensBehind : (behind other otherState).track.delimiters =
      [.brace] ++ otherState.track.delimiters := by
    have follows : (behind other otherState).track.delimiters = _ :=
      ParserTrack.follow_delimiters otherState.track
        (other.window.kindAt otherState.position)
    rw [follows, otherOpener]
    rfl
  obtain ⟨otherAfter, otherRun, alikeAfter⟩ :=
    skipOut_followed shares (input.window.tokenAt state.position).span
      (other.window.tokenAt otherState.position).span alikeBehind opensBehind
        otherOpensBehind
      (Nat.lt_succ_self _) (Nat.lt_succ_self _) skipped ends
  rw [alikeBehind.position] at otherRun
  have otherSkipped : skipOut (other.window.tokenAt otherState.position).span
      otherState.track.depth
        (other.window.remaining (behind other otherState).position + 1) other
      (behind other otherState) = .done _ otherAfter := otherRun
  have otherCaptured : captureBraces other otherState =
      (expect (Delimiter.opener .brace) >>= fun _ => remaining >>= fun left =>
        skipOut (other.window.tokenAt otherState.position).span
          otherState.track.depth
          (left + 1) >>= fun _ => rangeFrom otherState.position) other
            otherState := rfl
  have otherLeft : remaining other (behind other otherState) =
      .done (other.window.remaining (behind other otherState).position)
        (behind other otherState) := rfl
  refine ⟨otherAfter, ?_, alikeAfter⟩
  rw [otherCaptured, run_bind (expect_run_of_eq otherOpener), run_bind
    otherLeft, run_bind otherSkipped, alike.position, alikeAfter.position]
  rfl

end Parser

end Tern
