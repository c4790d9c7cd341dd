import Mathlib.Data.Nat.Find
import Tern.Proofs.Grammar.Delimiting

namespace Tern

/-!
# Where captures end

A capture is followed by the delimiters that the parser keeps track of, whether
they match or not: a closer that does not belong to the innermost delimiter is
gone over like any other token. Where a capture ends is said here of the tokens
alone, by the nesting levels at the positions from its start, and a capture is
done exactly if there is such a place. The delimiters that are open outside it
are never closed on the way.
-/

namespace Window

variable {window : Window} {terminators : List TokenKind} {track : ParserTrack}
  {level start stop position : Nat}

/-- What is kept track of at a position, from what it was at an earlier one. -/
def trackedTo
    (window : Window)
    (track : ParserTrack)
    (start position : Nat) :
    ParserTrack :=
  (List.range' start (position - start)).foldl
    (fun track place => track.follow (window.kindAt place)) track

/--
The nesting level at a position, from what was kept track of at an earlier one.
-/
def levelAt
    (window : Window)
    (track : ParserTrack)
    (start position : Nat) :
    Nat :=
  (window.trackedTo track start position).depth

@[simp]
theorem levelAt_self (window : Window) (track : ParserTrack) (start : Nat) :
    window.levelAt track start start = track.depth := by
  simp [levelAt, trackedTo]

/-- Behind the first token the level is reckoned from there. -/
private theorem levelAt_of_lt (further : start < position) :
    window.levelAt track start position =
      window.levelAt (track.follow (window.kindAt start)) (start + 1)
        position := by
  have left : position - start = position - (start + 1) + 1 := by omega
  rw [levelAt, trackedTo, left, List.range'_succ, List.foldl_cons]
  rfl

/--
The first place from a position on where a terminator stands at a nesting level.
No closer stands at this level before it, and up to it no end of the input,
which may stand there only if it is a terminator itself.
-/
structure EndsCapture
    (window : Window)
    (terminators : List TokenKind)
    (level : Nat)
    (track : ParserTrack) (start stop : Nat) : Prop where
  onward : start ≤ stop
  inside : stop < window.stop ∨ .endOfInput ∈ terminators
  atLevel : window.levelAt track start stop = level
  terminates : window.kindAt stop ∈ terminators
  real : ∀ position, start ≤ position → position ≤ stop →
    window.kindAt position = .endOfInput → position = stop ∧
      .endOfInput ∈ terminators
  first : ∀ position, start ≤ position → position < stop →
    window.levelAt track start position = level →
      window.kindAt position ∉ terminators ∧
        (window.kindAt position).closes? = none

namespace EndsCapture

/-- A terminator at the level is the first one from its own place on. -/
private theorem here
    (closed : window.Closed)
    (atLevel : track.depth = level)
    (terminates : window.kindAt start ∈ terminators) :
    window.EndsCapture terminators level track start start where
  onward := Nat.le_refl start
  inside := by
    by_cases ended : window.kindAt start = .endOfInput
    · exact .inr (ended ▸ terminates)
    · exact .inl (closed.lt_stop ended)
  atLevel := (window.levelAt_self track start).trans atLevel
  terminates := terminates
  real position behind before ended := by
    obtain rfl := Nat.le_antisymm before behind
    exact ⟨rfl, ended ▸ terminates⟩
  first position behind before := absurd before (Nat.not_lt.mpr behind)

/--
Before a place where a capture ends, a token at its level is no terminator and
no closer.
-/
private theorem further
    (real : window.kindAt start ≠ .endOfInput)
    (goesOn : track.depth = level →
      window.kindAt start ∉ terminators ∧ (window.kindAt start).closes? = none)
    (ends : window.EndsCapture terminators level
      (track.follow (window.kindAt start)) (start + 1)
      stop) :
    window.EndsCapture terminators level track start stop where
  onward := Nat.le_of_succ_le ends.onward
  inside := ends.inside
  atLevel := (levelAt_of_lt ends.onward).trans ends.atLevel
  terminates := ends.terminates
  real position behind before ended := by
    rcases Nat.eq_or_lt_of_le behind with rfl | behind
    · exact absurd ended real
    · exact ends.real position behind before ended
  first position behind before same := by
    rcases Nat.eq_or_lt_of_le behind with rfl | behind
    · exact goesOn ((window.levelAt_self track start).symm.trans same)
    · exact ends.first position behind before
        ((levelAt_of_lt behind).symm.trans same)

/-- A capture ends at its start, or behind a token that it goes over. -/
private theorem cases_start
    (ends : window.EndsCapture terminators level track start stop) :
    (stop = start ∧ track.depth = level ∧ window.kindAt start ∈ terminators) ∨
      (window.kindAt start ≠ .endOfInput ∧
        (track.depth = level →
          window.kindAt start ∉ terminators ∧ (window.kindAt start).closes? =
            none) ∧
        window.EndsCapture terminators level
          (track.follow (window.kindAt start)) (start + 1)
          stop) := by
  rcases Nat.eq_or_lt_of_le ends.onward with rfl | before
  · exact .inl ⟨rfl, (window.levelAt_self track start).symm.trans ends.atLevel,
      ends.terminates⟩
  refine .inr ⟨?_, ?_, ?_⟩
  · intro ended
    exact absurd (ends.real start (Nat.le_refl start) ends.onward ended).1
      (Nat.ne_of_lt before)
  · intro same
    exact ends.first start (Nat.le_refl start) before
      ((window.levelAt_self track start).trans same)
  · exact {
      onward := before
      inside := ends.inside
      atLevel := (levelAt_of_lt before).symm.trans ends.atLevel
      terminates := ends.terminates
      real :=
        fun position behind => ends.real position (Nat.le_of_succ_le behind)
      first := fun position behind isBefore same =>
        ends.first position (Nat.le_of_succ_le behind) isBefore
          ((levelAt_of_lt behind).trans same) }

/--
A capture goes over a token exactly if it ends where it does from behind the
token.
-/
private theorem further_iff
    (real : window.kindAt start ≠ .endOfInput)
    (goesOn : track.depth = level →
      window.kindAt start ∉ terminators ∧ (window.kindAt start).closes? =
        none) :
    window.EndsCapture terminators level (track.follow (window.kindAt start))
      (start + 1) stop ↔
      window.EndsCapture terminators level track start stop := by
  refine ⟨further real goesOn, fun ends => ?_⟩
  rcases ends.cases_start with ⟨-, atLevel, terminates⟩ | ⟨-, -, onward⟩
  · exact absurd terminates (goesOn atLevel).1
  · exact onward

end EndsCapture

/-- The first place behind a position where a nesting level is reached. -/
structure ReturnsTo
    (window : Window)
    (level : Nat)
    (track : ParserTrack)
    (start stop : Nat) :
    Prop where
  onward : start < stop
  inside : stop ≤ window.stop
  atLevel : window.levelAt track start stop = level
  first : ∀ position, start < position → position < stop →
    window.levelAt track start position ≠ level

namespace ReturnsTo

/-- The level may be reached behind the first token. -/
private theorem here
    (inside : start < window.stop)
    (reached : (track.follow (window.kindAt start)).depth = level) :
    window.ReturnsTo level track start (start + 1) where
  onward := Nat.lt_succ_self start
  inside := inside
  atLevel := by
    rw [levelAt_of_lt (Nat.lt_succ_self start), levelAt_self, reached]
  first position behind before := absurd before (Nat.not_lt.mpr behind)

/-- If it is not reached there, it is reached where it is from there on. -/
private theorem further
    (unreached : (track.follow (window.kindAt start)).depth ≠ level)
    (returns : window.ReturnsTo level (track.follow (window.kindAt start))
      (start + 1) stop) :
    window.ReturnsTo level track start stop where
  onward := Nat.lt_of_succ_lt returns.onward
  inside := returns.inside
  atLevel :=
    (levelAt_of_lt (Nat.lt_of_succ_lt returns.onward)).trans returns.atLevel
  first position behind before := by
    rw [levelAt_of_lt behind]
    rcases Nat.eq_or_lt_of_le behind with rfl | behind
    · rwa [levelAt_self]
    · exact returns.first position behind before

/-- A level is reached behind the first token, or from there on. -/
private theorem cases_start
    (returns : window.ReturnsTo level track start stop) :
    start < window.stop ∧
      ((stop = start + 1 ∧ (track.follow (window.kindAt start)).depth = level) ∨
        ((track.follow (window.kindAt start)).depth ≠ level ∧
          window.ReturnsTo level (track.follow (window.kindAt start))
            (start + 1) stop)) := by
  refine ⟨Nat.lt_of_lt_of_le returns.onward returns.inside, ?_⟩
  have atLevel := returns.atLevel
  rw [levelAt_of_lt returns.onward] at atLevel
  rcases Nat.eq_or_lt_of_le returns.onward with rfl | before
  · exact .inl ⟨rfl, (window.levelAt_self _ _).symm.trans atLevel⟩
  refine .inr ⟨?_, ?_⟩
  · have unreached := returns.first (start + 1) (Nat.lt_succ_self start) before
    rwa [levelAt_of_lt (Nat.lt_succ_self start), levelAt_self] at unreached
  · exact {
      onward := before
      inside := returns.inside
      atLevel := atLevel
      first := fun position behind isBefore => by
        rw [← levelAt_of_lt (Nat.lt_of_succ_lt behind)]
        exact returns.first position (Nat.lt_of_succ_lt behind) isBefore }

/--
What is not reached behind the first token is reached where it is from there on.
-/
private theorem further_iff
    (unreached : (track.follow (window.kindAt start)).depth ≠ level) :
    window.ReturnsTo level (track.follow (window.kindAt start)) (start + 1)
      stop ↔
      window.ReturnsTo level track start stop := by
  refine ⟨further unreached, fun returns => ?_⟩
  rcases returns.cases_start.2 with ⟨-, reached⟩ | ⟨-, onward⟩
  · exact absurd reached unreached
  · exact onward

/-- A level that is reached somewhere is reached somewhere first. -/
private theorem exists_of_levelAt
    (onward : start < position)
    (inside : position ≤ window.stop)
    (atLevel : window.levelAt track start position = level) :
    ∃ stop, window.ReturnsTo level track start stop := by
  have reached : ∃ stop, start < stop ∧ window.levelAt track start stop =
      level :=
    ⟨position, onward, atLevel⟩
  obtain ⟨behind, same⟩ := Nat.find_spec reached
  exact ⟨Nat.find reached, {
    onward := behind
    inside := Nat.le_trans (Nat.find_min' reached ⟨onward, atLevel⟩) inside
    atLevel := same
    first := fun place isBehind before isLevel =>
      Nat.find_min reached before ⟨isBehind, isLevel⟩ }⟩

end ReturnsTo

end Window

/-- A token that closes a delimiter is its closer. -/
private theorem TokenKind.eq_closer
    {kind : TokenKind}
    {delimiter : Delimiter}
    (closes : kind.closes? = some delimiter) :
    kind = delimiter.closer := by
  unfold closes? at closes
  split at closes
  · cases closes
    rfl
  · cases closes

/--
While a delimiter is open, a token leaves it open and all that is outside it, or
is its closer and nothing but what is outside is left.
-/
private theorem Delimiter.follow_enclosed
    (inner : List Delimiter)
    (delimiter : Delimiter)
    (outer : List Delimiter)
    (kind : TokenKind) :
    (∃ further, follow (inner ++ delimiter :: outer) kind =
      further ++ delimiter :: outer) ∨
      kind = delimiter.closer ∧ follow (inner ++ delimiter :: outer) kind =
        outer := by
  unfold follow
  cases opens : kind.opens? with
  | some opened => exact .inl ⟨opened :: inner, rfl⟩
  | none =>
      cases closes : kind.closes? with
      | none => exact .inl ⟨inner, rfl⟩
      | some closed =>
          dsimp only
          split
          next own =>
            cases inner with
            | nil =>
                obtain rfl := Option.some.inj own
                exact .inr ⟨TokenKind.eq_closer closes, rfl⟩
            | cons innermost inner => exact .inl ⟨inner, rfl⟩
          next => exact .inl ⟨inner, rfl⟩

namespace Parser

variable {input : ParserInput} {state after : ParserState}
  {terminators : List TokenKind}
  {opened inner outer : List Delimiter} {fuel : Nat}

/--
Reading on to a terminator is done exactly if there is a place where a capture
ends.
-/
private theorem skipTo_done_iff
    (closed : input.window.Closed)
    (opens : state.track.delimiters = opened ++ outer)
    (enough : input.window.remaining state.position < fuel) :
    skipTo terminators outer.length fuel input state = .done () after ↔
      ∃ stop, input.window.EndsCapture terminators outer.length state.track
        state.position stop ∧
        after = state.landed stop outer := by
  induction fuel generalizing state opened with
  | zero => omega
  | succ fuel inductionHypothesis =>
      have level : state.track.depth = outer.length ↔ opened = [] := by
        simp [ParserTrack.depth, opens]
      rw [skipTo_succ]
      dsimp only
      split
      next reached =>
        obtain rfl := level.mp reached.1
        have stays : state.landed state.position outer = state := by
          rw [← List.nil_append outer, ← opens]
          rfl
        constructor
        · intro run
          cases run
          exact ⟨_, .here closed reached.1 reached.2, stays.symm⟩
        · rintro ⟨stop, ends, rfl⟩
          rcases ends.cases_start with ⟨rfl, -, -⟩ | ⟨-, goesOn, -⟩
          · rw [stays]
          · exact absurd reached.2 (goesOn reached.1).1
      next unreached =>
        split
        next ended =>
          constructor
          · intro run
            cases run
          · rintro ⟨stop, ends, -⟩
            rcases ends.cases_start with ⟨-, atLevel, terminates⟩ | ⟨real, -, -⟩
            · exact absurd ⟨atLevel, terminates⟩ unreached
            · exact absurd ended real
        next real =>
          split
          next closes =>
            constructor
            · intro run
              cases run
            · rintro ⟨stop, ends, -⟩
              rcases ends.cases_start with ⟨-, atLevel, terminates⟩ |
                  ⟨-, goesOn, -⟩
              · exact absurd ⟨atLevel, terminates⟩ unreached
              · exact absurd (goesOn closes.1).2
                  (Option.isSome_iff_ne_none.mp closes.2)
          next nested =>
            have inside : state.position < input.window.stop :=
              closed.lt_stop real
            have goesOn (atLevel : state.track.depth = outer.length) :
                input.window.kindAt state.position ∉ terminators ∧
                  (input.window.kindAt state.position).closes? = none :=
              ⟨fun terminates => unreached ⟨atLevel, terminates⟩,
                Option.not_isSome_iff_eq_none.mp fun closes =>
                  nested ⟨atLevel, closes⟩⟩
            have opensBehind := behind_delimiters opens fun closes atLevel =>
              nested ⟨level.mpr atLevel, closes⟩
            have fewer : input.window.remaining (behind input state).position <
                fuel := by
              rw [behind_position inside]
              simp only [Window.remaining] at enough ⊢
              omega
            rw [inductionHypothesis opensBehind fewer, behind_position inside]
            simp only [behind_landed]
            exact exists_congr fun stop => and_congr_left fun _ =>
              Window.EndsCapture.further_iff real goesOn

/--
A capture is done exactly if there is a place where it ends, and stops at that
place.
-/
private theorem captureTo_done_iff
    (closed : input.window.Closed)
    {range : TokenRange} :
    captureTo terminators input state = .done range after ↔
      ∃ stop, input.window.EndsCapture terminators state.track.depth state.track
        state.position
          stop ∧
        range = { start := state.position, stop := stop } ∧
        after = { state with position := stop } := by
  have captures : captureTo terminators input state =
      (skipTo terminators state.track.depth
        (input.window.remaining state.position + 1) >>=
        fun _ => rangeFrom state.position) input state := rfl
  have skips (after : ParserState) :
      skipTo terminators state.track.depth
        (input.window.remaining state.position + 1) input state =
        .done () after ↔
      ∃ stop, input.window.EndsCapture terminators state.track.depth state.track
        state.position
          stop ∧
        after = { state with position := stop } :=
    skipTo_done_iff closed (List.nil_append _).symm (Nat.lt_succ_self _)
  rw [captures]
  constructor
  · intro run
    obtain ⟨_, middle, skipped, ranged⟩ := done_of_bind run
    obtain ⟨stop, ends, rfl⟩ := (skips middle).mp skipped
    cases ranged
    exact ⟨stop, ends, rfl, rfl⟩
  · rintro ⟨stop, ends, rfl, rfl⟩
    rw [run_bind ((skips _).mpr ⟨stop, ends, rfl⟩)]
    rfl

/--
Reading on from within braces is done exactly if there is a place where they are
closed.
-/
private theorem skipOut_done_iff
    (span : Span)
    (opens : state.track.delimiters = inner ++ .brace :: outer)
    (enough : input.window.remaining state.position < fuel) :
    skipOut span outer.length fuel input state = .done () after ↔
      ∃ stop, input.window.ReturnsTo outer.length state.track state.position
        stop ∧
        after = state.landed stop outer := by
  induction fuel generalizing state inner with
  | zero => omega
  | succ fuel inductionHypothesis =>
      have deeper : outer.length < state.track.depth := by
        rw [ParserTrack.depth, opens, List.length_append, List.length_cons]
        omega
      rw [skipOut_succ, if_pos deeper]
      split
      next ended =>
        constructor
        · intro run
          cases run
        · rintro ⟨stop, returns, -⟩
          have past : input.window.stop ≤ state.position := by
            simpa [Window.atEnd] using ended
          exact absurd returns.cases_start.1 (Nat.not_lt.mpr past)
      next going =>
        have inside : state.position < input.window.stop := by
          simpa [Window.atEnd] using going
        have fewer : input.window.remaining (behind input state).position <
            fuel := by
          rw [behind_position inside]
          simp only [Window.remaining] at enough ⊢
          omega
        have follows : (behind input state).track.delimiters = _ :=
          ParserTrack.follow_delimiters state.track
            (input.window.kindAt state.position)
        rw [opens] at follows
        rcases Delimiter.follow_enclosed inner .brace outer
          (input.window.kindAt state.position)
          with ⟨further, enclosed⟩ | ⟨-, left⟩
        · rw [enclosed] at follows
          have unreached : (behind input state).track.depth ≠ outer.length := by
            rw [ParserTrack.depth, follows, List.length_append,
              List.length_cons]
            omega
          rw [inductionHypothesis follows fewer, behind_position inside]
          simp only [behind_landed]
          exact exists_congr fun stop => and_congr_left fun _ =>
            Window.ReturnsTo.further_iff unreached
        · rw [left] at follows
          have reached : (behind input state).track.depth = outer.length :=
            congrArg List.length follows
          have stops : behind input state =
              state.landed (state.position + 1) outer := by
            rw [← behind_landed, ← follows, ← behind_position inside]
            rfl
          obtain ⟨more, rfl⟩ :=
            Nat.exists_eq_succ_of_ne_zero (Nat.ne_zero_of_lt fewer)
          rw [skipOut_succ, if_neg (Nat.not_lt.mpr (Nat.le_of_eq reached))]
          constructor
          · intro run
            cases run
            exact ⟨_, .here inside reached, stops⟩
          · rintro ⟨stop, returns, rfl⟩
            rcases returns.cases_start.2 with ⟨rfl, -⟩ | ⟨unreached, -⟩
            · rw [stops]
            · exact absurd reached unreached

/-- An opening brace opens a delimiter, so that its level is left. -/
private theorem follow_brace
    {kind : TokenKind}
    (opens : kind = Delimiter.opener .brace)
    (track : ParserTrack) :
    (track.follow kind).delimiters = [] ++ .brace :: track.delimiters ∧
      (track.follow kind).depth ≠ track.depth := by
  subst opens
  exact ⟨rfl, Nat.succ_ne_self _⟩

/--
Braces are captured exactly if they are opened and there is a place where they
are closed.
-/
private theorem captureBraces_done_iff
    (closed : input.window.Closed)
    {range : TokenRange} :
    captureBraces input state = .done range after ↔
      ∃ stop, input.window.kindAt state.position = Delimiter.opener .brace ∧
        input.window.ReturnsTo state.track.depth state.track state.position
          stop ∧
        range = { start := state.position, stop := stop } ∧
        after = { state with position := stop } := by
  have captures : captureBraces input state =
      (expect (Delimiter.opener .brace) >>= fun _ => remaining >>= fun left =>
        skipOut (input.window.tokenAt state.position).span state.track.depth
          (left + 1) >>=
          fun _ => rangeFrom state.position) input state := rfl
  have skips (opens : input.window.kindAt state.position =
      Delimiter.opener .brace)
      (after : ParserState) :
      skipOut (input.window.tokenAt state.position).span state.track.depth
          (input.window.remaining (behind input state).position + 1) input
            (behind input state) =
        .done () after ↔
      ∃ stop, input.window.ReturnsTo state.track.depth state.track
        state.position stop ∧
        after = { state with position := stop } := by
    obtain ⟨enclosed, unreached⟩ := follow_brace opens state.track
    have inside : state.position < input.window.stop :=
      closed.lt_stop (by rw [opens]; nofun)
    refine (skipOut_done_iff _ enclosed (Nat.lt_succ_self _)).trans ?_
    rw [behind_position inside]
    simp only [behind_landed]
    exact exists_congr fun stop => and_congr_left fun _ =>
      Window.ReturnsTo.further_iff unreached
  rw [captures]
  constructor
  · intro run
    obtain ⟨_, _, expected, rest⟩ := done_of_bind run
    obtain ⟨opens, rfl⟩ := expect_done expected
    obtain ⟨left, _, counted, rest⟩ := done_of_bind rest
    cases counted
    obtain ⟨_, middle, skipped, ranged⟩ := done_of_bind rest
    obtain ⟨stop, returns, rfl⟩ := (skips opens middle).mp skipped
    cases ranged
    exact ⟨stop, opens, returns, rfl, rfl⟩
  · rintro ⟨stop, opens, returns, rfl, rfl⟩
    have left : remaining input (behind input state) =
        .done (input.window.remaining (behind input state).position)
          (behind input state) := rfl
    rw [run_bind (expect_run_of_eq opens), run_bind left,
      run_bind ((skips opens _).mpr ⟨stop, returns, rfl⟩)]
    rfl

end Parser

/--
Where braces are closed that a position is within, a closing brace stands before
it.
-/
private theorem Window.ReturnsTo.closer
    {window : Window}
    {track : ParserTrack}
    {start stop : Nat}
    {inner outer : List Delimiter}
    (opens : track.delimiters = inner ++ .brace :: outer)
    (returns : window.ReturnsTo outer.length track start stop) :
    window.kindAt (stop - 1) = Delimiter.closer .brace := by
  induction left : stop - start generalizing track start inner with
  | zero => exact absurd returns.onward (Nat.not_lt.mpr
      (Nat.sub_eq_zero_iff_le.mp left))
  | succ left inductionHypothesis =>
      have follows : (track.follow (window.kindAt start)).delimiters = _ :=
        ParserTrack.follow_delimiters track (window.kindAt start)
      rw [opens] at follows
      rcases Delimiter.follow_enclosed inner .brace outer (window.kindAt start)
        with ⟨further, enclosed⟩ | ⟨closer, closed⟩
      · rw [enclosed] at follows
        rcases returns.cases_start.2 with ⟨-, reached⟩ | ⟨-, onward⟩
        · rw [ParserTrack.depth, follows, List.length_append, List.length_cons]
            at reached
          omega
        · exact inductionHypothesis follows onward (by omega)
      · rw [closed] at follows
        rcases returns.cases_start.2 with ⟨rfl, -⟩ | ⟨unreached, -⟩
        · exact closer
        · exact absurd (congrArg List.length follows) unreached

/--
What captures come to from a state, said of the tokens and of nesting levels
alone.
-/
structure Parser.CapturesExactly (input : ParserInput) (state : ParserState) :
    Prop where
  /--
  A capture is done exactly if there is a place where it ends, and goes to
  that place.
  -/
  upTo : ∀ (terminators : List TokenKind) (range : TokenRange) (after :
    ParserState),
    captureTo terminators input state = .done range after ↔
      ∃ stop, input.window.EndsCapture terminators state.track.depth state.track
        state.position
          stop ∧
        range = { start := state.position, stop := stop } ∧
        after = { state with position := stop }
  /--
  Braces are captured exactly if they are opened and their level is left
  again.
  -/
  braced : (∃ range after, captureBraces input state = .done range after) ↔
    input.window.kindAt state.position = Delimiter.opener .brace ∧
      ∃ position, state.position < position ∧ position ≤ input.window.stop ∧
        input.window.levelAt state.track state.position position =
          state.track.depth
  /--
  Their capture goes behind the closing brace with which the level is first
  left.
  -/
  closed : ∀ (range : TokenRange) (after : ParserState),
    captureBraces input state = .done range after →
      input.window.ReturnsTo state.track.depth state.track state.position
        range.stop ∧
        input.window.kindAt (range.stop - 1) = Delimiter.closer .brace ∧
        range.start = state.position ∧ after =
          { state with position := range.stop }
  /-- Where a capture is not done it fails. -/
  settled : (∀ terminators, captureTo terminators input state ≠ .exhausted) ∧
    captureBraces input state ≠ .exhausted

/--
In any window onto any token list, from any state and up to any terminators,
captures end exactly where the nesting levels say, and leave all open delimiters
as they were.
-/
theorem captures_exact
    {tokens : Tokens}
    {window : Window}
    (onto : window.Onto tokens)
    (names : Names)
    (mode : ParseMode)
    (state : ParserState) :
    Parser.CapturesExactly { window := window, names := names, mode := mode }
      state := by
  have braces (range : TokenRange) (after : ParserState) :=
    @Parser.captureBraces_done_iff
      { window := window, names := names, mode := mode } state after
      onto.closed range
  refine {
    upTo := fun terminators range after => Parser.captureTo_done_iff onto.closed
    braced := ⟨?captured, ?closes⟩
    closed := ?closed
    settled := ⟨?upToSettled, ?bracesSettled⟩ }
  case captured =>
    rintro ⟨range, after, run⟩
    obtain ⟨stop, opens, returns, -, -⟩ := (braces range after).mp run
    exact ⟨opens, stop, returns.onward, returns.inside, returns.atLevel⟩
  case closes =>
    rintro ⟨opens, position, behind, inside, atLevel⟩
    obtain ⟨stop, returns⟩ :=
      Window.ReturnsTo.exists_of_levelAt behind inside atLevel
    exact ⟨_, _, (braces _ _).mpr ⟨stop, opens, returns, rfl, rfl⟩⟩
  case closed =>
    intro range after run
    obtain ⟨stop, opens, returns, rfl, rfl⟩ := (braces range after).mp run
    obtain ⟨enclosed, unreached⟩ := Parser.follow_brace opens state.track
    have onward := (Window.ReturnsTo.further_iff unreached).mpr returns
    exact ⟨returns, onward.closer enclosed, rfl, rfl⟩
  case upToSettled =>
    intro terminators run
    have advances :=
      @Parser.captureTo_advances
        { window := window, names := names, mode := mode }
      onto.closed terminators state
    rw [run] at advances
    exact advances
  case bracesSettled =>
    intro run
    have advances := @Parser.captureBraces_advances
      { window := window, names := names, mode := mode } onto.closed state
    rw [run] at advances
    exact advances

/--
Parentheses and braces, with a closer in each of them that belongs to neither.
-/
def mismatchedClosers : Tokens :=
  #[{ kind := .symbol (.opening .paren), span := { start := 0, stop := 1 } },
    { kind := .symbol (.closing .bracket), span := { start := 1, stop := 2 } },
    { kind := .symbol .semicolon, span := { start := 2, stop := 3 } },
    { kind := .symbol (.closing .paren), span := { start := 3, stop := 4 } },
    { kind := .symbol (.opening .brace), span := { start := 4, stop := 5 } },
    { kind := .symbol (.closing .paren), span := { start := 5, stop := 6 } },
    { kind := .symbol (.closing .brace), span := { start := 6, stop := 7 } },
    { kind := .symbol .semicolon, span := { start := 7, stop := 8 } }]

/--
Inside a brace the capture goes on to the second semicolon, at the level where
it began, and the braces before it are captured by themselves.
-/
theorem captures_exact_mismatchedClosers :
    (Window.whole mismatchedClosers).Onto mismatchedClosers ∧
      Parser.captureTo [.symbol .semicolon]
          { window := .whole mismatchedClosers, names := ⟨[]⟩,
            mode := .deferred }
          (insideBraceAt 0) =
        .done { start := 0, stop := 7 } (insideBraceAt 7) ∧
      (Window.whole mismatchedClosers).EndsCapture [.symbol .semicolon] 1
        (insideBraceAt 0).track
        0 7 ∧
      Parser.captureBraces
          { window := .whole mismatchedClosers, names := ⟨[]⟩,
            mode := .deferred }
          (insideBraceAt 4) =
        .done { start := 4, stop := 7 } (insideBraceAt 7) ∧
      (Window.whole mismatchedClosers).ReturnsTo 1 (insideBraceAt 4).track 4
        7 := by
  have exactly := @captures_exact mismatchedClosers _ .whole ⟨[]⟩ .deferred
  have captured : Parser.captureTo [.symbol .semicolon]
      { window := .whole mismatchedClosers, names := ⟨[]⟩, mode := .deferred }
        (insideBraceAt 0) =
        .done { start := 0, stop := 7 } (insideBraceAt 7) := rfl
  have braced : Parser.captureBraces
      { window := .whole mismatchedClosers, names := ⟨[]⟩, mode := .deferred }
        (insideBraceAt 4) =
        .done { start := 4, stop := 7 } (insideBraceAt 7) := rfl
  obtain ⟨stop, ends, ranged, -⟩ :=
    ((exactly (insideBraceAt 0)).upTo _ _ _).mp captured
  obtain rfl : stop = 7 := (congrArg TokenRange.stop ranged).symm
  exact ⟨.whole, captured, ends, braced,
    ((exactly (insideBraceAt 4)).closed _ _ braced).1⟩

end Tern
