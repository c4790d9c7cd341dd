import Tern.Token.Window

namespace Tern

/-!
# Windows onto ranges

A window onto a range reads like the window onto a list of the same tokens and
no others, but for the positions, which are those of the whole list. Both are
windows in which the same tokens stand in other places, and whatever is done in
the one can be done in the other one, step by step and with the same answers.
-/

/-- What can be done at a position in a window. -/
inductive ReadStep where
  | advance
  | peek (distance : Nat)
  | check (kind : TokenKind)
  | checkIdentifier
  | current
  | atEnd
  | rangeFrom (start : Nat)
  | setPosition (position : Nat)
deriving DecidableEq

/-- What is learned from a step. -/
inductive ReadAnswer where
  | token (token : Token)
  | kind (kind : TokenKind)
  | truth (holds : Bool)
  | range (range : TokenRange)
  | moved
deriving DecidableEq

/-- A step of which all positions lie further behind. -/
def ReadStep.shift (offset : Nat) : ReadStep → ReadStep
  | .rangeFrom start => .rangeFrom (offset + start)
  | .setPosition position => .setPosition (offset + position)
  | step => step

/-- An answer of which all positions lie further behind. -/
def ReadAnswer.shift (offset : Nat) : ReadAnswer → ReadAnswer
  | .range read =>
      .range { start := offset + read.start, stop := offset + read.stop }
  | answer => answer

namespace Window

/-- Do a step at a position: what is learned, and the position behind it. -/
def perform (window : Window) (position : Nat) : ReadStep → ReadAnswer × Nat
  | .advance => (.token (window.tokenAt position), window.next position)
  | .peek distance => (.kind (window.ahead position distance), position)
  | .check kind => (.truth (window.kindAt position = kind), position)
  | .checkIdentifier => (.truth (window.kindAt position).isIdentifier, position)
  | .current => (.token (window.tokenAt position), position)
  | .atEnd => (.truth (window.atEnd position), position)
  | .rangeFrom start => (.range { start := start, stop := position }, position)
  | .setPosition place => (.moved, place)

/--
Do steps one after the other: what is learned, and the position behind them.
-/
def performAll (window : Window) (position : Nat) :
    List ReadStep → List ReadAnswer × Nat
  | [] => ([], position)
  | step :: rest =>
      let (answer, position) := window.perform position step
      let (answers, position) := window.performAll position rest
      (answer :: answers, position)

/-- The tokens that are read by advancing until the end. -/
def readOut (window : Window) (position : Nat) : List Token :=
  if window.atEnd position then []
  else window.tokenAt position :: window.readOut (window.next position)
termination_by window.remaining position
decreasing_by
  next going =>
    have inside : position < window.stop := by simpa [atEnd] using going
    simp only [remaining, next, inside, ↓reduceIte]
    omega

/--
Reading out a window whose tokens are all there gives its tokens, each of them
once.
-/
private theorem readOut_eq
    {window : Window}
    (listed : window.stop ≤ window.tokens.size)
    (position : Nat) :
    window.readOut position =
      (window.tokens.extract position window.stop).toList := by
  fun_induction readOut window position with
  | case1 position ended =>
      have past : window.stop ≤ position := by simpa [atEnd] using ended
      rw [Array.extract_empty_of_stop_le_start past]
  | case2 position going inductionHypothesis =>
      have inside : position < window.stop := by simpa [atEnd] using going
      have found : position < window.tokens.size :=
        Nat.lt_of_lt_of_le inside listed
      have further : window.next position = position + 1 := by
        simp [next, inside]
      have token : window.tokenAt position = window.tokens[position] := by
        simp [tokenAt, inside, found]
      have left : window.stop - position = window.stop - (position + 1) +
          1 := by omega
      have first : window.tokens.toList.drop position =
          window.tokens[position] :: window.tokens.toList.drop (position + 1) :=
        List.drop_eq_getElem_cons found
      rw [inductionHypothesis, further, token, Array.toList_extract,
        Array.toList_extract, List.extract, List.extract, left, first,
        List.take_succ_cons]

/--
Two windows with the same tokens, which stand further behind in the first one.
-/
structure Shows (window other : Window) (offset : Nat) : Prop where
  stop : window.stop = offset + other.stop
  final : window.final = other.final
  tokens : ∀ position < other.stop, window.tokens[offset + position]? =
    other.tokens[position]?

namespace Shows

variable {window other : Window} {offset : Nat}

private theorem tokenAt_eq (same : window.Shows other offset) (position : Nat) :
    window.tokenAt (offset + position) = other.tokenAt position := by
  by_cases inside : position < other.stop
  · have shifted : offset + position < window.stop :=
      same.stop ▸ Nat.add_lt_add_left inside offset
    simp only [tokenAt, shifted, inside, ↓reduceIte,
      Array.getD_eq_getD_getElem?, same.tokens position inside, same.final]
  · have shifted : ¬ offset + position < window.stop := by
      rw [same.stop]
      exact fun before => inside (Nat.lt_of_add_lt_add_left before)
    simp only [tokenAt, shifted, inside, ↓reduceIte, same.final]

private theorem kindAt_eq (same : window.Shows other offset) (position : Nat) :
    window.kindAt (offset + position) = other.kindAt position :=
  congrArg Token.kind (same.tokenAt_eq position)

private theorem atEnd_eq (same : window.Shows other offset) (position : Nat) :
    window.atEnd (offset + position) = other.atEnd position := by
  simp only [atEnd, same.stop, Nat.add_le_add_iff_left]

private theorem next_eq (same : window.Shows other offset) (position : Nat) :
    window.next (offset + position) = offset + other.next position := by
  simp only [next, same.stop, Nat.add_lt_add_iff_left]
  split <;> rfl

private theorem ahead_eq
    (same : window.Shows other offset)
    (position distance : Nat) :
    window.ahead (offset + position) distance =
      other.ahead position distance := by
  simp only [ahead, same.stop, Nat.add_assoc, Nat.add_lt_add_iff_left,
    same.kindAt_eq]

/-- A step comes to the same in both windows, but for the positions. -/
private theorem perform_shift
    (same : window.Shows other offset)
    (position : Nat)
    (step : ReadStep) :
    window.perform (offset + position) (step.shift offset) =
      ((other.perform position step).1.shift offset, offset +
        (other.perform position step).2) := by
  cases step with
  | advance => simp only [perform, ReadStep.shift, ReadAnswer.shift,
      same.tokenAt_eq, same.next_eq]
  | peek distance =>
      simp only [perform, ReadStep.shift, ReadAnswer.shift, same.ahead_eq]
  | check kind =>
      simp only [perform, ReadStep.shift, ReadAnswer.shift, same.kindAt_eq]
  | checkIdentifier =>
      simp only [perform, ReadStep.shift, ReadAnswer.shift, same.kindAt_eq]
  | current =>
      simp only [perform, ReadStep.shift, ReadAnswer.shift, same.tokenAt_eq]
  | atEnd =>
      simp only [perform, ReadStep.shift, ReadAnswer.shift, same.atEnd_eq]
  | rangeFrom start => rfl
  | setPosition place => rfl

/--
Steps one after the other come to the same in both windows, but for the
positions.
-/
private theorem performAll_shift
    (same : window.Shows other offset)
    (position : Nat)
    (steps : List ReadStep) :
    window.performAll (offset + position) (steps.map (.shift offset)) =
      ((other.performAll position steps).1.map (.shift offset),
        offset + (other.performAll position steps).2) := by
  induction steps generalizing position with
  | nil => rfl
  | cons step rest inductionHypothesis =>
      simp only [List.map_cons, performAll, same.perform_shift,
        inductionHypothesis]

end Shows

end Window

/-- The last token of a range. -/
private theorem Tokens.back?_extract
    {tokens : Tokens}
    {range : TokenRange}
    (nonempty : range.start < range.stop)
    (inside : range.stop ≤ tokens.size) :
    (tokens.extract range.start range.stop).back? =
      tokens[range.stop - 1]? := by
  have within : range.stop - range.start - 1 < range.stop - range.start := by
    omega
  have last : range.start + (range.stop - range.start - 1) =
      range.stop - 1 := by omega
  rw [Array.back?_eq_getElem?, Array.getElem?_extract, Array.size_extract,
    Nat.min_eq_left inside, if_pos within, last]

/--
A list that does not end with the end of input is shown to its last token.
-/
private theorem Window.whole_of_back?
    {tokens : Tokens}
    {last : Token}
    (ends : tokens.back? = some last)
    (real : last.kind ≠ .endOfInput) :
    whole tokens =
      { tokens := tokens, start := 0, stop := tokens.size,
        final := { kind := .endOfInput, span := .point last.span.stop } } := by
  simp [whole, ends, real]

/--
A range in a list is shown up to its end, with the end of input behind its last
token.
-/
private theorem Window.ofRange_of_back?
    {tokens : Tokens}
    {range : TokenRange}
    {last : Token}
    (nonempty : range.start < range.stop)
    (inside : range.stop ≤ tokens.size)
    (ends : (tokens.extract range.start range.stop).back? = some last) :
    ofRange tokens range =
      { tokens := tokens, start := range.start, stop := range.stop,
        final := { kind := .endOfInput, span := .point last.span.stop } } := by
  have order := Nat.le_of_lt nonempty
  have offset : offsetAfter tokens range = last.span.stop := by
    rw [offsetAfter, Tokens.slice, if_pos ⟨order, inside⟩,
      Array.getLast?_toList, ends]
  rw [ofRange, offset, Nat.min_eq_left inside, Nat.max_eq_left order]

namespace Tokens

/--
How a window onto a range reads, the tokens of the range being a list of their
own.
-/
structure ReadsAlone (tokens : Tokens) (range : TokenRange) : Prop where
  /--
  All steps come to the same as with the tokens of the range alone, but for
  the positions.
  -/
  alike : ∀ steps : List ReadStep,
    (Window.ofRange tokens range).performAll range.start
      (steps.map (.shift range.start)) =
      (((Window.whole (tokens.extract range.start range.stop)).performAll 0
        steps).1.map
          (.shift range.start),
        range.start +
          ((Window.whole (tokens.extract range.start range.stop)).performAll 0
            steps).2)
  /-- Both end with the end of input behind the last token of the range. -/
  ending : (Window.ofRange tokens range).final =
      (Window.whole (tokens.extract range.start range.stop)).final ∧
    ∃ last, tokens[range.stop - 1]? = some last ∧
      (Window.ofRange tokens range).final =
        { kind := .endOfInput, span := .point last.span.stop }
  /-- What stands outside the range plays no part. -/
  confined : ∀ other : Tokens,
    other.extract range.start range.stop =
      tokens.extract range.start range.stop →
      ∀ steps : List ReadStep,
        (Window.ofRange other range).performAll range.start
          (steps.map (.shift range.start)) =
          (Window.ofRange tokens range).performAll range.start
            (steps.map (.shift range.start))
  /--
  Advancing until the end reads the tokens of the range, each of them once.
  -/
  complete : (Window.ofRange tokens range).readOut range.start =
    (tokens.extract range.start range.stop).toList

variable {tokens : Tokens} {range : TokenRange}

/--
The window onto a range shows the tokens of the range, behind what comes before
it.
-/
private theorem shows_ofRange
    (nonempty : range.start < range.stop)
    (inside : range.stop ≤ tokens.size)
    (real : ∀ token ∈ tokens.extract range.start range.stop, token.kind ≠
      .endOfInput) :
    (Window.ofRange tokens range).Shows
      (.whole (tokens.extract range.start range.stop))
      range.start := by
  have found : range.stop - 1 < tokens.size := by omega
  have ends :=
    (back?_extract nonempty inside).trans (Array.getElem?_eq_getElem found)
  have listed := Array.mem_of_back? ends
  rw [Window.ofRange_of_back? nonempty inside ends,
    Window.whole_of_back? ends (real _ listed)]
  have size : (tokens.extract range.start range.stop).size =
      range.stop - range.start := by
    rw [Array.size_extract, Nat.min_eq_left inside]
  exact {
    stop := by rw [size, Nat.add_sub_cancel' (Nat.le_of_lt nonempty)]
    final := rfl
    tokens := fun position before => by
      rw [Array.getElem?_extract, Nat.min_eq_left inside,
        if_pos (size ▸ before)] }

end Tokens

/--
A window onto a range of some tokens, none of which is the end of the input,
reads like the window onto a list of just these tokens.
-/
theorem ranges_read_alone
    {tokens : Tokens}
    {range : TokenRange}
    (nonempty : range.start < range.stop)
    (inside : range.stop ≤ tokens.size)
    (real : ∀ token ∈ tokens.extract range.start range.stop, token.kind ≠
      .endOfInput) :
    tokens.ReadsAlone range := by
  have found : range.stop - 1 < tokens.size := by omega
  have ends :=
    (Tokens.back?_extract nonempty inside).trans
      (Array.getElem?_eq_getElem found)
  have restricted := Window.ofRange_of_back? nonempty inside ends
  have same := Tokens.shows_ofRange nonempty inside real
  refine {
    alike := same.performAll_shift 0
    ending :=
      ⟨same.final, _, Array.getElem?_eq_getElem found,
        congrArg Window.final restricted⟩
    confined := ?confined
    complete := ?complete }
  case confined =>
    intro other agrees steps
    have size := congrArg Array.size agrees
    rw [Array.size_extract, Array.size_extract, Nat.min_eq_left inside] at size
    have otherInside : range.stop ≤ other.size := by omega
    have otherSame := Tokens.shows_ofRange nonempty otherInside (agrees ▸ real)
    rw [agrees] at otherSame
    exact (otherSame.performAll_shift 0 steps).trans
      (same.performAll_shift 0 steps).symm
  case complete =>
    have listed : (Window.ofRange tokens range).stop ≤
        (Window.ofRange tokens range).tokens.size :=
      restricted ▸ inside
    rw [Window.readOut_eq listed, restricted]

/-- A declaration of which the type and the semicolon behind it are captured. -/
def declaredInteger : Tokens :=
  #[{ kind := .keyword .varWord, span := { start := 0, stop := 3 } },
    { kind := .keyword .intWord, span := { start := 4, stop := 7 } },
    { kind := .symbol .semicolon, span := { start := 8, stop := 9 } },
    { kind := .keyword .varWord, span := { start := 10, stop := 13 } },
    { kind := .endOfInput, span := { start := 13, stop := 13 } }]

/--
Two tokens within others: looking and reading past them finds the end of the
input, and going back finds the first of them again.
-/
theorem ranges_read_alone_declaredInteger :
    let range : TokenRange := { start := 1, stop := 3 }
    (range.start < range.stop ∧ range.stop ≤ declaredInteger.size ∧
        ∀ token ∈ declaredInteger.extract range.start range.stop, token.kind ≠
          .endOfInput) ∧
      declaredInteger.ReadsAlone range ∧
      (Window.ofRange declaredInteger range).performAll 1
          [.advance, .peek 1, .advance, .advance, .rangeFrom 1, .setPosition 1,
            .current] =
        ([.token { kind := .keyword .intWord,
                   span := { start := 4, stop := 7 } },
          .kind .endOfInput,
          .token { kind := .symbol .semicolon,
                   span := { start := 8, stop := 9 } },
          .token { kind := .endOfInput, span := { start := 9, stop := 9 } },
          .range { start := 1, stop := 3 },
          .moved,
          .token { kind := .keyword .intWord,
                   span := { start := 4, stop := 7 } }], 1) := by
  intro range
  have real : ∀ token ∈ declaredInteger.extract range.start range.stop,
      token.kind ≠ .endOfInput := by
    decide
  have alone :=
    @ranges_read_alone declaredInteger range (by decide) (by decide) real
  have read := alone.alike
    [.advance, .peek 1, .advance, .advance, .rangeFrom 0, .setPosition 0,
      .current]
  exact ⟨⟨by decide, by decide, real⟩, alone, read⟩

end Tern
