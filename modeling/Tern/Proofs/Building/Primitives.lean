import Tern.Proofs.Building.Triple
import Tern.Proofs.Grammar.Runs

namespace Tern

/-!
# What the steps of parsers build

Observations and tokens read need no pieces and give none, but tell where in the
text they were made. Terms are added on top of the pieces of what they own.
-/

namespace Builds

variable {Value First : Type} {order : Order} {input : ParserInput}
  {scope : ScopeId}
  {facts : List Piece} {pre : Stock} {start : Nat}
    {post : Nat → Value → Stock → Prop}

/-- What is observed tells something of the present position. -/
theorem observeKnown
    (read : ParserInput → ParserState → Value)
    (fact : ∀ state : ParserState, state.At input scope start →
      post state.position (read input state) 0) :
    Builds order input scope facts 0 start
      (fun input state => .done (read input state) state)
      post :=
  of_done fun state _ stands _ _ =>
    ⟨_, state, 0, rfl, { stands with onward := Nat.le_refl _ },
    fun _ => rfl, fact state stands, .refl⟩

theorem observe (read : ParserInput → ParserState → Value) :
    Builds order input scope facts 0 start
      (fun input state => .done (read input state) state)
      nothing :=
  observeKnown read fun _ _ => rfl

/-- The position is the present one. -/
private theorem position :
    Builds order input scope facts 0 start
        Parser.position fun later value out =>
      value = later ∧ out = 0 :=
  observeKnown (fun _ state => state.position) fun _ _ => ⟨rfl, rfl⟩

theorem currentScope :
    Builds order input scope facts 0 start
        Parser.currentScope fun _ value out =>
      value = scope ∧ out = 0 :=
  observeKnown (fun _ state => state.scopes.current) fun _ stands =>
    ⟨stands.current, rfl⟩

/-- Where order is kept, the current token starts as the order says. -/
theorem currentSpan (reads : order.Reads input) :
    Builds order input scope facts 0 start
        Parser.currentSpan fun later value out =>
      (order.kept → later < input.window.stop → value.start =
        order.startOf later) ∧ out = 0 :=
  observeKnown (fun input state => (input.window.tokenAt state.position).span)
      fun state _ =>
    ⟨fun kept inside => reads.starts kept state.position inside, rfl⟩

/-- Where order is kept, what spans from an earlier token starts there. -/
theorem spanFrom
    (reads : order.Reads input)
    {span : Span}
    {place : Nat}
    (starts : order.kept → span.start = order.startOf place)
    (past : place < start) :
    Builds order input scope facts 0 start
        (Parser.spanFrom span) fun _ value out =>
      (order.kept → value.start = order.startOf place) ∧ out = 0 := by
  refine observeKnown
    (fun input state => span.merge (input.window.spanBefore state.position))
    fun state stands => ⟨fun kept => ?_, rfl⟩
  obtain ⟨last, same⟩ : ∃ last, state.position = last + 1 :=
    Nat.exists_eq_succ_of_ne_zero (by have := stands.onward; omega)
  have inside : last < input.window.stop := by
    have := stands.inside
    omega
  have onward : order.startOf place ≤ order.startOf last := by
    rcases Nat.lt_or_ge place last with less | beyond
    · exact Nat.le_of_lt (reads.rising kept place last less inside)
    · have := stands.onward
      rw [show place = last by omega]
  simp only [Span.merge, same, starts kept, reads.behind kept last inside]
  exact Nat.min_eq_left onward

/-- The worksite behind a token is the one before it. -/
private theorem site_behind
    (input : ParserInput)
    (state : ParserState)
    (stock : Stock) :
    (Parser.behind input state).site stock = state.site stock :=
  rfl

/--
Behind the current token a parser stands no further back, and within the window.
-/
private theorem at_behind
    {state : ParserState}
    (stands : state.At input scope start) :
    (Parser.behind input state).At input scope state.position where
  current := stands.current
  wellFormed := stands.wellFormed
  onward := by
    simp only [Parser.behind, Window.next]
    split <;> omega
  inside := by
    have := stands.inside
    simp only [Parser.behind, Window.next]
    split <;> omega

/-- A token is read. -/
theorem advance (reads : order.Reads input) :
    Builds order input scope facts 0 start Parser.advance fun later value out =>
      (value.kind ≠ .endOfInput → start < later ∧ start < input.window.stop) ∧
        out = 0 :=
  of_done fun state rest stands _ _ => by
    refine ⟨_, Parser.behind input state, 0, rfl, at_behind stands,
      fun grounded => ParserTrack.pieces_follow _ _ grounded,
        ⟨fun real => ?_, rfl⟩, .refl⟩
    have inside := reads.closed.lt_stop real
    have := stands.onward
    simp only [Parser.behind_position inside]
    omega

/-- The current token is read and forgotten. -/
theorem skip : Builds order input scope facts 0 start Parser.skip nothing :=
  of_done fun state _ stands _ _ =>
    ⟨_, Parser.behind input state, 0, rfl, at_behind stands,
      fun grounded => ParserTrack.pieces_follow _ _ grounded, rfl, .refl⟩

theorem eat (kind : TokenKind) :
    Builds order input scope facts 0 start (Parser.eat kind) nothing :=
  next (observe _) fun _ =>
    ite (fun _ => next skip fun _ => pure fun _ _ => rfl)
    fun _ => pure fun _ _ => rfl

/-- A token that has to be of a kind is read. -/
theorem expect
    (reads : order.Reads input)
    {kind : TokenKind}
    (real : kind ≠ .endOfInput) :
    Builds order input scope facts 0 start
        (Parser.expect kind) fun later _ out =>
      start < later ∧ start < input.window.stop ∧ out = 0 := by
  intro state grounded frame stands known sound
  by_cases found : input.window.kindAt state.position = kind
  · rw [Parser.expect_run_of_eq found]
    have inside : state.position < input.window.stop :=
      reads.closed.lt_stop (found ▸ real)
    have onward := stands.onward
    refine ⟨at_behind stands, 0, 0, ⟨?_, by omega, rfl⟩, ?_⟩
    · rw [Parser.behind_position inside]
      omega
    · simp only [add_zero, zero_add, site_behind]
      rw [show (Parser.behind input state).track.pieces grounded =
        state.track.pieces grounded from
        ParserTrack.pieces_follow _ _ _]
  · obtain ⟨failure, failed⟩ := Parser.expect_run_of_ne found
    rw [failed]
    exact ⟨stands.current, stands.wellFormed, _, .refl⟩

/-- An identifier is read. -/
theorem expectIdentifier (reads : order.Reads input) :
    Builds order input scope facts 0 start
        Parser.expectIdentifier fun later _ out =>
      start < later ∧ start < input.window.stop ∧ out = 0 := by
  intro state grounded frame stands known sound
  have token : Parser.current input state =
      .done (input.window.tokenAt state.position) state := rfl
  simp only [Parser.expectIdentifier, Bind.bind, Action.bind, token]
  cases same : (input.window.tokenAt state.position).kind with
  | identifier name =>
      have inside : state.position < input.window.stop :=
        reads.closed.lt_stop (by simp [Window.kindAt, same])
      have onward := stands.onward
      refine ⟨at_behind stands, 0, 0, ⟨?_, by omega, rfl⟩, ?_⟩
      · simp only [Window.next, inside, ↓reduceIte]
        omega
      · simp only [add_zero, zero_add, ParserTrack.pieces_follow]
        exact .refl
  | _ => exact ⟨stands.current, stands.wellFormed, _, .refl⟩

/-- A choice by whether a token is of a kind, which is read in that case. -/
theorem eaten
    {kind : TokenKind}
    {yes no : Parser Value}
    (buildsYes : Builds order input scope facts pre start yes post)
    (buildsNo : Builds order input scope facts pre start no post) :
    Builds order input scope facts pre start
      (Parser.eat kind >>= fun found => if found = true then yes else no)
        post :=
  next (eat _) fun _ => ite (fun _ => buildsYes) fun _ => buildsNo

/-- A choice by what the current token is. -/
theorem checked
    {kind : TokenKind}
    {yes no : Parser Value}
    (buildsYes : Builds order input scope facts pre start yes post)
    (buildsNo : Builds order input scope facts pre start no post) :
    Builds order input scope facts pre start
      (Parser.check kind >>= fun found => if found = true then yes else no)
        post :=
  next (observe _) fun _ => ite (fun _ => buildsYes) fun _ => buildsNo

/--
A token that has to be of a kind is read, and nothing more is to be known of it.
-/
theorem expectAny (kind : TokenKind) :
    Builds order input scope facts 0 start (Parser.expect kind) nothing := by
  refine next (observe _) fun token => ite (fun _ => skip) fun _ => ?_
  split
  · exact failAt _ _
  · exact failAt _ _

private theorem skipTo (terminators : List TokenKind) (level fuel : Nat) :
    Builds order input scope facts 0 start
      (Parser.skipTo terminators level fuel) nothing := by
  induction fuel with
  | zero => exact fun _ _ _ _ _ _ => trivial
  | succ fuel inductionHypothesis =>
      exact next (observe _) fun _ => next (observe _) fun _ =>
        ite (fun _ => pure fun _ _ => rfl) fun _ =>
          ite (fun _ => failAt _ _) fun _ =>
          ite (fun _ => failAt _ _) fun _ => next skip fun _ =>
            inductionHypothesis

private theorem skipOut (opened : Span) (level fuel : Nat) :
    Builds order input scope facts 0 start (Parser.skipOut opened level fuel)
      nothing := by
  induction fuel with
  | zero => exact fun _ _ _ _ _ _ => trivial
  | succ fuel inductionHypothesis =>
      exact next (observe _) fun _ => ite
        (fun _ => next (observe _) fun _ => ite (fun _ => failAt _ _) fun _ =>
          next skip fun _ => inductionHypothesis)
        fun _ => pure fun _ _ => rfl

theorem captureTo (terminators : List TokenKind) :
    Builds order input scope facts 0 start (Parser.captureTo terminators)
      nothing :=
  next (observe _) fun _ => next (observe _) fun _ => next (observe _) fun _ =>
    next (skipTo _ _ _) fun _ => observe _

/-- A range captured in braces begins no further back than it was asked for. -/
theorem captureBraces :
    Builds order input scope facts 0 start
        Parser.captureBraces fun _ range out =>
      start ≤ range.start ∧ out = 0 := by
  refine call position ?_
  rintro place later _ onward ⟨rfl, rfl⟩
  refine next (observe _) fun _ => next (observe _) fun _ =>
    next (expectAny _) fun _ =>
    next (observe _) fun _ => next (skipOut _ _ _) fun _ => ?_
  exact observeKnown
    (fun _ state => { start := place, stop := state.position : TokenRange })
    fun _ _ => ⟨onward, rfl⟩

end Builds

end Tern
