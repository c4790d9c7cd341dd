import Mathlib.Tactic.Abel
import Tern.Proofs.Building.Distinction
import Tern.Proofs.Grammar.Atomicity

namespace Tern

/-!
# What parsers build

A parser takes the pieces that it needs and gives others back. What else is at
hand stays there, and what a parser leaves lying about is of no further use. The
parameters and the constraint of the template context are at hand as long as the
context is in force.
-/

/-- The worksite that a state is, with pieces at hand. -/
def ParserState.site (state : ParserState) (stock : Stock) : Worksite :=
  { arena := state.arena, table := state.scopes.table,
    saved := state.scopes.saved, stock := stock }

/-- The pieces that a template context is. -/
def TemplateContext.pieces (context : TemplateContext) : Stock :=
  Piece.terms (context.parms.map Term.decl ++
    context.constraint?.toList.map Term.expr)

/--
The pieces that the template context in force is, if it is grounded in pieces at
all.
-/
def ParserTrack.pieces (track : ParserTrack) (grounded : Bool) : Stock :=
  match grounded, track.template? with
  | true, some context => context.pieces
  | _, _ => 0

/-- Following a token keeps the template context. -/
@[simp]
theorem ParserTrack.pieces_follow
    (track : ParserTrack)
    (kind : TokenKind)
    (grounded : Bool) :
    (track.follow kind).pieces grounded = track.pieces grounded := by
  simp only [pieces, follow_template?]

/-- Where order is kept, tokens are read as the order says. -/
structure Order.Reads (order : Order) (input : ParserInput) : Prop where
  closed : input.window.Closed
  starts : order.kept → ∀ place, place < input.window.stop →
    (input.window.tokenAt place).span.start = order.startOf place
  behind : order.kept → ∀ place, place < input.window.stop →
    (input.window.spanBefore (place + 1)).start = order.startOf place
  rising : order.kept → ∀ place later, place < later →
    later < input.window.stop →
    order.startOf place < order.startOf later
  eager : order.kept → (order.eager ↔ input.mode = .eager)

/-- A parser is in a scope, and has come to a position or past it. -/
structure ParserState.At
    (state : ParserState)
    (input : ParserInput)
    (scope : ScopeId)
    (start : Nat) : Prop where
  current : state.scopes.current = scope
  wellFormed : state.scopes.WellFormed
  onward : start ≤ state.position
  inside : state.position ≤ input.window.stop

/-- What a parser that is done or has failed has built. -/
def Outcome.Builds
    {Value : Type}
    (order : Order)
    (input : ParserInput)
    (scope : ScopeId)
    (grounded : Bool) (frame : Stock) (start : ParserState) (stock : Stock)
    (post : Nat → Value → Stock → Prop) :
      Outcome ParseError ParserState Value → Prop
  | .done value after =>
      after.At input scope start.position ∧
        ∃ out more, post after.position value out ∧
          BuildSteps order (start.site stock)
            (after.site (out + after.track.pieces grounded + more + frame))
  | .failed _ after =>
      after.scopes.current = scope ∧ after.scopes.WellFormed ∧
        ∃ more, BuildSteps order (start.site stock) (after.site (more + frame))
  | .exhausted => True

/--
From a position on, a parser in a scope takes some pieces and gives others,
whatever else is at hand. Some pieces only have to be there.
-/
def Builds
    {Value : Type}
    (order : Order)
    (input : ParserInput)
    (scope : ScopeId)
    (facts : List Piece) (pre : Stock) (start : Nat) (parser : Parser Value)
    (post : Nat → Value → Stock → Prop) : Prop :=
  ∀ (state : ParserState) (grounded : Bool) (frame : Stock),
    state.At input scope start → (∀ fact ∈ facts, fact ∈ frame) →
    (state.site (pre + state.track.pieces grounded + frame)).Sound →
      (parser input state).Builds order input scope grounded frame state
        (pre + state.track.pieces grounded + frame) post

/-- Nothing is given. -/
def nothing {Value : Type} (_ : Nat) (_ : Value) (out : Stock) : Prop :=
  out = 0

/-- The term that a value is known by is given. -/
def gives
    {Value : Type}
    (term : Value → Term)
    (_ : Nat)
    (value : Value)
    (out : Stock) :
    Prop :=
  out = {.term (term value)}

/-- The terms that some values are known by are given. -/
def givesAll
    {Value : Type}
    (term : Value → Term)
    (_ : Nat)
    (values : List Value)
    (out : Stock) :
    Prop :=
  out = Piece.terms (values.map term)

namespace Piece

@[simp]
theorem terms_nil : terms [] = 0 :=
  rfl

@[simp]
theorem terms_cons (term : Term) (rest : List Term) :
    terms (term :: rest) = {Piece.term term} + terms rest :=
  rfl

@[simp]
theorem terms_append (first second : List Term) :
    terms (first ++ second) = terms first + terms second := by
  simp [terms]

end Piece

namespace Builds

variable {Value First : Type} {order : Order} {input : ParserInput}
  {scope : ScopeId}
  {facts : List Piece} {pre : Stock} {start : Nat}
    {post : Nat → Value → Stock → Prop}
  {before : Nat → First → Stock → Prop}

/-- Of what a parser gives some pieces may be left lying about. -/
theorem discard
    {parser : Parser Value}
    {less : Nat → Value → Stock → Prop}
    (builds : Builds order input scope facts pre start parser post)
    (implied : ∀ later value out, start ≤ later → post later value out →
      ∃ used unused, out = used + unused ∧ less later value used) :
    Builds order input scope facts pre start parser less := by
  intro state grounded frame stands known sound
  have ended := builds state grounded frame stands known sound
  cases ending : parser input state with
  | done value after =>
      rw [ending] at ended
      obtain ⟨atAfter, out, more, given, steps⟩ := ended
      obtain ⟨used, unused, rfl, enough⟩ :=
        implied _ _ _ (Nat.le_trans stands.onward atAfter.onward) given
      refine ⟨atAfter, used, unused + more, enough, ?_⟩
      have regroup : used + unused + after.track.pieces grounded + more +
          frame =
          used + after.track.pieces grounded + (unused + more) + frame := by
            abel
      rwa [regroup] at steps
  | failed error after =>
      rw [ending] at ended
      exact ended
  | exhausted => trivial

theorem weaken
    {parser : Parser Value}
    {less : Nat → Value → Stock → Prop}
    (builds : Builds order input scope facts pre start parser post)
    (implied : ∀ later value out, start ≤ later → post later value out →
      less later value out) :
    Builds order input scope facts pre start parser less :=
  builds.discard fun later value out onward given =>
    ⟨out, 0, (add_zero out).symm, implied later value out onward given⟩

/-- What a parser builds from a position on it builds from later ones on. -/
theorem later
    {parser : Parser Value}
    (builds : Builds order input scope facts pre start parser post)
    {later : Nat}
    (onward : start ≤ later) :
    Builds order input scope facts pre later parser post :=
  fun state grounded frame stands => builds state grounded frame
    { stands with onward := Nat.le_trans onward stands.onward }

theorem pure
    {value : Value}
    (given : ∀ later, start ≤ later → post later value pre) :
    Builds order input scope facts pre start (Pure.pure value) post := by
  intro state grounded frame stands known sound
  refine ⟨{ stands with onward := Nat.le_refl _ }, pre, 0,
    given _ stands.onward, ?_⟩
  rw [add_zero]

/-- A value is given with some of the pieces at hand. -/
theorem pureSome
    {value : Value}
    {used : Stock}
    (unused : Stock)
    (split : pre = used + unused)
    (given : ∀ later, start ≤ later → post later value used) :
    Builds order input scope facts pre start (Pure.pure value) post :=
  have whole : Builds order input scope facts pre start (Pure.pure value)
      fun later same out => start ≤ later ∧ same = value ∧ out = pre :=
    pure fun _ onward => ⟨onward, rfl, rfl⟩
  whole.discard fun _ _ _ _ same => by
    obtain ⟨onward, rfl, rfl⟩ := same
    exact ⟨used, unused, split, given _ onward⟩

theorem fail (error : ParseError) :
    Builds order input scope facts pre start (Action.fail error) post :=
  fun _ _ _ stands _ _ => ⟨stands.current, stands.wellFormed, _, .refl⟩

theorem failAt (cause : ParseCause) (span : Span) :
    Builds order input scope facts pre start (Parser.failAt cause span) post :=
  fail _

/--
A sequence: the first part takes what it needs, and the rest goes on with what
it gives.
-/
theorem bind
    {parser : Parser First}
    {next : First → Parser Value}
    {need kept : Stock}
    (split : pre = need + kept)
    (first : Builds order input scope facts need start parser before)
    (rest : ∀ value later out, start ≤ later → before later value out →
      Builds order input scope facts (out + kept) later (next value) post) :
    Builds order input scope facts pre start (parser >>= next) post := by
  subst split
  intro state grounded frame stands known sound
  have regroup : need + kept + state.track.pieces grounded + frame =
      need + state.track.pieces grounded + (kept + frame) := by abel
  rw [regroup] at sound ⊢
  have started := first state grounded (kept + frame) stands
    (fun fact listed => Multiset.mem_add.mpr (.inr (known fact listed))) sound
  simp only [Bind.bind, Action.bind]
  cases ending : parser input state with
  | done value middle =>
      rw [ending] at started
      obtain ⟨atMiddle, out, more, given, steps⟩ := started
      have regroupMiddle : out + middle.track.pieces grounded + more +
          (kept + frame) =
          out + kept + middle.track.pieces grounded + (more + frame) := by abel
      rw [regroupMiddle] at steps
      have ended :=
        rest value middle.position out
          (Nat.le_trans stands.onward atMiddle.onward) given
        middle grounded (more + frame) { atMiddle with onward := Nat.le_refl _ }
        (fun fact listed => Multiset.mem_add.mpr (.inr (known fact listed)))
          (steps.sound sound).2
      dsimp only
      cases finish : next value input middle with
      | done result after =>
          rw [finish] at ended
          obtain ⟨atAfter, outAfter, moreAfter, givenAfter, stepsAfter⟩ := ended
          refine ⟨{ atAfter with
            onward := Nat.le_trans atMiddle.onward atAfter.onward }, outAfter,
            moreAfter + more, givenAfter, steps.trans ?_⟩
          simpa only [add_assoc] using stepsAfter
      | failed error after =>
          rw [finish] at ended
          obtain ⟨current, wellFormed, moreAfter, stepsAfter⟩ := ended
          refine ⟨current, wellFormed, moreAfter + more, steps.trans ?_⟩
          simpa only [add_assoc] using stepsAfter
      | exhausted => trivial
  | failed error middle =>
      rw [ending] at started
      obtain ⟨current, wellFormed, more, steps⟩ := started
      refine ⟨current, wellFormed, more + kept, ?_⟩
      simpa only [add_assoc] using steps
  | exhausted => trivial

/-- The first part leaves some of the pieces at hand as they are. -/
theorem leaving
    {parser : Parser First}
    {next : First → Parser Value}
    {need : Stock}
    (kept : Stock)
    (split : pre = need + kept)
    (first : Builds order input scope facts need start parser before)
    (rest : ∀ value later out, start ≤ later → before later value out →
      Builds order input scope facts (out + kept) later (next value) post) :
    Builds order input scope facts pre start (parser >>= next) post :=
  bind split first rest

/-- The first part needs nothing that is at hand. -/
theorem call
    {parser : Parser First}
    {next : First → Parser Value}
    (first : Builds order input scope facts 0 start parser before)
    (rest : ∀ value later out, start ≤ later → before later value out →
      Builds order input scope facts (out + pre) later (next value) post) :
    Builds order input scope facts pre start (parser >>= next) post :=
  bind (zero_add pre).symm first rest

/--
Behind a part that needs and gives nothing, the rest begins as if it were not
there.
-/
theorem next
    {parser : Parser First}
    {next : First → Parser Value}
    (first : Builds order input scope facts 0 start parser nothing)
    (rest : ∀ value, Builds order input scope facts pre start (next value)
      post) :
    Builds order input scope facts pre start (parser >>= next) post := by
  refine call first fun value later out onward given => ?_
  obtain rfl : out = 0 := given
  rw [zero_add]
  exact (rest value).later onward

theorem ite {condition : Prop} [Decidable condition] {yes no : Parser Value}
    (buildsYes : condition → Builds order input scope facts pre start yes post)
    (buildsNo : ¬ condition →
      Builds order input scope facts pre start no post) :
    Builds order input scope facts pre start (if condition then yes else no)
      post := by
  split
  next holds => exact buildsYes holds
  next fails => exact buildsNo fails

/-- Pieces may be set aside; some of them may be needed to be there. -/
private theorem shelve
    {parser : Parser Value}
    {unused : Stock}
    {more : List Piece}
    (aside : ∀ fact ∈ more, fact ∈ facts ∨ fact ∈ unused)
    (builds : Builds order input scope more pre start parser post) :
    Builds order input scope facts (unused + pre) start parser post := by
  intro state grounded frame stands known sound
  have regroup : unused + pre + state.track.pieces grounded + frame =
      pre + state.track.pieces grounded + (unused + frame) := by abel
  rw [regroup] at sound ⊢
  have ended := builds state grounded (unused + frame) stands
    (fun fact listed =>
      Multiset.mem_add.mpr ((aside fact listed).symm.imp id (known fact))) sound
  cases ending : parser input state with
  | done value after =>
      rw [ending] at ended
      obtain ⟨atAfter, out, left, given, steps⟩ := ended
      refine ⟨atAfter, out, left + unused, given, ?_⟩
      simpa only [add_assoc] using steps
  | failed error after =>
      rw [ending] at ended
      obtain ⟨current, wellFormed, left, steps⟩ := ended
      refine ⟨current, wellFormed, left + unused, ?_⟩
      simpa only [add_assoc] using steps
  | exhausted => trivial

/--
A piece that is no longer to be changed is put with those that only have to be
there.
-/
theorem keep
    {parser : Parser Value}
    {piece : Piece}
    (builds : Builds order input scope (piece :: facts) pre start parser post) :
    Builds order input scope facts ({piece} + pre) start parser post :=
  shelve (fun _ listed =>
    (List.mem_cons.mp listed).symm.imp id Multiset.mem_singleton.mpr) builds

/-- Notes that were taken are put with the pieces that only have to be there. -/
theorem keepAll
    {parser : Parser Value}
    {notes : List Piece}
    (builds : Builds order input scope (notes ++ facts) pre start parser post) :
    Builds order input scope facts (↑notes + pre) start parser post :=
  shelve (fun _ listed =>
    (List.mem_append.mp listed).symm.imp id Multiset.mem_coe.mpr) builds

/-- Pieces may be left lying about. -/
theorem drop
    {parser : Parser Value}
    {unused : Stock}
    (builds : Builds order input scope facts pre start parser post) :
    Builds order input scope facts (unused + pre) start parser post :=
  shelve (fun _ => .inl) builds

/-- What a parser does not take is still there behind it. -/
theorem beside
    {parser : Parser Value}
    (kept : Stock)
    (builds : Builds order input scope facts pre start
        parser fun later value out =>
      post later value (out + kept)) :
    Builds order input scope facts (pre + kept) start parser post := by
  intro state grounded frame stands known sound
  have regroup : pre + kept + state.track.pieces grounded + frame =
      pre + state.track.pieces grounded + (kept + frame) := by abel
  rw [regroup] at sound ⊢
  have ended := builds state grounded (kept + frame) stands
    (fun fact listed => Multiset.mem_add.mpr (.inr (known fact listed))) sound
  cases ending : parser input state with
  | done value after =>
      rw [ending] at ended
      obtain ⟨atAfter, out, left, given, steps⟩ := ended
      refine ⟨atAfter, out + kept, left, given, ?_⟩
      have regroupAfter : out + after.track.pieces grounded + left +
          (kept + frame) =
          out + kept + after.track.pieces grounded + left + frame := by abel
      rwa [regroupAfter] at steps
  | failed error after =>
      rw [ending] at ended
      obtain ⟨current, wellFormed, left, steps⟩ := ended
      refine ⟨current, wellFormed, left + kept, ?_⟩
      simpa only [add_assoc] using steps
  | exhausted => trivial

/-- Steps of building that no parser takes may come first. -/
theorem first
    {parser : Parser Value}
    {changed : Stock}
    (steps : ∀ (state : ParserState) (rest : Stock),
      state.At input scope start →
      (∀ fact ∈ facts, fact ∈ rest) → (state.site (pre + rest)).Sound →
        BuildSteps order (state.site (pre + rest))
          (state.site (changed + rest)))
    (builds : Builds order input scope facts changed start parser post) :
    Builds order input scope facts pre start parser post := by
  intro state grounded frame stands known sound
  rw [add_assoc] at sound ⊢
  have before := steps state (state.track.pieces grounded + frame) stands
    (fun fact listed => Multiset.mem_add.mpr (.inr (known fact listed))) sound
  have ended := builds state grounded frame stands known
    (by rw [add_assoc]; exact (before.sound sound).2)
  rw [add_assoc] at ended
  cases ending : parser input state with
  | done value after =>
      rw [ending] at ended
      obtain ⟨atAfter, out, more, given, steps⟩ := ended
      exact ⟨atAfter, out, more, given, before.trans steps⟩
  | failed error after =>
      rw [ending] at ended
      obtain ⟨current, wellFormed, more, steps⟩ := ended
      exact ⟨current, wellFormed, more, before.trans steps⟩
  | exhausted => trivial

/--
A parser that is always done takes some steps, whatever else is at hand, and
keeps the template context.
-/
theorem of_done
    {parser : Parser Value}
    (runs : ∀ (state : ParserState) (rest : Stock), state.At input scope start →
      (∀ fact ∈ facts, fact ∈ rest) → (state.site (pre + rest)).Sound →
        ∃ value after out, parser input state = .done value after ∧
          after.At input scope state.position ∧
          (∀ grounded, after.track.pieces grounded =
            state.track.pieces grounded) ∧
          post after.position value out ∧
          BuildSteps order (state.site (pre + rest))
            (after.site (out + rest))) :
    Builds order input scope facts pre start parser post := by
  intro state grounded frame stands known sound
  rw [add_assoc] at sound ⊢
  obtain ⟨value, after, out, run, atAfter, same, given, steps⟩ :=
    runs state (state.track.pieces grounded + frame) stands
      (fun fact listed => Multiset.mem_add.mpr (.inr (known fact listed))) sound
  rw [run]
  refine ⟨atAfter, out, 0, given, ?_⟩
  rwa [same, add_zero, add_assoc]

/--
Of a parser that fails nothing is left, so the other one builds as if it came
first.
-/
theorem either
    {parser second : Parser Value}
    (composed : Composed [] parser)
    (builds : Builds order input scope facts pre start parser post)
    (buildsSecond : Builds order input scope facts pre start second post) :
    Builds order input scope facts pre start (Parser.either parser second)
      post := by
  intro state grounded frame stands known sound
  rw [composed.either_eq second input stands.wellFormed]
  have ended := builds state grounded frame stands known sound
  cases ending : parser input state with
  | done value after => rwa [ending] at ended
  | failed error after =>
      exact buildsSecond state grounded frame stands known sound
  | exhausted => trivial

end Builds

end Tern
