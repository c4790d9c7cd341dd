import Tern.Proofs.Grammar.Endings

namespace Tern

/-!
# Captured fragments parse alike

A type, an initializer or a body that has been parsed in its place is parsed
alike from a window that ends behind it: with the same value, and leaving the
same scopes and the same arena.
-/

section

variable {depth bound : Nat} {input other : ParserInput}
  {state otherState : ParserState}

/--
Within a bound the nonterminals ended by any token are parsed alike where a
window ends.
-/
def Rules.Ended
    (depth : Nat)
    (input other : ParserInput)
    (bound : Nat) :
    Prop :=
  ∀ {Value : Type} (nonterminal : Nonterminal Value) (inTemplate : Bool)
    {state otherState : ParserState},
      nonterminal.endedByAny = true →
      Beginning inTemplate (nonterminal.rank + 1) depth input other state
        otherState →
      Outcome.Followed inTemplate (bound + 1)
        ((nested depth).parse nonterminal input state)
        ((nested depth).parse nonterminal other otherState)

/--
A production ended by any token is followed up to the end of the other window.
-/
private theorem Ending.followed
    {place : Place}
    {Value : Type}
    {parser : Rules → Parser Value}
    (ending : Ending place parser)
    (settled : place.settled = true)
    (shares : input.Shares other bound)
    (last : other.window.stop = bound)
    (ended : Rules.Ended depth input other bound)
    (begins : Beginning place.inTemplate place.rank depth input other state
      otherState)
    (unread : place.unread → input.window.kindAt state.position ≠ .endOfInput) :
    Outcome.Followed place.inTemplate (bound + 1)
      (parser (Rules.nested depth) input state)
      (parser (Rules.nested depth) other otherState) := by
  have calls := Rules.nested_followed shares depth
  have otherCalls := Rules.nested_followed shares.symm depth
  induction ending generalizing state otherState with
  | pure value =>
      intro value after run ends
      cases run
      exact ⟨otherState, rfl, begins.alike⟩
  | fail _ =>
      intro value after run ends
      cases run
  | @bind place _ _ before parser
      next first production rest firstFollowed restFollowed =>
      intro value after run ends
      obtain ⟨found, middle, started, onward⟩ := Parser.done_of_bind run
      obtain ⟨order, inside, progress⟩ :=
        production.advances_of_done shares.closed begins.adequate unread started
      have adequateBehind :
          input.window.Suffices depth middle.position
            (place.after (before found)).rank := by
        cases read : before found with
        | true => exact begins.adequate.advance (progress read) inside
        | false => exact begins.adequate.stay order
      have further :=
        (rest found).production.advances_of_done shares.closed adequateBehind
          (by simp) onward
      have early : middle.position < bound + 1 :=
        Nat.lt_of_le_of_lt further.1 ends
      obtain ⟨otherMiddle, otherStarted, alike⟩ :=
        firstFollowed settled begins unread started early
      have wellFormed := production.wellFormed_of_done begins.wellFormed started
      have begun :=
        begins.after shares alike wellFormed (Nat.le_of_lt_succ early) order
          progress
      obtain ⟨otherAfter, otherOnward, alikeAfter⟩ :=
        restFollowed found (by simpa using settled) begun (by simp) onward ends
      exact ⟨otherAfter, (Parser.run_bind otherStarted).trans otherOnward,
        by simpa using alikeAfter⟩
  | @lastly place _ _ before parser next first rest reads restFollowed =>
      intro value after run ends
      obtain ⟨found, middle, started, onward⟩ := Parser.done_of_bind run
      obtain ⟨order, inside, progress⟩ :=
        first.advances_of_done shares.closed begins.adequate unread started
      have adequateBehind :
          input.window.Suffices depth middle.position
            (place.after (before found)).rank := by
        cases read : before found with
        | true => exact begins.adequate.advance (progress read) inside
        | false => exact begins.adequate.stay order
      have further :=
        (reads found).advances_of_done shares.closed adequateBehind (by simp)
          onward
      have early : middle.position < bound :=
        Nat.lt_of_lt_of_le (further.2.2 rfl) (Nat.le_of_lt_succ ends)
      obtain ⟨otherMiddle, otherStarted, alike⟩ :=
        first.followed settled shares calls otherCalls begins unread
          started early
      have wellFormed := first.wellFormed_of_done begins.wellFormed started
      have begun :=
        begins.after shares alike wellFormed (Nat.le_of_lt early) order progress
      obtain ⟨otherAfter, otherOnward, alikeAfter⟩ :=
        restFollowed found (by simpa using settled) begun (by simp) onward ends
      exact ⟨otherAfter, (Parser.run_bind otherStarted).trans otherOnward,
        by simpa using alikeAfter⟩
  | peek _ reads restFollowed =>
      intro value after run ends
      have advances :=
        reads.advances_of_done shares.closed begins.adequate unread run
      have early : state.position < bound :=
        Nat.lt_of_lt_of_le (advances.2.2 rfl) (Nat.le_of_lt_succ ends)
      have same := shares.tokenAt_eq early
      have followed :=
        restFollowed (input.window.tokenAt state.position) settled begins id
          run ends
      rw [same, begins.alike.position] at followed
      exact followed
  | @peekPast place _ next rest ended restFollowed =>
      intro value after run ends
      have advances :=
        (Production.peek fun token => (rest token).production).advances_of_done
        shares.closed begins.adequate unread run
      have followed :=
        restFollowed (input.window.tokenAt state.position) settled begins id
          run ends
      have sameNext : next (input.window.tokenAt state.position) =
          next (other.window.tokenAt otherState.position) := by
        rcases Nat.lt_or_ge state.position bound with early | past
        · rw [shares.tokenAt_eq early, begins.alike.position]
        · rcases ended (input.window.tokenAt state.position) with reads | same
          · have strict :=
              reads.advances_of_done shares.closed begins.adequate id run
            have further := strict.2.2 rfl
            omega
          · apply same
            have notInside : ¬ otherState.position < other.window.stop := by
              rw [last, ← begins.alike.position]
              exact Nat.not_lt.mpr past
            simp only [Window.tokenAt, notInside, ↓reduceIte]
            exact shares.otherClosed
      rw [sameNext] at followed
      exact followed
  | peekSpan _ reads restFollowed =>
      intro value after run ends
      have advances :=
        reads.advances_of_done shares.closed begins.adequate unread run
      have early : state.position < bound :=
        Nat.lt_of_lt_of_le (advances.2.2 rfl) (Nat.le_of_lt_succ ends)
      have same := shares.tokenAt_eq early
      have followed :=
        restFollowed (input.window.tokenAt state.position).span settled begins
          unread
        run ends
      rw [same, begins.alike.position] at followed
      exact followed
  | peekEnd _ reads restFollowed =>
      intro value after run ends
      have advances :=
        reads.advances_of_done shares.closed begins.adequate unread run
      have early : state.position < bound :=
        Nat.lt_of_lt_of_le (advances.2.2 rfl) (Nat.le_of_lt_succ ends)
      have same := shares.atEnd_eq early
      have followed :=
        restFollowed (input.window.atEnd state.position) settled begins
          unread run
        ends
      rw [same, begins.alike.position] at followed
      exact followed
  | advance isUnread =>
      intro value after run ends
      cases run
      have inside := shares.closed.lt_stop (unread isUnread)
      have next := Parser.behind_position inside
      have early : state.position < bound := by
        have ended : (Parser.behind input state).position < bound + 1 := ends
        omega
      have read : Parser.advance other otherState =
          .done (input.window.tokenAt state.position)
            (Parser.behind other otherState) := by
        rw [shares.tokenAt_eq early, begins.alike.position]
        rfl
      exact ⟨Parser.behind other otherState, read,
        begins.alike.behind shares early⟩
  | observe read =>
      intro value after run ends
      cases run
      have same := begins.alike.surroundings_eq shares
      exact ⟨otherState, by rw [same], begins.alike⟩
  | call nonterminal smaller byAny =>
      exact ended nonterminal _ byAny (begins.smaller smaller)
  | angledArgs smaller =>
      exact calls.angledArgs shares (begins.smaller smaller)
  | within scope _ inner =>
      exact within_followed begins.alike scope
        (inner settled (begins.enter scope) unread)
  | add extending =>
      intro value after run ends
      obtain ⟨delimiters, template?, rfl, same⟩ := begins.alike.exists_retracked
      cases run
      exact ⟨_, rfl, ⟨rfl, rfl, rfl, rfl, same⟩⟩
  | pushScope kind =>
      intro value after run ends
      obtain ⟨delimiters, template?, rfl, same⟩ := begins.alike.exists_retracked
      cases run
      exact ⟨_, rfl, ⟨rfl, rfl, rfl, rfl, same⟩⟩

/--
Whatever the bound on nested calls, what any token ends is parsed alike where a
window ends.
-/
private theorem Rules.nested_ended
    (shares : input.Shares other bound)
    (last : other.window.stop = bound)
    (depth : Nat) :
    Rules.Ended depth input other bound := by
  induction depth with
  | zero =>
      intro Value nonterminal inTemplate state otherState _ begins
      have adequate := begins.adequate
      simp [Window.Suffices] at adequate
  | succ depth inductionHypothesis =>
      intro Value nonterminal inTemplate state otherState byAny begins
      have ending : Ending
          { own := [], inTemplate := inTemplate, rank := nonterminal.rank,
            unread := False
            settled := true }
          (fun rules => rules.produce nonterminal) :=
        .produce nonterminal byAny rfl
      exact ending.followed rfl shares last inductionHypothesis begins.shallower
        False.elim

end

/--
The parts of a program that can be captured, with what they are parsed to.
-/
inductive Fragment : Type → Type where
  | type : Fragment TypeId
  | expression : Fragment ExprId
  | body : Fragment StmtId
  | members : Fragment StmtId

namespace Fragment

variable {Value : Type}

/-- How a fragment is parsed, given the rules of the grammar. -/
def parser : Fragment Value → Rules → Parser Value
  | .type => fun rules => rules.parse .type
  | .expression => fun rules => rules.parse (.tier .or)
  | .body => Rules.currentBlock
  | .members => Rules.memberBody

/-- The parser of a fragment in its place. -/
def inPlace (fragment : Fragment Value) : Parser Value :=
  Parser.withRules fragment.parser

/-- The parser of a captured fragment. -/
def captured : Fragment Value → Parser Value
  | .type => Parser.typeFragment
  | .expression => Parser.expressionFragment
  | .body => Parser.bodyFragment
  | .members => Parser.memberFragment

/-- The term that a fragment is parsed to. -/
def term : Fragment Value → Value → Term
  | .type => .type
  | .expression => .expr
  | .body => .stmt
  | .members => .stmt

/--
A captured fragment is parsed as in its place, but has to be all of its window.
-/
theorem captured_eq (fragment : Fragment Value) :
    fragment.captured = Parser.toEnd fragment.inPlace := by
  cases fragment <;> rfl

/-- The place of a fragment, where nothing is known of what stands around it. -/
def place (settled : Bool) : Place :=
  { own := [], inTemplate := false, rank := Parser.ranks, unread := False,
    settled := settled }

/-- Every fragment is parsed by a production that reads a token. -/
theorem production (fragment : Fragment Value) (settled : Bool) :
    Production (place settled) (fun _ => true) fragment.parser := by
  cases fragment with
  | type => exact .callBehind .type rfl rfl
  | expression => exact .callBehind (.tier .or) rfl rfl
  | body => exact .currentBlock
  | members => exact .memberBody

/-- Every fragment is ended by any token with which it does not go on. -/
private theorem ending (fragment : Fragment Value) (settled : Bool) :
    Ending (place settled) fragment.parser := by
  cases fragment with
  | type => exact .callBehind .type rfl rfl
  | expression => exact .callBehind (.tier .or) rfl rfl
  | body => exact .currentBlock
  | members => exact .memberBody

/-- The calls allowed to a fragment suffice for it. -/
theorem suffices_ranks (window : Window) (position : Nat) :
    window.Suffices (Parser.ranks * (window.remaining position + 1)) position
      Parser.ranks :=
  Nat.le_of_eq (Nat.mul_succ _ _).symm

end Fragment

/-- The window onto a whole list ends within it. -/
theorem Window.whole_stop_le (tokens : Tokens) :
    (Window.whole tokens).stop ≤ tokens.size := by
  unfold whole
  split
  · exact Nat.zero_le _
  · split
    · exact Nat.sub_le _ _
    · exact Nat.le_refl _

/-- The window onto a whole list shows that list. -/
theorem Window.whole_tokens (tokens : Tokens) :
    (Window.whole tokens).tokens = tokens := by
  unfold whole
  split
  · rfl
  · split <;> rfl

/--
A fragment that parses in its place parses alike once it is captured: to the
same value, with the same scopes and the same arena, whatever followed it there.
-/
theorem captured_parses_alike
    {Value : Type}
    (fragment : Fragment Value)
    (tokens : Tokens)
    (names : Names)
    (mode : ParseMode)
    {state after : ParserState}
    {value : Value}
    (reachable : state.scopes.Reachable)
    (noneWaiting : state.track.specifiers = .none)
    (run : fragment.inPlace
      { window := .whole tokens, names := names, mode := mode } state =
      .done value after) :
    ∃ alone : ParserState,
      fragment.captured
          { window := .ofRange tokens
              { start := state.position, stop := after.position }
            names := names
            mode := mode }
          (.start (.ofRange tokens
            { start := state.position, stop := after.position })
            state.scopes state.arena) =
          .done value alone ∧
        alone.scopes = after.scopes ∧ alone.arena = after.arena := by
  let input : ParserInput :=
    { window := .whole tokens, names := names, mode := mode }
  let range : TokenRange := { start := state.position, stop := after.position }
  let other : ParserInput :=
    { window := .ofRange tokens range, names := names, mode := mode }
  let started : ParserState := .start other.window state.scopes state.arena
  let depth : Nat := Parser.ranks * (input.window.remaining state.position + 1)
  let otherDepth : Nat :=
    Parser.ranks * (other.window.remaining state.position + 1)
  have closed : input.window.Closed := Window.whole_closed tokens
  have otherClosed : other.window.Closed := Window.ofRange_closed tokens range
  have parsed : fragment.parser (Rules.nested depth) input state =
      .done value after := run
  have adequate : input.window.Suffices depth state.position Parser.ranks :=
    Fragment.suffices_ranks _ _
  have otherAdequate :
      other.window.Suffices otherDepth state.position Parser.ranks :=
    Fragment.suffices_ranks _ _
  obtain ⟨_, within, progress⟩ :=
    (fragment.production true).advances_of_done closed adequate False.elim
      parsed
  have further : state.position < after.position := progress rfl
  have inside : after.position ≤ input.window.stop := by omega
  have listed : after.position ≤ tokens.size :=
    Nat.le_trans inside (Window.whole_stop_le tokens)
  have last : other.window.stop = after.position := by
    have stop : other.window.stop =
        max (min after.position tokens.size) state.position := rfl
    omega
  have shares : input.Shares other after.position :=
    { closed := closed
      otherClosed := otherClosed
      tokens := Window.whole_tokens tokens
      names := rfl
      mode := rfl
      inside := inside
      otherInside := Nat.le_of_eq last.symm
      listed := by
        have same : input.window.tokens = tokens := Window.whole_tokens tokens
        rw [same]
        exact listed }
  have fewer : otherDepth ≤ depth := by
    apply Nat.mul_le_mul_left
    simp only [Window.remaining, last]
    omega
  have begins : Beginning false Parser.ranks depth input other state started :=
    { alike :=
        { position := rfl
          scopes := rfl
          arena := rfl
          specifiers := noneWaiting
          template? := Bool.false_ne_true.elim }
      wellFormed := reachable.wellFormed
      adequate := adequate
      otherAdequate := Nat.le_trans otherAdequate fewer }
  obtain ⟨alone, deepRun, alike⟩ :=
    (fragment.ending true).followed rfl shares last
    (Rules.nested_ended shares last depth) begins False.elim parsed
      (Nat.lt_succ_self _)
  have aloneRun : fragment.inPlace other started = .done value alone :=
    (fragment.production false).done_of_suffices rfl fewer otherClosed
      otherAdequate False.elim
      deepRun
  have ended : other.window.atEnd alone.position = true := by
    simp [Window.atEnd, last, alike.position]
  have atEnd : Parser.atEnd other alone = .done true alone :=
    congrArg (Outcome.done · alone) ended
  refine ⟨alone, ?_, alike.scopes.symm, alike.arena.symm⟩
  rw [Fragment.captured_eq]
  exact (Parser.run_bind aloneRun).trans (Parser.run_bind atEnd)

/-- A pair of types in parentheses, the first of which is a pointer. -/
def pairOfTypes : Tokens :=
  #[{ kind := .symbol (.opening .paren), span := { start := 0, stop := 1 } },
    { kind := .keyword .intWord, span := { start := 1, stop := 4 } },
    { kind := .symbol .star, span := { start := 4, stop := 5 } },
    { kind := .symbol .comma, span := { start := 5, stop := 6 } },
    { kind := .keyword .boolWord, span := { start := 7, stop := 11 } },
    { kind := .symbol (.closing .paren), span := { start := 11, stop := 12 } }]

/-- A parser inside the parenthesis, in a template. -/
def insideParenthesis : ParserState :=
  { position := 1
    track :=
      { delimiters := [.paren], specifiers := .none, template? := some .empty }
    scopes := .initial
    arena := .empty }

/--
In the pair the pointer is followed by a comma, but on its own by the end of the
window, and with neither a parenthesis nor a template around it.
-/
theorem captured_parses_alike_pointer :
    ∃ after alone : ParserState,
      insideParenthesis.scopes.Reachable ∧
        insideParenthesis.track.specifiers = .none ∧
        Fragment.type.inPlace
          { window := .whole pairOfTypes, names := ⟨[]⟩, mode := .deferred }
            insideParenthesis = .done { raw := 1 } after ∧
        after.position = 3 ∧
        Fragment.type.captured
            { window := .ofRange pairOfTypes { start := 1, stop := 3 }
              names := ⟨[]⟩
              mode := .deferred }
            (.start (.ofRange pairOfTypes { start := 1, stop := 3 }) .initial
              .empty) =
          .done { raw := 1 } alone ∧
        alone.scopes = after.scopes ∧ alone.arena = after.arena := by
  obtain ⟨after, run, ends⟩ : ∃ after : ParserState,
      Fragment.type.inPlace
        { window := .whole pairOfTypes, names := ⟨[]⟩, mode := .deferred }
          insideParenthesis = .done { raw := 1 } after ∧
        after.position = 3 :=
    ⟨_, rfl, rfl⟩
  obtain ⟨alone, parsed, scopes, arena⟩ :=
    captured_parses_alike .type pairOfTypes ⟨[]⟩ .deferred
      Scopes.Reachable.initial rfl run
  rw [ends] at parsed
  exact ⟨after, alone, .initial, rfl, run, ends, parsed, scopes, arena⟩

end Tern
