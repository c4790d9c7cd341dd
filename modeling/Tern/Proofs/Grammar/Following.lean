import Tern.Proofs.Grammar.Agreement

namespace Tern

/-!
# Parsers follow each other

A production that is done before a position on one input is done on all inputs
that share their tokens up to there, with the same value, scopes and arena.
-/

/-- Two states in which a production of a rank may begin on two inputs. -/
structure Beginning
    (inTemplate : Bool)
    (rank depth : Nat)
    (input other : ParserInput)
    (state otherState : ParserState) : Prop where
  alike : state.Alike inTemplate otherState
  wellFormed : state.scopes.WellFormed
  adequate : input.window.Suffices depth state.position rank
  otherAdequate : other.window.Suffices depth state.position rank

namespace Beginning

variable {inTemplate : Bool} {rank depth bound : Nat}
  {input other : ParserInput}
  {state otherState : ParserState}

theorem symm
    (begins : Beginning inTemplate rank depth input other state otherState) :
    Beginning inTemplate rank depth other input otherState state where
  alike := begins.alike.symm
  wellFormed := begins.alike.scopes ▸ begins.wellFormed
  adequate := begins.alike.position ▸ begins.otherAdequate
  otherAdequate := begins.alike.position ▸ begins.adequate

/-- A production of a smaller rank may begin there too. -/
theorem smaller
    (begins : Beginning inTemplate rank depth input other state otherState)
    {less : Nat}
    (order : less ≤ rank) :
    Beginning inTemplate less depth input other state otherState where
  alike := begins.alike
  wellFormed := begins.wellFormed
  adequate := begins.adequate.smaller order
  otherAdequate := begins.otherAdequate.smaller order

/-- What is called there may begin there with calls nested less deep. -/
theorem shallower
    (begins : Beginning inTemplate (rank + 1) (depth + 1) input other state
      otherState) :
    Beginning inTemplate rank depth input other state otherState where
  alike := begins.alike
  wellFormed := begins.wellFormed
  adequate := Nat.le_of_succ_le_succ begins.adequate
  otherAdequate := Nat.le_of_succ_le_succ begins.otherAdequate

/-- What may begin there may begin in another scope. -/
theorem enter
    (begins : Beginning inTemplate rank depth input other state otherState)
    (scope : ScopeId) :
    Beginning inTemplate rank depth input other
      { state with scopes := state.scopes.enter scope }
      { otherState with scopes := otherState.scopes.enter scope } where
  alike := begins.alike.enter scope
  wellFormed := begins.wellFormed.enter scope
  adequate := begins.adequate
  otherAdequate := begins.otherAdequate

/-- Behind a step that may have read a token the rest may begin. -/
theorem after
    {place : Place}
    (begins : Beginning place.inTemplate place.rank depth input other state
      otherState)
    (shares : input.Shares other bound)
    {read : Bool}
    {middle otherMiddle : ParserState}
    (alike : middle.Alike place.inTemplate otherMiddle)
    (wellFormed : middle.scopes.WellFormed)
    (early : middle.position ≤ bound)
    (order : state.position ≤ middle.position)
    (progress : read = true → state.position < middle.position) :
    Beginning (place.after read).inTemplate (place.after read).rank depth input
      other middle
      otherMiddle where
  alike := by simpa using alike
  wellFormed := wellFormed
  adequate := by
    have inside := shares.inside
    cases read with
    | true => exact begins.adequate.advance (progress rfl) (by omega)
    | false => exact begins.adequate.stay order
  otherAdequate := by
    have inside := shares.otherInside
    cases read with
    | true => exact begins.otherAdequate.advance (progress rfl) (by omega)
    | false => exact begins.otherAdequate.stay order

end Beginning

/--
What a production has done from well-formed scopes leaves them well-formed.
-/
theorem Production.wellFormed_of_done
    {place : Place}
    {Value : Type}
    {reads : Value → Bool}
    {parser : Rules → Parser Value}
    (production : Production place reads parser)
    {depth : Nat}
    {input : ParserInput}
    {state after : ParserState}
    {value : Value}
    (wellFormed : state.scopes.WellFormed)
    (run : parser (Rules.nested depth) input state = .done value after) :
    after.scopes.WellFormed := by
  have composed := production.composed (Rules.nested_allComposed depth)
  have left := composed.leaves_scopes_changedSince input (.refl wellFormed)
  rw [run] at left
  exact left.wellFormed

/--
What a production has done goes on from where it began, within the window.
-/
theorem Production.advances_of_done
    {place : Place}
    {Value : Type}
    {reads : Value → Bool}
    {parser : Rules → Parser Value}
    (production : Production place reads parser)
    {depth : Nat}
    {input : ParserInput}
    {state after : ParserState}
    {value : Value}
    (closed : input.window.Closed)
    (adequate : input.window.Suffices depth state.position place.rank)
    (unread : place.unread → input.window.kindAt state.position ≠ .endOfInput)
    (run : parser (Rules.nested depth) input state = .done value after) :
    state.position ≤ after.position ∧
      after.position ≤ max state.position input.window.stop ∧
        (reads value = true → state.position < after.position) := by
  have advances :=
    production.advances closed (Rules.nested_advance closed depth) state
      adequate
    unread
  rw [run] at advances
  exact advances

/--
Within a bound all nonterminals are parsed alike on two inputs up to a position.
-/
structure Rules.Followed
    (depth : Nat)
    (input other : ParserInput)
    (bound : Nat) :
    Prop where
  call : ∀ {Value : Type} (nonterminal : Nonterminal Value) (inTemplate : Bool)
    {state otherState : ParserState},
      nonterminal.settled = true →
      (nonterminal.inTemplate = true → inTemplate = true) →
      Beginning inTemplate (nonterminal.rank + 1) depth input other state
        otherState →
      Outcome.Followed inTemplate bound
        ((nested depth).parse nonterminal input state)
        ((nested depth).parse nonterminal other otherState)
  templateArgs : ∀ (inTemplate : Bool) {state otherState after : ParserState}
    {args : List TemplateArg},
      Beginning inTemplate (Nonterminal.templateArgs.rank + 1) depth input other
        state otherState →
      (nested depth).parse .templateArgs input state = .done args after →
      after.position < bound →
      ¬ suffixing (input.window.kindAt after.position) →
      ∃ otherAfter, (nested depth).parse .templateArgs other otherState =
        .done args otherAfter ∧
        after.Alike inTemplate otherAfter

/-- A parser that runs in another scope is followed there. -/
theorem within_followed
    {inTemplate : Bool}
    {bound : Nat}
    {Value : Type}
    {input other : ParserInput}
    {state otherState : ParserState}
    (alike : state.Alike inTemplate otherState)
    (scope : ScopeId)
    {parser : Parser Value}
    (inner : Outcome.Followed inTemplate bound
      (parser input { state with scopes := state.scopes.enter scope })
      (parser other { otherState with
                      scopes := otherState.scopes.enter scope })) :
    Outcome.Followed inTemplate bound (Parser.within scope parser input state)
      (Parser.within scope parser other otherState) := by
  intro value after run ends
  simp only [Parser.within_run] at run ⊢
  cases ending :
      parser input { state with scopes := state.scopes.enter scope } with
  | done found last =>
      rw [ending] at run
      cases run
      obtain ⟨otherLast, otherRun, alikeLast⟩ := inner ending ends
      rw [otherRun, ← alike.scopes]
      exact ⟨_, rfl, alikeLast.enter _⟩
  | failed error last =>
      rw [ending] at run
      cases run
  | exhausted =>
      rw [ending] at run
      cases run

/--
A parser tried first and the one that runs in its place are followed, if on the
other input what is tried cannot be done past the position once the one in its
place is done before it.
-/
private theorem either_followed
    {place : Place}
    {Value : Type}
    {reads : Value → Bool}
    {first second : Rules → Parser Value}
    (tried : Production place reads first)
    (unowned : place.own = [])
    {inTemplate : Bool}
    {rank depth bound : Nat}
    {input other : ParserInput}
    {state otherState after : ParserState}
    {value : Value}
    (closed : other.window.Closed)
    (begins : Beginning inTemplate rank depth input other state otherState)
    (ranked : place.rank ≤ rank)
    (unread : place.unread → other.window.kindAt otherState.position ≠
      .endOfInput)
    (firstFollowed : Outcome.Followed inTemplate bound
      (first (Rules.nested depth) input state)
        (first (Rules.nested depth) other otherState))
    (firstFollows : Outcome.Followed inTemplate bound
      (first (Rules.nested depth) other otherState)
        (first (Rules.nested depth) input state))
    (secondFollowed : second (Rules.nested depth) input state =
      .done value after →
      ∃ otherAfter, second (Rules.nested depth) other otherState =
        .done value otherAfter ∧
        after.Alike inTemplate otherAfter)
    (ordered : ∀ {otherValue triedValue : Value} {otherAfter triedAfter :
      ParserState},
      second (Rules.nested depth) other otherState =
        .done otherValue otherAfter →
      after.position = otherAfter.position →
      first (Rules.nested depth) other otherState =
        .done triedValue triedAfter →
      triedAfter.position < bound)
    (run : Parser.either (first (Rules.nested depth))
      (second (Rules.nested depth)) input state =
      .done value after)
    (early : after.position < bound) :
    ∃ otherAfter,
      Parser.either (first (Rules.nested depth)) (second (Rules.nested depth))
        other otherState =
          .done value otherAfter ∧
        after.Alike inTemplate otherAfter := by
  have composed := tried.composed (Rules.nested_allComposed depth)
  rw [unowned] at composed
  rw [composed.either_eq _ _ begins.wellFormed] at run
  rw [composed.either_eq _ _ begins.symm.wellFormed]
  cases ending : first (Rules.nested depth) input state with
  | done found last =>
      rw [ending] at run
      cases run
      obtain ⟨otherAfter, otherRun, alike⟩ := firstFollowed ending early
      exact ⟨otherAfter, by rw [otherRun], alike⟩
  | failed error last =>
      rw [ending] at run
      obtain ⟨otherAfter, otherRun, alike⟩ := secondFollowed run
      have advances :=
        tried.advances closed (Rules.nested_advance closed depth) otherState
        (begins.symm.smaller ranked).adequate unread
      cases otherEnding : first (Rules.nested depth) other otherState with
      | done found last =>
          have triedEarly := ordered otherRun alike.position otherEnding
          obtain ⟨_, done, _⟩ := firstFollows otherEnding triedEarly
          rw [ending] at done
          cases done
      | failed otherError otherLast =>
          exact ⟨otherAfter, otherRun, alike⟩
      | exhausted =>
          rw [otherEnding] at advances
          exact advances.elim
  | exhausted =>
      rw [ending] at run
      cases run

section

variable {depth bound : Nat} {input other : ParserInput}
  {state otherState : ParserState}

/-- Template arguments in angles are followed up to the angle that ends them. -/
theorem Rules.Followed.angledArgs
    (followed : Rules.Followed depth input other bound)
    (shares : input.Shares other bound)
    {inTemplate : Bool}
    (begins : Beginning inTemplate (Nonterminal.templateArgs.rank + 1) depth
      input other state
      otherState) :
    Outcome.Followed inTemplate (bound + 1)
      ((nested depth).angledArgs input state)
      ((nested depth).angledArgs other otherState) := by
  intro args after run ends
  obtain ⟨found, last, listed, rest⟩ := Parser.done_of_bind run
  obtain ⟨_, behindAngle, closes, rest⟩ := Parser.done_of_bind rest
  cases rest
  obtain ⟨angle, rfl⟩ := Parser.expect_done closes
  have inside := shares.closed.lt_stop (by rw [angle]; exact nofun)
  have early : last.position < bound := by
    rw [Parser.behind_position inside] at ends
    omega
  obtain ⟨otherLast, otherListed, alike⟩ : ∃ otherLast,
      (nested depth).orNone (.symbol .greater) .templateArgs other otherState =
          .done args otherLast ∧
        last.Alike inTemplate otherLast := by
    rw [Parser.orNone_run] at listed
    rw [Parser.orNone_run, ← begins.alike.position]
    split at listed
    next none =>
      cases listed
      rw [shares.kindAt_eq early] at none
      rw [if_pos none]
      exact ⟨otherState, rfl, begins.alike⟩
    next some =>
      have advances :=
        Rules.nested_advance shares.closed depth .templateArgs state
        begins.adequate
      rw [listed] at advances
      rw [shares.kindAt_eq (Nat.lt_of_le_of_lt advances.1 early)] at some
      rw [if_neg some]
      exact followed.templateArgs inTemplate begins listed early
        (by simp [angle, suffixing])
  have otherAngle : other.window.kindAt otherLast.position =
      .symbol .greater := by
    rw [← alike.position, ← shares.kindAt_eq early, angle]
  refine ⟨Parser.behind other otherLast, ?_, alike.behind shares early⟩
  have otherRun : (nested depth).angledArgs other otherState =
      ((nested depth).orNone (.symbol .greater) .templateArgs >>= fun args =>
        Parser.expect (.symbol .greater) >>= fun _ => Pure.pure args) other
          otherState := rfl
  rw [otherRun, Parser.run_bind otherListed,
    Parser.run_bind (Parser.expect_run_of_eq otherAngle)]
  rfl

/--
A settled production is followed, if the nonterminals that it may call are.
-/
theorem Production.followed
    {place : Place}
    {Value : Type}
    {reads : Value → Bool}
    {parser : Rules → Parser Value}
    (production : Production place reads parser)
    (settled : place.settled = true)
    (shares : input.Shares other bound)
    (calls : Rules.Followed depth input other bound)
    (otherCalls : Rules.Followed depth other input bound)
    (begins : Beginning place.inTemplate place.rank depth input other state
      otherState)
    (unread : place.unread → input.window.kindAt state.position ≠ .endOfInput) :
    Outcome.Followed place.inTemplate bound
      (parser (Rules.nested depth) input state)
      (parser (Rules.nested depth) other otherState) := by
  induction production generalizing input other state otherState with
  | pure quiet =>
      intro value after run ends
      cases run
      exact ⟨otherState, rfl, begins.alike⟩
  | @bind place _ _ before _ parser
      next first rest firstFollowed restFollowed =>
      intro value after run ends
      obtain ⟨found, middle, started, onward⟩ := Parser.done_of_bind run
      obtain ⟨order, inside, progress⟩ :=
        first.advances_of_done shares.closed begins.adequate unread started
      have adequateBehind :
          input.window.Suffices depth middle.position
            (place.after (before found)).rank := by
        cases read : before found with
        | true => exact begins.adequate.advance (progress read) inside
        | false => exact begins.adequate.stay order
      have further :=
        (rest found).advances_of_done shares.closed adequateBehind (by simp)
          onward
      have early : middle.position < bound := Nat.lt_of_le_of_lt further.1 ends
      obtain ⟨otherMiddle, otherStarted, alike⟩ :=
        firstFollowed settled shares calls otherCalls begins unread
          started early
      have wellFormed := first.wellFormed_of_done begins.wellFormed started
      have begun :=
        begins.after shares alike wellFormed (Nat.le_of_lt early) order progress
      obtain ⟨otherAfter, otherOnward, alikeAfter⟩ :=
        restFollowed found (by simpa using settled) shares calls otherCalls
          begun (by simp)
          onward ends
      exact ⟨otherAfter, (Parser.run_bind otherStarted).trans otherOnward,
        by simpa using alikeAfter⟩
  | forget _ _ inner =>
      exact inner settled shares calls otherCalls begins unread
  | fail _ =>
      intro value after run ends
      cases run
  | @peek place _ reads next rest restFollowed =>
      intro value after run ends
      have advances :=
        (Production.peek rest).advances_of_done shares.closed begins.adequate
        unread run
      have early : state.position < bound := Nat.lt_of_le_of_lt advances.1 ends
      have same := shares.tokenAt_eq early
      have followed :=
        restFollowed (input.window.tokenAt state.position) settled shares calls
        otherCalls begins id run ends
      rw [same, begins.alike.position] at followed
      exact followed
  | @peekBehind place _ reads next rest willRead restFollowed =>
      intro value after run ends
      have advances :=
        (Production.peekBehind rest willRead).advances_of_done shares.closed
        begins.adequate unread run
      have early : state.position + 1 < bound :=
        Nat.lt_of_le_of_lt (advances.2.2 (willRead value)) ends
      have same := shares.ahead_eq early
      have followed :=
        restFollowed (input.window.ahead state.position 1) settled shares calls
        otherCalls begins unread run ends
      rw [same, begins.alike.position] at followed
      exact followed
  | @peekEnd place _ reads next rest willRead restFollowed =>
      intro value after run ends
      have advances :=
        (Production.peekEnd rest willRead).advances_of_done shares.closed
        begins.adequate unread run
      have early : state.position < bound := Nat.lt_of_le_of_lt advances.1 ends
      have same := shares.atEnd_eq early
      have followed :=
        restFollowed (input.window.atEnd state.position) settled shares calls
        otherCalls begins unread run ends
      rw [same, begins.alike.position] at followed
      exact followed
  | @peekSpan place _ reads next rest restFollowed =>
      intro value after run ends
      have advances :=
        (Production.peekSpan rest).advances_of_done shares.closed
          begins.adequate
        unread run
      have early : state.position < bound := Nat.lt_of_le_of_lt advances.1 ends
      have same := shares.tokenAt_eq early
      have followed :=
        restFollowed (input.window.tokenAt state.position).span settled shares
        calls otherCalls begins unread run ends
      rw [same, begins.alike.position] at followed
      exact followed
  | advance isUnread =>
      intro value after run ends
      cases run
      have inside := shares.closed.lt_stop (unread isUnread)
      have next := Parser.behind_position inside
      have early : state.position < bound := by
        have ended : (Parser.behind input state).position < bound := ends
        omega
      have read : Parser.advance other otherState =
          .done (input.window.tokenAt state.position)
            (Parser.behind other otherState) := by
        rw [shares.tokenAt_eq early, begins.alike.position]
        rfl
      exact ⟨Parser.behind other otherState, read,
        begins.alike.behind shares early⟩
  | observe read =>
      intro value after run ends
      cases run
      have same := begins.alike.surroundings_eq shares
      exact ⟨otherState, by rw [same], begins.alike⟩
  | respecify change =>
      intro value after run ends
      obtain ⟨delimiters, template?, rfl, same⟩ := begins.alike.exists_retracked
      cases run
      exact ⟨_, rfl, ⟨rfl, rfl, rfl, rfl, same⟩⟩
  | retemplate change =>
      intro value after run ends
      obtain ⟨delimiters, template?, rfl, same⟩ := begins.alike.exists_retracked
      cases run
      exact ⟨_, rfl, ⟨rfl, rfl, rfl, rfl, fun matters =>
        congrArg (Option.map change) (same matters)⟩⟩
  | @inContext place _ reads start next inTemplate _ restFollowed =>
      have same := begins.alike.template? inTemplate
      have tracked : Parser.tracked input state = .done state.track state := rfl
      have otherTracked : Parser.tracked other otherState =
          .done otherState.track otherState := rfl
      simp only [Bind.bind, Action.bind, tracked, otherTracked, ← same]
      cases state.track.template? with
      | none =>
          intro value after run ends
          cases run
      | some context =>
          exact restFollowed context settled shares calls otherCalls begins
            unread
  | captureTo terminators =>
      exact Parser.captureTo_followed shares terminators begins.alike
  | captureBraces =>
      exact Parser.captureBraces_followed shares begins.alike
  | call nonterminal smaller inTemplate isSettled =>
      exact calls.call nonterminal _ (isSettled settled) inTemplate
        (begins.smaller smaller)
  | angledArgs _ smaller =>
      intro value after run ends
      exact calls.angledArgs shares (begins.smaller smaller) run
        (Nat.lt_succ_of_lt ends)
  | within scope _ inner =>
      exact within_followed begins.alike scope
        (inner settled shares calls otherCalls (begins.enter scope) unread)
  | @withTemplate place _ reads context parser _ inner =>
      intro value after run ends
      have begun : Beginning true place.rank depth input other
          { state with track := { state.track with template? := some context } }
          { otherState with
            track := { otherState.track with template? := some context } } :=
        { alike := { begins.alike with template? := fun _ => rfl }
          wellFormed := begins.wellFormed
          adequate := begins.adequate
          otherAdequate := begins.otherAdequate }
      have followed := inner settled shares calls otherCalls begun unread
      simp only [Parser.withTemplate_run] at run ⊢
      cases ending : parser (Rules.nested depth) input
          { state with track := { state.track with template? := some context } }
            with
      | done found last =>
          rw [ending] at run
          cases run
          obtain ⟨otherLast, otherRun, alike⟩ := followed ending ends
          rw [otherRun, alike.template? rfl]
          exact ⟨_, rfl, { alike with template? := begins.alike.template? }⟩
      | failed error last =>
          rw [ending] at run
          cases run
      | exhausted =>
          rw [ending] at run
          cases run
  | @either place _ reads first second tried instead ordered triedFollowed
      insteadFollowed =>
      intro value after run ends
      have advances :=
        (Production.either tried instead ordered).advances_of_done shares.closed
        begins.adequate unread run
      have early : state.position < bound := Nat.lt_of_le_of_lt advances.1 ends
      have otherUnread : place.unread →
          other.window.kindAt otherState.position ≠ .endOfInput := by
        rw [← begins.alike.position, ← shares.kindAt_eq early]
        exact unread
      exact either_followed tried rfl shares.otherClosed begins (Nat.le_refl _)
        otherUnread
        (triedFollowed settled shares calls otherCalls begins unread)
        (triedFollowed settled shares.symm otherCalls calls begins.symm
          otherUnread)
        (fun secondRun => insteadFollowed settled shares calls otherCalls begins
          unread secondRun
          ends)
        (fun otherRun same triedRun => Nat.lt_of_le_of_lt
          (ordered settled depth shares.otherClosed otherState triedRun
            otherRun) (same ▸ ends))
        run ends
  | add extending =>
      intro value after run ends
      obtain ⟨delimiters, template?, rfl, same⟩ := begins.alike.exists_retracked
      cases run
      exact ⟨_, rfl, ⟨rfl, rfl, rfl, rfl, same⟩⟩
  | addDecl name specifiers form span _ restFollowed =>
      obtain ⟨delimiters, template?, rfl, same⟩ := begins.alike.exists_retracked
      refine restFollowed _ settled shares calls otherCalls ?_ nofun
      exact
        { alike := ⟨rfl, rfl, rfl, rfl, same⟩
          wellFormed := begins.wellFormed
          adequate := begins.adequate
          otherAdequate := begins.otherAdequate }
  | updateDecl added change =>
      intro value after run ends
      obtain ⟨delimiters, template?, rfl, same⟩ := begins.alike.exists_retracked
      cases run
      exact ⟨_, rfl, ⟨rfl, rfl, rfl, rfl, same⟩⟩
  | pushScope kind =>
      intro value after run ends
      obtain ⟨delimiters, template?, rfl, same⟩ := begins.alike.exists_retracked
      cases run
      exact ⟨_, rfl, ⟨rfl, rfl, rfl, rfl, same⟩⟩
  | scopeFor decl kind =>
      intro value after run ends
      obtain ⟨delimiters, template?, rfl, same⟩ := begins.alike.exists_retracked
      cases run
      exact ⟨_, rfl, ⟨rfl, rfl, rfl, rfl, same⟩⟩
  | bindDecl decl =>
      intro value after run ends
      obtain ⟨delimiters, template?, rfl, same⟩ := begins.alike.exists_retracked
      cases run
      exact ⟨_, rfl, ⟨rfl, rfl, rfl, rfl, same⟩⟩

/-- The place of a template argument. -/
def Place.arg (inTemplate : Bool) : Place :=
  { own := [], inTemplate := inTemplate, rank := Nonterminal.templateArgs.rank,
    unread := False
    settled := true }

/--
A template argument is followed if it ends at a comma or an angle: what is tried
as a type then ends no later than the expression.
-/
private theorem Rules.Followed.templateArg
    (followed : Rules.Followed depth input other bound)
    (follows : Rules.Followed depth other input bound)
    (shares : input.Shares other bound)
    {inTemplate : Bool}
    (begins : Beginning inTemplate Nonterminal.templateArgs.rank depth input
      other state otherState)
    {arg : TemplateArg}
    {after : ParserState}
    (run : (nested depth).templateArg input state = .done arg after)
    (early : after.position < bound)
    (ends : ¬ suffixing (input.window.kindAt after.position)) :
    ∃ otherAfter, (nested depth).templateArg other otherState =
      .done arg otherAfter ∧
      after.Alike inTemplate otherAfter := by
  have type : Production (Place.arg inTemplate) (fun _ => true) Rules.typeArg :=
    .typeArg (by decide : 1 < Nonterminal.templateArgs.rank)
  have expr : Production (Place.arg inTemplate) (fun _ => true) Rules.exprArg :=
    .exprArg (by decide : 3 < Nonterminal.templateArgs.rank)
  refine either_followed type rfl shares.otherClosed begins (Nat.le_refl _)
    False.elim
    (type.followed rfl shares followed follows begins False.elim)
    (type.followed rfl shares.symm follows followed begins.symm False.elim)
    (fun exprRun =>
      expr.followed rfl shares followed follows begins False.elim exprRun early)
    ?_ run early
  intro otherValue triedValue otherAfter triedAfter exprRun same typeRun
  obtain ⟨_, _, tierRun, rest⟩ := Parser.done_of_bind exprRun
  cases rest
  obtain ⟨_, typeEnd, typeParsed, rest⟩ := Parser.done_of_bind typeRun
  obtain ⟨token, _, looked, chosen⟩ := Parser.done_of_bind rest
  cases looked
  have stays : triedAfter = typeEnd := by
    split at chosen
    · cases chosen
      rfl
    · cases chosen
  subst stays
  rw [shares.kindAt_eq early, same] at ends
  have order := type_endsNoLater shares.otherClosed typeParsed tierRun ends
  omega

/-- Template arguments are followed if they end at a comma or an angle. -/
private theorem Rules.Followed.templateArgs_succ
    (followed : Rules.Followed depth input other bound)
    (follows : Rules.Followed depth other input bound)
    (shares : input.Shares other bound)
    {inTemplate : Bool}
    (begins : Beginning inTemplate Nonterminal.templateArgs.rank depth input
      other state otherState)
    {args : List TemplateArg}
    {after : ParserState}
    (run : (nested depth).templateArgs input state = .done args after)
    (early : after.position < bound)
    (ends : ¬ suffixing (input.window.kindAt after.position)) :
    ∃ otherAfter, (nested depth).templateArgs other otherState =
      .done args otherAfter ∧
      after.Alike inTemplate otherAfter := by
  have production : Production { Place.arg inTemplate with settled := false }
    (fun _ => true)
      Rules.templateArg :=
    .templateArg rfl (by decide : 3 < Nonterminal.templateArgs.rank)
  obtain ⟨arg, middle, first, rest⟩ := Parser.done_of_bind run
  obtain ⟨order, _, progress⟩ :=
    production.advances_of_done shares.closed begins.adequate False.elim first
  have wellFormed := production.wellFormed_of_done begins.wellFormed first
  have combined : (nested depth).templateArgs other otherState =
      ((nested depth).templateArg >>= fun arg =>
        Parser.eat (.symbol .comma) >>= fun found =>
        if found = true then
          (nested depth).parse .templateArgs >>= fun rest =>
            Pure.pure (arg :: rest)
        else Pure.pure [arg]) other otherState := rfl
  obtain ⟨found, behindComma, eaten, rest⟩ := Parser.done_of_bind rest
  rw [Parser.eat_run] at eaten
  split at eaten
  next comma =>
    cases eaten
    obtain ⟨others, last, listed, returned⟩ := Parser.done_of_bind rest
    cases returned
    have inside := shares.closed.lt_stop (by rw [comma]; exact nofun)
    have next := Parser.behind_position inside
    have room : Nonterminal.templateArgs.rank + 1 ≤ Parser.ranks := by decide
    have adequate := (begins.adequate.advance (by omega : state.position < _)
      (by rw [next]; omega : (Parser.behind input middle).position ≤ _)).smaller
        room
    have further :=
      Rules.nested_advance shares.closed depth .templateArgs _ adequate
    rw [listed] at further
    have middleEarly : middle.position < bound := by
      have onward : (Parser.behind input middle).position ≤ after.position :=
        further.1
      omega
    obtain ⟨otherMiddle, otherRun, alike⟩ :=
      followed.templateArg follows shares begins first
      middleEarly (by simp [comma, suffixing])
    rw [shares.kindAt_eq middleEarly, alike.position] at comma
    have behindAlike := alike.behind shares middleEarly
    have begun : Beginning inTemplate (Nonterminal.templateArgs.rank + 1) depth
        input other
        (Parser.behind input middle) (Parser.behind other otherMiddle) :=
      { alike := behindAlike
        wellFormed := wellFormed
        adequate := adequate
        otherAdequate := by
          have otherInside := shares.otherInside
          rw [next]
          exact (begins.otherAdequate.advance (by omega) (by omega)).smaller
            room }
    obtain ⟨otherLast, otherListed, alikeLast⟩ :=
      followed.templateArgs inTemplate begun listed early ends
    have otherEaten : Parser.eat (.symbol .comma) other otherMiddle =
        .done true (Parser.behind other otherMiddle) :=
      (Parser.eat_run _ _ _).trans (if_pos comma)
    refine ⟨otherLast, ?_, alikeLast⟩
    rw [combined, Parser.run_bind otherRun, Parser.run_bind otherEaten]
    exact Parser.run_bind otherListed
  next single =>
    cases eaten
    cases rest
    obtain ⟨otherAfter, otherRun, alike⟩ :=
      followed.templateArg follows shares begins first early ends
    rw [shares.kindAt_eq early, alike.position] at single
    have otherEaten : Parser.eat (.symbol .comma) other otherAfter =
        .done false otherAfter :=
      (Parser.eat_run _ _ _).trans (if_neg single)
    refine ⟨otherAfter, ?_, alike⟩
    rw [combined, Parser.run_bind otherRun, Parser.run_bind otherEaten]
    rfl

/--
Whatever the bound on nested calls, nonterminals are parsed alike up to a
position.
-/
theorem Rules.nested_followed
    (shares : input.Shares other bound)
    (depth : Nat) :
    Rules.Followed depth input other bound := by
  induction depth generalizing input other with
  | zero =>
      constructor
      · intro Value nonterminal inTemplate state otherState _ _ begins
        have adequate := begins.adequate
        simp [Window.Suffices] at adequate
      · intro inTemplate state otherState after args begins
        have adequate := begins.adequate
        simp [Window.Suffices] at adequate
  | succ depth inductionHypothesis =>
      have followed := inductionHypothesis shares
      have follows := inductionHypothesis shares.symm
      constructor
      · intro Value nonterminal inTemplate state otherState settled inContext
          begins
        have production : Production
            { own := [], inTemplate := inTemplate, rank := nonterminal.rank,
              unread := False
              settled := true }
            (fun _ => nonterminal.reads)
              (fun rules => rules.produce nonterminal) :=
          .produce (fun _ => declarationStatement_endsNoLater)
            (fun _ => syntacticRequirement_endsNoLater) nonterminal inContext
              (fun _ => settled) rfl
        exact production.followed rfl shares followed follows begins.shallower
          False.elim
      · intro inTemplate state otherState after args begins run early ends
        exact followed.templateArgs_succ follows shares begins.shallower run
          early ends

end

end Tern
