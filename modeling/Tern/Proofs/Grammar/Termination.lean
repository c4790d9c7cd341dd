import Tern.Proofs.Grammar.Productions
import Tern.Proofs.Grammar.Runs

namespace Tern

/-!
# Parsing terminates

The bound on nested calls is never met: a production that calls another one
either has read a token before or calls one of a smaller rank. So the bound of
the entry points, which counts all ranks once for each token left, is enough.
-/

/--
A parser is not exhausted, and it goes on from a position when it reads a token,
but not past the stop.
-/
def Outcome.Advances {Value : Type} (reads : Value → Bool) (start stop : Nat) :
    Outcome ParseError ParserState Value → Prop
  | .done value state =>
      start ≤ state.position ∧ state.position ≤ max start stop ∧
        (reads value = true → start < state.position)
  | .failed _ _ => True
  | .exhausted => False

/--
A parser that is done where it began has advanced if it was not to read a token.
-/
private theorem Outcome.Advances.still
    {Value : Type}
    {reads : Value → Bool}
    {value : Value}
    {state : ParserState}
    {start stop : Nat}
    (stays : state.position = start)
    (quiet : reads value = false) :
    (Outcome.done value state : Outcome ParseError ParserState Value).Advances
      reads start stop := by
  subst stays
  exact ⟨Nat.le_refl _, Nat.le_max_left _ _, by simp [quiet]⟩

/--
What advances from a position without reading advances from an earlier one.
-/
private theorem Outcome.Advances.widen
    {Value : Type}
    {outcome : Outcome ParseError ParserState Value}
    {start earlier stop : Nat}
    (advances : outcome.Advances (fun _ => false) start stop)
    (order : earlier ≤ start)
    (inside : start ≤ stop) :
    outcome.Advances (fun _ => false) earlier stop := by
  cases outcome with
  | done value state =>
      obtain ⟨onward, within, _⟩ := advances
      exact ⟨Nat.le_trans order onward, by omega, by simp⟩
  | failed error state => trivial
  | exhausted => exact advances

/--
The calls left within a bound at a position suffice for all nonterminals up to a
rank.
-/
def Window.Suffices (window : Window) (bound position rank : Nat) : Prop :=
  Parser.ranks * window.remaining position + rank ≤ bound

namespace Window.Suffices

variable {window : Window} {bound position rank : Nat}

/-- What suffices for a rank suffices for all smaller ones. -/
theorem smaller
    (adequate : window.Suffices bound position rank)
    {less : Nat}
    (order : less ≤ rank) :
    window.Suffices bound position less :=
  Nat.le_trans (Nat.add_le_add_left order _) adequate

/-- Behind a token the calls left suffice for all nonterminals. -/
theorem advance
    (adequate : window.Suffices bound position rank)
    {next : Nat}
    (past : position < next)
    (inside : next ≤ max position window.stop) :
    window.Suffices bound next Parser.ranks := by
  simp only [Suffices, Window.remaining, Parser.ranks] at adequate ⊢
  omega

/-- Going on, the calls left still suffice. -/
theorem stay
    (adequate : window.Suffices bound position rank)
    {next : Nat}
    (onward : position ≤ next) :
    window.Suffices bound next rank := by
  simp only [Suffices, Window.remaining, Parser.ranks] at adequate ⊢
  omega

end Window.Suffices

/--
Rules advance within a bound if all nonterminals advance that the bound suffices
for.
-/
def Rules.Advance (rules : Rules) (input : ParserInput) (bound : Nat) : Prop :=
  ∀ {Value : Type} (nonterminal : Nonterminal Value) (state : ParserState),
    input.window.Suffices bound state.position (nonterminal.rank + 1) →
    (rules.parse nonterminal input state).Advances (fun _ => nonterminal.reads)
      state.position
      input.window.stop

namespace Parser

variable {input : ParserInput}

/-- What is read up to a terminator ends before the window does. -/
theorem skipTo_advances
    (closed : input.window.Closed)
    (terminators : List TokenKind)
    (level fuel : Nat)
    (state : ParserState)
    (enough : input.window.remaining state.position < fuel) :
    (skipTo terminators level fuel input state).Advances (fun _ => false)
      state.position
      input.window.stop := by
  induction fuel generalizing state with
  | zero =>
      omega
  | succ fuel inductionHypothesis =>
      rw [skipTo_succ]
      dsimp only
      split
      · exact .still rfl rfl
      · split
        · trivial
        next real =>
          split
          · trivial
          · have inside : state.position < input.window.stop :=
              closed.lt_stop real
            have next := Parser.behind_position inside
            have onward := inductionHypothesis (behind input state) (by
              simp only [Window.remaining, next] at enough ⊢
              omega)
            rw [next] at onward
            exact onward.widen (by omega) (by omega)

/--
What is read until a nesting level is reached again ends before the window does.
-/
theorem skipOut_advances
    (opened : Span)
    (level fuel : Nat)
    (state : ParserState)
    (enough : input.window.remaining state.position < fuel) :
    (skipOut opened level fuel input state).Advances (fun _ => false)
      state.position
      input.window.stop := by
  induction fuel generalizing state with
  | zero =>
      omega
  | succ fuel inductionHypothesis =>
      rw [skipOut_succ]
      split
      · split
        · trivial
        next going =>
          have inside : state.position < input.window.stop := by
            simpa [Window.atEnd] using going
          have next := Parser.behind_position inside
          have onward := inductionHypothesis (behind input state) (by
            simp only [Window.remaining, next] at enough ⊢
            omega)
          rw [next] at onward
          exact onward.widen (by omega) (by omega)
      · exact .still rfl rfl

/-- What is captured up to a terminator ends before the window does. -/
theorem captureTo_advances
    (closed : input.window.Closed)
    (terminators : List TokenKind)
    {state : ParserState} :
    (captureTo terminators input state).Advances (fun _ => false) state.position
      input.window.stop := by
  have skipped := skipTo_advances closed terminators state.track.depth
    (input.window.remaining state.position + 1) state (by omega)
  have run : captureTo terminators input state =
      (skipTo terminators state.track.depth
        (input.window.remaining state.position + 1) >>=
        fun _ => rangeFrom state.position) input state := rfl
  rw [run]
  simp only [Bind.bind, Action.bind]
  cases ending : skipTo terminators state.track.depth
      (input.window.remaining state.position + 1) input state with
  | done value after =>
      rw [ending] at skipped
      exact skipped
  | failed error after =>
      trivial
  | exhausted =>
      rw [ending] at skipped
      exact skipped

/-- What is captured in braces ends before the window does, and is not empty. -/
theorem captureBraces_advances
    (closed : input.window.Closed)
    {state : ParserState} :
    (captureBraces input state).Advances (fun _ => true) state.position
      input.window.stop := by
  have run : captureBraces input state =
      (expect (Delimiter.opener .brace) >>= fun _ => remaining >>= fun left =>
        skipOut (input.window.tokenAt state.position).span state.track.depth
          (left + 1) >>=
          fun _ => rangeFrom state.position) input state := rfl
  rw [run]
  by_cases found : input.window.kindAt state.position = Delimiter.opener .brace
  · have inside : state.position < input.window.stop :=
      closed.lt_stop (by rw [found]; exact nofun)
    have next := Parser.behind_position inside
    have left : remaining input (behind input state) =
      .done (input.window.remaining (behind input state).position)
        (behind input state) := rfl
    simp only [Bind.bind, Action.bind, expect_run_of_eq found, left]
    have skipped := skipOut_advances (input.window.tokenAt state.position).span
      state.track.depth
        (input.window.remaining (behind input state).position + 1)
      (behind input state) (Nat.lt_succ_self _)
    cases ending :
      skipOut (input.window.tokenAt state.position).span state.track.depth
        (input.window.remaining (behind input state).position + 1) input
        (behind input state) with
    | done value after =>
        rw [ending, next] at skipped
        obtain ⟨order, within, _⟩ := skipped
        exact ⟨by omega, by omega, fun _ => order⟩
    | failed error after =>
        trivial
    | exhausted =>
        rw [ending] at skipped
        exact skipped
  · obtain ⟨failure, failed⟩ := expect_run_of_ne found
    simp only [Bind.bind, Action.bind, failed]
    trivial

end Parser

/--
What advances behind a step that has advanced, advances from before the step.
-/
private theorem Outcome.Advances.chain
    {Value : Type}
    {reads : Value → Bool}
    {outcome : Outcome ParseError ParserState Value}
    {start middle stop : Nat}
    {before : Bool}
    (advances : outcome.Advances (stillToRead reads before) middle stop)
    (order : start ≤ middle)
    (inside : middle ≤ max start stop)
    (progress : before = true → start < middle) :
    outcome.Advances reads start stop := by
  cases outcome with
  | done value state =>
      obtain ⟨onward, within, further⟩ := advances
      refine ⟨Nat.le_trans order onward, by omega, ?_⟩
      intro read
      cases before with
      | true => exact Nat.lt_of_lt_of_le (progress rfl) onward
      | false => exact Nat.lt_of_le_of_lt order (further read)
  | failed error state =>
      trivial
  | exhausted =>
      exact advances

/--
A production advances if the template arguments in angles do that it may call.
-/
private theorem Production.advances_of_angledArgs
    {place : Place}
    {Value : Type}
    {reads : Value → Bool}
    {parser : Rules → Parser Value}
    (production : Production place reads parser)
    {rules : Rules}
    {input : ParserInput}
    {bound : Nat}
    (closed : input.window.Closed)
    (advance : rules.Advance input bound)
    (angled : place.settled = true → ∀ {state : ParserState},
      input.window.Suffices bound state.position
        (Nonterminal.templateArgs.rank + 1) →
      (rules.angledArgs input state).Advances (fun _ => true) state.position
        input.window.stop)
    (state : ParserState)
    (adequate : input.window.Suffices bound state.position place.rank)
    (unread : place.unread → input.window.kindAt state.position ≠ .endOfInput) :
    (parser rules input state).Advances reads state.position
      input.window.stop := by
  induction production generalizing state with
  | pure quiet =>
      exact .still rfl quiet
  | @bind place _ _ before _ parser
      next first rest firstAdvances restAdvances =>
      have started := firstAdvances angled state adequate unread
      simp only [Bind.bind, Action.bind]
      cases ending : parser rules input state with
      | done value after =>
          rw [ending] at started
          obtain ⟨order, inside, progress⟩ := started
          have adequateAfter :
              input.window.Suffices bound after.position
                (place.after (before value)).rank := by
            cases read : before value with
            | true => exact adequate.advance (progress read) inside
            | false => exact adequate.stay order
          have onward :=
            restAdvances value (by simpa using angled) after adequateAfter
              (by simp)
          exact onward.chain order inside progress
      | failed error after =>
          trivial
      | exhausted =>
          rw [ending] at started
          exact started
  | @forget place _ more fewer parser inner weaker innerAdvances =>
      have advanced := innerAdvances angled state adequate unread
      cases ending : parser rules input state with
      | done value after =>
          rw [ending] at advanced
          exact ⟨advanced.1, advanced.2.1, fun read =>
            advanced.2.2 (weaker value read)⟩
      | failed error after =>
          trivial
      | exhausted =>
          rw [ending] at advanced
          exact advanced
  | fail _ =>
      trivial
  | peek _ rest =>
      exact rest _ angled _ adequate id
  | peekBehind _ _ rest =>
      exact rest _ angled _ adequate unread
  | peekEnd _ _ rest =>
      exact rest _ angled _ adequate unread
  | peekSpan _ rest =>
      exact rest _ angled _ adequate unread
  | advance isUnread =>
      have inside := closed.lt_stop (unread isUnread)
      have next := Parser.behind_position inside
      have further : state.position < (Parser.behind input state).position := by
        omega
      have within : (Parser.behind input state).position ≤
          max state.position input.window.stop := by
        omega
      exact ⟨Nat.le_of_lt further, within, fun _ => further⟩
  | observe read =>
      exact .still rfl rfl
  | respecify change =>
      exact .still rfl rfl
  | retemplate _ =>
      exact .still rfl rfl
  | @inContext place _ reads start next _ _ rest =>
      have tracked : Parser.tracked input state = .done state.track state := rfl
      simp only [Bind.bind, Action.bind, tracked]
      cases state.track.template? with
      | none => trivial
      | some context => exact rest context angled state adequate unread
  | captureTo terminators =>
      exact Parser.captureTo_advances closed terminators
  | captureBraces =>
      exact Parser.captureBraces_advances closed
  | call nonterminal smaller _ _ =>
      apply advance nonterminal state
      simp only [Window.Suffices] at adequate ⊢
      omega
  | angledArgs settled smaller =>
      apply angled settled
      simp only [Window.Suffices] at adequate ⊢
      omega
  | @within place _ reads scope parser _ inner =>
      have advanced := inner angled
        { state with scopes := state.scopes.enter scope } adequate unread
      simp only [Parser.within_run]
      cases ending :
          parser rules input { state with scopes := state.scopes.enter scope }
          with
      | done value after =>
          rw [ending] at advanced
          exact advanced
      | failed error after =>
          trivial
      | exhausted =>
          rw [ending] at advanced
          exact advanced
  | @withTemplate place _ reads context parser _ inner =>
      have advanced := inner angled
        { state with track := { state.track with template? := some context } }
        adequate unread
      simp only [Parser.withTemplate_run]
      cases ending : parser rules input
          { state with track := { state.track with template? := some context } }
            with
      | done value after =>
          rw [ending] at advanced
          exact advanced
      | failed error after =>
          trivial
      | exhausted =>
          rw [ending] at advanced
          exact advanced
  | @either place _ reads first second _ _ _ tried instead =>
      have advanced := tried angled state.snapshot.2 adequate unread
      simp only [Parser.either_run, Parser.attempt]
      cases ending : first rules input state.snapshot.2 with
      | done value after =>
          rw [ending] at advanced
          exact advanced
      | failed error after =>
          exact instead angled (after.restore state.snapshot.1) adequate unread
      | exhausted =>
          rw [ending] at advanced
          exact advanced
  | add extending =>
      exact .still rfl rfl
  | addDecl name specifiers form span _ rest =>
      exact rest _ angled _ adequate fun unread => unread.elim
  | updateDecl added change =>
      exact .still rfl rfl
  | pushScope kind =>
      exact .still rfl rfl
  | scopeFor decl kind =>
      exact .still rfl rfl
  | bindDecl decl =>
      exact .still rfl rfl

/-- A production advances within a bound that suffices at its place. -/
theorem Production.advances
    {place : Place}
    {Value : Type}
    {reads : Value → Bool}
    {parser : Rules → Parser Value}
    (production : Production place reads parser)
    {rules : Rules}
    {input : ParserInput}
    {bound : Nat}
    (closed : input.window.Closed)
    (advance : rules.Advance input bound)
    (state : ParserState)
    (adequate : input.window.Suffices bound state.position place.rank)
    (unread : place.unread → input.window.kindAt state.position ≠ .endOfInput) :
    (parser rules input state).Advances reads state.position
      input.window.stop := by
  refine production.advances_of_angledArgs closed advance ?_ state adequate
    unread
  intro _ angledState angledAdequate
  have angled : Production
      { own := [], inTemplate := false,
        rank := Nonterminal.templateArgs.rank + 1
        unread := False, settled := false }
      (fun _ => true) Rules.angledArgs :=
    .args (by decide)
  exact angled.advances_of_angledArgs closed advance (by simp) angledState
    angledAdequate
    (by simp)

/-- Within any bound the nonterminals advance that the bound suffices for. -/
theorem Rules.nested_advance
    {input : ParserInput}
    (closed : input.window.Closed)
    (depth : Nat) :
    (nested depth).Advance input depth := by
  induction depth with
  | zero =>
      intro Value nonterminal state adequate
      simp [Window.Suffices] at adequate
  | succ depth inductionHypothesis =>
      intro Value nonterminal state adequate
      have production : Production
          { own := [], inTemplate := true, rank := nonterminal.rank,
            unread := False
            settled := false }
          (fun _ => nonterminal.reads)
            (fun rules => rules.produce nonterminal) :=
        .produce (by simp) (by simp) nonterminal (fun _ => rfl) (by simp) rfl
      have adequateInside :
          input.window.Suffices depth state.position nonterminal.rank := by
        simp only [Window.Suffices] at adequate ⊢
        omega
      exact production.advances closed inductionHypothesis state adequateInside
        (by simp)

/--
An outcome is that of a parser that may go on for longer, unless it is
exhausted.
-/
def Outcome.Within
    {Value : Type}
    (outcome longer : Outcome ParseError ParserState Value) :
    Prop :=
  outcome = .exhausted ∨ outcome = longer

/-- Rules that do what other rules do, unless they are exhausted. -/
def Rules.Within (rules longer : Rules) : Prop :=
  ∀ {Value : Type} (nonterminal : Nonterminal Value) (input :
    ParserInput) (state : ParserState),
    (rules.parse nonterminal input state).Within
      (longer.parse nonterminal input state)

/-- A production does the same with all rules by which it is not exhausted. -/
private theorem Production.within_of_within
    {place : Place}
    {Value : Type}
    {reads : Value → Bool}
    {parser : Rules → Parser Value}
    (production : Production place reads parser)
    (unsettled : place.settled = false)
    {rules longer : Rules}
    (within : rules.Within longer)
    (input : ParserInput)
    (state : ParserState) :
    (parser rules input state).Within (parser longer input state) := by
  induction production generalizing state with
  | @bind place _ _ before _ parser next _ _ first rest =>
      simp only [Bind.bind, Action.bind]
      rcases first unsettled state with exhausted | same
      · exact .inl (by rw [exhausted])
      · rw [same]
        cases parser longer input state with
        | done value after => exact rest value (by simpa using unsettled) after
        | failed error after => exact .inr rfl
        | exhausted => exact .inl rfl
  | forget _ _ inner =>
      exact inner unsettled state
  | peek _ rest =>
      exact rest _ unsettled state
  | peekBehind _ _ rest =>
      exact rest _ unsettled state
  | peekEnd _ _ rest =>
      exact rest _ unsettled state
  | peekSpan _ rest =>
      exact rest _ unsettled state
  | inContext _ _ rest =>
      have tracked : Parser.tracked input state = .done state.track state := rfl
      simp only [Bind.bind, Action.bind, tracked]
      cases state.track.template? with
      | none => exact .inr rfl
      | some context => exact rest context unsettled state
  | call nonterminal _ _ _ =>
      exact within nonterminal input state
  | angledArgs settled _ =>
      simp [unsettled] at settled
  | within scope _ inner =>
      simp only [Parser.within_run]
      rcases inner unsettled { state with scopes := state.scopes.enter scope }
          with
        exhausted | same
      · exact .inl (by rw [exhausted])
      · exact .inr (by rw [same])
  | withTemplate context _ inner =>
      simp only [Parser.withTemplate_run]
      rcases inner unsettled
          { state with track := { state.track with template? := some context } }
            with
        exhausted | same
      · exact .inl (by rw [exhausted])
      · exact .inr (by rw [same])
  | @either _ _ _ first _ _ _ _ tried instead =>
      simp only [Parser.either_run, Parser.attempt]
      rcases tried unsettled state.snapshot.2 with exhausted | same
      · exact .inl (by rw [exhausted])
      · rw [same]
        cases first longer input state.snapshot.2 with
        | done value after => exact .inr rfl
        | failed error after =>
            exact instead unsettled (after.restore state.snapshot.1)
        | exhausted => exact .inl rfl
  | addDecl _ _ _ _ _ rest =>
      exact rest _ unsettled _
  | _ =>
      exact .inr rfl

/-- With calls nested deeper a parse is the same, unless it was exhausted. -/
theorem Rules.nested_within {depth deeper : Nat} (order : depth ≤ deeper) :
    (nested depth).Within (nested deeper) := by
  induction depth generalizing deeper with
  | zero =>
      exact fun _ _ _ => .inl rfl
  | succ depth inductionHypothesis =>
      obtain ⟨fewer, rfl⟩ : ∃ fewer, deeper = fewer + 1 :=
        ⟨deeper - 1, by omega⟩
      intro Value nonterminal input state
      have production : Production
          { own := [], inTemplate := true, rank := nonterminal.rank,
            unread := False
            settled := false }
          (fun _ => nonterminal.reads)
            (fun rules => rules.produce nonterminal) :=
        .produce (by simp) (by simp) nonterminal (fun _ => rfl) (by simp) rfl
      exact production.within_of_within rfl (inductionHypothesis (by omega))
        input state

/-- What is done within two bounds on nested calls is done alike. -/
theorem Production.done_unique
    {place : Place}
    {Value : Type}
    {reads : Value → Bool}
    {parser : Rules → Parser Value}
    (production : Production place reads parser)
    (unsettled : place.settled = false)
    {depth deeper : Nat}
    {input : ParserInput}
    {state after deeperAfter : ParserState}
    {value deeperValue : Value}
    (run : parser (Rules.nested depth) input state = .done value after)
    (deeperRun : parser (Rules.nested deeper) input state =
      .done deeperValue deeperAfter) :
    value = deeperValue ∧ after = deeperAfter := by
  have alike : parser (Rules.nested depth) input state =
      parser (Rules.nested deeper) input state := by
    rcases Nat.le_total depth deeper with order | order
    · rcases production.within_of_within unsettled (Rules.nested_within order)
          input state with
        exhausted | same
      · rw [exhausted] at run
        cases run
      · exact same
    · rcases production.within_of_within unsettled (Rules.nested_within order)
          input state with
        exhausted | same
      · rw [exhausted] at deeperRun
        cases deeperRun
      · exact same.symm
  rw [run, deeperRun] at alike
  cases alike
  exact ⟨rfl, rfl⟩

/-- What is done within a larger bound is done within any that suffices. -/
theorem Production.done_of_suffices
    {place : Place}
    {Value : Type}
    {reads : Value → Bool}
    {parser : Rules → Parser Value}
    (production : Production place reads parser)
    (unsettled : place.settled = false)
    {depth deeper : Nat}
    (order : depth ≤ deeper)
    {input : ParserInput}
    (closed : input.window.Closed)
    {state after : ParserState}
    {value : Value}
    (adequate : input.window.Suffices depth state.position place.rank)
    (unread : place.unread → input.window.kindAt state.position ≠ .endOfInput)
    (run : parser (Rules.nested deeper) input state = .done value after) :
    parser (Rules.nested depth) input state = .done value after := by
  rcases production.within_of_within unsettled (Rules.nested_within order) input
      state with
    exhausted | same
  · have advances :=
      production.advances closed (Rules.nested_advance closed depth) state
        adequate
      unread
    rw [exhausted] at advances
    exact advances.elim
  · rw [same, run]

end Tern
