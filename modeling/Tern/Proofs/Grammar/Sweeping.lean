import Tern.Proofs.Grammar.Atomicity
import Tern.Proofs.Grammar.Passing
import Tern.Proofs.Term.Tidiness

namespace Tern

/-!
# Parsers that sweep over tokens

A parser sweeps over tokens if each of them may stand where it does, provided
that what the parser is done with is tidy. Ranges that are captured are passed
over unseen; what is known of them is owed by the term that keeps them. Some
terms are kept from before, and are then owned by what the parser is done with.
-/

/--
Whatever is done or fails, a parser composed of steps only adds to an arena.
-/
theorem Composed.leaves_extends
    {own : List DeclId}
    {Value : Type}
    {parser : Parser Value}
    (composed : Composed own parser)
    (input : ParserInput)
    {base : Arena}
    {state : ParserState}
    (extended : base.Extends state.arena)
    (past : ∀ decl ∈ own, base.decls.size ≤ decl.raw) :
    (parser input state).Leaves fun after => base.Extends after.arena := by
  induction composed generalizing base state with
  | @bind own First Value parser next _ _ first rest =>
      have ended := first extended past
      simp only [Bind.bind, Action.bind]
      cases ending : parser input state with
      | done value after =>
          rw [ending] at ended
          exact rest value ended past
      | failed error after =>
          rw [ending] at ended
          exact ended
      | exhausted => trivial
  | @orElse own Value parser handle _ _ first rest =>
      have ended := first extended past
      simp only [Action.orElse]
      cases ending : parser input state with
      | done value after =>
          rw [ending] at ended
          exact ended
      | failed error after =>
          rw [ending] at ended
          exact rest error ended past
      | exhausted => trivial
  | @speculate own Value keeps parser _ inner =>
      have watched := inner (Arena.Extends.refl state.snapshot.2.arena)
        fun _ listed => absurd listed List.not_mem_nil
      have settled (ending : Except ParseError Value) (after : ParserState)
          (inside : state.arena.Extends after.arena) :
          base.Extends
            (if keeps ending then after.release
              else after.restore state.snapshot.1).arena := by
        split
        · exact extended.trans inside
        · have back : (after.restore state.snapshot.1).arena = state.arena :=
            inside.rewind_mark
          rwa [back]
      simp only [Parser.speculate]
      cases ending : parser input state.snapshot.2 with
      | done value after =>
          rw [ending] at watched
          exact settled (.ok value) after watched
      | failed error after =>
          rw [ending] at watched
          exact settled (.error error) after watched
      | exhausted => trivial
  | @within own Value scope parser _ inner =>
      have ended :=
        @inner base { state with scopes := state.scopes.enter scope }
          extended past
      rw [Parser.within_run]
      cases ending :
          parser input { state with scopes := state.scopes.enter scope } with
      | done value after =>
          rw [ending] at ended
          exact ended
      | failed error after =>
          rw [ending] at ended
          exact ended
      | exhausted => trivial
  | @withTemplate own Value context parser _ inner =>
      have ended := @inner base
        { state with track := { state.track with template? := some context } }
          extended past
      rw [Parser.withTemplate_run]
      cases ending : parser input
          { state with track := { state.track with template? := some context } }
            with
      | done value after =>
          rw [ending] at ended
          exact ended
      | failed error after =>
          rw [ending] at ended
          exact ended
      | exhausted => trivial
  | add extending => exact extended.trans (extending _)
  | addDecl name specifiers form span _ rest =>
      refine rest { raw := state.arena.decls.size }
        (extended.trans (state.arena.extends_addDecl _)) fun decl listed => ?_
      rcases List.mem_cons.mp listed with rfl | isOwn
      · exact extended.decls.size_le
      · exact past decl isOwn
  | updateDecl added change => exact extended.updateDecl (past _ added) _
  | exhaust => trivial
  | _ => exact extended

/--
If the kind of the current token is as known and what a parser is done with is
tidy, then so are the terms kept from before, and each token that was passed may
stand where it does, from some delimiters being open to others.
-/
def Sweeps {Value : Type} (input : ParserInput) (known : TokenKind → Prop)
    (opened : List Delimiter) (kept : List Term) (left : List Delimiter)
    (roots : Value → List Term) (parser : Parser Value) : Prop :=
  ∀ (state : ParserState) {value : Value} {next : ParserState},
    known (input.window.kindAt state.position) → parser input state =
      .done value next →
      state.arena.Extends next.arena ∧ state.position ≤ next.position ∧
        ∀ base : Arena, base.Extends state.arena →
          (∀ root ∈ roots value,
            next.arena.Tidy base input.window.tokens root) →
            (∀ root ∈ kept, state.arena.Tidy base input.window.tokens root) ∧
              input.window.tokens.Nests state.position opened next.position left

/-- A parser is done where it began, and adds no terms. -/
def Parser.Stays
    {Value : Type}
    (input : ParserInput)
    (parser : Parser Value) :
    Prop :=
  ∀ state : ParserState, ∃ value after, parser input state = .done value after ∧
    after.position = state.position ∧ after.arena = state.arena

/-- A value is known by no term. -/
def noRoots {Value : Type} (_ : Value) : List Term :=
  []

/--
A parser gives a declaration that was added hollow its final form. What was
stored before the declaration may be anything; what was added since is kept.
-/
def Finishes
    (input : ParserInput)
    (decl : DeclId)
    (opened : List Delimiter)
    (kept : List Term)
    (left : List Delimiter) (parser : Parser DeclId) : Prop :=
  ∀ (base frame : Arena) (state : ParserState) {value :
    DeclId} {next : ParserState},
    base.Extends frame → frame.Extends state.arena → ¬ base.Holds (.decl decl) →
      frame.Holds (.decl decl) → parser input state = .done value next →
        value = decl ∧
          base.Extends next.arena ∧ state.position ≤ next.position ∧
          ∀ earlier : Arena, earlier.Extends base →
            next.arena.Tidy earlier input.window.tokens (.decl decl) →
              (∀ root ∈ kept, state.arena.Tidy frame input.window.tokens root) ∧
                input.window.tokens.Nests state.position opened
                  next.position left

namespace Readable

variable {opened : List Delimiter}

theorem keyword (word : Keyword) :
    Readable anyKind opened opened (.keyword word) :=
  .plain TokenKind.noConfusion trivial rfl

theorem symbol
    {symbol : Symbol}
    (level : Delimiter.close? [] (.symbol symbol) = some []) :
    Readable anyKind opened opened (.symbol symbol) :=
  .plain TokenKind.noConfusion trivial level

end Readable

namespace Sweeps

variable {Value First : Type} {input : ParserInput} {known : TokenKind → Prop}
  {opened between left : List Delimiter} {kept : List Term}
    {roots : Value → List Term}

theorem pure
    (value : Value)
    (covers : ∀ root ∈ kept, root ∈ roots value) :
    Sweeps input known opened kept opened roots (Pure.pure value) := by
  intro state found next _ run
  cases run
  exact ⟨.refl _, Nat.le_refl _, fun base _ tidy =>
    ⟨fun root listed => tidy root (covers root listed), .refl _ _⟩⟩

theorem failAt {cause : ParseCause} {span : Span} :
    Sweeps input known opened kept left roots (Parser.failAt cause span) := by
  intro state value next _ run
  cases run

theorem fail {error : ParseError} :
    Sweeps input known opened kept left roots (Action.fail error) := by
  intro state value next _ run
  cases run

/--
Some of what is kept is handed to the first part, and what that is done with to
the rest.
-/
theorem hand
    {whole : List Term}
    (taken kept : List Term)
    {parser : Parser First}
    {next : First → Parser Value}
    {mid : First → List Term}
    (split : ∀ root ∈ whole, root ∈ taken ∨ root ∈ kept)
    (first : Sweeps input known opened taken between mid parser)
    (rest : ∀ value, Sweeps input anyKind between (mid value ++ kept) left roots
      (next value)) :
    Sweeps input known opened whole left roots (parser >>= next) := by
  intro state value after isKnown run
  obtain ⟨found, middle, ending, run⟩ := Parser.done_of_bind run
  obtain ⟨extended, order, sweeps⟩ := first state isKnown ending
  obtain ⟨extendedAfter, orderAfter, sweepsAfter⟩ :=
    rest found middle trivial run
  refine ⟨extended.trans extendedAfter, Nat.le_trans order orderAfter,
    fun base older tidy => ?_⟩
  obtain ⟨keeps, onward⟩ := sweepsAfter base (older.trans extended) tidy
  obtain ⟨handed, nests⟩ := sweeps base older fun root listed =>
    keeps root (List.mem_append_left _ listed)
  refine ⟨fun root listed => ?_, nests.trans order orderAfter onward⟩
  rcases split root listed with isTaken | isKept
  · exact handed root isTaken
  · exact (Arena.Unfolds.of_extends extended).tidy
      (keeps root (List.mem_append_right _ isKept))

/-- What the first part is done with is kept for the rest. -/
theorem bind
    {parser : Parser First}
    {next : First → Parser Value}
    {mid : First → List Term}
    (first : Sweeps input known opened [] between mid parser)
    (rest : ∀ value, Sweeps input anyKind between (mid value ++ kept) left roots
      (next value)) :
    Sweeps input known opened kept left roots (parser >>= next) :=
  hand [] kept (fun _ => .inr) first rest

theorem ite {condition : Prop} [Decidable condition] {yes no : Parser Value}
    (sweepsYes : Sweeps input known opened kept left roots yes)
    (sweepsNo : Sweeps input known opened kept left roots no) :
    Sweeps input known opened kept left roots
      (if condition then yes else no) := by
  split
  · exact sweepsYes
  · exact sweepsNo

theorem forget
    {parser : Parser Value}
    (sweeps : Sweeps input anyKind opened kept left roots parser) :
    Sweeps input known opened kept left roots parser :=
  fun state _ _ _ run => sweeps state trivial run

private theorem peek
    {next : Token → Parser Value}
    (rest : ∀ token, Sweeps input (· = token.kind) opened kept left roots
      (next token)) :
    Sweeps input known opened kept left roots (Parser.current >>= next) :=
  fun state _ _ _ run =>
    rest (input.window.tokenAt state.position) state rfl run

theorem peekKind
    {next : TokenKind → Parser Value}
    (rest : ∀ kind, Sweeps input (· = kind) opened kept left roots
      (next kind)) :
    Sweeps input known opened kept left roots (Parser.currentKind >>= next) :=
  fun state _ _ _ run => rest (input.window.kindAt state.position) state rfl run

/-- Where a parser stays, the rest begins as if it were not there. -/
theorem aside
    {parser : Parser First}
    {next : First → Parser Value}
    (stays : parser.Stays input)
    (rest : ∀ value, Sweeps input known opened kept left roots (next value)) :
    Sweeps input known opened kept left roots (parser >>= next) := by
  intro state value after isKnown run
  obtain ⟨found, middle, ending, position, arena⟩ := stays state
  rw [Parser.run_bind ending] at run
  have swept := rest found middle (position ▸ isKnown) run
  rwa [position, arena] at swept

/-- A parser that stays is known by nothing. -/
theorem apart
    {parser : Parser Value}
    (stays : parser.Stays input) :
    Sweeps input known opened [] opened noRoots parser := by
  intro state value next _ run
  obtain ⟨found, after, ending, position, arena⟩ := stays state
  rw [ending] at run
  cases run
  rw [position, arena]
  exact ⟨.refl _, Nat.le_refl _, fun _ _ _ =>
    ⟨fun _ listed => absurd listed List.not_mem_nil, .refl _ _⟩⟩

/-- A term is added that nothing kept is to be owned by. -/
theorem adds
    {change : Arena → Value × Arena}
    (extending : ∀ arena : Arena, arena.Extends (change arena).2) :
    Sweeps input known opened [] opened roots (Parser.inArena change) := by
  intro state value next _ run
  cases run
  exact ⟨extending _, Nat.le_refl _, fun _ _ _ =>
    ⟨fun _ listed => absurd listed List.not_mem_nil, .refl _ _⟩⟩

section

variable (closed : input.window.Closed)

include closed

private theorem behind
    {kind : TokenKind}
    (readable : Readable anyKind opened left kind)
    {state : ParserState}
    (found : input.window.kindAt state.position = kind) :
    state.arena.Extends (Parser.behind input state).arena ∧
      state.position ≤ (Parser.behind input state).position ∧
        input.window.tokens.Nests state.position opened
          (Parser.behind input state).position left := by
  subst found
  have inside := closed.lt_stop readable.real
  obtain ⟨token, found, kind⟩ := closed.token? readable.real
  rw [Parser.behind_position inside]
  exact ⟨.refl _, Nat.le_succ _, .single found (kind ▸ readable.closes)⟩

theorem advance
    (readable : ∀ kind, known kind → Readable anyKind opened left kind) :
    Sweeps input known opened [] left noRoots Parser.advance := by
  intro state value next isKnown run
  cases run
  obtain ⟨extended, order, nests⟩ := behind closed (readable _ isKnown) rfl
  exact ⟨extended, order, fun _ _ _ =>
    ⟨fun _ listed => absurd listed List.not_mem_nil, nests⟩⟩

theorem skip
    (readable : ∀ kind, known kind → Readable anyKind opened left kind) :
    Sweeps input known opened [] left noRoots Parser.skip :=
  bind (advance closed readable) fun _ => pure _ fun _ listed =>
    absurd listed List.not_mem_nil

theorem expect
    {kind : TokenKind}
    (readable : Readable anyKind opened left kind) :
    Sweeps input known opened [] left noRoots (Parser.expect kind) := by
  intro state value next _ run
  obtain ⟨found, rfl⟩ := Parser.expect_done run
  obtain ⟨extended, order, nests⟩ := behind closed readable found
  exact ⟨extended, order, fun _ _ _ =>
    ⟨fun _ listed => absurd listed List.not_mem_nil, nests⟩⟩

omit closed in
theorem check
    {kind : TokenKind}
    {yes no : Parser Value}
    (sweepsYes : Sweeps input (· = kind) opened kept left roots yes)
    (sweepsNo : Sweeps input anyKind opened kept left roots no) :
    Sweeps input known opened kept left roots
      (Parser.check kind >>= fun found => if found = true then yes
        else no) := by
  intro state value next _ run
  have run : (if decide (input.window.kindAt state.position = kind) =
      true then yes else no)
      input state = .done value next := run
  by_cases found : input.window.kindAt state.position = kind
  · simp only [found, decide_true, ↓reduceIte] at run
    exact sweepsYes state found run
  · simp only [found, decide_false, Bool.false_eq_true, ↓reduceIte] at run
    exact sweepsNo state trivial run

theorem eat
    {kind : TokenKind}
    {yes no : Parser Value}
    (readable : Readable anyKind opened between kind)
    (sweepsYes : Sweeps input anyKind between kept left roots yes)
    (sweepsNo : Sweeps input anyKind opened kept left roots no) :
    Sweeps input known opened kept left roots
      (Parser.eat kind >>= fun found => if found = true then yes else no) := by
  have eaten : Sweeps input (· = kind) opened kept left roots
      (Parser.skip >>= fun _ => yes) :=
    bind (skip closed fun other same => same ▸ readable) fun _ => sweepsYes
  refine Eq.mp (congrArg _ ?_) (check eaten sweepsNo)
  simp only [Parser.eat, bind_assoc]
  congr 1
  funext found
  cases found <;> rfl

/-- A token that may be there neither opens nor closes a delimiter. -/
theorem eatPlain
    {kind : TokenKind}
    (readable : Readable anyKind opened opened kind) :
    Sweeps input known opened [] opened noRoots (Parser.eat kind) :=
  check (bind (skip closed fun _ same => same ▸ readable) fun _ =>
      pure _ fun _ listed => absurd listed List.not_mem_nil)
    (pure _ fun _ listed => absurd listed List.not_mem_nil)

private theorem expectIdentifier :
    Sweeps input known opened [] opened noRoots Parser.expectIdentifier := by
  refine peek fun token => ?_
  split
  next name same =>
    refine bind (skip closed fun kind found => ?_) fun _ =>
      pure _ fun _ listed => absurd listed List.not_mem_nil
    rw [found, same]
    exact .plain TokenKind.noConfusion trivial rfl
  next => exact failAt

theorem identifier :
    Sweeps input known opened [] opened noRoots Parser.identifier :=
  bind (expectIdentifier closed) fun _ => adds fun arena =>
    arena.extends_addName _ _

theorem identifierOrPlaceholder (place : Span) :
    Sweeps input known opened [] opened noRoots
      (Parser.identifierOrPlaceholder place) :=
  aside (fun _ => ⟨_, _, rfl, rfl, rfl⟩) fun _ => ite (identifier closed)
    (adds fun arena => arena.extends_addPlaceholder place)

end

theorem addType (form : TypeForm) (span : Span) (roots : TypeId → List Term) :
    Sweeps input known opened [] opened roots (Parser.addType form span) :=
  adds fun arena => arena.extends_addType form span

/-- A term is added that owns what is kept. -/
private theorem owning
    {parser : Parser Value}
    {term : Value → Term}
    (adds : ∀ (state : ParserState) {value : Value} {next : ParserState},
      parser input state = .done value next →
        next.position = state.position ∧ state.arena.Extends next.arena ∧
          ¬ state.arena.Holds (term value) ∧ next.arena.Holds (term value) ∧
            ∀ root ∈ kept, root ∈ next.arena.children (term value)) :
    Sweeps input known opened kept opened (fun value => [term value])
      parser := by
  intro state value next _ run
  obtain ⟨position, extended, new, held, owned⟩ := adds state run
  refine ⟨extended, Nat.le_of_eq position.symm, fun base older tidy =>
    ⟨fun root listed => ?_, ?_⟩⟩
  · have reached : next.arena.Reaches base (term value) root :=
      .child .self held (fun was => new (older.holds was)) (owned root listed)
    exact (Arena.Unfolds.of_extends extended).tidy
      ((tidy _ (List.mem_singleton_self _)).below reached)
  · rw [position]
    exact .refl _ _

theorem addStmt
    {form : StmtForm}
    (owned : ∀ root ∈ kept, root ∈ form.children)
    (span : Span) :
    Sweeps input known opened kept opened (fun stmt => [.stmt stmt])
      (Parser.addStmt form span) :=
  owning fun state value next run => by
    cases run
    refine ⟨rfl, state.arena.extends_addStmt form span, Nat.lt_irrefl _, ?_,
      fun root listed => ?_⟩
    · exact (Arena.Adds.stmt form span).holds.mpr (.inr rfl)
    · rw [Arena.children, Arena.stmt_addStmt]
      exact owned root listed

theorem addDefinition
    {form : DefForm}
    (owned : ∀ root ∈ kept, root ∈ form.children)
    (span : Span) :
    Sweeps input known opened kept opened
      (fun definition => [.definition definition])
      (Parser.addDefinition form span) :=
  owning fun state value next run => by
    cases run
    refine ⟨rfl, state.arena.extends_addDefinition form span,
      Nat.lt_irrefl _, ?_,
      fun root listed => ?_⟩
    · exact (Arena.Adds.definition form span).holds.mpr (.inr rfl)
    · rw [Arena.children, Arena.definition_addDefinition]
      exact owned root listed

theorem addDecl
    (name : NameId)
    (specifiers : Specifiers)
    {form : DeclForm}
    (owned : ∀ root ∈ kept, root ∈ form.children)
    (span : Span) :
    Sweeps input known opened kept opened (fun decl => [.decl decl])
      (Parser.addDecl name specifiers form span) :=
  owning fun state value next run => by
    cases run
    refine ⟨rfl, state.arena.extends_addDecl _, Nat.lt_irrefl _, ?_,
      fun root listed => ?_⟩
    · exact (Arena.holds_addDecl _).mpr (.inr rfl)
    · rw [Arena.children, Arena.decl_addDecl]
      exact List.mem_cons_of_mem _ (owned root listed)

/-- A declaration is added that captures nothing. -/
theorem addPlainDecl
    (name : NameId)
    (specifiers : Specifiers)
    (form : DeclForm)
    (span : Span) :
    Sweeps input known opened [] opened noRoots
      (Parser.addDecl name specifiers form span) := by
  intro state value next _ run
  cases run
  exact ⟨state.arena.extends_addDecl _, Nat.le_refl _, fun _ _ _ =>
    ⟨fun _ listed => absurd listed List.not_mem_nil, .refl _ _⟩⟩

/--
A range of tokens is passed over, and added as a term that owes what is not
known of it.
-/
theorem capturing
    {capture : Parser TokenRange}
    {rest : TokenRange → Parser Value}
    {term : Value → Term}
    (takes : ∀ (state : ParserState) {range : TokenRange} {next : ParserState},
      capture input state = .done range next →
        range = { start := state.position, stop := next.position } ∧
          state.position ≤ next.position ∧ next.arena = state.arena)
    (adds : ∀ (range : TokenRange) (state : ParserState) {value :
      Value} {next : ParserState},
      rest range input state = .done value next →
        next.position = state.position ∧ state.arena.Extends next.arena ∧
          ¬ state.arena.Holds (term value) ∧
            next.arena.range? (term value) = some range) :
    Sweeps input known opened [] opened (fun value => [term value])
      (capture >>= rest) := by
  intro state value next _ run
  obtain ⟨range, middle, captured, run⟩ := Parser.done_of_bind run
  obtain ⟨rfl, order, arena⟩ := takes state captured
  obtain ⟨position, extended, new, found⟩ := adds _ middle run
  rw [arena] at extended new
  rw [position]
  refine ⟨extended, order, fun base older tidy =>
    ⟨fun _ listed => absurd listed List.not_mem_nil, ?_⟩⟩
  have balances :=
    tidy (term value) (List.mem_singleton_self _) (term value) _ .self
    (fun was => new (older.holds was)) found
  simpa using Tokens.Nests.frame balances opened

theorem within
    (scope : ScopeId)
    {parser : Parser Value}
    (inner : Sweeps input known opened kept left roots parser) :
    Sweeps input known opened kept left roots (Parser.within scope parser) := by
  intro state value next isKnown run
  rw [Parser.within_run] at run
  cases ending :
      parser input { state with scopes := state.scopes.enter scope } with
  | done found after =>
      rw [ending] at run
      cases run
      have swept :=
        inner { state with scopes := state.scopes.enter scope } isKnown ending
      exact swept
  | failed error after =>
      rw [ending] at run
      cases run
  | exhausted =>
      rw [ending] at run
      cases run

theorem withTemplate
    (context : TemplateContext)
    {parser : Parser Value}
    (inner : Sweeps input known opened kept left roots parser) :
    Sweeps input known opened kept left (fun result => roots result.1)
      (Parser.withTemplate context parser) := by
  intro state value next isKnown run
  rw [Parser.withTemplate_run] at run
  cases ending : parser input
      { state with track := { state.track with template? := some context } }
        with
  | done found after =>
      rw [ending] at run
      cases run
      have swept :=
        inner { state with
                track := { state.track with template? := some context } }
        isKnown ending
      exact swept
  | failed error after =>
      rw [ending] at run
      cases run
  | exhausted =>
      rw [ending] at run
      cases run

/-- What is tried and fails is taken back before another parser sweeps. -/
theorem either
    {first second : Parser Value}
    (composed : Composed [] first)
    (tried : Sweeps input known opened kept left roots first)
    (instead : Sweeps input known opened kept left roots second) :
    Sweeps input known opened kept left roots (Parser.either first second) := by
  intro state value next isKnown run
  have leaves :=
    composed.leaves_extends input (Arena.Extends.refl state.snapshot.2.arena)
    fun _ listed => absurd listed List.not_mem_nil
  simp only [Parser.either_run, Parser.attempt] at run
  cases ending : first input state.snapshot.2 with
  | done found after =>
      rw [ending] at run
      cases run
      have swept := tried state.snapshot.2 isKnown ending
      exact swept
  | failed error after =>
      rw [ending] at run leaves
      have back : (after.restore state.snapshot.1).arena = state.arena :=
        Arena.Extends.rewind_mark leaves
      have swept := instead (after.restore state.snapshot.1) isKnown run
      rwa [back] at swept
  | exhausted =>
      rw [ending] at run
      cases run

/-- What sweeps at its own level sweeps inside any delimiters. -/
theorem frame
    {parser : Parser Value}
    {closes : List Delimiter}
    (sweeps : Sweeps input anyKind closes [] [] roots parser)
    (outer : List Delimiter) :
    Sweeps input known (closes ++ outer) [] outer roots parser := by
  intro state value next _ run
  obtain ⟨extended, order, onward⟩ := sweeps state trivial run
  refine ⟨extended, order, fun base older tidy => ?_⟩
  obtain ⟨keeps, nests⟩ := onward base older tidy
  exact ⟨keeps, nests.frame outer⟩

/--
What is a passage captures nothing, so it sweeps whatever it is done with.
-/
theorem quiet
    {clear : TokenKind → Prop}
    {parser : Parser Value}
    (composed : Composed [] parser)
    (passes : Passes input clear anyKind [] (fun _ => []) parser)
    (roots : Value → List Term) :
    Sweeps input known opened [] opened roots parser := by
  intro state value next _ run
  have leaves := composed.leaves_extends input (Arena.Extends.refl state.arena)
    fun _ listed => absurd listed List.not_mem_nil
  rw [run] at leaves
  obtain ⟨-, passage, nests⟩ :=
    passes state state.track.delimiters trivial rfl run
  exact ⟨leaves, passage.le, fun _ _ _ =>
    ⟨fun _ listed =>
      absurd listed List.not_mem_nil, by simpa using nests.frame opened⟩⟩

end Sweeps

namespace Finishes

variable {First : Type} {input : ParserInput} {decl : DeclId}
  {opened between left : List Delimiter} {kept : List Term}

theorem bind
    {parser : Parser First}
    {next : First → Parser DeclId}
    {mid : First → List Term}
    (first : Sweeps input anyKind opened [] between mid parser)
    (rest : ∀ value, Finishes input decl between (mid value ++ kept) left
      (next value)) :
    Finishes input decl opened kept left (parser >>= next) := by
  intro base frame state value after older extended new held run
  obtain ⟨found, middle, ending, run⟩ := Parser.done_of_bind run
  obtain ⟨onward, order, sweeps⟩ := first state trivial ending
  obtain ⟨same, completed, orderAfter, finishes⟩ :=
    rest found base frame middle older (extended.trans onward) new held run
  refine ⟨same, completed, Nat.le_trans order orderAfter,
    fun earlier before tidy => ?_⟩
  obtain ⟨keeps, nestsAfter⟩ := finishes earlier before tidy
  obtain ⟨-, nests⟩ := sweeps frame extended fun root listed =>
    keeps root (List.mem_append_left _ listed)
  refine ⟨fun root listed => ?_, nests.trans order orderAfter nestsAfter⟩
  exact (Arena.Unfolds.of_extends onward).tidy
    (keeps root (List.mem_append_right _ listed))

/-- Where a parser stays, the rest begins as if it were not there. -/
theorem aside
    {parser : Parser First}
    {next : First → Parser DeclId}
    (stays : parser.Stays input)
    (rest : ∀ value, Finishes input decl opened kept left (next value)) :
    Finishes input decl opened kept left (parser >>= next) := by
  intro base frame state value after older extended new held run
  obtain ⟨found, middle, ending, position, arena⟩ := stays state
  rw [Parser.run_bind ending] at run
  have finishes :=
    rest found base frame middle older (arena ▸ extended) new held run
  rwa [position, arena] at finishes

/--
The declaration gets a form that owns what is kept, and is what the parser is
done with. The frame stores the declaration, so no way that starts from what is
kept leads through it.
-/
theorem update
    {change : Arena → Decl → Decl}
    {rest : Parser DeclId}
    (owned : ∀ arena old, ∀ root ∈ kept,
      root ∈ (change arena old).form.children)
    (ends : ∀ state : ParserState, ∃ after, rest input state =
      .done decl after ∧
      after.position = state.position ∧ after.arena = state.arena) :
    Finishes input decl opened kept opened
      (Action.modify (fun state : ParserState => { state with
        arena := state.arena.updateDecl decl (change state.arena) }) >>=
          fun _ => rest) := by
  intro base frame state value next older extended new held run
  obtain ⟨_, middle, updates, run⟩ := Parser.done_of_bind run
  cases updates
  obtain ⟨after, ending, position, arena⟩ := ends { state with
    arena := state.arena.updateDecl decl (change state.arena) }
  rw [ending] at run
  cases run
  have stored := extended.holds held
  have past : base.decls.size ≤ decl.raw := Nat.le_of_not_lt new
  rw [position, arena]
  refine ⟨rfl, (older.trans extended).updateDecl past _,
      Nat.le_refl _, fun earlier before tidy =>
    ⟨fun root listed => ?_, .refl _ _⟩⟩
  have reached : (state.arena.updateDecl decl (change state.arena)).Reaches
      earlier (.decl decl)
      root := by
    refine .child .self ((Arena.holds_updateDecl _ _).mpr stored)
      (fun was => new (before.holds was)) ?_
    rw [Arena.children, Arena.decl_updateDecl stored]
    exact List.mem_cons_of_mem _ (owned _ _ root listed)
  exact (Arena.Unfolds.updateDecl held _).tidy
    ((tidy.below reached).anti (before.trans older).holds)

/-- The declaration is given its final form and span. -/
theorem complete
    {form : DeclForm}
    (span : Span)
    (owned : ∀ root ∈ kept, root ∈ form.children) :
    Finishes input decl opened kept opened
      (Parser.completeDecl decl form span >>= fun _ => Pure.pure decl) :=
  @update input decl opened kept
    (fun _ old => { old with form := form, span := span }) _
    (fun _ _ => owned) fun _ => ⟨_, rfl, rfl, rfl⟩

end Finishes

/-- A declaration is added hollow and completed behind that. -/
theorem Sweeps.declare
    {input : ParserInput}
    {known : TokenKind → Prop}
    {opened left : List Delimiter}
    {name : NameId}
    {specifiers : Specifiers}
    {form : DeclForm}
    {span : Span}
    {next : DeclId → Parser DeclId}
    (rest : ∀ decl, Finishes input decl opened [] left (next decl)) :
    Sweeps input known opened [] left (fun decl => [.decl decl])
      (Parser.addDecl name specifiers form span >>= next) := by
  intro state value after _ run
  obtain ⟨decl, middle, adds, run⟩ := Parser.done_of_bind run
  cases adds
  obtain ⟨rfl, extended, order, finishes⟩ := rest _ state.arena _ _
    (state.arena.extends_addDecl _) (.refl _) (Arena.not_holds_addDecl _)
    ((Arena.holds_addDecl _).mpr (.inr rfl)) run
  refine ⟨extended, order, fun base older tidy => ?_⟩
  obtain ⟨-, nests⟩ := finishes base older (tidy _ (List.mem_singleton_self _))
  exact ⟨fun _ listed => absurd listed List.not_mem_nil, nests⟩

end Tern
