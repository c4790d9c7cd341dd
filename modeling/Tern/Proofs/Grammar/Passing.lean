import Tern.Proofs.Grammar.Runs
import Tern.Proofs.Grammar.Termination
import Tern.Proofs.Token.Nesting

namespace Tern

/-!
# Types and expressions close what they open

A type or an expression that is parsed is a passage over its tokens: it closes
the delimiters that it has opened and no others, and outside of them it reads no
terminator. The suffixes of a type also read no comma and no angle there.
-/

/--
A token that may be read with some delimiters open, and those open behind it.
-/
structure Readable (clear : TokenKind → Prop) (opened left : List Delimiter)
    (kind : TokenKind) : Prop where
  real : kind ≠ .endOfInput
  cleared : opened = [] → clear kind
  closes : Delimiter.close? opened kind = some left

namespace Readable

variable {clear : TokenKind → Prop} {opened left : List Delimiter}

/-- A token that closes a delimiter may be read where one is open. -/
private theorem nested
    {kind : TokenKind}
    (readable : Readable clear opened left kind)
    (closes : kind.closes?.isSome = true) :
    opened ≠ [] := by
  rintro rfl
  have stands := readable.closes
  cases kind with
  | symbol symbol => cases symbol <;>
      simp_all [TokenKind.closes?, Delimiter.close?]
  | _ => cases closes

/-- A token that neither opens nor closes a delimiter may be read. -/
theorem plain
    {kind : TokenKind}
    (real : kind ≠ .endOfInput)
    (cleared : clear kind)
    (level : Delimiter.close? [] kind = some []) :
    Readable clear opened opened kind where
  real := real
  cleared := fun _ => cleared
  closes := Delimiter.close?_frame level opened

/--
Inside a delimiter a token of any kind may be read that neither opens nor closes
one.
-/
private theorem plain_inside
    {delimiter : Delimiter}
    {kind : TokenKind}
    (real : kind ≠ .endOfInput)
    (level : Delimiter.close? [] kind = some []) :
    Readable clear (delimiter :: opened) (delimiter :: opened) kind where
  real := real
  cleared := nofun
  closes := Delimiter.close?_frame level (delimiter :: opened)

/-- An opener may be read. -/
theorem opener
    {delimiter : Delimiter}
    (cleared : clear delimiter.opener) :
    Readable clear opened (delimiter :: opened) delimiter.opener where
  real := nofun
  cleared := fun _ => cleared
  closes := rfl

/-- A closer may be read where its delimiter is the innermost one. -/
theorem closer (delimiter : Delimiter) :
    Readable clear (delimiter :: opened) opened delimiter.closer where
  real := nofun
  cleared := nofun
  closes := if_pos rfl

end Readable

/--
The tokens that end declared types and initializers, statements and
requirements.
-/
inductive Terminator : TokenKind → Prop where
  | semicolon : Terminator (.symbol .semicolon)
  | assign : Terminator (.symbol .assign)

/-- The tokens that end none of these. -/
def unterminated (kind : TokenKind) : Prop :=
  ¬ Terminator kind

/--
What a parser is done with is a passage, from some delimiters being open of
those opened since a level to others, if the kind of the current token is as
known. Each token in it may stand where it does.
-/
def Passes {Value : Type} (input : ParserInput) (clear known : TokenKind → Prop)
    (opened : List Delimiter) (left : Value → List Delimiter)
      (parser : Parser Value) : Prop :=
  ∀ (state : ParserState) (outer : List Delimiter) {value :
    Value} {next : ParserState},
    known (input.window.kindAt state.position) →
    state.track.delimiters = opened ++ outer →
    parser input state = .done value next →
    next.track.delimiters = left value ++ outer ∧
      Passage input.window clear state.position opened
        next.position (left value) ∧
        input.window.tokens.Nests state.position opened
          next.position (left value)

/-- Nothing is known of the current token. -/
def anyKind (_ : TokenKind) : Prop :=
  True

namespace Passes

variable {input : ParserInput} {clear known : TokenKind → Prop}
  {opened : List Delimiter}
  {First Value : Type} {left : Value → List Delimiter}

/-- A parser that neither reads a token nor opens or closes a delimiter. -/
private theorem still
    {parser : Parser Value}
    (stays : ∀ (state : ParserState) {value : Value} {next : ParserState},
      parser input state = .done value next →
      next.position = state.position ∧
        next.track.delimiters = state.track.delimiters) :
    Passes input clear known opened (fun _ => opened) parser := by
  intro state outer value next _ opens run
  obtain ⟨position, delimiters⟩ := stays state run
  rw [position, delimiters]
  exact ⟨opens, .here _ _, .refl _ _⟩

theorem pure (value : Value) :
    Passes input clear known opened (fun _ => opened) (Pure.pure value) :=
  still fun state value next run => by
    cases run
    exact ⟨rfl, rfl⟩

private theorem failAt {cause : ParseCause} {span : Span} :
    Passes input clear known opened left (Parser.failAt cause span) := by
  intro state outer value next _ _ run
  cases run

theorem bind
    {parser : Parser First}
    {next : First → Parser Value}
    {between : First → List Delimiter}
    (first : Passes input clear known opened between parser)
    (rest : ∀ value, Passes input clear anyKind (between value) left
      (next value)) :
    Passes input clear known opened left (parser >>= next) := by
  intro state outer value after isKnown opens run
  simp only [Bind.bind, Action.bind] at run
  cases ending : parser input state with
  | done found middle =>
      rw [ending] at run
      obtain ⟨opensMiddle, passage, nests⟩ :=
        first state outer isKnown opens ending
      obtain ⟨opensAfter, onward, nestsOnward⟩ :=
        rest found middle outer trivial opensMiddle run
      exact ⟨opensAfter, passage.trans onward,
        nests.trans passage.le onward.le nestsOnward⟩
  | failed error middle =>
      rw [ending] at run
      cases run
  | exhausted =>
      rw [ending] at run
      cases run

theorem ite {condition : Prop} [Decidable condition] {yes no : Parser Value}
    (passesYes : Passes input clear known opened left yes)
    (passesNo : Passes input clear known opened left no) :
    Passes input clear known opened left (if condition then yes else no) := by
  split
  · exact passesYes
  · exact passesNo

private theorem forget
    {parser : Parser Value}
    (passes : Passes input clear anyKind opened left parser) :
    Passes input clear known opened left parser :=
  fun state outer _ _ _ opens run => passes state outer trivial opens run

private theorem peek
    {next : Token → Parser Value}
    (rest : ∀ token, Passes input clear (· = token.kind) opened left
      (next token)) :
    Passes input clear known opened left (Parser.current >>= next) :=
  fun state outer _ _ _ opens run =>
    rest (input.window.tokenAt state.position) state outer rfl opens run

private theorem peekKind
    {next : TokenKind → Parser Value}
    (rest : ∀ kind, Passes input clear (· = kind) opened left (next kind)) :
    Passes input clear known opened left (Parser.currentKind >>= next) :=
  fun state outer _ _ _ opens run =>
    rest (input.window.kindAt state.position) state outer rfl opens run

private theorem peekSpan
    {next : Span → Parser Value}
    (rest : ∀ span, Passes input clear known opened left (next span)) :
    Passes input clear known opened left (Parser.currentSpan >>= next) :=
  fun state outer _ _ isKnown opens run => rest _ state outer isKnown opens run

variable (closed : input.window.Closed)

include closed

private theorem behind
    {kind : TokenKind}
    {left : List Delimiter}
    (readable : Readable clear opened left kind)
    {state : ParserState}
    (found : input.window.kindAt state.position = kind)
    {outer : List Delimiter}
    (opens : state.track.delimiters = opened ++ outer) :
    (Parser.behind input state).track.delimiters = left ++ outer ∧
      Passage input.window clear state.position opened
          (Parser.behind input state).position left ∧
        input.window.tokens.Nests state.position opened
          (Parser.behind input state).position left := by
  subst found
  have inside := closed.lt_stop readable.real
  have next := Parser.behind_position inside
  have follow := Delimiter.follow_of_close? readable.closes
  refine ⟨?_, ?_, ?_⟩
  · rw [← follow]
    exact Parser.behind_delimiters opens readable.nested
  · rw [next, ← follow]
    exact .single inside readable.real readable.cleared readable.nested
  · obtain ⟨token, found, kind⟩ := closed.token? readable.real
    rw [next]
    exact .single found (kind ▸ readable.closes)

private theorem advance
    {left : List Delimiter}
    (readable : ∀ kind, known kind → Readable clear opened left kind) :
    Passes input clear known opened (fun _ => left) Parser.advance := by
  intro state outer value next isKnown opens run
  cases run
  exact behind closed (readable _ isKnown) rfl opens

theorem skip
    {left : List Delimiter}
    (readable : ∀ kind, known kind → Readable clear opened left kind) :
    Passes input clear known opened (fun _ => left) Parser.skip :=
  bind (advance closed readable) fun _ => pure _

theorem expect
    {kind : TokenKind}
    {left : List Delimiter}
    (readable : Readable clear opened left kind) :
    Passes input clear known opened (fun _ => left) (Parser.expect kind) := by
  intro state outer value next _ opens run
  by_cases found : input.window.kindAt state.position = kind
  · rw [Parser.expect_run_of_eq found] at run
    cases run
    exact behind closed readable found opens
  · obtain ⟨failure, failed⟩ := Parser.expect_run_of_ne found
    rw [failed] at run
    cases run

omit closed in
theorem check
    {kind : TokenKind}
    {yes no : Parser Value}
    (passesYes : Passes input clear (· = kind) opened left yes)
    (passesNo : Passes input clear anyKind opened left no) :
    Passes input clear known opened left
      (Parser.check kind >>= fun found => if found = true then yes
        else no) := by
  intro state outer value next _ opens run
  by_cases found : input.window.kindAt state.position = kind
  · have checked : Parser.check kind input state = .done true state :=
      congrArg (Outcome.done · state) (decide_eq_true found)
    simp only [Bind.bind, Action.bind, checked, ↓reduceIte] at run
    exact passesYes state outer found opens run
  · have checked : Parser.check kind input state = .done false state :=
      congrArg (Outcome.done · state) (decide_eq_false found)
    simp only [Bind.bind, Action.bind, checked, Bool.false_eq_true, ↓reduceIte]
      at run
    exact passesNo state outer trivial opens run

theorem eat
    {kind : TokenKind}
    {yes no : Parser Value}
    {between : List Delimiter}
    (readable : Readable clear opened between kind)
    (passesYes : Passes input clear anyKind between left yes)
    (passesNo : Passes input clear anyKind opened left no) :
    Passes input clear known opened left
      (Parser.eat kind >>= fun found => if found = true then yes else no) := by
  have eaten : Passes input clear (· = kind) opened left
      (Parser.skip >>= fun _ => yes) :=
    bind (skip closed fun other same => same ▸ readable) fun _ => passesYes
  refine Eq.mp (congrArg _ ?_) (check eaten passesNo)
  simp only [Parser.eat, bind_assoc]
  congr 1
  funext found
  cases found <;> rfl

private theorem expectIdentifier (cleared : ∀ name, clear (.identifier name)) :
    Passes input clear known opened (fun _ => opened)
      Parser.expectIdentifier := by
  refine peek fun token => ?_
  split
  next name same =>
    exact bind (skip closed fun kind found => by
      rw [found, same]
      exact .plain nofun (cleared name) rfl) fun _ => pure _
  next =>
    exact failAt

omit closed

private theorem observe (read : ParserInput → ParserState → Value) :
    Passes input clear known opened (fun _ => opened)
      (fun input state => .done (read input state) state) :=
  still fun state value next run => by
    cases run
    exact ⟨rfl, rfl⟩

private theorem inArena (change : Arena → Value × Arena) :
    Passes input clear known opened (fun _ => opened) (Parser.inArena change) :=
  still fun state value next run => by
    cases run
    exact ⟨rfl, rfl⟩

private theorem inScopes (change : Scopes → Value × Scopes) :
    Passes input clear known opened (fun _ => opened)
      (Parser.inScopes change) :=
  still fun state value next run => by
    cases run
    exact ⟨rfl, rfl⟩

private theorem addDecl
    (name : NameId)
    (specifiers : Specifiers)
    (form : DeclForm)
    (span : Span) :
    Passes input clear known opened (fun _ => opened)
      (Parser.addDecl name specifiers form span) :=
  still fun state value next run => by
    cases run
    exact ⟨rfl, rfl⟩

private theorem bindDecl (decl : DeclId) :
    Passes input clear known opened (fun _ => opened) (Parser.bindDecl decl) :=
  still fun state value next run => by
    cases run
    exact ⟨rfl, rfl⟩

theorem spanFrom (start : Span) :
    Passes input clear known opened (fun _ => opened) (Parser.spanFrom start) :=
  observe fun input state =>
    start.merge (input.window.spanBefore state.position)

private theorem behindPrevious :
    Passes input clear known opened (fun _ => opened) Parser.behindPrevious :=
  observe fun input state =>
    Span.point (input.window.spanBefore state.position).stop

private theorem arena :
    Passes input clear known opened (fun _ => opened) Parser.arena :=
  observe fun _ state => state.arena

private theorem lookup? (name : Name) :
    Passes input clear known opened (fun _ => opened) (Parser.lookup? name) :=
  observe fun _ state => state.scopes.find? state.scopes.current (.simple name)

private theorem textOf (name : Name) :
    Passes input clear known opened (fun _ => opened) (Parser.textOf name) :=
  observe fun input _ => input.names.text name

private theorem addName (form : NameForm) (span : Span) :
    Passes input clear known opened (fun _ => opened)
      (Parser.addName form span) :=
  inArena _

theorem addType (form : TypeForm) (span : Span) :
    Passes input clear known opened (fun _ => opened)
      (Parser.addType form span) :=
  inArena _

private theorem addExpr (form : ExprForm) (span : Span) :
    Passes input clear known opened (fun _ => opened)
      (Parser.addExpr form span) :=
  inArena _

private theorem within
    (scope : ScopeId)
    {parser : Parser Value}
    (inner : Passes input clear known opened left parser) :
    Passes input clear known opened left (Parser.within scope parser) := by
  intro state outer value next isKnown opens run
  rw [Parser.within_run] at run
  cases ending :
      parser input { state with scopes := state.scopes.enter scope } with
  | done found after =>
      rw [ending] at run
      cases run
      have passed :=
        inner { state with scopes := state.scopes.enter scope } outer isKnown
          opens ending
      exact passed
  | failed error after =>
      rw [ending] at run
      cases run
  | exhausted =>
      rw [ending] at run
      cases run

private theorem either
    {first second : Parser Value}
    (tried : Passes input clear known opened left first)
    (instead : Passes input clear known opened left second) :
    Passes input clear known opened left (Parser.either first second) := by
  intro state outer value next isKnown opens run
  simp only [Parser.either_run, Parser.attempt] at run
  cases ending : first input state.snapshot.2 with
  | done found after =>
      rw [ending] at run
      cases run
      have passed := tried state.snapshot.2 outer isKnown opens ending
      exact passed
  | failed error after =>
      rw [ending] at run
      exact instead (after.restore state.snapshot.1) outer isKnown opens run
  | exhausted =>
      rw [ending] at run
      cases run

/-- A passage at its own level is one inside any delimiters. -/
private theorem frame
    {parser : Parser Value}
    (passes : Passes input clear known [] (fun _ => []) parser)
    (opened : List Delimiter) :
    Passes input clear known opened (fun _ => opened) parser := by
  intro state outer value next isKnown opens run
  obtain ⟨delimiters, passage, nests⟩ :=
    passes state (opened ++ outer) isKnown opens run
  exact ⟨delimiters, by simpa using passage.frame opened,
    by simpa using nests.frame opened⟩

/-- Inside delimiters tokens of all kinds are clear. -/
private theorem enclose
    {parser : Parser Value}
    {other : TokenKind → Prop}
    (passes : Passes input other known [] (fun _ => []) parser)
    (enclosed : opened ≠ []) :
    Passes input clear known opened (fun _ => opened) parser := by
  intro state outer value next isKnown opens run
  obtain ⟨delimiters, passage, nests⟩ :=
    passes state (opened ++ outer) isKnown opens run
  exact ⟨delimiters, by simpa using passage.enclose enclosed,
    by simpa using nests.frame opened⟩

end Passes

namespace Nonterminal

variable {Value : Type}

/-- Whether a nonterminal occurs in types and expressions. -/
def inExpressions : Nonterminal Value → Bool
  | .type => true
  | .unaryType => true
  | .typeSuffixes _ _ => true
  | .listedTypes _ => true
  | .templateArgs => true
  | .tier _ => true
  | .operations _ _ => true
  | .unary => true
  | .postfixes _ _ => true
  | .expressions => true
  | .requirements => true
  | .paramSpecifiers _ => true
  | .params bound => bound
  | _ => false

/-- The delimiters that a nonterminal closes though it has not opened them. -/
def opened : Nonterminal Value → List Delimiter
  | .requirements => [.brace]
  | _ => []

end Nonterminal

namespace Rules

/-- All nonterminals in types and expressions are passages. -/
def Passing (rules : Rules) (input : ParserInput) : Prop :=
  ∀ {Value : Type} (nonterminal : Nonterminal Value),
    nonterminal.inExpressions = true →
    Passes input unterminated anyKind nonterminal.opened (fun _ => [])
      (rules.parse nonterminal)

namespace Passing

open Tern.Passes

variable {rules : Rules} {input : ParserInput} {known clear : TokenKind → Prop}
  {opened : List Delimiter} (passing : rules.Passing input)
    (closed : input.window.Closed)

include passing

theorem call {Value : Type} (nonterminal : Nonterminal Value)
    (occurs : nonterminal.inExpressions = true)
      (opens : nonterminal.opened = []) :
    Passes input unterminated known opened (fun _ => opened)
      (rules.parse nonterminal) := by
  have passes := passing nonterminal occurs
  rw [opens] at passes
  exact passes.forget.frame opened

private theorem callInside {Value : Type} (nonterminal : Nonterminal Value)
    (occurs : nonterminal.inExpressions = true)
      (opens : nonterminal.opened = [])
    (enclosed : opened ≠ []) :
    Passes input clear known opened (fun _ => opened)
      (rules.parse nonterminal) := by
  have passes := passing nonterminal occurs
  rw [opens] at passes
  exact passes.forget.enclose enclosed

theorem expression :
    Passes input unterminated known opened (fun _ => opened) rules.expression :=
  passing.call (.tier .or) rfl rfl

private theorem typeArg :
    Passes input unterminated known opened (fun _ => opened) rules.typeArg :=
  bind (passing.call .type rfl rfl) fun _ => peek fun _ => ite (pure _) failAt

private theorem exprArg :
    Passes input unterminated known opened (fun _ => opened) rules.exprArg :=
  bind (passing.call (.tier .shift) rfl rfl) fun _ => pure _

private theorem templateArg :
    Passes input unterminated known opened (fun _ => opened)
      rules.templateArg :=
  either passing.typeArg passing.exprArg

theorem orNone
    {Value : Type}
    (closer : TokenKind)
    (items : Nonterminal (List Value))
    (occurs : items.inExpressions = true) (opens : items.opened = []) :
    Passes input unterminated known opened (fun _ => opened)
      (rules.orNone closer items) :=
  check (pure _) (passing.call items occurs opens)

include closed

private theorem templateArgs :
    Passes input unterminated known opened (fun _ => opened)
      rules.templateArgs :=
  bind passing.templateArg fun _ => eat closed (.plain nofun nofun rfl)
    (bind (passing.call .templateArgs rfl rfl) fun _ => pure _) (pure _)

private theorem angledArgs :
    Passes input unterminated known opened (fun _ => opened) rules.angledArgs :=
  bind (passing.orNone _ .templateArgs rfl rfl) fun _ =>
    bind (expect closed (.plain nofun nofun rfl)) fun _ => pure _

private theorem appliedName (decl : DeclId) (name : Name) (span : Span) :
    Passes input unterminated known opened (fun _ => opened)
      (rules.appliedName decl name span) :=
  eat closed (.plain nofun nofun rfl)
    (bind (passing.angledArgs closed) fun _ => bind (spanFrom _) fun _ =>
      addName _ _)
    (addName _ _)

private theorem nameOf
    (decl : DeclId)
    (takesArgs : Bool)
    (name : Name)
    (span : Span) :
    Passes input unterminated known opened (fun _ => opened)
      (rules.nameOf decl takesArgs name span) :=
  ite (passing.appliedName closed decl name span) (addName _ _)

private theorem namedType :
    Passes input unterminated known opened (fun _ => opened)
      rules.namedType := by
  refine bind (expectIdentifier closed nofun) fun named =>
    bind (lookup? _) fun found => ?_
  cases found with
  | none =>
      exact bind (textOf _) fun _ => failAt
  | some decls =>
      refine bind arena fun arena => ?_
      cases arena.typeAmong? decls with
      | none =>
          exact bind (textOf _) fun _ => failAt
      | some decl =>
          exact bind (passing.nameOf closed _ _ _ _) fun _ =>
            bind (spanFrom _) fun _ =>
            addType _ _

private theorem parenthesizedType :
    Passes input unterminated known opened (fun _ => opened)
      rules.parenthesizedType := by
  refine peekSpan fun start => bind (expect closed (.opener nofun)) fun _ =>
    bind (passing.call (.listedTypes _) rfl rfl) fun listed =>
      bind (expect closed (.closer _)) fun _ =>
        eat closed (.plain nofun nofun rfl)
        (bind (passing.call .type rfl rfl) fun _ => bind (spanFrom _) fun _ =>
          addType _ _) ?_
  split
  · exact pure _
  · exact bind (spanFrom _) fun _ => addType _ _

private theorem decltype :
    Passes input unterminated (· = .keyword .decltypeWord) opened
      (fun _ => opened)
      rules.decltype :=
  peekSpan fun _ =>
    bind (skip closed fun _ found => found ▸ .plain nofun nofun rfl) fun _ =>
    bind (expect closed (.opener nofun)) fun _ =>
      bind passing.expression fun _ =>
      bind (expect closed (.closer _)) fun _ => bind (spanFrom _) fun _ =>
        addType _ _

private theorem primaryType :
    Passes input unterminated known opened (fun _ => opened)
      rules.primaryType := by
  refine peek fun token => ?_
  split
  next =>
    exact passing.namedType closed
  next =>
    exact passing.parenthesizedType closed
  next same =>
    rw [same]
    exact passing.decltype closed
  next =>
    split
    next named =>
      have plain : Readable unterminated opened opened token.kind := by
        generalize token.kind = kind at named
        cases kind with
        | keyword word => exact .plain nofun nofun rfl
        | _ => simp [BuiltinType.ofKind?] at named
      exact bind (skip closed fun _ found => found ▸ plain) fun _ => addType _ _
    next =>
      exact failAt

/--
A suffix of a type reads none but the tokens of suffixes at its own level.
-/
theorem typeSuffix? (base : TypeId)
    (cleared : clear (.symbol .amp) ∧ clear (.symbol .star) ∧
      clear (Delimiter.opener .bracket) ∧
      ∀ word, clear (.keyword word)) :
    Passes input clear known opened (fun _ => opened)
      (rules.typeSuffix? base) := by
  obtain ⟨amp, star, bracket, words⟩ := cleared
  refine peekKind fun kind => ?_
  split
  next =>
    exact bind (skip closed fun _ found => found ▸ .plain nofun amp rfl)
      fun _ => pure _
  next =>
    exact bind (skip closed fun _ found => found ▸ .plain nofun star rfl)
      fun _ => pure _
  next =>
    exact bind (skip closed fun _ found => found ▸ .opener bracket) fun _ =>
      eat closed (.closer _) (pure _)
        (bind (passing.callInside (.tier .or) rfl rfl nofun) fun _ =>
          bind (expect closed (.closer _)) fun _ => pure _)
  next =>
    split
    next qualifies =>
      have plain : Readable clear opened opened kind := by
        cases kind with
        | keyword word => exact .plain nofun (words word) rfl
        | _ => simp [Qualifiers.ofKind?] at qualifies
      exact bind (skip closed fun _ found => found ▸ plain) fun _ => pure _
    next =>
      exact pure _

private theorem typeSuffixes (start : Span) (base : TypeId) :
    Passes input unterminated known opened (fun _ => opened)
      (rules.typeSuffixes start base) := by
  refine bind (passing.typeSuffix? closed base ⟨nofun, nofun, nofun, nofun⟩)
    fun form? => ?_
  cases form? with
  | some form =>
      exact bind (spanFrom _) fun _ => bind (addType _ _) fun _ =>
        passing.call (.typeSuffixes _ _) rfl rfl
  | none =>
      exact pure _

private theorem unaryType :
    Passes input unterminated known opened (fun _ => opened)
      rules.unaryType := by
  refine peek fun token => ?_
  split
  next qualifies =>
    have plain : Readable unterminated opened opened token.kind := by
      generalize token.kind = kind at qualifies
      cases kind with
      | keyword word => exact .plain nofun nofun rfl
      | _ => simp [Qualifiers.ofKind?] at qualifies
    exact bind (skip closed fun _ found => found ▸ plain) fun _ =>
      bind (passing.call .unaryType rfl rfl) fun _ => bind (spanFrom _) fun _ =>
        addType _ _
  next =>
    exact bind (passing.primaryType closed) fun _ =>
      passing.call (.typeSuffixes _ _) rfl rfl

private theorem type :
    Passes input unterminated known opened (fun _ => opened) rules.type :=
  peekSpan fun _ => bind (passing.call .unaryType rfl rfl) fun _ =>
    eat closed (.plain nofun nofun rfl)
      (bind (spanFrom _) fun _ => addType _ _) (pure _)

private theorem listedTypes (afterComma : Bool) :
    Passes input unterminated known opened (fun _ => opened)
      (rules.listedTypes afterComma) :=
  check (pure _) (bind (passing.call .type rfl rfl) fun _ =>
    eat closed (.plain nofun nofun rfl)
      (bind (passing.call (.listedTypes _) rfl rfl) fun _ => pure _) (pure _))

omit closed in
private theorem operand (tier : Tier) :
    Passes input unterminated known opened (fun _ => opened)
      (rules.operand tier) := by
  unfold Rules.operand
  split
  · exact passing.call (.tier _) rfl rfl
  · exact passing.call .unary rfl rfl

private theorem operations (tier : Tier) (left : ExprId) :
    Passes input unterminated known opened (fun _ => opened)
      (rules.operations tier left) := by
  refine peekKind fun kind => ?_
  cases found : BinaryOp.ofKind? tier kind with
  | none =>
      exact pure _
  | some op =>
      have isSymbol := List.find?_some found
      simp only [Bool.and_eq_true, decide_eq_true_eq] at isSymbol
      have plain : Readable unterminated opened opened kind := by
        rw [isSymbol.2]
        cases op <;> exact .plain nofun nofun rfl
      exact bind (skip closed fun _ found => found ▸ plain) fun _ =>
        bind (passing.operand tier) fun _ => bind arena fun _ =>
          bind (addExpr _ _) fun _ =>
          passing.call (.operations _ _) rfl rfl

omit closed in
private theorem tiered (tier : Tier) :
    Passes input unterminated known opened (fun _ => opened)
      (rules.tiered tier) :=
  bind (passing.operand tier) fun _ => passing.call (.operations _ _) rfl rfl

private theorem expressions :
    Passes input unterminated known opened (fun _ => opened)
      rules.expressions :=
  bind passing.expression fun _ => eat closed (.plain nofun nofun rfl)
    (bind (passing.call .expressions rfl rfl) fun _ => pure _) (pure _)

private theorem closedExpressions :
    Passes input unterminated known (.paren :: opened) (fun _ => opened)
      rules.closedExpressions :=
  bind (passing.orNone _ .expressions rfl rfl) fun _ =>
    bind (expect closed (.closer _)) fun _ => pure _

private theorem namedExpression :
    Passes input unterminated known opened (fun _ => opened)
      rules.namedExpression := by
  refine bind (expectIdentifier closed nofun) fun named =>
    bind (lookup? _) fun found => ?_
  split
  · exact bind (textOf _) fun _ => failAt
  · exact bind arena fun _ => bind (passing.nameOf closed _ _ _ _) fun _ =>
      bind (spanFrom _) fun _ => addExpr _ _
  · exact bind (addName _ _) fun _ => bind (spanFrom _) fun _ => addExpr _ _

private theorem parenthesizedExpression :
    Passes input unterminated known opened (fun _ => opened)
      rules.parenthesizedExpression :=
  peekSpan fun _ => bind (expect closed (.opener nofun)) fun _ =>
    eat closed (.closer _)
    (bind (spanFrom _) fun _ => addExpr _ _)
    (bind passing.expression fun _ => eat closed (.closer _) (pure _)
      (bind (expect closed (.plain nofun nofun rfl)) fun _ =>
        bind (passing.closedExpressions closed) fun _ =>
          bind (spanFrom _) fun _ =>
          addExpr _ _))

private theorem requiresParams :
    Passes input unterminated known opened (fun _ => opened)
      rules.requiresParams :=
  eat closed (.opener nofun)
    (bind (passing.orNone _ (.params true) rfl rfl) fun _ =>
      bind (expect closed (.closer _)) fun _ => pure _)
    (pure _)

private theorem requiresBody :
    Passes input unterminated known [] (fun _ => []) rules.requiresBody :=
  bind (passing.requiresParams closed) fun _ =>
    bind (expect closed (.opener nofun)) fun _ =>
    bind (passing .requirements rfl) fun _ => pure _

private theorem requiresExpression :
    Passes input unterminated known opened (fun _ => opened)
      rules.requiresExpression :=
  peekSpan fun _ => bind (expect closed (.plain nofun nofun rfl)) fun _ =>
    bind (inScopes _) fun _ =>
      bind (within _ ((passing.requiresBody closed).frame opened)) fun _ =>
        bind (spanFrom _) fun _ => addExpr _ _

omit passing in
private theorem literal (form : ExprForm)
    (plain : ∀ kind, known kind → Readable unterminated opened opened kind) :
    Passes input unterminated known opened (fun _ => opened)
      (Rules.literal form) :=
  bind (advance closed plain) fun _ => addExpr _ _

private theorem primary :
    Passes input unterminated known opened (fun _ => opened) rules.primary := by
  refine peek fun token => ?_
  split
  next same =>
    exact literal closed _ fun _ found =>
      found.trans same ▸ .plain nofun nofun rfl
  next same =>
    exact literal closed _ fun _ found =>
      found.trans same ▸ .plain nofun nofun rfl
  next same =>
    exact literal closed _ fun _ found =>
      found.trans same ▸ .plain nofun nofun rfl
  next =>
    exact passing.namedExpression closed
  next =>
    exact passing.parenthesizedExpression closed
  next =>
    exact passing.requiresExpression closed
  next =>
    exact failAt

private theorem postfix? (object : ExprId) :
    Passes input unterminated known opened (fun _ => opened)
      (rules.postfix? object) := by
  refine peekKind fun kind => ?_
  split
  next =>
    exact bind (skip closed fun _ found => found ▸ .opener nofun) fun _ =>
      bind (passing.closedExpressions closed) fun _ => pure _
  next =>
    exact bind (skip closed fun _ found => found ▸ .plain nofun nofun rfl)
        fun _ =>
      bind (bind (expectIdentifier closed nofun) fun _ => addName _ _) fun _ =>
        pure _
  next =>
    exact bind (skip closed fun _ found => found ▸ .opener nofun) fun _ =>
      bind passing.expression fun _ => bind (expect closed (.closer _)) fun _ =>
        pure _
  next =>
    exact pure _

private theorem postfixes (start : Span) (object : ExprId) :
    Passes input unterminated known opened (fun _ => opened)
      (rules.postfixes start object) := by
  refine bind (passing.postfix? closed object) fun form? => ?_
  cases form? with
  | some form =>
      exact bind (spanFrom _) fun _ => bind (addExpr _ _) fun _ =>
        passing.call (.postfixes _ _) rfl rfl
  | none =>
      exact pure _

private theorem unary :
    Passes input unterminated known opened (fun _ => opened) rules.unary := by
  refine peek fun token => ?_
  cases found : UnaryOp.ofKind? token.kind with
  | some op =>
      have isSymbol := List.find?_some found
      simp only [decide_eq_true_eq] at isSymbol
      have plain : Readable unterminated opened opened token.kind := by
        rw [isSymbol]
        cases op <;> exact .plain nofun nofun rfl
      exact bind (skip closed fun _ same => same ▸ plain) fun _ =>
        bind (passing.call .unary rfl rfl) fun _ => bind (spanFrom _) fun _ =>
          addExpr _ _
  | none =>
      exact bind (passing.primary closed) fun _ =>
        passing.call (.postfixes _ _) rfl rfl

private theorem requirement :
    Passes input unterminated known [.brace] (fun _ => [.brace])
      rules.requirement := by
  refine peekSpan fun _ => bind (check ?_ ?_) fun _ =>
    bind (expect closed (.plain_inside nofun rfl)) fun _ =>
      bind (spanFrom _) fun _ =>
      inArena _
  · exact bind (skip closed fun _ found => found ▸ .plain nofun nofun rfl)
        fun _ =>
      bind (passing.call .type rfl rfl) fun _ => pure _
  · exact bind passing.expression fun _ => eat closed (.plain nofun nofun rfl)
      (bind (passing.call .type rfl rfl) fun _ => pure _)
      (eat closed (.plain nofun nofun rfl)
        (bind (passing.call .type rfl rfl) fun _ => pure _) (pure _))

private theorem requirements :
    Passes input unterminated known [.brace] (fun _ => []) rules.requirements :=
  eat closed (.closer _) (pure _)
    (bind (observe fun input state => input.window.atEnd state.position)
      fun _ => ite
      (peekSpan fun _ => failAt)
      (bind (passing.requirement closed) fun _ =>
        bind (passing .requirements rfl) fun _ => pure _))

private theorem paramSpecifiers (read : Specifiers) :
    Passes input unterminated known opened (fun _ => opened)
      (rules.paramSpecifiers read) := by
  refine peekKind fun kind => ?_
  split
  next found =>
    have plain : Readable unterminated opened opened kind := by
      cases kind with
      | keyword word => exact .plain nofun nofun rfl
      | _ => simp [Specifier.ofKind?] at found
    exact bind (skip closed fun _ same => same ▸ plain) fun _ =>
      passing.call (.paramSpecifiers _) rfl rfl
  next =>
    exact pure _

private theorem param :
    Passes input unterminated known opened (fun _ => opened)
      (rules.param true) :=
  peekSpan fun _ => bind (passing.call (.paramSpecifiers _) rfl rfl) fun _ =>
    bind (bind (expectIdentifier closed nofun) fun _ => addName _ _) fun _ =>
      bind (eat closed (.plain nofun nofun rfl) (passing.call .type rfl rfl)
        (bind behindPrevious fun _ => addType _ _)) fun _ =>
          check (peekSpan fun _ => failAt) (bind (spanFrom _) fun _ =>
            bind (addDecl _ _ _ _) fun _ => bind (bindDecl _) fun _ => pure _)

private theorem params :
    Passes input unterminated known opened (fun _ => opened)
      (rules.params true) :=
  bind (passing.param closed) fun _ => eat closed (.plain nofun nofun rfl)
    (bind (passing.call (.params true) rfl rfl) fun _ => pure _) (pure _)

private theorem produce {Value : Type} (nonterminal : Nonterminal Value)
    (occurs : nonterminal.inExpressions = true) :
    Passes input unterminated anyKind nonterminal.opened (fun _ => [])
      (rules.produce nonterminal) := by
  cases nonterminal with
  | type => exact passing.type closed
  | unaryType => exact passing.unaryType closed
  | typeSuffixes start base => exact passing.typeSuffixes closed start base
  | listedTypes afterComma => exact passing.listedTypes closed afterComma
  | templateArgs => exact passing.templateArgs closed
  | tier tier => exact passing.tiered tier
  | operations tier left => exact passing.operations closed tier left
  | unary => exact passing.unary closed
  | postfixes start object => exact passing.postfixes closed start object
  | expressions => exact passing.expressions closed
  | requirements => exact passing.requirements closed
  | paramSpecifiers read => exact passing.paramSpecifiers closed read
  | params bound =>
      cases bound with
      | true => exact passing.params closed
      | false => cases occurs
  | statement => cases occurs
  | unitStatements => cases occurs
  | bracedStatements => cases occurs
  | declaration => cases occurs
  | specifiers => cases occurs
  | classSpecifiers read => cases occurs
  | templateParams => cases occurs
  | conceptMembers => cases occurs

end Passing

/-- Whatever the bound on nested calls, types and expressions are passages. -/
theorem nested_passing
    {input : ParserInput}
    (closed : input.window.Closed)
    (depth : Nat) :
    (nested depth).Passing input := by
  induction depth with
  | zero =>
      intro Value nonterminal _ state outer value next _ _ run
      cases run
  | succ depth inductionHypothesis =>
      intro Value nonterminal occurs
      exact Passing.produce inductionHypothesis closed nonterminal occurs

end Rules

end Tern
