import Tern.Grammar.Fragments
import Tern.Proofs.Term.Growth
import Tern.Proofs.Token.Passage

namespace Tern

/-!
# Productions

A production is put together from a few kinds of steps. Besides the steps a
derivation of `Production` shows where they stand: which declarations were
added before and may still be changed, whether a template context is in force,
which nonterminals may be called without a token being read before them, and
whether a token has been read when the production is done.

What is said of every step in its place holds of all productions, by induction
on the derivation.
-/

/-- The rank of a tier: an operand is of a smaller one. -/
def Tier.rank : Tier → Nat
  | .multiplicative => 1
  | .additive => 2
  | .shift => 3
  | .relational => 4
  | .equality => 5
  | .bitAnd => 6
  | .bitXor => 7
  | .bitOr => 8
  | .and => 9
  | .or => 10

/-- The next tighter tier is of a smaller rank. -/
theorem Tier.rank_lt_of_tighter?
    {tier tighter : Tier}
    (next : tier.tighter? = some tighter) :
    tighter.rank < tier.rank := by
  cases tier <;> simp_all [Tier.tighter?] <;> subst next <;> decide

/-- Prefix operators are of a smaller rank than all tiers. -/
theorem Tier.rank_pos (tier : Tier) : 0 < tier.rank := by
  cases tier <;> decide

namespace Nonterminal

variable {Value : Type}

/--
The rank of a nonterminal: those called before any token is read have smaller
ones.
-/
def rank : Nonterminal Value → Nat
  | .type => 1
  | .unaryType => 0
  | .typeSuffixes _ _ => 0
  | .listedTypes _ => 2
  | .templateArgs => 4
  | .tier level => level.rank
  | .operations _ _ => 0
  | .unary => 0
  | .postfixes _ _ => 0
  | .expressions => 11
  | .requirements => 11
  | .statement => 11
  | .unitStatements => 12
  | .bracedStatements => 12
  | .declaration => 1
  | .specifiers => 0
  | .paramSpecifiers _ => 0
  | .classSpecifiers _ => 0
  | .params _ => 1
  | .templateParams => 0
  | .conceptMembers => 11

/-- All ranks are counted in the bound on nested calls. -/
theorem rank_lt (nonterminal : Nonterminal Value) :
    nonterminal.rank < Parser.ranks := by
  cases nonterminal with
  | tier level => cases level <;> decide
  | _ => simp [rank, Parser.ranks]

/-- Whether a nonterminal cannot be parsed without reading a token. -/
def reads : Nonterminal Value → Bool
  | .typeSuffixes _ _ => false
  | .listedTypes _ => false
  | .operations _ _ => false
  | .postfixes _ _ => false
  | .unitStatements => false
  | .specifiers => false
  | .paramSpecifiers _ => false
  | .classSpecifiers _ => false
  | _ => true

/-- Whether a nonterminal is parsed inside a template context only. -/
def inTemplate : Nonterminal Value → Bool
  | .templateParams => true
  | _ => false

/--
Whether what a nonterminal is parsed to is settled by the tokens up to the next
one.
-/
def settled : Nonterminal Value → Bool
  | .templateArgs => false
  | .unitStatements => false
  | _ => true

end Nonterminal

/--
All that a parser may read besides the current token and what it keeps track of.
-/
structure Surroundings where
  tokens : Tokens
  names : Names
  mode : ParseMode
  position : Nat
  table : ScopeTable
  current : ScopeId
  saved : List (DeclId × ScopeId)
  arena : Arena

/-- The span of the token before the place of a parser. -/
def Surroundings.spanBefore (around : Surroundings) : Span :=
  match around.position with
  | 0 => .synthetic
  | position + 1 => (around.tokens[position]?.map Token.span).getD .synthetic

/-- What surrounds a parser in a state. -/
def ParserState.surroundings (input : ParserInput) (state : ParserState) :
    Surroundings :=
  { tokens := input.window.tokens
    names := input.names
    mode := input.mode
    position := state.position
    table := state.scopes.table
    current := state.scopes.current
    saved := state.scopes.saved
    arena := state.arena }

/-- Where a step of a production stands. -/
structure Place where
  /-- The declarations that the production has added. -/
  own : List DeclId
  /-- Whether a template context is in force. -/
  inTemplate : Bool
  /-- Nonterminals of a smaller rank may be called. -/
  rank : Nat
  /-- The current token is known not to be the end of the input. -/
  unread : Prop
  /--
  Only nonterminals that are settled by the tokens up to the next one may be
  called.
  -/
  settled : Bool

namespace Place

/-- The place behind a step that may have read a token. -/
def after (place : Place) : Bool → Place
  | true => { place with rank := Parser.ranks, unread := False }
  | false => { place with unread := False }

@[simp]
theorem after_own (place : Place) (read : Bool) :
    (place.after read).own = place.own := by
  cases read <;> rfl

@[simp]
theorem after_inTemplate (place : Place) (read : Bool) :
    (place.after read).inTemplate = place.inTemplate := by
  cases read <;> rfl

@[simp]
theorem after_settled (place : Place) (read : Bool) :
    (place.after read).settled = place.settled := by
  cases read <;> rfl

@[simp]
theorem not_unread_after (place : Place) (read : Bool) :
    ¬ (place.after read).unread := by
  cases read <;> exact not_false

/-- The place at which the kind of the current token is known. -/
def facing (place : Place) (kind : TokenKind) : Place :=
  { place with unread := kind ≠ .endOfInput }

/-- The place behind the addition of a declaration. -/
def owning (place : Place) (decl : DeclId) : Place :=
  { place with own := decl :: place.own, unread := False }

end Place

/--
Which values still stand for a token to be read, depending on whether one is
read.
-/
def stillToRead {Value : Type} (reads : Value → Bool) : Bool → Value → Bool
  | true => fun _ => false
  | false => reads

/-- If no values stand for a token to be read, none still do behind a step. -/
theorem stillToRead_false {Value : Type} (read : Bool) :
    stillToRead (fun _ : Value => false) read = fun _ => false := by
  cases read <;> rfl

/--
The cause of errors in template parameters that stand in no template context.
-/
def ParseCause.outsideTemplate : ParseCause :=
  .invalidDeclaration "template parameter outside a template parameter list"

/--
Whether a cause may be met at any place; only declarations can be out of place.
-/
def ParseCause.isPlain : ParseCause → Bool
  | .invalidDeclaration _ => false
  | .other _ _ => false
  | _ => true

/--
If two parsers are both done from the same state, the first one ends no later
than the second one.
-/
def EndsNoLater {Value Other : Type} (first : Rules → Parser Value)
    (second : Rules → Parser Other) : Prop :=
  ∀ (depth : Nat) {input : ParserInput}, input.window.Closed →
    ∀ (state : ParserState) {value : Value} {other : Other} {after otherAfter :
      ParserState},
      first (Rules.nested depth) input state = .done value after →
      second (Rules.nested depth) input state = .done other otherAfter →
      after.position ≤ otherAfter.position

/--
A production, or a part of one, at a place. A token has been read when it is
done with a value of those told.
-/
inductive Production :
    Place → {Value : Type} → (Value → Bool) → (Rules → Parser Value) →
    Prop where
  | pure {place : Place} {Value : Type} {reads : Value → Bool} {value : Value}
      (unread : reads value = false) :
      Production place reads (fun _ => Pure.pure value)
  | bind {place : Place} {First Value : Type} {before : First → Bool}
      {reads : Value → Bool}
      {parser : Rules → Parser First} {next : First → Rules → Parser Value}
      (first : Production place before parser)
      (rest : ∀ value,
        Production (place.after (before value))
          (stillToRead reads (before value)) (next value)) :
      Production place reads (fun rules => parser rules >>= fun value =>
        next value rules)
  | forget {place : Place} {Value : Type} {more fewer : Value → Bool}
      {parser : Rules → Parser Value}
      (production : Production place more parser)
      (weaker : ∀ value, fewer value = true → more value = true) :
      Production place fewer parser
  | fail {place : Place} {Value : Type} {reads : Value → Bool}
      {error : ParseError}
      (plain : error.cause.isPlain = true) :
      Production place reads (fun _ => Action.fail error : Rules → Parser Value)
  | /-- Look at the current token. -/
    peek {place : Place} {Value : Type} {reads : Value → Bool}
      {next : Token → Rules → Parser Value}
      (rest : ∀ token, Production (place.facing token.kind) reads
        (next token)) :
      Production place reads (fun rules => Parser.current >>= fun token =>
        next token rules)
  | /-- Look at the token behind the current one, if that will be read. -/
    peekBehind {place : Place} {Value : Type} {reads : Value → Bool}
      {next : TokenKind → Rules → Parser Value}
      (rest : ∀ kind, Production place reads (next kind))
      (willRead : ∀ value, reads value = true) :
      Production place reads (fun rules => Parser.nextKind >>= fun kind =>
        next kind rules)
  | /-- Look whether all tokens are read; what is settled goes on to read
      another one. -/
    peekEnd {place : Place} {Value : Type} {reads : Value → Bool}
      {next : Bool → Rules → Parser Value}
      (rest : ∀ ended, Production place reads (next ended))
      (willRead : place.settled = true → ∀ value, reads value = true) :
      Production place reads (fun rules => Parser.atEnd >>= fun ended =>
        next ended rules)
  | /-- Look at the span of the current token. -/
    peekSpan {place : Place} {Value : Type} {reads : Value → Bool}
      {next : Span → Rules → Parser Value}
      (rest : ∀ span, Production place reads (next span)) :
      Production place reads (fun rules => Parser.currentSpan >>= fun span =>
        next span rules)
  | advance {place : Place} (unread : place.unread) :
      Production place (fun _ => true) (fun _ => Parser.advance)
  | observe {place : Place} {Value : Type} (read : Surroundings → Value) :
      Production place (fun _ => false)
        (fun _ input state => .done (read (state.surroundings input)) state)
  | respecify {place : Place} {Value : Type}
      (change : Specifiers → Value × Specifiers) :
      Production place (fun _ => false) (fun _ _ state =>
        .done (change state.track.specifiers).1
          { state with track :=
            { state.track with specifiers := (change state.track.specifiers).2 }
              })
  | /-- Change the template context, if one is in force. -/
    retemplate {place : Place} (change : TemplateContext → TemplateContext) :
      Production place (fun _ => false) (fun _ => Parser.retrack fun track =>
        { track with template? := track.template?.map change })
  | /-- Read the template context, where one is in force. -/
    inContext {place : Place} {Value : Type} {reads : Value → Bool}
      {start : Span}
      {next : TemplateContext → Rules → Parser Value}
        (inTemplate : place.inTemplate = true)
      (rest : ∀ context, Production place reads (next context)) :
      Production place reads (fun rules => Parser.tracked >>= fun track =>
        match track.template? with
        | none => Parser.failAt .outsideTemplate start
        | some context => next context rules)
  | captureTo {place : Place} (terminators : List TokenKind) :
      Production place (fun _ => false) (fun _ => Parser.captureTo terminators)
  | captureBraces {place : Place} :
      Production place (fun _ => true) (fun _ => Parser.captureBraces)
  | call {place : Place} {Value : Type} (nonterminal : Nonterminal Value)
      (smaller : nonterminal.rank < place.rank)
      (inTemplate : nonterminal.inTemplate = true → place.inTemplate = true)
      (settled : place.settled = true → nonterminal.settled = true) :
      Production place (fun _ => nonterminal.reads)
        (fun rules => rules.parse nonterminal)
  | /-- Template arguments are settled once their closing angle is read. -/
    angledArgs {place : Place} (settled : place.settled = true)
      (smaller : Nonterminal.templateArgs.rank < place.rank) :
      Production place (fun _ => true) Rules.angledArgs
  | within {place : Place} {Value : Type} {reads : Value → Bool}
      (scope : ScopeId)
      {parser : Rules → Parser Value} (inner : Production place reads parser) :
      Production place reads (fun rules => Parser.within scope (parser rules))
  | withTemplate {place : Place} {Value : Type} {reads : Bool}
      (context : TemplateContext)
      {parser : Rules → Parser Value}
      (inner : Production { place with inTemplate := true } (fun _ => reads)
        parser) :
      Production place (fun _ => reads)
        (fun rules => Parser.withTemplate context (parser rules))
  | /-- What is tried may be taken back, so it changes no older declarations. -/
    either {place : Place} {Value : Type} {reads : Value → Bool}
      {first second : Rules → Parser Value}
      (tried : Production { place with own := [] } reads first)
      (instead : Production place reads second)
      (ordered : place.settled = true → EndsNoLater first second) :
      Production place reads
        (fun rules => Parser.either (first rules) (second rules))
  | add {place : Place} {Value : Type} {change : Arena → Value × Arena}
      (extending : ∀ arena : Arena, arena.Extends (change arena).2) :
      Production place (fun _ => false) (fun _ => Parser.inArena change)
  | /-- Add a declaration and go on with it as an own one. -/
    addDecl {place : Place} {Value : Type} {reads : Value → Bool}
      (name : NameId)
      (specifiers : Specifiers) (form : DeclForm) (span : Span)
      {next : DeclId → Rules → Parser Value}
      (rest : ∀ decl, Production (place.owning decl) reads (next decl)) :
      Production place reads (fun rules =>
        Parser.addDecl name specifiers form span >>= fun decl =>
          next decl rules)
  | /-- Change an own declaration. -/
    updateDecl {place : Place} {decl : DeclId} (added : decl ∈ place.own)
      (change : Arena → Decl → Decl) :
      Production place (fun _ => false) (fun _ => Action.modify fun state =>
        { state with
        arena := state.arena.updateDecl decl (change state.arena) })
  | pushScope {place : Place} (kind : ScopeKind) :
      Production place (fun _ => false) (fun _ => Parser.pushScope kind)
  | scopeFor {place : Place} (decl : DeclId) (kind : ScopeKind) :
      Production place (fun _ => false) (fun _ => Parser.scopeFor decl kind)
  | bindDecl {place : Place} (decl : DeclId) :
      Production place (fun _ => false) (fun _ => Parser.bindDecl decl)

namespace Production

variable {place : Place} {Value Next : Type} {reads : Value → Bool}
  {more : Next → Bool}

theorem ite
    {condition : Prop}
    [Decidable condition]
    {yes no : Rules → Parser Value}
    (productionYes : Production place reads yes)
    (productionNo : Production place reads no) :
    Production place reads (fun rules => if condition then yes rules
      else no rules) := by
  by_cases holds : condition
  · simpa [holds] using productionYes
  · simpa [holds] using productionNo

theorem failAt
    {cause : ParseCause}
    {span : Span}
    (plain : cause.isPlain = true) :
    Production place reads (fun _ => Parser.failAt cause span : Rules →
      Parser Value) :=
  fail plain

/--
A part that may or may not have read a token, whatever it has been shown to do.
-/
theorem maybe
    {parser : Rules → Parser Value}
    (production : Production place reads parser) :
    Production place (fun _ => false) parser :=
  production.forget (by simp)

theorem skip (unread : place.unread) :
    Production place (fun _ => true) (fun _ => Parser.skip) :=
  bind (advance unread) fun _ => pure rfl

theorem peekKind {next : TokenKind → Rules → Parser Value}
    (rest : ∀ kind, Production (place.facing kind) reads (next kind)) :
    Production place reads (fun rules => Parser.currentKind >>= fun kind =>
      next kind rules) :=
  peek fun token => rest token.kind

theorem check {kind : TokenKind} {yes no : Rules → Parser Value}
    (productionYes : Production (place.facing kind) reads yes)
    (productionNo : ∀ other, Production (place.facing other) reads no) :
    Production place reads (fun rules => Parser.check kind >>= fun found =>
      if found = true then yes rules else no rules) := by
  refine @peek place _ _ (fun token rules =>
    if decide (token.kind = kind) = true then yes rules else no rules)
      fun token => ?_
  by_cases same : token.kind = kind
  · simpa [same] using productionYes
  · simpa [same] using productionNo token.kind

theorem eat {kind : TokenKind} {yes no : Rules → Parser Value}
    (real : kind ≠ .endOfInput)
    (productionYes : Production (place.after true) (fun _ => false) yes)
    (productionNo : ∀ other, Production (place.facing other) reads no) :
    Production place reads (fun rules => Parser.eat kind >>= fun found =>
      if found = true then yes rules else no rules) := by
  have eaten : Production (place.facing kind) reads
      (fun rules => Parser.skip >>= fun _ => yes rules) :=
    bind (skip real) fun _ => productionYes
  have checked := check eaten productionNo
  refine Eq.mp (congrArg _ ?_) checked
  funext rules
  simp only [Parser.eat, bind_assoc]
  congr 1
  funext found
  cases found <;> rfl

theorem eats {kind : TokenKind} (real : kind ≠ .endOfInput) :
    Production place (fun found => found) (fun _ => Parser.eat kind) :=
  check (bind (skip real) fun _ => pure rfl) fun _ => pure rfl

theorem expect {kind : TokenKind} (real : kind ≠ .endOfInput) :
    Production place (fun _ => true) (fun _ => Parser.expect kind) := by
  refine peek fun token => ?_
  by_cases same : token.kind = kind
  · simpa [same] using skip (by simpa [Place.facing, same] using real)
  · simp only [same, ↓reduceIte]
    split
    · exact failAt rfl
    · exact failAt rfl

theorem expectIdentifier :
    Production place (fun _ => true) (fun _ => Parser.expectIdentifier) := by
  refine peek fun token => ?_
  split
  next name same =>
    exact bind (skip (by simp [Place.facing, same])) fun _ => pure rfl
  next =>
    exact failAt rfl

theorem previousSpan :
    Production place (fun _ => false) (fun _ => Parser.previousSpan) :=
  observe Surroundings.spanBefore

theorem spanFrom (start : Span) :
    Production place (fun _ => false) (fun _ => Parser.spanFrom start) :=
  bind previousSpan fun _ => pure rfl

theorem behindPrevious :
    Production place (fun _ => false) (fun _ => Parser.behindPrevious) :=
  bind previousSpan fun _ => pure rfl

theorem textOf (name : Name) :
    Production place (fun _ => false) (fun _ => Parser.textOf name) :=
  observe fun around => around.names.text name

theorem defers : Production place (fun _ => false) (fun _ => Parser.defers) :=
  observe fun around => decide (around.mode = .deferred)

theorem arena : Production place (fun _ => false) (fun _ => Parser.arena) :=
  observe fun around => around.arena

theorem addName (form : NameForm) (span : Span) :
    Production place (fun _ => false) (fun _ => Parser.addName form span) :=
  add fun arena => arena.extends_addName form span

theorem addType (form : TypeForm) (span : Span) :
    Production place (fun _ => false) (fun _ => Parser.addType form span) :=
  add fun arena => arena.extends_addType form span

theorem addExpr (form : ExprForm) (span : Span) :
    Production place (fun _ => false) (fun _ => Parser.addExpr form span) :=
  add fun arena => arena.extends_addExpr form span

theorem addStmt (form : StmtForm) (span : Span) :
    Production place (fun _ => false) (fun _ => Parser.addStmt form span) :=
  add fun arena => arena.extends_addStmt form span

theorem addDefinition (form : DefForm) (span : Span) :
    Production place (fun _ => false)
      (fun _ => Parser.addDefinition form span) :=
  add fun arena => arena.extends_addDefinition form span

theorem addRequirement (form : ReqForm) (span : Span) :
    Production place (fun _ => false)
      (fun _ => Parser.addRequirement form span) :=
  add fun arena => arena.extends_addRequirement form span

private theorem addPlaceholder (span : Span) : Production place (fun _ => false)
    (fun _ => Parser.inArena fun arena => arena.addPlaceholder span) :=
  add fun arena => arena.extends_addPlaceholder span

theorem identifier :
    Production place (fun _ => true) (fun _ => Parser.identifier) :=
  bind expectIdentifier fun _ => addName _ _

theorem identifierOrPlaceholder (span : Span) :
    Production place (fun _ => false)
      (fun _ => Parser.identifierOrPlaceholder span) :=
  @peek place _ _ (fun token _ =>
    if token.kind.isIdentifier = true then Parser.identifier
    else Parser.inArena fun arena => arena.addPlaceholder span)
    fun _ => ite identifier.maybe (addPlaceholder span)

theorem currentScope :
    Production place (fun _ => false) (fun _ => Parser.currentScope) :=
  observe fun around => around.current

theorem lookup? (name : Name) :
    Production place (fun _ => false) (fun _ => Parser.lookup? name) :=
  observe fun around => around.table.find? around.current (.simple name)

theorem declaresMember (specifiers : Specifiers) :
    Production place (fun _ => false)
      (fun _ => Parser.declaresMember specifiers) :=
  observe fun around => !specifiers.contains .isStatic &&
    around.table.isClassLevel around.current

theorem addSpecifier (specifier : Specifier) :
    Production place (fun _ => false)
      (fun _ => Parser.addSpecifier specifier) :=
  respecify fun specifiers => ((), specifiers.insert specifier)

theorem takeSpecifiers :
    Production place (fun _ => false) (fun _ => Parser.takeSpecifiers) :=
  respecify fun specifiers => (specifiers, .none)

theorem completeDecl
    {decl : DeclId}
    (added : decl ∈ place.own)
    (form : DeclForm)
    (span : Span) :
    Production place (fun _ => false)
      (fun _ => Parser.completeDecl decl form span) :=
  updateDecl added fun _ old => { old with form := form, span := span }

theorem spanOfRange (range : TokenRange) :
    Production place (fun _ => false) (fun _ => Parser.spanOfRange range) :=
  observe fun around => around.tokens.spanOf range

/-- Call a nonterminal of a smaller rank. -/
theorem callSmaller (nonterminal : Nonterminal Value)
    (plain : (nonterminal.settled && !nonterminal.inTemplate) = true)
    (smaller : nonterminal.rank < place.rank) :
    Production place (fun _ => nonterminal.reads)
      (fun rules => rules.parse nonterminal) :=
  call nonterminal smaller (by simp_all) (by simp_all)

/--
Call a nonterminal where a token has been read, so that all of them may be
called.
-/
theorem callBehind (nonterminal : Nonterminal Value)
    (plain : (nonterminal.settled && !nonterminal.inTemplate) = true)
    (behind : place.rank = Parser.ranks) :
    Production place (fun _ => nonterminal.reads)
      (fun rules => rules.parse nonterminal) :=
  callSmaller nonterminal plain (behind ▸ nonterminal.rank_lt)

end Production

end Tern
