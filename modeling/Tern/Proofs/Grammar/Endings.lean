import Tern.Proofs.Grammar.Following

namespace Tern

/-!
# Where windows end

A type, an expression or a block is ended by any token with which it does not go
on, and so by the end of the input as well. What one window shows behind it
makes no difference to it, even if another window ends there.
-/

/-- Whether a nonterminal is ended by any token with which it does not go on. -/
def Nonterminal.endedByAny {Value : Type} : Nonterminal Value → Bool
  | .type => true
  | .unaryType => true
  | .typeSuffixes _ _ => true
  | .tier _ => true
  | .operations _ _ => true
  | .unary => true
  | .postfixes _ _ => true
  | .requirements => true
  | .bracedStatements => true
  | _ => false

/--
A production, or the last part of one, that is ended by any token with which it
does not go on: behind a token that it leaves unread it does what it does behind
the end of the input.
-/
inductive Ending : Place → {Value : Type} → (Rules → Parser Value) → Prop where
  | pure {place : Place} {Value : Type} (value : Value) :
      Ending place (fun _ => Pure.pure value)
  | fail {place : Place} {Value : Type} {error : ParseError}
      (plain : error.cause.isPlain = true) :
      Ending place (fun _ => Action.fail error : Rules → Parser Value)
  | bind {place : Place} {First Value : Type} {before : First → Bool}
      {parser : Rules → Parser First} {next : First → Rules → Parser Value}
      (first : Ending place parser)
      (production : Production place before parser)
      (rest : ∀ value, Ending (place.after (before value)) (next value)) :
      Ending place (fun rules => parser rules >>= fun value => next value rules)
  | /-- Before a token is read any production may stand. -/
    lastly {place : Place} {First Value : Type} {before : First → Bool}
      {parser : Rules → Parser First} {next : First → Rules → Parser Value}
      (first : Production place before parser)
      (rest : ∀ value, Ending (place.after (before value)) (next value))
      (reads : ∀ value, Production (place.after (before value)) (fun _ => true)
        (next value)) :
      Ending place (fun rules => parser rules >>= fun value => next value rules)
  | /-- Look at the current token, which is read. -/
    peek {place : Place} {Value : Type} {next : Token → Rules → Parser Value}
      (rest : ∀ token, Ending (place.facing token.kind) (next token))
      (reads : Production place (fun _ => true)
        (fun rules => Parser.current >>= fun token => next token rules)) :
      Ending place (fun rules => Parser.current >>= fun token =>
        next token rules)
  | /-- Look at the current token,
      which is read or plays the part of the end. -/
    peekPast {place : Place} {Value : Type}
      {next : Token → Rules → Parser Value}
      (rest : ∀ token, Ending (place.facing token.kind) (next token))
      (ended : ∀ token,
        Production (place.facing token.kind) (fun _ => true) (next token) ∨
          ∀ final : Token, final.kind = .endOfInput → next token = next final) :
      Ending place (fun rules => Parser.current >>= fun token =>
        next token rules)
  | /-- Look at the span of the current token, which is read. -/
    peekSpan {place : Place} {Value : Type} {next : Span → Rules → Parser Value}
      (rest : ∀ span, Ending place (next span))
      (reads : Production place (fun _ => true)
        (fun rules => Parser.currentSpan >>= fun span => next span rules)) :
      Ending place (fun rules => Parser.currentSpan >>= fun span =>
        next span rules)
  | /-- Look whether all tokens are read, which they are not. -/
    peekEnd {place : Place} {Value : Type} {next : Bool → Rules → Parser Value}
      (rest : ∀ ended, Ending place (next ended))
      (reads : Production place (fun _ => true)
        (fun rules => Parser.atEnd >>= fun ended => next ended rules)) :
      Ending place (fun rules => Parser.atEnd >>= fun ended => next ended rules)
  | advance {place : Place} (unread : place.unread) :
      Ending place (fun _ => Parser.advance)
  | observe {place : Place} {Value : Type} (read : Surroundings → Value) :
      Ending place (fun _ input state =>
        .done (read (state.surroundings input)) state)
  | call {place : Place} {Value : Type} (nonterminal : Nonterminal Value)
      (smaller : nonterminal.rank < place.rank)
        (ended : nonterminal.endedByAny = true) :
      Ending place (fun rules => rules.parse nonterminal)
  | angledArgs {place : Place}
      (smaller : Nonterminal.templateArgs.rank < place.rank) :
      Ending place Rules.angledArgs
  | within {place : Place} {Value : Type} (scope : ScopeId)
      {parser : Rules → Parser Value}
      (inner : Ending place parser) :
      Ending place (fun rules => Parser.within scope (parser rules))
  | add {place : Place} {Value : Type} {change : Arena → Value × Arena}
      (extending : ∀ arena : Arena, arena.Extends (change arena).2) :
      Ending place (fun _ => Parser.inArena change)
  | pushScope {place : Place} (kind : ScopeKind) :
      Ending place (fun _ => Parser.pushScope kind)

namespace Ending

variable {place : Place} {Value : Type} {parser : Rules → Parser Value}

/--
What is ended by any token is a production, which may or may not read a token.
-/
theorem production (ending : Ending place parser) :
    Production place (fun _ => false) parser := by
  induction ending with
  | pure value =>
      exact .pure rfl
  | fail plain =>
      exact .fail plain
  | bind _ production _ _ rest =>
      exact .bind production fun value => by
        simpa only [stillToRead_false] using rest value
  | lastly first _ _ rest =>
      exact .bind first fun value => by
        simpa only [stillToRead_false] using rest value
  | peek _ reads _ =>
      exact reads.maybe
  | peekPast _ _ rest =>
      exact .peek rest
  | peekSpan _ reads _ =>
      exact reads.maybe
  | peekEnd _ reads _ =>
      exact reads.maybe
  | advance unread =>
      exact (Production.advance unread).maybe
  | observe read =>
      exact .observe read
  | call nonterminal smaller ended =>
      refine (Production.callSmaller nonterminal ?_ smaller).maybe
      cases nonterminal <;> first | rfl | cases ended
  | angledArgs smaller =>
      exact (Production.args smaller).maybe
  | within scope _ inner =>
      exact .within scope inner
  | add extending =>
      exact .add extending
  | pushScope kind =>
      exact .pushScope kind

theorem ite
    {condition : Prop}
    [Decidable condition]
    {yes no : Rules → Parser Value}
    (endingYes : Ending place yes)
    (endingNo : Ending place no) :
    Ending place (fun rules => if condition then yes rules else no rules) := by
  by_cases holds : condition
  · simpa [holds] using endingYes
  · simpa [holds] using endingNo

private theorem failAt
    {cause : ParseCause}
    {span : Span}
    (plain : cause.isPlain = true) :
    Ending place (fun _ => Parser.failAt cause span : Rules → Parser Value) :=
  fail plain

private theorem skip (unread : place.unread) :
    Ending place (fun _ => Parser.skip) :=
  bind (advance unread) (.advance unread) fun _ => pure _

private theorem expect {kind : TokenKind} (real : kind ≠ .endOfInput) :
    Ending place (fun _ => Parser.expect kind) := by
  refine peek (fun token => ?_) (.expect real)
  by_cases same : token.kind = kind
  · simpa [same] using skip (by simpa [Place.facing, same] using real)
  · simp only [same, ↓reduceIte]
    split
    · exact failAt rfl
    · exact failAt rfl

private theorem expectIdentifier :
    Ending place (fun _ => Parser.expectIdentifier) := by
  refine peek (fun token => ?_) .expectIdentifier
  split
  next name same =>
    have unread : (place.facing token.kind).unread := by
      simp [Place.facing, same]
    exact bind (skip unread) (.skip unread) fun _ => pure _
  next =>
    exact failAt rfl

private theorem peekKind {next : TokenKind → Rules → Parser Value}
    (rest : ∀ kind, Ending (place.facing kind) (next kind))
    (ended : ∀ kind, Production (place.facing kind) (fun _ => true)
      (next kind) ∨
      next kind = next .endOfInput) :
    Ending place (fun rules => Parser.currentKind >>= fun kind =>
      next kind rules) := by
  refine @peekPast place _ (fun token rules => next token.kind rules)
    (fun token => rest token.kind)
    fun token => ?_
  rcases ended token.kind with reads | same
  · exact .inl reads
  · right
    intro final isEnd
    simp only [isEnd, same]

/--
Read a token of a kind if it is next; any other one plays the part of the end.
-/
private theorem eat {kind : TokenKind} {yes no : Rules → Parser Value}
    (real : kind ≠ .endOfInput)
    (endingYes : Ending (place.after true) yes)
    (endingNo : ∀ other, Ending (place.facing other) no) :
    Ending place (fun rules => Parser.eat kind >>= fun found =>
      if found = true then yes rules else no rules) := by
  have looked : Ending place (fun rules => Parser.current >>= fun token =>
      if token.kind = kind then Parser.skip >>= fun _ => yes rules
          else no rules) := by
    refine peekPast (fun token => ?_) fun token => ?_
    · by_cases same : token.kind = kind
      · have unread : (place.facing token.kind).unread := by
          simpa [Place.facing, same] using real
        simpa only [same, ↓reduceIte] using bind (skip unread) (.skip unread)
          fun _ => endingYes
      · simpa only [same, ↓reduceIte] using endingNo token.kind
    · by_cases same : token.kind = kind
      · have unread : (place.facing token.kind).unread := by
          simpa [Place.facing, same] using real
        left
        simpa only [same, ↓reduceIte] using
          Production.bind (.skip unread) fun _ => endingYes.production
      · right
        intro final isEnd
        have unlike : final.kind ≠ kind := by
          rw [isEnd]
          exact real.symm
        simp only [same, unlike, ↓reduceIte]
  refine Eq.mp (congrArg _ ?_) looked
  funext rules input state
  have looking : Parser.current input state =
      .done (input.window.tokenAt state.position) state :=
    rfl
  by_cases found : input.window.kindAt state.position = kind
  · have tokenFound : (input.window.tokenAt state.position).kind = kind := found
    have eaten := (Parser.eat_run kind input state).trans (if_pos found)
    rw [Parser.run_bind looking, Parser.run_bind eaten, if_pos tokenFound]
    subst found
    rfl
  · have tokenOther : (input.window.tokenAt state.position).kind ≠ kind := found
    have eaten := (Parser.eat_run kind input state).trans (if_neg found)
    rw [Parser.run_bind looking, Parser.run_bind eaten, if_neg tokenOther]
    rfl

private theorem spanFrom (start : Span) :
    Ending place (fun _ => Parser.spanFrom start) :=
  bind (observe Surroundings.spanBefore) .previousSpan fun _ => pure _

private theorem textOf (name : Name) :
    Ending place (fun _ => Parser.textOf name) :=
  observe fun around => around.names.text name

private theorem arena : Ending place (fun _ => Parser.arena) :=
  observe fun around => around.arena

private theorem currentScope : Ending place (fun _ => Parser.currentScope) :=
  observe fun around => around.current

private theorem lookup? (name : Name) :
    Ending place (fun _ => Parser.lookup? name) :=
  observe fun around => around.table.find? around.current (.simple name)

private theorem addName (form : NameForm) (span : Span) :
    Ending place (fun _ => Parser.addName form span) :=
  add fun arena => arena.extends_addName form span

private theorem addType (form : TypeForm) (span : Span) :
    Ending place (fun _ => Parser.addType form span) :=
  add fun arena => arena.extends_addType form span

private theorem addExpr (form : ExprForm) (span : Span) :
    Ending place (fun _ => Parser.addExpr form span) :=
  add fun arena => arena.extends_addExpr form span

private theorem addStmt (form : StmtForm) (span : Span) :
    Ending place (fun _ => Parser.addStmt form span) :=
  add fun arena => arena.extends_addStmt form span

/--
The last part of a production: a term with the span of what has been read.
-/
private theorem spanned {start : Span} {next : Span → Rules → Parser Value}
    (rest : ∀ span, Ending (place.after false) (next span)) :
    Ending place (fun rules => Parser.spanFrom start >>= fun span =>
      next span rules) :=
  bind (spanFrom start) (.spanFrom start) rest

private theorem identifier : Ending place (fun _ => Parser.identifier) :=
  bind expectIdentifier .expectIdentifier fun _ => addName _ _

/-- Before a token that has to be of a kind any production may stand. -/
private theorem before {First : Type} {before : First → Bool} {kind : TokenKind}
    {parser : Rules → Parser First} {next : First → Rules → Parser Value}
    (real : kind ≠ .endOfInput)
    (first : Production place before parser)
    (rest : ∀ value, Ending ((place.after (before value)).after true)
      (next value)) :
    Ending place (fun rules => parser rules >>= fun value =>
      Parser.expect kind >>= fun _ => next value rules) :=
  lastly first (fun value => bind (expect real) (.expect real) fun _ =>
    rest value)
    fun value => .bind (.expect real) fun _ => (rest value).production

/--
Call a nonterminal where a token has been read, so that all of them may be
called.
-/
theorem callBehind (nonterminal : Nonterminal Value)
    (ended : nonterminal.endedByAny = true)
    (behind : place.rank = Parser.ranks) :
    Ending place (fun rules => rules.parse nonterminal) :=
  call nonterminal (behind ▸ nonterminal.rank_lt) ended

/-- A token that is skipped is read. -/
private theorem reads_skip {next : Rules → Parser Value}
    (unread : place.unread)
    (rest : Ending (place.after true) next) :
    Production place (fun _ => true) (fun rules => Parser.skip >>= fun _ =>
      next rules) :=
  .bind (.skip unread) fun _ => rest.production

private theorem appliedName (decl : DeclId) (name : Name) (span : Span) :
    Ending place (fun rules => rules.appliedName decl name span) :=
  eat nofun
    (bind (angledArgs (by decide : 4 < Parser.ranks))
      (.args (by decide : 4 < Parser.ranks))
      fun _ => spanned fun _ => addName _ _)
    fun _ => addName _ _

private theorem nameOf
    (decl : DeclId)
    (takesArgs : Bool)
    (name : Name)
    (span : Span) :
    Ending place (fun rules => rules.nameOf decl takesArgs name span) :=
  ite (appliedName decl name span) (addName _ _)

private theorem namedType : Ending place (fun rules => rules.namedType) := by
  refine bind expectIdentifier .expectIdentifier fun named =>
    bind (lookup? _) (.lookup? _) fun found => ?_
  cases found with
  | none =>
      exact bind (textOf _) (.textOf _) fun _ => failAt rfl
  | some decls =>
      refine bind arena .arena fun arena => ?_
      cases arena.typeAmong? decls with
      | none =>
          exact bind (textOf _) (.textOf _) fun _ => failAt rfl
      | some decl =>
          exact bind (nameOf _ _ _ _) (.nameOf _ _ _ _) fun _ =>
            spanned fun _ => addType _ _

private theorem parenthesizedType :
    Ending place (fun rules => rules.parenthesizedType) := by
  refine peekSpan (fun start => bind (expect nofun) (.expect nofun) fun _ =>
    before nofun (.callBehind (.listedTypes _) rfl rfl) fun listed => eat nofun
      (bind (callBehind .type rfl rfl) (.callBehind .type rfl rfl) fun _ =>
        spanned fun _ => addType _ _)
      fun _ => ?_) .parenthesizedType
  split
  · exact pure _
  · exact spanned fun _ => addType _ _

private theorem decltype (unread : place.unread) :
    Ending place (fun rules => rules.decltype) :=
  peekSpan (fun _ => bind (skip unread) (.skip unread) fun _ =>
    bind (expect nofun) (.expect nofun) fun _ =>
      before nofun (.expressionBehind rfl) fun _ =>
      spanned fun _ => addType _ _) (.decltype unread)

private theorem primaryType :
    Ending place (fun rules => rules.primaryType) := by
  refine peek (fun token => ?_) .primaryType
  split
  next =>
    exact namedType
  next =>
    exact parenthesizedType
  next same =>
    exact decltype (by simp [Place.facing, same])
  next =>
    split
    next named =>
      have unread : (place.facing token.kind).unread := by
        rintro same
        simp [same, BuiltinType.ofKind?] at named
      exact bind (skip unread) (.skip unread) fun _ => addType _ _
    next =>
      exact failAt rfl

private theorem typeSuffix? (base : TypeId) :
    Ending place (fun rules => rules.typeSuffix? base) := by
  refine peekKind (fun kind => ?_) fun kind => ?_
  · split
    next =>
      exact bind (skip nofun) (.skip nofun) fun _ => pure _
    next =>
      exact bind (skip nofun) (.skip nofun) fun _ => pure _
    next =>
      exact bind (skip nofun) (.skip nofun) fun _ => eat nofun (pure _) fun _ =>
        before nofun (.expressionBehind rfl) fun _ => pure _
    next =>
      split
      next qualifies =>
        have unread : (place.facing kind).unread := by
          rintro same
          simp [same, Qualifiers.ofKind?] at qualifies
        exact bind (skip unread) (.skip unread) fun _ => pure _
      next =>
        exact pure _
  · split
    next =>
      exact .inl (reads_skip nofun (pure _))
    next =>
      exact .inl (reads_skip nofun (pure _))
    next =>
      exact .inl (reads_skip nofun (eat nofun (pure _) fun _ =>
        before nofun (.expressionBehind rfl) fun _ => pure _))
    next =>
      split
      next qualifies =>
        have unread : (place.facing kind).unread := by
          rintro same
          simp [same, Qualifiers.ofKind?] at qualifies
        exact .inl (reads_skip unread (pure _))
      next =>
        exact .inr rfl

private theorem typeSuffixes (start : Span) (base : TypeId) :
    Ending place (fun rules => rules.typeSuffixes start base) := by
  refine bind (typeSuffix? base) (.typeSuffix? base) fun form? => ?_
  cases form? with
  | some form =>
      exact spanned fun _ => bind (addType _ _) (.addType _ _) fun _ =>
        callBehind (.typeSuffixes _ _) rfl rfl
  | none =>
      exact pure _

private theorem unaryType : Ending place (fun rules => rules.unaryType) := by
  refine peek (fun token => ?_) .unaryType
  split
  next qualifies =>
    have unread : (place.facing token.kind).unread := by
      rintro same
      simp [same, Qualifiers.ofKind?] at qualifies
    exact bind (skip unread) (.skip unread) fun _ =>
      bind (callBehind .unaryType rfl rfl)
          (.callBehind .unaryType rfl rfl) fun _ =>
        spanned fun _ => addType _ _
  next =>
    exact bind primaryType .primaryType fun _ =>
      callBehind (.typeSuffixes _ _) rfl rfl

private theorem type (smaller : 0 < place.rank) :
    Ending place (fun rules => rules.type) :=
  peekSpan (fun _ =>
    bind (call .unaryType smaller rfl) (.callSmaller .unaryType rfl smaller)
    fun _ => eat nofun (spanned fun _ => addType _ _) fun _ => pure _)
      (.type smaller)

private theorem operand (tier : Tier) (smaller : tier.rank ≤ place.rank) :
    Ending place (fun rules => rules.operand tier) := by
  unfold Rules.operand
  cases next : tier.tighter? with
  | some tighter =>
      exact call (.tier tighter)
        (Nat.lt_of_lt_of_le (Tier.rank_lt_of_tighter? next) smaller) rfl
  | none =>
      exact call .unary (Nat.lt_of_lt_of_le tier.rank_pos smaller) rfl

private theorem operations (tier : Tier) (left : ExprId) :
    Ending place (fun rules => rules.operations tier left) := by
  have onward : ∀ (op : BinaryOp) (kind : TokenKind),
      Ending ((place.facing kind).after true)
          (fun rules => rules.operand tier >>= fun right =>
        Parser.arena >>= fun arena =>
          Parser.addExpr (.binary op left right)
            ((arena.expr left).span.merge (arena.expr right).span) >>=
                fun joined =>
              rules.parse (.operations tier joined)) := by
    intro op kind
    have room : tier.rank ≤ Parser.ranks :=
      Nat.le_of_lt (Nonterminal.rank_lt (.tier tier))
    exact bind (operand tier room) (.operand tier room) fun _ =>
      bind arena .arena fun _ =>
      bind (addExpr _ _) (.addExpr _ _) fun _ =>
        callBehind (.operations _ _) rfl rfl
  refine peekKind (fun kind => ?_) fun kind => ?_
  · cases found : BinaryOp.ofKind? tier kind with
    | none =>
        exact pure _
    | some op =>
        have isSymbol := List.find?_some found
        have unread : (place.facing kind).unread := by
          rintro rfl
          simp at isSymbol
        exact bind (skip unread) (.skip unread) fun _ => onward op kind
  · cases found : BinaryOp.ofKind? tier kind with
    | none =>
        right
        have end? : BinaryOp.ofKind? tier .endOfInput = none := by
          cases tier <;> rfl
        simp only [end?]
    | some op =>
        have isSymbol := List.find?_some found
        have unread : (place.facing kind).unread := by
          rintro rfl
          simp at isSymbol
        exact .inl (reads_skip unread (onward op kind))

private theorem tiered (tier : Tier) (smaller : tier.rank ≤ place.rank) :
    Ending place (fun rules => rules.tiered tier) :=
  bind (operand tier smaller) (.operand tier smaller) fun _ =>
    callBehind (.operations _ _) rfl rfl

private theorem closedExpressions (behind : place.rank = Parser.ranks) :
    Ending place (fun rules => rules.closedExpressions) :=
  before nofun (.orNone _ .expressions rfl (behind ▸ Nonterminal.rank_lt _))
    fun _ => pure _

private theorem namedExpression :
    Ending place (fun rules => rules.namedExpression) := by
  refine bind expectIdentifier .expectIdentifier fun named =>
    bind (lookup? _) (.lookup? _) fun found => ?_
  split
  · exact bind (textOf _) (.textOf _) fun _ => failAt rfl
  · exact bind arena .arena fun _ =>
      bind (nameOf _ _ _ _) (.nameOf _ _ _ _) fun _ =>
      spanned fun _ => addExpr _ _
  · exact bind (addName _ _) (.addName _ _) fun _ => spanned fun _ =>
      addExpr _ _

private theorem parenthesizedExpression :
    Ending place (fun rules => rules.parenthesizedExpression) :=
  peekSpan (fun _ => bind (expect nofun) (.expect nofun) fun _ => eat nofun
    (spanned fun _ => addExpr _ _)
    fun _ => bind (callBehind (.tier .or) rfl rfl)
        (.expressionBehind rfl) fun _ =>
      eat nofun (pure _) fun _ => bind (expect nofun) (.expect nofun) fun _ =>
        bind (closedExpressions rfl) (.closedExpressions rfl) fun _ =>
          spanned fun _ => addExpr _ _) .parenthesizedExpression

private theorem requiresBody : Ending place (fun rules => rules.requiresBody) :=
  before nofun .requiresParams fun _ =>
    bind (callBehind .requirements rfl rfl) (.callBehind .requirements rfl rfl)
      fun _ => pure _

private theorem requiresExpression :
    Ending place (fun rules => rules.requiresExpression) :=
  peekSpan (fun _ => bind (expect nofun) (.expect nofun) fun _ =>
    bind (pushScope _) (.pushScope _) fun _ =>
      bind (within _ requiresBody) (.within _ .requiresBody) fun _ =>
        spanned fun _ => addExpr _ _) .requiresExpression

private theorem literal (form : ExprForm) (unread : place.unread) :
    Ending place (fun _ => Rules.literal form) :=
  bind (advance unread) (.advance unread) fun _ => addExpr _ _

private theorem primary : Ending place (fun rules => rules.primary) := by
  refine peek (fun token => ?_) .primary
  split
  next same =>
    exact literal _ (by simp [Place.facing, same])
  next same =>
    exact literal _ (by simp [Place.facing, same])
  next same =>
    exact literal _ (by simp [Place.facing, same])
  next =>
    exact namedExpression
  next =>
    exact parenthesizedExpression
  next =>
    exact requiresExpression
  next =>
    exact failAt rfl

private theorem postfix? (object : ExprId) :
    Ending place (fun rules => rules.postfix? object) := by
  refine peekKind (fun kind => ?_) fun kind => ?_
  · split
    next =>
      exact bind (skip nofun) (.skip nofun) fun _ =>
        bind (closedExpressions rfl) (.closedExpressions rfl) fun _ => pure _
    next =>
      exact bind (skip nofun) (.skip nofun) fun _ =>
        bind identifier .identifier fun _ => pure _
    next =>
      exact bind (skip nofun) (.skip nofun) fun _ =>
        before nofun (.expressionBehind rfl) fun _ => pure _
    next =>
      exact pure _
  · split
    next =>
      exact .inl (reads_skip nofun
        (bind (closedExpressions rfl) (.closedExpressions rfl) fun _ => pure _))
    next =>
      exact .inl
        (reads_skip nofun (bind identifier .identifier fun _ => pure _))
    next =>
      exact .inl (reads_skip nofun
        (before nofun (.expressionBehind rfl) fun _ => pure _))
    next =>
      exact .inr rfl

private theorem postfixes (start : Span) (object : ExprId) :
    Ending place (fun rules => rules.postfixes start object) := by
  refine bind (postfix? object) (.postfix? object) fun form? => ?_
  cases form? with
  | some form =>
      exact spanned fun _ => bind (addExpr _ _) (.addExpr _ _) fun _ =>
        callBehind (.postfixes _ _) rfl rfl
  | none =>
      exact pure _

private theorem unary : Ending place (fun rules => rules.unary) := by
  refine peek (fun token => ?_) .unary
  cases found : UnaryOp.ofKind? token.kind with
  | some op =>
      have isSymbol := List.find?_some found
      have unread : (place.facing token.kind).unread := by
        intro same
        simp [same] at isSymbol
      exact bind (skip unread) (.skip unread) fun _ =>
        bind (callBehind .unary rfl rfl) (.callBehind .unary rfl rfl) fun _ =>
          spanned fun _ => addExpr _ _
  | none =>
      exact bind primary .primary fun _ => callBehind (.postfixes _ _) rfl rfl

private theorem moreItems
    {Item : Type}
    {item : Rules → Parser Item}
    (rest : Nonterminal (List Item))
    (ended : rest.endedByAny = true)
    (plain : (rest.settled && !rest.inTemplate) = true)
    (reads : rest.reads = true)
    (production : Production place (fun _ => true) item) :
    Ending place (fun rules => rules.moreItems (item rules) rest) := by
  refine peekEnd (fun _ => ite ?_ ?_) (.moreItems rest plain production)
  · refine peekSpan (fun _ => failAt rfl) (.peekSpan fun _ => .failAt rfl)
  · refine lastly production
      (fun _ => bind (callBehind rest ended rfl) (.callBehind rest plain rfl)
        fun _ => pure _)
      fun _ => .bind (.callBehind rest plain rfl) fun _ => .pure ?_
    simp [stillToRead, reads]

private theorem bracedItems
    {Item : Type}
    {item : Rules → Parser Item}
    (rest : Nonterminal (List Item))
    (ended : rest.endedByAny = true)
    (plain : (rest.settled && !rest.inTemplate) = true)
    (reads : rest.reads = true)
    (production : ∀ other, Production (place.facing other) (fun _ => true)
      item) :
    Ending place (fun rules => rules.bracedItems (item rules) rest) :=
  eat nofun (pure _) fun other =>
    moreItems rest ended plain reads (production other)

private theorem bracedStatements (smaller : 11 < place.rank) :
    Ending place (fun rules => rules.bracedStatements) :=
  bracedItems _ rfl rfl rfl fun _ => .callSmaller .statement rfl smaller

private theorem requirements (smaller : 10 < place.rank) :
    Ending place (fun rules => rules.requirements) :=
  bracedItems _ rfl rfl rfl fun _ => .requirement smaller

theorem currentBlock : Ending place (fun rules => rules.currentBlock) :=
  bind currentScope .currentScope fun _ =>
    peekSpan (fun _ => bind (expect nofun) (.expect nofun) fun _ =>
      bind (within _ (callBehind .bracedStatements rfl rfl))
        (.within _ (.callBehind .bracedStatements rfl rfl)) fun _ =>
          spanned fun _ => addStmt _ _) (.blockIn _)

theorem memberBody : Ending place (fun rules => rules.memberBody) :=
  peekSpan (fun _ => bind currentScope .currentScope fun _ =>
    bind (expect nofun) (.expect nofun) fun _ =>
      bind (callBehind .bracedStatements rfl rfl)
          (.callBehind .bracedStatements rfl rfl) fun _ =>
        spanned fun _ => addStmt _ _) .memberBody

/--
Every nonterminal that is ended by any token is parsed by such a production.
-/
theorem produce (nonterminal : Nonterminal Value)
    (ended : nonterminal.endedByAny = true)
    (ranked : place.rank = nonterminal.rank) :
    Ending place (fun rules => rules.produce nonterminal) := by
  cases nonterminal with
  | type => exact type (ranked ▸ by decide)
  | unaryType => exact unaryType
  | typeSuffixes start base => exact typeSuffixes start base
  | tier tier => exact tiered tier (Nat.le_of_eq ranked.symm)
  | operations tier left => exact operations tier left
  | unary => exact unary
  | postfixes start object => exact postfixes start object
  | requirements => exact requirements (ranked ▸ by decide)
  | bracedStatements => exact bracedStatements (ranked ▸ by decide)
  | _ => cases ended

end Ending

end Tern
