import Tern.Proofs.Spelling.ExpressionParsing
import Tern.Proofs.Spelling.Types

namespace Tern

/-!
# Spelled types are parsed

Where tokens spell a type at a level, the parser of that level comes to stand
behind them with the tree. Suffixes are joined to what stands before them, so a
type that they may follow is shown to be gone on with as it is read.
-/

/-- A spelling begins with no closer, and one of an atom with no qualifier. -/
private theorem TypeSpelling.exists_head
    {phrase : TypePhrase}
    {kinds : List TokenKind}
    (spelled : TypeSpelling phrase kinds) :
    ∃ kind rest, kinds = kind :: rest ∧ kind.closes? = none ∧
      ∀ tree, phrase = .type .atom tree → Qualifiers.ofKind? kind = none := by
  induction spelled with
  | builtin kind => exact ⟨_, _, rfl, rfl, fun _ _ => by cases kind <;> rfl⟩
  | declared decl name => exact ⟨_, _, rfl, rfl, fun _ _ => rfl⟩
  | group inner => exact ⟨_, _, rfl, rfl, fun _ _ => rfl⟩
  | emptyTuple => exact ⟨_, _, rfl, rfl, fun _ _ => rfl⟩
  | oneTuple inner => exact ⟨_, _, rfl, rfl, fun _ _ => rfl⟩
  | tuple listed => exact ⟨_, _, rfl, rfl, fun _ _ => rfl⟩
  | decltype inner => exact ⟨_, _, rfl, rfl, fun _ _ => rfl⟩
  | suffixed suffix base inductionHypothesis =>
      obtain ⟨kind, rest, rfl, opens, unqualified⟩ := inductionHypothesis
      exact ⟨kind, _, rfl, opens, fun _ _ => unqualified _ rfl⟩
  | array base bound inductionHypothesis =>
      obtain ⟨kind, rest, rfl, opens, unqualified⟩ := inductionHypothesis
      exact ⟨kind, _, rfl, opens, fun _ _ => unqualified _ rfl⟩
  | unqualified closed inner inductionHypothesis =>
      obtain ⟨kind, rest, rfl, opens, _⟩ := inductionHypothesis
      exact ⟨kind, rest, rfl, opens, nofun⟩
  | qualified qualifier base => exact ⟨_, _, rfl, rfl, nofun⟩
  | emptyFunction last => exact ⟨_, _, rfl, rfl, nofun⟩
  | function listed last => exact ⟨_, _, rfl, rfl, nofun⟩
  | unpacked inner inductionHypothesis =>
      obtain ⟨kind, rest, rfl, opens, _⟩ := inductionHypothesis
      exact ⟨kind, rest, rfl, opens, nofun⟩
  | pack base inductionHypothesis =>
      obtain ⟨kind, rest, rfl, opens, _⟩ := inductionHypothesis
      exact ⟨kind, _, rfl, opens, nofun⟩
  | single inner inductionHypothesis =>
      obtain ⟨kind, rest, rfl, opens, _⟩ := inductionHypothesis
      exact ⟨kind, rest, rfl, opens, nofun⟩
  | more head tail inductionHypothesis =>
      obtain ⟨kind, rest, rfl, opens, _⟩ := inductionHypothesis
      exact ⟨kind, _, rfl, opens, nofun⟩

/-- The first token of a spelling closes nothing. -/
private theorem TypeSpelling.kindAt_ne_closer
    {phrase : TypePhrase}
    {kinds : List TokenKind}
    {window : Window}
    {position : Nat}
    (spelled : TypeSpelling phrase kinds)
    (spells : window.Spells position kinds)
    (delimiter : Delimiter) :
    window.kindAt position ≠ delimiter.closer := by
  obtain ⟨kind, rest, rfl, closesNothing, _⟩ := spelled.exists_head
  rw [spells.2.1]
  rintro rfl
  exact absurd closesNothing nofun

/-- The tokens at which the suffixes of a type end. -/
structure SuffixesEndAt (kind : TokenKind) : Prop where
  amp : kind ≠ .symbol .amp
  star : kind ≠ .symbol .star
  bracket : kind ≠ Delimiter.opener .bracket
  qualifier : Qualifiers.ofKind? kind = none

/-- The tokens at which a type ends. -/
structure TypeEndsAt (kind : TokenKind) : Prop where
  suffixes : SuffixesEndAt kind
  ellipsis : kind ≠ .symbol .ellipsis
  arrow : kind ≠ .symbol .arrow

/-- At a closing delimiter a type ends. -/
private theorem typeEndsAt_closer (delimiter : Delimiter) :
    TypeEndsAt delimiter.closer where
  suffixes := ⟨nofun, nofun, nofun, rfl⟩
  ellipsis := nofun
  arrow := nofun

/-- At a comma a type ends. -/
private theorem typeEndsAt_comma : TypeEndsAt (.symbol .comma) where
  suffixes := ⟨nofun, nofun, nofun, rfl⟩
  ellipsis := nofun
  arrow := nofun

/-- The tokens behind a part of a type at which the part itself is over. -/
def TypeLevel.Settles : TypeLevel → TokenKind → Prop
  | .atom, kind => kind ≠ .symbol .arrow
  | .unary true, kind => SuffixesEndAt kind ∧ kind ≠ .symbol .arrow
  | .unary false, kind => TypeEndsAt kind
  | .whole, kind => TypeEndsAt kind

/-- Where a type ends, all parts of it are over. -/
private theorem TypeEndsAt.settles
    {kind : TokenKind}
    (ends : TypeEndsAt kind)
    (level : TypeLevel) :
    level.Settles kind := by
  rcases level with _ | ⟨_ | _⟩ | _
  · exact ends.arrow
  · exact ends
  · exact ⟨ends.suffixes, ends.arrow⟩
  · exact ends

/--
Where a type without a pack marker is over, no suffix and no arrow follows.
-/
private theorem TypeLevel.Settles.unary
    {kind : TokenKind}
    {closed : Bool}
    (settles : (TypeLevel.unary closed).Settles kind) :
    SuffixesEndAt kind ∧ kind ≠ .symbol .arrow := by
  cases closed with
  | true => exact settles
  | false => exact ⟨settles.suffixes, settles.arrow⟩

/-- A qualifier is read from its word. -/
private theorem Qualifiers.ofKind?_word (qualifier : Qualifier) :
    Qualifiers.ofKind? (.keyword qualifier.word) = some qualifier.alone := by
  cases qualifier <;> rfl

/-- A primary type is chosen by its first token. -/
private theorem Rules.primaryType_run
    (rules : Rules)
    (input : ParserInput)
    (state : ParserState) :
    rules.primaryType input state =
      (match input.window.kindAt state.position with
        | .identifier _ => rules.namedType
        | .symbol (.opening .paren) => rules.parenthesizedType
        | .keyword .decltypeWord => rules.decltype
        | found =>
            match BuiltinType.ofKind? found with
            | some type => do
                Parser.skip
                Parser.addType (.builtin type)
                  (input.window.spanAt state.position)
            | none => Parser.failAt (.expectedType found)
                (input.window.spanAt state.position))
        input state :=
  rfl

/-- The name of a class or a type parameter is read as a type. -/
private theorem Rules.namedType_run
    {input : ParserInput}
    {state : ParserState}
    {decl : DeclId}
    {name : Name}
    (rules : Rules)
    (found : state.naming.type? name = some decl)
    (identified : input.window.kindAt state.position = .identifier name) :
    let named := (Parser.behind input state).withName (.simple name)
      (input.window.spanAt state.position)
    rules.namedType input state =
      .done named.nextType
        (named.withType (.declared decl (Parser.behind input state).nextName)
          ((input.window.spanAt state.position).merge
            (input.window.spanBefore named.position))) := by
  obtain ⟨sought, plain⟩ := Option.filter_eq_some_iff.mp found
  obtain ⟨decls, denoted, among⟩ := Option.bind_eq_some_iff.mp sought
  have noTemplate : state.arena.isTemplate decl = false := by simpa using plain
  have looked : Parser.lookup? name input (Parser.behind input state) =
      .done (some decls) (Parser.behind input state) :=
    congrArg (Outcome.done · (Parser.behind input state)) denoted
  have arena : Parser.arena input (Parser.behind input state) =
      .done state.arena (Parser.behind input state) := rfl
  rw [Rules.namedType, Parser.run_bind (Parser.expectIdentifier_run identified)]
  simp only [Parser.run_bind looked, Parser.run_bind arena, among, Rules.nameOf,
    noTemplate]
  rfl

namespace Eventually

variable {input : ParserInput} {state middle after : ParserState}
  {base type : TypeId}

/-- Behind no suffix a type is done. -/
private theorem typeSuffixes_end
    {start : Span}
    (ends : SuffixesEndAt (input.window.kindAt state.position)) :
    Eventually (fun rules => rules.parse (.typeSuffixes start base)) input state
      base state := by
  have stays : ∀ rules : Rules, rules.typeSuffix? base input state =
      .done none state := by
    intro rules
    have looked : Parser.currentKind input state =
        .done (input.window.kindAt state.position) state := rfl
    rw [Rules.typeSuffix?, Parser.run_bind looked]
    generalize input.window.kindAt state.position = kind at ends
    split
    next => exact absurd rfl ends.amp
    next => exact absurd rfl ends.star
    next => exact absurd rfl ends.bracket
    next =>
      rw [ends.qualifier]
      rfl
  refine .call ?_
  simp only [Rules.produce, Rules.typeSuffixes]
  exact .bind (.done stays) (.done fun _ => rfl)

/-- A suffix is joined to what stands before it. -/
private theorem typeSuffixes_step
    {start : Span}
    {form : TypeForm}
    (suffix : Eventually (fun rules => rules.typeSuffix? base) input state
      (some form) middle)
    (rest : Eventually
      (fun rules => rules.parse (.typeSuffixes start middle.nextType)) input
      (middle.withType form
        (start.merge (input.window.spanBefore middle.position))) type after) :
    Eventually (fun rules => rules.parse (.typeSuffixes start base)) input state
      type after := by
  refine .call ?_
  simp only [Rules.produce, Rules.typeSuffixes]
  exact .bind suffix (.step rfl (.step rfl rest))

/--
A reference, a pointer or a qualifier is a suffix of one token, a slice one of
two.
-/
private theorem typeSuffix_wrapped
    {suffix : TypeSuffix}
    (base : TypeId)
    (spells : input.window.Spells state.position suffix.tokens) :
    ∃ middle, state.Past suffix.tokens.length middle ∧
      Eventually (fun rules => rules.typeSuffix? base) input state
        (some (.wrapped suffix.wrapper base)) middle := by
  have looked : Parser.currentKind input state =
      .done (input.window.kindAt state.position) state := rfl
  cases suffix with
  | reference =>
      rw [spells.2.1] at looked
      exact ⟨_, .behind spells.1, .step looked (.skip (.done fun _ => rfl))⟩
  | pointer =>
      rw [spells.2.1] at looked
      exact ⟨_, .behind spells.1, .step looked (.skip (.done fun _ => rfl))⟩
  | slice =>
      have encloses := ParserState.Encloses.of_spells spells
      rw [encloses.opener] at looked
      exact ⟨_, encloses.past (.refl _),
        .step looked (.skip (.eat encloses.closer (.done fun _ => rfl)))⟩
  | qualified qualifier =>
      rw [spells.2.1] at looked
      cases qualifier with
      | const =>
          exact ⟨_, .behind spells.1, .step looked (.skip (.done fun _ => rfl))⟩
      | volatile =>
          exact ⟨_, .behind spells.1, .step looked (.skip (.done fun _ => rfl))⟩

/-- The length of an array is a suffix. -/
private theorem typeSuffix_array
    {length : ExprId}
    (opener : input.window.kindAt state.position = Delimiter.opener .bracket)
    (begins : input.window.kindAt (Parser.behind input state).position ≠
      Delimiter.closer .bracket)
    (parsed : Eventually (fun rules => rules.expression) input
      (Parser.behind input state) length
      middle)
    (closer : input.window.kindAt middle.position = Delimiter.closer .bracket) :
    Eventually (fun rules => rules.typeSuffix? base) input state
      (some (.array base length))
      (Parser.behind input middle) := by
  have looked : Parser.currentKind input state =
      .done (Delimiter.opener .bracket) state := by
    rw [← opener]
    rfl
  exact .step looked
    (.skip (.leave begins (.bind parsed (.expect closer (.done fun _ => rfl)))))

/-- A type in parentheses goes on behind the closing one. -/
private theorem parenthesizedType
    {types : List TypeId}
    {trailing : Bool}
    (opener : input.window.kindAt state.position = Delimiter.opener .paren)
    (closer : input.window.kindAt middle.position = Delimiter.closer .paren)
    (rest : Eventually
      (fun rules => Parser.eat (.symbol .arrow) >>= fun arrow =>
        if arrow then
          rules.parse .type >>= fun result =>
            Parser.spanFrom (input.window.spanAt state.position) >>= fun span =>
              Parser.addType (.function types result) span
        else
          match types, trailing with
          | [only], false => Pure.pure only
          | _, _ =>
              Parser.spanFrom (input.window.spanAt state.position) >>=
                  fun span =>
                Parser.addType (.tuple types) span)
      input (Parser.behind input middle) type after)
    (listed : Eventually (fun rules => rules.parse (.listedTypes false)) input
      (Parser.behind input state) (types, trailing) middle) :
    Eventually (fun rules => rules.primaryType) input state type after := by
  have chosen : ∀ rules : Rules,
      rules.primaryType input state = rules.parenthesizedType input state := by
    intro rules
    rw [Rules.primaryType_run, opener]
    rfl
  obtain ⟨least, runs⟩ : Eventually (fun rules => rules.parenthesizedType) input
      state type after :=
    .step rfl (.expect opener (.bind listed (.expect closer rest)))
  exact ⟨least, fun depth deep => (chosen _).trans (runs depth deep)⟩

/-- A type that is not empty is listed before a closing parenthesis. -/
private theorem listedTypes_last
    {afterComma : Bool}
    (begins : input.window.kindAt state.position ≠ Delimiter.closer .paren)
    (parsed : Eventually (fun rules => rules.parse .type) input state type
      middle)
    (closer : input.window.kindAt middle.position = Delimiter.closer .paren) :
    Eventually (fun rules => rules.parse (.listedTypes afterComma)) input state
      ([type], false)
      middle := by
  have checked : Parser.check (Delimiter.closer .paren) input state =
      .done false state :=
    congrArg (Outcome.done · state) (decide_eq_false begins)
  refine .call ?_
  show Eventually (fun rules => rules.listedTypes afterComma) input state _ _
  unfold Rules.listedTypes
  exact .step checked
    (.bind parsed (.leave (by rw [closer]; nofun) (.done fun _ => rfl)))

/-- A type before a comma is listed with what follows the comma. -/
private theorem listedTypes_comma
    {afterComma trailing : Bool}
    {types : List TypeId}
    (begins : input.window.kindAt state.position ≠ Delimiter.closer .paren)
    (parsed : Eventually (fun rules => rules.parse .type) input state type
      middle)
    (comma : input.window.kindAt middle.position = .symbol .comma)
    (rest : Eventually (fun rules => rules.parse (.listedTypes true)) input
      (Parser.behind input middle) (types, trailing) after) :
    Eventually (fun rules => rules.parse (.listedTypes afterComma)) input state
      (type :: types, trailing) after := by
  have checked : Parser.check (Delimiter.closer .paren) input state =
      .done false state :=
    congrArg (Outcome.done · state) (decide_eq_false begins)
  refine .call ?_
  show Eventually (fun rules => rules.listedTypes afterComma) input state _ _
  unfold Rules.listedTypes
  exact .step checked
    (.bind parsed (.eat comma (.bind rest (.done fun _ => rfl))))

/-- Nothing is listed before a closing parenthesis. -/
private theorem listedTypes_nil
    {afterComma : Bool}
    (closer : input.window.kindAt state.position = Delimiter.closer .paren) :
    Eventually (fun rules => rules.parse (.listedTypes afterComma)) input state
      ([], afterComma)
      state := by
  have checked : Parser.check (Delimiter.closer .paren) input state =
      .done true state :=
    congrArg (Outcome.done · state) (decide_eq_true closer)
  refine .call ?_
  show Eventually (fun rules => rules.listedTypes afterComma) input state _ _
  unfold Rules.listedTypes
  exact .step checked (.done fun _ => rfl)

/-- A type without qualifiers before it is a primary one with its suffixes. -/
private theorem unqualifiedType
    (plain : Qualifiers.ofKind? (input.window.kindAt state.position) = none)
    (primary : Eventually (fun rules => rules.primaryType) input state base
      middle)
    (rest : Eventually (fun rules => rules.parse
      (.typeSuffixes (input.window.spanAt state.position) base)) input middle
        type after) :
    Eventually (fun rules => rules.parse .unaryType) input state type
      after := by
  have looked : Parser.current input state =
      .done (input.window.tokenAt state.position) state := rfl
  refine .call ?_
  simp only [Rules.produce, Rules.unaryType]
  refine .step looked ?_
  simp only [Window.kindAt] at plain
  rw [plain]
  exact .bind primary rest

/-- A qualifier is read with what it stands before. -/
private theorem qualifiedType
    {qualifier : Qualifier}
    (found : input.window.kindAt state.position = .keyword qualifier.word)
    (inner : Eventually (fun rules => rules.parse .unaryType) input
      (Parser.behind input state)
      base middle) :
    Eventually (fun rules => rules.parse .unaryType) input state middle.nextType
      (middle.withType (.wrapped (.qualified qualifier.alone) base)
        ((input.window.spanAt state.position).merge
          (input.window.spanBefore middle.position))) := by
  have looked : Parser.current input state =
      .done (input.window.tokenAt state.position) state := rfl
  refine .call ?_
  simp only [Rules.produce, Rules.unaryType]
  refine .step looked ?_
  simp only [Window.kindAt] at found
  rw [found, Qualifiers.ofKind?_word]
  exact .skip (.bind inner (.step rfl (.done fun _ => rfl)))

/-- Without a pack marker a type is what stands before it. -/
private theorem unpackedType
    (inner : Eventually (fun rules => rules.parse .unaryType) input state base
      middle)
    (ends : input.window.kindAt middle.position ≠ .symbol .ellipsis) :
    Eventually (fun rules => rules.parse .type) input state base middle := by
  refine .call ?_
  simp only [Rules.produce, Rules.type]
  exact .step rfl (.bind inner (.leave ends (.done fun _ => rfl)))

/-- A pack is read with its marker. -/
private theorem packedType
    (inner : Eventually (fun rules => rules.parse .unaryType) input state base
      middle)
    (found : input.window.kindAt middle.position = .symbol .ellipsis) :
    Eventually (fun rules => rules.parse .type) input state
      (Parser.behind input middle).nextType
      ((Parser.behind input middle).withType (.wrapped .pack base)
        ((input.window.spanAt state.position).merge
          (input.window.spanBefore
            (Parser.behind input middle).position))) := by
  refine .call ?_
  simp only [Rules.produce, Rules.type]
  exact .step rfl (.bind inner (.eat found (.step rfl (.done fun _ => rfl))))

end Eventually

/--
The parser of a level comes to stand behind a part of a type with that part:
whatever it then does with the part, it does from where it began.
-/
def TypeLevel.Reaches
    (input : ParserInput)
    (state : ParserState)
    (type : TypeId)
    (middle : ParserState) : TypeLevel → Prop
  | .atom => ∀ value after,
      Eventually (fun rules => rules.parse
        (.typeSuffixes (input.window.spanAt state.position) type)) input middle
          value after →
      Eventually (fun rules => rules.parse .unaryType) input state value after
  | .unary _ => Eventually (fun rules => rules.parse .unaryType) input state
      type middle
  | .whole => Eventually (fun rules => rules.parse .type) input state type
      middle

/-- A phrase is read over some tokens. -/
def TypePhrase.Read
    (input : ParserInput)
    (state : ParserState)
    (count : Nat) :
    TypePhrase → Prop
  | .type level tree => ∃ type middle, state.Past count middle ∧
      tree.At middle.arena type ∧
      (level.Settles (input.window.kindAt middle.position) →
        level.Reaches input state type middle)
  | .list trees => ∃ types middle, state.Past count middle ∧
      TypeSyntax.AllAt middle.arena trees types ∧
      (input.window.kindAt middle.position = Delimiter.closer .paren →
        ∀ afterComma, Eventually
          (fun rules => rules.parse (.listedTypes afterComma)) input state
          (types, false) middle)

namespace TypePhrase.Read

variable {input : ParserInput} {state : ParserState} {level : TypeLevel}
  {tree : TypeSyntax}
  {count : Nat} {kinds : List TokenKind}

/-- A whole type is read where it ends. -/
private theorem whole
    (read : (TypePhrase.type .whole tree).Read input state count)
    (ends : TypeEndsAt (input.window.kindAt (state.position + count))) :
    ∃ type middle, state.Past count middle ∧ tree.At middle.arena type ∧
      Eventually (fun rules => rules.parse .type) input state type middle := by
  obtain ⟨type, middle, past, standing, reached⟩ := read
  rw [← past.position] at ends
  exact ⟨type, middle, past, standing, reached ends⟩

/-- A type is read when its node is added behind its tokens. -/
private theorem node
    {middle : ParserState}
    (form : TypeForm)
    (span : Span)
    (past : state.Past count middle)
    (standing : ∀ arena type, middle.arena.Extends arena →
      arena.Holds (.type type) →
      (arena.type type).form = form → tree.At arena type)
    (reached : level.Settles (input.window.kindAt middle.position) →
      level.Reaches input state middle.nextType (middle.withType form span)) :
    (TypePhrase.type level tree).Read input state count :=
  have grown := middle.past_withType span form
  ⟨middle.nextType, middle.withType form span, past.trans grown,
    standing _ _ grown.arena (ParserState.holds_withType ..)
      (ParserState.type_withType ..),
    reached⟩

/-- A type is read when its node is added with the span of its tokens. -/
private theorem spanned
    {middle : ParserState}
    (form : TypeForm)
    (past : state.Past count middle)
    (standing : ∀ arena type, middle.arena.Extends arena →
      arena.Holds (.type type) →
      (arena.type type).form = form → tree.At arena type)
    (reached : level.Settles (input.window.kindAt middle.position) →
      level.Reaches input state middle.nextType (middle.withType form
        ((input.window.spanAt state.position).merge
          (input.window.spanBefore middle.position)))) :
    (TypePhrase.type level tree).Read input state count :=
  node form _ past standing reached

/-- A builtin type is read. -/
private theorem builtin
    {kind : BuiltinType}
    (spells : input.window.Spells state.position [.keyword kind.word]) :
    (TypePhrase.type .atom (.builtin kind)).Read input state 1 := by
  refine node (.builtin kind) (input.window.spanAt state.position)
    (.behind spells.1)
    (fun _ _ _ held form => ⟨held, form⟩) fun _ value after rest =>
      .unqualifiedType ?_ (.done fun rules => ?_) rest
  · rw [spells.2.1]
    cases kind <;> rfl
  · rw [Rules.primaryType_run, spells.2.1]
    cases kind <;> rfl

/-- A name of a type is read. -/
private theorem declared
    {decl : DeclId}
    {name : Name}
    (found : state.naming.type? name = some decl)
    (spells : input.window.Spells state.position [.identifier name]) :
    (TypePhrase.type .atom (.declared decl name)).Read input state 1 := by
  have past :=
    (ParserState.Past.behind spells.1).trans
      ((Parser.behind input state).past_withName
    (input.window.spanAt state.position) (.simple name))
  refine spanned (.declared decl (Parser.behind input state).nextName) past ?_
    fun _ value after rest =>
      .unqualifiedType (by rw [spells.2.1]; rfl) (.done fun rules => ?_) rest
  · intro arena type grown held form
    have heldName := (Parser.behind input state).holds_withName
      (input.window.spanAt state.position) (.simple name)
    refine ⟨held, _, form, grown.holds heldName, ?_⟩
    rw [grown.name_eq heldName]
    exact ParserState.name_withName ..
  · rw [Rules.primaryType_run, spells.2.1]
    exact rules.namedType_run found spells.2.1

/-- A type in parentheses is read. -/
private theorem group
    (encloses : state.Encloses input .paren kinds)
    (begins : input.window.kindAt (Parser.behind input state).position ≠
      Delimiter.closer .paren)
    (read : (TypePhrase.type .whole tree).Read input (Parser.behind input state)
      kinds.length) :
    (TypePhrase.type .atom tree).Read input state
      (Delimiter.paren.around kinds).length := by
  obtain ⟨type, middle, past, standing, parsed⟩ :=
    read.whole (by rw [encloses.closer]; exact typeEndsAt_closer _)
  refine ⟨type, Parser.behind input middle, encloses.past past, standing,
    fun arrow value after rest =>
      .unqualifiedType (by rw [encloses.opener]; rfl) ?_ rest⟩
  exact .parenthesizedType encloses.opener (encloses.ends past)
    (.leave arrow (.done fun _ => rfl))
      (.listedTypes_last begins parsed (encloses.ends past))

/-- The tuple without elements is read. -/
private theorem emptyTuple (encloses : state.Encloses input .paren []) :
    (TypePhrase.type .atom (.tuple [])).Read input state
      (Delimiter.paren.around []).length := by
  refine spanned (.tuple []) (encloses.past (.refl _))
    (fun _ _ _ held form => ⟨held, [], form, rfl⟩) fun arrow value after rest =>
      .unqualifiedType (by rw [encloses.opener]; rfl) ?_ rest
  exact .parenthesizedType encloses.opener encloses.closer
    (.leave arrow (.step rfl (.done fun _ => rfl)))
      (.listedTypes_nil encloses.closer)

/-- A tuple of one element is read. -/
private theorem oneTuple
    (spelled : TypeSpelling (.type .whole tree) kinds)
    (encloses : state.Encloses input .paren (kinds ++ [.symbol .comma]))
    (read : input.window.Spells (Parser.behind input state).position kinds →
      (TypePhrase.type .whole tree).Read input (Parser.behind input state)
        kinds.length) :
    (TypePhrase.type .atom (.tuple [tree])).Read input state
      (Delimiter.paren.around (kinds ++ [.symbol .comma])).length := by
  obtain ⟨spellsFirst, before, comma, _⟩ :=
    Window.spells_append_cons.mp encloses.inner
  have begins := spelled.kindAt_ne_closer spellsFirst .paren
  obtain ⟨type, middle, past, standing, parsed⟩ :=
    (read spellsFirst).whole (by rw [comma]; exact typeEndsAt_comma)
  rw [← past.position] at before comma
  have count : kinds.length + 1 =
      (kinds ++ [TokenKind.symbol .comma]).length := by
    rw [List.length_append, List.length_singleton]
  have behindComma := past.trans (.behind before)
  rw [count] at behindComma
  have closer := encloses.ends behindComma
  refine spanned (.tuple [type]) (encloses.past behindComma)
      ?_ fun arrow value after rest =>
    .unqualifiedType (by rw [encloses.opener]; rfl) ?_ rest
  · exact fun arena tuple grown held form =>
      ⟨held, _, form, type, [], rfl, standing.grow grown, rfl⟩
  · exact .parenthesizedType encloses.opener closer
      (.leave arrow (.step rfl (.done fun _ => rfl)))
      (.listedTypes_comma begins parsed comma (.listedTypes_nil closer))

/-- A longer tuple is read. -/
private theorem tuple
    {first second : TypeSyntax}
    {rest : List TypeSyntax}
    (encloses : state.Encloses input .paren kinds)
    (read : (TypePhrase.list (first :: second :: rest)).Read input
      (Parser.behind input state)
      kinds.length) :
    (TypePhrase.type .atom (.tuple (first :: second :: rest))).Read input state
      (Delimiter.paren.around kinds).length := by
  obtain ⟨types, middle, past, standings, listed⟩ := read
  have closer := encloses.ends past
  refine spanned (.tuple types) (encloses.past past)
      ?_ fun arrow value after onward =>
    .unqualifiedType (by rw [encloses.opener]; rfl) ?_ onward
  · exact fun arena tuple grown held form =>
      ⟨held, _, form, standings.grow grown⟩
  · obtain ⟨type, _, rfl, _, other, others, rfl, _⟩ := standings
    exact .parenthesizedType encloses.opener closer
      (.leave arrow (.step rfl (.done fun _ => rfl))) (listed closer false)

/-- The type of an expression is read. -/
private theorem decltype
    {operand : ExprSyntax}
    (inside : state.position < input.window.stop)
    (found : input.window.kindAt state.position = .keyword .decltypeWord)
    (encloses : (Parser.behind input state).Encloses input .paren kinds)
    (read : (ExprPhrase.expr (.tier .or) operand).Read input
      (Parser.behind input (Parser.behind input state)) kinds.length) :
    (TypePhrase.type .atom (.decltype operand)).Read input state
      ((Delimiter.paren.around kinds).length + 1) := by
  obtain ⟨expr, middle, past, standing, parsed⟩ :=
    read.whole (by rw [encloses.closer]; exact ExprLevel.endsAt_closer _ _)
  have whole := (ParserState.Past.behind inside).trans (encloses.past past)
  rw [Nat.add_comm] at whole
  refine spanned (.decltype expr) whole ?_ fun _ value after rest =>
    .unqualifiedType (by rw [found]; rfl) ?_ rest
  · exact fun arena type grown held form => ⟨held, _, form, standing.grow grown⟩
  · have chosen : ∀ rules : Rules, rules.primaryType input state =
        rules.decltype input state := by
      intro rules
      rw [Rules.primaryType_run, found]
    obtain ⟨least, runs⟩ :
        Eventually (fun rules => rules.decltype) input state _ _ :=
      .step rfl (.skip
        (.expect encloses.opener (.bind parsed (.expect (encloses.ends past)
        (.step rfl (.done fun _ => rfl))))))
    exact ⟨least, fun depth deep => (chosen _).trans (runs depth deep)⟩

/-- A suffix is read behind what it wraps. -/
private theorem suffixed
    {suffix : TypeSuffix}
    (read : (TypePhrase.type .atom tree).Read input state count)
    (spells : input.window.Spells (state.position + count) suffix.tokens) :
    (TypePhrase.type .atom (.suffixed suffix tree)).Read input state
      (count + suffix.tokens.length) := by
  obtain ⟨base, middle, past, standing, reached⟩ := read
  rw [← past.position] at spells
  have noArrow : input.window.kindAt middle.position ≠ .symbol .arrow := by
    rcases suffix with _ | _ | _ | _ | _ <;> rw [spells.2.1] <;> nofun
  obtain ⟨last, further, suffix⟩ := Eventually.typeSuffix_wrapped base spells
  refine spanned (.wrapped _ base) (past.trans further)
      ?_ fun _ value after rest =>
    reached noArrow _ _ (.typeSuffixes_step suffix rest)
  exact fun arena type grown held form =>
    ⟨held, _, form, (standing.grow further.arena).grow grown⟩

/-- The length of an array is read behind its element. -/
private theorem array
    {length : ExprSyntax}
    {more : List TokenKind}
    (bound : ExprSpelling (.expr (.tier .or) length) more)
    (read : (TypePhrase.type .atom tree).Read input state count)
    (spells : input.window.Spells (state.position + count)
      (Delimiter.bracket.around more))
    (inner : ∀ middle, state.Past (count + 1) middle →
      input.window.Spells middle.position more →
      (ExprPhrase.expr (.tier .or) length).Read input middle more.length) :
    (TypePhrase.type .atom (.array tree length)).Read input state
      (count + (Delimiter.bracket.around more).length) := by
  obtain ⟨base, middle, past, standing, reached⟩ := read
  rw [← past.position] at spells
  have encloses := ParserState.Encloses.of_spells spells
  have read := inner _ (past.trans (.behind encloses.inside)) encloses.inner
  obtain ⟨expr, last, further, lengthStanding, parsed⟩ :=
    read.whole (by rw [encloses.closer]; exact ExprLevel.endsAt_closer _ _)
  have enclosed := encloses.past further
  refine spanned (.array base expr) (past.trans enclosed)
      ?_ fun _ value after rest =>
    reached (by rw [encloses.opener]; nofun) _ _ (.typeSuffixes_step ?_ rest)
  · exact fun arena type grown held form =>
      ⟨held, _, _, form, (standing.grow enclosed.arena).grow grown,
        lengthStanding.grow grown⟩
  · exact .typeSuffix_array encloses.opener
      (bound.kindAt_ne_closer encloses.inner _) parsed
      (encloses.ends further)

/-- A type without qualifiers before it is read. -/
private theorem unqualified
    {closed : Bool}
    (read : (TypePhrase.type .atom tree).Read input state count) :
    (TypePhrase.type (.unary closed) tree).Read input state count := by
  obtain ⟨type, middle, past, standing, reached⟩ := read
  refine ⟨type, middle, past, standing, fun settles => ?_⟩
  obtain ⟨suffixes, arrow⟩ := settles.unary
  exact reached arrow _ _ (.typeSuffixes_end suffixes)

/-- A qualifier is read with what it stands before. -/
private theorem qualified
    {closed : Bool}
    {qualifier : Qualifier}
    (inside : state.position < input.window.stop)
    (found : input.window.kindAt state.position = .keyword qualifier.word)
    (read : (TypePhrase.type (.unary closed) tree).Read input
      (Parser.behind input state) count) :
    (TypePhrase.type (.unary closed)
      (.suffixed (.qualified qualifier) tree)).Read input state
      (count + 1) := by
  obtain ⟨base, middle, past, standing, reached⟩ := read
  have whole := (ParserState.Past.behind inside).trans past
  rw [Nat.add_comm] at whole
  refine spanned (.wrapped (.qualified qualifier.alone) base) whole
      ?_ fun settles =>
    Eventually.qualifiedType found (reached settles)
  exact fun arena type grown held form => ⟨held, _, form, standing.grow grown⟩

/-- A function type is read with its result. -/
private theorem function
    {params : List TypeSyntax}
    {result : TypeSyntax}
    {more : List TokenKind}
    (spells : input.window.Spells state.position
      (Delimiter.paren.around kinds ++ .symbol .arrow :: more))
    (read : input.window.Spells (Parser.behind input state).position kinds →
      ∃ types middle, (Parser.behind input state).Past kinds.length middle ∧
        TypeSyntax.AllAt middle.arena params types ∧
        (input.window.kindAt middle.position = Delimiter.closer .paren →
          Eventually (fun rules => rules.parse (.listedTypes false)) input
            (Parser.behind input state) (types, false) middle))
    (last : ∀ middle, state.Past ((Delimiter.paren.around kinds).length + 1)
      middle →
      input.window.Spells middle.position more →
      (TypePhrase.type .whole result).Read input middle more.length) :
    (TypePhrase.type (.unary false) (.function params result)).Read input state
      (Delimiter.paren.around kinds ++ .symbol .arrow :: more).length := by
  obtain ⟨spellsParams, before, arrow, spellsResult⟩ :=
    Window.spells_append_cons.mp spells
  have encloses := ParserState.Encloses.of_spells spellsParams
  obtain ⟨types, middle, past, standings, listed⟩ := read encloses.inner
  have enclosed := encloses.past past
  rw [← enclosed.position] at before arrow spellsResult
  rw [← Parser.behind_position before] at spellsResult
  obtain ⟨type, after, further, standing, parsed⟩ :=
    last _ (enclosed.trans (.behind before)) spellsResult
  have whole := (enclosed.trans (.behind before)).trans further
  have count : (Delimiter.paren.around kinds).length + 1 + more.length =
      (Delimiter.paren.around kinds ++ .symbol .arrow :: more).length := by
    rw [List.length_append, List.length_cons]
    omega
  rw [count] at whole
  refine spanned (.function types type) whole ?_ fun settles => ?_
  · exact fun arena function grown held form =>
      ⟨held, _, _, form, (standings.grow further.arena).grow grown,
        standing.grow grown⟩
  · refine .unqualifiedType (by rw [encloses.opener]; rfl) ?_
      (.typeSuffixes_end settles.suffixes)
    exact .parenthesizedType encloses.opener (encloses.ends past)
      (.eat arrow (.bind (parsed settles) (.step rfl (.done fun _ => rfl))))
      (listed (encloses.ends past))

/-- A type without a pack marker is read. -/
private theorem unpacked
    {closed : Bool}
    (read : (TypePhrase.type (.unary closed) tree).Read input state count) :
    (TypePhrase.type .whole tree).Read input state count := by
  obtain ⟨type, middle, past, standing, reached⟩ := read
  exact ⟨type, middle, past, standing, fun ends =>
    Eventually.unpackedType (reached (TypeEndsAt.settles ends _)) ends.ellipsis⟩

/-- A pack is read. -/
private theorem pack
    (read : (TypePhrase.type (.unary true) tree).Read input state count)
    (inside : state.position + count < input.window.stop)
    (found : input.window.kindAt (state.position + count) = .symbol .ellipsis) :
    (TypePhrase.type .whole (.pack tree)).Read input state (count + 1) := by
  obtain ⟨base, middle, past, standing, reached⟩ := read
  rw [← past.position] at inside found
  have settles :
      (TypeLevel.unary true).Settles (input.window.kindAt middle.position) := by
    rw [found]
    exact ⟨⟨nofun, nofun, nofun, rfl⟩, nofun⟩
  refine spanned (.wrapped .pack base) (past.trans (.behind inside)) ?_ fun _ =>
    Eventually.packedType (reached settles) found
  exact fun arena type grown held form => ⟨held, _, form, standing.grow grown⟩

/-- A last type of a list is read. -/
private theorem single
    (spelled : TypeSpelling (.type .whole tree) kinds)
    (spells : input.window.Spells state.position kinds)
    (read : (TypePhrase.type .whole tree).Read input state kinds.length) :
    (TypePhrase.list [tree]).Read input state kinds.length := by
  obtain ⟨type, middle, past, standing, reached⟩ := read
  refine ⟨[type], middle, past, ⟨type, [], rfl, standing, rfl⟩,
    fun closer afterComma => ?_⟩
  have parsed := reached (by rw [closer]; exact typeEndsAt_closer _)
  exact .listedTypes_last (spelled.kindAt_ne_closer spells _) parsed closer

/-- A type before a comma is read with the others of its list. -/
private theorem more
    {rest : List TypeSyntax}
    {others : Nat}
    (spelled : TypeSpelling (.type .whole tree) kinds)
    (spells : input.window.Spells state.position kinds)
    (read : (TypePhrase.type .whole tree).Read input state kinds.length)
    (inside : state.position + kinds.length < input.window.stop)
    (comma : input.window.kindAt (state.position + kinds.length) =
      .symbol .comma)
    (tail : ∀ middle, state.Past (kinds.length + 1) middle →
      (TypePhrase.list rest).Read input middle others) :
    (TypePhrase.list (tree :: rest)).Read input state
      (kinds.length + (others + 1)) := by
  obtain ⟨type, middle, past, standing, parsed⟩ :=
    read.whole (by rw [comma]; exact typeEndsAt_comma)
  rw [← past.position] at inside comma
  obtain ⟨types, last, further, standings, listed⟩ :=
    tail _ (past.trans (.behind inside))
  have whole := (past.trans (.behind inside)).trans further
  have size : kinds.length + 1 + others = kinds.length + (others + 1) := by
    omega
  rw [size] at whole
  refine ⟨type :: types, last, whole,
    ⟨type, types, rfl, standing.grow further.arena, standings⟩,
    fun closer afterComma => ?_⟩
  exact .listedTypes_comma (spelled.kindAt_ne_closer spells _) parsed comma
    (listed closer true)

end TypePhrase.Read

/-- Wherever its names denote what it refers to, a spelled phrase is read. -/
private theorem TypeSpelling.read
    {input : ParserInput}
    {phrase : TypePhrase}
    {kinds : List TokenKind}
    (spelled : TypeSpelling phrase kinds)
    (state : ParserState)
    (resolved : phrase.Resolved state.naming)
    (spells : input.window.Spells state.position kinds) :
    phrase.Read input state kinds.length := by
  induction spelled generalizing state with
  | builtin kind => exact .builtin spells
  | declared decl name => exact .declared resolved spells
  | group inner inductionHypothesis =>
      have encloses := ParserState.Encloses.of_spells spells
      exact .group encloses (inner.kindAt_ne_closer encloses.inner _)
        (inductionHypothesis _ resolved encloses.inner)
  | emptyTuple => exact .emptyTuple (.of_spells spells)
  | oneTuple inner inductionHypothesis =>
      exact .oneTuple inner (.of_spells spells)
        (inductionHypothesis _ resolved.1)
  | tuple listed inductionHypothesis =>
      have encloses := ParserState.Encloses.of_spells spells
      exact .tuple encloses (inductionHypothesis _ resolved encloses.inner)
  | decltype inner =>
      obtain ⟨inside, found, spellsOperand⟩ := spells
      rw [← Parser.behind_position inside] at spellsOperand
      have encloses := ParserState.Encloses.of_spells spellsOperand
      exact .decltype inside found encloses
        (inner.read _ resolved encloses.inner)
  | suffixed suffix base inductionHypothesis =>
      obtain ⟨spellsBase, spellsSuffix⟩ := Window.spells_append.mp spells
      rw [List.length_append]
      exact .suffixed (inductionHypothesis _ resolved spellsBase) spellsSuffix
  | array base bound inductionHypothesis =>
      obtain ⟨spellsBase, spellsLength⟩ := Window.spells_append.mp spells
      rw [List.length_append]
      exact .array bound (inductionHypothesis _ resolved.1 spellsBase)
        spellsLength
        fun middle past => bound.read middle (past.naming ▸ resolved.2)
  | unqualified closed inner inductionHypothesis =>
      exact .unqualified (inductionHypothesis _ resolved spells)
  | qualified qualifier base inductionHypothesis =>
      obtain ⟨inside, found, spellsBase⟩ := spells
      rw [← Parser.behind_position inside] at spellsBase
      exact .qualified inside found (inductionHypothesis _ resolved spellsBase)
  | emptyFunction last inductionHypothesis =>
      refine .function spells
        (fun _ => ⟨[], _, .refl _, rfl, fun closer => .listedTypes_nil closer⟩)
          fun middle past =>
          inductionHypothesis middle (past.naming ▸ resolved.2)
  | function listed last listedHypothesis lastHypothesis =>
      refine .function spells (fun spellsParams => ?_) fun middle past =>
        lastHypothesis middle (past.naming ▸ resolved.2)
      obtain ⟨types, middle, past, standings, parsed⟩ :=
        listedHypothesis (Parser.behind input state) resolved.1 spellsParams
      exact ⟨types, middle, past, standings, fun closer => parsed closer false⟩
  | unpacked inner inductionHypothesis =>
      exact .unpacked (inductionHypothesis _ resolved spells)
  | pack base inductionHypothesis =>
      obtain ⟨spellsBase, before, found, _⟩ :=
        Window.spells_append_cons.mp spells
      rw [List.length_append]
      exact .pack (inductionHypothesis _ resolved spellsBase) before found
  | single inner inductionHypothesis =>
      exact .single inner spells (inductionHypothesis _ resolved.1 spells)
  | more head tail headHypothesis tailHypothesis =>
      obtain ⟨spellsFirst, before, comma, spellsRest⟩ :=
        Window.spells_append_cons.mp spells
      rw [List.length_append, List.length_cons]
      refine .more head spellsFirst (headHypothesis _ resolved.1 spellsFirst)
        before comma
        fun middle past => tailHypothesis middle (past.naming ▸ resolved.2) ?_
      rwa [past.position, ← Nat.add_assoc]

/--
A parser reads types as they are written: the plainest spelling of a tree, and
all others that have parentheses added and qualifiers moved, are read to the end
and are parsed to the tree.
-/
structure Parser.ReadsTypes (input : ParserInput) : Prop where
  written : ∀ (tree : TypeSyntax) (state : ParserState),
    tree.Resolved state.naming →
    input.window.Spells state.position tree.tokens →
      TypeEndsAt (input.window.kindAt (state.position + tree.tokens.length)) →
      ∃ type after, Parser.parse .type input state = .done type after ∧
        after.position = state.position + tree.tokens.length ∧
          tree.At after.arena type
  spelled : ∀ (tree : TypeSyntax) (kinds : List TokenKind) (state :
    ParserState),
    TypeSpelling (.type .whole tree) kinds → tree.Resolved state.naming →
      input.window.Spells state.position kinds →
      TypeEndsAt (input.window.kindAt (state.position + kinds.length)) →
      ∃ type after, Parser.parse .type input state = .done type after ∧
        after.position = state.position + kinds.length ∧
          tree.At after.arena type

/-- What spells a tree is parsed to it, up to a token that ends a type. -/
private theorem TypeSpelling.parsed
    {input : ParserInput}
    {state : ParserState}
    {tree : TypeSyntax}
    {kinds : List TokenKind}
    (spelling : TypeSpelling (.type .whole tree) kinds)
    (closed : input.window.Closed)
    (resolved : tree.Resolved state.naming)
    (spells : input.window.Spells state.position kinds)
    (ends : TypeEndsAt (input.window.kindAt (state.position + kinds.length))) :
    ∃ type after, Parser.parse .type input state = .done type after ∧
      after.position = state.position + kinds.length ∧
        tree.At after.arena type := by
  obtain ⟨type, after, past, standing, parsed⟩ :=
    TypePhrase.Read.whole (spelling.read state resolved spells) ends
  exact ⟨type, after, Eventually.parse closed parsed, past.position, standing⟩

/--
In every window that the end of the input closes types are read as they are
written.
-/
theorem types_are_read_as_written
    {input : ParserInput}
    (closed : input.window.Closed) :
    Parser.ReadsTypes input where
  written tree _ resolved spells ends :=
    tree.spelled.whole.parsed closed resolved spells ends
  spelled _ _ _ spelling resolved spells ends :=
    spelling.parsed closed resolved spells ends

/-- The tokens of a function type with a pack as its result. -/
def packingFunction : Tokens :=
  #[{ kind := Delimiter.opener .paren, span := .point 0 },
    { kind := .keyword .intWord, span := .point 1 },
    { kind := .symbol .amp, span := .point 4 },
    { kind := .symbol .comma, span := .point 5 },
    { kind := .keyword .boolWord, span := .point 7 },
    { kind := Delimiter.opener .bracket, span := .point 11 },
    { kind := .integer 2, span := .point 12 },
    { kind := Delimiter.closer .bracket, span := .point 13 },
    { kind := Delimiter.closer .paren, span := .point 14 },
    { kind := .symbol .arrow, span := .point 16 },
    { kind := .keyword .autoWord, span := .point 19 },
    { kind := .symbol .star, span := .point 23 },
    { kind := .symbol .ellipsis, span := .point 24 },
    { kind := .symbol .semicolon, span := .point 27 }]

/-- The function type, of a reference and an array. -/
def packingType : TypeSyntax :=
  .function [.suffixed .reference (.builtin .int),
    .array (.builtin .bool) (.int 2)]
    (.pack (.suffixed .pointer (.builtin .auto)))

/--
The function type is parsed up to the semicolon, with the pack inside its
result.
-/
theorem types_are_read_as_written_function :
    (Window.whole packingFunction).Closed ∧ ∃ type after,
      Parser.parse .type { window := .whole packingFunction, names := ⟨[]⟩,
                           mode := .eager }
          (.start (.whole packingFunction) .initial .empty) = .done type after ∧
        after.position = 13 ∧ packingType.At after.arena type := by
  have reads := @types_are_read_as_written
    { window := .whole packingFunction, names := ⟨[]⟩, mode := .eager }
      (Window.whole_closed _)
  have ends : TypeEndsAt (.symbol .semicolon) :=
    ⟨⟨nofun, nofun, nofun, rfl⟩, nofun, nofun⟩
  refine ⟨Window.whole_closed _, ?_⟩
  exact reads.written packingType
    (.start (.whole packingFunction) .initial .empty)
    ⟨⟨trivial, ⟨trivial, trivial⟩, trivial⟩, trivial⟩ (by decide) ends

end Tern
