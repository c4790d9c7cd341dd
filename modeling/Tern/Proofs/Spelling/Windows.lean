import Tern.Proofs.Grammar.Passing
import Tern.Proofs.Term.Ownership

namespace Tern

/-!
# Spelled tokens

A window spells some kinds of tokens at a position if its tokens are of these
kinds there, one after the other. What a parser does at such a place is settled
step by step, with the calls in it nested as deep as need be.
-/

/-- Tokens between a delimiter and its closer. -/
def Delimiter.around (delimiter : Delimiter) (kinds : List TokenKind) :
    List TokenKind :=
  delimiter.opener :: kinds ++ [delimiter.closer]

@[simp]
theorem Delimiter.length_around
    (delimiter : Delimiter)
    (kinds : List TokenKind) :
    (delimiter.around kinds).length = kinds.length + 2 := by
  simp [around]

namespace Window

/-- From a position on a window shows tokens of some kinds. -/
def Spells (window : Window) : Nat → List TokenKind → Prop
  | _, [] => True
  | position, kind :: kinds =>
      position < window.stop ∧ window.kindAt position = kind ∧
        window.Spells (position + 1) kinds

instance decidableSpells (window : Window) :
    (position : Nat) → (kinds : List TokenKind) →
      Decidable (window.Spells position kinds)
  | _, [] => .isTrue trivial
  | position, _ :: kinds =>
      have := decidableSpells window (position + 1) kinds
      inferInstanceAs (Decidable (_ ∧ _ ∧ _))

variable {window : Window} {position : Nat} {kind : TokenKind}
  {kinds more : List TokenKind}

/-- Kinds that follow each other are spelled behind each other. -/
theorem spells_append :
    window.Spells position (kinds ++ more) ↔
      window.Spells position kinds ∧
        window.Spells (position + kinds.length) more := by
  induction kinds generalizing position with
  | nil => simp [Spells]
  | cons first kinds inductionHypothesis =>
      have shift : position + 1 + kinds.length =
          position + (kinds.length + 1) := by omega
      simp only [List.cons_append, Spells, inductionHypothesis,
        List.length_cons, shift, and_assoc]

/-- Two kinds that follow some others are spelled behind these. -/
theorem spells_append_cons :
    window.Spells position (kinds ++ kind :: more) ↔
      window.Spells position kinds ∧ position + kinds.length < window.stop ∧
        window.kindAt (position + kinds.length) = kind ∧
        window.Spells (position + kinds.length + 1) more :=
  spells_append

end Window

/-- What names denote at some place. -/
structure Naming where
  find? : Name → Option OverloadSet
  /--
  Whether a declaration may be given arguments in angles by an expression.
  -/
  takesArgs : DeclId → Bool
  /-- The class or the type parameter that a name denotes as a type. -/
  type? : Name → Option DeclId

/-- What names denote for a parser. -/
def ParserState.naming (state : ParserState) : Naming :=
  { find? := fun name => state.scopes.find? state.scopes.current (.simple name)
    takesArgs := state.arena.isTemplateOrConcept
    type? := fun name =>
      ((state.scopes.find? state.scopes.current (.simple name)).bind
        state.arena.typeAmong?).filter fun decl =>
          !state.arena.isTemplate decl }

/--
A parser has gone over some tokens and has added names, types and expressions.
Nothing else has changed that types and expressions depend on.
-/
structure ParserState.Past
    (state : ParserState)
    (count : Nat)
    (after : ParserState) :
    Prop where
  position : after.position = state.position + count
  scopes : after.scopes = state.scopes
  arena : state.arena.Extends after.arena
  decls : after.arena.decls = state.arena.decls
  definitions : after.arena.definitions = state.arena.definitions

namespace ParserState.Past

variable {input : ParserInput} {state middle after : ParserState}
  {count more : Nat}

theorem refl (state : ParserState) : state.Past 0 state where
  position := rfl
  scopes := rfl
  arena := .refl _
  decls := rfl
  definitions := rfl

theorem trans
    (first : state.Past count middle)
    (second : middle.Past more after) :
    state.Past (count + more) after where
  position := by rw [second.position, first.position, Nat.add_assoc]
  scopes := second.scopes.trans first.scopes
  arena := first.arena.trans second.arena
  decls := second.decls.trans first.decls
  definitions := second.definitions.trans first.definitions

/-- A token has been read. -/
theorem behind (inside : state.position < input.window.stop) :
    state.Past 1 (Parser.behind input state) where
  position := Parser.behind_position inside
  scopes := rfl
  arena := .refl _
  decls := rfl
  definitions := rfl

private theorem decl (past : state.Past count after) (decl : DeclId) :
    after.arena.decl decl = state.arena.decl decl := by
  simp only [Arena.decl, past.decls]

private theorem definition
    (past : state.Past count after)
    (definition : DefId) :
    after.arena.definition definition = state.arena.definition definition := by
  simp only [Arena.definition, past.definitions]

/-- Names denote what they denoted before. -/
theorem naming (past : state.Past count after) :
    after.naming = state.naming := by
  have defined : after.arena.isDefinedClass = state.arena.isDefinedClass := by
    funext decl
    simp only [Arena.isDefinedClass, past.decl, past.definition]
  have types : after.arena.typeAmong? = state.arena.typeAmong? := by
    funext decls
    have names : after.arena.namesType = state.arena.namesType := by
      funext decl
      simp only [Arena.namesType, past.decl]
    simp only [Arena.typeAmong?, defined, names]
  have takes : after.arena.isTemplateOrConcept =
      state.arena.isTemplateOrConcept := by
    funext decl
    simp only [Arena.isTemplateOrConcept, past.decl]
  simp only [ParserState.naming, past.scopes, types, takes, Arena.isTemplate,
    past.decl]

end ParserState.Past

namespace ParserState

/-- The slot of the next name. -/
def nextName (state : ParserState) : NameId :=
  { raw := state.arena.names.size }

/-- The slot of the next type. -/
def nextType (state : ParserState) : TypeId :=
  { raw := state.arena.types.size }

/-- The slot of the next expression. -/
def nextExpr (state : ParserState) : ExprId :=
  { raw := state.arena.exprs.size }

/-- The state after a name has been added. -/
def withName
    (state : ParserState)
    (form : NameForm)
    (span : Span) :
    ParserState :=
  { state with arena := (state.arena.addName form span).2 }

/-- The state after a type has been added. -/
def withType
    (state : ParserState)
    (form : TypeForm)
    (span : Span) :
    ParserState :=
  { state with arena := (state.arena.addType form span).2 }

/-- The state after an expression has been added. -/
def withExpr
    (state : ParserState)
    (form : ExprForm)
    (span : Span) :
    ParserState :=
  { state with arena := (state.arena.addExpr form span).2 }

variable (state : ParserState) (span : Span)

theorem past_withName (form : NameForm) :
    state.Past 0 (state.withName form span) where
  position := rfl
  scopes := rfl
  arena := state.arena.extends_addName form span
  decls := rfl
  definitions := rfl

theorem past_withType (form : TypeForm) :
    state.Past 0 (state.withType form span) where
  position := rfl
  scopes := rfl
  arena := state.arena.extends_addType form span
  decls := rfl
  definitions := rfl

theorem past_withExpr (form : ExprForm) :
    state.Past 0 (state.withExpr form span) where
  position := rfl
  scopes := rfl
  arena := state.arena.extends_addExpr form span
  decls := rfl
  definitions := rfl

theorem holds_withName (form : NameForm) :
    (state.withName form span).arena.Holds (.name state.nextName) := by
  simp [withName, Arena.Holds, Arena.addName, nextName]

theorem holds_withType (form : TypeForm) :
    (state.withType form span).arena.Holds (.type state.nextType) := by
  simp [withType, Arena.Holds, Arena.addType, nextType]

theorem holds_withExpr (form : ExprForm) :
    (state.withExpr form span).arena.Holds (.expr state.nextExpr) := by
  simp [withExpr, Arena.Holds, Arena.addExpr, nextExpr]

theorem name_withName (form : NameForm) :
    ((state.withName form span).arena.name state.nextName).form = form :=
  congrArg Node.form (state.arena.name_addName form span)

theorem type_withType (form : TypeForm) :
    ((state.withType form span).arena.type state.nextType).form = form :=
  congrArg Node.form (state.arena.type_addType form span)

theorem expr_withExpr (form : ExprForm) :
    ((state.withExpr form span).arena.expr state.nextExpr).form = form :=
  congrArg Node.form (state.arena.expr_addExpr form span)

end ParserState

/-- At a state some tokens stand between a delimiter and its closer. -/
structure ParserState.Encloses
    (input : ParserInput)
    (state : ParserState)
    (delimiter : Delimiter)
    (kinds : List TokenKind) : Prop where
  inside : state.position < input.window.stop
  opener : input.window.kindAt state.position = delimiter.opener
  spells : input.window.Spells (Parser.behind input state).position
    (kinds ++ [delimiter.closer])

namespace ParserState.Encloses

variable {input : ParserInput} {state middle : ParserState}
  {delimiter : Delimiter}
  {kinds : List TokenKind}

theorem of_spells
    (spells : input.window.Spells state.position (delimiter.around kinds)) :
    state.Encloses input delimiter kinds := by
  obtain ⟨inside, opener, further⟩ := spells
  rw [← Parser.behind_position inside] at further
  exact ⟨inside, opener, further⟩

/-- The tokens between the delimiters are spelled behind the first one. -/
theorem inner (encloses : state.Encloses input delimiter kinds) :
    input.window.Spells (Parser.behind input state).position kinds :=
  (Window.spells_append.mp encloses.spells).1

/-- Behind the tokens the closer is next. -/
theorem closer (encloses : state.Encloses input delimiter kinds) :
    input.window.kindAt ((Parser.behind input state).position + kinds.length) =
      delimiter.closer :=
  (Window.spells_append.mp encloses.spells).2.2.1

/-- A parser that has gone over the tokens stands at the closer. -/
theorem ends
    (encloses : state.Encloses input delimiter kinds)
    (past : (Parser.behind input state).Past kinds.length middle) :
    input.window.kindAt middle.position = delimiter.closer := by
  rw [past.position]
  exact encloses.closer

/-- With the delimiters the tokens are two more. -/
theorem past
    (encloses : state.Encloses input delimiter kinds)
    (past : (Parser.behind input state).Past kinds.length middle) :
    state.Past (delimiter.around kinds).length
      (Parser.behind input middle) := by
  have before : middle.position < input.window.stop := by
    rw [past.position]
    exact (Window.spells_append.mp encloses.spells).2.1
  have whole :=
    (Past.behind encloses.inside).trans (past.trans (.behind before))
  have count : 1 + (kinds.length + 1) = (delimiter.around kinds).length := by
    rw [Delimiter.length_around]
    omega
  rwa [count] at whole

end ParserState.Encloses

/-- With calls nested deep enough a parser is done with a value. -/
def Eventually
    {Value : Type}
    (parser : Rules → Parser Value)
    (input : ParserInput)
    (state : ParserState) (value : Value) (after : ParserState) : Prop :=
  ∃ least, ∀ depth, least ≤ depth →
    parser (Rules.nested depth) input state = .done value after

namespace Eventually

variable {Value First : Type} {input : ParserInput}
  {state middle after : ParserState}
  {value : Value} {first : First}

theorem done
    {parser : Rules → Parser Value}
    (run : ∀ rules, parser rules input state = .done value after) :
    Eventually parser input state value after :=
  ⟨0, fun depth _ => run (Rules.nested depth)⟩

theorem bind
    {parser : Rules → Parser First}
    {next : First → Rules → Parser Value}
    (begun : Eventually parser input state first middle)
    (rest : Eventually (next first) input middle value after) :
    Eventually (fun rules => parser rules >>= fun first => next first rules)
      input state value
      after := by
  obtain ⟨least, begins⟩ := begun
  obtain ⟨other, goesOn⟩ := rest
  refine ⟨max least other, fun depth deep => ?_⟩
  exact (Parser.run_bind (begins depth (by omega))).trans
    (goesOn depth (by omega))

/-- A first step calls nothing. -/
theorem step
    {parser : Parser First}
    {next : First → Rules → Parser Value}
    (run : parser input state = .done first middle)
    (rest : Eventually (next first) input middle value after) :
    Eventually (fun rules => parser >>= fun first => next first rules) input
      state value after :=
  bind (done fun _ => run) rest

/-- A nonterminal is parsed as its production is. -/
theorem call
    {nonterminal : Nonterminal Value}
    (produced : Eventually (fun rules => rules.produce nonterminal) input state
      value after) :
    Eventually (fun rules => rules.parse nonterminal) input state value
      after := by
  obtain ⟨least, produces⟩ := produced
  refine ⟨least + 1, fun depth deep => ?_⟩
  obtain ⟨shallower, rfl⟩ : ∃ shallower, depth = shallower + 1 :=
    ⟨depth - 1, by omega⟩
  exact produces shallower (by omega)

/-- The bound that the tokens left set to nested calls is deep enough. -/
theorem parse
    {nonterminal : Nonterminal Value}
    (closed : input.window.Closed)
    (parsed : Eventually (fun rules => rules.parse nonterminal) input state
      value after) :
    Parser.parse nonterminal input state = .done value after := by
  obtain ⟨least, parses⟩ := parsed
  let depth := Parser.ranks * (input.window.remaining state.position + 1)
  have adequate :
      input.window.Suffices depth state.position (nonterminal.rank + 1) := by
    have ranked := nonterminal.rank_lt
    simp only [Window.Suffices, depth, Nat.mul_succ]
    omega
  have advances := Rules.nested_advance closed depth nonterminal state adequate
  have deep := parses (max least depth) (Nat.le_max_left _ _)
  show (Rules.nested depth).parse nonterminal input state = _
  rcases Rules.nested_within (Nat.le_max_right least depth) nonterminal input
      state with
    exhausted | same
  · rw [exhausted] at advances
    exact advances.elim
  · exact same.trans deep

theorem expect
    {kind : TokenKind}
    {next : Unit → Rules → Parser Value}
    (found : input.window.kindAt state.position = kind)
    (rest : Eventually (next ()) input (Parser.behind input state) value
      after) :
    Eventually (fun rules => Parser.expect kind >>= fun read => next read rules)
      input state value
      after :=
  step (Parser.expect_run_of_eq found) rest

theorem skip
    {next : Unit → Rules → Parser Value}
    (rest : Eventually (next ()) input (Parser.behind input state) value
      after) :
    Eventually (fun rules => Parser.skip >>= fun read => next read rules) input
      state value after :=
  step rfl rest

theorem eat
    {kind : TokenKind}
    {next : Bool → Rules → Parser Value}
    (found : input.window.kindAt state.position = kind)
    (rest : Eventually (next true) input (Parser.behind input state) value
      after) :
    Eventually (fun rules => Parser.eat kind >>= fun read => next read rules)
      input state value
      after :=
  step ((Parser.eat_run kind input state).trans (if_pos found)) rest

theorem leave
    {kind : TokenKind}
    {next : Bool → Rules → Parser Value}
    (found : input.window.kindAt state.position ≠ kind)
    (rest : Eventually (next false) input state value after) :
    Eventually (fun rules => Parser.eat kind >>= fun read => next read rules)
      input state value
      after :=
  step ((Parser.eat_run kind input state).trans (if_neg found)) rest

end Eventually

end Tern
