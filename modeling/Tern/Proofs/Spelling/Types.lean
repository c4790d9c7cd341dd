import Tern.Proofs.Spelling.Expressions

namespace Tern

/-!
# How types are spelled

A type is spelled with its suffixes behind a primary type or one in parentheses.
A function type goes on to the end of its result, so it needs parentheses before
a suffix, and so does a pack. Parentheses may be added around every whole type
in a type, and a qualifier may stand before the whole of what it qualifies.
-/

/-- A qualifier, which is a single word. -/
inductive Qualifier where
  | const | volatile

/-- How a qualifier is written. -/
def Qualifier.word : Qualifier → Keyword
  | .const => .constWord
  | .volatile => .volatileWord

/-- The qualifiers of a type with one qualifier. -/
def Qualifier.alone : Qualifier → Qualifiers
  | .const => .const
  | .volatile => .volatile

/-- What is written behind a type, other than the length of an array. -/
inductive TypeSuffix where
  | reference | pointer | slice
  | qualified (qualifier : Qualifier)

/-- What a suffix wraps a type in. -/
def TypeSuffix.wrapper : TypeSuffix → TypeWrapper
  | .reference => .reference
  | .pointer => .pointer
  | .slice => .slice
  | .qualified qualifier => .qualified qualifier.alone

/-- Types without template arguments. -/
inductive TypeSyntax where
  | builtin (type : BuiltinType)
  | /-- A class or a type parameter. -/
    declared (decl : DeclId) (name : Name)
  | suffixed (suffix : TypeSuffix) (inner : TypeSyntax)
  | array (element : TypeSyntax) (length : ExprSyntax)
  | tuple (elements : List TypeSyntax)
  | function (params : List TypeSyntax) (result : TypeSyntax)
  | pack (inner : TypeSyntax)
  | decltype (operand : ExprSyntax)

mutual

/-- A tree stands in the slot of a type. -/
def TypeSyntax.At (arena : Arena) : TypeSyntax → TypeId → Prop
  | .builtin kind, type => arena.Holds (.type type) ∧ (arena.type type).form =
      .builtin kind
  | .declared decl name, type => arena.Holds (.type type) ∧
      ∃ nameId, (arena.type type).form = .declared decl nameId ∧
        arena.Holds (.name nameId) ∧
        (arena.name nameId).form = .simple name
  | .suffixed suffix inner, type => arena.Holds (.type type) ∧
      ∃ base, (arena.type type).form = .wrapped suffix.wrapper base ∧
        inner.At arena base
  | .array element length, type => arena.Holds (.type type) ∧
      ∃ base expr, (arena.type type).form = .array base expr ∧
        element.At arena base ∧
        length.At arena expr
  | .tuple elements, type => arena.Holds (.type type) ∧
      ∃ types, (arena.type type).form = .tuple types ∧
        TypeSyntax.AllAt arena elements types
  | .function params result, type => arena.Holds (.type type) ∧
      ∃ types last, (arena.type type).form = .function types last ∧
        TypeSyntax.AllAt arena params types ∧ result.At arena last
  | .pack inner, type => arena.Holds (.type type) ∧
      ∃ base, (arena.type type).form = .wrapped .pack base ∧ inner.At arena base
  | .decltype operand, type => arena.Holds (.type type) ∧
      ∃ expr, (arena.type type).form = .decltype expr ∧ operand.At arena expr

/-- Trees stand in the slots of types, one in each. -/
def TypeSyntax.AllAt (arena : Arena) : List TypeSyntax → List TypeId → Prop
  | [], types => types = []
  | tree :: trees, types => ∃ type rest, types = type :: rest ∧
      tree.At arena type ∧
      TypeSyntax.AllAt arena trees rest

end

mutual

/-- A tree stands where it stood when the arena has grown. -/
theorem TypeSyntax.At.grow
    {older newer : Arena}
    (grown : older.Extends newer) :
    ∀ {tree : TypeSyntax} {type : TypeId}, tree.At older type →
      tree.At newer type
  | .builtin _, _, ⟨held, form⟩ =>
      ⟨grown.holds held, by rw [grown.type_eq held, form]⟩
  | .declared _ _, _, ⟨held, nameId, form, heldName, named⟩ =>
      ⟨grown.holds held, nameId, by rw [grown.type_eq held, form],
        grown.holds heldName,
        by rw [grown.name_eq heldName, named]⟩
  | .suffixed _ _, _, ⟨held, base, form, inner⟩ =>
      ⟨grown.holds held, base, by rw [grown.type_eq held, form],
        inner.grow grown⟩
  | .array _ _, _, ⟨held, base, expr, form, element, length⟩ =>
      ⟨grown.holds held, base, expr, by rw [grown.type_eq held, form],
        element.grow grown,
        length.grow grown⟩
  | .tuple _, _, ⟨held, types, form, elements⟩ =>
      ⟨grown.holds held, types, by rw [grown.type_eq held, form],
        TypeSyntax.AllAt.grow grown elements⟩
  | .function _ _, _, ⟨held, types, last, form, params, result⟩ =>
      ⟨grown.holds held, types, last, by rw [grown.type_eq held, form],
        TypeSyntax.AllAt.grow grown params, result.grow grown⟩
  | .pack _, _, ⟨held, base, form, inner⟩ =>
      ⟨grown.holds held, base, by rw [grown.type_eq held, form],
        inner.grow grown⟩
  | .decltype _, _, ⟨held, expr, form, operand⟩ =>
      ⟨grown.holds held, expr, by rw [grown.type_eq held, form],
        operand.grow grown⟩

/-- Trees stand where they stood when the arena has grown. -/
theorem TypeSyntax.AllAt.grow
    {older newer : Arena}
    (grown : older.Extends newer) :
    ∀ {trees : List TypeSyntax} {types : List TypeId},
      TypeSyntax.AllAt older trees types → TypeSyntax.AllAt newer trees types
  | [], _, empty => empty
  | _ :: _, _, ⟨type, rest, shape, head, tail⟩ =>
      ⟨type, rest, shape, head.grow grown, TypeSyntax.AllAt.grow grown tail⟩

end

/-- How a builtin type is written. -/
def BuiltinType.word : BuiltinType → Keyword
  | .void => .voidWord
  | .bool => .boolWord
  | .int => .intWord
  | .byte => .byteWord
  | .auto => .autoWord
  | .typename => .typenameWord

/-- How a suffix is written. -/
def TypeSuffix.tokens : TypeSuffix → List TokenKind
  | .reference => [.symbol .amp]
  | .pointer => [.symbol .star]
  | .slice => Delimiter.bracket.around []
  | .qualified qualifier => [.keyword qualifier.word]

/--
Whether a type needs parentheses before a suffix: it goes on to its end, or is a
pack.
-/
def TypeSyntax.isOpen : TypeSyntax → Bool
  | .function _ _ => true
  | .pack _ => true
  | _ => false

/-- The tokens of a type before a suffix. -/
def TypeSyntax.fit (tree : TypeSyntax) (kinds : List TokenKind) :
    List TokenKind :=
  if tree.isOpen then Delimiter.paren.around kinds else kinds

mutual

/-- A type as it is written with no more parentheses than needed. -/
def TypeSyntax.tokens : TypeSyntax → List TokenKind
  | .builtin kind => [.keyword kind.word]
  | .declared _ name => [.identifier name]
  | .suffixed suffix inner => inner.fit inner.tokens ++ suffix.tokens
  | .array element length =>
      element.fit element.tokens ++ Delimiter.bracket.around length.tokens
  | .tuple elements =>
      Delimiter.paren.around
        (TypeSyntax.listTokens elements ++ trailingComma elements)
  | .function params result =>
      Delimiter.paren.around (TypeSyntax.listTokens params) ++ .symbol .arrow ::
        result.tokens
  | .pack inner => inner.fit inner.tokens ++ [.symbol .ellipsis]
  | .decltype operand =>
      .keyword .decltypeWord :: Delimiter.paren.around operand.tokens

/-- Types as they are written with commas between them. -/
def TypeSyntax.listTokens : List TypeSyntax → List TokenKind
  | [] => []
  | [only] => only.tokens
  | first :: rest => first.tokens ++ .symbol .comma ::
      TypeSyntax.listTokens rest

end

mutual

/-- The names of a type denote what it refers to. -/
def TypeSyntax.Resolved (naming : Naming) : TypeSyntax → Prop
  | .builtin _ => True
  | .declared decl name => naming.type? name = some decl
  | .suffixed _ inner => inner.Resolved naming
  | .array element length => element.Resolved naming ∧ length.Resolved naming
  | .tuple elements => TypeSyntax.AllResolved naming elements
  | .function params result => TypeSyntax.AllResolved naming params ∧
      result.Resolved naming
  | .pack inner => inner.Resolved naming
  | .decltype operand => operand.Resolved naming

/-- The names of some types denote what these refer to. -/
def TypeSyntax.AllResolved (naming : Naming) : List TypeSyntax → Prop
  | [] => True
  | tree :: trees => tree.Resolved naming ∧ TypeSyntax.AllResolved naming trees

end

/-- What may be written of a type in a place. -/
inductive TypeLevel where
  | /-- A primary type with suffixes. -/
    atom
  | /-- A type that is no pack, with a place behind it that is closed to a
      result or not. -/
    unary (closed : Bool)
  | whole

/--
What is spelled: a type at a level, or at least one with commas between them.
-/
inductive TypePhrase where
  | type (level : TypeLevel) (tree : TypeSyntax)
  | list (trees : List TypeSyntax)

/-- The names of a phrase denote what it refers to. -/
def TypePhrase.Resolved (naming : Naming) : TypePhrase → Prop
  | .type _ tree => tree.Resolved naming
  | .list trees => TypeSyntax.AllResolved naming trees

/--
Tokens spell a phrase, perhaps with parentheses added and qualifiers moved.
-/
inductive TypeSpelling : TypePhrase → List TokenKind → Prop where
  | builtin (kind : BuiltinType) :
      TypeSpelling (.type .atom (.builtin kind)) [.keyword kind.word]
  | declared (decl : DeclId) (name : Name) :
      TypeSpelling (.type .atom (.declared decl name)) [.identifier name]
  | group {tree : TypeSyntax} {kinds : List TokenKind}
      (inner : TypeSpelling (.type .whole tree) kinds) :
      TypeSpelling (.type .atom tree) (Delimiter.paren.around kinds)
  | emptyTuple :
      TypeSpelling (.type .atom (.tuple [])) (Delimiter.paren.around [])
  | oneTuple {only : TypeSyntax} {kinds : List TokenKind}
      (inner : TypeSpelling (.type .whole only) kinds) :
      TypeSpelling (.type .atom (.tuple [only]))
        (Delimiter.paren.around (kinds ++ [.symbol .comma]))
  | tuple {first second : TypeSyntax} {rest : List TypeSyntax}
      {kinds : List TokenKind}
      (listed : TypeSpelling (.list (first :: second :: rest)) kinds) :
      TypeSpelling (.type .atom (.tuple (first :: second :: rest)))
        (Delimiter.paren.around kinds)
  | decltype {operand : ExprSyntax} {kinds : List TokenKind}
      (inner : ExprSpelling (.expr (.tier .or) operand) kinds) :
      TypeSpelling (.type .atom (.decltype operand))
        (.keyword .decltypeWord :: Delimiter.paren.around kinds)
  | suffixed {inner : TypeSyntax} {kinds : List TokenKind} (suffix : TypeSuffix)
      (base : TypeSpelling (.type .atom inner) kinds) :
      TypeSpelling (.type .atom (.suffixed suffix inner))
        (kinds ++ suffix.tokens)
  | array {element : TypeSyntax} {length : ExprSyntax}
      {kinds more : List TokenKind}
      (base : TypeSpelling (.type .atom element) kinds)
      (bound : ExprSpelling (.expr (.tier .or) length) more) :
      TypeSpelling (.type .atom (.array element length))
        (kinds ++ Delimiter.bracket.around more)
  | /-- A type without qualifiers before it. -/
    unqualified {tree : TypeSyntax} {kinds : List TokenKind} (closed : Bool)
      (inner : TypeSpelling (.type .atom tree) kinds) :
      TypeSpelling (.type (.unary closed) tree) kinds
  | /-- A qualifier before the whole of what it qualifies. -/
    qualified {inner : TypeSyntax} {kinds : List TokenKind} {closed : Bool}
      (qualifier : Qualifier)
      (base : TypeSpelling (.type (.unary closed) inner) kinds) :
      TypeSpelling
        (.type (.unary closed) (.suffixed (.qualified qualifier) inner))
        (.keyword qualifier.word :: kinds)
  | emptyFunction {result : TypeSyntax} {kinds : List TokenKind}
      (last : TypeSpelling (.type .whole result) kinds) :
      TypeSpelling (.type (.unary false) (.function [] result))
        (Delimiter.paren.around [] ++ .symbol .arrow :: kinds)
  | function {params : List TypeSyntax} {result : TypeSyntax}
      {kinds more : List TokenKind}
      (listed : TypeSpelling (.list params) kinds)
      (last : TypeSpelling (.type .whole result) more) :
      TypeSpelling (.type (.unary false) (.function params result))
        (Delimiter.paren.around kinds ++ .symbol .arrow :: more)
  | /-- A type without a pack marker. -/
    unpacked {tree : TypeSyntax} {kinds : List TokenKind} {closed : Bool}
      (inner : TypeSpelling (.type (.unary closed) tree) kinds) :
      TypeSpelling (.type .whole tree) kinds
  | pack {inner : TypeSyntax} {kinds : List TokenKind}
      (base : TypeSpelling (.type (.unary true) inner) kinds) :
      TypeSpelling (.type .whole (.pack inner)) (kinds ++ [.symbol .ellipsis])
  | single {only : TypeSyntax} {kinds : List TokenKind}
      (inner : TypeSpelling (.type .whole only) kinds) :
      TypeSpelling (.list [only]) kinds
  | more {first second : TypeSyntax} {rest : List TypeSyntax}
      {kinds more : List TokenKind}
      (head : TypeSpelling (.type .whole first) kinds)
      (tail : TypeSpelling (.list (second :: rest)) more) :
      TypeSpelling (.list (first :: second :: rest))
        (kinds ++ .symbol .comma :: more)

/-- How a type is written without parentheses around it. -/
def TypeSyntax.level : TypeSyntax → TypeLevel
  | .function _ _ => .unary false
  | .pack _ => .whole
  | _ => .atom

namespace TypeSpelling

variable {tree : TypeSyntax} {level : TypeLevel} {kinds : List TokenKind}

/-- At any level a type is a whole one. -/
theorem whole (spelled : TypeSpelling (.type level tree) kinds) :
    TypeSpelling (.type .whole tree) kinds := by
  cases level with
  | atom => exact .unpacked (.unqualified true spelled)
  | unary closed => exact .unpacked spelled
  | whole => exact spelled

/-- At all places a type may stand in parentheses. -/
private theorem grouped
    (spelled : TypeSpelling (.type level tree) kinds)
    (other : TypeLevel) :
    TypeSpelling (.type other tree) (Delimiter.paren.around kinds) := by
  have atom : TypeSpelling (.type .atom tree) (Delimiter.paren.around kinds) :=
    .group spelled.whole
  cases other with
  | atom => exact atom
  | unary closed => exact .unqualified closed atom
  | whole => exact atom.whole

/-- A type is spelled before a suffix with the parentheses that this needs. -/
private theorem fit (spelled : TypeSpelling (.type tree.level tree) kinds) :
    TypeSpelling (.type .atom tree) (tree.fit kinds) := by
  cases tree with
  | function params result => exact spelled.grouped .atom
  | pack inner => exact spelled.grouped .atom
  | _ => exact spelled

end TypeSpelling

mutual

/-- A type is spelled by its own tokens. -/
theorem TypeSyntax.spelled :
    ∀ tree : TypeSyntax, TypeSpelling (.type tree.level tree) tree.tokens
  | .builtin kind => .builtin kind
  | .declared decl name => .declared decl name
  | .suffixed suffix inner => .suffixed suffix inner.spelled.fit
  | .array element length => .array element.spelled.fit length.spelled.whole
  | .tuple [] => .emptyTuple
  | .tuple [only] => .oneTuple only.spelled.whole
  | .tuple (first :: second :: rest) => by
      simp only [TypeSyntax.tokens, trailingComma, List.append_nil]
      exact .tuple (TypeSyntax.listSpelled (first :: second :: rest) nofun)
  | .function [] result => .emptyFunction result.spelled.whole
  | .function (first :: rest) result =>
      .function (TypeSyntax.listSpelled (first :: rest) nofun)
        result.spelled.whole
  | .pack inner => .pack (.unqualified true inner.spelled.fit)
  | .decltype operand => .decltype operand.spelled.whole

/-- Types are spelled by their own tokens. -/
theorem TypeSyntax.listSpelled :
    ∀ trees : List TypeSyntax, trees ≠ [] →
      TypeSpelling (.list trees) (TypeSyntax.listTokens trees)
  | [], nonempty => absurd rfl nonempty
  | [only], _ => .single only.spelled.whole
  | first :: second :: rest, _ =>
      .more first.spelled.whole (TypeSyntax.listSpelled (second :: rest) nofun)

end

end Tern
