import Tern.Term.Flags
import Tern.Term.Slot
import Tern.Token.Basic

namespace Tern

/-!
# Terms

A syntax tree is made of terms of seven families: names, types, expressions,
statements, declarations, definitions and requirements. A term holds its form
and its span, and reaches other terms by slot only. A type, an expression or a
statement may be *unparsed*: a range of tokens set aside for later.
-/

/-- The families of terms. -/
inductive Family where
  | name | type | expression | statement | declaration | definition
  | requirement
deriving DecidableEq

/-- The word for a family. -/
def Family.describe : Family → String
  | .name => "name"
  | .type => "type"
  | .expression => "expression"
  | .statement => "statement"
  | .declaration => "declaration"
  | .definition => "definition"
  | .requirement => "requirement"

/-- A term of any family, known by its slot. -/
inductive Term where
  | name (id : NameId)
  | type (id : TypeId)
  | expr (id : ExprId)
  | stmt (id : StmtId)
  | decl (id : DeclId)
  | definition (id : DefId)
  | requirement (id : ReqId)
deriving DecidableEq

/-- The family of a term. -/
def Term.family : Term → Family
  | .name _ => .name
  | .type _ => .type
  | .expr _ => .expression
  | .stmt _ => .statement
  | .decl _ => .declaration
  | .definition _ => .definition
  | .requirement _ => .requirement

/-- A form together with the source text it was read from. -/
structure Node (Form : Type) where
  form : Form
  span : Span
deriving DecidableEq

/-- An argument of a template. -/
inductive TemplateArg where
  | type (type : TypeId)
  | expr (expr : ExprId)
deriving DecidableEq

/-- The forms of names. -/
inductive NameForm where
  | simple (name : Name)
  | /-- A minted name, which has no spelling. -/
    placeholder (number : Nat)
  | /-- A template or concept applied to arguments. -/
    applied (template : DeclId) (args : List TemplateArg)
deriving DecidableEq

/-- What a declaration is bound under: an identifier or a minted number. -/
inductive Key where
  | simple (name : Name)
  | placeholder (number : Nat)
deriving DecidableEq

/-- How a key is written; a minted number follows a hash sign. -/
def Key.render (names : Names) : Key → String
  | .simple name => names.text name
  | .placeholder number => "#" ++ toString number

/-- The types that are single keywords. -/
inductive BuiltinType where
  | void | bool | int | byte
  | /-- The type to be inferred. -/
    auto
  | /-- The type of types. -/
    typename
deriving DecidableEq

/-- What is built from one type. -/
inductive TypeWrapper where
  | reference | pointer | slice | pack
  | qualified (qualifiers : Qualifiers)
deriving DecidableEq

/-- Every type that is a single keyword. -/
def BuiltinType.all : List BuiltinType :=
  [.void, .bool, .int, .byte, .auto, .typename]

/-- The forms of types. -/
inductive TypeForm where
  | builtin (type : BuiltinType)
  | /-- A class, type parameter or template found by its name. -/
    declared (decl : DeclId) (name : NameId)
  | function (params : List TypeId) (result : TypeId)
  | wrapped (wrapper : TypeWrapper) (inner : TypeId)
  | array (element : TypeId) (length : ExprId)
  | tuple (elements : List TypeId)
  | decltype (operand : ExprId)
  | unparsed (range : TokenRange)
deriving DecidableEq

/-- The word for the form of a type. -/
def TypeForm.kindName : TypeForm → String
  | .builtin .void => "void"
  | .builtin .bool => "bool"
  | .builtin .int => "int"
  | .builtin .byte => "byte"
  | .builtin .auto => "auto"
  | .builtin .typename => "typename"
  | .declared _ _ => "declared"
  | .function _ _ => "function"
  | .wrapped .reference _ => "reference"
  | .wrapped .pointer _ => "pointer"
  | .wrapped .slice _ => "slice"
  | .wrapped .pack _ => "pack"
  | .wrapped (.qualified _) _ => "qualified"
  | .array _ _ => "array"
  | .tuple _ => "tuple"
  | .decltype _ => "decltype"
  | .unparsed _ => "unparsed"

/-- Operators written before their operand. -/
inductive UnaryOp where
  | not | complement | negate | plus
deriving DecidableEq

/-- Every unary operator. -/
def UnaryOp.all : List UnaryOp :=
  [.not, .complement, .negate, .plus]

/-- How a unary operator is written. -/
def UnaryOp.symbol : UnaryOp → Symbol
  | .not => .bang
  | .complement => .tilde
  | .negate => .minus
  | .plus => .plus

/-- Operators written between their operands. -/
inductive BinaryOp where
  | or | and | bitOr | bitXor | bitAnd
  | equal | notEqual
  | less | greater | lessEqual | greaterEqual | compare
  | shiftLeft | shiftRight
  | add | subtract
  | multiply | divide | remainder
deriving DecidableEq

/-- Every binary operator, those that bind loosest first. -/
def BinaryOp.all : List BinaryOp :=
  [.or, .and, .bitOr, .bitXor, .bitAnd, .equal, .notEqual, .less, .greater,
    .lessEqual,
    .greaterEqual, .compare, .shiftLeft, .shiftRight, .add, .subtract,
      .multiply, .divide,
    .remainder]

/-- How a binary operator is written. -/
def BinaryOp.symbol : BinaryOp → Symbol
  | .or => .doubleBar
  | .and => .doubleAmp
  | .bitOr => .bar
  | .bitXor => .caret
  | .bitAnd => .amp
  | .equal => .equal
  | .notEqual => .notEqual
  | .less => .less
  | .greater => .greater
  | .lessEqual => .lessEqual
  | .greaterEqual => .greaterEqual
  | .compare => .spaceship
  | .shiftLeft => .shiftLeft
  | .shiftRight => .shiftRight
  | .add => .plus
  | .subtract => .minus
  | .multiply => .star
  | .divide => .slash
  | .remainder => .percent

/-- The forms of expressions. -/
inductive ExprForm where
  | bool (value : Bool)
  | int (value : Nat)
  | /-- A name that denotes exactly one declaration. -/
    reference (decl : DeclId) (name : NameId)
  | /-- A name that denotes several declarations, in the order of their set. -/
    overload (name : NameId) (decls : List DeclId)
  | unary (op : UnaryOp) (operand : ExprId)
  | binary (op : BinaryOp) (left right : ExprId)
  | call (callee : ExprId) (args : List ExprId)
  | dot (object : ExprId) (member : NameId)
  | subscript (object index : ExprId)
  | tuple (elements : List ExprId)
  | requires (parms : List DeclId) (reqs : List ReqId) (scope : ScopeId)
  | unparsed (range : TokenRange)
deriving DecidableEq

/-- What a statement list is the content of. -/
inductive ListRole where
  | /-- A compilation unit. -/
    unit
  | /-- A class body. -/
    members
  | /-- A braced block. -/
    block
deriving DecidableEq

/-- What a statement does with the value of its expression. -/
inductive ValueRole where
  | discard | give | yield
deriving DecidableEq

/-- Statements that leave or restart a loop. -/
inductive Jump where
  | leave | restart
deriving DecidableEq

/-- The forms of statements. -/
inductive StmtForm where
  | list (role : ListRole) (stmts : List StmtId) (scope : ScopeId)
  | empty
  | value (role : ValueRole) (expr : ExprId)
  | declaration (decl : DeclId)
  | branch (condition : ExprId) (accepted : StmtId) (rejected? : Option StmtId)
  | loop (condition : ExprId) (body : StmtId)
  | jump (jump : Jump)
  | unparsed (range : TokenRange)
deriving DecidableEq

/-- The word for the form of a statement. -/
def StmtForm.kindName : StmtForm → String
  | .list .unit _ _ => "translation"
  | .list .members _ _ => "member list"
  | .list .block _ _ => "compound"
  | .empty => "empty"
  | .value .discard _ => "expression"
  | .value .give _ => "return"
  | .value .yield _ => "yield"
  | .declaration _ => "declaration"
  | .branch _ _ _ => "if"
  | .loop _ _ => "while"
  | .jump .leave => "break"
  | .jump .restart => "continue"
  | .unparsed _ => "unparsed"

/-- Declarations of one typed object. -/
inductive ObjectRole where
  | variable
  | /-- A data member that is not static. -/
    field
  | /-- A base type of a class. -/
    base
deriving DecidableEq

/-- Declarations that can be called. -/
inductive CallableRole where
  | /-- A function; a member one is declared directly in a class and is not
      static. -/
    function (isMember : Bool)
  | coroutine
deriving DecidableEq

/-- The forms of declarations. -/
inductive DeclForm where
  | object (role : ObjectRole) (type : TypeId) (definition : DefId)
  | parameter (type : TypeId)
  | callable (role : CallableRole) (params : List DeclId) (result : TypeId)
      (definition : DefId)
  | classType (kind : TypeId) (definition : DefId)
  | typeParameter (index : Nat) (default? : Option TypeId)
  | concept (parms : List DeclId) (definition : DefId)
  | namespaceBlock (body : StmtId)
  | /-- The wrapper of a parameterized declaration. -/
    template (parms : List DeclId) (constraint? : Option ExprId)
      (inner : DeclId)
deriving DecidableEq

namespace DeclForm

/-- The word for the form of a declaration. -/
def kindName : DeclForm → String
  | .object .variable _ _ => "variable"
  | .object .field _ _ => "field"
  | .object .base _ _ => "super"
  | .parameter _ => "parameter"
  | .callable (.function _) _ _ _ => "function"
  | .callable .coroutine _ _ _ => "coroutine"
  | .classType _ _ => "class"
  | .typeParameter _ _ => "type parameter"
  | .concept _ _ => "concept"
  | .namespaceBlock _ => "namespace"
  | .template _ _ _ => "template"

/-- The definition that a declaration owns, if its form has one. -/
def definition? : DeclForm → Option DefId
  | .object _ _ definition => some definition
  | .callable _ _ _ definition => some definition
  | .classType _ definition => some definition
  | .concept _ definition => some definition
  | .parameter _ => none
  | .typeParameter _ _ => none
  | .namespaceBlock _ => none
  | .template _ _ _ => none

/-- The parameters that a call fills. -/
def params : DeclForm → List DeclId
  | .callable _ params _ _ => params
  | _ => []

end DeclForm

/-- How far a declaration is elaborated. -/
inductive Phase where
  | unelaborated | typeElaborated | definitionElaborated
deriving DecidableEq

namespace Phase

/-- The word for a phase. -/
def describe : Phase → String
  | unelaborated => "unelaborated"
  | typeElaborated => "type"
  | definitionElaborated => "definition"

/-- The place of a phase in their order. -/
def rank : Phase → Nat
  | unelaborated => 0
  | typeElaborated => 1
  | definitionElaborated => 2

/-- The phase that follows. -/
def next? : Phase → Option Phase
  | unelaborated => some typeElaborated
  | typeElaborated => some definitionElaborated
  | definitionElaborated => none

/-- The later of two phases. -/
def latest (left right : Phase) : Phase :=
  if left.rank < right.rank then right else left

end Phase

/-- A declaration. -/
structure Decl where
  name : NameId
  specifiers : Specifiers
  form : DeclForm
  span : Span
  /-- The scope that the declaration belongs to. -/
  scope : ScopeId
  phase : Phase
deriving DecidableEq

namespace Decl

/-- A declaration one phase further, if that is the phase asked for. -/
def advance? (decl : Decl) (target : Phase) : Option Decl :=
  if decl.phase.next? = some target then some { decl with phase := target }
    else none

/-- A declaration that has reached a phase; phases never go back. -/
def raiseTo (decl : Decl) (target : Phase) : Decl :=
  { decl with phase := decl.phase.latest target }

end Decl

/-- The forms of definitions. -/
inductive DefForm where
  | /-- Nothing was given. -/
    empty
  | /-- An initializer, an expression body, or the expression of a concept. -/
    expression (expr : ExprId)
  | /-- The braced body of a function. -/
    body (stmt : StmtId)
  | /-- The member list of a class. -/
    members (stmt : StmtId)
  | /-- The requirements of a concept. -/
    requirements (reqs : List ReqId)
  | deleted
  | defaulted
deriving DecidableEq

/-- Every definition but the empty one defines. -/
def DefForm.isDefining : DefForm → Bool
  | .empty => false
  | _ => true

/-- Requirements that state one expression. -/
inductive StatedRole where
  | /-- Written after `requires` in a concept. -/
    syntactic
  | /-- Written alone in a concept. -/
    expression
  | /-- Written alone in a requires-expression. -/
    basic
deriving DecidableEq

/-- Requirements that relate an expression to a type. -/
inductive TypedRole where
  | conversion | deduction
deriving DecidableEq

/-- The forms of requirements. -/
inductive ReqForm where
  | type (type : TypeId)
  | stated (role : StatedRole) (expr : ExprId)
  | typed (role : TypedRole) (expr : ExprId) (type : TypeId)
deriving DecidableEq

end Tern
