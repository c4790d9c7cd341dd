import Tern.Term.Arena

namespace Tern

/-!
# Identity of types

Two types are the same when they have the same shape. Shapes are numbered in
order of first occurrence; the shape of a compound type mentions the numbers of
its parts, so comparing two types is comparing two numbers.

Declared types compare by declaration, type parameters by index, applied
templates by template and arguments. Expressions within types compare by value
when they are literals, and by slot otherwise.
-/

/-- The number of a shape. -/
structure TypeHandle where
  number : Nat
deriving DecidableEq

/-- What an expression within a type is compared by. -/
inductive ConstantShape where
  | int (value : Nat)
  | bool (value : Bool)
  | term (expr : ExprId)
deriving DecidableEq

/-- What a template argument is compared by. -/
inductive ArgShape where
  | type (handle : TypeHandle)
  | constant (constant : ConstantShape)
deriving DecidableEq

/-- What a type is compared by. -/
inductive TypeShape where
  | builtin (type : BuiltinType)
  | declared (decl : DeclId)
  | parameter (index : Nat)
  | applied (template : DeclId) (args : List ArgShape)
  | function (params : List TypeHandle) (result : TypeHandle)
  | wrapped (wrapper : TypeWrapper) (inner : TypeHandle)
  | array (element : TypeHandle) (length : ConstantShape)
  | tuple (elements : List TypeHandle)
  | decltype (operand : ConstantShape)
  | /-- A type not parsed yet, which is the same as itself only. -/
    unknown (type : TypeId)
deriving DecidableEq

/-- The shapes met so far; the number of a shape is its position. -/
structure TypeShapes where
  shapes : List TypeShape
deriving DecidableEq

namespace TypeShapes

/-- No shapes. -/
def empty : TypeShapes :=
  { shapes := [] }

/-- Number of distinct shapes met so far. -/
def count (known : TypeShapes) : Nat :=
  known.shapes.length

/-- Whether no shape was met yet. -/
def isEmpty (known : TypeShapes) : Bool :=
  known.shapes.isEmpty

/-- The number of a shape, numbering it when it is new. -/
def handleOf (shape : TypeShape) (known : TypeShapes) :
    TypeHandle × TypeShapes :=
  match known.shapes.idxOf? shape with
  | some number => ({ number := number }, known)
  | none => ({ number := known.count }, { shapes := known.shapes ++ [shape] })

end TypeShapes

/-- A computation that may number new shapes. -/
abbrev Shaping := StateM TypeShapes

namespace Arena

/-- What an expression within a type is compared by. -/
def constantShape (arena : Arena) (expr : ExprId) : ConstantShape :=
  match (arena.expr expr).form with
  | .int value => .int value
  | .bool value => .bool value
  | _ => .term expr

section Shapes

variable (identify : TypeId → Shaping TypeHandle)

/-- What a template argument is compared by, given the numbers of types. -/
def argShape (arena : Arena) : TemplateArg → Shaping ArgShape
  | .type type => do return .type (← identify type)
  | .expr expr => return .constant (arena.constantShape expr)

/-- What a declared type is compared by, given the numbers of types. -/
def declaredShape
    (arena : Arena)
    (decl : DeclId)
    (name : NameId) :
    Shaping TypeShape :=
  match (arena.decl decl).form, (arena.name name).form with
  | .typeParameter index _, _ => return .parameter index
  | _, .applied template args => do
      return .applied template (← args.mapM (arena.argShape identify))
  | _, _ => return .declared decl

/-- What a type is compared by, given the numbers of types. -/
def typeShape (arena : Arena) (type : TypeId) : Shaping TypeShape :=
  match (arena.type type).form with
  | .builtin builtin => return .builtin builtin
  | .declared decl name => arena.declaredShape identify decl name
  | .function params result => do
      let params ← params.mapM identify
      return .function params (← identify result)
  | .wrapped wrapper inner => do return .wrapped wrapper (← identify inner)
  | .array element length => do
      return .array (← identify element) (arena.constantShape length)
  | .tuple elements => do return .tuple (← elements.mapM identify)
  | .decltype operand => return .decltype (arena.constantShape operand)
  | .unparsed _ => return .unknown type

end Shapes

/-- The number of the shape of a type, looking into it down to a depth. -/
def identifyWithin (arena : Arena) : Nat → TypeId → Shaping TypeHandle
  | 0, type => TypeShapes.handleOf (.unknown type)
  | depth + 1, type => do
      TypeShapes.handleOf (← arena.typeShape (arena.identifyWithin depth) type)

/--
The number of the shape of a type; no chain of parts is longer than the types
stored.
-/
def identify (arena : Arena) (type : TypeId) : Shaping TypeHandle :=
  arena.identifyWithin (arena.types.size + 1) type

end Arena

end Tern
