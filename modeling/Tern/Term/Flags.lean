namespace Tern

/-!
# Specifiers and qualifiers

Specifiers stand before declarations and parameters and are collected into a
set. Qualifiers belong to a type.
-/

/-- A word that stands before a declaration or a parameter. -/
inductive Specifier where
  | isStatic | isDynamic
  | isInline | isExplicit | isImplicit | isVirtual | isAbstract
  | isPublic | isPrivate | isProtected
  | isIn | isOut | isMutable | isConsume | isForward | isConst
deriving DecidableEq

/-- The place of a specifier in the written form of a set. -/
def Specifier.place : Specifier → Nat
  | .isStatic => 0
  | .isDynamic => 1
  | .isInline => 2
  | .isExplicit => 3
  | .isImplicit => 4
  | .isVirtual => 5
  | .isAbstract => 6
  | .isPublic => 7
  | .isPrivate => 8
  | .isProtected => 9
  | .isIn => 10
  | .isOut => 11
  | .isMutable => 12
  | .isConsume => 13
  | .isForward => 14
  | .isConst => 15

/-- A set of specifiers, one bit for each. -/
structure Specifiers where
  bits : Nat
deriving DecidableEq

namespace Specifiers

/-- No specifiers. -/
def none : Specifiers :=
  { bits := 0 }

/-- One specifier. -/
def one (specifier : Specifier) : Specifiers :=
  { bits := 1 <<< specifier.place }

/-- All specifiers of two sets. -/
def union (left right : Specifiers) : Specifiers :=
  { bits := left.bits ||| right.bits }

/-- A set with one more specifier. -/
def insert (specifiers : Specifiers) (specifier : Specifier) : Specifiers :=
  specifiers.union (one specifier)

/-- Whether a specifier is in a set. -/
def contains (specifiers : Specifiers) (specifier : Specifier) : Bool :=
  specifiers.bits.testBit specifier.place

/-- The empty set contains nothing. -/
@[simp]
theorem contains_none (specifier : Specifier) :
    none.contains specifier = false := by
  simp [none, contains]

/-- A union contains what either side contains. -/
@[simp]
theorem contains_union (left right : Specifiers) (specifier : Specifier) :
    (left.union right).contains specifier =
      (left.contains specifier || right.contains specifier) := by
  simp [union, contains]

end Specifiers

/-- The qualifiers of a qualified type. -/
structure Qualifiers where
  isConst : Bool
  isVolatile : Bool
deriving DecidableEq

namespace Qualifiers

/-- The qualifier `const`. -/
def const : Qualifiers :=
  { isConst := true, isVolatile := false }

/-- The qualifier `volatile`. -/
def volatile : Qualifiers :=
  { isConst := false, isVolatile := true }

/-- The written form of qualifiers: one for `const`, two for `volatile`. -/
def bits (qualifiers : Qualifiers) : Nat :=
  qualifiers.isConst.toNat + 2 * qualifiers.isVolatile.toNat

/-- The qualifiers of a written form. -/
def ofBits (bits : Nat) : Qualifiers :=
  { isConst := bits.testBit 0, isVolatile := bits.testBit 1 }

end Qualifiers

end Tern
