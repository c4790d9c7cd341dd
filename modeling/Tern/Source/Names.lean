namespace Tern

/-!
# Interned names

Identifiers are compared by number. `Names` numbers texts densely in order of
first occurrence, after the empty text, which is always name zero. The texts
are kept in a list, so a name's number is the position of its text.
-/

/-- An interned identifier text, known by its number. -/
structure Name where
  number : Nat
deriving DecidableEq, Inhabited

/-- The name of the empty text. -/
def Name.empty : Name :=
  { number := 0 }

/-- The texts interned so far; the position of a text is its name's number. -/
structure Names where
  texts : List String
deriving DecidableEq

namespace Names

/-- A table that knows only the empty text. -/
def initial : Names :=
  { texts := [""] }

/-- Number of interned texts, the empty one included. -/
def count (names : Names) : Nat :=
  names.texts.length

/-- Whether no text is interned; the empty text always is. -/
def isEmpty (names : Names) : Bool :=
  names.texts.isEmpty

/-- The name already given to a text, if there is one. -/
def find? (names : Names) (text : String) : Option Name :=
  (names.texts.idxOf? text).map Name.mk

/-- The name of a text, numbering the text when it is new. -/
def intern (names : Names) (text : String) : Name × Names :=
  match names.find? text with
  | some name => (name, names)
  | none => ({ number := names.count }, { texts := names.texts ++ [text] })

/-- The text of a name; a number not yet issued has the empty text. -/
def text (names : Names) (name : Name) : String :=
  names.texts[name.number]?.getD ""

end Names

end Tern
