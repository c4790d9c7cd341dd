import Tern.Term.Walk

namespace Tern

/-!
# Listings

A listing shows the terms that a statement owns, one line for each, parents
before children. Unlike the written form, a line tells the form of a term by
one word, its span, and the slots and ranges that the term itself holds.
-/

/-- A declaration as lines mention it; a dash stands for one not known yet. -/
def Slot.mention (decl : DeclId) : String :=
  if decl.isValid then toString decl.raw else "-"

/-- A range of tokens as lines mention it. -/
def TokenRange.mention (range : TokenRange) : String :=
  toString range.start ++ ".." ++ toString range.stop

/-- The words of a line for a name: its form, then what it holds. -/
def NameForm.words (names : Names) : NameForm → String × List String
  | .simple name => ("simple", [names.text name])
  | .placeholder number => ("placeholder", [toString number])
  | .applied template _ => ("template-id", [template.mention])

/-- The words of a line for a type. -/
def TypeForm.words (form : TypeForm) : String × List String :=
  (form.kindName,
    match form with
    | .declared decl _ => [decl.mention]
    | .wrapped (.qualified qualifiers) _ => [toString qualifiers.bits]
    | .unparsed range => [range.mention]
    | _ => [])

/-- The words of a line for an expression. -/
def ExprForm.words : ExprForm → String × List String
  | .bool value => ("bool", [if value then "true" else "false"])
  | .int value => ("int", [toString value])
  | .reference decl _ => ("ref", [decl.mention])
  | .overload _ [] => ("overload", [])
  | .overload _ decls =>
      ("overload", [",".intercalate (decls.map Slot.mention)])
  | .unary op _ => ("unary", [op.symbol.spelling])
  | .binary op _ _ => ("binary", [op.symbol.spelling])
  | .call _ args => ("call", [toString args.length])
  | .dot _ _ => ("dot", [])
  | .subscript _ _ => ("subscript", [])
  | .tuple elements => ("tuple", [toString elements.length])
  | .requires _ _ scope => ("requires", [toString scope.raw])
  | .unparsed range => ("unparsed", [range.mention])

/-- The words of a line for a statement. -/
def StmtForm.words : StmtForm → String × List String
  | .list .members _ scope => ("member", [toString scope.raw])
  | .list .unit _ scope => ("translation", [toString scope.raw])
  | .list .block _ scope => ("compound", [toString scope.raw])
  | .unparsed range => ("unparsed", [range.mention])
  | form => (form.kindName, [])

/-- The word for the form of a definition. -/
def DefForm.kindName : DefForm → String
  | .empty => "empty"
  | .expression _ => "expression"
  | .body _ => "function"
  | .members _ => "class"
  | .requirements _ => "concept"
  | .deleted => "deleted"
  | .defaulted => "defaulted"

/-- The word for the form of a requirement. -/
def ReqForm.kindName : ReqForm → String
  | .type _ => "type"
  | .stated .syntactic _ => "syntactic"
  | .stated .expression _ => "expression"
  | .stated .basic _ => "basic"
  | .typed .conversion _ _ => "conversion"
  | .typed .deduction _ _ => "deduction"

/-- The word that starts the lines of a family. -/
def Family.lineHead : Family → String
  | .name => "name"
  | .type => "type"
  | .expression => "expr"
  | .statement => "stmt"
  | .declaration => "decl"
  | .definition => "def"
  | .requirement => "req"

namespace Arena

/-- The words of a line for a term: its form, then what it holds. -/
def wordsOf (arena : Arena) (names : Names) : Term → String × List String
  | .name id => (arena.name id).form.words names
  | .type id => (arena.type id).form.words
  | .expr id => (arena.expr id).form.words
  | .stmt id => (arena.stmt id).form.words
  | .decl id => ((arena.decl id).form.kindName, [id.mention])
  | .definition id => ((arena.definition id).form.kindName, [])
  | .requirement id => ((arena.requirement id).form.kindName, [])

/-- The line of a term. -/
def lineOf (arena : Arena) (names : Names) (term : Term) : String :=
  let (kind, details) := arena.wordsOf names term
  " ".intercalate
    (term.family.lineHead :: kind :: (arena.spanOf term).render :: details)

/-- The lines of the terms that a statement owns, parents before children. -/
def listing (arena : Arena) (names : Names) (root : StmtId) : List String :=
  (arena.preorder (.stmt root)).map (arena.lineOf names)

/--
The keys that declarations have: identifiers by number, then placeholders.
-/
def keysInOrder (arena : Arena) (names : Names) : List Key :=
  let named := arena.decls.toList.filter fun decl => decl.name.isValid
  let carried := named.map fun decl => arena.keyOf decl.name
  let identifiers :=
    (List.range names.count).map fun number => Key.simple { number := number }
  let minted := (List.range arena.placeholders).map Key.placeholder
  (identifiers ++ minted).filter carried.contains

end Arena

end Tern
