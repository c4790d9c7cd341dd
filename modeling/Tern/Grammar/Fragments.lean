import Tern.Grammar.Declarations

namespace Tern

/-!
# Parsing whole fragments

Here the recursion of the grammar is closed. Every production that calls
another one without reading a token first calls one of a smaller rank, so the
depth of calls is bounded by the number of tokens left times the number of
ranks. The entry points parse a compilation unit, or a captured fragment to its
end.
-/

namespace Rules

/--
How each nonterminal is parsed, given how the nonterminals in it are parsed.
-/
def produce (rules : Rules) {Value : Type} : Nonterminal Value → Parser Value
  | .type => rules.type
  | .unaryType => rules.unaryType
  | .typeSuffixes start base => rules.typeSuffixes start base
  | .listedTypes afterComma => rules.listedTypes afterComma
  | .templateArgs => rules.templateArgs
  | .tier tier => rules.tiered tier
  | .operations tier left => rules.operations tier left
  | .unary => rules.unary
  | .postfixes start object => rules.postfixes start object
  | .expressions => rules.expressions
  | .requirements => rules.requirements
  | .statement => rules.statement
  | .unitStatements => rules.unitStatements
  | .bracedStatements => rules.bracedStatements
  | .declaration => rules.declaration
  | .specifiers => rules.specifiers
  | .paramSpecifiers read => rules.paramSpecifiers read
  | .classSpecifiers read => rules.classSpecifiers read
  | .params bound => rules.params bound
  | .templateParams => rules.templateParams
  | .conceptMembers => rules.conceptMembers

/-- The rules for calls nested no deeper than a bound. -/
def nested : Nat → Rules
  | 0 => { parse := fun _ => Action.exhaust }
  | depth + 1 => { parse := (nested depth).produce }

end Rules

namespace Parser

variable {Value : Type}

/-- The number of ranks of productions. -/
def ranks : Nat :=
  16

/-- Run a parser made of the rules, with nesting bounded by the tokens left. -/
def withRules (parser : Rules → Parser Value) : Parser Value := do
  let remaining ← remaining
  parser (Rules.nested (ranks * (remaining + 1)))

/-- Parse one nonterminal. -/
def parse (nonterminal : Nonterminal Value) : Parser Value :=
  withRules fun rules => rules.parse nonterminal

/-- Run a parser that has to read all tokens of the window. -/
def toEnd (parser : Parser Value) : Parser Value := do
  let value ← parser
  if ← atEnd then
    return value
  else
    let token ← current
    failAt (.trailingTokens token.kind) token.span

/-- A compilation unit in the current scope. -/
def unit : Parser StmtId :=
  withRules Rules.unit

/-- A captured type. -/
def typeFragment : Parser TypeId :=
  toEnd (parse .type)

/-- A captured initializer or expression body. -/
def expressionFragment : Parser ExprId :=
  toEnd (parse (.tier .or))

/-- A captured function body, in the current scope. -/
def bodyFragment : Parser StmtId :=
  toEnd (withRules Rules.currentBlock)

/-- A captured class body, in the current scope. -/
def memberFragment : Parser StmtId :=
  toEnd (withRules Rules.memberBody)

end Parser

end Tern
