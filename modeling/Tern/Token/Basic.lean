import Tern.Source.Names
import Tern.Source.Span

namespace Tern

/-!
# Tokens

The vocabulary of the language: delimiters, symbols, keywords, and the token
kinds built from them. Each spelling is written once, in `Symbol.spelling` or
`Keyword.spelling`. These two tables stand both for the patterns that the
scanner looks for and for the names that diagnostics give to the kinds of
tokens, which are the same texts.
-/

/-- The three pairs of characters that nest. -/
inductive Delimiter where
  | brace | paren | bracket
deriving DecidableEq

/-- Punctuators and operators. -/
inductive Symbol where
  | opening (delimiter : Delimiter)
  | closing (delimiter : Delimiter)
  | comma | colon | doubleColon | semicolon | dot | ellipsis | plus | minus
  | star
  | slash | percent | amp | bar | caret | tilde | assign | equal | notEqual
  | less
  | greater | lessEqual | greaterEqual | spaceship | shiftLeft | shiftRight
  | doubleAmp
  | doubleBar | bang | arrow | question | dollar
deriving DecidableEq

/-- Reserved words. -/
inductive Keyword where
  | abstractWord | autoWord | boolWord | breakWord | byteWord | classWord
  | codefWord
  | conceptWord | constWord | consumeWord | continueWord | decltypeWord
  | defWord
  | defaultWord | deleteWord | dynamicWord | elseWord | explicitWord | falseWord
  | forwardWord | ifWord | implicitWord | inWord | inlineWord | intWord
  | mutableWord
  | namespaceWord | outWord | privateWord | protectedWord | publicWord
  | requiresWord
  | returnWord | staticWord | superWord | templateWord | trueWord | typenameWord
  | varWord | virtualWord | voidWord | volatileWord | whileWord | yieldWord
deriving DecidableEq

namespace Symbol

/-- How a symbol is written in a source text, and named in diagnostics. -/
def spelling : Symbol → String
  | opening .brace => "\x7b"
  | closing .brace => "\x7d"
  | opening .paren => "("
  | closing .paren => ")"
  | opening .bracket => "["
  | closing .bracket => "]"
  | comma => ","
  | colon => ":"
  | doubleColon => "::"
  | semicolon => ";"
  | dot => "."
  | ellipsis => "..."
  | plus => "+"
  | minus => "-"
  | star => "*"
  | slash => "/"
  | percent => "%"
  | amp => "&"
  | bar => "|"
  | caret => "^"
  | tilde => "~"
  | assign => "="
  | equal => "=="
  | notEqual => "!="
  | less => "<"
  | greater => ">"
  | lessEqual => "<="
  | greaterEqual => ">="
  | spaceship => "<=>"
  | shiftLeft => "<<"
  | shiftRight => ">>"
  | doubleAmp => "&&"
  | doubleBar => "||"
  | bang => "!"
  | arrow => "->"
  | question => "?"
  | dollar => "$"

/-- Every symbol, longer spellings first. -/
def all : List Symbol :=
  [.ellipsis, .spaceship, .doubleColon, .equal, .notEqual, .lessEqual,
    .greaterEqual,
   .shiftLeft, .shiftRight, .doubleAmp, .doubleBar, .arrow, .comma, .colon,
     .semicolon, .dot,
   .plus, .minus, .star, .slash, .percent, .amp, .bar, .caret, .tilde, .assign,
     .less, .greater,
   .bang, .question, .dollar, .opening .brace, .closing .brace, .opening .paren,
   .closing .paren, .opening .bracket, .closing .bracket]

/-- No symbol is missing from the list. -/
theorem mem_all (symbol : Symbol) : symbol ∈ all := by
  cases symbol with
  | opening delimiter => cases delimiter <;> decide
  | closing delimiter => cases delimiter <;> decide
  | _ => decide

/-- The longest symbol that a text starts with. -/
def longest? (text : List Char) : Option Symbol :=
  all.find? fun symbol => symbol.spelling.toList.isPrefixOf text

end Symbol

namespace Keyword

/-- How a keyword is written in a source text, and named in diagnostics. -/
def spelling : Keyword → String
  | abstractWord => "abstract"
  | autoWord => "auto"
  | boolWord => "bool"
  | breakWord => "break"
  | byteWord => "byte"
  | classWord => "class"
  | codefWord => "codef"
  | conceptWord => "concept"
  | constWord => "const"
  | consumeWord => "consume"
  | continueWord => "continue"
  | decltypeWord => "decltype"
  | defWord => "def"
  | defaultWord => "default"
  | deleteWord => "delete"
  | dynamicWord => "dynamic"
  | elseWord => "else"
  | explicitWord => "explicit"
  | falseWord => "false"
  | forwardWord => "forward"
  | ifWord => "if"
  | implicitWord => "implicit"
  | inWord => "in"
  | inlineWord => "inline"
  | intWord => "int"
  | mutableWord => "mutable"
  | namespaceWord => "namespace"
  | outWord => "out"
  | privateWord => "private"
  | protectedWord => "protected"
  | publicWord => "public"
  | requiresWord => "requires"
  | returnWord => "return"
  | staticWord => "static"
  | superWord => "super"
  | templateWord => "template"
  | trueWord => "true"
  | typenameWord => "typename"
  | varWord => "var"
  | virtualWord => "virtual"
  | voidWord => "void"
  | volatileWord => "volatile"
  | whileWord => "while"
  | yieldWord => "yield"

/-- Every keyword, in alphabetical order. -/
def all : List Keyword :=
  [.abstractWord, .autoWord, .boolWord, .breakWord, .byteWord, .classWord,
    .codefWord,
   .conceptWord, .constWord, .consumeWord, .continueWord, .decltypeWord,
     .defWord, .defaultWord,
   .deleteWord, .dynamicWord, .elseWord, .explicitWord, .falseWord,
     .forwardWord, .ifWord,
   .implicitWord, .inWord, .inlineWord, .intWord, .mutableWord, .namespaceWord,
     .outWord,
   .privateWord, .protectedWord, .publicWord, .requiresWord, .returnWord,
     .staticWord,
   .superWord, .templateWord, .trueWord, .typenameWord, .varWord, .virtualWord,
     .voidWord,
   .volatileWord, .whileWord, .yieldWord]

/-- No keyword is missing from the list. -/
theorem mem_all (keyword : Keyword) : keyword ∈ all := by
  cases keyword <;> decide

/-- The keyword with a given spelling. -/
def ofSpelling? (text : String) : Option Keyword :=
  all.find? fun keyword => keyword.spelling == text

end Keyword

/-- What a token is. -/
inductive TokenKind where
  | symbol (symbol : Symbol)
  | keyword (keyword : Keyword)
  | identifier (name : Name)
  | integer (value : Nat)
  | /-- Text that no other kind of token covers. -/
    invalid
  | /-- The end of the token list, or of a window onto it. -/
    endOfInput
deriving DecidableEq

namespace TokenKind

/-- How a kind is named in diagnostics. -/
def displayName : TokenKind → String
  | .symbol mark => mark.spelling
  | .keyword word => word.spelling
  | .identifier _ => "identifier"
  | .integer _ => "integer literal"
  | .invalid => "invalid token"
  | .endOfInput => "end of input"

/-- The delimiter that a token opens. -/
def opens? : TokenKind → Option Delimiter
  | .symbol (.opening delimiter) => some delimiter
  | _ => none

/-- The delimiter that a token closes. -/
def closes? : TokenKind → Option Delimiter
  | .symbol (.closing delimiter) => some delimiter
  | _ => none

/-- Whether a token is an identifier. -/
def isIdentifier : TokenKind → Bool
  | .identifier _ => true
  | _ => false

end TokenKind

/-- The token that opens a delimiter. -/
def Delimiter.opener (delimiter : Delimiter) : TokenKind :=
  .symbol (.opening delimiter)

/-- The token that closes a delimiter. -/
def Delimiter.closer (delimiter : Delimiter) : TokenKind :=
  .symbol (.closing delimiter)

/-- A token with the source text that it covers. -/
structure Token where
  kind : TokenKind
  span : Span
deriving DecidableEq

/-- A half-open range of positions in one token list. -/
structure TokenRange where
  start : Nat
  stop : Nat
deriving DecidableEq

namespace TokenRange

/-- Number of tokens in a range. -/
def length (range : TokenRange) : Nat :=
  range.stop - range.start

/-- A range is empty when it starts where it ends. -/
def isEmpty (range : TokenRange) : Bool :=
  range.start == range.stop

end TokenRange

/-- A list of tokens, read by position. -/
abbrev Tokens :=
  Array Token

namespace Tokens

/-- The tokens of a range; none if the range does not lie within the list. -/
def slice (tokens : Tokens) (range : TokenRange) : List Token :=
  if range.start ≤ range.stop ∧ range.stop ≤ tokens.size then
    (tokens.extract range.start range.stop).toList
  else
    []

/-- The span from the first token of a range to its last. -/
def spanOf (tokens : Tokens) (range : TokenRange) : Span :=
  match tokens.slice range with
  | [] => .synthetic
  | first :: rest =>
      rest.foldl (fun _ token => first.span.merge token.span) first.span

end Tokens

end Tern
