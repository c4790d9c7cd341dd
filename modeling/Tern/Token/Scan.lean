import Tern.Token.Basic

namespace Tern

/-!
# Scanning

A source text is first cut into lexemes, then the lexemes that mean something
become tokens. Cutting loses nothing: every character belongs to exactly one
lexeme, and each lexeme is the longest one possible where it starts. Blanks and
comments are lexemes without a token. Offsets are those of the text, whatever
its length; a text that a word can count keeps them in words.
-/

/-- Characters that separate tokens. -/
def isBlank (c : Char) : Bool :=
  c == ' ' || c == '\t' || c == '\r' || c == '\n'

/-- Characters that start a word: the ASCII letters and the underscore. -/
def isWordStart (c : Char) : Bool :=
  c.isAlpha || c == '_'

/-- Characters that continue a word: those that start one, and ASCII digits. -/
def isWordRest (c : Char) : Bool :=
  c.isAlphanum || c == '_'

/-- What a piece of source text is. -/
inductive LexemeKind where
  | blank
  | comment
  | word
  | digits
  | symbol (symbol : Symbol)
  | /-- One character that starts nothing else. -/
    stray
deriving DecidableEq

/-- A piece of source text. -/
structure Lexeme where
  kind : LexemeKind
  text : List Char
deriving DecidableEq

namespace Lexeme

/-- The longest lexeme at the start of a text. -/
def first (head : Char) (rest : List Char) : Lexeme :=
  if isBlank head then
    { kind := .blank, text := head :: rest.takeWhile isBlank }
  else if head == '/' && rest.head? == some '/' then
    { kind := .comment, text := head :: rest.takeWhile (· != '\n') }
  else if isWordStart head then
    { kind := .word, text := head :: rest.takeWhile isWordRest }
  else if head.isDigit then
    { kind := .digits, text := head :: rest.takeWhile Char.isDigit }
  else
    match Symbol.longest? (head :: rest) with
    | some symbol => { kind := .symbol symbol, text := symbol.spelling.toList }
    | none => { kind := .stray, text := [head] }

/--
Cut a text into lexemes, the first `covered` characters being cut already.
-/
def cutFrom : Nat → List Char → List Lexeme
  | _, [] => []
  | covered + 1, _ :: rest => cutFrom covered rest
  | 0, head :: rest =>
      first head rest :: cutFrom ((first head rest).text.length - 1) rest

/-- Cut a text into lexemes. -/
def cut (text : List Char) : List Lexeme :=
  cutFrom 0 text

/-- Number of UTF-8 bytes of a lexeme. -/
def byteLength (lexeme : Lexeme) : Nat :=
  lexeme.text.foldl (fun length char => length + char.utf8Size) 0

end Lexeme

/-- The largest integer literal: the largest number of 64 bits. -/
def largestInteger : Nat :=
  18446744073709551615

/-- The number that a run of decimal digits denotes. -/
def decimalValue (digits : List Char) : Nat :=
  digits.foldl (fun value digit => 10 * value + (digit.toNat - '0'.toNat)) 0

/-- The token kind of a lexeme, if it has one, and the names after it. -/
def Lexeme.meaning? (names : Names) (lexeme : Lexeme) :
    Option (TokenKind × Names) :=
  match lexeme.kind with
  | .blank => none
  | .comment => none
  | .symbol symbol => some (.symbol symbol, names)
  | .stray => some (.invalid, names)
  | .digits =>
      let value := decimalValue lexeme.text
      some (if value ≤ largestInteger then .integer value else .invalid, names)
  | .word =>
      let text := String.ofList lexeme.text
      match Keyword.ofSpelling? text with
      | some keyword => some (.keyword keyword, names)
      | none =>
          let (name, names) := names.intern text
          some (.identifier name, names)

/--
The tokens of lexemes that start at a byte offset, closed by the end of input.
-/
def tokensFrom (names : Names) (offset : Nat) : List Lexeme → List Token × Names
  | [] => ([{ kind := .endOfInput, span := .point offset }], names)
  | lexeme :: rest =>
      let stop := offset + lexeme.byteLength
      match lexeme.meaning? names with
      | none => tokensFrom names stop rest
      | some (kind, names) =>
          let (tokens, names) := tokensFrom names stop rest
          ({ kind := kind, span := { start := offset, stop := stop } } ::
            tokens, names)

/-- The tokens of a source text, and the names with its identifiers interned. -/
def scan (names : Names) (source : String) : Tokens × Names :=
  let (tokens, names) := tokensFrom names 0 (Lexeme.cut source.toList)
  (tokens.toArray, names)

end Tern
