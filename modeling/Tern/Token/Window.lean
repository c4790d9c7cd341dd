import Tern.Token.Basic

namespace Tern

/-!
# Token windows

A window shows a parser part of a token list: the whole list up to its end of
input, or a range captured earlier. Positions are always positions in the list,
so a saved position keeps its meaning. At and past the end of the window every
position reads as one end-of-input token.
-/

/-- A readable part of a token list. -/
structure Window where
  tokens : Tokens
  start : Nat
  /-- One past the last readable position. -/
  stop : Nat
  /-- What is read at and past `stop`. -/
  final : Token

namespace Window

/--
The window onto a whole list, ending at its end-of-input token if it has one.
-/
def whole (tokens : Tokens) : Window :=
  match tokens.back? with
  | none =>
      { tokens := tokens, start := 0, stop := 0,
        final := { kind := .endOfInput, span := .synthetic } }
  | some last =>
      if last.kind = .endOfInput then
        { tokens := tokens, start := 0, stop := tokens.size - 1, final := last }
      else
        { tokens := tokens, start := 0, stop := tokens.size,
          final := { kind := .endOfInput, span := .point last.span.stop } }

/-- The offset at which the window onto a range ends. -/
def offsetAfter (tokens : Tokens) (range : TokenRange) : Nat :=
  match (tokens.slice range).getLast? with
  | some last => last.span.stop
  | none => (tokens[range.start]?.map fun token => token.span.start).getD 0

/--
The window onto a range; its end of input stands behind the range's last token.
-/
def ofRange (tokens : Tokens) (range : TokenRange) : Window :=
  { tokens := tokens
    start := range.start
    stop := max (min range.stop tokens.size) range.start
    final :=
      { kind := .endOfInput, span := .point (offsetAfter tokens range) } }

/-- Whether a position is past the readable tokens. -/
def atEnd (window : Window) (position : Nat) : Bool :=
  decide (window.stop ≤ position)

/-- The token read at a position. -/
def tokenAt (window : Window) (position : Nat) : Token :=
  if position < window.stop then window.tokens.getD position window.final
    else window.final

/-- The kind of the token read at a position. -/
def kindAt (window : Window) (position : Nat) : TokenKind :=
  (window.tokenAt position).kind

/-- The span of the token read at a position. -/
def spanAt (window : Window) (position : Nat) : Span :=
  (window.tokenAt position).span

/-- The kind of the token some places ahead of a position. -/
def ahead (window : Window) (position distance : Nat) : TokenKind :=
  if position + distance < window.stop then window.kindAt (position + distance)
    else .endOfInput

/-- The position after the token at a position; the end is never passed. -/
def next (window : Window) (position : Nat) : Nat :=
  if position < window.stop then position + 1 else position

/-- The span of the token before a position, inside the window or not. -/
def spanBefore (window : Window) : Nat → Span
  | 0 => .synthetic
  | position + 1 => (window.tokens[position]?.map Token.span).getD .synthetic

/-- Number of tokens still to be read from a position. -/
def remaining (window : Window) (position : Nat) : Nat :=
  window.stop - position

end Window

end Tern
