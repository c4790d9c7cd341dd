namespace Tern

/-!
# Source spans

Every token and term carries the half-open interval of UTF-8 byte offsets that
it covers. Spans are plain pairs of numbers: nothing forces the end to follow
the start, so the length of a span is partial. Offsets are counted without a
bound; what fits one word is not changed by keeping it there.
-/

/-- The largest number that fits one 32-bit word. -/
def largestWord : Nat :=
  4294967295

/-- A half-open interval of byte offsets. -/
structure Span where
  start : Nat
  stop : Nat
deriving DecidableEq, Inhabited

namespace Span

/-- The span of a term that has no source text of its own. -/
def synthetic : Span :=
  { start := 0, stop := 0 }

/-- The empty span at one offset. -/
def point (offset : Nat) : Span :=
  { start := offset, stop := offset }

/-- The span of two offsets, each cut down to the largest word. -/
def ofOffsets (start stop : Nat) : Span :=
  { start := min start largestWord, stop := min stop largestWord }

/-- Number of bytes covered, if the end does not precede the start. -/
def length? (span : Span) : Option Nat :=
  if span.start ≤ span.stop then some (span.stop - span.start) else none

/-- A span is empty when it starts where it ends. -/
def isEmpty (span : Span) : Bool :=
  span.start == span.stop

/--
An offset lies in a span from its start up to, but not including, its end.
-/
def contains (span : Span) (offset : Nat) : Bool :=
  decide (span.start ≤ offset) && decide (offset < span.stop)

/-- The least span covering both arguments. -/
def merge (left right : Span) : Span :=
  { start := min left.start right.start, stop := max left.stop right.stop }

/-- The written form of a span: its two offsets around two dots. -/
def render (span : Span) : String :=
  toString span.start ++ ".." ++ toString span.stop

/-- A span covers itself. -/
@[simp]
theorem merge_self (span : Span) : span.merge span = span := by
  simp [merge]

end Span

end Tern
