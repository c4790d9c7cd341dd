import Tern.Grammar.Parser

namespace Tern

/-!
# Passages over tokens

A passage goes over the tokens of a window one by one and follows the
delimiters that it opens and closes. It closes none that was opened before it,
so where it stands at its own level is settled by the tokens alone: two passages
from one position are at their own level at the same places.
-/

namespace Window

/-- A window is closed by the end of the input. -/
def Closed (window : Window) : Prop :=
  window.final.kind = .endOfInput

/-- The window onto a whole list is closed. -/
theorem whole_closed (tokens : Tokens) : (whole tokens).Closed := by
  unfold whole
  split
  · rfl
  · split
    next last isEnd => exact isEnd
    next => rfl

/-- The window onto a range is closed. -/
theorem ofRange_closed (tokens : Tokens) (range : TokenRange) :
    (ofRange tokens range).Closed :=
  rfl

/-- In a closed window every other token stands before the end. -/
theorem Closed.lt_stop
    {window : Window}
    (closed : window.Closed)
    {position : Nat}
    (real : window.kindAt position ≠ .endOfInput) :
    position < window.stop := by
  apply Nat.lt_of_not_le
  intro past
  apply real
  have notBefore : ¬ position < window.stop := Nat.not_lt.mpr past
  simpa [kindAt, tokenAt, notBefore, Closed] using closed

end Window

namespace Delimiter

/--
The delimiters open behind a token: a closer closes the innermost one if that is
its own.
-/
def follow (opened : List Delimiter) (kind : TokenKind) : List Delimiter :=
  match kind.opens?, kind.closes? with
  | some delimiter, _ => delimiter :: opened
  | none, some delimiter => if opened.head? = some delimiter then opened.tail
      else opened
  | none, none => opened

/-- An opener opens its delimiter. -/
theorem follow_opener (opened : List Delimiter) (delimiter : Delimiter) :
    follow opened delimiter.opener = delimiter :: opened :=
  rfl

/-- A closer closes its delimiter if that is the innermost one. -/
theorem follow_closer (opened : List Delimiter) (delimiter : Delimiter) :
    follow (delimiter :: opened) delimiter.closer = opened := by
  simp [follow, closer, TokenKind.opens?, TokenKind.closes?]

/--
What is open outside plays no part while something is open inside, or nothing is
closed.
-/
theorem follow_append
    {opened : List Delimiter}
    {kind : TokenKind}
    (inside : kind.closes?.isSome = true → opened ≠ [])
    (outer : List Delimiter) :
    follow (opened ++ outer) kind = follow opened kind ++ outer := by
  unfold follow
  cases opens : kind.opens? with
  | some delimiter =>
      rfl
  | none =>
      cases closes : kind.closes? with
      | none =>
          rfl
      | some delimiter =>
          cases opened with
          | nil =>
              exact absurd rfl (inside (by simp [closes]))
          | cons innermost rest =>
              by_cases same : innermost = delimiter <;> simp [same]

end Delimiter

/-- A parser's delimiters follow the tokens that it reads. -/
theorem ParserTrack.follow_delimiters (track : ParserTrack) (kind : TokenKind) :
    (track.follow kind).delimiters =
      Delimiter.follow track.delimiters kind := by
  unfold ParserTrack.follow Delimiter.follow
  cases kind.opens? with
  | some delimiter =>
      rfl
  | none =>
      cases kind.closes? with
      | none =>
          rfl
      | some delimiter =>
          by_cases same : track.delimiters.head? = some delimiter <;>
            simp [same]

/-- Following a token leaves the waiting specifiers as they are. -/
theorem ParserTrack.follow_specifiers (track : ParserTrack) (kind : TokenKind) :
    (track.follow kind).specifiers = track.specifiers := by
  unfold ParserTrack.follow
  split
  · rfl
  · split <;> rfl
  · rfl

/-- Following a token leaves the template context as it is. -/
theorem ParserTrack.follow_template? (track : ParserTrack) (kind : TokenKind) :
    (track.follow kind).template? = track.template? := by
  unfold ParserTrack.follow
  split
  · rfl
  · split <;> rfl
  · rfl

/--
A passage from one position to another one, with the delimiters that are open of
those opened since a level. It closes no others, at that level it goes over
tokens of certain kinds only, and it goes over no end of input.
-/
inductive Passage (window : Window) (clear : TokenKind → Prop) :
    Nat → List Delimiter → Nat → List Delimiter → Prop where
  | here (position : Nat) (opened : List Delimiter) :
      Passage window clear position opened position opened
  | read {position next : Nat} {opened left : List Delimiter}
      (inside : position < window.stop)
      (real : window.kindAt position ≠ .endOfInput)
      (cleared : opened = [] → clear (window.kindAt position))
      (nested : (window.kindAt position).closes?.isSome = true → opened ≠ [])
      (rest : Passage window clear (position + 1)
        (Delimiter.follow opened (window.kindAt position)) next left) :
      Passage window clear position opened next left

namespace Passage

variable {window : Window} {clear other : TokenKind → Prop}
  {position middle next : Nat} {opened between left : List Delimiter}

/-- A passage never goes back. -/
theorem le (passage : Passage window clear position opened next left) :
    position ≤ next := by
  induction passage with
  | here position opened => exact Nat.le_refl _
  | read _ _ _ _ _ inductionHypothesis =>
      exact Nat.le_of_succ_le inductionHypothesis

/-- Two passages one behind the other are one. -/
theorem trans
    (first : Passage window clear position opened middle between)
    (second : Passage window clear middle between next left) :
    Passage window clear position opened next left := by
  induction first with
  | here position opened => exact second
  | read inside real cleared nested _ inductionHypothesis =>
      exact .read inside real cleared nested (inductionHypothesis second)

/-- A single token is a passage. -/
theorem single
    (inside : position < window.stop)
    (real : window.kindAt position ≠ .endOfInput)
    (cleared : opened = [] → clear (window.kindAt position))
    (nested : (window.kindAt position).closes?.isSome = true → opened ≠ []) :
    Passage window clear position opened (position + 1)
      (Delimiter.follow opened (window.kindAt position)) :=
  .read inside real cleared nested (.here _ _)

/-- A passage inside delimiters is a passage where these are open. -/
theorem frame
    (passage : Passage window clear position opened next left)
    (outer : List Delimiter) :
    Passage window clear position (opened ++ outer) next (left ++ outer) := by
  induction passage with
  | here position opened => exact .here _ _
  | read inside real cleared nested _ inductionHypothesis =>
      refine .read inside real ?_ ?_ ?_
      · intro atLevel
        exact cleared (List.append_eq_nil_iff.mp atLevel).1
      · intro closes atLevel
        exact nested closes (List.append_eq_nil_iff.mp atLevel).1
      · rwa [Delimiter.follow_append nested outer]

/-- Inside delimiters a passage may go over tokens of all kinds. -/
theorem enclose
    (passage : Passage window clear position opened next left)
    {outer : List Delimiter}
    (enclosed : outer ≠ []) :
    Passage window other position (opened ++ outer) next (left ++ outer) := by
  induction passage with
  | here position opened => exact .here _ _
  | read inside real cleared nested _ inductionHypothesis =>
      refine .read inside real ?_ ?_ ?_
      · intro atLevel
        exact absurd (List.append_eq_nil_iff.mp atLevel).2 enclosed
      · intro closes atLevel
        exact nested closes (List.append_eq_nil_iff.mp atLevel).1
      · rwa [Delimiter.follow_append nested outer]

/--
Two passages from one position part nowhere: the shorter one is a part of the
longer one.
-/
private theorem split
    (passage : Passage window clear position opened next left)
    (shorter : Passage window other position opened middle between)
    (order : middle ≤ next) :
    Passage window clear position opened middle between ∧
      Passage window clear middle between next left := by
  induction shorter generalizing next left with
  | here position opened =>
      exact ⟨.here _ _, passage⟩
  | read inside _ _ nested rest inductionHypothesis =>
      have further := rest.le
      cases passage with
      | here =>
          omega
      | read inside real cleared nested remaining =>
          obtain ⟨first, second⟩ := inductionHypothesis remaining order
          exact ⟨.read inside real cleared nested first, second⟩

/--
A passage that goes on past a place at its own level goes over a clear token
there.
-/
theorem cleared_of_lt
    (passage : Passage window clear position opened next left)
    (shorter : Passage window other position opened middle [])
    (order : middle < next) :
    clear (window.kindAt middle) := by
  obtain ⟨_, onward⟩ := passage.split shorter (Nat.le_of_lt order)
  cases onward with
  | here => omega
  | read _ _ cleared _ _ => exact cleared rfl

/--
A passage that goes on past a place at its own level closes nothing there.
-/
private theorem closes_none_of_lt
    (passage : Passage window clear position opened next left)
    (shorter : Passage window other position opened middle [])
    (order : middle < next) :
    (window.kindAt middle).closes? = none := by
  obtain ⟨_, onward⟩ := passage.split shorter (Nat.le_of_lt order)
  cases onward with
  | here => omega
  | read _ _ _ nested _ =>
      apply Option.not_isSome_iff_eq_none.mp
      exact fun closes => nested closes rfl

/--
Two passages from one position that meet a closer at their own level meet the
same one.
-/
theorem eq_of_closes
    (passage : Passage window clear position [] next [])
    (twin : Passage window other position [] middle [])
    (closes : (window.kindAt next).closes?.isSome = true)
    (twinCloses : (window.kindAt middle).closes?.isSome = true) :
    next = middle := by
  rcases Nat.lt_trichotomy next middle with order | same | order
  · simp [twin.closes_none_of_lt passage order] at closes
  · exact same
  · simp [passage.closes_none_of_lt twin order] at twinCloses

end Passage

end Tern
