import Tern.Proofs.Building.Triple
import Tern.Proofs.Grammar.Reparsing
import Tern.Proofs.Token.Layout
import Tern.Proofs.Token.Tokenization

namespace Tern

/-!
# Places in a text

The tokens of a text start one behind the other. So what begins at one token
starts before what begins at a later one, whichever window they are read in.
-/

namespace Tokens

/-- The tokens of a list start one behind the other. -/
def Ascending (tokens : Tokens) : Prop :=
  ∀ place later, place < later → later < tokens.size →
    (tokens.spanAt place).start < (tokens.spanAt later).start

/--
The tokens of a text start one behind the other. Only the end of input takes up
no text, and nothing is behind it.
-/
theorem ascending_scan (names : Names) (source : String) :
    (scan names source).1.Ascending := by
  obtain ⟨-, apart, front, whole, real⟩ := scan_tokenization names source
  intro place later order inside
  have sized : (scan names source).1.size = front.length + 1 := by
    rw [← Array.length_toList, whole, List.length_append, List.length_singleton]
  have within : place < front.length := by omega
  have present : place < (scan names source).1.size := by omega
  have shown {place : Nat} (inside : place < (scan names source).1.size) :
      (scan names source).1.spanAt place =
        (scan names source).1[place].span := by
    simp [spanAt, inside]
  rw [shown present, shown inside]
  have real : (scan names source).1[place].span.start <
      (scan names source).1[place].span.stop := by
    have found : (scan names source).1[place] = front[place] := by
      rw [← Array.getElem_toList]
      simp only [whole, List.getElem_append_left within]
    rw [found]
    exact (real _ (List.getElem_mem within)).2.1
  exact Nat.lt_of_lt_of_le real
    (List.pairwise_iff_getElem.mp apart place later (by simpa) (by simpa) order)

/--
The offset at which the token in a place starts; behind the tokens, places go on
rising.
-/
def startAt (tokens : Tokens) (place : Nat) : Nat :=
  if place < tokens.size then (tokens.spanAt place).start
  else (tokens.spanAt (tokens.size - 1)).start + 1 + place

private theorem startAt_of_lt
    {tokens : Tokens}
    {place : Nat}
    (inside : place < tokens.size) :
    tokens.startAt place = (tokens.spanAt place).start :=
  if_pos inside

/-- Later places are further on in the text. -/
theorem Ascending.strictMono_startAt
    {tokens : Tokens}
    (ascending : tokens.Ascending) :
    StrictMono tokens.startAt := by
  refine strictMono_nat_of_lt_succ fun place => ?_
  unfold startAt
  split
  next inside =>
    split
    next next => exact ascending place (place + 1) (Nat.lt_succ_self place) next
    next past =>
      obtain rfl : place = tokens.size - 1 := by omega
      omega
  next past =>
    rw [if_neg (by omega)]
    omega

/-- The order that the places of tokens give to what begins at them. -/
def order (tokens : Tokens) (mode : ParseMode) : Order where
  kept := True
  eager := mode = .eager
  startOf := tokens.startAt

/-- What is read in a closed window onto tokens is read in their order. -/
theorem Ascending.reads
    {tokens : Tokens}
    (ascending : tokens.Ascending)
    {window : Window}
    (shows : window.tokens = tokens)
    (closed : window.Closed)
    (inside : window.stop ≤ tokens.size)
    (names : Names)
    (mode : ParseMode) :
    (tokens.order mode).Reads
      { window := window, names := names, mode := mode } where
  closed := closed
  starts _ place before := by
    subst shows
    exact (congrArg Span.start (Window.spanAt_eq before inside)).trans
      (startAt_of_lt (Nat.lt_of_lt_of_le before inside)).symm
  behind _ place before := by
    subst shows
    exact (startAt_of_lt (Nat.lt_of_lt_of_le before inside)).symm
  rising _ _ _ before _ := ascending.strictMono_startAt before
  eager _ := Iff.rfl

end Tokens

end Tern
