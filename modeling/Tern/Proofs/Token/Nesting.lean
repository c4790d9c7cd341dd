import Tern.Proofs.Token.Passage

namespace Tern

/-!
# Tokens that nest

Tokens are clean if none of them is invalid and every closer closes the latest
opener that is not closed yet, which is one of its own kind. Parts of a token
list that are clean, with some delimiters left open from one to the next, make
up a clean whole.
-/

namespace Delimiter

/-- The delimiters open behind a token, if it may stand where some are open. -/
def close? (opened : List Delimiter) : TokenKind → Option (List Delimiter)
  | .invalid => none
  | .symbol (.opening delimiter) => some (delimiter :: opened)
  | .symbol (.closing delimiter) =>
      if opened.head? = some delimiter then some opened.tail else none
  | _ => some opened

/--
The delimiters open behind some tokens, if each of them may stand where it does.
-/
def closeAll? (opened : List Delimiter) (kinds : List TokenKind) :
    Option (List Delimiter) :=
  kinds.foldlM close? opened

@[simp]
theorem closeAll?_nil (opened : List Delimiter) :
    closeAll? opened [] = some opened :=
  rfl

private theorem closeAll?_cons
    (opened : List Delimiter)
    (kind : TokenKind)
    (kinds : List TokenKind) :
    closeAll? opened (kind :: kinds) =
      (close? opened kind).bind (closeAll? · kinds) :=
  List.foldlM_cons

private theorem closeAll?_append
    (opened : List Delimiter)
    (kinds more : List TokenKind) :
    closeAll? opened (kinds ++ more) =
      (closeAll? opened kinds).bind (closeAll? · more) :=
  List.foldlM_append

/-- What is open outside plays no part where a token may stand inside. -/
theorem close?_frame
    {opened left : List Delimiter}
    {kind : TokenKind}
    (closes : close? opened kind = some left)
    (outer : List Delimiter) :
    close? (opened ++ outer) kind = some (left ++ outer) := by
  cases kind with
  | invalid => cases closes
  | symbol symbol =>
      cases symbol with
      | closing delimiter =>
          cases opened with
          | nil => simp [close?] at closes
          | cons innermost rest =>
              by_cases same : innermost = delimiter <;> simp_all [close?]
      | _ =>
          cases closes
          rfl
  | _ =>
      cases closes
      rfl

private theorem closeAll?_frame
    {opened left : List Delimiter}
    {kinds : List TokenKind}
    (closes : closeAll? opened kinds = some left)
    (outer : List Delimiter) :
    closeAll? (opened ++ outer) kinds = some (left ++ outer) := by
  induction kinds generalizing opened with
  | nil =>
      cases closes
      rfl
  | cons kind kinds inductionHypothesis =>
      rw [closeAll?_cons, Option.bind_eq_some_iff] at closes
      obtain ⟨middle, first, rest⟩ := closes
      rw [closeAll?_cons, close?_frame first, Option.bind_some]
      exact inductionHypothesis rest

/-- No invalid token may stand anywhere. -/
private theorem ne_invalid_of_closeAll?
    {opened left : List Delimiter}
    {kinds : List TokenKind}
    (closes : closeAll? opened kinds = some left)
    {kind : TokenKind}
    (listed : kind ∈ kinds) :
    kind ≠ .invalid := by
  induction kinds generalizing opened with
  | nil => cases listed
  | cons first kinds inductionHypothesis =>
      rw [closeAll?_cons, Option.bind_eq_some_iff] at closes
      obtain ⟨middle, here, rest⟩ := closes
      rcases List.mem_cons.mp listed with rfl | later
      · rintro rfl
        cases here
      · exact inductionHypothesis rest later

/--
Where a token may stand, the delimiters are followed as a parser follows them.
-/
theorem follow_of_close?
    {opened left : List Delimiter}
    {kind : TokenKind}
    (closes : close? opened kind = some left) :
    follow opened kind = left := by
  cases kind with
  | invalid => cases closes
  | symbol symbol =>
      cases symbol with
      | closing delimiter =>
          by_cases same : opened.head? = some delimiter <;>
            simp_all [close?, follow, TokenKind.opens?, TokenKind.closes?]
      | _ =>
          cases closes
          rfl
  | _ =>
      cases closes
      rfl

end Delimiter

namespace Tokens

/--
No token is invalid, every closer closes the latest unclosed opener, and none is
left open.
-/
structure Clean (tokens : Tokens) : Prop where
  valid : ∀ token ∈ tokens, token.kind ≠ .invalid
  nested : Delimiter.closeAll? [] (tokens.toList.map Token.kind) = some []

/-- The kinds of the tokens from one position up to another one. -/
def kindsBetween (tokens : Tokens) (start stop : Nat) : List TokenKind :=
  ((tokens.toList.drop start).take (stop - start)).map Token.kind

/-- From one position up to another one each token may stand where it does. -/
def Nests (tokens : Tokens) (start : Nat) (opened : List Delimiter) (stop : Nat)
    (left : List Delimiter) : Prop :=
  Delimiter.closeAll? opened (tokens.kindsBetween start stop) = some left

/-- The delimiters in a range of tokens match each other. -/
def Balances (tokens : Tokens) (range : TokenRange) : Prop :=
  tokens.Nests range.start [] range.stop []

variable {tokens : Tokens} {start middle stop : Nat}
  {opened between left : List Delimiter}

private theorem kindsBetween_append
    (first : start ≤ middle)
    (second : middle ≤ stop) :
    tokens.kindsBetween start stop =
      tokens.kindsBetween start middle ++ tokens.kindsBetween middle stop := by
  have split : stop - start = (middle - start) + (stop - middle) := by omega
  have onward : start + (middle - start) = middle := by omega
  rw [kindsBetween, split, List.take_add, List.map_append, List.drop_drop,
    onward]
  rfl

namespace Nests

theorem refl (start : Nat) (opened : List Delimiter) :
    tokens.Nests start opened start opened := by
  simp [Nests, kindsBetween]

/-- Parts that follow each other make up a whole. -/
theorem trans
    (order : start ≤ middle)
    (further : middle ≤ stop)
    (first : tokens.Nests start opened middle between)
    (second : tokens.Nests middle between stop left) :
    tokens.Nests start opened stop left := by
  rw [Nests, kindsBetween_append order further, Delimiter.closeAll?_append,
    first, Option.bind_some]
  exact second

/-- What is balanced is so inside other delimiters. -/
theorem frame
    (nests : tokens.Nests start opened stop left)
    (outer : List Delimiter) :
    tokens.Nests start (opened ++ outer) stop (left ++ outer) :=
  Delimiter.closeAll?_frame nests outer

theorem single
    {token : Token}
    (found : tokens[start]? = some token)
    (closes : Delimiter.close? opened token.kind = some left) :
    tokens.Nests start opened (start + 1) left := by
  obtain ⟨inside, rfl⟩ := Array.getElem?_eq_some_iff.mp found
  have insideList : start < tokens.toList.length := inside
  have drop : tokens.toList.drop start = tokens[start] ::
      tokens.toList.drop (start + 1) := by
    rw [List.drop_eq_getElem_cons insideList, Array.getElem_toList]
  rw [Nests, kindsBetween, Nat.add_sub_cancel_left, drop, List.take_succ_cons,
    List.take_zero, List.map_singleton, Delimiter.closeAll?_cons, closes]
  rfl

end Nests

/--
Tokens that nest up to an end that is nothing but the end of the input are
clean.
-/
theorem clean_of_nests
    (nests : tokens.Nests 0 [] stop [])
    (rest : ∀ token ∈ tokens.toList.drop stop, token.kind = .endOfInput) :
    tokens.Clean := by
  have ends {kinds : List TokenKind}
      (only : ∀ kind ∈ kinds, kind = .endOfInput) :
      Delimiter.closeAll? [] kinds = some [] := by
    induction kinds with
    | nil => rfl
    | cons kind kinds inductionHypothesis =>
        obtain ⟨rfl, others⟩ := List.forall_mem_cons.mp only
        exact inductionHypothesis others
  have whole : Delimiter.closeAll? [] (tokens.toList.map Token.kind) =
      some [] := by
    rw [← List.take_append_drop stop tokens.toList, List.map_append,
      Delimiter.closeAll?_append]
    have before : Delimiter.closeAll? []
        ((tokens.toList.take stop).map Token.kind) = some [] :=
      nests
    rw [before, Option.bind_some]
    refine ends fun kind listed => ?_
    obtain ⟨token, isToken, rfl⟩ := List.mem_map.mp listed
    exact rest token isToken
  refine ⟨fun token listed => Delimiter.ne_invalid_of_closeAll? whole ?_, whole⟩
  exact List.mem_map_of_mem (Array.mem_toList_iff.mpr listed)

end Tokens

namespace Window

variable {window : Window}

/-- In a closed window every other token is a token of the list. -/
theorem Closed.token?
    (closed : window.Closed)
    {position : Nat}
    (real : window.kindAt position ≠ .endOfInput) :
    ∃ token, window.tokens[position]? = some token ∧ token.kind =
      window.kindAt position := by
  have inside := closed.lt_stop real
  simp only [kindAt, tokenAt, inside, ↓reduceIte, Array.getD_eq_getD_getElem?]
    at real ⊢
  cases found : window.tokens[position]? with
  | none =>
      rw [found] at real
      exact absurd closed real
  | some token => exact ⟨token, rfl, rfl⟩

/-- The window onto a range shows the tokens of the range. -/
theorem kindsBetween_ofRange (tokens : Tokens) (range : TokenRange) :
    tokens.kindsBetween range.start (ofRange tokens range).stop =
      tokens.kindsBetween range.start range.stop := by
  have dropped : (tokens.toList.drop range.start).length =
      tokens.size - range.start := by simp
  simp only [Tokens.kindsBetween, ofRange]
  by_cases inside : range.stop ≤ tokens.size
  · congr 2
    omega
  · rw [List.take_of_length_le (by omega), List.take_of_length_le (by omega)]

/--
Behind the window onto a whole list there is nothing but the end of the input.
-/
theorem kind_of_mem_drop_whole
    {tokens : Tokens}
    {token : Token}
    (listed : token ∈ tokens.toList.drop (whole tokens).stop) :
    token.kind = .endOfInput := by
  unfold whole at listed
  cases last : tokens.back? with
  | none =>
      obtain rfl := Array.back?_eq_none_iff.mp last
      simp at listed
  | some final =>
      obtain ⟨front, rfl⟩ := Array.back?_eq_some_iff.mp last
      rw [last] at listed
      dsimp only at listed
      split at listed
      next isEnd =>
        simp only [Array.size_push, Nat.add_sub_cancel, Array.toList_push]
          at listed
        rw [← Array.length_toList, List.drop_left] at listed
        rwa [List.mem_singleton.mp listed]
      next =>
        rw [← Array.length_toList, List.drop_length] at listed
        cases listed

end Window

end Tern
