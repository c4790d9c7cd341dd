import Mathlib.Data.String.Basic
import Tern.Token.Scan
import Tern.Token.Window

namespace Tern

/-!
# How tokens lie in a text

The lexemes of a text follow each other without gaps, so the tokens of a text
lie in it one behind the other, and the end of input lies behind all of them.
What is read from one token to another covers the text between them.
-/

namespace Span

/-- A span does not end before it starts. -/
def Forward (span : Span) : Prop :=
  span.start ≤ span.stop

/-- A span lies within another one. -/
structure Within (inner outer : Span) : Prop where
  start : outer.start ≤ inner.start
  stop : inner.stop ≤ outer.stop

variable {inner middle outer : Span}

theorem Within.refl (span : Span) : span.Within span where
  start := Nat.le_refl _
  stop := Nat.le_refl _

theorem Within.trans
    (first : inner.Within middle)
    (second : middle.Within outer) :
    inner.Within outer where
  start := Nat.le_trans second.start first.start
  stop := Nat.le_trans first.stop second.stop

end Span

namespace Lexeme

/-- A lexeme begins where it is looked for, and is part of the text. -/
theorem exists_first_text (head : Char) (rest : List Char) :
    ∃ tail, (first head rest).text = head :: tail ∧ tail <+: rest := by
  unfold first
  split
  · exact ⟨_, rfl, List.takeWhile_prefix _⟩
  split
  · exact ⟨_, rfl, List.takeWhile_prefix _⟩
  split
  · exact ⟨_, rfl, List.takeWhile_prefix _⟩
  split
  · exact ⟨_, rfl, List.takeWhile_prefix _⟩
  split
  next symbol found =>
    have spelled : symbol.spelling.toList <+: head :: rest := by
      simpa using List.find?_some found
    obtain ⟨more, whole⟩ := spelled
    cases text : symbol.spelling.toList with
    | nil =>
        cases symbol with
        | opening delimiter => cases delimiter <;> cases text
        | closing delimiter => cases delimiter <;> cases text
        | _ => cases text
    | cons letter tail =>
        rw [text, List.cons_append, List.cons.injEq] at whole
        obtain ⟨rfl, rfl⟩ := whole
        exact ⟨tail, rfl, List.prefix_append _ _⟩
  next => exact ⟨[], rfl, List.nil_prefix⟩

/-- Cutting loses nothing. -/
theorem flatMap_text_cutFrom (covered : Nat) (text : List Char) :
    (cutFrom covered text).flatMap Lexeme.text = text.drop covered := by
  induction text generalizing covered with
  | nil => simp [cutFrom]
  | cons head rest inductionHypothesis =>
      cases covered with
      | succ covered => simpa [cutFrom] using inductionHypothesis covered
      | zero =>
          obtain ⟨tail, found, more, rfl⟩ := exists_first_text head rest
          rw [cutFrom, List.flatMap_cons, inductionHypothesis, found]
          simp

/-- The bytes of a lexeme are those of its characters. -/
theorem byteLength_eq (lexeme : Lexeme) :
    lexeme.byteLength = String.utf8Len lexeme.text := by
  have shifted (start : Nat) (text : List Char) :
      text.foldl (fun length char => length + char.utf8Size) start =
        start + String.utf8Len text := by
    induction text generalizing start with
    | nil => rfl
    | cons head rest inductionHypothesis =>
        rw [List.foldl_cons, inductionHypothesis, String.utf8Len_cons,
          Nat.add_assoc, Nat.add_comm head.utf8Size]
  rw [byteLength, shifted, Nat.zero_add]

/-- Number of bytes of lexemes that follow each other. -/
def bytes : List Lexeme → Nat
  | [] => 0
  | lexeme :: rest => lexeme.byteLength + bytes rest

/-- The lexemes of a text have as many bytes as the text. -/
theorem bytes_cut (source : String) :
    bytes (cut source.toList) = source.utf8ByteSize := by
  have summed (lexemes : List Lexeme) :
      bytes lexemes = String.utf8Len (lexemes.flatMap Lexeme.text) := by
    induction lexemes with
    | nil => rfl
    | cons lexeme rest inductionHypothesis =>
        rw [bytes, inductionHypothesis, byteLength_eq, List.flatMap_cons,
          String.utf8Len_append]
  rw [summed, cut, flatMap_text_cutFrom, List.drop_zero,
    ← String.utf8ByteSize_ofList, String.ofList_toList]

end Lexeme

namespace Tokens

/-- The span of the token in a place. -/
def spanAt (tokens : Tokens) (place : Nat) : Span :=
  (tokens[place]?.map Token.span).getD .synthetic

/-- The tokens of a list lie one behind the other. -/
structure Aligned (tokens : Tokens) : Prop where
  forward : ∀ place, (tokens.spanAt place).Forward
  apart : ∀ {place later}, place < later → later < tokens.size →
    (tokens.spanAt place).stop ≤ (tokens.spanAt later).start

namespace Aligned

variable {tokens : Tokens} (aligned : tokens.Aligned) {place later : Nat}

include aligned

theorem start_le (order : place ≤ later) (inside : later < tokens.size) :
    (tokens.spanAt place).start ≤ (tokens.spanAt later).start := by
  rcases Nat.lt_or_eq_of_le order with before | rfl
  · exact Nat.le_trans (aligned.forward place) (aligned.apart before inside)
  · exact Nat.le_refl _

theorem stop_le (order : place ≤ later) (inside : later < tokens.size) :
    (tokens.spanAt place).stop ≤ (tokens.spanAt later).stop := by
  rcases Nat.lt_or_eq_of_le order with before | rfl
  · exact Nat.le_trans (aligned.apart before inside) (aligned.forward later)
  · exact Nat.le_refl _

/--
What covers two tokens covers the text from the first one to the second one.
-/
theorem merge_eq (order : place ≤ later) (inside : later < tokens.size) :
    (tokens.spanAt place).merge (tokens.spanAt later) =
      { start := (tokens.spanAt place).start,
        stop := (tokens.spanAt later).stop } := by
  simp only [Span.merge, Nat.min_eq_left (aligned.start_le order inside),
    Nat.max_eq_right (aligned.stop_le order inside)]

/--
The span of a range begins with its first token and ends with its last one.
-/
theorem spanOf_eq
    {range : TokenRange}
    (order : range.start < range.stop)
    (inside : range.stop ≤ tokens.size) :
    tokens.spanOf range =
      { start := (tokens.spanAt range.start).start
        stop := (tokens.spanAt (range.stop - 1)).stop } := by
  have last : range.stop - 1 < tokens.size := by omega
  have shown : tokens.slice range =
      (tokens.extract range.start range.stop).toList :=
    if_pos ⟨Nat.le_of_lt order, inside⟩
  have listed (place : Nat) (before : range.start + place < range.stop) :
      (tokens.slice range)[place]? = tokens[range.start + place]? := by
    rw [shown, Array.getElem?_toList, Array.getElem?_extract, if_pos (by omega)]
  have sized : (tokens.slice range).length = range.stop - range.start := by
    rw [shown, Array.length_toList, Array.size_extract]
    omega
  have fold (first : Token) (rest : List Token) :
      rest.foldl (fun _ token => first.span.merge token.span) first.span =
        first.span.merge
            ((first :: rest).getLast (List.cons_ne_nil _ _)).span := by
    rcases List.eq_nil_or_concat rest with rfl | ⟨most, final, rfl⟩
    · simp
    · simp
  unfold spanOf
  split
  next empty =>
    rw [empty, List.length_nil] at sized
    omega
  next first rest found =>
    have head : tokens.spanAt range.start = first.span := by
      have shown := listed 0 (by omega)
      rw [found, List.getElem?_cons_zero, Nat.add_zero] at shown
      rw [spanAt, ← shown, Option.map_some, Option.getD_some]
    have final : tokens.spanAt (range.stop - 1) =
        ((first :: rest).getLast (List.cons_ne_nil _ _)).span := by
      have shown := listed (range.stop - 1 - range.start) (by omega)
      rw [found, show range.start + (range.stop - 1 - range.start) =
        range.stop - 1 by omega,
        show range.stop - 1 - range.start = (first :: rest).length - 1 by
          rw [← found]; omega,
        ← List.getLast?_eq_getElem?,
          List.getLast?_eq_some_getLast (List.cons_ne_nil _ _)] at shown
      rw [spanAt, ← shown, Option.map_some, Option.getD_some]
    rw [fold, ← head, ← final, aligned.merge_eq (by omega) last]

end Aligned

end Tokens

/-- Tokens that lie one behind the other between two offsets. -/
structure Token.Lie (start stop : Nat) (tokens : List Token) : Prop where
  apart : tokens.Pairwise fun token later => token.span.stop ≤ later.span.start
  inside : ∀ token ∈ tokens, token.span.Forward ∧
    token.span.Within { start := start, stop := stop }

/-- The tokens of lexemes lie where the lexemes do. -/
theorem lie_tokensFrom (names : Names) (offset : Nat) (lexemes : List Lexeme) :
    Token.Lie offset (offset + Lexeme.bytes lexemes)
      (tokensFrom names offset lexemes).1 := by
  induction lexemes generalizing names offset with
  | nil =>
      refine ⟨List.pairwise_singleton _ _,
        List.forall_mem_singleton.mpr ⟨Nat.le_refl _, ?_⟩⟩
      exact ⟨Nat.le_refl _, Nat.le_add_right _ _⟩
  | cons lexeme rest inductionHypothesis =>
      have sum : offset + Lexeme.bytes (lexeme :: rest) =
          offset + lexeme.byteLength + Lexeme.bytes rest := by
        rw [Lexeme.bytes, ← Nat.add_assoc]
      have onward (names : Names) :=
        inductionHypothesis names (offset + lexeme.byteLength)
      have wider {token : Token}
          (within : token.span.Within
            { start := offset + lexeme.byteLength
              stop := offset + lexeme.byteLength + Lexeme.bytes rest }) :
          token.span.Within { start := offset, stop := offset +
                                Lexeme.bytes (lexeme :: rest) } :=
        ⟨Nat.le_trans (Nat.le_add_right _ _) within.start, sum ▸ within.stop⟩
      unfold tokensFrom
      cases lexeme.meaning? names with
      | none =>
          obtain ⟨apart, inside⟩ := onward names
          exact ⟨apart, fun token listed =>
            ⟨(inside token listed).1, wider (inside token listed).2⟩⟩
      | some meaning =>
          obtain ⟨apart, inside⟩ := onward meaning.2
          refine ⟨List.pairwise_cons.mpr
            ⟨fun token listed => (inside token listed).2.start, apart⟩,
            List.forall_mem_cons.mpr
                ⟨⟨Nat.le_add_right _ _, Nat.le_refl _, ?_⟩, fun token listed =>
              ⟨(inside token listed).1, wider (inside token listed).2⟩⟩⟩
          exact sum ▸ Nat.le_add_right _ _

namespace Tokens

/-- No token ends behind an offset. -/
def EndBy (tokens : Tokens) (offset : Nat) : Prop :=
  ∀ place, (tokens.spanAt place).stop ≤ offset

/-- What a place is the span of. -/
private theorem spanAt_cases (tokens : Tokens) (place : Nat) :
    (tokens.size ≤ place ∧ tokens.spanAt place = .synthetic) ∨
      ∃ token ∈ tokens.toList, tokens.toList[place]? = some token ∧
        tokens.spanAt place = token.span := by
  by_cases inside : place < tokens.size
  · refine .inr ⟨tokens[place],
      Array.mem_toList_iff.mpr (Array.getElem_mem inside), ?_, ?_⟩
    · rw [Array.getElem?_toList, Array.getElem?_eq_getElem inside]
    · rw [spanAt, Array.getElem?_eq_getElem inside, Option.map_some,
        Option.getD_some]
  · refine .inl ⟨Nat.le_of_not_lt inside, ?_⟩
    rw [spanAt, Array.getElem?_eq_none (Nat.le_of_not_lt inside)]
    rfl

/--
The tokens of a text lie one behind the other, and none ends behind the text.
-/
theorem aligned_scan (names : Names) (source : String) :
    (scan names source).1.Aligned ∧
      Tokens.EndBy (scan names source).1 source.utf8ByteSize := by
  have lie := lie_tokensFrom names 0 (Lexeme.cut source.toList)
  rw [Nat.zero_add, Lexeme.bytes_cut] at lie
  have listed : (scan names source).1.toList =
      (tokensFrom names 0 (Lexeme.cut source.toList)).1 :=
    rfl
  rw [← listed] at lie
  refine ⟨⟨fun place => ?_, fun {place later} order inside => ?_⟩,
    fun place => ?_⟩
  · rcases spanAt_cases (scan names source).1 place with ⟨-, same⟩ |
        ⟨token, isToken, -, same⟩
    · rw [same]
      exact Nat.le_refl _
    · rw [same]
      exact (lie.inside token isToken).1
  · rcases spanAt_cases (scan names source).1 place with ⟨past, -⟩ |
        ⟨first, -, found, same⟩
    · omega
    · rcases spanAt_cases (scan names source).1 later with ⟨past, -⟩ |
          ⟨last, -, foundLater, sameLater⟩
      · omega
      · rw [same, sameLater]
        obtain ⟨inBounds, rfl⟩ := List.getElem?_eq_some_iff.mp found
        obtain ⟨inBoundsLater, rfl⟩ := List.getElem?_eq_some_iff.mp foundLater
        exact List.pairwise_iff_getElem.mp lie.apart place later inBounds
          inBoundsLater order
  · rcases spanAt_cases (scan names source).1 place with ⟨-, same⟩ |
        ⟨token, isToken, -, same⟩
    · rw [same]
      exact Nat.zero_le _
    · rw [same]
      exact (lie.inside token isToken).2.stop

end Tokens

namespace Window

variable {window : Window} {position : Nat}

/-- Before its end a window shows the tokens of its list. -/
theorem spanAt_eq
    (before : position < window.stop)
    (inside : window.stop ≤ window.tokens.size) :
    window.spanAt position = window.tokens.spanAt position := by
  have present : position < window.tokens.size :=
    Nat.lt_of_lt_of_le before inside
  simp [spanAt, tokenAt, before, Tokens.spanAt, Array.getD_eq_getD_getElem?,
    Array.getElem?_eq_getElem present]

/-- The token before a position is that of the list. -/
theorem spanBefore_eq (past : 0 < position) :
    window.spanBefore position = window.tokens.spanAt (position - 1) := by
  obtain ⟨previous, rfl⟩ := Nat.exists_eq_add_of_lt past
  rw [Nat.zero_add, Nat.add_sub_cancel]
  rfl

/-- What is read of a whole list behind some of its tokens. -/
structure Follows (tokens : Tokens) (position : Nat) (span : Span) : Prop where
  forward : span.Forward
  behind : 0 < position → (tokens.spanAt (position - 1)).stop ≤ span.start
  endBy : ∀ {offset}, tokens.EndBy offset → span.stop ≤ offset

/-- The token in a place follows the tokens before it. -/
private theorem Follows.ofPlace
    {tokens : Tokens}
    (aligned : tokens.Aligned)
    {place : Nat}
    (order : position ≤ place)
    (listed : place < tokens.size) :
    Follows tokens position (tokens.spanAt place) where
  forward := aligned.forward place
  behind _ := aligned.apart (by omega) listed
  endBy ends := ends place

/-- What is read of a whole list lies behind the tokens before it. -/
theorem whole_follows
    {tokens : Tokens}
    (aligned : tokens.Aligned)
    (inside : position ≤ (whole tokens).stop) :
    Follows tokens position ((whole tokens).spanAt position) := by
  unfold whole at inside ⊢
  cases found : tokens.back? with
  | none =>
      obtain rfl := Array.back?_eq_none_iff.mp found
      exact ⟨Nat.le_refl _, fun _ => Nat.le_refl _, fun _ => Nat.zero_le _⟩
  | some last =>
      have listed : 0 < tokens.size := by
        obtain ⟨front, rfl⟩ := Array.back?_eq_some_iff.mp found
        simp
      have final : tokens.spanAt (tokens.size - 1) = last.span := by
        rw [Tokens.spanAt, ← Array.back?_eq_getElem?, found, Option.map_some,
          Option.getD_some]
      rw [found] at inside
      dsimp only at inside ⊢
      split at inside
      next isEnd =>
        dsimp only at inside
        rw [if_pos isEnd]
        by_cases before : position < tokens.size - 1
        · rw [spanAt_eq before (Nat.sub_le _ _)]
          exact .ofPlace aligned (Nat.le_refl _) (by omega)
        · simp only [spanAt, tokenAt, before, ↓reduceIte, ← final]
          exact .ofPlace aligned inside (by omega)
      next isReal =>
        dsimp only at inside
        rw [if_neg isReal]
        by_cases before : position < tokens.size
        · rw [spanAt_eq before (Nat.le_refl _)]
          exact .ofPlace aligned (Nat.le_refl _) before
        · obtain rfl : position = tokens.size := by omega
          simp only [spanAt, tokenAt, before, ↓reduceIte, ← final]
          exact ⟨Nat.le_refl _, fun _ => Nat.le_refl _, fun ends => ends _⟩

end Window

end Tern
