import Tern.Proofs.Token.Wording

namespace Tern

/-!
# Scanning is longest match

A source text is covered by its tokens and the gaps between them. A gap is made
of blanks and comments. A token has the longest text possible in its place, or
says that no token can be read there: that is one character that starts none, or
a whole run of digits whose number is too large.
-/

/-- Text without tokens, given the text behind it. -/
inductive Gap (after : List Char) : List Char → Prop
  | nothing : Gap after []
  | blanks {text rest : List Char}
      (blanks : ∀ char ∈ text, isBlank char = true)
      (further : Gap after rest) :
      Gap after (text ++ rest)
  | comment {text rest : List Char}
      (comment : IsComment text)
      (stops : StopsAt (· != '\n') (rest ++ after))
      (further : Gap after rest) :
      Gap after (text ++ rest)

/-- Why a text is no token, given the text before it and behind it. -/
inductive Invalid (before after : List Char) : List Char → Prop
  | stray {char : Char}
      (noBlank : isBlank char = false)
      (noToken : ∀ more, ¬ IsToken (char :: more)) :
      Invalid before after [char]
  | large {text : List Char}
      (number : IsNumber text)
      (exceeds : largestInteger < decimalValue text)
      (starts : ∀ last, before.getLast? = some last → last.isDigit = false)
      (stops : StopsAt Char.isDigit after) :
      Invalid before after text

/-- What a text is read as, given the text before it and behind it. -/
inductive Reads (names : Names) (before after text : List Char) :
    TokenKind → Prop
  | token {kind : TokenKind}
      (written : kind.Written names text)
      (longest : Longest text after) :
      Reads names before after text kind
  | invalid (invalid : Invalid before after text) :
      Reads names before after text .invalid

/-- The token at the end of a text. -/
def Token.ending (text : List Char) : Token :=
  { kind := .endOfInput, span := .point (String.utf8Len text) }

/-- The token of a text, given the text before it. -/
def Token.over (kind : TokenKind) (before text : List Char) : Token where
  kind := kind
  span :=
    { start := String.utf8Len before, stop := String.utf8Len (before ++ text) }

/--
Tokens that cover a text with the gaps between them, given the text before it.
-/
inductive Covers (names : Names) : List Char → List Char → List Token → Prop
  | ended {before gap : List Char}
      (skipped : Gap [] gap) :
      Covers names before gap [.ending (before ++ gap)]
  | read {before gap text after : List Char} {kind : TokenKind}
      {tokens : List Token}
      (skipped : Gap (text ++ after) gap)
      (reads : Reads names (before ++ gap) after text kind)
      (further : Covers names (before ++ gap ++ text) after tokens) :
      Covers names before (gap ++ text ++ after)
        (.over kind (before ++ gap) text :: tokens)

namespace Lexeme

/-- Lexemes that stand one behind the other in a text. -/
inductive Cuts : List Char → List Lexeme → Prop
  | nothing : Cuts [] []
  | lexeme {after : List Char} {lexeme : Lexeme} {lexemes : List Lexeme}
      (stands : Stands after lexeme)
      (further : Cuts after lexemes) :
      Cuts (lexeme.text ++ after) (lexeme :: lexemes)

/-- What is cut already plays no part in cutting the rest. -/
private theorem cutFrom_eq (covered : Nat) (text : List Char) :
    cutFrom covered text = cut (text.drop covered) := by
  induction text generalizing covered with
  | nil => simp [cut, cutFrom]
  | cons head rest inductionHypothesis =>
      cases covered with
      | zero => rfl
      | succ covered => exact inductionHypothesis covered

/-- A text is cut into its first lexeme and those of the rest. -/
theorem cut_cons
    {head : Char}
    {rest after : List Char}
    (split : head :: rest = (first head rest).text ++ after) :
    cut (head :: rest) = first head rest :: cut after := by
  obtain ⟨tail, begins, -⟩ := exists_first_text head rest
  rw [begins, List.cons_append, List.cons.injEq] at split
  rw [cut, cutFrom, cutFrom_eq, begins, List.length_cons, Nat.add_sub_cancel,
    split.2, List.drop_left]

/-- Cutting a text puts each lexeme in its place. -/
private theorem cuts_cut (text : List Char) : Cuts text (cut text) := by
  induction size : text.length using Nat.strongRecOn generalizing text with
  | ind length inductionHypothesis =>
      cases text with
      | nil => exact .nothing
      | cons head rest =>
          obtain ⟨after, split, stands⟩ := stands_first head rest
          have shorter : after.length < length := by
            obtain ⟨tail, begins, -⟩ := exists_first_text head rest
            rw [← size, split, begins, List.length_append, List.length_cons]
            omega
          rw [cut_cons split, split]
          exact .lexeme stands (inductionHypothesis _ shorter after rfl)

end Lexeme

namespace Names

/-- Interning keeps the names issued before. -/
private theorem intern_extends (names : Names) (text : String) :
    names.texts <+: (names.intern text).2.texts := by
  unfold intern
  split
  · exact List.prefix_refl _
  · exact List.prefix_append _ _

/-- An interned text is what its name looks up to, however many names follow. -/
private theorem text_intern
    {names later : Names}
    {text : String}
    (extended : (names.intern text).2.texts <+: later.texts) :
    later.text (names.intern text).1 = text := by
  obtain ⟨more, same⟩ := extended
  unfold intern at same ⊢
  rw [Names.text, ← same]
  split
  next name found =>
    obtain ⟨number, isNumber, rfl⟩ := Option.map_eq_some_iff.mp found
    obtain ⟨inside, isText, -⟩ := List.idxOf?_eq_some_iff.mp isNumber
    rw [List.getElem?_append_left inside, List.getElem?_eq_getElem inside,
      isText]
    rfl
  next missing =>
    simp [count]

end Names

/-- The meaning of a lexeme keeps the names issued before. -/
private theorem Lexeme.meaning?_extends
    {names grown : Names}
    {lexeme : Lexeme}
    {kind : TokenKind}
    (meaning : lexeme.meaning? names = some (kind, grown)) :
    names.texts <+: grown.texts := by
  obtain ⟨form, text⟩ := lexeme
  cases form with
  | word =>
      simp only [meaning?] at meaning
      split at meaning
      · cases meaning
        exact List.prefix_refl _
      · cases meaning
        exact names.intern_extends _
  | blank => cases meaning
  | comment => cases meaning
  | _ =>
      cases meaning
      exact List.prefix_refl _

/-- No run of digits goes on from one text into the next. -/
def Uncut (before after : List Char) : Prop :=
  ∀ last, before.getLast? = some last → last.isDigit = true →
    StopsAt Char.isDigit after

namespace Lexeme.Stands

variable {lexeme : Lexeme} {before after : List Char}

/-- Behind a lexeme no run of digits goes on. -/
private theorem uncut
    (stands : Stands after lexeme)
    (uncut : Uncut before (lexeme.text ++ after)) :
    Uncut (before ++ lexeme.text) after := by
  intro last ends digit
  cases final : lexeme.text.getLast? with
  | some char =>
      rw [List.getLast?_append, final, Option.some_or] at ends
      exact stands.stopsAt_isDigit (final.trans ends) digit
  | none =>
      rw [List.getLast?_append, final, Option.none_or] at ends
      have nothing := uncut last ends digit
      rwa [List.getLast?_eq_none_iff.mp final, List.nil_append] at nothing

/-- A word is read as the keyword that it spells, or as an identifier. -/
private theorem reads_word
    {text : List Char}
    {names grown later : Names}
    {kind : TokenKind}
    (word : IsWord text)
    (stops : StopsAt isWordRest after)
    (meaning : meaning? names { kind := .word, text := text } =
      some (kind, grown))
    (extended : grown.texts <+: later.texts) :
    Reads later before after text kind := by
  have longest : Longest text after := by
    cases text with
    | nil => exact word.elim
    | cons head tail =>
        refine .ofRun (fun rest piece => ?_) stops
        exact (List.forall_mem_cons.mp
          (piece.all_isWordRest (isWordRest_of_isWordStart word.1))).2
  refine .token ?_ longest
  simp only [meaning?] at meaning
  split at meaning
  next keyword found =>
    cases meaning
    have spelled : keyword.spelling = String.ofList text := by
      simpa using List.find?_some found
    have written :
        (TokenKind.keyword keyword).Written later keyword.spelling.toList :=
      .keyword keyword
    rwa [spelled, String.toList_ofList] at written
  next missing =>
    cases meaning
    refine .identifier word (fun keyword spelled => ?_)
      (Names.text_intern extended)
    have other := List.find?_eq_none.mp missing keyword keyword.mem_all
    rw [← spelled, String.ofList_toList, beq_self_eq_true] at other
    exact other rfl

/-- A run of digits is read as its number, unless that is too large. -/
private theorem reads_digits
    {text : List Char}
    {names grown later : Names}
    {kind : TokenKind}
    (number : IsNumber text)
    (stops : StopsAt Char.isDigit after)
    (meaning : meaning? names { kind := .digits, text := text } =
      some (kind, grown))
    (uncut : Uncut before (text ++ after)) :
    Reads later before after text kind := by
  obtain ⟨head, tail, rfl⟩ := List.exists_cons_of_ne_nil number.1
  have isDigit : head.isDigit = true := number.2 head List.mem_cons_self
  cases meaning
  split
  next fits =>
    refine .token (.integer number fits) (.ofRun (fun rest piece => ?_) stops)
    exact (List.forall_mem_cons.mp (piece.isNumber isDigit).2).2
  next exceeds =>
    refine .invalid
      (.large number (Nat.lt_of_not_le exceeds) (fun last ends => ?_) stops)
    apply Bool.eq_false_iff.mpr
    intro digit
    have stopped := uncut last ends digit head rfl
    rw [isDigit] at stopped
    cases stopped

/-- A lexeme that means something is read as its meaning. -/
private theorem reads
    {names grown later : Names}
    {kind : TokenKind}
    (stands : Stands after lexeme)
    (meaning : lexeme.meaning? names = some (kind, grown))
    (extended : grown.texts <+: later.texts)
    (uncut : Uncut before (lexeme.text ++ after)) :
    Reads later before after lexeme.text kind := by
  cases stands with
  | blank => cases meaning
  | comment => cases meaning
  | word word stops => exact reads_word word stops meaning extended
  | digits number stops => exact reads_digits number stops meaning uncut
  | symbol longest =>
      cases meaning
      exact .token (.symbol _) longest
  | stray noBlank noDigit noToken =>
      cases meaning
      exact .invalid (.stray noBlank noToken)

/-- A lexeme without meaning widens the gap behind it. -/
private theorem widens
    {names : Names}
    {gap further : List Char}
    (stands : Stands after lexeme)
    (split : after = gap ++ further)
    (meaningless : lexeme.meaning? names = none)
    (skipped : Gap further gap) :
    Gap further (lexeme.text ++ gap) := by
  subst split
  cases stands with
  | blank blanks => exact .blanks blanks skipped
  | comment comment stops => exact .comment comment stops skipped
  | word =>
      simp only [meaning?] at meaningless
      split at meaningless <;> cases meaningless
  | digits => cases meaningless
  | symbol => cases meaningless
  | stray => cases meaningless

end Lexeme.Stands

/-- A lexeme without meaning is skipped. -/
private theorem Covers.skip
    {names later : Names}
    {lexeme : Lexeme}
    {before after : List Char}
    {tokens : List Token}
    (stands : Lexeme.Stands after lexeme)
    (meaningless : lexeme.meaning? names = none)
    (covers : Covers later (before ++ lexeme.text) after tokens) :
    Covers later before (lexeme.text ++ after) tokens := by
  cases covers with
  | ended skipped =>
      rw [List.append_assoc]
      exact .ended (stands.widens (List.append_nil _).symm meaningless skipped)
  | read skipped reads further =>
      have widened :=
        stands.widens (List.append_assoc _ _ _) meaningless skipped
      rw [List.append_assoc before] at reads further
      simpa only [List.append_assoc] using Covers.read widened reads further

/-- Names go on being the same while tokens are read. -/
private theorem tokensFrom_extends
    (names : Names)
    (offset : Nat)
    (lexemes : List Lexeme) :
    names.texts <+: (tokensFrom names offset lexemes).2.texts := by
  induction lexemes generalizing names offset with
  | nil => exact List.prefix_refl _
  | cons lexeme rest inductionHypothesis =>
      unfold tokensFrom
      cases meaning : lexeme.meaning? names with
      | none => exact inductionHypothesis names _
      | some found =>
          exact (lexeme.meaning?_extends meaning).trans
            (inductionHypothesis found.2 _)

/-- The tokens of lexemes cover the text that is cut into them. -/
private theorem Lexeme.Cuts.covers
    {text : List Char}
    {lexemes : List Lexeme}
    (cuts : Cuts text lexemes)
    {names later : Names}
    {before : List Char}
    (uncut : Uncut before text)
    (extended : (tokensFrom names (String.utf8Len before) lexemes).2.texts <+:
      later.texts) :
    Covers later before text
      (tokensFrom names (String.utf8Len before) lexemes).1 := by
  induction cuts generalizing names before with
  | nothing =>
      have nothing : Covers later before [] [.ending (before ++ [])] :=
        .ended .nothing
      rwa [List.append_nil] at nothing
  | @lexeme after lexeme lexemes stands further inductionHypothesis =>
      have offset : String.utf8Len before + lexeme.byteLength =
          String.utf8Len (before ++ lexeme.text) := by
        rw [byteLength_eq, String.utf8Len_append]
      have onward (names : Names) :=
        @inductionHypothesis names _ (stands.uncut uncut)
      unfold tokensFrom at extended ⊢
      rw [offset] at extended ⊢
      cases meaning : lexeme.meaning? names with
      | none =>
          rw [meaning] at extended
          exact .skip stands meaning (onward names extended)
      | some found =>
          rw [meaning] at extended
          have grown := (tokensFrom_extends found.2 _ lexemes).trans extended
          have reads := stands.reads meaning grown uncut
          rw [← List.append_nil before] at reads
          have read :=
            Covers.read (.nothing) reads
              (by simpa using onward found.2 extended)
          simpa [Token.over] using read

/--
A list of tokens that a source text is read as, the names of its identifiers
being known.
-/
structure Tokenization
    (names : Names)
    (source : String)
    (tokens : List Token) :
    Prop where
  covers : Covers names [] source.toList tokens
  apart : tokens.Pairwise fun token later => token.span.stop ≤ later.span.start
  ends : ∃ front, tokens =
    front ++ [{ kind := .endOfInput, span := .point source.utf8ByteSize }] ∧
    ∀ token ∈ front, token.kind ≠ .endOfInput ∧
      token.span.start < token.span.stop ∧
      String.Pos.Raw.IsValid source ⟨token.span.start⟩ ∧
      String.Pos.Raw.IsValid source ⟨token.span.stop⟩

/-- Text takes up bytes. -/
private theorem utf8Len_append_lt
    (before : List Char)
    {text : List Char}
    (someText : text ≠ []) :
    String.utf8Len before < String.utf8Len (before ++ text) := by
  obtain ⟨head, tail, rfl⟩ := List.exists_cons_of_ne_nil someText
  rw [String.utf8Len_append, String.utf8Len_cons]
  have positive := head.utf8Size_pos
  omega

/-- What is read is some text. -/
private theorem Reads.ne_nil
    {names : Names}
    {before after text : List Char}
    {kind : TokenKind}
    (reads : Reads names before after text kind) :
    text ≠ [] := by
  rintro rfl
  cases reads with
  | token written =>
      rcases IsToken.cases ⟨names, kind, written⟩ with ⟨symbol, spelled⟩ |
          word | number
      · exact symbol.spelling_ne_nil spelled.symm
      · exact word
      · exact number.1 rfl
  | invalid invalid =>
      cases invalid with
      | large number => exact number.1 rfl

/-- What is read is not the end of input. -/
private theorem Reads.ne_endOfInput
    {names : Names}
    {before after text : List Char}
    (reads : Reads names before after text .endOfInput) :
    False := by
  cases reads with
  | token written => cases written

/-- Behind a part of a text is a boundary of its characters. -/
private theorem isValid_utf8Len (before after : List Char) :
    String.Pos.Raw.IsValid (String.ofList (before ++ after))
      ⟨String.utf8Len before⟩ := by
  rw [String.Pos.Raw.isValid_iff_exists_append]
  refine ⟨.ofList before, .ofList after, String.ofList_append, ?_⟩
  rw [String.Pos.Raw.ext_iff, String.byteIdx_rawEndPos,
    String.utf8ByteSize_ofList]

/--
The tokens that cover a text end at its end, and each of the others covers some
of it.
-/
private theorem Covers.ends
    {names : Names}
    {before text : List Char}
    {tokens : List Token}
    (covers : Covers names before text tokens) :
    ∃ front, tokens = front ++ [.ending (before ++ text)] ∧
      ∀ token ∈ front, token.kind ≠ .endOfInput ∧
        token.span.start < token.span.stop ∧
        String.Pos.Raw.IsValid (.ofList (before ++ text)) ⟨token.span.start⟩ ∧
        String.Pos.Raw.IsValid (.ofList (before ++ text))
          ⟨token.span.stop⟩ := by
  induction covers with
  | ended skipped => exact ⟨[], rfl, List.forall_mem_nil _⟩
  | @read before gap text after kind tokens skipped reads further
      inductionHypothesis =>
      obtain ⟨front, rfl, inside⟩ := inductionHypothesis
      have split : before ++ (gap ++ text ++ after) = before ++ gap ++ text ++
          after := by
        simp only [List.append_assoc]
      rw [split]
      refine ⟨_, List.cons_append.symm,
        List.forall_mem_cons.mpr ⟨⟨?_, ?_, ?_, ?_⟩, inside⟩⟩
      · rintro rfl
        exact reads.ne_endOfInput
      · exact utf8Len_append_lt (before ++ gap) reads.ne_nil
      · rw [List.append_assoc _ text]
        exact isValid_utf8Len (before ++ gap) _
      · exact isValid_utf8Len (before ++ gap ++ text) after

/-- The scanner gives the tokens that a source text is read as. -/
theorem scan_tokenization (names : Names) (source : String) :
    Tokenization (scan names source).2 source (scan names source).1.toList := by
  have start : Uncut [] source.toList := fun _ ends => nomatch ends
  have covers : Covers (scan names source).2 [] source.toList
      (scan names source).1.toList :=
    (Lexeme.cuts_cut source.toList).covers start (List.prefix_refl _)
  refine ⟨covers, (lie_tokensFrom names 0 _).apart, ?_⟩
  have ends := covers.ends
  rwa [List.nil_append, String.ofList_toList, Token.ending,
    ← String.utf8ByteSize_ofList,
    String.ofList_toList] at ends

end Tern
