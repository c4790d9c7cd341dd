import Mathlib.Data.List.Nodup
import Tern.Proofs.Token.Tokenization

namespace Tern

/-!
# Tokens written out again

Each token kind but an invalid one has a spelling. Whatever kinds are written
one behind the other with a blank between them, the scanner reads those kinds
again, for a blank ends the longest token in each place, and no name is new to
it.
-/

/--
How a token is written: a name by its text, and a number in decimal digits.
-/
def TokenKind.spelling (names : Names) : TokenKind → String
  | .identifier name => names.text name
  | .integer value => value.repr
  | kind => kind.displayName

/--
A kind that a source text can have. An identifier is the name that its text is
interned as, and the text is a word that is no keyword.
-/
inductive TokenKind.Spellable (names : Names) : TokenKind → Prop
  | symbol (symbol : Symbol) : Spellable names (.symbol symbol)
  | keyword (keyword : Keyword) : Spellable names (.keyword keyword)
  | identifier {name : Name}
      (word : IsWord (names.text name).toList)
      (free : ∀ keyword : Keyword, keyword.spelling ≠ names.text name)
      (interned : names.find? (names.text name) = some name) :
      Spellable names (.identifier name)
  | integer {value : Nat} (fits : value ≤ largestInteger) :
      Spellable names (.integer value)

/-- Tokens written one behind the other, with single blanks between them. -/
def spellOut (names : Names) (kinds : List TokenKind) : String :=
  " ".intercalate (kinds.map (TokenKind.spelling names))

/-- A text that is at its end, or goes on with a blank. -/
def Parted (after : List Char) : Prop :=
  StopsAt (· != ' ') after

private theorem Parted.nothing : Parted [] :=
  nofun

private theorem Parted.blank (rest : List Char) : Parted (' ' :: rest) := by
  rintro _ ⟨⟩
  rfl

private theorem Parted.stopsAt
    {after : List Char}
    {inClass : Char → Bool}
    (parted : Parted after)
    (blank : inClass ' ' = false) :
    StopsAt inClass after := by
  intro head first
  obtain rfl : head = ' ' := by simpa using parted head first
  exact blank

/-- A run of characters of a class ends where the class does. -/
private theorem takeWhile_eq
    {inClass : Char → Bool}
    {run after : List Char}
    (runs : ∀ char ∈ run, inClass char = true)
    (stops : StopsAt inClass after) :
    (run ++ after).takeWhile inClass = run := by
  rw [List.takeWhile_append_of_pos runs]
  cases after with
  | nil => exact List.append_nil run
  | cons head rest => simp [stops head rfl]

/-- What starts a word is no blank. -/
private theorem isBlank_of_isWordRest
    {char : Char}
    (inside : isWordRest char = true) :
    isBlank char = false := by
  apply Bool.eq_false_iff.mpr
  intro blank
  simp only [isBlank, Bool.or_eq_true, beq_iff_eq] at blank
  rcases blank with ((rfl | rfl) | rfl) | rfl <;> cases inside

namespace Symbol

/-- A symbol is written without blanks. -/
private theorem isBlank_of_mem_spelling
    {symbol : Symbol}
    {char : Char}
    (written : char ∈ symbol.spelling.toList) :
    isBlank char = false := by
  have plain : (symbol.spelling.toList.all fun char => !isBlank char) =
      true := by
    cases symbol with
    | opening delimiter => cases delimiter <;> decide
    | closing delimiter => cases delimiter <;> decide
    | _ => decide
  simpa using List.all_eq_true.mp plain char written

/-- No two symbols are written alike. -/
private theorem eq_of_spelling_eq
    {symbol other : Symbol}
    (same : symbol.spelling.toList = other.spelling.toList) :
    symbol = other :=
  List.inj_on_of_nodup_map
    (by decide : (all.map fun symbol => symbol.spelling.toList).Nodup)
    symbol.mem_all other.mem_all same

/--
Where a symbol is followed by a blank, it is the longest one. A longer symbol
would go on with the blank.
-/
private theorem longest?_spelling
    {after : List Char}
    (symbol : Symbol)
    (parted : Parted after) :
    longest? (symbol.spelling.toList ++ after) = some symbol := by
  have starts : symbol.spelling.toList <+: symbol.spelling.toList ++ after :=
    List.prefix_append _ _
  cases found : longest? (symbol.spelling.toList ++ after) with
  | none =>
      have missed := List.find?_eq_none.mp found symbol symbol.mem_all
      simp at missed
  | some other =>
      have longer := length_le_of_longest? found starts
      have prefixed : other.spelling.toList <+: symbol.spelling.toList ++
          after := by
        simpa using List.find?_some found
      have same : symbol.spelling.toList.length =
          other.spelling.toList.length := by
        refine Nat.le_antisymm longer (Nat.le_of_not_lt fun isLonger => ?_)
        obtain ⟨next, more, spelled, behind⟩ := exists_next prefixed isLonger
        obtain rfl : next = ' ' := by simpa using parted next behind
        have inside : ' ' ∈ other.spelling.toList := by simp [spelled]
        have plain := isBlank_of_mem_spelling inside
        cases plain
      have equal :=
        List.prefix_of_prefix_length_le starts prefixed (Nat.le_of_eq same)
      exact congrArg some (eq_of_spelling_eq (equal.eq_of_length same)).symm

end Symbol

namespace Lexeme

variable {head : Char} {rest after : List Char}

private theorem first_blank (stops : StopsAt isBlank after) :
    first ' ' after = { kind := .blank, text := [' '] } := by
  have none : after.takeWhile isBlank = [] := by
    simpa using takeWhile_eq (List.forall_mem_nil _) stops
  rw [first, if_pos (by decide), none]

private theorem first_word
    (word : IsWord (head :: rest))
    (parted : Parted after) :
    first head (rest ++ after) = { kind := .word, text := head :: rest } := by
  have inside := isWordRest_of_isWordStart word.1
  have slash : head ≠ '/' := by
    rintro rfl
    cases inside
  rw [first, if_neg (by simp [isBlank_of_isWordRest inside]), if_neg
    (by simp [slash]), if_pos word.1, takeWhile_eq word.2 (parted.stopsAt rfl)]

private theorem first_digits
    (number : IsNumber (head :: rest))
    (parted : Parted after) :
    first head (rest ++ after) = { kind := .digits, text := head :: rest } := by
  obtain ⟨digit, digits⟩ := List.forall_mem_cons.mp number.2
  have slash : head ≠ '/' := by
    rintro rfl
    cases digit
  rw [first, if_neg
    (by simp [isBlank_of_isWordRest (isWordRest_of_isDigit digit)]),
    if_neg (by simp [slash]), if_neg (by simp [isWordStart_of_isDigit digit]),
    if_pos digit, takeWhile_eq digits (parted.stopsAt rfl)]

private theorem first_symbol
    {symbol : Symbol}
    (spelled : symbol.spelling.toList = head :: rest)
    (parted : Parted after) :
    first head (rest ++ after) =
        { kind := .symbol symbol, text := head :: rest } := by
  have listed : head ∈ symbol.spelling.toList := spelled ▸ List.mem_cons_self
  have plain := Symbol.plain_of_mem_spelling listed
  have noWord : isWordStart head = false := by
    apply Bool.eq_false_iff.mpr
    intro starts
    rw [isWordRest_of_isWordStart starts] at plain
    cases plain
  have noDigit : head.isDigit = false := by
    apply Bool.eq_false_iff.mpr
    intro digit
    rw [isWordRest_of_isDigit digit] at plain
    cases plain
  have noComment : ¬ (head = '/' ∧ (rest ++ after).head? = some '/') := by
    rintro ⟨rfl, second⟩
    have alone : rest = [] := by
      have single : ∀ other ∈ Symbol.all, other.spelling.toList.head? =
          some '/' →
          other.spelling.toList.length = 1 := by decide
      simpa [spelled] using single symbol symbol.mem_all (by rw [spelled]; rfl)
    subst alone
    have blank := parted '/' second
    cases blank
  rw [first, if_neg (by simp [Symbol.isBlank_of_mem_spelling listed]),
    if_neg (by simpa using noComment), if_neg (by simp [noWord]),
    if_neg (by simp [noDigit]), ← List.cons_append, ← spelled,
    symbol.longest?_spelling parted]

/-- A lexeme at the start of a text is cut off. -/
private theorem cut_of_first
    {kind : LexemeKind}
    (begins : first head (rest ++ after) =
      { kind := kind, text := head :: rest }) :
    cut (head :: rest ++ after) = { kind := kind, text := head :: rest } ::
      cut after := by
  rw [List.cons_append, cut_cons (by rw [begins, List.cons_append]), begins]

/-- A word is cut off in front of a blank, and a number and a symbol are. -/
private theorem cut_text
    {text : List Char}
    (parted : Parted after) :
    (IsWord text → cut (text ++ after) = { kind := .word, text := text } ::
      cut after) ∧
    (IsNumber text → cut (text ++ after) = { kind := .digits, text := text } ::
      cut after) ∧
    ∀ symbol : Symbol, symbol.spelling.toList = text →
      cut (text ++ after) = { kind := .symbol symbol, text := text } ::
        cut after := by
  cases text with
  | nil => exact ⟨False.elim, fun number => absurd rfl number.1,
      fun symbol spelled => absurd spelled symbol.spelling_ne_nil⟩
  | cons head rest => exact ⟨fun word => cut_of_first (first_word word parted),
      fun number => cut_of_first (first_digits number parted),
      fun symbol spelled => cut_of_first (first_symbol spelled parted)⟩

/-- The digits of a number are a number, which is that one. -/
private theorem decimalValue_repr (value : Nat) :
    IsNumber value.repr.toList ∧ decimalValue value.repr.toList = value := by
  rw [Nat.toList_repr]
  exact ⟨⟨Nat.toDigits_ne_nil, fun char =>
    Nat.isDigit_of_mem_toDigits (by decide) (by decide)⟩,
    Nat.ofDigitChars_ten_toDigits⟩

/-- What is written for a keyword is read as that keyword. -/
private theorem ofSpelling?_spelling (keyword : Keyword) :
    Keyword.ofSpelling? keyword.spelling = some keyword := by
  cases keyword <;> decide

/--
A kind whose tokens are all written alike is named in diagnostics as it is
written.
-/
theorem displayName_eq_text
    {names later : Names}
    {kind : TokenKind}
    (meaning : (first head rest).meaning? names = some (kind, later))
    (fixed : (∃ symbol, kind = .symbol symbol) ∨ ∃ keyword, kind =
      .keyword keyword) :
    kind.displayName = String.ofList (first head rest).text := by
  have spelled {symbol : Symbol}
      (found : (first head rest).kind = .symbol symbol) :
      (first head rest).text = symbol.spelling.toList := by
    unfold first at found ⊢
    split at found <;> grind
  generalize first head rest = lexeme at meaning spelled
  obtain ⟨lexemeKind, text⟩ := lexeme
  cases lexemeKind with
  | blank => cases meaning
  | comment => cases meaning
  | stray =>
      cases meaning
      simp at fixed
  | digits =>
      simp only [meaning?, Option.some.injEq, Prod.mk.injEq] at meaning
      split at meaning <;> obtain ⟨rfl, -⟩ := meaning <;> simp at fixed
  | symbol symbol =>
      cases meaning
      rw [TokenKind.displayName, spelled rfl, String.ofList_toList]
  | word =>
      simp only [meaning?] at meaning
      split at meaning
      next keyword found =>
        cases meaning
        simpa [TokenKind.displayName] using List.find?_some found
      next =>
        cases meaning
        simp at fixed

/--
A spelling is cut off in one piece, which means the kind that was written.
-/
private theorem cut_spelling
    {names : Names}
    {kind : TokenKind}
    (spellable : kind.Spellable names)
    (parted : Parted after) :
    ∃ lexeme, cut ((kind.spelling names).toList ++ after) =
      lexeme :: cut after ∧
      lexeme.meaning? names = some (kind, names) := by
  cases spellable with
  | symbol symbol => exact ⟨_, (cut_text parted).2.2 symbol rfl, rfl⟩
  | keyword keyword =>
      refine ⟨_, (cut_text parted).1 keyword.isWord_spelling, ?_⟩
      simp only [meaning?, TokenKind.spelling, TokenKind.displayName,
        String.ofList_toList, ofSpelling?_spelling]
  | @identifier name word free interned =>
      refine ⟨_, (cut_text parted).1 word, ?_⟩
      have missing : Keyword.ofSpelling? (names.text name) = none :=
        List.find?_eq_none.mpr fun keyword _ => by simpa using free keyword
      simp only [meaning?, TokenKind.spelling, String.ofList_toList, missing,
        Names.intern, interned]
  | @integer value fits =>
      obtain ⟨number, same⟩ := decimalValue_repr value
      refine ⟨_, (cut_text parted).2.1 number, ?_⟩
      simp only [meaning?, TokenKind.spelling, same, if_pos fits]

/-- A token begins with a character that is no blank. -/
private theorem stopsAt_token
    {text : List Char}
    (token : IsToken text)
    (more : List Char) :
    StopsAt isBlank (text ++ more) := by
  cases text with
  | nil =>
      rcases token.cases with ⟨symbol, spelled⟩ | word | number
      · exact absurd spelled.symm symbol.spelling_ne_nil
      · exact word.elim
      · exact absurd rfl number.1
  | cons head rest =>
      rintro _ ⟨⟩
      rcases token.cases with ⟨symbol, spelled⟩ | word | number
      · exact Symbol.isBlank_of_mem_spelling (spelled ▸ List.mem_cons_self)
      · exact isBlank_of_isWordRest (isWordRest_of_isWordStart word.1)
      · exact isBlank_of_isWordRest
          (isWordRest_of_isDigit (number.2 head List.mem_cons_self))

/-- What is written for a kind is a token. -/
private theorem isToken_spelling
    {names : Names}
    {kind : TokenKind}
    (spellable : kind.Spellable names) :
    IsToken (kind.spelling names).toList := by
  refine ⟨names, kind, ?_⟩
  cases spellable with
  | symbol symbol => exact .symbol symbol
  | keyword keyword => exact .keyword keyword
  | identifier word free interned =>
      exact .identifier word
        (fun keyword spelled => free keyword (String.toList_inj.mp spelled))
        String.ofList_toList.symm
  | @integer value fits =>
      obtain ⟨number, same⟩ := decimalValue_repr value
      have written :=
        @TokenKind.Written.integer names _ number (same.trans_le fits)
      rwa [same] at written

end Lexeme

/--
What is written for kinds is the first of them and, behind a blank, the others.
-/
private theorem toList_spellOut_cons
    (names : Names)
    (kind : TokenKind)
    (kinds : List TokenKind) :
    (spellOut names (kind :: kinds)).toList = (kind.spelling names).toList ++
      if kinds = [] then [] else ' ' :: (spellOut names kinds).toList := by
  cases kinds with
  | nil => simp [spellOut]
  | cons next rest => simp [spellOut, String.toList_intercalate]

/--
A text that kinds were written in is cut into lexemes that mean those kinds.
-/
private theorem cut_spellOut_cons
    {names : Names}
    {kind : TokenKind}
    {kinds : List TokenKind}
    (spellable : ∀ other ∈ kind :: kinds, other.Spellable names) :
    ∃ lexeme gap, Lexeme.cut (spellOut names (kind :: kinds)).toList =
        lexeme :: gap ++ Lexeme.cut (spellOut names kinds).toList ∧
      lexeme.meaning? names = some (kind, names) ∧
      ∀ blank ∈ gap, Lexeme.meaning? names blank = none := by
  obtain ⟨first, others⟩ := List.forall_mem_cons.mp spellable
  rw [toList_spellOut_cons]
  split
  next none =>
    subst none
    obtain ⟨lexeme, cut, meaning⟩ := Lexeme.cut_spelling first Parted.nothing
    exact ⟨lexeme, [], cut, meaning, List.forall_mem_nil _⟩
  next more =>
    obtain ⟨next, rest, rfl⟩ := List.exists_cons_of_ne_nil more
    obtain ⟨lexeme, cut, meaning⟩ := Lexeme.cut_spelling first
      (.blank (spellOut names (next :: rest)).toList)
    refine ⟨lexeme, [{ kind := .blank, text := [' '] }], ?_,
      meaning, by simp [Lexeme.meaning?]⟩
    have blank : StopsAt isBlank (spellOut names (next :: rest)).toList := by
      rw [toList_spellOut_cons]
      exact Lexeme.stopsAt_token
        (Lexeme.isToken_spelling (others next List.mem_cons_self)) _
    rw [cut]
    exact congrArg (lexeme :: ·)
      (@Lexeme.cut_of_first ' ' [] _ _ (Lexeme.first_blank blank))

/-- Lexemes that mean nothing give no tokens. -/
private theorem tokensFrom_append
    {names : Names}
    {gap : List Lexeme}
    (meaningless : ∀ blank ∈ gap, blank.meaning? names = none)
    (offset : Nat)
    (lexemes : List Lexeme) :
    ∃ behind, tokensFrom names offset (gap ++ lexemes) =
      tokensFrom names behind lexemes := by
  induction gap generalizing offset with
  | nil => exact ⟨offset, rfl⟩
  | cons blank gap inductionHypothesis =>
      obtain ⟨none, others⟩ := List.forall_mem_cons.mp meaningless
      obtain ⟨behind, same⟩ :=
        inductionHypothesis others (offset + blank.byteLength)
      exact ⟨behind, by rw [List.cons_append, tokensFrom, none]; exact same⟩

/--
Where kinds were written, those kinds are read, and the names stay as they were.
-/
private theorem tokensFrom_spellOut
    {names : Names}
    {kinds : List TokenKind}
    (spellable : ∀ kind ∈ kinds, kind.Spellable names)
    (offset : Nat) :
    (tokensFrom names offset (Lexeme.cut (spellOut names kinds).toList)).1.map
      Token.kind =
        kinds ++ [.endOfInput] ∧
      (tokensFrom names offset (Lexeme.cut (spellOut names kinds).toList)).2 =
        names := by
  induction kinds generalizing offset with
  | nil => exact ⟨rfl, rfl⟩
  | cons kind kinds inductionHypothesis =>
      obtain ⟨lexeme, gap, cut, meaning, meaningless⟩ :=
        cut_spellOut_cons spellable
      obtain ⟨behind, same⟩ :=
        tokensFrom_append meaningless (offset + lexeme.byteLength)
        (Lexeme.cut (spellOut names kinds).toList)
      obtain ⟨read, kept⟩ :=
        inductionHypothesis (List.forall_mem_cons.mp spellable).2 behind
      rw [cut, List.cons_append, tokensFrom, meaning]
      simp only [same, List.map_cons, read, kept, List.cons_append, and_self]

/--
Any kinds of tokens that a source text can have, written one behind the other
with single blanks between them, are read as those kinds in their order, closed
by the end of input, and no name is interned.
-/
theorem scan_spellOut
    {names : Names}
    {kinds : List TokenKind}
    (spellable : ∀ kind ∈ kinds, kind.Spellable names) :
    (scan names (spellOut names kinds)).1.toList.map Token.kind =
      kinds ++ [.endOfInput] ∧
      (scan names (spellOut names kinds)).2 = names :=
  tokensFrom_spellOut spellable 0

/--
Two slashes, a word that a keyword begins, the keyword, the largest number and
symbols that begin alike: written out, none of them joins the one before it.
-/
theorem scan_spellOut_slashes :
    let names : Names := { texts := ["", "define"] }
    let kinds : List TokenKind :=
      [.symbol .slash, .symbol .slash, .identifier ⟨1⟩,
      .keyword .defWord, .integer 18446744073709551615, .integer 7,
        .symbol .less,
      .symbol .lessEqual]
    (∀ kind ∈ kinds, kind.Spellable names) ∧
      spellOut names kinds = "/ / define def 18446744073709551615 7 < <=" ∧
      (scan names "/ / define def 18446744073709551615 7 < <=").1.toList.map
        Token.kind =
        kinds ++ [.endOfInput] ∧
      (scan names "/ / define def 18446744073709551615 7 < <=").2 = names := by
  intro names kinds
  have spellable : ∀ kind ∈ kinds, kind.Spellable names := by
    have free : ∀ keyword ∈ Keyword.all, keyword.spelling ≠ names.text ⟨1⟩ := by
      decide
    refine List.forall_mem_cons.mpr
      ⟨.symbol _, List.forall_mem_cons.mpr ⟨.symbol _, ?_⟩⟩
    refine List.forall_mem_cons.mpr
      ⟨.identifier (by decide) (fun keyword => free keyword keyword.mem_all)
      (by decide), List.forall_mem_cons.mpr ⟨.keyword _, ?_⟩⟩
    refine List.forall_mem_cons.mpr ⟨.integer (by decide),
      List.forall_mem_cons.mpr ⟨.integer (by decide), ?_⟩⟩
    exact List.forall_mem_cons.mpr
      ⟨.symbol _, List.forall_mem_singleton.mpr (.symbol _)⟩
  have written : spellOut names kinds =
      "/ / define def 18446744073709551615 7 < <=" := by
    decide +kernel
  exact ⟨spellable, written, written ▸ scan_spellOut spellable⟩

end Tern
