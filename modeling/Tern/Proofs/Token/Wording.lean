import Tern.Proofs.Token.Layout

namespace Tern

/-!
# How tokens are written

Each token kind has its texts: a symbol and a keyword have their spelling, an
identifier is a word that is no keyword, an integer a run of digits. Where a
lexeme stands in a text, no longer text is a token or a comment, and a
character that stands alone without meaning starts no token at all.
-/

/--
A word starts with a letter or an underscore and goes on with these and digits.
-/
def IsWord : List Char → Prop
  | [] => False
  | head :: rest => isWordStart head = true ∧ ∀ char ∈ rest,
      isWordRest char = true

instance IsWord.decidable : (text : List Char) → Decidable (IsWord text)
  | [] => .isFalse id
  | head :: rest =>
      decidable_of_iff ((isWordStart head && rest.all isWordRest) = true)
        (by simp [IsWord])

/-- A number is a run of digits. -/
def IsNumber (text : List Char) : Prop :=
  text ≠ [] ∧ ∀ char ∈ text, char.isDigit = true

/-- A comment starts with two slashes and holds no line break. -/
def IsComment (text : List Char) : Prop :=
  ∃ body, text = '/' :: '/' :: body ∧ '\n' ∉ body

/--
The texts that a token kind is written as, its names being those of a table.
-/
inductive TokenKind.Written (names : Names) : TokenKind → List Char → Prop
  | symbol (symbol : Symbol) :
      Written names (.symbol symbol) symbol.spelling.toList
  | keyword (keyword : Keyword) :
      Written names (.keyword keyword) keyword.spelling.toList
  | identifier {name : Name} {text : List Char}
      (word : IsWord text)
      (free : ∀ keyword : Keyword, keyword.spelling.toList ≠ text)
      (named : names.text name = String.ofList text) :
      Written names (.identifier name) text
  | integer {text : List Char}
      (number : IsNumber text)
      (fits : decimalValue text ≤ largestInteger) :
      Written names (.integer (decimalValue text)) text

/-- A text that some token kind is written as. -/
def IsToken (text : List Char) : Prop :=
  ∃ names kind, TokenKind.Written names kind text

/--
A text that is read in one piece: a token, a number of any size, or a comment.
-/
def IsPiece (text : List Char) : Prop :=
  IsToken text ∨ IsNumber text ∨ IsComment text

/-- No longer text in the place of a text is a piece. -/
def Longest (text after : List Char) : Prop :=
  ∀ longer, longer <+: text ++ after → text.length < longer.length →
    ¬ IsPiece longer

/-- A text does not start with a character of a class. -/
def StopsAt (inClass : Char → Bool) (after : List Char) : Prop :=
  ∀ head, after.head? = some head → inClass head = false

theorem isWordRest_of_isWordStart
    {char : Char}
    (starts : isWordStart char = true) :
    isWordRest char = true := by
  simp only [isWordStart, isWordRest, Char.isAlphanum, Bool.or_eq_true]
    at starts ⊢
  exact starts.imp_left .inl

theorem isWordRest_of_isDigit {char : Char} (digit : char.isDigit = true) :
    isWordRest char = true := by
  simp [isWordRest, Char.isAlphanum, digit]

/-- A digit starts no word. -/
theorem isWordStart_of_isDigit {char : Char} (digit : char.isDigit = true) :
    isWordStart char = false := by
  have low : char.toNat ≤ '9'.toNat := by
    simp only [Char.isDigit, Bool.and_eq_true, decide_eq_true_eq] at digit
    exact UInt32.le_iff_toNat_le.mp digit.2
  apply Bool.eq_false_iff.mpr
  intro starts
  have upper (is : char.isUpper = true) : 'A'.toNat ≤ char.toNat :=
    UInt32.le_iff_toNat_le.mp (of_decide_eq_true is).1
  have lower (is : char.isLower = true) : 'a'.toNat ≤ char.toNat :=
    UInt32.le_iff_toNat_le.mp (of_decide_eq_true (Bool.and_eq_true_iff.mp is).1)
  have high : 'A'.toNat ≤ char.toNat := by
    simp only [isWordStart, Bool.or_eq_true, beq_iff_eq] at starts
    rcases starts with letter | rfl
    · rcases Bool.or_eq_true_iff.mp letter with is | is
      · exact upper is
      · exact Nat.le_trans (by decide) (lower is)
    · decide
  exact absurd (Nat.le_trans high low) (by decide)

private theorem isDigit_of_isBlank {char : Char} (blank : isBlank char = true) :
    char.isDigit = false := by
  simp only [isBlank, Bool.or_eq_true, beq_iff_eq] at blank
  rcases blank with ((rfl | rfl) | rfl) | rfl <;> rfl

namespace Symbol

/-- A symbol is written without blanks, letters, digits and underscores. -/
theorem plain_of_mem_spelling
    {symbol : Symbol}
    {char : Char}
    (written : char ∈ symbol.spelling.toList) :
    isWordRest char = false := by
  have plain : (symbol.spelling.toList.all fun char => !isWordRest char) =
      true := by
    cases symbol with
    | opening delimiter => cases delimiter <;> decide
    | closing delimiter => cases delimiter <;> decide
    | _ => decide
  simpa using List.all_eq_true.mp plain char written

/-- A symbol is written with some character. -/
theorem spelling_ne_nil (symbol : Symbol) : symbol.spelling.toList ≠ [] := by
  cases symbol with
  | opening delimiter => cases delimiter <;> decide
  | closing delimiter => cases delimiter <;> decide
  | _ => decide

/-- The first character of a symbol is a symbol by itself. -/
private theorem exists_single (symbol : Symbol) :
    ∃ single ∈ all, single.spelling.toList = symbol.spelling.toList.take 1 := by
  cases symbol with
  | opening delimiter => cases delimiter <;> decide
  | closing delimiter => cases delimiter <;> decide
  | _ => decide

/-- Of two symbols in the list the first one is not shorter. -/
private theorem pairwise_all :
    all.Pairwise fun symbol later =>
      later.spelling.toList.length ≤ symbol.spelling.toList.length := by
  decide

/-- No symbol at the start of a text is longer than the one found there. -/
theorem length_le_of_longest?
    {text : List Char}
    {symbol other : Symbol}
    (found : longest? text = some symbol)
    (starts : other.spelling.toList <+: text) :
    other.spelling.toList.length ≤ symbol.spelling.toList.length := by
  obtain ⟨-, before, behind, split, missed⟩ :=
    List.find?_eq_some_iff_append.mp found
  have sorted := pairwise_all
  rw [split, List.pairwise_append, List.pairwise_cons] at sorted
  have listed := mem_all other
  rw [split, List.mem_append, List.mem_cons] at listed
  rcases listed with earlier | rfl | later
  · have skipped := missed other earlier
    rw [List.isPrefixOf_iff_prefix.mpr starts] at skipped
    cases skipped
  · exact Nat.le_refl _
  · exact sorted.2.1.1 other later

end Symbol

/-- Keywords are words. -/
theorem Keyword.isWord_spelling (keyword : Keyword) :
    IsWord keyword.spelling.toList := by
  cases keyword <;> decide

/-- A token is a symbol, a word or a number. -/
theorem IsToken.cases {text : List Char} (token : IsToken text) :
    (∃ symbol : Symbol, text = symbol.spelling.toList) ∨ IsWord text ∨
      IsNumber text := by
  obtain ⟨names, kind, written⟩ := token
  cases written with
  | symbol symbol => exact .inl ⟨symbol, rfl⟩
  | keyword keyword => exact .inr (.inl keyword.isWord_spelling)
  | identifier word => exact .inr (.inl word)
  | integer number => exact .inr (.inr number)

/-- A piece that starts with a character of words is a word or a number. -/
theorem IsPiece.all_isWordRest
    {head : Char}
    {rest : List Char}
    (piece : IsPiece (head :: rest))
    (starts : isWordRest head = true) :
    ∀ char ∈ head :: rest, isWordRest char = true := by
  have ofNumber (number : IsNumber (head :: rest)) (char : Char)
      (listed : char ∈ head :: rest) :
      isWordRest char = true :=
    isWordRest_of_isDigit (number.2 char listed)
  rcases piece with token | number | ⟨body, comment, -⟩
  · rcases token.cases with ⟨symbol, spelled⟩ | word | number
    · rw [Symbol.plain_of_mem_spelling (spelled ▸ List.mem_cons_self)] at starts
      cases starts
    · exact List.forall_mem_cons.mpr ⟨starts, word.2⟩
    · exact ofNumber number
  · exact ofNumber number
  · rw [(List.cons.inj comment).1] at starts
    exact absurd starts (by decide)

/-- A piece that starts with a digit is a number. -/
theorem IsPiece.isNumber
    {head : Char}
    {rest : List Char}
    (piece : IsPiece (head :: rest))
    (digit : head.isDigit = true) :
    IsNumber (head :: rest) := by
  rcases piece with token | number | ⟨body, comment, -⟩
  · rcases token.cases with ⟨symbol, spelled⟩ | word | number
    · have plain := Symbol.plain_of_mem_spelling (spelled ▸ List.mem_cons_self)
      rw [isWordRest_of_isDigit digit] at plain
      cases plain
    · rw [IsWord, isWordStart_of_isDigit digit] at word
      cases word.1
    · exact number
  · exact number
  · rw [(List.cons.inj comment).1] at digit
    exact absurd digit (by decide)

/-- A longer text goes on with what stands behind the shorter one. -/
theorem exists_next
    {text after longer : List Char}
    (starts : longer <+: text ++ after)
    (isLonger : text.length < longer.length) :
    ∃ next more, longer = text ++ next :: more ∧ after.head? = some next := by
  obtain ⟨remaining, whole⟩ := starts
  rcases List.append_eq_append_iff.mp whole with ⟨rest, rfl, -⟩ |
      ⟨rest, rfl, rfl⟩
  · simp at isLonger
  · cases rest with
    | nil => simp at isLonger
    | cons next more => exact ⟨next, more, rfl, rfl⟩

/--
A run of characters is longest if every piece that starts like it is such a run.
-/
theorem Longest.ofRun
    {inClass : Char → Bool}
    {head : Char}
    {tail after : List Char}
    (runs : ∀ rest, IsPiece (head :: rest) → ∀ char ∈ rest, inClass char = true)
    (stops : StopsAt inClass after) :
    Longest (head :: tail) after := by
  intro longer starts isLonger piece
  obtain ⟨next, more, rfl, behind⟩ := exists_next starts isLonger
  have member := runs _ piece next (by simp)
  rw [stops next behind] at member
  cases member

/--
A symbol is longest if it is the longest symbol, and no comment starts in its
place.
-/
private theorem Longest.ofSymbol
    {head : Char}
    {rest after : List Char}
    {symbol : Symbol}
    (found : Symbol.longest? (head :: rest) = some symbol)
    (spelled : symbol.spelling.toList ++ after = head :: rest)
    (plain : isWordRest head = false)
    (noComment : ¬ (head = '/' ∧ rest.head? = some '/')) :
    Longest symbol.spelling.toList after := by
  intro longer starts isLonger piece
  rw [spelled] at starts
  obtain ⟨remaining, whole⟩ := starts
  cases longer with
  | nil => cases isLonger
  | cons first more =>
      obtain ⟨rfl, rfl⟩ := List.cons.inj whole
      have noNumber (number : IsNumber (first :: more)) : False := by
        rw [isWordRest_of_isDigit (number.2 first List.mem_cons_self)] at plain
        cases plain
      rcases piece with token | number | ⟨body, comment, -⟩
      · rcases token.cases with ⟨other, isOther⟩ | word | number
        · rw [isOther] at isLonger
          refine Nat.not_le_of_lt isLonger
            (Symbol.length_le_of_longest? found ?_)
          exact isOther ▸ List.prefix_append (first :: more) remaining
        · rw [isWordRest_of_isWordStart word.1] at plain
          cases plain
        · exact noNumber number
      · exact noNumber number
      · obtain ⟨rfl, rfl⟩ := List.cons.inj comment
        exact noComment ⟨rfl, rfl⟩

/-- Where no symbol starts, and no word and no number, no token starts. -/
private theorem not_isToken_of_longest?
    {head : Char}
    {rest : List Char}
    (missing : Symbol.longest? (head :: rest) = none)
    (noWord : isWordStart head = false)
    (noDigit : head.isDigit = false)
    (more : List Char) :
    ¬ IsToken (head :: more) := by
  intro token
  rcases token.cases with ⟨symbol, spelled⟩ | word | number
  · obtain ⟨single, listed, isSingle⟩ := symbol.exists_single
    rw [← spelled] at isSingle
    have unfound := List.find?_eq_none.mp missing single listed
    simp [isSingle] at unfound
  · rw [word.1] at noWord
    cases noWord
  · rw [number.2 head List.mem_cons_self] at noDigit
    cases noDigit

namespace Lexeme

/-- What a lexeme is, given the text behind it. -/
inductive Stands (after : List Char) : Lexeme → Prop
  | blank {text : List Char}
      (blanks : ∀ char ∈ text, isBlank char = true) :
      Stands after { kind := .blank, text := text }
  | comment {text : List Char}
      (comment : IsComment text)
      (stops : StopsAt (· != '\n') after) :
      Stands after { kind := .comment, text := text }
  | word {text : List Char}
      (word : IsWord text)
      (stops : StopsAt isWordRest after) :
      Stands after { kind := .word, text := text }
  | digits {text : List Char}
      (number : IsNumber text)
      (stops : StopsAt Char.isDigit after) :
      Stands after { kind := .digits, text := text }
  | symbol {symbol : Symbol}
      (longest : Longest symbol.spelling.toList after) :
      Stands after { kind := .symbol symbol, text := symbol.spelling.toList }
  | stray {char : Char}
      (noBlank : isBlank char = false)
      (noDigit : char.isDigit = false)
      (noToken : ∀ more, ¬ IsToken (char :: more)) :
      Stands after { kind := .stray, text := [char] }

private theorem stopsAt_dropWhile (inClass : Char → Bool) (text : List Char) :
    StopsAt inClass (text.dropWhile inClass) := by
  intro head isHead
  have stops := List.head?_dropWhile_not inClass text
  rwa [isHead] at stops

/--
The lexeme at the start of a text stands there, and the rest of the text behind
it.
-/
theorem stands_first (head : Char) (rest : List Char) :
    ∃ after, head :: rest = (first head rest).text ++ after ∧
      Stands after (first head rest) := by
  have run (inClass : Char → Bool) :
      head :: rest = head :: rest.takeWhile inClass ++
        rest.dropWhile inClass := by
    rw [List.cons_append, List.takeWhile_append_dropWhile]
  unfold first
  split
  next isBlank =>
    refine ⟨_, run Tern.isBlank,
      .blank (List.forall_mem_cons.mpr ⟨isBlank, ?_⟩)⟩
    exact List.all_eq_true.mp List.all_takeWhile
  next noBlank =>
  split
  next slashes =>
    simp only [Bool.and_eq_true, beq_iff_eq] at slashes
    obtain ⟨rfl, second⟩ := slashes
    obtain ⟨rest, rfl⟩ := List.head?_eq_some_iff.mp second
    refine ⟨_, run (· != '\n'),
      .comment ⟨rest.takeWhile (· != '\n'), by simp, ?_⟩
      (stopsAt_dropWhile _ _)⟩
    intro listed
    simpa using List.all_eq_true.mp List.all_takeWhile _ listed
  next noComment =>
  split
  next starts =>
    refine ⟨_, run isWordRest, .word ⟨starts, ?_⟩ (stopsAt_dropWhile _ _)⟩
    exact List.all_eq_true.mp List.all_takeWhile
  next noWord =>
  split
  next isDigit =>
    refine ⟨_, run Char.isDigit,
      .digits ⟨List.cons_ne_nil _ _, ?_⟩ (stopsAt_dropWhile _ _)⟩
    exact List.forall_mem_cons.mpr
      ⟨isDigit, List.all_eq_true.mp List.all_takeWhile⟩
  next noDigit =>
  simp only [Bool.not_eq_true] at noBlank noWord noDigit
  simp only [Bool.and_eq_true, beq_iff_eq] at noComment
  split
  next symbol found =>
    have starts : symbol.spelling.toList <+: head :: rest := by
      simpa using List.find?_some found
    obtain ⟨after, spelled⟩ := starts
    refine ⟨after, spelled.symm, .symbol (.ofSymbol found spelled ?_ noComment)⟩
    simp only [isWordStart, isWordRest, Char.isAlphanum, Bool.or_eq_false_iff]
      at noWord ⊢
    exact ⟨⟨noWord.1, noDigit⟩, noWord.2⟩
  next missing =>
    exact ⟨rest, rfl,
      .stray noBlank noDigit (not_isToken_of_longest? missing noWord noDigit)⟩

namespace Stands

variable {after : List Char} {lexeme : Lexeme}

/-- A run of digits is not cut into two lexemes. -/
theorem stopsAt_isDigit
    (stands : Stands after lexeme)
    {last : Char}
    (ends : lexeme.text.getLast? = some last)
    (digit : last.isDigit = true) :
    StopsAt Char.isDigit after := by
  cases stands with
  | blank blanks =>
      rw [isDigit_of_isBlank (blanks last (List.mem_of_getLast? ends))] at digit
      cases digit
  | comment comment stops =>
      intro head isHead
      obtain rfl : head = '\n' := by simpa using stops head isHead
      rfl
  | word word stops =>
      intro head isHead
      apply Bool.eq_false_iff.mpr
      intro isDigit
      have stopped := stops head isHead
      rw [isWordRest_of_isDigit isDigit] at stopped
      cases stopped
  | digits number stops => exact stops
  | symbol longest =>
      have plain := Symbol.plain_of_mem_spelling (List.mem_of_getLast? ends)
      rw [isWordRest_of_isDigit digit] at plain
      cases plain
  | stray noBlank noDigit noToken =>
      obtain rfl : _ = last := by simpa using ends
      rw [noDigit] at digit
      cases digit

end Stands

end Lexeme

end Tern
