import Mathlib.Data.Finset.Card
import Mathlib.Data.Finset.Dedup
import Tern.Proofs.Token.Tokenization

namespace Tern

/-!
# Names identify texts

Texts that are interned one after the other are numbered in the order in which
they occur first. What a table of names knows is settled by the texts interned
so far, and what it has said of a text or a name it goes on saying, so that two
names are the same exactly if their texts are. The scanner interns the texts of
the identifiers that it meets, one behind the other.
-/

/--
The number of distinct texts that come before the first occurrence of a text.
-/
def numberIn (texts : List String) (text : String) : Nat :=
  (texts.takeWhile (· ≠ text)).toFinset.card

/--
The number of a text is the number of distinct texts before it, if it is new
behind them.
-/
private theorem numberIn_append_cons
    {before : List String}
    {text : String}
    (new : text ∉ before)
    (after : List String) :
    numberIn (before ++ text :: after) text = before.toFinset.card := by
  have others : ∀ other ∈ before, decide (other ≠ text) = true := by
    intro other isBefore
    exact decide_eq_true fun same => new (same ▸ isBefore)
  rw [numberIn, List.takeWhile_append_of_pos others,
    List.takeWhile_cons_of_neg (by simp), List.append_nil]

/-- What follows the first occurrence of a text does not change its number. -/
private theorem numberIn_append
    {texts : List String}
    {text : String}
    (occurs : text ∈ texts)
    (more : List String) :
    numberIn (texts ++ more) text = numberIn texts text := by
  obtain ⟨before, after, rfl, new⟩ := List.eq_append_cons_of_mem occurs
  rw [List.append_assoc, List.cons_append, numberIn_append_cons new,
    numberIn_append_cons new]

namespace Names

/--
A table that numbers the texts of a list, each of them in the order of its first
occurrence.
-/
structure Numbers (names : Names) (texts : List String) : Prop where
  distinct : names.texts.Nodup
  known : ∀ text, text ∈ names.texts ↔ text ∈ texts
  placed : ∀ text ∈ texts, names.texts.idxOf text = numberIn texts text

/-- A table that knows only the empty text. -/
private theorem numbers_initial : initial.Numbers [""] where
  distinct := List.nodup_singleton _
  known _ := Iff.rfl
  placed text occurs := by
    obtain rfl := List.mem_singleton.mp occurs
    rfl

namespace Numbers

variable {names : Names} {texts : List String} {text : String} {name : Name}

/-- A text that occurred before changes nothing. -/
private theorem intern_of_mem
    (numbers : names.Numbers texts)
    (occurs : text ∈ texts) :
    names.intern text = ({ number := numberIn texts text }, names) := by
  have known := (numbers.known text).mpr occurs
  cases found : names.texts.idxOf? text with
  | none => exact absurd known (List.idxOf?_eq_none_iff.mp found)
  | some number =>
      have place := numbers.placed text occurs
      rw [List.idxOf_eq_getD_idxOf?, found, Option.getD_some] at place
      simp [intern, find?, found, place]

/-- A new text is numbered behind all others. -/
private theorem intern_of_notMem
    (numbers : names.Numbers texts)
    (new : text ∉ texts) :
    names.intern text =
      ({ number := names.count }, { texts := names.texts ++ [text] }) := by
  have unknown := mt (numbers.known text).mp new
  simp [intern, find?, List.idxOf?_eq_none_iff.mpr unknown]

/-- The number of names is the number of distinct texts. -/
private theorem count_eq (numbers : names.Numbers texts) :
    names.count = texts.toFinset.card := by
  have same : names.texts.toFinset = texts.toFinset := by
    ext text
    simp [numbers.known]
  rw [← same, List.toFinset_card_of_nodup numbers.distinct]
  rfl

/-- Interning a text behind others numbers it too. -/
private theorem intern (numbers : names.Numbers texts) (text : String) :
    (names.intern text).2.Numbers (texts ++ [text]) := by
  by_cases occurs : text ∈ texts
  · rw [numbers.intern_of_mem occurs]
    have again (other : String) : other ∈ texts ++ [text] ↔ other ∈ texts := by
      rw [List.mem_append, List.mem_singleton]
      exact ⟨fun either => either.elim id (· ▸ occurs), .inl⟩
    exact {
      distinct := numbers.distinct
      known := fun other => (numbers.known other).trans (again other).symm
      placed := fun other either => by
        have earlier := (again other).mp either
        rw [numberIn_append earlier]
        exact numbers.placed other earlier }
  · rw [numbers.intern_of_notMem occurs]
    have unknown := mt (numbers.known text).mp occurs
    exact {
      distinct :=
        numbers.distinct.append (List.nodup_singleton text)
          (by simpa using unknown)
      known := fun other => by simp [numbers.known other]
      placed := fun other either => by
        rcases List.mem_append.mp either with earlier | new
        · rw [numberIn_append earlier, ← numbers.placed other earlier]
          exact List.idxOf_append_of_mem ((numbers.known other).mpr earlier)
        · obtain rfl := List.mem_singleton.mp new
          rw [numberIn_append_cons occurs, ← numbers.count_eq,
            List.idxOf_append_of_notMem unknown, List.idxOf_cons_self]
          rfl }

/-- The name that a text is given is its number. -/
private theorem intern_name (numbers : names.Numbers texts) (text : String) :
    (names.intern text).1 = { number := numberIn (texts ++ [text]) text } := by
  by_cases occurs : text ∈ texts
  · rw [numbers.intern_of_mem occurs, numberIn_append occurs]
  · rw [numbers.intern_of_notMem occurs, numberIn_append_cons occurs,
      numbers.count_eq]

/-- A text is what its number looks up to. -/
private theorem text_number
    (numbers : names.Numbers texts)
    (occurs : text ∈ texts) :
    names.text { number := numberIn texts text } = text := by
  have known := (numbers.known text).mpr occurs
  rw [← numbers.placed text occurs]
  simp [Names.text, List.getElem?_idxOf known]

/-- A number that was given is that of a text that occurred. -/
private theorem exists_of_lt
    (numbers : names.Numbers texts)
    (given : name.number < names.count) :
    ∃ text ∈ texts, name = { number := numberIn texts text } := by
  have inside : name.number < names.texts.length := given
  have occurs := (numbers.known _).mp (List.getElem_mem inside)
  refine ⟨names.texts[name.number], occurs, ?_⟩
  rw [← numbers.placed _ occurs, numbers.distinct.idxOf_getElem]

/-- The number of a text that occurred was given. -/
private theorem number_lt
    (numbers : names.Numbers texts)
    (occurs : text ∈ texts) :
    numberIn texts text < names.count := by
  rw [← numbers.placed text occurs]
  exact List.idxOf_lt_length_of_mem ((numbers.known text).mpr occurs)

/-- Two texts that occurred have one number exactly if they are the same. -/
private theorem number_inj
    (numbers : names.Numbers texts)
    {other : String}
    (occurs : text ∈ texts)
    (otherOccurs : other ∈ texts) :
    numberIn texts text = numberIn texts other ↔ text = other := by
  constructor
  · intro same
    rw [← numbers.text_number occurs, same, numbers.text_number otherOccurs]
  · exact congrArg _

end Numbers

/--
Intern texts one after the other: the names that they are given, and the names
after it.
-/
def internAll (names : Names) : List String → List Name × Names
  | [] => ([], names)
  | text :: rest =>
      let (name, grown) := names.intern text
      let (given, grown) := grown.internAll rest
      (name :: given, grown)

/-- What is known already plays no part in how texts behind it are interned. -/
private theorem internAll_append (names : Names) (earlier later : List String) :
    names.internAll (earlier ++ later) =
      ((names.internAll earlier).1 ++
        ((names.internAll earlier).2.internAll later).1,
        ((names.internAll earlier).2.internAll later).2) := by
  induction earlier generalizing names with
  | nil => rfl
  | cons text earlier inductionHypothesis =>
      simp only [List.cons_append, internAll, inductionHypothesis]

/--
Texts that are interned one after the other are numbered behind those known
before.
-/
private theorem Numbers.internAll
    {names : Names}
    {texts : List String}
    (numbers : names.Numbers texts)
    (more : List String) :
    (names.internAll more).2.Numbers (texts ++ more) ∧
      (names.internAll more).1 =
        more.map fun text => { number := numberIn (texts ++ more) text } := by
  induction more generalizing names texts with
  | nil => simpa [Names.internAll] using numbers
  | cons text more inductionHypothesis =>
      obtain ⟨grown, given⟩ := inductionHypothesis (numbers.intern text)
      have first : (names.intern text).1 =
          { number := numberIn (texts ++ text :: more) text } := by
        have occurs : text ∈ texts ++ [text] :=
          List.mem_append_right _ List.mem_cons_self
        rw [numbers.intern_name text, ← numberIn_append occurs more,
          List.append_assoc, List.singleton_append]
      rw [List.append_assoc, List.singleton_append] at grown given
      refine ⟨grown, ?_⟩
      simp only [Names.internAll, List.map_cons, first, given]

/--
What interning texts one after the other comes to, where none but the empty text
was known before.
-/
structure Interned (texts : List String) : Prop where
  /-- The empty text has the name zero, and need not be interned. -/
  empty : (initial.internAll texts).2.intern "" =
    (Name.empty, (initial.internAll texts).2)
  /--
  Each text is given its number, in the order of first occurrence behind the
  empty text.
  -/
  numbered : (initial.internAll texts).1 =
    texts.map fun text => { number := numberIn ("" :: texts) text }
  /--
  Two times the same name is given exactly if it is given to the same text.
  -/
  identified : ∀ first < texts.length, ∀ second < texts.length,
    (initial.internAll texts).1[first]? = (initial.internAll texts).1[second]? ↔
      texts[first]? = texts[second]?
  /-- The names given earlier look up to the texts that they were given to. -/
  stable : ∀ earlier, earlier <+: texts →
    (initial.internAll earlier).1.map (initial.internAll texts).2.text = earlier
  /--
  As many names are known as there are distinct texts, and that of the empty
  text.
  -/
  counted : (initial.internAll texts).2.count =
    (texts.toFinset.erase "").card + 1
  /--
  The names that are known are that of the empty text and those that were
  given.
  -/
  issued : ∀ name : Name, name.number < (initial.internAll texts).2.count ↔
    name = Name.empty ∨ name ∈ (initial.internAll texts).1
  /-- A name that is not known has the empty text. -/
  unknown : ∀ name : Name, (initial.internAll texts).2.count ≤ name.number →
    (initial.internAll texts).2.text name = ""
  /--
  If the distinct texts are no more than the largest word, each name fits one.
  -/
  fits : texts.toFinset.card ≤ largestWord →
    ∀ name ∈ (initial.internAll texts).1, name.number ≤ largestWord

private theorem interned (texts : List String) : Interned texts := by
  obtain ⟨numbers, numbered⟩ := numbers_initial.internAll texts
  rw [List.singleton_append] at numbers numbered
  have empty : ({ number := numberIn ("" :: texts) "" } : Name) =
      Name.empty := by
    simp [numberIn, Name.empty]
  have counted : (initial.internAll texts).2.count =
      (texts.toFinset.erase "").card + 1 := by
    rw [numbers.count_eq, List.toFinset_cons,
      ← Finset.card_erase_add_one (Finset.mem_insert_self "" _),
        Finset.erase_insert_eq_erase]
  have issued (name : Name) : name.number < (initial.internAll texts).2.count ↔
      name = Name.empty ∨ name ∈ (initial.internAll texts).1 := by
    rw [numbered, List.mem_map]
    constructor
    · intro known
      obtain ⟨text, occurs, rfl⟩ := numbers.exists_of_lt known
      rcases List.mem_cons.mp occurs with rfl | occurs
      · exact .inl empty
      · exact .inr ⟨text, occurs, rfl⟩
    · rintro (rfl | ⟨text, occurs, rfl⟩)
      · rw [← empty]
        exact numbers.number_lt List.mem_cons_self
      · exact numbers.number_lt (List.mem_cons_of_mem _ occurs)
  refine {
    empty := ?empty
    numbered := numbered
    identified := ?identified
    stable := ?stable
    counted := counted
    issued := issued
    unknown := ?unknown
    fits := ?fits }
  case empty =>
    rw [numbers.intern_of_mem List.mem_cons_self, empty]
  case identified =>
    intro first firstInside second secondInside
    rw [numbered]
    simp only [List.getElem?_map, List.getElem?_eq_getElem firstInside,
      List.getElem?_eq_getElem secondInside, Option.map_some, Option.some.injEq,
        Name.mk.injEq]
    exact numbers.number_inj
      (List.mem_cons_of_mem _ (List.getElem_mem firstInside))
      (List.mem_cons_of_mem _ (List.getElem_mem secondInside))
  case stable =>
    rintro earlier ⟨later, rfl⟩
    have looksUp (text : String) (occurs : text ∈ earlier) :
        (initial.internAll (earlier ++ later)).2.text
          { number := numberIn ([""] ++ earlier) text } = text := by
      have known : text ∈ [""] ++ earlier := List.mem_append_right _ occurs
      rw [← numberIn_append known later]
      exact numbers.text_number (List.mem_append_left later known)
    rw [(numbers_initial.internAll earlier).2, List.map_map]
    exact (List.map_congr_left looksUp).trans (List.map_id earlier)
  case unknown =>
    intro name past
    have outside : (initial.internAll texts).2.texts.length ≤ name.number :=
      past
    rw [Names.text, List.getElem?_eq_none outside, Option.getD_none]
  case fits =>
    intro few name given
    have known := (issued name).mpr (.inr given)
    have fewer : (texts.toFinset.erase "").card ≤ texts.toFinset.card :=
      Finset.card_erase_le
    rw [counted] at known
    exact Nat.le_trans (Nat.le_of_lt_succ known) (Nat.le_trans fewer few)

/-- The second text is the empty one, and the last one was interned before. -/
example : (initial.internAll ["b", "", "a", "b"]).1 = [⟨1⟩, ⟨0⟩, ⟨2⟩, ⟨1⟩] := by
  decide

end Names

/-- The part of a text that a span covers. -/
def Span.textIn (span : Span) (source : String) : String :=
  String.Pos.Raw.extract source ⟨span.start⟩ ⟨span.stop⟩

/-- The name of a token and its text in the source, if it is an identifier. -/
def Token.identifier? (source : String) (token : Token) :
    Option (Name × String) :=
  match token.kind with
  | .identifier name => some (name, token.span.textIn source)
  | _ => none

/--
The identifiers among tokens, each with its name and with its text in the
source.
-/
def Tokens.identifiers (source : String) (tokens : Tokens) :
    List (Name × String) :=
  tokens.toList.filterMap (Token.identifier? source)

/-- An identifier has a name. -/
private theorem Token.identifier?_of_kind
    {token : Token}
    {name : Name}
    (isName : token.kind = .identifier name)
    (source : String) :
    token.identifier? source = some (name, token.span.textIn source) := by
  rw [identifier?, isName]

/-- Another token has no name. -/
private theorem Token.identifier?_eq_none
    {token : Token}
    (other : ∀ name, token.kind ≠ .identifier name)
    (source : String) :
    token.identifier? source = none := by
  unfold identifier?
  split
  next name isName => exact absurd isName (other name)
  next => rfl

/--
What a lexeme means is the name of its text, or no identifier and then no name
is new.
-/
private theorem Lexeme.meaning?_cases
    {names grown : Names}
    {lexeme : Lexeme}
    {kind : TokenKind}
    (meaning : lexeme.meaning? names = some (kind, grown)) :
    (∃ name, kind = .identifier name ∧
      names.intern (String.ofList lexeme.text) = (name, grown)) ∨
      (∀ name, kind ≠ .identifier name) ∧ grown = names := by
  obtain ⟨form, text⟩ := lexeme
  have nameless {kind : TokenKind} (other : kind.isIdentifier = false)
      (name : Name) :
      kind ≠ .identifier name := by
    rintro rfl
    cases other
  cases form with
  | word =>
      simp only [meaning?] at meaning
      split at meaning
      · cases meaning
        exact .inr ⟨nameless rfl, rfl⟩
      · cases meaning
        exact .inl ⟨_, rfl, rfl⟩
  | digits =>
      cases meaning
      exact .inr ⟨nameless (by split <;> rfl), rfl⟩
  | blank => cases meaning
  | comment => cases meaning
  | symbol symbol =>
      cases meaning
      exact .inr ⟨nameless rfl, rfl⟩
  | stray =>
      cases meaning
      exact .inr ⟨nameless rfl, rfl⟩

/-- The text of a lexeme is what its bytes cover of the source. -/
private theorem Lexeme.textIn_eq (lexeme : Lexeme) (before after : List Char) :
    Span.textIn
        { start := String.utf8Len before, stop := String.utf8Len before +
          lexeme.byteLength }
        (String.ofList (before ++ lexeme.text ++ after)) =
      String.ofList lexeme.text := by
  rw [byteLength_eq]
  exact String.extract_of_valid before lexeme.text after

/--
Lexemes are read as tokens by interning the texts of the identifiers in their
order.
-/
private theorem tokensFrom_interns
    {source : String}
    {before : List Char}
    {lexemes : List Lexeme}
    (cut : source = String.ofList (before ++ lexemes.flatMap Lexeme.text))
    (names : Names) :
    let scanned := tokensFrom names (String.utf8Len before) lexemes
    let identifiers := scanned.1.filterMap (Token.identifier? source)
    names.internAll (identifiers.map Prod.snd) =
      (identifiers.map Prod.fst, scanned.2) := by
  induction lexemes generalizing names before with
  | nil => rfl
  | cons lexeme rest inductionHypothesis =>
      rw [List.flatMap_cons, ← List.append_assoc] at cut
      have onward := inductionHypothesis cut
      have text := lexeme.textIn_eq before (rest.flatMap Lexeme.text)
      have offset : String.utf8Len before + lexeme.byteLength =
          String.utf8Len (before ++ lexeme.text) := by
        rw [Lexeme.byteLength_eq, String.utf8Len_append]
      rw [← cut, offset] at text
      unfold tokensFrom
      simp only [offset]
      generalize Span.mk (String.utf8Len before)
        (String.utf8Len (before ++ lexeme.text)) = span
        at text ⊢
      cases meaning : lexeme.meaning? names with
      | none => exact onward names
      | some found =>
          obtain ⟨kind, grown⟩ := found
          rcases Lexeme.meaning?_cases meaning with ⟨name, rfl, interns⟩ |
              ⟨other, rfl⟩
          · have onward := onward grown
            have named :=
              @Token.identifier?_of_kind ⟨.identifier name, span⟩ name rfl
                source
            rw [text] at named
            dsimp only at onward
            simp only [List.filterMap_cons, named, List.map_cons,
              Names.internAll, interns, onward]
          · have nameless :=
              @Token.identifier?_eq_none ⟨kind, span⟩ other source
            simp only [List.filterMap_cons, nameless]
            exact onward grown

/--
A source is scanned by interning the texts of its identifiers in their order.
-/
private theorem scan_interns (names : Names) (source : String) :
    names.internAll (((scan names source).1.identifiers source).map Prod.snd) =
      (((scan names source).1.identifiers source).map Prod.fst,
        (scan names source).2) := by
  have cut : source =
      String.ofList ([] ++ (Lexeme.cut source.toList).flatMap Lexeme.text) := by
    rw [List.nil_append, Lexeme.cut, Lexeme.flatMap_text_cutFrom,
      List.drop_zero, String.ofList_toList]
  exact tokensFrom_interns cut names

namespace Names

/--
What the tokens and names of a source come to, where texts were interned before
one after the other: the texts of its identifiers are interned behind them.
-/
structure Scanned
    (texts : List String)
    (source : String)
    (tokens : Tokens)
    (names : Names) :
    Prop where
  /--
  The identifiers are given their names by interning their texts in their
  order.
  -/
  interned : initial.internAll
    (texts ++ (tokens.identifiers source).map Prod.snd) =
    ((initial.internAll texts).1 ++ (tokens.identifiers source).map Prod.fst,
      names)
  /-- Two identifiers have the same name exactly if they have the same text. -/
  identified : ∀ token ∈ tokens, ∀ other ∈ tokens, ∀ name otherName : Name,
    token.kind = .identifier name → other.kind = .identifier otherName →
      (name = otherName ↔ token.span.textIn source = other.span.textIn source)
  /--
  Identifiers are numbered in the order of first occurrence, behind the texts
  known before.
  -/
  numbered : ∀ token ∈ tokens, ∀ name : Name, token.kind = .identifier name →
    name.number = numberIn
      ("" :: (texts ++ (tokens.identifiers source).map Prod.snd))
      (token.span.textIn source)
  /-- An identifier's name looks up to its text. -/
  looksUp : ∀ token ∈ tokens, ∀ name : Name, token.kind = .identifier name →
    names.text name = token.span.textIn source

/--
Where identifiers have the names that interning their texts gives, names
identify texts.
-/
private theorem Scanned.of_interns
    {texts : List String}
    {source : String}
    {tokens : Tokens}
    {names : Names}
    (interns : (initial.internAll texts).2.internAll
      ((tokens.identifiers source).map Prod.snd) =
      ((tokens.identifiers source).map Prod.fst, names)) :
    Scanned texts source tokens names := by
  have interned :
      initial.internAll (texts ++ (tokens.identifiers source).map Prod.snd) =
      ((initial.internAll texts).1 ++ (tokens.identifiers source).map Prod.fst,
        names) := by
    rw [internAll_append, interns]
  obtain ⟨numbers, numbered⟩ := (numbers_initial.internAll texts).1.internAll
    ((tokens.identifiers source).map Prod.snd)
  rw [interns, List.map_map, List.map_inj_left] at numbered
  rw [interns] at numbers
  have listed (token : Token) (isToken : token ∈ tokens) (name : Name)
      (isName : token.kind = .identifier name) :
      (name, token.span.textIn source) ∈ tokens.identifiers source :=
    List.mem_filterMap.mpr
      ⟨token, Array.mem_toList_iff.mpr isToken,
        Token.identifier?_of_kind isName source⟩
  have occurs (token : Token) (isToken : token ∈ tokens) (name : Name)
      (isName : token.kind = .identifier name) :
      token.span.textIn source ∈ [""] ++ texts ++
        (tokens.identifiers source).map Prod.snd :=
    List.mem_append_right
      _ (List.mem_map_of_mem (listed token isToken name isName))
  refine {
    interned := interned
    identified := ?identified
    numbered := ?numbered
    looksUp := ?looksUp }
  case identified =>
    intro token isToken other isOther name otherName isName isOtherName
    have number := numbered _ (listed token isToken name isName)
    have otherNumber := numbered _ (listed other isOther otherName isOtherName)
    dsimp only [Function.comp_apply] at number otherNumber
    rw [number, otherNumber, Name.mk.injEq]
    exact numbers.number_inj (occurs token isToken name isName)
      (occurs other isOther otherName isOtherName)
  case numbered =>
    intro token isToken name isName
    exact congrArg Name.number (numbered _ (listed token isToken name isName))
  case looksUp =>
    intro token isToken name isName
    have number : name = _ := numbered _ (listed token isToken name isName)
    rw [number]
    exact numbers.text_number (occurs token isToken name isName)

end Names

/--
Whatever texts are interned one after the other, and whatever source is scanned
behind them, names identify texts: they are the same exactly if their texts are,
and are numbered in the order of first occurrence.
-/
theorem names_identify (texts : List String) (source : String) :
    Names.Interned texts ∧
      Names.Scanned texts source
        (scan (Names.initial.internAll texts).2 source).1
        (scan (Names.initial.internAll texts).2 source).2 :=
  ⟨Names.interned texts,
    .of_interns (scan_interns (Names.initial.internAll texts).2 source)⟩

end Tern
