import Tern.Proofs.Term.Trails
import Tern.Proofs.Token.Layout
import Tern.Scope.Journal

namespace Tern

/-!
# Numbers that fit one word

Offsets, positions of tokens and slots are stored in words, which cut a larger
number down to the largest word. The library counts without a bound. The two
ways of counting agree as long as a text has no more bytes, and a store no more
places, than a word can count: no offset, no position and no slot is cut down.
-/

/-- A span keeps its offsets in two words exactly if both of them fit. -/
private theorem Span.ofOffsets_eq_iff {span : Span} :
    .ofOffsets span.start span.stop = span ↔
      span.start ≤ largestWord ∧ span.stop ≤ largestWord := by
  cases span
  simp only [ofOffsets, Span.mk.injEq, min_eq_left_iff]

/-- A slot keeps its number in a word exactly if the number fits. -/
private theorem Slot.ofNumber_eq_iff {space : Space} {slot : Slot space} :
    .ofNumber slot.raw = slot ↔ slot.raw ≤ largestWord := by
  cases slot
  simp only [ofNumber, Slot.mk.injEq, min_eq_left_iff]

namespace Lexeme

/-- A lexeme has at least one byte. -/
private theorem byteLength_first_pos (head : Char) (rest : List Char) :
    0 < (first head rest).byteLength := by
  obtain ⟨tail, text, -⟩ := exists_first_text head rest
  rw [byteLength_eq, text, String.utf8Len_cons]
  exact Nat.add_pos_right _ head.utf8Size_pos

/-- There are no more lexemes than bytes. -/
private theorem length_cutFrom_le_bytes (covered : Nat) (text : List Char) :
    (cutFrom covered text).length ≤ bytes (cutFrom covered text) := by
  induction text generalizing covered with
  | nil =>
      cases covered <;> exact Nat.le_refl 0
  | cons head rest inductionHypothesis =>
      cases covered with
      | succ covered => exact inductionHypothesis covered
      | zero =>
          have later := inductionHypothesis ((first head rest).text.length - 1)
          have present := byteLength_first_pos head rest
          rw [cutFrom, List.length_cons, bytes]
          omega

end Lexeme

/-- At most one token a lexeme stands before the end of input. -/
private theorem exists_front_tokensFrom
    (names : Names)
    (offset : Nat)
    (lexemes : List Lexeme) :
    ∃ front, (tokensFrom names offset lexemes).1 =
        front ++
          [{ kind := .endOfInput,
             span := .point (offset + Lexeme.bytes lexemes) }] ∧
      front.length ≤ lexemes.length := by
  induction lexemes generalizing names offset with
  | nil => exact ⟨[], rfl, Nat.le_refl 0⟩
  | cons lexeme rest inductionHypothesis =>
      unfold tokensFrom
      rw [Lexeme.bytes, ← Nat.add_assoc]
      cases lexeme.meaning? names with
      | none =>
          obtain ⟨front, split, few⟩ :=
            inductionHypothesis names (offset + lexeme.byteLength)
          exact ⟨front, split, Nat.le_succ_of_le few⟩
      | some meaning =>
          obtain ⟨front, split, few⟩ :=
            inductionHypothesis meaning.2 (offset + lexeme.byteLength)
          exact ⟨_ :: front, congrArg (_ :: ·) split, Nat.succ_le_succ few⟩

/-- What a parser reads of a text ends at the latest at its number of bytes. -/
private theorem stop_whole_scan_le (names : Names) (source : String) :
    (Window.whole (scan names source).1).stop ≤ source.utf8ByteSize := by
  obtain ⟨front, split, few⟩ :=
    exists_front_tokensFrom names 0 (Lexeme.cut source.toList)
  have cut := Lexeme.length_cutFrom_le_bytes 0 source.toList
  have listed : (scan names source).1 = (front ++ [_]).toArray :=
    congrArg List.toArray split
  have ended : (Window.whole (scan names source).1).stop = front.length := by
    rw [listed]
    simp [Window.whole]
  rw [ended, ← Lexeme.bytes_cut]
  exact Nat.le_trans few cut

/--
The tokens of a text that has no more bytes than a word can count keep their
spans in words, and so does each position that a parser reads from.
-/
theorem scan_fits
    (names : Names)
    {source : String}
    (short : source.utf8ByteSize ≤ largestWord) :
    (∀ token ∈ (scan names source).1,
      .ofOffsets token.span.start token.span.stop = token.span) ∧
      ∀ position ≤ (Window.whole (scan names source).1).stop, position ≤
        largestWord := by
  have lie := lie_tokensFrom names 0 (Lexeme.cut source.toList)
  rw [Nat.zero_add, Lexeme.bytes_cut] at lie
  refine ⟨fun token listed => ?_, fun position inside => ?_⟩
  · obtain ⟨forward, -, stop⟩ := lie.inside token (List.mem_toArray.mp listed)
    have ends : token.span.stop ≤ largestWord := Nat.le_trans stop short
    exact Span.ofOffsets_eq_iff.mpr ⟨Nat.le_trans forward ends, ends⟩
  · exact Nat.le_trans inside
      (Nat.le_trans (stop_whole_scan_le names source) short)

/-- A term whose slot is kept in a word. -/
def Term.inWord : Term → Term
  | .name id => .name (.ofNumber id.raw)
  | .type id => .type (.ofNumber id.raw)
  | .expr id => .expr (.ofNumber id.raw)
  | .stmt id => .stmt (.ofNumber id.raw)
  | .decl id => .decl (.ofNumber id.raw)
  | .definition id => .definition (.ofNumber id.raw)
  | .requirement id => .requirement (.ofNumber id.raw)

/--
The slots of an arena with no more terms than a word can count are kept in
words.
-/
theorem Arena.inWord_eq
    {arena : Arena}
    (small : arena.termCount ≤ largestWord)
    {term : Term}
    (held : arena.Holds term) :
    term.inWord = term := by
  unfold termCount at small
  cases term <;> simp only [Holds] at held <;>
    simp only [Term.inWord, Slot.ofNumber_eq_iff, Term.name.injEq,
      Term.type.injEq, Term.expr.injEq, Term.stmt.injEq, Term.decl.injEq,
      Term.definition.injEq, Term.requirement.injEq] <;>
    omega

/--
The scope added to no more scopes than a word can count is kept in a word.
-/
theorem Scopes.push_fits
    {scopes : Scopes}
    (small : scopes.table.size ≤ largestWord)
    (kind : ScopeKind)
    (parent : ScopeId) :
    .ofNumber (scopes.push kind parent).1.raw = (scopes.push kind parent).1 :=
  Slot.ofNumber_eq_iff.mpr small

end Tern
