import Tern.Proofs.Term.Descent

namespace Tern

/-!
# Visitors, and the search for unparsed terms

A visitor is handed the terms below a root, parents before children, and says of
each one whether it goes on to the terms that this one owns. Where ownership is
finite every visitor comes to an end. The search for unparsed terms is such a
visitor, and finds the first one of the terms that the complete walk lists.
-/

/--
What a visitor makes of a term: its state afterwards, and whether it goes on to
the terms that this one owns.
-/
abbrev Visitor (State : Type) : Type :=
  Term → State → State × Bool

namespace Visitor

/-- The visitor that records every term and goes on below each. -/
def recorder : Visitor (List Term) :=
  fun term log => (log ++ [term], true)

/--
The visitor that looks for a range of tokens. It attends to types, expressions
and statements only, and passes through all other terms. Once one is found it is
still handed the terms that come later, but goes on below no type, expression or
statement among them.
-/
def finder (arena : Arena) : Visitor (Option Term)
  | .type id, found? => attend (.type id) found?
  | .expr id, found? => attend (.expr id) found?
  | .stmt id, found? => attend (.stmt id) found?
  | _, found? => (found?, true)
where
  /-- Look at one term, unless one was found before. -/
  attend (term : Term) : Option Term → Option Term × Bool
    | some found => (some found, false)
    | none => if arena.isUnparsed term then (some term, false) else (none, true)

end Visitor

namespace Arena

/--
A visitor comes from one state to another over terms and what it enters below
them.
-/
inductive Visits (arena : Arena) {State : Type} (visit : Visitor State) :
    List Term → State → State → Prop where
  | done {state : State} : Visits arena visit [] state state
  | pass {term : Term} {rest : List Term} {before middle after : State}
      (passed : visit term before = (middle, false))
      (later : Visits arena visit rest middle after) :
      Visits arena visit (term :: rest) before after
  | enter {term : Term} {rest : List Term} {before middle inner after : State}
      (entered : visit term before = (middle, true))
      (below : Visits arena visit (arena.children term) middle inner)
      (later : Visits arena visit rest inner after) :
      Visits arena visit (term :: rest) before after

/--
What is below a term is finite: all of it is stored, and going down comes to an
end.
-/
structure Finite (arena : Arena) (root : Term) : Prop where
  ends : Acc (fun child owner => child ∈ arena.children owner) root
  held : arena.Throughout arena.Holds root

variable {arena : Arena} {term : Term}

/--
What is below a stored term is finite if this holds of the terms that it owns.
-/
private theorem Finite.intro
    (held : arena.Holds term)
    (children : ∀ child ∈ arena.children term, arena.Finite child) :
    arena.Finite term where
  ends := ⟨_, fun child owned => (children child owned).ends⟩
  held := .intro held fun child owned => (children child owned).held

/-- Steps from owner to child go no farther down than the terms they come to. -/
private theorem shallow_of_within
    {depth : Nat}
    (within : Term.Within arena.children depth term) :
    arena.Shallow depth term := by
  induction depth generalizing term with
  | zero => exact within.elim
  | succ depth inductionHypothesis =>
      exact fun child owned => inductionHypothesis (within child owned)

/-- Nothing below a finite term is as many steps down as there are terms. -/
theorem Finite.shallow (finite : arena.Finite term) :
    arena.Shallow (arena.termCount + 1) term := by
  refine shallow_of_within
    (Term.within_termCount finite.ends fun other onward => ?_)
  have reached : arena.Owns term other := by
    induction onward with
    | refl => exact .self
    | tail _ owned reached => exact .child reached owned
  exact fun _ => finite.held other reached

namespace Visits

variable {State : Type} {visit : Visitor State}

/-- A visitor comes to one state only. -/
private theorem unique
    {terms : List Term}
    {before after other : State}
    (first : arena.Visits visit terms before after)
    (second : arena.Visits visit terms before other) :
    after = other := by
  induction first generalizing other with
  | done => cases second; rfl
  | pass passed later inductionHypothesis =>
      cases second with
      | pass passedToo laterToo =>
          cases passed.symm.trans passedToo
          exact inductionHypothesis laterToo
      | enter entered => cases passed.symm.trans entered
  | enter entered below later inner outer =>
      cases second with
      | pass passed => cases entered.symm.trans passed
      | enter enteredToo belowToo laterToo =>
          cases entered.symm.trans enteredToo
          obtain rfl := inner belowToo
          exact outer laterToo

/-- The recorder lists the terms as the complete walk does. -/
private theorem recorder
    {depth : Nat}
    {terms : List Term}
    (shallow : ∀ term ∈ terms, arena.Shallow depth term)
    (log : List Term) :
    arena.Visits .recorder terms log
      (log ++ terms.flatMap (arena.preorderWithin depth)) := by
  induction depth generalizing terms log with
  | zero =>
      cases terms with
      | nil => simpa using Visits.done
      | cons term rest => exact (shallow term (List.mem_cons_self ..)).elim
  | succ depth inductionHypothesis =>
      induction terms generalizing log with
      | nil => simpa using Visits.done
      | cons term rest tailHypothesis =>
          obtain ⟨first, others⟩ := List.forall_mem_cons.mp shallow
          have below := inductionHypothesis first (log ++ [term])
          have later := tailHypothesis others
            (log ++ [term] ++
              (arena.children term).flatMap (arena.preorderWithin depth))
          simpa [preorderWithin] using Visits.enter rfl below later

end Visits

/--
The finder keeps what was found, and otherwise stops at a range of tokens.
-/
private theorem finder_cases
    (arena : Arena)
    (term : Term)
    (found? : Option Term) :
    (∃ found, found? = some found ∧ ∃ onward, Visitor.finder arena term found? =
      (some found, onward)) ∨
    (found? = none ∧ arena.isUnparsed term = true ∧
      Visitor.finder arena term found? = (some term, false)) ∨
    (found? = none ∧ arena.isUnparsed term = false ∧
      Visitor.finder arena term found? = (none, true)) := by
  cases found? with
  | some found => cases term <;> simp [Visitor.finder, Visitor.finder.attend]
  | none =>
      cases term with
      | type id => by_cases unparsed : arena.isUnparsed (.type id) <;>
          simp [Visitor.finder, Visitor.finder.attend, unparsed]
      | expr id => by_cases unparsed : arena.isUnparsed (.expr id) <;>
          simp [Visitor.finder, Visitor.finder.attend, unparsed]
      | stmt id => by_cases unparsed : arena.isUnparsed (.stmt id) <;>
          simp [Visitor.finder, Visitor.finder.attend, unparsed]
      | _ => simp [Visitor.finder, isUnparsed]

/-- The finder keeps what it has found over any terms that are finite. -/
private theorem Visits.finder_found
    {depth : Nat}
    {terms : List Term}
    (shallow : ∀ term ∈ terms, arena.Shallow depth term)
    (found : Term) :
    arena.Visits (Visitor.finder arena) terms (some found) (some found) := by
  induction depth generalizing terms with
  | zero =>
      cases terms with
      | nil => exact .done
      | cons term rest => exact (shallow term (List.mem_cons_self ..)).elim
  | succ depth inductionHypothesis =>
      induction terms with
      | nil => exact .done
      | cons term rest tailHypothesis =>
          obtain ⟨first, others⟩ := List.forall_mem_cons.mp shallow
          obtain ⟨_, ⟨⟩, onward, looked⟩ | ⟨⟨⟩, -⟩ | ⟨⟨⟩, -⟩ :=
            finder_cases arena term (some found)
          cases onward with
          | false => exact .pass looked (tailHypothesis others)
          | true => exact .enter looked (inductionHypothesis
              first) (tailHypothesis others)

/-- The finder finds what the search for unparsed terms finds. -/
private theorem Visits.finder
    {depth : Nat}
    {terms : List Term}
    (shallow : ∀ term ∈ terms, arena.Shallow depth term) :
    arena.Visits (Visitor.finder arena) terms none
      (terms.findSome? (arena.firstUnparsedWithin? depth)) := by
  induction depth generalizing terms with
  | zero =>
      cases terms with
      | nil => exact .done
      | cons term rest => exact (shallow term (List.mem_cons_self ..)).elim
  | succ depth inductionHypothesis =>
      induction terms with
      | nil => exact .done
      | cons term rest tailHypothesis =>
          obtain ⟨first, others⟩ := List.forall_mem_cons.mp shallow
          rw [List.findSome?_cons, firstUnparsedWithin?]
          obtain ⟨_, ⟨⟩, -⟩ | ⟨-, unparsed, looked⟩ | ⟨-, parsed, looked⟩ :=
            finder_cases arena term none
          · rw [if_pos unparsed]
            exact .pass looked (finder_found others term)
          · rw [if_neg (by simp [parsed])]
            have below := inductionHypothesis first
            cases found : (arena.children term).findSome?
                (arena.firstUnparsedWithin? depth) with
            | none =>
                exact .enter looked (found ▸ below) (tailHypothesis others)
            | some hit =>
                exact .enter looked (found ▸ below) (finder_found others hit)

/--
The search finds the first range of tokens that the walk to the same depth
lists.
-/
private theorem firstUnparsedWithin?_eq_find? (depth : Nat) (term : Term) :
    arena.firstUnparsedWithin? depth term =
      (arena.preorderWithin depth term).find? arena.isUnparsed := by
  induction depth generalizing term with
  | zero => rfl
  | succ depth inductionHypothesis =>
      rw [firstUnparsedWithin?, preorderWithin, List.find?_cons,
        List.find?_flatMap, findSome?_congr fun child _ =>
        inductionHypothesis child]
      cases arena.isUnparsed term <;> rfl

/--
Where what is below a statement is finite, the complete walk from it comes to an
end, and so does the visitor that looks for a range of tokens. What that visitor
finds is what the search finds, which is the first type, expression or statement
that is a range of tokens among the terms that the walk lists. It finds none
exactly where no such term is owned, through whatever terms.
-/
theorem firstUnparsed?_eq_find?
    {root : StmtId}
    (finite : arena.Finite (.stmt root)) :
    ∃ visited,
      (∀ log, arena.Visits .recorder [.stmt root] [] log ↔ log = visited) ∧
      (∀ found?, arena.Visits (Visitor.finder arena) [.stmt root] none found? ↔
        found? = arena.firstUnparsed? root) ∧
      arena.firstUnparsed? root = visited.find? arena.isUnparsed ∧
      (arena.firstUnparsed? root = none ↔
        ∀ term, arena.Owns (.stmt root) term → arena.isUnparsed term =
          false) := by
  have shallow := finite.shallow
  have recorded := Visits.recorder (List.forall_mem_singleton.mpr shallow) []
  have searched := Visits.finder (List.forall_mem_singleton.mpr shallow)
  rw [List.flatMap_singleton, List.nil_append] at recorded
  rw [List.findSome?_singleton] at searched
  refine ⟨_, fun log =>
    ⟨fun other => other.unique recorded, fun same => same ▸ recorded⟩,
    fun found? => ⟨fun other => other.unique searched, fun same =>
      same ▸ searched⟩,
    firstUnparsedWithin?_eq_find? _ _, ?_⟩
  rw [firstUnparsed?, firstUnparsedWithin?_eq_find?, List.find?_eq_none]
  refine ⟨fun none term owned => ?_, fun none term listed => ?_⟩
  · simpa using none term (shallow.mem_preorderWithin owned)
  · simpa using none term (owns_of_mem_preorderWithin .self listed)

/--
A concept with a requirement whose type is a range of tokens, before a statement
that is one as well: the type is found, though neither the declaration nor the
definition nor the requirement above it is looked at, and the statement is not.
-/
theorem firstUnparsed?_eq_find?_requirement :
    let arena : Arena :=
      { names := #[Vacant.name]
        types := #[{ form := .unparsed ⟨6, 7⟩, span := .synthetic }]
        exprs := #[]
        stmts := #[{ form := .list .unit [⟨1⟩, ⟨2⟩] ⟨0⟩, span := .synthetic },
          { form := .declaration ⟨0⟩, span := .synthetic },
          { form := .unparsed ⟨9, 12⟩, span := .synthetic }]
        decls := #[{ Vacant.decl with name := ⟨0⟩, form := .concept [] ⟨0⟩ }]
        definitions := #[{ form := .requirements [⟨0⟩], span := .synthetic }]
        requirements := #[{ form := .type ⟨0⟩, span := .synthetic }]
        placeholders := 0 }
    arena.Finite (.stmt ⟨0⟩) ∧
      (∃ visited, visited.find? arena.isUnparsed = some (.type ⟨0⟩) ∧
        (∀ log, arena.Visits .recorder [.stmt ⟨0⟩] [] log ↔ log = visited) ∧
        ∀ found?, arena.Visits (Visitor.finder arena) [.stmt ⟨0⟩] none found? ↔
          found? = some (.type ⟨0⟩)) ∧
      ¬ ∀ term, arena.Owns (.stmt ⟨0⟩) term → arena.isUnparsed term =
        false := by
  intro arena
  have leaf {term : Term} (held : arena.Holds term)
      (none : arena.children term = []) :
      arena.Finite term := .intro held (by simp [none])
  have only {term child : Term} (held : arena.Holds term)
      (same : arena.children term = [child])
      (below : arena.Finite child) : arena.Finite term :=
        .intro held (by simpa [same] using below)
  have type : arena.Finite (.type ⟨0⟩) := leaf (by decide) rfl
  have requirement : arena.Finite (.requirement ⟨0⟩) :=
    only (by decide) rfl type
  have definition : arena.Finite (.definition ⟨0⟩) :=
    only (by decide) rfl requirement
  have decl : arena.Finite (.decl ⟨0⟩) := by
    refine .intro (by decide)
      (List.forall_mem_cons.mpr ⟨leaf (by decide) rfl, ?_⟩)
    exact List.forall_mem_singleton.mpr definition
  have finite : arena.Finite (.stmt ⟨0⟩) := by
    refine .intro (by decide)
      (List.forall_mem_cons.mpr ⟨only (by decide) rfl decl, ?_⟩)
    exact List.forall_mem_singleton.mpr (leaf (by decide) rfl)
  have search : arena.firstUnparsed? ⟨0⟩ = some (.type ⟨0⟩) := by decide
  obtain ⟨visited, recorded, found, first, none⟩ :=
    firstUnparsed?_eq_find? finite
  rw [search] at found first none
  exact ⟨finite, ⟨visited, first.symm, recorded, found⟩, fun parsed =>
    nomatch none.mpr parsed⟩

end Arena

end Tern
