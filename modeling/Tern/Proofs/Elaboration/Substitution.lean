import Tern.Proofs.Elaboration.Frame
import Tern.Proofs.Term.Settling

namespace Tern

/-!
# Type parameters in the place of types

A type parameter that is minted covers the text of the type that it was minted
for, and so does its name. The type is among those of a function, which goes on
to own it through elaboration. So the type parameter lies within the text of the
function.
-/

namespace Arena

variable {input : ElabInput} {origin older newer arena : Arena}

/--
What a stored term owns is still reached from it after elaboration. What a
statement owned is then owned by the template that it owns.
-/
theorem Framed.reaches_child
    (framed : Framed input origin older newer)
    {owner term : Term}
    (held : older.Holds owner)
    (owned : term ∈ older.children owner) :
    newer.Reaches .empty owner term := by
  have stays (same : newer.children owner = older.children owner) :
      newer.Reaches .empty owner term :=
    .child .self (framed.held held) (not_holds_empty owner) (same ▸ owned)
  cases owner with
  | name name => exact stays (by rw [children, children, framed.name held])
  | type type =>
      cases framed.type held with
      | same same => exact stays (by rw [children, children, same])
      | parsed captured => simp [children, captured, TypeForm.children] at owned
      | minted before inferred =>
          rcases before with rfl | ⟨range, captured, -⟩
          · simp [children, inferred, TypeForm.children] at owned
          · simp [children, captured, TypeForm.children] at owned
  | expr expr =>
      cases framed.expr held with
      | same same => exact stays (by rw [children, children, same])
      | parsed captured => simp [children, captured, ExprForm.children] at owned
  | stmt stmt =>
      cases framed.stmt held with
      | same same => exact stays (by rw [children, children, same])
      | parsed _ captured =>
          simp [children, captured, StmtForm.children] at owned
      | @wrapped decl wrapper _ _ _ _ form _ now wraps =>
          obtain ⟨parms, template, -⟩ := wraps.form
          obtain rfl : term = .decl decl := by
            simpa [children, form, StmtForm.children] using owned
          refine .child (.child .self (framed.held held) (not_holds_empty _) ?_)
            wraps.held
            (not_holds_empty (.decl wrapper)) ?_
          · simp [children, now, StmtForm.children]
          · simp [children, template, DeclForm.children]
  | decl decl =>
      have now := framed.decl held
      rcases now.form with same |
          ⟨parms, constraint?, inner, more, template, extended, -⟩
      · exact stays (by rw [children, children, same, now.name])
      · refine .child .self (framed.held held) (not_holds_empty (.decl decl)) ?_
        simp only [children, template, DeclForm.children, List.mem_cons,
          List.mem_append] at owned
        simp only [children, extended, now.name, DeclForm.children,
          List.map_append, List.mem_cons, List.mem_append]
        rcases owned with name | (parm | constraint) | rest
        · exact .inl name
        · exact .inr (.inl (.inl (.inl parm)))
        · exact .inr (.inl (.inr constraint))
        · exact .inr (.inr rest)
  | definition definition =>
      exact stays (by rw [children, children, framed.definition held])
  | requirement requirement =>
      exact stays (by rw [children, children, framed.requirement held])

/-- What is reached from a term is still reached from it after elaboration. -/
theorem Framed.reaches
    (framed : Framed input origin older newer)
    {root term : Term}
    (reached : older.Reaches .empty root term) :
    newer.Reaches .empty root term := by
  induction reached with
  | self => exact .self
  | child _ held _ owned inductionHypothesis =>
      exact inductionHypothesis.trans (framed.reaches_child held owned)

/-- What is below a type is reached from it. -/
theorem Below.reaches
    {type slot : TypeId}
    (below : arena.Below type slot) :
    arena.Reaches .empty (.type type) (.type slot) := by
  induction below with
  | refl => exact .self
  | reference form _ inductionHypothesis =>
      exact .trans (.child .self (holds_of_wrapped form) (not_holds_empty _)
        (by simp [children, form, TypeForm.children])) inductionHypothesis
  | qualified form _ inductionHypothesis =>
      exact .trans (.child .self (holds_of_wrapped form) (not_holds_empty _)
        (by simp [children, form, TypeForm.children])) inductionHypothesis

/-- A type is a type parameter that covers the same text. -/
structure StandsFor (arena : Arena) (parm : DeclId) (slot : TypeId) : Prop where
  held : arena.Holds (.type slot)
  form : (arena.type slot).form = .declared parm (arena.decl parm).name
  span : (arena.type slot).span = (arena.decl parm).span

/-- A type parameter stands for a type that a declaration owns. -/
def StandsWithin (arena : Arena) (decl parm : DeclId) : Prop :=
  ∃ slot, arena.Reaches .empty (.decl decl) (.type slot) ∧
    arena.StandsFor parm slot

/-- A type parameter goes on to stand for a type. -/
theorem Framed.standsFor
    (framed : Framed input origin older newer)
    {parm : DeclId}
    {slot : TypeId}
    (stored : older.Holds (.decl parm))
    (stands : older.StandsFor parm slot) :
    newer.StandsFor parm slot := by
  obtain ⟨held, form, span⟩ := stands
  have now := framed.decl stored
  have same : newer.type slot = older.type slot := by
    cases framed.type held with
    | same same => exact same
    | parsed captured => simp [form] at captured
    | minted before inferred =>
        rcases before with rfl | ⟨range, captured, -⟩
        · simp [form] at inferred
        · simp [form] at captured
  exact ⟨framed.held held, by rw [same, form, now.name],
    by rw [same, span, now.span]⟩

/--
A type parameter that was minted goes on to stand for a type that a declaration
owns.
-/
theorem Framed.standsWithin
    (framed : Framed input origin older newer)
    {decl parm : DeclId}
    (minted : origin.Minted older parm)
    (stands : older.StandsWithin decl parm) :
    newer.StandsWithin decl parm :=
  have ⟨slot, reached, stands⟩ := stands
  ⟨slot, framed.reaches reached, framed.standsFor minted.held stands⟩

/--
A type parameter lies within the text of the declaration that it was minted for.
-/
theorem Laid.minted
    {tokens : Tokens}
    {decl parm : DeclId}
    (laid : arena.Laid .empty tokens (.decl decl))
    (minted : origin.Minted arena parm)
    (stands : arena.StandsWithin decl parm) :
    arena.Laid .empty tokens (.decl parm) ∧
      (arena.spanOf (.decl parm)).Within (arena.spanOf (.decl decl)) := by
  obtain ⟨slot, reached, held, form, span⟩ := stands
  obtain ⟨index, form⟩ := minted.form
  have laidSlot : arena.Laid .empty tokens (.type slot) :=
    laid.below reached.owns
  have within := laid.within_of_owns reached.owns
  have same : arena.spanOf (.decl parm) = arena.spanOf (.type slot) := span.symm
  have named : .name (arena.decl parm).name ∈ arena.children (.type slot) := by
    simp [children, *, TypeForm.children]
  have children : arena.children (.decl parm) =
      [.name (arena.decl parm).name] := by
    simp [children, form, DeclForm.children]
  rw [same]
  refine ⟨.intro ⟨minted.held, not_holds_empty _, .of_parsed rfl ?_ ?_⟩ ?_,
    within⟩
  · rw [same]
    exact laidSlot.here.encloses.forward
  · rw [children, same, List.forall_mem_singleton]
    exact (laidSlot.owned named).2
  · rw [children, List.forall_mem_singleton]
    exact laidSlot.child named

end Arena

end Tern
