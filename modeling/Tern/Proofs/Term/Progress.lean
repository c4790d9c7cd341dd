import Tern.Proofs.Term.Indexing

namespace Tern

/-!
# Steps of elaboration

Elaboration changes the arena in a few ways: terms are added, a term moves into
the slot of another one, a declaration reaches a phase, a template gets
parameters, and a statement gets a template around its declaration. Each of
these keeps complete what is complete, and ready what is ready.
-/

namespace Arena

/--
A term is present; where only parameters are admitted, it is no other
declaration.
-/
def Admits (arena : Arena) (only : Bool) (term : Term) : Prop :=
  arena.Present term ∧
    (only = true → ∀ decl, term = .decl decl →
      (arena.decl decl).form.isParam = true)

private theorem parsed_iff {arena : Arena} {term : Term} :
    arena.Parsed term ↔ arena.Throughout (arena.Admits true) term := by
  simp [Parsed, Throughout, Settled, Admits]

private theorem complete_iff {arena : Arena} {term : Term} :
    arena.Complete term ↔ arena.Throughout (arena.Admits false) term := by
  simp [Complete, Throughout, Admits]

/--
What holds throughout a term holds so in another arena that shows each such term
with children that were such terms, or have become such.
-/
private theorem Throughout.transport
    {older newer : Arena}
    {good better : Term → Prop}
    (shown : ∀ term, older.Throughout good term →
      better term ∧ ∀ child ∈ newer.children term,
        older.Throughout good child ∨ newer.Throughout better child)
    {term : Term}
    (throughout : older.Throughout good term) :
    newer.Throughout better term := by
  refine .of_closed (fun term => older.Throughout good term ∨
    newer.Throughout better term)
    ?_ ?_ (.inl throughout)
  · rintro term (old | new)
    · exact (shown term old).1
    · exact new.here
  · rintro owner (old | new) child owned
    · exact (shown owner old).2 child owned
    · exact .inr (new.child owned)

/-- One arena comes out of another one by a step of elaboration. -/
structure Progress (older newer : Arena) :
    Prop extends older.Succeeds newer 0 where
  complete : ∀ {term : Term}, older.Complete term → newer.Complete term
  indexed : older.Indexed → newer.Indexed

/--
Adding terms is a step if the parameters of the templates and concepts added are
numbered.
-/
theorem Extends.progress
    {older newer : Arena}
    (extended : older.Extends newer)
    (fresh : newer.IndexedFrom older.decls.size) :
    older.Progress newer where
  indexed indexed := extended.indexedFrom indexed fresh
  toSucceeds := extended.succeeds 0
  complete complete := by
    refine complete.transport fun term given => ?_
    have held : older.Holds term := given.here.1
    refine ⟨⟨extended.holds held, ?_⟩, fun child owned => .inl (given.child ?_)⟩
    · rw [extended.isUnparsed_eq held]
      exact given.here.2
    · rwa [extended.children_eq held] at owned

/-- What a declaration owns in a kept form it owned before, or it is parsed. -/
private theorem FormKept.child
    {newer : Arena}
    {old new : DeclForm}
    (kept : newer.FormKept old new)
    {child : Term}
    (owned : child ∈ new.children) :
    child ∈ old.children ∨ newer.Parsed child := by
  cases kept with
  | same => exact .inl owned
  | extended form added =>
      simp only [DeclForm.children, List.map_append, List.append_assoc,
        List.mem_append] at owned
      subst form
      rcases owned with parm | more | rest
      · exact .inl (List.mem_append_left _ (List.mem_append_left _ parm))
      · obtain ⟨parm, listed, rfl⟩ := List.mem_map.mp more
        exact .inr (added parm listed)
      · left
        simp only [DeclForm.children, List.append_assoc]
        exact List.mem_append_right _ (List.mem_append.mpr rest)

/-- The heads of a kept form were heads before, or are parsed. -/
theorem FormKept.head
    {newer : Arena}
    {old new : DeclForm}
    (kept : newer.FormKept old new)
    {head : Term}
    (listed : head ∈ new.heads) :
    head ∈ old.heads ∨ newer.Parsed head := by
  cases kept with
  | same => exact .inl listed
  | extended form added =>
      simp only [DeclForm.heads, List.map_append, List.append_assoc,
        List.mem_append] at listed
      subst form
      rcases listed with parm | more | rest
      · exact .inl (List.mem_append_left _ parm)
      · obtain ⟨parm, given, rfl⟩ := List.mem_map.mp more
        exact .inr (added parm given)
      · exact .inl (List.mem_append_right _ rest)

section

variable {arena : Arena} {decl : DeclId} {change : Decl → Decl}

/--
The phase of no declaration changes when a declaration is changed that keeps its
own.
-/
theorem phase_updateDecl
    {arena : Arena}
    {decl : DeclId}
    {change : Decl → Decl}
    (phase : (change (arena.decl decl)).phase = (arena.decl decl).phase)
    (other : DeclId) :
    ((arena.updateDecl decl change).decl other).phase =
      (arena.decl other).phase := by
  by_cases same : other = decl
  · subst same
    by_cases held : arena.Holds (.decl other)
    · rw [decl_updateDecl held, phase]
    · have past : arena.decls.size ≤ other.raw := Nat.le_of_not_lt held
      simp [Arena.decl, updateDecl, Array.getD_eq_getD_getElem?, past]
  · rw [decl_updateDecl_of_ne same]

/-- A change that keeps the name and the form keeps those of a parameter. -/
private theorem keepsParam_of_formKept
    {newer : Arena}
    (name : (change (arena.decl decl)).name = (arena.decl decl).name)
    (form : newer.FormKept (arena.decl decl).form
      (change (arena.decl decl)).form) :
    arena.KeepsParam decl change := by
  refine fun isParam => ⟨name, form.eq ?_⟩
  generalize (arena.decl decl).form = old at isParam
  cases old <;> first | rfl | cases isParam

/--
A change of a declaration is a step if it keeps the name and all but the
parameters of a template, where those added are parsed and all are indexed.
-/
private theorem progress_updateDecl
    (name : (change (arena.decl decl)).name = (arena.decl decl).name)
    (form : (arena.updateDecl decl change).FormKept (arena.decl decl).form
      (change (arena.decl decl)).form)
    (phase : (change (arena.decl decl)).phase = .unelaborated →
      (arena.decl decl).phase = .unelaborated)
    (indexes : arena.Indexes 0 (arena.decl decl).form.parms →
      arena.Indexes 0 (change (arena.decl decl)).form.parms) :
    arena.Progress (arena.updateDecl decl change) where
  toSucceeds :=
    succeeds_updateDecl (keepsParam_of_formKept name form) fun _ _ =>
      { name := name, form := form, phase := phase }
  indexed indexed :=
    indexed.updateDecl (keepsParam_of_formKept name form)
      (indexes (indexed decl (Nat.zero_le _)))
  complete complete := by
    refine complete.transport fun term given => ?_
    have held : arena.Holds term := given.here.1
    refine ⟨⟨(holds_updateDecl change term).mpr held, ?_⟩,
      fun child owned => ?_⟩
    · rw [← given.here.2]
      cases term <;> rfl
    · cases term with
      | decl other =>
          by_cases same : other = decl
          · subst same
            rw [children, decl_updateDecl held, name] at owned
            rcases List.mem_cons.mp owned with rfl | owned
            · exact .inl (given.child (List.mem_cons_self ..))
            · refine (form.child owned).imp (fun old => ?_) Parsed.complete
              exact given.child (List.mem_cons_of_mem _ old)
          · rw [children, decl_updateDecl_of_ne same] at owned
            exact .inl (given.child owned)
      | _ => exact .inl (given.child owned)

end

/--
A term has moved into the slot of another one and left a term behind that owns
nothing.
-/
structure Moved (older newer : Arena) (target source : Term) : Prop where
  holds : ∀ {term : Term}, newer.Holds term ↔ older.Holds term
  decl : ∀ decl, newer.decl decl = older.decl decl
  inline : ∀ decl, target ≠ .decl decl
  filled : newer.children target = older.children source ∧
    newer.isUnparsed target = older.isUnparsed source
  vacated : source ≠ target → newer.children source = [] ∧
    newer.isUnparsed source = false
  other : ∀ {term : Term}, term ≠ target → term ≠ source →
    newer.children term = older.children term ∧ newer.isUnparsed term =
      older.isUnparsed term

namespace Moved

variable {older newer : Arena} {target source : Term}
  (moved : older.Moved newer target source)

include moved

/--
What is admitted throughout stays so if the term moved is, wherever its target
was.
-/
private theorem admits
    {only : Bool}
    (given : older.Throughout (older.Admits only) target →
      older.Throughout (older.Admits only) source)
    {term : Term}
    (throughout : older.Throughout (older.Admits only) term) :
    newer.Throughout (newer.Admits only) term := by
  refine throughout.transport fun term good => ?_
  have held := moved.holds.mpr good.here.1.1
  have params : only = true → ∀ decl, term = .decl decl →
      (newer.decl decl).form.isParam = true := by
    intro asked decl same
    rw [moved.decl]
    exact good.here.2 asked decl same
  by_cases atTarget : term = target
  · subst atTarget
    have source := given good
    refine ⟨⟨⟨held, moved.filled.2.trans source.here.1.2⟩, params⟩,
      fun child owned => ?_⟩
    exact .inl (source.child (moved.filled.1 ▸ owned))
  · by_cases atSource : term = source
    · subst atSource
      obtain ⟨childless, parsed⟩ := moved.vacated atTarget
      refine ⟨⟨⟨held, parsed⟩, params⟩, fun child owned => ?_⟩
      rw [childless] at owned
      cases owned
    · obtain ⟨children, unparsed⟩ := moved.other atTarget atSource
      refine ⟨⟨⟨held, unparsed.trans good.here.1.2⟩, params⟩,
        fun child owned => ?_⟩
      exact .inl (good.child (children ▸ owned))

/-- A term that moves leaves the forms of declarations as they are. -/
theorem sameForms : older.SameForms newer where
  held := moved.holds.mpr
  form _ := by rw [moved.decl]

/-- The slot moved into holds what the term moved was. -/
theorem target_parsed
    (held : older.Holds target)
    (parsed : older.Parsed source) :
    newer.Parsed target := by
  rw [parsed_iff] at parsed ⊢
  refine .intro ⟨⟨moved.holds.mpr held, ?_⟩, fun _ decl same =>
    absurd same (moved.inline decl)⟩
    fun child owned => ?_
  · exact moved.filled.2.trans parsed.here.1.2
  · exact moved.admits (fun _ => parsed) (parsed.child (moved.filled.1 ▸ owned))

private theorem parsed
    (given : older.Parsed target → older.Parsed source)
    {term : Term}
    (parsed : older.Parsed term) :
    newer.Parsed term := by
  simp only [parsed_iff] at given parsed ⊢
  exact moved.admits given parsed

private theorem complete
    (given : older.Complete target → older.Complete source)
    {term : Term}
    (complete : older.Complete term) :
    newer.Complete term := by
  simp only [complete_iff] at given complete ⊢
  exact moved.admits given complete

/-- What was captured is so still, unless it was moved into or moved away. -/
private theorem captured
    {term : Term}
    (atTarget : term ≠ target)
    (atSource : term ≠ source)
    (captured : older.Captured term) :
    newer.Captured term :=
  ⟨moved.holds.mpr captured.1,
    (moved.other atTarget atSource).2.trans captured.2⟩

/-- What is due stays so when a parsed term moves. -/
private theorem due
    (held : older.Holds target)
    (parsed : older.Parsed source)
    {term : Term}
    (due : older.Due term) :
    newer.Due term := by
  have apart {other : Term} (captured : older.Captured other) :
      other ≠ source := by
    rintro rfl
    have present := parsed.here.1.2
    rw [captured.2] at present
    cases present
  cases due with
  | parsed given => exact .parsed (moved.parsed (fun _ => parsed) given)
  | captured captured inline =>
      by_cases atTarget : term = target
      · exact .parsed (atTarget ▸ moved.target_parsed held parsed)
      · exact .captured (moved.captured atTarget (apart captured) captured)
          inline
  | @param decl type stored name form captured =>
      have same := moved.decl decl
      have storedNow := moved.holds.mpr stored
      have nameNow : newer.Parsed (.name (newer.decl decl).name) := by
        rw [same]
        exact moved.parsed (fun _ => parsed) name
      by_cases atTarget : Term.type type = target
      · refine .parsed (parsed_param storedNow ?_ nameNow ?_)
        · rw [same, form]
          rfl
        · rw [same, form]
          exact List.forall_mem_singleton.mpr
            (atTarget ▸ moved.target_parsed held parsed)
      · exact .param storedNow nameNow (same ▸ form)
          (moved.captured atTarget (apart captured) captured)

/-- A type or expression that moves is a step. -/
private theorem progress
    (held : older.Holds target)
    (parsed : older.Parsed source)
    (definitions : newer.definitions = older.definitions)
    (stmts : newer.stmts = older.stmts) :
    older.Progress newer where
  holds := moved.holds.mpr
  parsed := moved.parsed fun _ => parsed
  due := moved.due held parsed
  definitions _ := by simp only [definition, definitions]
  decls {decl} _ _ := by
    rw [moved.decl]
    exact { name := rfl, form := .same, phase := id }
  stmts _ := .same (by simp only [stmt, stmts])
  complete := moved.complete fun _ => parsed.complete
  indexed indexed := indexed.of_decl_eq moved.decl

end Moved

section

variable {Element : Type}

/--
An array whose element has moved holds it in its new place, and none in its old
one.
-/
private theorem getD_move
    (elements : Array Element)
    (vacant : Element)
    {target : Nat}
    (source other : Nat)
    (inBounds : target < elements.size) :
    ((elements.setIfInBounds source vacant).setIfInBounds target
      (elements.getD source vacant)).getD
        other vacant =
      if other = target then elements.getD source vacant
      else if other = source then vacant
      else elements.getD other vacant := by
  simp only [Array.getD_eq_getD_getElem?, Array.getElem?_setIfInBounds,
    Array.size_setIfInBounds]
  by_cases atTarget : target = other
  · subst atTarget
    simp [inBounds]
  · have atTarget' : other ≠ target := fun same => atTarget same.symm
    simp only [atTarget, atTarget', ↓reduceIte]
    by_cases atSource : source = other
    · subst atSource
      by_cases stored : source < elements.size <;> simp [stored]
    · have atSource' : other ≠ source := fun same => atSource same.symm
      simp [atSource, atSource']

end

/-- Slots are the same if their numbers are. -/
theorem eq_iff_raw_eq {space : Space} {slot other : Slot space} :
    slot = other ↔ slot.raw = other.raw := by
  cases slot
  cases other
  simp

section

variable {arena : Arena}

theorem type_moveType
    {target : TypeId}
    (held : arena.Holds (.type target))
    (source other : TypeId) :
    (arena.moveType target source).type other =
      if other = target then arena.type source
      else if other = source then Vacant.type
      else arena.type other := by
  unfold moveType
  split
  next same =>
    subst same
    split
    next here => rw [here]
    next => rfl
  next =>
    simp only [eq_iff_raw_eq]
    exact getD_move arena.types Vacant.type source.raw other.raw held

theorem expr_moveExpr
    {target : ExprId}
    (held : arena.Holds (.expr target))
    (source other : ExprId) :
    (arena.moveExpr target source).expr other =
      if other = target then arena.expr source
      else if other = source then Vacant.expr
      else arena.expr other := by
  unfold moveExpr
  split
  next same =>
    subst same
    split
    next here => rw [here]
    next => rfl
  next =>
    simp only [eq_iff_raw_eq]
    exact getD_move arena.exprs Vacant.expr source.raw other.raw held

theorem stmt_moveStmt
    {target : StmtId}
    (held : arena.Holds (.stmt target))
    (source other : StmtId) :
    (arena.moveStmt target source).stmt other =
      if other = target then arena.stmt source
      else if other = source then Vacant.stmt
      else arena.stmt other := by
  unfold moveStmt
  split
  next same =>
    subst same
    split
    next here => rw [here]
    next => rfl
  next =>
    simp only [eq_iff_raw_eq]
    exact getD_move arena.stmts Vacant.stmt source.raw other.raw held

theorem moved_moveType
    {target : TypeId}
    (held : arena.Holds (.type target))
    (source : TypeId) :
    arena.Moved (arena.moveType target source) (.type target)
      (.type source) where
  holds {term} := by
    unfold moveType
    split
    · rfl
    · cases term <;> simp [Holds]
  decl _ := by
    unfold moveType
    split <;> rfl
  inline _ := Term.noConfusion
  filled := by simp [children, isUnparsed, type_moveType held]
  vacated apart := by
    have apart : source ≠ target := fun same => apart (congrArg Term.type same)
    simp [children, isUnparsed, type_moveType held, apart, Vacant.type,
      TypeForm.children, TypeForm.isUnparsed]
  other {term} atTarget atSource := by
    cases term with
    | type other =>
        have atTarget : other ≠ target :=
          fun same => atTarget (congrArg Term.type same)
        have atSource : other ≠ source :=
          fun same => atSource (congrArg Term.type same)
        simp [children, isUnparsed, type_moveType held, atTarget, atSource]
    | _ =>
        unfold moveType
        split <;> exact ⟨rfl, rfl⟩

theorem moved_moveExpr
    {target : ExprId}
    (held : arena.Holds (.expr target))
    (source : ExprId) :
    arena.Moved (arena.moveExpr target source) (.expr target)
      (.expr source) where
  holds {term} := by
    unfold moveExpr
    split
    · rfl
    · cases term <;> simp [Holds]
  decl _ := by
    unfold moveExpr
    split <;> rfl
  inline _ := Term.noConfusion
  filled := by simp [children, isUnparsed, expr_moveExpr held]
  vacated apart := by
    have apart : source ≠ target := fun same => apart (congrArg Term.expr same)
    simp [children, isUnparsed, expr_moveExpr held, apart, Vacant.expr,
      ExprForm.children, ExprForm.isUnparsed]
  other {term} atTarget atSource := by
    cases term with
    | expr other =>
        have atTarget : other ≠ target :=
          fun same => atTarget (congrArg Term.expr same)
        have atSource : other ≠ source :=
          fun same => atSource (congrArg Term.expr same)
        simp [children, isUnparsed, expr_moveExpr held, atTarget, atSource]
    | _ =>
        unfold moveExpr
        split <;> exact ⟨rfl, rfl⟩

theorem moved_moveStmt
    {target : StmtId}
    (held : arena.Holds (.stmt target))
    (source : StmtId) :
    arena.Moved (arena.moveStmt target source) (.stmt target)
      (.stmt source) where
  holds {term} := by
    unfold moveStmt
    split
    · rfl
    · cases term <;> simp [Holds]
  decl _ := by
    unfold moveStmt
    split <;> rfl
  inline _ := Term.noConfusion
  filled := by simp [children, isUnparsed, stmt_moveStmt held]
  vacated apart := by
    have apart : source ≠ target := fun same => apart (congrArg Term.stmt same)
    simp [children, isUnparsed, stmt_moveStmt held, apart, Vacant.stmt,
      StmtForm.children, StmtForm.isUnparsed]
  other {term} atTarget atSource := by
    cases term with
    | stmt other =>
        have atTarget : other ≠ target :=
          fun same => atTarget (congrArg Term.stmt same)
        have atSource : other ≠ source :=
          fun same => atSource (congrArg Term.stmt same)
        simp [children, isUnparsed, stmt_moveStmt held, atTarget, atSource]
    | _ =>
        unfold moveStmt
        split <;> exact ⟨rfl, rfl⟩

/-- A type that is parsed moves in a step. -/
theorem progress_moveType
    {target source : TypeId}
    (held : arena.Holds (.type target))
    (parsed : arena.Parsed (.type source)) :
    arena.Progress (arena.moveType target source) := by
  refine (moved_moveType held source).progress held parsed ?_ ?_
  · unfold moveType
    split <;> rfl
  · unfold moveType
    split <;> rfl

/-- An expression that is parsed moves in a step. -/
theorem progress_moveExpr
    {target source : ExprId}
    (held : arena.Holds (.expr target))
    (parsed : arena.Parsed (.expr source)) :
    arena.Progress (arena.moveExpr target source) := by
  refine (moved_moveExpr held source).progress held parsed ?_ ?_
  · unfold moveExpr
    split <;> rfl
  · unfold moveExpr
    split <;> rfl

/-- A statement that is ready within a captured range moves there in a step. -/
theorem progress_moveStmt
    {target source : StmtId}
    {range : TokenRange}
    (held : arena.Holds (.stmt target))
    (captured : (arena.stmt target).form = .unparsed range)
    (ready : arena.Ready 0 (4 * (range.stop - range.start)) (.stmt source)) :
    arena.Progress (arena.moveStmt target source) := by
  have moved := moved_moveStmt held source
  have absent : arena.isUnparsed (.stmt target) = true := by
    simp [isUnparsed, captured, StmtForm.isUnparsed]
  have absurd {result : Prop} (present : arena.Present (.stmt target)) :
      result := by
    rw [present.2] at absent
    cases absent
  have apart : source ≠ target := by
    rintro rfl
    have present := ready.present
    rw [absent] at present
    cases present
  have parsed {term : Term} : arena.Parsed term →
      (arena.moveStmt target source).Parsed term :=
    moved.parsed fun given => absurd given.here.1
  exact
    { holds := moved.holds.mpr
      parsed := parsed
      complete := moved.complete fun given => absurd given.here
      indexed := fun indexed => indexed.of_decl_eq moved.decl
      due := fun due => by
        cases due with
        | parsed given => exact .parsed (parsed given)
        | captured captured inline =>
            exact .captured (moved.captured (fun same => inline (same ▸ rfl))
              (fun same => inline (same ▸ rfl)) captured) inline
        | @param decl type stored name form captured =>
            have same := moved.decl decl
            exact .param (moved.holds.mpr stored) (same ▸ parsed name)
              (same ▸ form)
              (moved.captured Term.noConfusion Term.noConfusion captured)
      definitions := fun _ => by
        unfold moveStmt
        split <;> rfl
      decls := fun _ _ => by
        rw [moved.decl]
        exact { name := rfl, form := .same, phase := id }
      stmts := fun {stmt} _ => by
        by_cases atTarget : stmt = target
        · subst atTarget
          exact .filled captured (by simp [stmt_moveStmt held]) ready
        · by_cases atSource : stmt = source
          · subst atSource
            exact .vacated (by simp [stmt_moveStmt held, apart, Vacant.stmt])
          · exact .same (by simp [stmt_moveStmt held, atTarget, atSource]) }

/--
A declaration that has reached a phase is unelaborated only if it was so before.
-/
private theorem raiseTo_phase_eq
    {decl : Decl}
    {phase : Phase}
    (early : (decl.raiseTo phase).phase = .unelaborated) :
    decl.phase = .unelaborated := by
  revert early
  simp only [Decl.raiseTo, Phase.latest]
  cases decl.phase <;> cases phase <;> simp [Phase.rank]

/-- Letting a declaration reach a phase is a step. -/
theorem progress_raise (decl : DeclId) (phase : Phase) :
    arena.Progress (arena.updateDecl decl fun old => old.raiseTo phase) :=
  progress_updateDecl rfl .same raiseTo_phase_eq id

/--
Adding parameters that are parsed to a template is a step if they are indexed
on behind its own.
-/
theorem progress_extendTemplate
    (wrapper : DeclId)
    {more : List DeclId}
    (added : ∀ parm ∈ more, arena.Parsed (.decl parm))
    (further : ∀ {parms : List DeclId} {constraint? : Option ExprId}
      {inner : DeclId},
      (arena.decl wrapper).form = .template parms constraint? inner →
        arena.Indexes parms.length more) :
    arena.Progress (arena.updateDecl wrapper fun old =>
      match old.form with
      | .template parms constraint? inner =>
          { old with form := .template (parms ++ more) constraint? inner }
      | _ => old) := by
  have keeps : arena.KeepsParam wrapper fun old =>
      match old.form with
      | .template parms constraint? inner =>
          { old with form := .template (parms ++ more) constraint? inner }
      | _ => old := by
    intro isParam
    dsimp only
    split
    next parms constraint? inner form =>
      rw [form] at isParam
      cases isParam
    next => exact ⟨rfl, rfl⟩
  refine progress_updateDecl ?_ ?_ ?_ fun indexes => ?_
  · split <;> rfl
  · split
    next parms constraint? inner form =>
      exact .extended form fun parm listed =>
        (added parm listed).updateDecl keeps
    next => exact .same
  · split <;> exact id
  · split
    next parms constraint? inner form =>
      rw [form] at indexes
      refine indexes.append ?_
      rw [Nat.zero_add]
      exact further form
    next => exact indexes

/-- A declaration is a template with parsed parameters around another one. -/
structure Wrapper
    (arena : Arena)
    (decl wrapper : DeclId)
    (parms : List DeclId) :
    Prop where
  held : arena.Holds (.decl wrapper)
  name : arena.Parsed (.name (arena.decl wrapper).name)
  form : (arena.decl wrapper).form = .template parms none decl
  parameters : ∀ parm ∈ parms, arena.Parsed (.decl parm)

/-- A template is complete if what it is around is. -/
private theorem Wrapper.complete
    {decl wrapper : DeclId}
    {parms : List DeclId}
    (wraps : arena.Wrapper decl wrapper parms)
    (complete : arena.Complete (.decl decl)) :
    arena.Complete (.decl wrapper) := by
  refine .intro ⟨wraps.held, rfl⟩ fun child owned => ?_
  simp only [children, wraps.form, DeclForm.children, Option.toList_none,
    List.map_nil, List.append_nil, List.mem_cons, List.mem_append, List.mem_map,
    List.not_mem_nil, or_false] at owned
  rcases owned with rfl | ⟨parm, listed, rfl⟩ | rfl
  · exact wraps.name.complete
  · exact (wraps.parameters parm listed).complete
  · exact complete

section

variable {stmt : StmtId} {form : StmtForm}

theorem holds_setStmtForm {term : Term} :
    (arena.setStmtForm stmt form).Holds term ↔ arena.Holds term := by
  cases term <;> simp [Holds, setStmtForm]

theorem stmt_setStmtForm (held : arena.Holds (.stmt stmt)) :
    ((arena.setStmtForm stmt form).stmt stmt).form = form := by
  have inBounds : stmt.raw < arena.stmts.size := held
  simp [setStmtForm, Arena.stmt, Array.getD_eq_getD_getElem?, inBounds]

theorem stmt_setStmtForm_of_ne {other : StmtId} (apart : other ≠ stmt) :
    (arena.setStmtForm stmt form).stmt other = arena.stmt other := by
  have apart : stmt.raw ≠ other.raw :=
    fun same => apart (eq_iff_raw_eq.mpr same.symm)
  simp [setStmtForm, Arena.stmt, Array.getD_eq_getD_getElem?,
    Array.getElem?_setIfInBounds_ne apart]

/--
What is admitted throughout stays so if the statement changed gets admitted
children.
-/
private theorem admits_setStmtForm
    {only : Bool}
    (whole : form.isUnparsed = false)
    (given : arena.Throughout (arena.Admits only) (.stmt stmt) →
      ∀ child ∈ form.children, arena.Throughout (arena.Admits only) child)
    {term : Term}
    (throughout : arena.Throughout (arena.Admits only) term) :
    (arena.setStmtForm stmt form).Throughout
      ((arena.setStmtForm stmt form).Admits only) term := by
  refine throughout.transport fun term good => ?_
  obtain ⟨⟨held, parsed⟩, params⟩ := good.here
  have stored : (arena.setStmtForm stmt form).Holds term :=
    holds_setStmtForm.mpr held
  cases term with
  | stmt item =>
      by_cases same : item = stmt
      · subst same
        refine ⟨⟨⟨stored, ?_⟩, params⟩, fun child owned =>
          .inl (given good child ?_)⟩
        · rwa [isUnparsed, stmt_setStmtForm held]
        · rwa [children, stmt_setStmtForm held] at owned
      · refine ⟨⟨⟨stored, ?_⟩, params⟩, fun child owned => .inl (good.child ?_)⟩
        · rwa [isUnparsed, stmt_setStmtForm_of_ne same]
        · rwa [children, stmt_setStmtForm_of_ne same] at owned
  | _ => exact ⟨⟨⟨stored, parsed⟩, params⟩, fun child owned =>
      .inl (good.child owned)⟩

end

/-- A statement gets a template around the declaration that it holds. -/
theorem progress_wrap
    {stmt : StmtId}
    {decl wrapper : DeclId}
    {parms : List DeclId}
    (held : arena.Holds (.stmt stmt))
    (declared : (arena.stmt stmt).form = .declaration decl)
    (plain : (arena.decl decl).form.isTemplate = false)
    (other : (arena.decl decl).form.isParam = false)
    (wraps : arena.Wrapper decl wrapper parms)
    (elaborated : (arena.decl wrapper).phase ≠ .unelaborated) :
    arena.Progress (arena.setStmtForm stmt (.declaration wrapper)) := by
  have owns : Term.decl decl ∈ arena.children (.stmt stmt) := by
    simp [children, declared, StmtForm.children]
  have parsed {term : Term} (given : arena.Parsed term) :
      (arena.setStmtForm stmt (.declaration wrapper)).Parsed term := by
    simp only [parsed_iff] at given ⊢
    refine admits_setStmtForm rfl (fun good => ?_) given
    have isParam := (good.child owns).here.2 rfl decl rfl
    rw [other] at isParam
    cases isParam
  exact
    { holds := holds_setStmtForm.mpr
      parsed := parsed
      indexed := fun indexed => indexed.of_decl_eq fun _ => rfl
      complete := fun complete => by
        simp only [complete_iff] at complete ⊢
        refine admits_setStmtForm rfl
          (fun good => List.forall_mem_singleton.mpr ?_) complete
        exact complete_iff.mp
          (wraps.complete (complete_iff.mpr (good.child owns)))
      due := fun {term} due => by
        cases due with
        | parsed given => exact .parsed (parsed given)
        | captured captured inline =>
            refine .captured ⟨holds_setStmtForm.mpr captured.1, ?_⟩ inline
            cases term with
            | stmt item => exact absurd rfl inline
            | _ => exact captured.2
        | param stored name form captured =>
            exact .param (holds_setStmtForm.mpr stored) (parsed name) form
              ⟨holds_setStmtForm.mpr captured.1, captured.2⟩
      definitions := fun _ => rfl
      decls := fun _ _ => { name := rfl, form := .same, phase := id }
      stmts := fun {item} _ => by
        by_cases same : item = stmt
        · subst same
          exact .wrapped declared plain (stmt_setStmtForm held)
            (holds_setStmtForm.mpr wraps.held)
            (Nat.zero_le _) (parsed wraps.name) wraps.form
            (fun parm listed => parsed (wraps.parameters parm listed))
              elaborated
        · exact .same (by rw [stmt_setStmtForm_of_ne same]) }

end

end Arena

end Tern
