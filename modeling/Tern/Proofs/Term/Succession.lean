import Tern.Proofs.Term.Readiness

namespace Tern

/-!
# Succession of arenas

An arena succeeds another one when each stored term is as it was or has changed
in one of the ways in which elaboration changes terms. What is ready to be
elaborated stays so: only a range of tokens gets another form, from a term
parsed within the bound of the range, and only a declaration in a statement gets
a template around it.
-/

/-- A declaration with a definition is no template. -/
theorem DeclForm.isTemplate_eq_false
    {form : DeclForm}
    {definition : DefId}
    (defines : form.definition? = some definition) :
    form.isTemplate = false := by
  cases form with
  | template parms constraint? inner => simp [definition?] at defines
  | _ => rfl

namespace Arena

/-- A declaration keeps its form, but a template may get more parameters. -/
inductive FormKept (newer : Arena) (old : DeclForm) : DeclForm → Prop where
  | same : FormKept newer old old
  | extended {parms more : List DeclId} {constraint? : Option ExprId}
      {inner : DeclId}
      (form : old = .template parms constraint? inner)
      (added : ∀ parm ∈ more, newer.Parsed (.decl parm)) :
      FormKept newer old (.template (parms ++ more) constraint? inner)

/--
A declaration keeps its name and form, and is not taken back to the first phase.
-/
structure DeclKept (newer : Arena) (old new : Decl) : Prop where
  name : new.name = old.name
  form : newer.FormKept old.form new.form
  phase : new.phase = .unelaborated → old.phase = .unelaborated

/-- How a statement may change, given the declarations counted as new. -/
inductive StmtKept
    (older newer : Arena)
    (low : Nat)
    (stmt : StmtId) :
    Prop where
  | same (form : (newer.stmt stmt).form = (older.stmt stmt).form)
  | vacated (form : (newer.stmt stmt).form = .empty)
  | filled {range : TokenRange} {source : StmtId}
      (captured : (older.stmt stmt).form = .unparsed range)
      (form : (newer.stmt stmt).form = (older.stmt source).form)
      (ready : older.Ready low (4 * (range.stop - range.start)) (.stmt source))
  | wrapped {decl wrapper : DeclId} {parms : List DeclId}
      (declared : (older.stmt stmt).form = .declaration decl)
      (plain : (older.decl decl).form.isTemplate = false)
      (form : (newer.stmt stmt).form = .declaration wrapper)
      (held : newer.Holds (.decl wrapper)) (new : low ≤ wrapper.raw)
      (name : newer.Parsed (.name (newer.decl wrapper).name))
      (wraps : (newer.decl wrapper).form = .template parms none decl)
      (parameters : ∀ parm ∈ parms, newer.Parsed (.decl parm))
      (elaborated : (newer.decl wrapper).phase ≠ .unelaborated)

/--
Each term stored in one arena is kept or changed as elaboration may change it.
-/
structure Succeeds (older newer : Arena) (low : Nat) : Prop where
  holds : ∀ {term : Term}, older.Holds term → newer.Holds term
  parsed : ∀ {term : Term}, older.Parsed term → newer.Parsed term
  due : ∀ {term : Term}, older.Due term → newer.Due term
  definitions : ∀ {definition : DefId}, older.Holds (.definition definition) →
    newer.definition definition = older.definition definition
  decls : ∀ {decl : DeclId}, older.Holds (.decl decl) → low ≤ decl.raw →
    newer.DeclKept (older.decl decl) (newer.decl decl)
  stmts : ∀ {stmt : StmtId}, older.Holds (.stmt stmt) →
    older.StmtKept newer low stmt

/-- A kept form of a declaration is a template if it was one. -/
private theorem FormKept.isTemplate_eq
    {newer : Arena}
    {old new : DeclForm}
    (kept : newer.FormKept old new) :
    new.isTemplate = old.isTemplate := by
  cases kept with
  | same => rfl
  | extended form _ => simp [form, DeclForm.isTemplate]

/-- Only a template can have a form that is not the same. -/
theorem FormKept.eq
    {newer : Arena}
    {old new : DeclForm}
    (kept : newer.FormKept old new)
    (plain : old.isTemplate = false) :
    new = old := by
  cases kept with
  | same => rfl
  | extended form _ => simp [form, DeclForm.isTemplate] at plain

namespace Succeeds

variable {older newer : Arena} {low : Nat}

/-- A statement that owns nothing is parsed. -/
theorem parsed_of_empty
    {arena : Arena}
    {stmt : StmtId}
    (held : arena.Holds (.stmt stmt))
    (form : (arena.stmt stmt).form = .empty) :
    arena.Parsed (.stmt stmt) := by
  apply Throughout.intro
  · exact ⟨⟨held, by simp [isUnparsed, form, StmtForm.isUnparsed]⟩, fun _ =>
      Term.noConfusion⟩
  · simp [children, form, StmtForm.children]

/--
A statement gets the form of one that is ready, whose parts stay ready within
their bounds.
-/
theorem ready_of_form
    (succeeds : older.Succeeds newer low)
    {bound : Nat}
    {source stmt : StmtId}
    (smaller : ∀ inner < bound, ∀ {term : Term}, older.Ready low inner term →
      newer.Ready low inner term)
    (held : newer.Holds (.stmt stmt))
    (same : (newer.stmt stmt).form = (older.stmt source).form)
    (ready : older.Ready low bound (.stmt source)) :
    newer.Ready low bound (.stmt stmt) := by
  have present := ready.present
  cases ready with
  | plain parsed flat =>
      refine .plain (Throughout.intro ?_ fun child owned => ?_) (same ▸ flat)
      · refine ⟨⟨held, ?_⟩, fun _ => Term.noConfusion⟩
        simpa [isUnparsed, same] using present
      · have owned : child ∈ older.children (.stmt source) := by
          simpa [children, same] using owned
        exact succeeds.parsed (parsed.child owned)
  | list _ form items room =>
      exact .list held (same.trans form)
        (fun item listed => smaller _ (by omega) (items item listed))
        room
  | branch _ form test yes no room =>
      exact .branch held (same.trans form) (succeeds.parsed test)
        (smaller _ (by omega) yes)
        (fun rejected given => smaller _ (by omega) (no rejected given)) room
  | loop _ form test again room =>
      exact .loop held (same.trans form) (succeeds.parsed test)
        (smaller _ (by omega) again) room
  | @declaration _ _ _ decl _ form declared room =>
      have kept := (succeeds.decls declared.holds declared.new).form
      have cost : newer.wrapCost decl = older.wrapCost decl := by
        simp [wrapCost, kept.isTemplate_eq]
      refine .declaration held (same.trans form) (smaller _ ?_ declared)
        (cost ▸ room)
      have : 2 ≤ older.wrapCost decl := older.two_le_wrapCost decl
      omega

/--
A definition keeps its form, and what it gives stays ready within its bound.
-/
private theorem ready_definition
    (succeeds : older.Succeeds newer low)
    {bound : Nat}
    {definition : DefId}
    (smaller : ∀ inner < bound, ∀ {term : Term}, older.Ready low inner term →
      newer.Ready low inner term)
    (ready : older.Ready low bound (.definition definition)) :
    newer.Ready low bound (.definition definition) := by
  have kept := succeeds.definitions ready.holds
  have stored := succeeds.holds ready.holds
  cases ready with
  | nothing parsed flat =>
      exact .nothing (succeeds.parsed parsed) (kept ▸ flat)
  | initializer _ form due =>
      exact .initializer stored (kept ▸ form) (succeeds.due due)
  | block _ form inside room =>
      exact .block stored (kept ▸ form) (smaller _ (by omega) inside) room
  | @capturedBlock _ _ stmt range _ form held captured room =>
      have storedStmt := succeeds.holds held
      cases succeeds.stmts held with
      | same same =>
          exact .capturedBlock stored (kept ▸ form) storedStmt
            (same.trans captured) room
      | vacated empty =>
          exact .block stored (kept ▸ form)
            (.plain (parsed_of_empty storedStmt empty) (empty ▸ rfl)) room
      | filled was form' inside =>
          obtain rfl : range = _ := by
            simpa using captured.symm.trans was
          have filled := succeeds.ready_of_form
            (fun inner less => smaller inner (by omega)) storedStmt form' inside
          exact .block stored (kept ▸ form) filled room
      | wrapped declared =>
          simp [captured] at declared

/-- What is ready stays ready within its bound in an arena that succeeds. -/
theorem ready
    (succeeds : older.Succeeds newer low)
    {bound : Nat}
    {term : Term}
    (ready : older.Ready low bound term) :
    newer.Ready low bound term := by
  induction bound using Nat.strongRecOn generalizing term with
  | ind bound smaller =>
      have stored := succeeds.holds ready.holds
      cases term with
      | stmt stmt =>
          cases succeeds.stmts ready.holds with
          | same same =>
              exact succeeds.ready_of_form smaller stored same ready
          | vacated empty =>
              exact .plain (parsed_of_empty stored empty) (empty ▸ rfl)
          | filled captured =>
              have present := ready.present
              simp [isUnparsed, captured, StmtForm.isUnparsed] at present
          | @wrapped decl wrapper parms declared plain form held new name wraps
              parameters later =>
              cases ready with
              | plain _ flat => simp [declared, StmtForm.isFlat] at flat
              | list _ form' => simp [form'] at declared
              | branch _ form' => simp [form'] at declared
              | loop _ form' => simp [form'] at declared
              | @declaration _ inner _ _ _ form' inside room =>
                  obtain rfl : _ = decl := by
                    simpa using form'.symm.trans declared
                  have heads : ∀ head ∈ (newer.decl wrapper).form.heads,
                      newer.Parsed head := by
                    simpa [wraps, DeclForm.heads] using parameters
                  have wrapper := Ready.template held new name wraps heads
                    (smaller inner (by simp [wrapCost, plain] at room; omega)
                      inside)
                    (fun early => absurd early later) (Nat.le_refl _)
                  refine .declaration stored form wrapper ?_
                  simp [wrapCost, plain] at room
                  simp [wrapCost, wraps, DeclForm.isTemplate]
                  omega
      | decl decl =>
          have kept := succeeds.decls ready.holds ready.new
          cases ready with
          | defined _ new name heads defines takes inside room =>
              have form := kept.form.eq (DeclForm.isTemplate_eq_false defines)
              have body := succeeds.definitions inside.holds
              exact .defined stored new (kept.name ▸ succeeds.parsed name)
                (fun head listed => succeeds.due (heads head (form ▸ listed)))
                (form ▸ defines) (by rw [form, body]; exact takes)
                (smaller _ (by omega) inside) room
          | concept _ new name form parameters required flat =>
              have same := kept.form.eq (by simp [form, DeclForm.isTemplate])
              exact .concept stored new (kept.name ▸ succeeds.parsed name)
                (same.trans form)
                (fun parm listed => succeeds.parsed (parameters parm listed))
                (succeeds.parsed required)
                  (succeeds.definitions required.here.1.1 ▸ flat)
          | @template _ _ _ _ parms constraint? _ new name form heads inside
              order room =>
              have later : newer.Ready low _ (.decl _) :=
                smaller _ (by omega) inside
              have order' := fun early => order (kept.phase early)
              have formKept := kept.form
              generalize newForm : (newer.decl decl).form = formNow at formKept
              cases formKept with
              | same =>
                  refine .template stored new (kept.name ▸ succeeds.parsed name)
                    (newForm.trans form) ?_ later order' room
                  intro head listed
                  exact succeeds.parsed (heads head (newForm ▸ listed))
              | extended was added =>
                  rw [was] at form heads
                  cases form
                  refine .template stored new (kept.name ▸ succeeds.parsed name)
                    newForm ?_ later
                    order' room
                  intro head listed
                  simp only [newForm, DeclForm.heads, List.map_append,
                    List.append_assoc, List.mem_append] at listed heads
                  rcases listed with old | more | constrains
                  · exact succeeds.parsed (heads head (.inl old))
                  · obtain ⟨parm, listed, rfl⟩ := List.mem_map.mp more
                    exact added parm listed
                  · exact succeeds.parsed (heads head (.inr constrains))
          | namespaceBlock _ new name form inside room =>
              have same := kept.form.eq (by simp [form, DeclForm.isTemplate])
              exact .namespaceBlock stored new
                (kept.name ▸ succeeds.parsed name)
                (same.trans form) (smaller _ (by omega) inside) room
      | definition definition =>
          exact succeeds.ready_definition smaller ready
      | name id => cases ready
      | type id => cases ready
      | expr id => cases ready
      | requirement id => cases ready

end Succeeds

namespace Extends

variable {older newer : Arena}

theorem children_eq
    (extended : older.Extends newer)
    {term : Term}
    (held : older.Holds term) :
    newer.children term = older.children term := by
  cases term with
  | name id => simp only [children, extended.name_eq held]
  | type id => simp only [children, extended.type_eq held]
  | expr id => simp only [children, extended.expr_eq held]
  | stmt id => simp only [children, extended.stmt_eq held]
  | decl id => simp only [children, extended.decl_eq held]
  | definition id => simp only [children, extended.definition_eq held]
  | requirement id => simp only [children, extended.requirement_eq held]

theorem isUnparsed_eq
    (extended : older.Extends newer)
    {term : Term}
    (held : older.Holds term) :
    newer.isUnparsed term = older.isUnparsed term := by
  cases term with
  | type id => simp only [isUnparsed, extended.type_eq held]
  | expr id => simp only [isUnparsed, extended.expr_eq held]
  | stmt id => simp only [isUnparsed, extended.stmt_eq held]
  | _ => rfl

/-- What is parsed stays so. -/
theorem parsed
    (extended : older.Extends newer)
    {term : Term}
    (parsed : older.Parsed term) :
    newer.Parsed term := by
  refine parsed.transport fun term given => ?_
  have held : older.Holds term := given.here.1.1
  refine ⟨⟨⟨extended.holds held, ?_⟩, ?_⟩, ?_⟩
  · rw [extended.isUnparsed_eq held]
    exact given.here.1.2
  · rintro decl rfl
    rw [extended.decl_eq held]
    exact given.here.2 decl rfl
  · intro child owned
    rw [extended.children_eq held] at owned
    exact given.child owned

/-- A term added is parsed if what it owns was parsed before. -/
theorem parsed_added
    (extended : older.Extends newer)
    {term : Term}
    (settled : newer.Settled term)
    (owned : ∀ child ∈ newer.children term, older.Parsed child) :
    newer.Parsed term :=
  .intro settled fun child listed => extended.parsed (owned child listed)

/-- What is captured stays so. -/
private theorem captured
    (extended : older.Extends newer)
    {term : Term}
    (captured : older.Captured term) :
    newer.Captured term :=
  ⟨extended.holds captured.1, (extended.isUnparsed_eq captured.1).trans
    captured.2⟩

/-- What is due stays so. -/
theorem due
    (extended : older.Extends newer)
    {term : Term}
    (due : older.Due term) :
    newer.Due term := by
  cases due with
  | parsed parsed => exact .parsed (extended.parsed parsed)
  | captured captured inline =>
      exact .captured (extended.captured captured) inline
  | @param decl type held name form captured =>
      have same := extended.decl_eq held
      exact .param (extended.holds held) (same ▸ extended.parsed name)
        (same ▸ form)
        (extended.captured captured)

/-- A larger arena succeeds. -/
theorem succeeds (extended : older.Extends newer) (low : Nat) :
    older.Succeeds newer low where
  holds := extended.holds
  parsed := extended.parsed
  due := extended.due
  definitions held := extended.definition_eq held
  decls held _ := by
    rw [extended.decl_eq held]
    exact { name := rfl, form := .same, phase := id }
  stmts held := .same (by rw [extended.stmt_eq held])

end Extends

section Updating

variable {arena : Arena} {decl : DeclId}

theorem decl_updateDecl
    (held : arena.Holds (.decl decl))
    (change : Decl → Decl) :
    (arena.updateDecl decl change).decl decl = change (arena.decl decl) := by
  have inBounds : decl.raw < arena.decls.size := held
  simp [Arena.decl, updateDecl, Array.getD_eq_getD_getElem?, inBounds]

theorem decl_updateDecl_of_ne {other : DeclId} (different : other ≠ decl)
    (change : Decl → Decl) :
    (arena.updateDecl decl change).decl other = arena.decl other := by
  have apart : decl.raw ≠ other.raw := by
    intro same
    apply different
    cases other
    cases decl
    simp_all
  simp [Arena.decl, updateDecl, Array.getD_eq_getD_getElem?,
    Array.getElem?_setIfInBounds_ne apart]

theorem holds_updateDecl (change : Decl → Decl) (term : Term) :
    (arena.updateDecl decl change).Holds term ↔ arena.Holds term := by
  cases term <;> simp [Holds, updateDecl]

/--
A change of a declaration keeps the name and form of one that is a parameter.
-/
def KeepsParam (arena : Arena) (decl : DeclId) (change : Decl → Decl) : Prop :=
  (arena.decl decl).form.isParam = true →
    (change (arena.decl decl)).name = (arena.decl decl).name ∧
      (change (arena.decl decl)).form = (arena.decl decl).form

/-- A parameter keeps its name and form. -/
private theorem KeepsParam.kept
    {change : Decl → Decl}
    (keeps : arena.KeepsParam decl change)
    {param : DeclId}
    (isParam : (arena.decl param).form.isParam = true)
    (held : arena.Holds (.decl param)) :
    ((arena.updateDecl decl change).decl param).name = (arena.decl param).name ∧
      ((arena.updateDecl decl change).decl param).form =
        (arena.decl param).form := by
  by_cases same : param = decl
  · subst same
    rw [decl_updateDecl held]
    exact keeps isParam
  · rw [decl_updateDecl_of_ne same]
    exact ⟨rfl, rfl⟩

/-- What is parsed owns parameters only, and these are kept. -/
theorem Parsed.updateDecl
    {change : Decl → Decl}
    (keeps : arena.KeepsParam decl change)
    {term : Term}
    (parsed : arena.Parsed term) :
    (arena.updateDecl decl change).Parsed term := by
  refine parsed.transport fun term given => ?_
  have held := (@holds_updateDecl arena decl change term).mpr given.here.1.1
  cases term with
  | decl param =>
      have isParam := given.here.2 param rfl
      obtain ⟨name, form⟩ := keeps.kept isParam given.here.1.1
      refine ⟨⟨⟨held, rfl⟩, ?_⟩, ?_⟩
      · rintro _ ⟨⟩
        rw [form]
        exact isParam
      · intro child owned
        simp only [children, name, form] at owned
        exact given.child owned
  | _ =>
      exact ⟨⟨⟨held, given.here.1.2⟩, fun _ => Term.noConfusion⟩,
        fun child owned => given.child owned⟩

/-- What is due stays so when parameters are kept. -/
private theorem Due.updateDecl
    {change : Decl → Decl}
    (keeps : arena.KeepsParam decl change)
    {term : Term}
    (due : arena.Due term) :
    (arena.updateDecl decl change).Due term := by
  cases due with
  | parsed parsed =>
      exact .parsed (parsed.updateDecl keeps)
  | captured captured inline =>
      refine .captured ⟨(holds_updateDecl change _).mpr captured.1, ?_⟩ inline
      cases term <;> exact captured.2
  | @param param type held name form captured =>
      have isParam : (arena.decl param).form.isParam = true := by
        rw [form]
        rfl
      obtain ⟨sameName, sameForm⟩ := keeps.kept isParam held
      exact .param ((holds_updateDecl change _).mpr held)
        (sameName ▸ name.updateDecl keeps)
        (sameForm.trans form) captured

/--
A change of a declaration gives a succeeding arena if it keeps those counted as
new.
-/
theorem succeeds_updateDecl
    {change : Decl → Decl}
    {low : Nat}
    (keeps : arena.KeepsParam decl change)
    (kept : arena.Holds (.decl decl) → low ≤ decl.raw →
      (arena.updateDecl decl change).DeclKept (arena.decl decl)
        (change (arena.decl decl))) :
    arena.Succeeds (arena.updateDecl decl change) low where
  holds held := (holds_updateDecl change _).mpr held
  parsed parsed := parsed.updateDecl keeps
  due due := due.updateDecl keeps
  definitions _ := rfl
  decls {other} held new := by
    by_cases same : other = decl
    · subst same
      rw [decl_updateDecl held]
      exact kept held new
    · rw [decl_updateDecl_of_ne same]
      exact { name := rfl, form := .same, phase := id }
  stmts _ := .same rfl

end Updating

end Arena

end Tern
