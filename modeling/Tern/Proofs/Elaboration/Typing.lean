import Tern.Proofs.Elaboration.Completion

namespace Tern

/-!
# The first pass types statements

After the first pass over a statement, the declaration in it has reached the
first phase: its types are parsed, and so are those of the declaration below
templates. Type parameters minted on the way are parsed as well.
-/

namespace Arena

/-- A type to be inferred that is found in a parsed type is stored. -/
private theorem holds_of_inferredWithin?
    {arena : Arena}
    {depth : Nat}
    {type slot : TypeId}
    (parsed : arena.Parsed (.type type))
    (found : arena.inferredWithin? depth type = some slot) :
    arena.Holds (.type slot) := by
  induction depth generalizing type with
  | zero => cases found
  | succ depth inductionHypothesis =>
      have below {wrapper : TypeWrapper} {inner : TypeId}
          (form : (arena.type type).form = .wrapped wrapper inner) :
          arena.Parsed (.type inner) :=
        parsed.child (by simp [children, form, TypeForm.children])
      simp only [inferredWithin?] at found
      split at found
      next =>
        cases found
        exact parsed.here.1.1
      next form => exact inductionHypothesis (below form) found
      next form => exact inductionHypothesis (below form) found
      next => cases found

/-- What is known of a parameter that is due. -/
private theorem Due.param_parts
    {arena : Arena}
    {param : DeclId}
    {type : TypeId}
    (due : arena.Due (.decl param))
    (form : (arena.decl param).form = .parameter type) :
    arena.Parsed (.name (arena.decl param).name) ∧ arena.Due (.type type) := by
  cases due with
  | parsed parsed =>
      refine ⟨parsed.child (List.mem_cons_self ..), .parsed (parsed.child ?_)⟩
      simp [children, form, DeclForm.children]
  | captured captured _ => cases captured.2
  | param _ name same captured =>
      rw [form] at same
      cases same
      exact ⟨name, .captured captured Family.noConfusion⟩

/-- A declaration due that is a parameter of no type is parsed. -/
private theorem Due.parsed_of_paramType?
    {arena : Arena}
    {param : DeclId}
    (due : arena.Due (.decl param))
    (none : arena.paramType? param = none) :
    arena.Parsed (.decl param) := by
  cases due with
  | parsed parsed => exact parsed
  | captured captured _ => cases captured.2
  | param _ _ form _ =>
      rw [paramType?, form] at none
      cases none

/-- The form of a declaration that is a parameter of a type. -/
theorem form_of_paramType?
    {arena : Arena}
    {param : DeclId}
    {type : TypeId}
    (some : arena.paramType? param = some type) :
    (arena.decl param).form = .parameter type := by
  unfold paramType? at some
  split at some
  next form =>
    cases some
    exact form
  next => cases some

/--
Behind the elaboration of parameters, what is minted for them is parsed and
indexed from a first index on, and declarations have kept their forms.
-/
structure MintedSince
    (start later : Arena)
    (firstIndex : Nat)
    (minted : List DeclId) :
    Prop where
  parsed : ∀ parm ∈ minted, later.Parsed (.decl parm)
  indexes : later.Indexes firstIndex minted
  same : start.SameForms later

/-- Before anything is minted there is nothing to be indexed. -/
private theorem MintedSince.nil (arena : Arena) (firstIndex : Nat) :
    arena.MintedSince arena firstIndex [] where
  parsed _ listed := absurd listed List.not_mem_nil
  indexes := arena.indexes_nil firstIndex
  same := .refl arena

/-- A template that keeps its form has as many parameters as before. -/
private theorem SameForms.templateParamCounts_eq
    {older newer : Arena}
    (same : older.SameForms newer)
    {wrapper? : Option DeclId}
    (held : ∀ wrapper ∈ wrapper?, older.Holds (.decl wrapper)) :
    wrapper?.map older.templateParamCount =
      wrapper?.map newer.templateParamCount := by
  cases wrapper? with
  | none => rfl
  | some wrapper =>
      simp only [Option.map_some, templateParamCount,
        same.form (held wrapper rfl)]

end Arena

namespace Completes

variable {input : ElabInput} {fixed : StmtId → Prop} {pending : List DeclId}
  {start : Arena}

/-- A term added is parsed if what it owns is. -/
private theorem added
    {Value : Type}
    {change : Arena → Value × Arena}
    {term : Value → Term}
    (extended : start.Extends (change start).2)
    (fresh : (change start).2.IndexedFrom start.decls.size)
    (kept : start.Standing pending → (change start).2.Standing pending)
    (settled : (change start).2.Settled (term (change start).1))
    (owned : ∀ child ∈ (change start).2.children (term (change start).1),
      start.Parsed child) :
    Completes input fixed pending start (Elab.inArena change) fun later value =>
      later.Parsed (term value) ∧ start.Extends later := by
  refine (inArena extended fresh kept).weaken ?_
  rintro _ _ _ _ ⟨rfl, rfl⟩
  exact ⟨extended.parsed_added settled owned, extended⟩

private theorem addPlaceholder (span : Span) :
    Completes input fixed pending start
      (Elab.inArena fun arena => arena.addPlaceholder span)
      fun later name => later.Parsed (.name name) ∧ start.Extends later := by
  have extended := start.extends_addPlaceholder span
  have fresh := start.indexedFrom_size
  refine added extended fresh (fun standing =>
    standing.progress (extended.progress fresh) fun _ => rfl) ?_ ?_
  · exact ⟨⟨by simp [Arena.Holds, Arena.addPlaceholder, Arena.addName], rfl⟩,
      fun _ => Term.noConfusion⟩
  · intro child owned
    rw [Arena.children, Arena.addPlaceholder, Arena.name_addName] at owned
    cases owned

/-- A type added that names a declaration is parsed if the name is. -/
private theorem addDeclared
    {name : NameId}
    (decl : DeclId)
    (span : Span)
    (named : start.Parsed (.name name)) :
    Completes input fixed pending start
      (Elab.inArena fun arena => arena.addType (.declared decl name) span)
      fun later type => later.Parsed (.type type) ∧ start.Extends later := by
  have extended := start.extends_addType (.declared decl name) span
  have fresh := start.indexedFrom_size
  refine added extended fresh (fun standing =>
    standing.progress (extended.progress fresh) fun _ => rfl) ?_ ?_
  · refine ⟨⟨by simp [Arena.Holds, Arena.addType], ?_⟩, fun _ =>
      Term.noConfusion⟩
    rw [Arena.isUnparsed, Arena.type_addType]
    rfl
  · intro child owned
    rw [Arena.children, Arena.type_addType] at owned
    exact List.mem_singleton.mp owned ▸ named

/--
A type parameter added without a default is parsed if its name is, and has its
index.
-/
private theorem addTypeParam
    {decl : Decl}
    {index : Nat}
    (form : decl.form = .typeParameter index none)
    (unfinished : decl.phase ≠ .definitionElaborated)
    (named : start.Parsed (.name decl.name)) :
    Completes input fixed pending start
      (Elab.inArena fun arena => arena.addDecl decl)
      fun later parm =>
        (later.Parsed (.decl parm) ∧ later.Indexes index [parm]) ∧
          start.Extends later := by
  have extended := start.extends_addDecl decl
  have indexes : start.Indexes 0 decl.form.parms := form ▸ start.indexes_nil 0
  have same := start.decl_addDecl decl
  refine (inArena extended (start.indexedFrom_addDecl indexes)
    fun standing => standing.addDecl ?_ (fun wraps => ?_) unfinished
      indexes).weaken ?_
  · simp [form, DeclForm.heads]
  · rw [form] at wraps
    cases wraps
  · rintro _ _ _ _ ⟨rfl, rfl⟩
    refine ⟨⟨extended.parsed_added ?_ ?_, Arena.indexes_singleton ?_⟩,
      extended⟩
    · refine ⟨⟨by simp [Arena.Holds, Arena.addDecl], rfl⟩, ?_⟩
      rintro _ ⟨⟩
      rw [same, form]
      rfl
    · intro child owned
      rw [Arena.children, same, form] at owned
      exact List.mem_singleton.mp owned ▸ named
    · rw [same, form, DeclForm.index?]

/-- A type parameter that is minted is parsed, and has its index. -/
private theorem mintTypeParam
    {slot : TypeId}
    (scope : ScopeId)
    (index : Nat)
    (held : start.Holds (.type slot)) :
    Completes input fixed pending start
        (Elab.mintTypeParam slot scope index) fun later parm =>
      (later.Parsed (.decl parm) ∧ later.Indexes index [parm]) ∧
        start.SameForms later := by
  refine observe (bind (addPlaceholder _)
    fun first name toFirst ⟨named, alikeFirst⟩ => ?_)
  refine bind (addTypeParam rfl Phase.noConfusion named)
    fun second parm toSecond ⟨⟨parsed, indexes⟩, alikeSecond⟩ => ?_
  refine observe (next (Elab.Aside.changeScopes _) fun _ => ?_)
  refine bind (addDeclared parm _ (toSecond.parsed named))
    fun third minted toThird ⟨declared, alikeThird⟩ => ?_
  refine bind (moveType (toThird.holds (toSecond.holds (toFirst.holds held)))
    declared) fun last _ toLast ⟨_, alikeLast⟩ => pure ⟨⟨?_, ?_⟩, ?_⟩
  · exact toLast.parsed (toThird.parsed parsed)
  · exact alikeLast.indexes (alikeThird.indexes indexes)
  · exact (alikeFirst.trans alikeSecond).sameForms.trans
      (alikeThird.sameForms.trans alikeLast)

/--
The type of a parameter is completed, and what is minted for it follows what was
minted before.
-/
private theorem elaborateParam
    {origin : Arena}
    {minted : List DeclId}
    {param : DeclId}
    {firstIndex : Nat}
    (scope : ScopeId)
    (due : start.Due (.decl param))
    (mints : Arena.MintedSince origin start firstIndex minted) :
    Completes input fixed pending start
      (Elab.elaborateParam scope firstIndex minted param)
      fun later more => later.Parsed (.decl param) ∧
        Arena.MintedSince origin later firstIndex more := by
  refine observe ?_
  split
  next none => exact pure ⟨due.parsed_of_paramType? none, mints⟩
  next type some =>
    have form := Arena.form_of_paramType? some
    obtain ⟨named, dueType⟩ := due.param_parts form
    refine bind (completeTypeInPlace scope dueType)
      fun first _ toFirst ⟨parsedType, alikeFirst⟩ => observe ?_
    have parsedParam : first.Parsed (.decl param) := by
      have formNow : (first.decl param).form = .parameter type :=
        (toFirst.form_eq due.holds (by rw [form]; rfl)).trans form
      refine Arena.parsed_param (toFirst.holds due.holds)
        (by rw [formNow]; rfl) ?_ ?_
      · exact toFirst.name_eq due.holds ▸ toFirst.parsed named
      · rw [formNow]
        exact List.forall_mem_singleton.mpr parsedType
    have alikeRaised (arena : Arena) : arena.SameForms
        (arena.updateDecl param fun old => old.raiseTo .typeElaborated) :=
      .updateDecl rfl
    split
    next =>
      refine bind (raiseParsed _ parsedParam) ?_
      rintro _ _ toSecond rfl
      have alike := alikeFirst.trans (alikeRaised first)
      exact pure ⟨toSecond.parsed parsedParam,
        { parsed := fun parm listed =>
            (toFirst.trans toSecond).parsed (mints.parsed parm listed)
          indexes := alike.indexes mints.indexes
          same := mints.same.trans alike }⟩
    next slot found =>
      have held := Arena.holds_of_inferredWithin? parsedType found
      refine bind (mintTypeParam scope _ held)
        fun second parm toSecond ⟨⟨new, index⟩, alikeSecond⟩ => ?_
      refine bind (raiseParsed _ (toSecond.parsed parsedParam)) ?_
      rintro _ _ toThird rfl
      have alike := alikeFirst.trans (alikeSecond.trans (alikeRaised second))
      refine pure ⟨toThird.parsed (toSecond.parsed parsedParam), ?_⟩
      exact
        { parsed := List.forall_mem_append.mpr
            ⟨fun parm listed =>
              (toFirst.trans (toSecond.trans toThird)).parsed
                (mints.parsed parm listed),
              List.forall_mem_singleton.mpr (toThird.parsed new)⟩
          indexes := (alike.indexes mints.indexes).append
            ((alikeRaised second).indexes index)
          same := mints.same.trans alike }

/--
The types of all parameters are completed, and what is minted for them follows
what was minted before.
-/
private theorem elaborateParams
    {origin : Arena}
    {minted params : List DeclId}
    {firstIndex : Nat}
    (scope : ScopeId)
    (due : ∀ param ∈ params, start.Due (.decl param))
    (mints : Arena.MintedSince origin start firstIndex minted) :
    Completes input fixed pending start
      (params.foldlM (Elab.elaborateParam scope firstIndex) minted)
          fun later more =>
        (∀ param ∈ params, later.Parsed (.decl param)) ∧
          Arena.MintedSince origin later firstIndex more := by
  induction params generalizing start minted with
  | nil => exact pure ⟨List.forall_mem_nil _, mints⟩
  | cons param params inductionHypothesis =>
      obtain ⟨first, others⟩ := List.forall_mem_cons.mp due
      refine bind (elaborateParam scope first mints)
        fun middle more later known => ?_
      refine (inductionHypothesis
        (fun other listed => later.due (others other listed))
        known.2).weaken fun final _ order _ ⟨rest, all⟩ => ⟨?_, all⟩
      exact List.forall_mem_cons.mpr ⟨order.parsed known.1, rest⟩

/--
Parsed parameters are added to a template, if they are indexed on behind its
own.
-/
private theorem extendTemplate
    {wrapper : DeclId}
    {more : List DeclId}
    (parsed : ∀ parm ∈ more, start.Parsed (.decl parm))
    (indexes : start.Indexes (start.templateParamCount wrapper) more) :
    Completes input fixed pending start (Elab.extendTemplate wrapper more)
      fun _ _ => True := by
  have progress := Arena.progress_extendTemplate wrapper parsed
    fun {parms} _ _ form => by
      rwa [Arena.templateParamCount, form] at indexes
  refine (changeArena progress (fun _ _ => rfl) fun standing =>
    standing.progress progress fun decl => ?_).weaken fun _ _ _ _ _ => trivial
  refine Arena.phase_updateDecl ?_ decl
  split <;> rfl

/-- A template with parsed parameters is added around a declaration. -/
private theorem addWrapper
    {decl : DeclId}
    {parms : List DeclId}
    {added : Decl}
    (form : added.form = .template parms none decl)
    (phase : added.phase = .typeElaborated)
    (named : start.Parsed (.name added.name))
    (elaborated : (start.decl decl).phase ≠ .unelaborated)
    (parsed : ∀ parm ∈ parms, start.Parsed (.decl parm))
    (indexes : start.Indexes 0 parms) :
    Completes input fixed pending start
      (Elab.inArena fun arena => arena.addDecl added)
      fun later wrapper =>
        later.Wrapper decl wrapper parms ∧ (later.decl wrapper).phase ≠
          .unelaborated := by
  have extended := start.extends_addDecl added
  have indexes : start.Indexes 0 added.form.parms := form ▸ indexes
  refine (inArena extended (start.indexedFrom_addDecl indexes) fun standing =>
    standing.addDecl ?_ (fun wraps => ?_) ?_ indexes).weaken ?_
  · simpa [form, DeclForm.heads] using parsed
  · rw [form] at wraps
    cases wraps
    exact elaborated
  · rw [phase]
    exact Phase.noConfusion
  · rintro _ wrapper _ _ ⟨rfl, rfl⟩
    have same := start.decl_addDecl added
    refine ⟨{ held := by simp [Arena.Holds, Arena.addDecl], name := ?_,
              form := ?_, parameters := ?_ }, ?_⟩
    · rw [same]
      exact extended.parsed named
    · rw [same, form]
    · exact fun parm listed => extended.parsed (parsed parm listed)
    · rw [same, phase]
      exact Phase.noConfusion

/--
A template takes the place of the declaration that it is around in a statement.
-/
private theorem placeWrapper
    {stmt : StmtId}
    {decl wrapper : DeclId}
    {parms : List DeclId}
    (wraps : start.Wrapper decl wrapper parms)
    (elaborated : (start.decl wrapper).phase ≠ .unelaborated)
    (plain : (start.decl decl).form.isTemplate = false)
    (other : (start.decl decl).form.isParam = false)
    (held : start.Holds (.stmt stmt))
    (declared : (start.stmt stmt).form = .declaration decl)
    (free : ¬ fixed stmt) :
    Completes input fixed pending start
      (Elab.changeArena fun arena =>
        arena.setStmtForm stmt (.declaration wrapper))
      fun _ _ => True := by
  have progress :=
    Arena.progress_wrap held declared plain other wraps elaborated
  refine (changeArena progress (fun {next} kept _ => ?_) fun standing =>
    standing.progress progress fun _ => rfl).weaken fun _ _ _ _ _ => trivial
  have apart : next ≠ stmt := by
    rintro rfl
    exact free kept
  rw [Arena.stmt_setStmtForm_of_ne apart]

/-- A declaration gets a template with parsed parameters around it. -/
private theorem wrapInTemplate
    {stmt? : Option StmtId}
    {decl : DeclId}
    {parms : List DeclId}
    (named : start.Parsed (.name (start.decl decl).name))
    (plain : (start.decl decl).form.isTemplate = false)
    (other : (start.decl decl).form.isParam = false)
    (elaborated : (start.decl decl).phase ≠ .unelaborated)
    (around : ∀ stmt ∈ stmt?, start.Holds (.stmt stmt) ∧
      (start.stmt stmt).form = .declaration decl ∧ ¬ fixed stmt)
    (parsed : ∀ parm ∈ parms, start.Parsed (.decl parm))
    (indexes : start.Indexes 0 parms) :
    Completes input fixed pending start (Elab.wrapInTemplate stmt? decl parms)
      fun _ _ => True := by
  have held := Arena.holds_of_phase_ne elaborated
  have everything : ∀ stmt, fixed stmt → (fun _ : StmtId => True) stmt :=
    fun _ _ => trivial
  refine observe
    (bindWider everything (addWrapper rfl rfl named elaborated parsed indexes)
      ?_)
  rintro middle wrapper later ⟨wraps, typed⟩
  have same := later.form_eq held plain
  cases stmt? with
  | none =>
      exact bind (changeArena
        ((Arena.Extends.refl middle).progress middle.indexedFrom_size)
        (fun _ _ => rfl) id)
        fun _ _ _ _ => observe (beside (.changeScopes _))
  | some stmt =>
      obtain ⟨stored, declared, free⟩ := around stmt rfl
      exact bind (placeWrapper wraps typed (same ▸ plain) (same ▸ other)
        (later.holds stored)
        ((later.stmts trivial stored).trans declared) free) fun _ _ _ _ =>
          observe (beside (.changeScopes _))

/--
The minted parameters go to the template around a declaration, or to a new one.
-/
private theorem addTemplateParams
    {stmt? : Option StmtId}
    {decl : DeclId}
    {minted : List DeclId}
    {wrapper? : Option DeclId}
    (named : start.Parsed (.name (start.decl decl).name))
    (plain : (start.decl decl).form.isTemplate = false)
    (other : (start.decl decl).form.isParam = false)
    (elaborated : (start.decl decl).phase ≠ .unelaborated)
    (around : ∀ stmt ∈ stmt?, start.Holds (.stmt stmt) ∧
      (start.stmt stmt).form = .declaration decl ∧ ¬ fixed stmt)
    (parsed : ∀ parm ∈ minted, start.Parsed (.decl parm))
    (indexes : start.Indexes
      ((wrapper?.map start.templateParamCount).getD 0) minted) :
    Completes input fixed pending start
      (Elab.addTemplateParams stmt? decl wrapper? minted)
      fun _ _ => True := by
  unfold Elab.addTemplateParams
  split
  · exact pure trivial
  · split
    · exact extendTemplate parsed indexes
    · exact wrapInTemplate named plain other elaborated around parsed indexes

/--
A declaration whose heads are parsed reaches the first phase, and no declaration
changes its form.
-/
private theorem raiseTyped
    {decl : DeclId}
    (held : start.Holds (.decl decl))
    (plain : (start.decl decl).form.isTemplate = false)
    (heads : ∀ head ∈ (start.decl decl).form.heads, start.Parsed head) :
    Completes input fixed pending start
        (Elab.raise decl .typeElaborated) fun later _ =>
      (later.decl decl).phase ≠ .unelaborated ∧ start.SameForms later := by
  refine (raise held heads (fun _ _ _ _ form => ?_) Phase.noConfusion).weaken ?_
  · rw [form] at plain
    cases plain
  · rintro _ _ _ _ rfl
    exact ⟨Arena.phase_raise_ne held Phase.noConfusion, .updateDecl rfl⟩

private theorem registerOpenMethod (decl : DeclId) (params : List DeclId) :
    (Elab.registerOpenMethod decl params).Aside := by
  refine .bind .environment fun _ => .bind .arena fun arena => ?_
  split
  · split
    · exact .find _
    · exact .pure _
  · exact .pure _

/-- The types of a callable declaration are completed. -/
private theorem elaborateSignature
    {stmt? : Option StmtId}
    {decl : DeclId}
    {role : CallableRole}
    {params : List DeclId}
    {result : TypeId}
    {definition : DefId}
    {wrapper? : Option DeclId}
    (held : start.Holds (.decl decl))
    (named : start.Parsed (.name (start.decl decl).name))
    (form : (start.decl decl).form = .callable role params result definition)
    (heads : ∀ head ∈ (start.decl decl).form.heads, start.Due head)
    (wraps : ∀ wrapper ∈ wrapper?, start.Holds (.decl wrapper))
    (around : ∀ stmt ∈ stmt?, start.Holds (.stmt stmt) ∧
      (start.stmt stmt).form = .declaration decl ∧ ¬ fixed stmt) :
    Completes input fixed pending start
      (Elab.elaborateSignature stmt? decl params result wrapper?) fun later _ =>
        (later.decl decl).phase ≠ .unelaborated := by
  have everything : ∀ stmt, fixed stmt → (fun _ : StmtId => True) stmt :=
    fun _ _ => trivial
  have plain : (start.decl decl).form.isTemplate = false := by rw [form]; rfl
  have other : (start.decl decl).form.isParam = false := by rw [form]; rfl
  simp only [form, DeclForm.heads, List.forall_mem_append, List.forall_mem_map,
    List.forall_mem_singleton] at heads
  refine observe (next (.inScopes _) fun scope => ?_)
  refine bindWider everything
    (elaborateParams scope heads.1 (.nil start _)) ?_
  rintro first minted toFirst ⟨parsedParams, mints⟩
  refine bindWider everything
    (completeTypeInPlace scope (toFirst.due heads.2)) ?_
  rintro second _ toSecond ⟨parsedResult, alikeSecond⟩
  have toHere := toFirst.trans toSecond
  have same := toHere.form_eq held plain
  refine bindWider everything (raiseTyped (toHere.holds held) (same ▸ plain) ?_)
    ?_
  · simp only [same, form, DeclForm.heads, List.forall_mem_append,
      List.forall_mem_map, List.forall_mem_singleton]
    exact ⟨fun param listed => toSecond.parsed (parsedParams param listed),
      parsedResult⟩
  rintro third _ toThird ⟨elaborated, alikeThird⟩
  have toLast := toHere.trans toThird
  have sameLast := toLast.form_eq held plain
  have alike := alikeSecond.trans alikeThird
  refine next (registerOpenMethod decl params) fun _ => ?_
  refine (addTemplateParams ?_ (sameLast ▸ plain) (sameLast ▸ other)
    elaborated
    (fun stmt given => ?_) (fun parm listed => ?_) ?_).weaken
      fun _ _ later _ _ => later.phase_ne elaborated
  · exact toLast.name_eq held ▸ toLast.parsed named
  · obtain ⟨stored, declared, free⟩ := around stmt given
    exact ⟨toLast.holds stored, (toLast.stmts trivial stored).trans declared,
      free⟩
  · exact (toSecond.trans toThird).parsed (mints.parsed parm listed)
  · have count := (mints.same.trans alike).templateParamCounts_eq wraps
    exact count ▸ alike.indexes mints.indexes

/-- The type of a base is completed. -/
private theorem elaborateBase
    {type : TypeId}
    (decl : DeclId)
    (scope : ScopeId)
    (due : start.Due (.type type)) :
    Completes input fixed pending start
        (Elab.elaborateBase decl type scope) fun later _ =>
      later.Parsed (.type type) := by
  refine bind (completeType scope due) fun middle _ _ parsed => observe ?_
  split
  · exact pure parsed
  · exact (beside (.recordFault _ _)).weaken fun _ _ later _ _ =>
      later.parsed parsed

/-- A declaration reaches the first phase once its only head is completed. -/
private theorem raiseBehind
    {decl : DeclId}
    {head : Term}
    {action : Elab Unit}
    (held : start.Holds (.decl decl))
    (plain : (start.decl decl).form.isTemplate = false)
    (only : (start.decl decl).form.heads = [head])
    (completes : Completes input fixed pending start action fun later _ =>
      later.Parsed head) :
    Completes input fixed pending start
      (action >>= fun _ => Elab.raise decl .typeElaborated)
      fun later _ => (later.decl decl).phase ≠ .unelaborated := by
  refine bind completes fun middle _ later parsed => ?_
  have same := later.form_eq held plain
  refine (raiseTyped (later.holds held) (same ▸ plain) ?_).weaken
    fun _ _ _ _ => And.left
  rw [same, only]
  exact List.forall_mem_singleton.mpr parsed

/--
A template reaches the first phase before what it is around does. The template
is pending until what it is around has reached the phase as well.
-/
private theorem typeTemplate
    {decl inner : DeclId}
    {parms : List DeclId}
    {constraint? : Option ExprId}
    {action : Elab Unit}
    (held : start.Holds (.decl decl))
    (form : (start.decl decl).form = .template parms constraint? inner)
    (heads : ∀ head ∈ (start.decl decl).form.heads, start.Parsed head)
    (completes : ∀ middle, start.Later fixed middle → middle.decls.size =
      start.decls.size →
      Completes input fixed (decl :: pending) middle action fun later _ =>
        (later.decl inner).phase ≠ .unelaborated) :
    Completes input fixed pending start
      (do
        Elab.raiseAll parms .typeElaborated
        Elab.raise decl .typeElaborated
        action) fun later _ => (later.decl decl).phase ≠ .unelaborated := by
  have parameters : ∀ parm ∈ parms, start.Parsed (.decl parm) :=
    fun parm listed =>
    heads _ (by simp [form, DeclForm.heads, listed])
  have inside : Completes input fixed (decl :: pending) start
      (do
        Elab.raiseAll parms .typeElaborated
        Elab.raise decl .typeElaborated
        action) fun later _ => (later.decl decl).phase ≠ .unelaborated ∧
          (later.decl inner).phase ≠ .unelaborated := by
    refine bind (raiseAll _ parameters) fun first _ toFirst size => ?_
    have heldNow := toFirst.holds held
    refine bind (raise heldNow (toFirst.heads held heads)
      (fun settled => absurd (List.mem_cons_self ..) settled) Phase.noConfusion)
        ?_
    rintro second _ toSecond rfl
    have elaborated :=
      Arena.phase_raise_ne heldNow Phase.typeElaborated.noConfusion
    refine (completes _ (toFirst.trans toSecond) ?_).weaken
        fun _ _ order _ typed =>
      ⟨order.phase_ne elaborated, typed⟩
    simpa [Arena.updateDecl] using size
  refine (settle inside fun later _ order known => ?_).weaken fun _ _ _ _ =>
    And.left
  intro _ _ other formNow
  have same := (order.owned_eq held).2
  rw [formNow, form] at same
  cases same
  exact known.2

/--
A declaration that is ready reaches the first phase. A template is stored before
what it is around, which bounds the depth.
-/
theorem elaborateTypeWithin
    {depth bound : Nat}
    {stmt? : Option StmtId}
    {wrapper? : Option DeclId}
    {decl : DeclId}
    (ready : start.Ready 0 bound (.decl decl))
    (deep : start.decls.size < depth + decl.raw)
    (typed : ∀ stmt, fixed stmt → start.Typed stmt)
    (wraps : ∀ wrapper ∈ wrapper?, start.Holds (.decl wrapper))
    (around : ∀ stmt ∈ stmt?, start.Holds (.stmt stmt) ∧
      (start.stmt stmt).form = .declaration decl) :
    Completes input fixed pending start
      (Elab.elaborateTypeWithin depth stmt? wrapper? decl)
      fun later _ => (later.decl decl).phase ≠ .unelaborated := by
  induction depth generalizing start pending stmt? wrapper? decl bound with
  | zero =>
      have held : decl.raw < start.decls.size := ready.holds
      omega
  | succ depth inductionHypothesis =>
      refine observe (ite (fun early => ?_) fun later => pure later)
      have held := ready.holds
      have free : ∀ stmt ∈ stmt?, start.Holds (.stmt stmt) ∧
          (start.stmt stmt).form = .declaration decl ∧ ¬ fixed stmt :=
            fun stmt given =>
        have ⟨stored, declared⟩ := around stmt given
        ⟨stored, declared, fun kept =>
          (typed stmt kept).elaborated decl declared early⟩
      cases ready with
      | defined _ _ named heads defines takes =>
          have plain := DeclForm.isTemplate_eq_false defines
          cases form : (start.decl decl).form with
          | object role type definition =>
              have due : start.Due (.type type) :=
                heads _ (by simp [form, DeclForm.heads])
              have only : (start.decl decl).form.heads = [.type type] := by
                rw [form]; rfl
              cases role with
              | base =>
                  exact raiseBehind held plain only (elaborateBase _ _ due)
              | _ => exact raiseBehind held plain only (completeType _ due)
          | callable role params result definition =>
              exact elaborateSignature held named form heads wraps free
          | classType kind definition =>
              have due : start.Due (.type kind) :=
                heads _ (by simp [form, DeclForm.heads])
              exact raiseBehind held plain (by rw [form]; rfl)
                (completeType _ due)
          | concept parms definition =>
              rw [form] at takes
              cases takes
          | _ =>
              rw [form] at defines
              cases defines
      | concept _ _ _ form parameters _ _ =>
          have plain : (start.decl decl).form.isTemplate = false := by
            rw [form]; rfl
          rw [form]
          have heads : ∀ head ∈ (start.decl decl).form.heads,
              start.Parsed head := by
            rw [form]
            exact List.forall_mem_map.mpr parameters
          exact bind (raiseAll _ parameters) fun middle _ later _ =>
            (raiseTyped (later.holds held) (later.form_eq held plain ▸ plain)
              (later.heads held heads)).weaken fun _ _ _ _ => And.left
      | @template _ _ _ wrapped parms constraint? _ _ _ form heads ready
          order _ =>
          have deeper : start.decls.size < depth + wrapped.raw := by
            have := order early
            omega
          rw [form]
          refine typeTemplate held form heads fun middle later size =>
            inductionHypothesis (later.ready ready) (size ▸ deeper)
              (fun stmt kept => later.typed kept (typed stmt kept))
              (fun _ given => Option.some.inj given ▸ later.holds held)
              fun _ given => by cases given
      | namespaceBlock _ _ _ form _ _ =>
          rw [form]
          exact refuseNamespace form _

/--
The parameters of requires-expressions in a declaration that is ready reach a
phase.
-/
theorem raiseRequiresParams
    {bound : Nat}
    {decl : DeclId}
    (phase : Phase)
    (ready : start.Ready 0 bound (.decl decl)) :
    Completes input fixed pending start (Elab.raiseRequiresParams decl phase)
      fun _ _ => True :=
  observe ((raiseAll phase fun _ listed =>
    ready.parsed_ownedRequiresParams listed).weaken
    fun _ _ _ _ _ => trivial)

/-- A statement holds a declaration, or none. -/
theorem declarationOf?
    {Next : Type}
    {stmt : StmtId}
    {next : Option DeclId → Elab Next}
    {final : Arena → Next → Prop}
    (none : (start.stmt stmt).form.isDeclaration = false →
      Completes input fixed pending start (next none) final)
    (some : ∀ decl, (start.stmt stmt).form = .declaration decl →
      Completes input fixed pending start (next (some decl)) final) :
    Completes input fixed pending start (Elab.declarationOf? stmt >>= next)
      final := by
  refine behind fun state same => ?_
  subst same
  have run := Elab.declarationOf?_run stmt input state
  simp only [Action.run] at run
  cases form : (state.arena.stmt stmt).form with
  | declaration decl =>
      rw [form] at run
      exact ⟨_, state, run, rfl, some decl form⟩
  | _ =>
      rw [form] at run
      exact ⟨_, state, run, rfl, none (by rw [form]; rfl)⟩

/-- A statement that is ready is typed. -/
theorem elaborateTypes
    {bound : Nat}
    {stmt : StmtId}
    (ready : start.Ready 0 bound (.stmt stmt))
    (typed : ∀ other, fixed other → start.Typed other) :
    Completes input fixed pending start
        (Elab.elaborateTypes stmt) fun later _ =>
      later.Typed stmt := by
  refine declarationOf? (fun plain => pure (ready.typed plain)) fun decl form =>
    observe ?_
  obtain ⟨inner, _, inside⟩ := ready.declared form
  refine bind (elaborateTypeWithin inside (by omega) typed
      (fun _ given => by cases given) ?_)
    fun middle _ later elaborated => ?_
  · rintro _ ⟨⟩
    exact ⟨ready.holds, form⟩
  · refine (raiseRequiresParams _ (later.ready inside)).weaken
      fun final _ order _ _ => ?_
    refine (later.trans order).typed_of ready.holds ready.present
      fun other same => ?_
    rw [form] at same
    cases same
    exact order.phase_ne elaborated

/--
The first pass types all statements, each of which keeps its form from then on.
-/
theorem elaborateAllTypes
    {stmts : List StmtId}
    (ready : ∀ stmt ∈ stmts, ∃ bound, start.Ready 0 bound (.stmt stmt))
    (typed : ∀ other, fixed other → start.Typed other) :
    Completes input fixed pending start
        (stmts.forM Elab.elaborateTypes) fun later _ =>
      ∀ stmt ∈ stmts, later.Typed stmt := by
  induction stmts generalizing fixed start with
  | nil => exact pure (List.forall_mem_nil _)
  | cons stmt stmts inductionHypothesis =>
      obtain ⟨⟨bound, first⟩, others⟩ := List.forall_mem_cons.mp ready
      refine bind (elaborateTypes first typed) fun middle _ later typedFirst =>
        ?_
      have wider : ∀ other, fixed other ∨ other = stmt →
          middle.Typed other := by
        rintro other (kept | rfl)
        · exact later.typed kept (typed other kept)
        · exact typedFirst
      have rest := @inductionHypothesis _ middle
        (fun other listed => (others other listed).imp fun _ => later.ready)
          wider
      refine (rest.weaken fun final _ order _ typedRest => ?_).narrow fun _ =>
        .inl
      exact List.forall_mem_cons.mpr
        ⟨order.typed (.inr rfl) typedFirst, typedRest⟩

end Completes

end Tern
