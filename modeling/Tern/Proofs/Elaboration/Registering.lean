import Tern.Proofs.Elaboration.Hushing
import Tern.Proofs.Elaboration.Rephasing
import Tern.Proofs.Elaboration.Steadiness
import Tern.Proofs.Elaboration.Typing
import Tern.Proofs.Term.Trails

namespace Tern

/-!
# What is registered

Open methods tell which functions were registered under a name, and in which
order. Typing a declaration that is not typed yet registers the function that it
is below its templates, if a parameter of it is marked `virtual`.
-/

namespace OpenMethods

/-- Register functions under their names, one after the other. -/
def registerAll (methods : OpenMethods) (joining : List (Name × DeclId)) :
    OpenMethods :=
  joining.foldl (fun methods joined => methods.register joined.1 joined.2)
    methods

theorem registerAll_append
    (methods : OpenMethods)
    (joining more : List (Name × DeclId)) :
    methods.registerAll (joining ++ more) =
      (methods.registerAll joining).registerAll more :=
  List.foldl_append

private theorem overriders_cons
    (known name : Name)
    (decls : List DeclId)
    (rest : List (Name × List DeclId)) :
    overriders { methods := (known, decls) :: rest } name =
      if known = name then decls else overriders { methods := rest } name := by
  rw [overriders, List.lookup_cons]
  by_cases same : known = name
  · subst same
    simp
  · have apart : (name == known) = false :=
      beq_eq_false_iff_ne.mpr (Ne.symm same)
    rw [apart, if_neg same, overriders]

/-- A function is registered at the end of those of its name. -/
private theorem overriders_register
    (methods : OpenMethods)
    (name other : Name)
    (decl : DeclId) :
    (methods.register name decl).overriders other =
      methods.overriders other ++ if name = other then [decl] else [] := by
  obtain ⟨methods⟩ := methods
  rw [register]
  induction methods with
  | nil =>
      rw [addTo, overriders_cons]
      split <;> simp [overriders]
  | cons method rest inductionHypothesis =>
      obtain ⟨known, decls⟩ := method
      rw [overriders_cons, addTo]
      by_cases same : known = name
      · subst same
        rw [if_pos rfl, overriders_cons]
        split <;> simp
      · rw [if_neg same, overriders_cons, inductionHypothesis]
        split
        next here =>
          rw [if_neg fun now => same (here.trans now.symm), List.append_nil]
        next => rfl

/-- Functions are registered in order. -/
theorem overriders_registerAll
    (methods : OpenMethods)
    (joining : List (Name × DeclId))
    (name : Name) :
    (methods.registerAll joining).overriders name =
      methods.overriders name ++ (joining.filter (·.1 = name)).map
        Prod.snd := by
  induction joining generalizing methods with
  | nil => simp [registerAll]
  | cons joined joining inductionHypothesis =>
      have next : methods.registerAll (joined :: joining) =
          (methods.register joined.1 joined.2).registerAll joining := rfl
      rw [next, inductionHypothesis, overriders_register, List.filter_cons]
      by_cases same : joined.1 = name <;> simp [same]

/--
Open methods kept as two tables: the base of each name, and the overriders of
each name.
-/
structure Tables where
  base? : Name → Option DeclId
  overriders : Name → List DeclId

/--
A function is the base of its name if that has none, and overrides it in any
case.
-/
def Tables.register
    (tables : Tables)
    (name : Name)
    (decl : DeclId) :
    Tables where
  base? :=
    Function.update tables.base? name (some ((tables.base? name).getD decl))
  overriders :=
    Function.update tables.overriders name (tables.overriders name ++ [decl])

/-- The two tables that the functions of each name stand for. -/
def tables (methods : OpenMethods) : Tables where
  base? := methods.base?
  overriders := methods.overriders

/-- Registering enters a function in both tables. -/
private theorem tables_register
    (methods : OpenMethods)
    (name : Name)
    (decl : DeclId) :
    (methods.register name decl).tables =
      methods.tables.register name decl := by
  have entered (other : Name) := methods.overriders_register name other decl
  have overriders : (methods.register name decl).overriders =
      Function.update methods.overriders name
        (methods.overriders name ++ [decl]) := by
    funext other
    by_cases same : name = other
    · subst same
      rw [entered, if_pos rfl, Function.update_self]
    · rw [entered, if_neg same, List.append_nil,
        Function.update_of_ne (Ne.symm same)]
  have base : (methods.register name decl).base? =
      Function.update methods.base? name
        (some ((methods.base? name).getD decl)) := by
    funext other
    by_cases same : name = other
    · subst same
      rw [Function.update_self, base?, base?, entered, if_pos rfl,
        List.head?_append, List.head?_singleton]
      cases (methods.overriders name).head? <;> rfl
    · rw [base?, entered, if_neg same, List.append_nil,
        Function.update_of_ne (Ne.symm same), base?]
  rw [tables, base, overriders]
  rfl

/-- So does registering functions one after the other. -/
theorem tables_registerAll
    (methods : OpenMethods)
    (joining : List (Name × DeclId)) :
    (methods.registerAll joining).tables =
      joining.foldl (fun tables joined => tables.register joined.1 joined.2)
        methods.tables := by
  induction joining generalizing methods with
  | nil => rfl
  | cons joined joining inductionHypothesis =>
      rw [List.foldl_cons, ← tables_register]
      exact inductionHypothesis (methods.register joined.1 joined.2)

/-- The names under which functions are registered. -/
def names (methods : OpenMethods) : List Name :=
  methods.methods.map Prod.fst

/-- No name is registered twice, and none without a function. -/
structure Proper (methods : OpenMethods) : Prop where
  distinct : methods.names.Nodup
  inhabited : ∀ method ∈ methods.methods, method.2 ≠ []

theorem proper_empty : empty.Proper where
  distinct := List.nodup_nil
  inhabited := List.forall_mem_nil _

private theorem mem_addTo
    {name : Name}
    {decl : DeclId}
    {methods : List (Name × List DeclId)}
    {method : Name × List DeclId}
    (listed : method ∈ addTo name decl methods) :
    method ∈ methods ∨ method.1 = name ∧ method.2 ≠ [] := by
  induction methods with
  | nil =>
      obtain rfl := List.mem_singleton.mp listed
      exact .inr ⟨rfl, List.cons_ne_nil _ _⟩
  | cons known rest inductionHypothesis =>
      obtain ⟨known, decls⟩ := known
      rw [addTo] at listed
      split at listed
      next same =>
        rcases List.mem_cons.mp listed with rfl | old
        · exact .inr ⟨same, by simp⟩
        · exact .inl (List.mem_cons_of_mem _ old)
      next =>
        rcases List.mem_cons.mp listed with rfl | old
        · exact .inl (List.mem_cons_self ..)
        · exact (inductionHypothesis old).imp_left (List.mem_cons_of_mem _)

private theorem nodup_addTo
    {methods : List (Name × List DeclId)}
    (distinct : (methods.map Prod.fst).Nodup)
    (name : Name)
    (decl : DeclId) :
    ((addTo name decl methods).map Prod.fst).Nodup := by
  induction methods with
  | nil => exact List.nodup_singleton _
  | cons known rest inductionHypothesis =>
      obtain ⟨known, decls⟩ := known
      obtain ⟨new, others⟩ := List.nodup_cons.mp distinct
      rw [addTo]
      split
      next => exact distinct
      next apart =>
        refine List.nodup_cons.mpr
          ⟨fun listed => ?_, inductionHypothesis others⟩
        obtain ⟨method, member, same⟩ := List.mem_map.mp listed
        rcases mem_addTo member with old | ⟨named, -⟩
        · exact new (List.mem_map.mpr ⟨method, old, same⟩)
        · exact apart (same.symm.trans named)

private theorem Proper.register
    {methods : OpenMethods}
    (proper : methods.Proper)
    (name : Name)
    (decl : DeclId) :
    (methods.register name decl).Proper where
  distinct := nodup_addTo proper.distinct name decl
  inhabited method listed :=
    (mem_addTo listed).elim (proper.inhabited method) And.right

theorem Proper.registerAll
    {methods : OpenMethods}
    (proper : methods.Proper)
    (joining : List (Name × DeclId)) :
    (methods.registerAll joining).Proper := by
  induction joining generalizing methods with
  | nil => exact proper
  | cons joined joining inductionHypothesis =>
      exact inductionHypothesis (proper.register _ _)

/-- A name is registered if some function is registered under it. -/
theorem Proper.mem_names
    {methods : OpenMethods}
    (proper : methods.Proper)
    {name : Name} :
    name ∈ methods.names ↔ methods.overriders name ≠ [] := by
  rw [overriders]
  cases found : methods.methods.lookup name with
  | none =>
      have absent := List.lookup_eq_none_iff.mp found
      refine iff_of_false (fun listed => ?_) (by simp)
      obtain ⟨method, member, rfl⟩ := List.mem_map.mp listed
      simpa using absent method member
  | some decls =>
      obtain ⟨before, after, same, -⟩ := List.lookup_eq_some_iff.mp found
      have member : (name, decls) ∈ methods.methods := by simp [same]
      exact iff_of_true (List.mem_map.mpr ⟨_, member, rfl⟩)
        (proper.inhabited _ member)

end OpenMethods

/-- The parameters of a template or a concept are among its heads. -/
private theorem DeclForm.mem_heads_of_parms
    {form : DeclForm}
    {parm : DeclId}
    (listed : parm ∈ form.parms) :
    .decl parm ∈ form.heads := by
  cases form <;> simp_all [parms, heads]

/-- The identifier that a name is. -/
def NameForm.simple? : NameForm → Option Name
  | .simple name => some name
  | _ => none

namespace Arena

variable {arena older newer : Arena}

/-- The declaration that some templates are around, down to a depth. -/
def innermostWithin (arena : Arena) : Nat → DeclId → DeclId
  | 0, decl => decl
  | depth + 1, decl =>
      match (arena.decl decl).form with
      | .template _ _ inner => arena.innermostWithin depth inner
      | _ => decl

/--
The name under which a function joins an open method, which takes a parameter
marked `virtual`.
-/
def openName? (arena : Arena) (decl : DeclId) : Option Name :=
  match (arena.decl decl).form with
  | .callable _ params _ _ =>
      if params.any arena.isVirtualParam
        then (arena.name (arena.decl decl).name).form.simple?
      else none
  | _ => none

/--
The functions among declarations that join open methods, each under its name.
-/
def joining (arena : Arena) (decls : List DeclId) : List (Name × DeclId) :=
  decls.filterMap fun decl => (arena.openName? decl).map fun name =>
    (name, decl)

/-- A parameter keeps its slot for a type. -/
theorem Framed.paramType?_eq
    {input : ElabInput}
    {origin : Arena}
    {decl : DeclId}
    (framed : Arena.Framed input origin older newer)
    (held : older.Holds (.decl decl)) :
    newer.paramType? decl = older.paramType? decl := by
  rcases (framed.decl held).form with same | ⟨_, _, _, _, was, now, -⟩
  · rw [paramType?, paramType?, same]
  · rw [paramType?, paramType?, was, now]

/-- Elaboration keeps labels. -/
theorem Framed.labels
    {input : ElabInput}
    {origin : Arena}
    (framed : Arena.Framed input origin older newer) :
    older.Labels newer where
  held := framed.held
  name := framed.name
  named held := (framed.decl held).name
  specifiers held := (framed.decl held).specifiers
  param held := congrArg Option.isSome (framed.paramType?_eq held)

/-- A label tells whether a parameter is marked `virtual`. -/
private theorem Labels.isVirtualParam_eq
    (labels : older.Labels newer)
    {decl : DeclId}
    (held : older.Holds (.decl decl)) :
    newer.isVirtualParam decl = older.isVirtualParam decl := by
  rw [isVirtualParam, isVirtualParam, labels.param held, labels.specifiers held]

/-- A declaration is no parameter if it is ready. -/
theorem Ready.isParam_eq_false
    {low bound : Nat}
    {decl : DeclId}
    (ready : arena.Ready low bound (.decl decl)) :
    (arena.decl decl).form.isParam = false := by
  cases ready with
  | defined _ _ _ _ defines _ _ _ =>
      cases form : (arena.decl decl).form <;>
        simp_all [DeclForm.definition?, DeclForm.isParam]
  | concept _ _ _ form _ _ _ => rw [form]; rfl
  | template _ _ _ form _ _ _ _ => rw [form]; rfl
  | namespaceBlock _ _ _ form _ _ => rw [form]; rfl

/-- The parameters of a function that is ready are stored. -/
private theorem Ready.holds_param
    {low bound : Nat}
    {decl param : DeclId}
    {role : CallableRole}
    {params : List DeclId}
    {result : TypeId}
    {definition : DefId}
    (ready : arena.Ready low bound (.decl decl))
    (form : (arena.decl decl).form = .callable role params result definition)
    (listed : param ∈ params) :
    arena.Holds (.decl param) := by
  cases ready with
  | defined _ _ _ heads _ _ _ _ =>
      exact (heads (.decl param) (by simp [form, DeclForm.heads, listed])).holds
  | concept _ _ _ same _ _ _ => cases form.symm.trans same
  | template _ _ _ same _ _ _ _ => cases form.symm.trans same
  | namespaceBlock _ _ _ same _ _ => cases form.symm.trans same

/--
Where labels and its form are kept, a function that is ready joins the same open
method.
-/
theorem Labels.openName?_eq
    {low bound : Nat}
    {decl : DeclId}
    (labels : older.Labels newer)
    (ready : older.Ready low bound (.decl decl))
    (form : (newer.decl decl).form = (older.decl decl).form) :
    newer.openName? decl = older.openName? decl := by
  rw [openName?, openName?, form, labels.named ready.holds,
    labels.name ready.name.here.1.1]
  cases found : (older.decl decl).form with
  | callable role params result definition =>
      have virtual : params.any newer.isVirtualParam =
          params.any older.isVirtualParam := by
        rw [Bool.eq_iff_iff, List.any_eq_true, List.any_eq_true]
        exact exists_congr fun param => and_congr_right fun listed => by
          rw [labels.isVirtualParam_eq (ready.holds_param found listed)]
      simp only [virtual]
  | _ => rfl

/-- What a template that is ready is around is ready, and stored behind it. -/
private theorem Ready.of_template
    {low bound : Nat}
    {decl inner : DeclId}
    {parms : List DeclId}
    {constraint? : Option ExprId}
    (ready : arena.Ready low bound (.decl decl))
    (form : (arena.decl decl).form = .template parms constraint? inner) :
    ∃ lower, arena.Ready low lower (.decl inner) ∧
      ((arena.decl decl).phase = .unelaborated → decl.raw < inner.raw) := by
  cases ready with
  | defined _ _ _ _ defines _ _ _ =>
      rw [form] at defines
      cases defines
  | concept _ _ _ same _ _ _ => cases form.symm.trans same
  | template _ _ _ same _ within order _ =>
      cases form.symm.trans same
      exact ⟨_, within, order⟩
  | namespaceBlock _ _ _ same _ _ => cases form.symm.trans same

/-- The parameters of a template or a concept that is ready are parameters. -/
theorem Ready.isParam_of_parms
    {low bound : Nat}
    {decl parm : DeclId}
    (ready : arena.Ready low bound (.decl decl))
    (listed : parm ∈ (arena.decl decl).form.parms) :
    (arena.decl parm).form.isParam = true := by
  cases ready with
  | defined _ _ _ _ _ takes _ _ =>
      cases form : (arena.decl decl).form <;> rw [form] at listed takes <;>
        simp_all [DeclForm.parms, DeclForm.takes]
  | concept _ _ _ form parameters _ _ =>
      rw [form] at listed
      exact (parameters parm listed).here.2 parm rfl
  | template _ _ _ _ heads _ _ _ =>
      exact (heads (.decl parm) (DeclForm.mem_heads_of_parms listed)).here.2
        parm rfl
  | namespaceBlock _ _ _ form _ _ =>
      rw [form] at listed
      cases listed

/-- What is within a template that is ready is ready. -/
theorem Ready.of_houses
    {low bound : Nat}
    {outer decl : DeclId}
    (ready : arena.Ready low bound (.decl outer))
    (houses : arena.Houses outer decl) :
    ∃ inner, arena.Ready low inner (.decl decl) := by
  induction houses generalizing bound with
  | refl => exact ⟨bound, ready⟩
  | template form _ inductionHypothesis =>
      obtain ⟨_, within, -⟩ := ready.of_template form
      exact inductionHypothesis within

/-- A template that is not typed is stored before all that is within it. -/
private theorem Ready.raw_le_of_houses
    {low bound : Nat}
    {outer decl : DeclId}
    (ready : arena.Ready low bound (.decl outer))
    (fresh : ∀ inner, arena.Houses outer inner → (arena.decl inner).phase =
      .unelaborated)
    (houses : arena.Houses outer decl) :
    outer.raw ≤ decl.raw := by
  induction houses generalizing bound with
  | refl => exact Nat.le_refl _
  | @template outer inner _ _ _ form _ inductionHypothesis =>
      obtain ⟨_, within, order⟩ := ready.of_template form
      have deeper := inductionHypothesis within fun other below =>
        fresh other (.template form below)
      have first := order (fresh outer (.refl outer))
      omega

/--
Below a template that is not typed the search for the innermost declaration
comes to its end.
-/
theorem Ready.houses_innermostWithin
    {low bound depth : Nat}
    {decl : DeclId}
    (ready : arena.Ready low bound (.decl decl))
    (fresh : ∀ inner, arena.Houses decl inner → (arena.decl inner).phase =
      .unelaborated)
    (deep : arena.decls.size < depth + decl.raw) :
    arena.Houses decl (arena.innermostWithin depth decl) ∧
      (arena.decl (arena.innermostWithin depth decl)).form.isTemplate =
        false := by
  induction depth generalizing decl bound with
  | zero =>
      have held : decl.raw < arena.decls.size := ready.holds
      omega
  | succ depth inductionHypothesis =>
      rw [innermostWithin]
      cases form : (arena.decl decl).form with
      | template parms constraint? inner =>
          obtain ⟨_, within, order⟩ := ready.of_template form
          have before := order (fresh decl (.refl decl))
          have below := inductionHypothesis within
            (fun other houses => fresh other (.template form houses)) (by omega)
          exact ⟨.template form below.1, below.2⟩
      | _ => exact ⟨.refl decl, by rw [form]; rfl⟩

/--
What some templates are around to the end of all trails is their innermost
declaration.
-/
theorem innermostWithin_of_houses
    {depth : Nat}
    {outer decl : DeclId}
    (shallow : arena.Shallow depth (.decl outer))
    (houses : arena.Houses outer decl)
    (plain : (arena.decl decl).form.isTemplate = false) :
    arena.innermostWithin depth outer = decl := by
  induction houses generalizing depth with
  | @refl decl =>
      cases depth with
      | zero => exact shallow.elim
      | succ depth =>
          rw [innermostWithin]
          split
          next form =>
            rw [form] at plain
            cases plain
          next => rfl
  | template form _ inductionHypothesis =>
      cases depth with
      | zero => exact shallow.elim
      | succ depth =>
          rw [innermostWithin, form]
          exact inductionHypothesis
            (shallow _ (by simp [children, form, DeclForm.children])) plain

/-- The declaration that some templates are around, below all of them. -/
def innermost (arena : Arena) (decl : DeclId) : DeclId :=
  arena.innermostWithin (arena.termCount + 1) decl

namespace Rephased

variable {raised : DeclId → Prop} (rephased : older.Rephased raised newer)

include rephased

theorem houses
    {outer decl : DeclId}
    (houses : newer.Houses outer decl) :
    older.Houses outer decl := by
  induction houses with
  | refl => exact .refl _
  | template form _ inductionHypothesis =>
      exact .template ((rephased.form _).symm.trans form) inductionHypothesis

private theorem innermostWithin_eq (depth : Nat) (decl : DeclId) :
    newer.innermostWithin depth decl = older.innermostWithin depth decl := by
  induction depth generalizing decl with
  | zero => rfl
  | succ depth inductionHypothesis =>
      simp only [innermostWithin, rephased.form, inductionHypothesis]

private theorem isVirtualParam_eq (decl : DeclId) :
    newer.isVirtualParam decl = older.isVirtualParam decl := by
  rw [isVirtualParam, isVirtualParam, paramType?, paramType?,
    rephased.decl decl]

private theorem openName?_eq (decl : DeclId) :
    newer.openName? decl = older.openName? decl := by
  rw [openName?, openName?, rephased.decl decl, rephased.name,
    funext rephased.isVirtualParam_eq]

private theorem joining_eq (decls : List DeclId) :
    newer.joining decls = older.joining decls := by
  rw [joining, joining, funext rephased.openName?_eq]

end Rephased

end Arena

/-- The functions among declarations that elaboration registers. -/
def ElabInput.joining
    (input : ElabInput)
    (arena : Arena)
    (decls : List DeclId) :
    List (Name × DeclId) :=
  if input.options.openMethods then arena.joining decls else []

theorem ElabInput.joining_nil (input : ElabInput) (arena : Arena) :
    input.joining arena [] = [] := by
  simp [ElabInput.joining, Arena.joining]

theorem ElabInput.joining_append
    (input : ElabInput)
    (arena : Arena)
    (decls more : List DeclId) :
    input.joining arena (decls ++ more) = input.joining arena decls ++
      input.joining arena more := by
  rw [joining, joining, joining]
  split
  · exact List.filterMap_append
  · rfl

/--
From one state to another some functions are registered, no membership is
reported, and nothing is merged.
-/
structure ElabState.Registers
    (older newer : ElabState)
    (joining : List (Name × DeclId)) :
    Prop where
  memberships : newer.findings.memberships = older.findings.memberships
  merges : newer.findings.merges = older.findings.merges
  openMethods : newer.findings.openMethods =
    older.findings.openMethods.registerAll joining

namespace ElabState

variable {older middle newer : ElabState} {joining : List (Name × DeclId)}

/-- Nothing is registered where nothing is reported. -/
theorem Hushes.registers (hushes : older.Hushes newer) :
    older.Registers newer [] :=
  ⟨hushes.memberships, hushes.merges, hushes.openMethods⟩

private theorem Hushes.trans_registers
    (hushes : older.Hushes middle)
    (registers : middle.Registers newer joining) :
    older.Registers newer joining :=
  ⟨registers.memberships.trans hushes.memberships,
    registers.merges.trans hushes.merges,
    registers.openMethods.trans (by rw [hushes.openMethods])⟩

theorem Registers.trans
    {further : List (Name × DeclId)}
    (first : older.Registers middle joining)
    (second : middle.Registers newer further) :
    older.Registers newer (joining ++ further) :=
  ⟨second.memberships.trans first.memberships,
    second.merges.trans first.merges,
    second.openMethods.trans
      (by rw [first.openMethods, OpenMethods.registerAll_append])⟩

theorem Registers.trans_hushes
    (registers : older.Registers middle joining)
    (hushes : middle.Hushes newer) :
    older.Registers newer joining :=
  ⟨hushes.memberships.trans registers.memberships,
    hushes.merges.trans registers.merges,
    hushes.openMethods.trans registers.openMethods⟩

end ElabState

namespace Elab

variable {input : ElabInput} {state after : ElabState}

/--
A function is registered under its name if a parameter of it is marked
`virtual`.
-/
private theorem registerOpenMethod_registers
    {arena : Arena}
    {bound : Nat}
    {decl : DeclId}
    {role : CallableRole}
    {params : List DeclId}
    {result : TypeId}
    {definition : DefId}
    (form : (arena.decl decl).form = .callable role params result definition)
    (ready : arena.Ready 0 bound (.decl decl))
    (labels : arena.Labels state.arena)
    (run : registerOpenMethod decl params input state = .done () after) :
    state.Registers after (input.joining arena [decl]) := by
  have virtual : params.any state.arena.isVirtualParam =
      params.any arena.isVirtualParam := by
    rw [Bool.eq_iff_iff, List.any_eq_true, List.any_eq_true]
    exact exists_congr fun param => and_congr_right fun listed => by
      rw [labels.isVirtualParam_eq (ready.holds_param form listed)]
  have name : state.arena.name (state.arena.decl decl).name =
      arena.name (arena.decl decl).name := by
    rw [labels.named ready.holds, labels.name ready.name.here.1.1]
  have run :
      (if (input.options.openMethods && params.any state.arena.isVirtualParam) =
        true then
      match (state.arena.name (state.arena.decl decl).name).form with
      | .simple name => find fun findings =>
          { findings with openMethods := findings.openMethods.register name
                            decl }
      | _ => pure ()
    else pure ()) input state = .done () after := run
  rw [name, virtual] at run
  have openName : arena.openName? decl = if params.any arena.isVirtualParam =
      true then
      (arena.name (arena.decl decl).name).form.simple? else none := by
    rw [Arena.openName?, form]
  have joined : arena.joining [decl] =
      ((arena.openName? decl).map fun name => (name, decl)).toList := by
    cases found : arena.openName? decl <;> simp [Arena.joining, found]
  rw [ElabInput.joining, joined, openName]
  by_cases reported :
    (input.options.openMethods && params.any arena.isVirtualParam) = true
  · obtain ⟨enabled, marked⟩ := (Bool.and_eq_true _ _).mp reported
    rw [if_pos reported] at run
    rw [if_pos enabled, if_pos marked]
    cases found : (arena.name (arena.decl decl).name).form <;>
      rw [found] at run <;> cases run <;>
      exact ⟨rfl, rfl, rfl⟩
  · rw [if_neg reported] at run
    cases run
    rw [Bool.and_eq_true, not_and] at reported
    split
    next enabled =>
      rw [if_neg (reported enabled)]
      exact ⟨rfl, rfl, rfl⟩
    next => exact ⟨rfl, rfl, rfl⟩

/--
Completing a signature registers the function, if a parameter of it is marked
`virtual`.
-/
private theorem elaborateSignature_registers
    {bound : Nat}
    {stmt? wrapper? : Option _}
    {decl : DeclId}
    {role : CallableRole}
    {params : List DeclId}
    {result : TypeId}
    {definition : DefId}
    (form : (state.arena.decl decl).form =
      .callable role params result definition)
    (ready : state.arena.Ready 0 bound (.decl decl))
    (run : elaborateSignature stmt? decl params result wrapper? input state =
      .done () after) :
    state.Registers after (input.joining state.arena [decl]) := by
  obtain ⟨arena, _, observed, run⟩ := Action.done_of_bind run
  cases observed
  obtain ⟨scope, first, opened, run⟩ := Action.done_of_bind run
  obtain ⟨minted, second, typed, run⟩ := Action.done_of_bind run
  obtain ⟨_, third, completed, run⟩ := Action.done_of_bind run
  obtain ⟨_, fourth, raised, run⟩ := Action.done_of_bind run
  obtain ⟨_, fifth, registered, placed⟩ := Action.done_of_bind run
  have hushes : state.Hushes fourth :=
    (((Hushed.inScopes _ opened).trans
      (Hushed.foldlM (Hushed.elaborateParam scope _) params []
      typed)).trans (Hushed.completeType result scope completed)).trans
        (Hushed.raise _ _ raised)
  exact (hushes.trans_registers
    (registerOpenMethod_registers form ready hushes.labels
    registered)).trans_hushes (Hushed.addTemplateParams _ _ _ _ placed)

/--
Once a template that was not typed and its parameters are, what is within it is
ready and not typed yet. It comes behind the template and is no parameter, so it
is not raised.
-/
theorem raiseParms_done
    {bound : Nat}
    {decl inner : DeclId}
    {parms : List DeclId}
    {constraint? : Option ExprId}
    (ready : state.arena.Ready 0 bound (.decl decl))
    (fresh : ∀ inner, state.arena.Houses decl inner →
      (state.arena.decl inner).phase = .unelaborated)
    (form : (state.arena.decl decl).form = .template parms constraint? inner)
    (run : (do
        raiseAll parms .typeElaborated
        raise decl .typeElaborated) input state = .done () after) :
    ∃ lower, after.arena.Ready 0 lower (.decl inner) ∧
      (∀ other, after.arena.Houses inner other →
        (after.arena.decl other).phase = .unelaborated) ∧
      state.arena.Rephased (fun other => other ∈ parms ∨ other = decl)
        after.arena := by
  obtain ⟨_, first, parameters, raised⟩ := Action.done_of_bind run
  obtain ⟨arena, rfl, rephasedFirst, laterFirst⟩ := raiseAll_done parameters
  cases raised
  have rephased :
      state.arena.Rephased (fun other => other ∈ parms ∨ other = decl)
      (arena.updateDecl decl fun old => old.raiseTo .typeElaborated) :=
    (rephasedFirst.weaken fun _ => .inl).trans
      ((Arena.Rephased.raise arena decl .typeElaborated).weaken fun _ => .inr)
  have later : state.arena.Later (fun _ => True)
      (arena.updateDecl decl fun old => old.raiseTo .typeElaborated) :=
    (laterFirst _).trans
      (.single (Arena.progress_raise decl _) fun _ _ => rfl)
  obtain ⟨lower, within, order⟩ := ready.of_template form
  have freshWithin : ∀ other, state.arena.Houses inner other →
      (state.arena.decl other).phase = .unelaborated :=
    fun other below => fresh other (.template form below)
  have untouched : ∀ other, state.arena.Houses inner other →
      ¬ (other ∈ parms ∨ other = decl) := by
    rintro other below (listed | rfl)
    · obtain ⟨_, readyOther⟩ := within.of_houses below
      cases readyOther.isParam_eq_false.symm.trans
        (ready.isParam_of_parms (by rw [form]; exact listed))
    · have := within.raw_le_of_houses freshWithin below
      have := order (fresh other (.refl other))
      omega
  refine ⟨lower, later.ready within, fun other below => ?_, rephased⟩
  have houses := rephased.houses below
  exact (congrArg Decl.phase
    (rephased.others other (untouched other houses))).trans
    (freshWithin other houses)

/--
Completing the types of a declaration that is not typed registers the function
that it is below its templates, and nothing besides.
-/
theorem elaborateTypeWithin_registers
    {depth bound : Nat}
    {stmt? wrapper? : Option _}
    {decl : DeclId}
    (ready : state.arena.Ready 0 bound (.decl decl))
    (fresh : ∀ inner, state.arena.Houses decl inner →
      (state.arena.decl inner).phase = .unelaborated)
    (run : elaborateTypeWithin depth stmt? wrapper? decl input state =
      .done () after) :
    state.Registers after
      (input.joining state.arena [state.arena.innermostWithin depth decl]) := by
  induction depth generalizing state stmt? wrapper? decl bound with
  | zero => cases run
  | succ depth inductionHypothesis =>
      have early := fresh decl (.refl decl)
      have none
          (plain : state.arena.openName? decl = none)
          (last : state.arena.innermostWithin (depth + 1) decl = decl)
          (hushes : state.Hushes after) :
          state.Registers after
            (input.joining state.arena
              [state.arena.innermostWithin (depth + 1) decl]) := by
        have nothing : input.joining state.arena [decl] = [] := by
          simp [ElabInput.joining, Arena.joining, plain]
        rw [last, nothing]
        exact hushes.registers
      obtain ⟨_, _, observed, run⟩ := Action.done_of_bind run
      cases observed
      rw [if_pos early] at run
      cases form : (state.arena.decl decl).form with
      | object role type definition =>
          rw [form] at run
          refine none (by rw [Arena.openName?, form])
            (by rw [Arena.innermostWithin, form]) ?_
          cases role with
          | base => exact Hushed.bind (Hushed.elaborateBase _ _ _) (fun _ =>
              Hushed.raise _ _) run
          | _ => exact Hushed.bind (Hushed.completeType _ _) (fun _ =>
              Hushed.raise _ _) run
      | parameter type =>
          rw [form] at run
          refine none (by rw [Arena.openName?, form])
            (by rw [Arena.innermostWithin, form]) ?_
          exact Hushed.bind (Hushed.completeType _ _)
            (fun _ => Hushed.raise _ _) run
      | callable role params result definition =>
          rw [form] at run
          rw [Arena.innermostWithin, form]
          exact elaborateSignature_registers form ready run
      | classType kind definition =>
          rw [form] at run
          refine none (by rw [Arena.openName?, form])
            (by rw [Arena.innermostWithin, form]) ?_
          exact Hushed.bind (Hushed.completeType _ _)
            (fun _ => Hushed.raise _ _) run
      | template parms constraint? inner =>
          rw [form] at run
          rw [Arena.innermostWithin, form]
          dsimp only at run
          rw [← bind_assoc] at run
          obtain ⟨_, middle, raised, run⟩ := Action.done_of_bind run
          obtain ⟨_, within, freshWithin, rephased⟩ :=
            raiseParms_done ready fresh form raised
          have hushes : state.Hushes middle :=
            Hushed.bind (Hushed.raiseAll _ _) (fun _ => Hushed.raise _ _) raised
          have registers := inductionHypothesis within freshWithin run
          refine hushes.trans_registers ?_
          rwa [rephased.innermostWithin_eq, ElabInput.joining,
            rephased.joining_eq] at registers
      | concept parms definition =>
          rw [form] at run
          refine none (by rw [Arena.openName?, form])
            (by rw [Arena.innermostWithin, form]) ?_
          exact Hushed.bind (Hushed.raiseAll _ _)
            (fun _ => Hushed.raise _ _) run
      | typeParameter index default? =>
          rw [form] at run
          exact none (by rw [Arena.openName?, form])
            (by rw [Arena.innermostWithin, form])
            (Hushed.raise _ _ run)
      | namespaceBlock body =>
          rw [form] at run
          cases run

end Elab

end Tern
