import Tern.Proofs.Elaboration.Completion
import Tern.Proofs.Grammar.Runs

namespace Tern

/-!
# What elaboration reports

Most of what elaboration does is hushed: it reports neither an open method nor a
membership, merges nothing, and keeps the labels of declarations, by which open
methods are told. Only the end of a signature reports an open method.
-/

namespace Arena

/--
Declarations that are stored stay, with their names, their specifiers and
whether they are parameters.
-/
structure Labels (older newer : Arena) : Prop where
  held : ∀ {term}, older.Holds term → newer.Holds term
  name : ∀ {name}, older.Holds (.name name) → newer.name name = older.name name
  named : ∀ {decl}, older.Holds (.decl decl) → (newer.decl decl).name =
    (older.decl decl).name
  specifiers : ∀ {decl}, older.Holds (.decl decl) →
    (newer.decl decl).specifiers = (older.decl decl).specifiers
  param : ∀ {decl}, older.Holds (.decl decl) →
    (newer.paramType? decl).isSome = (older.paramType? decl).isSome

namespace Labels

variable {older middle newer : Arena}

theorem refl (arena : Arena) : arena.Labels arena where
  held := id
  name _ := rfl
  named _ := rfl
  specifiers _ := rfl
  param _ := rfl

theorem trans (first : older.Labels middle) (second : middle.Labels newer) :
    older.Labels newer where
  held was := second.held (first.held was)
  name was := (second.name (first.held was)).trans (first.name was)
  named was := (second.named (first.held was)).trans (first.named was)
  specifiers was :=
    (second.specifiers (first.held was)).trans (first.specifiers was)
  param was := (second.param (first.held was)).trans (first.param was)

/-- Neither names nor declarations change. -/
private theorem of_decls
    (held : ∀ {term}, older.Holds term → newer.Holds term)
    (names : newer.names = older.names)
    (decls : newer.decls = older.decls) :
    older.Labels newer where
  held := held
  name _ := by simp only [Arena.name, names]
  named _ := by simp only [Arena.decl, decls]
  specifiers _ := by simp only [Arena.decl, decls]
  param _ := by simp only [Arena.paramType?, Arena.decl, decls]

/-- A declaration changes, but not its label. -/
private theorem updateDecl
    {decl : DeclId}
    {change : Decl → Decl}
    (named : (change (older.decl decl)).name = (older.decl decl).name)
    (specifiers : (change (older.decl decl)).specifiers =
      (older.decl decl).specifiers)
    (form : (change (older.decl decl)).form = (older.decl decl).form ∨
      (older.decl decl).form.isTemplate = true ∧
        (change (older.decl decl)).form.isTemplate = true) :
    older.Labels (older.updateDecl decl change) := by
  have none {arena : Arena} (template : (arena.decl decl).form.isTemplate =
      true) :
      arena.paramType? decl = none := by
    unfold paramType?
    split
    next form =>
      rw [form] at template
      cases template
    next => rfl
  have found {other : DeclId} (apart : other ≠ decl) :
      (older.updateDecl decl change).decl other = older.decl other :=
    decl_updateDecl_of_ne apart change
  refine ⟨(holds_updateDecl change _).mpr, fun _ => rfl, fun {other} held =>
    ?_, fun {other} held => ?_,
    fun {other} held => ?_⟩
  all_goals by_cases same : other = decl
  · rw [same, decl_updateDecl (same ▸ held), named]
  · rw [found same]
  · rw [same, decl_updateDecl (same ▸ held), specifiers]
  · rw [found same]
  · subst same
    have now := decl_updateDecl held change
    rcases form with kept | ⟨was, after⟩
    · simp only [paramType?, now, kept]
    · rw [none was, none (now ▸ after)]
  · simp only [paramType?, found same]

end Labels

/-- What is added keeps all labels. -/
private theorem Extends.labels
    {older newer : Arena}
    (extended : older.Extends newer) :
    older.Labels newer where
  held := extended.holds
  name := extended.name_eq
  named held := congrArg Decl.name (extended.decl_eq held)
  specifiers held := congrArg Decl.specifiers (extended.decl_eq held)
  param held := by rw [paramType?, paramType?, extended.decl_eq held]

end Arena

/--
From one state to another nothing is reported of open methods, memberships and
merges; labels are kept.
-/
structure ElabState.Hushes (older newer : ElabState) : Prop where
  openMethods : newer.findings.openMethods = older.findings.openMethods
  memberships : newer.findings.memberships = older.findings.memberships
  merges : newer.findings.merges = older.findings.merges
  labels : older.arena.Labels newer.arena

namespace ElabState.Hushes

variable {older middle newer : ElabState}

theorem refl (state : ElabState) : state.Hushes state :=
  ⟨rfl, rfl, rfl, .refl _⟩

theorem trans (first : older.Hushes middle) (second : middle.Hushes newer) :
    older.Hushes newer :=
  ⟨second.openMethods.trans first.openMethods,
    second.memberships.trans first.memberships,
    second.merges.trans first.merges, first.labels.trans second.labels⟩

end ElabState.Hushes

namespace Elab

variable {Value Next : Type}

/--
An action that is done has reported neither an open method nor a membership, and
has merged nothing.
-/
def Hushed (action : Elab Value) : Prop :=
  ∀ {input : ElabInput} {state : ElabState} {value : Value} {after : ElabState},
    action input state = .done value after → state.Hushes after

namespace Hushed

theorem pure (value : Value) : Hushed (Pure.pure value) := by
  rintro _ _ _ _ ⟨⟩
  exact .refl _

theorem bind
    {action : Elab Value}
    {next : Value → Elab Next}
    (first : action.Hushed)
    (rest : ∀ value, (next value).Hushed) :
    (action >>= next).Hushed := by
  intro _ _ _ _ run
  obtain ⟨value, middle, ending, onward⟩ := Action.done_of_bind run
  exact (first ending).trans (rest value onward)

theorem ite
    {condition : Prop}
    [Decidable condition]
    {yes no : Elab Value}
    (hushedYes : yes.Hushed)
    (hushedNo : no.Hushed) :
    Hushed (if condition then yes else no) := by
  split
  · exact hushedYes
  · exact hushedNo

theorem forM
    {Item : Type}
    {action : Item → Elab Unit}
    (each : ∀ item, (action item).Hushed)
    (items : List Item) :
    (items.forM action).Hushed := by
  induction items with
  | nil => exact pure ()
  | cons item items inductionHypothesis => exact bind (each item) fun _ =>
      inductionHypothesis

theorem foldlM
    {Item : Type}
    {step : Value → Item → Elab Value}
    (each : ∀ value item, (step value item).Hushed)
    (items : List Item)
    (value : Value) :
    (items.foldlM step value).Hushed := by
  induction items generalizing value with
  | nil => exact pure value
  | cons item items inductionHypothesis =>
      exact bind (each value item) fun next => inductionHypothesis next

private theorem arena : Hushed Elab.arena := by
  rintro _ _ _ _ ⟨⟩
  exact .refl _

theorem inScopes (change : Scopes → Value × Scopes) :
    Hushed (Elab.inScopes change) := by
  rintro _ _ _ _ ⟨⟩
  exact ⟨rfl, rfl, rfl, .refl _⟩

private theorem changeScopes (change : Scopes → Scopes) :
    Hushed (Elab.changeScopes change) := by
  rintro _ _ _ _ ⟨⟩
  exact ⟨rfl, rfl, rfl, .refl _⟩

private theorem recordFault (decl : DeclId) (cause : FaultCause) :
    Hushed (Elab.recordFault decl cause) := by
  rintro _ _ _ _ ⟨⟩
  exact ⟨rfl, rfl, rfl, .refl _⟩

private theorem changeArena
    {change : Arena → Arena}
    (labels : ∀ arena : Arena, arena.Labels (change arena)) :
    Hushed (Elab.changeArena change) := by
  rintro _ _ _ _ ⟨⟩
  exact ⟨rfl, rfl, rfl, labels _⟩

private theorem inArena
    {change : Arena → Value × Arena}
    (extended : ∀ arena : Arena, arena.Extends (change arena).2) :
    Hushed (Elab.inArena change) := by
  rintro _ _ _ _ ⟨⟩
  exact ⟨rfl, rfl, rfl, (extended _).labels⟩

theorem raise (decl : DeclId) (phase : Phase) :
    Hushed (Elab.raise decl phase) :=
  changeArena fun _ => .updateDecl rfl rfl (.inl rfl)

theorem raiseAll (decls : List DeclId) (phase : Phase) :
    Hushed (Elab.raiseAll decls phase) :=
  forM (fun decl => raise decl phase) decls

theorem raiseRequiresParams (decl : DeclId) (phase : Phase) :
    Hushed (Elab.raiseRequiresParams decl phase) :=
  bind arena fun _ => raiseAll _ phase

private theorem parseRange
    (scope : ScopeId)
    (range : TokenRange)
    (fragment : Fragment Value) :
    Hushed (Elab.parseRange scope range fragment.captured) := by
  intro input state _ _ run
  have parses :=
    fragment.captured_parses input.tokens range input.names input.options.mode
    (state.scopes.enter scope) state.arena
  simp only [Elab.parseRange, Action.run] at run
  split at run
  next value after ending =>
    cases run
    rw [ending] at parses
    exact ⟨rfl, rfl, rfl, parses.1.labels⟩
  next => cases run
  next => cases run

private theorem moveType (target source : TypeId) :
    Hushed (Elab.changeArena fun arena => arena.moveType target source) :=
  changeArena fun arena => by
    unfold Arena.moveType
    split
    · exact .refl _
    · exact .of_decls (fun {term} held =>
        by cases term <;> simpa [Arena.Holds] using held) rfl rfl

private theorem moveExpr (target source : ExprId) :
    Hushed (Elab.changeArena fun arena => arena.moveExpr target source) :=
  changeArena fun arena => by
    unfold Arena.moveExpr
    split
    · exact .refl _
    · exact .of_decls (fun {term} held =>
        by cases term <;> simpa [Arena.Holds] using held) rfl rfl

private theorem moveStmt (target source : StmtId) :
    Hushed (Elab.changeArena fun arena => arena.moveStmt target source) :=
  changeArena fun arena => by
    unfold Arena.moveStmt
    split
    · exact .refl _
    · exact .of_decls (fun {term} held =>
        by cases term <;> simpa [Arena.Holds] using held) rfl rfl

theorem completeType (type : TypeId) (scope : ScopeId) :
    Hushed (Elab.completeType type scope) := by
  refine bind arena fun arena => ?_
  split
  · exact bind (parseRange scope _ .type) fun _ => moveType _ _
  · exact pure ()

theorem completeExpr (expr : ExprId) (scope : ScopeId) :
    Hushed (Elab.completeExpr expr scope) := by
  refine bind arena fun arena => ?_
  split
  · exact bind (parseRange scope _ .expression) fun _ => moveExpr _ _
  · exact pure ()

theorem completeStmt
    (stmt : StmtId)
    (scope : ScopeId)
    (fragment : Fragment StmtId) :
    Hushed (Elab.completeStmt stmt scope fragment.captured) := by
  refine bind arena fun arena => ?_
  split
  · exact bind (parseRange scope _ fragment) fun _ => moveStmt _ _
  · exact pure ()

private theorem mintTypeParam (slot : TypeId) (scope : ScopeId) (index : Nat) :
    Hushed (Elab.mintTypeParam slot scope index) :=
  bind arena fun _ =>
    bind (inArena fun arena => arena.extends_addPlaceholder _) fun _ =>
    bind (inArena fun arena => arena.extends_addDecl _) fun _ =>
      bind arena fun _ =>
      bind (changeScopes _) fun _ =>
        bind (inArena fun arena => arena.extends_addType _ _) fun _ =>
        bind (moveType _ _) fun _ => pure _

theorem elaborateParam
    (scope : ScopeId)
    (firstIndex : Nat)
    (minted : List DeclId)
    (param : DeclId) :
    Hushed (Elab.elaborateParam scope firstIndex minted param) := by
  refine bind arena fun arenaBefore => ?_
  split
  · exact pure _
  · refine bind (completeType _ scope) fun _ => bind arena fun arenaNow => ?_
    split
    · exact bind (raise _ _) fun _ => pure _
    · exact bind (mintTypeParam _ _ _) fun _ => bind (raise _ _) fun _ => pure _

private theorem wrapInTemplate
    (stmt? : Option StmtId)
    (decl : DeclId)
    (parms : List DeclId) :
    Hushed (Elab.wrapInTemplate stmt? decl parms) := by
  refine bind arena fun _ =>
    bind (inArena fun arena => arena.extends_addDecl _) fun wrapper => ?_
  refine bind (changeArena fun arena => ?_) fun _ => bind arena fun _ =>
    changeScopes _
  split
  · exact .of_decls Arena.holds_setStmtForm.mpr rfl rfl
  · exact .refl _

private theorem extendTemplate (wrapper : DeclId) (more : List DeclId) :
    Hushed (Elab.extendTemplate wrapper more) :=
  changeArena fun arena => by
    cases form : (arena.decl wrapper).form with
    | template parms constraint? inner =>
        exact .updateDecl (by simp only [form]) (by simp only [form])
          (.inr ⟨by rw [form]; rfl, by simp only [form]; rfl⟩)
    | _ =>
        exact .updateDecl (by simp only [form]) (by simp only [form])
          (.inl (by simp only [form]))

theorem addTemplateParams
    (stmt? : Option StmtId)
    (decl : DeclId)
    (wrapper? : Option DeclId)
    (minted : List DeclId) :
      Hushed (Elab.addTemplateParams stmt? decl wrapper? minted) := by
  refine ite (pure ()) ?_
  split
  · exact extendTemplate _ _
  · exact wrapInTemplate _ _ _

theorem elaborateBase (decl : DeclId) (type : TypeId) (scope : ScopeId) :
    Hushed (Elab.elaborateBase decl type scope) :=
  bind (completeType type scope) fun _ => bind arena fun _ =>
    ite (pure ()) (recordFault _ _)

theorem bindParam (scope : ScopeId) (param : DeclId) :
    Hushed (Elab.bindParam scope param) :=
  bind arena fun _ => bind (changeScopes _) fun _ => raise _ _

theorem elaborateInitializer (definition : DefId) (scope : ScopeId) :
    Hushed (Elab.elaborateInitializer definition scope) := by
  refine bind arena fun arena => ?_
  split
  · exact completeExpr _ _
  · exact pure ()

end Hushed

end Elab

end Tern
