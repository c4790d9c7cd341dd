import Tern.Compilation
import Tern.Proofs.Elaboration.Defining
import Tern.Proofs.Elaboration.MergePolicy

namespace Tern

/-!
# What merging tells apart

Declarations are merged, or found to define the same, only if they have the same
scope, key and signature, where a type parameter goes by its index. The index is
the place of the parameter in its own template, of those that were read as of
those that were minted. So parameters of different templates can not be told
apart by it: the first parameter of the template around a class stands for the
first parameter of any member template.

Telling the parameters of the own templates of a declaration from those of
templates around it would be finer. That finer comparison is stated here as
well, and there is a program that shows that merging does not keep to it.
-/

namespace Merges

/-- Noting a merge adds that merge alone. -/
private theorem mem_note
    {merges : Merges}
    {source target : DeclId}
    {merge : DeclId × DeclId}
    (member : merge ∈ merges.note source target) :
    merge ∈ merges ∨ merge = (source, target) := by
  induction merges with
  | nil =>
      exact .inr (List.mem_singleton.mp member)
  | cons entry rest inductionHypothesis =>
      rcases entry with ⟨known, old⟩
      by_cases isKnown : known = source
      · simp only [note, isKnown, ↓reduceIte, List.mem_cons] at member
        rcases member with isNew | inRest
        · exact .inr isNew
        · exact .inl (List.mem_cons_of_mem _ inRest)
      · simp only [note, isKnown, ↓reduceIte, List.mem_cons] at member
        rcases member with isFirst | inRest
        · exact .inl (isFirst ▸ List.mem_cons_self)
        · exact (inductionHypothesis inRest).imp_left (List.mem_cons_of_mem _)

/-- What was merged is what had been merged before and what is noted. -/
private theorem mem_noteAll
    {merges noted : Merges}
    {merge : DeclId × DeclId}
    (member : merge ∈ merges.noteAll noted) :
    merge ∈ merges ∨ merge ∈ noted := by
  induction noted generalizing merges with
  | nil =>
      exact .inl member
  | cons entry rest inductionHypothesis =>
      rcases inductionHypothesis member with before | later
      · rcases mem_note before with before | isEntry
        · exact .inl before
        · exact .inr (isEntry ▸ List.mem_cons_self)
      · exact .inr (List.mem_cons_of_mem _ later)

end Merges

/--
Merging the forward declarations among any statements merges declarations, and
finds them to define the same, only if they have the same scope, key and
signature, with type parameters compared by index.
-/
theorem mergeForwardDeclarations_sameGroup
    (stmts : List StmtId)
    (input : ElabInput)
    (state : ElabState) :
    ∃ after,
      (Elab.mergeForwardDeclarations stmts).run input state = .done () after ∧
        (∀ merge ∈ after.findings.merges,
          merge ∈ state.findings.merges ∨
            state.arena.SameGroup merge.1 merge.2) ∧
        ∀ fault ∈ after.faultsSince state, ∀ previous, fault.cause =
          .redefinition previous →
          state.arena.SameGroup previous fault.decl := by
  obtain ⟨alive, faults, merges, shapes, merging, run⟩ :=
    Elab.mergeForwardDeclarations_run stmts input state
  refine ⟨state.merged faults merges shapes, run, ?_, ?_⟩
  · intro merge member
    rcases Merges.mem_noteAll member with before | noted
    · exact .inl before
    · exact .inr (merging.noted noted).2.1
  · intro fault recorded previous cause
    have isNew : fault ∈ faults := by
      simpa [ElabState.faultsSince, ElabState.merged] using recorded
    exact (merging.of_redefinition isNew cause).2.1

/-- Whatever compiles is a unit that was parsed and elaborated. -/
theorem Compilation.exists_elaborated
    {source : String}
    {options : ElabOptions}
    {compilation : Compilation}
    (compiles : compile? source options = some (.ok compilation)) :
    let input : ElabInput :=
      { tokens := (scan .initial source).1, names := (scan .initial source).2,
        options := options }
    ∃ unit parsed last,
      parseUnit input.names input.tokens options.mode = .done unit parsed ∧
        (Elab.elaborateUnit unit).run input (.afterParsing parsed) =
          .done () last ∧
        compilation =
          { names := input.names, tokens := input.tokens, arena := last.arena,
            scopes := last.scopes, unit := unit
            findings := last.findings } := by
  simp only [compile?] at compiles
  split at compiles
  · cases compiles
  · cases compiles
  next unit parsed parses =>
    split at compiles
    · cases compiles
    · cases compiles
    next last elaborates =>
      cases compiles
      exact ⟨unit, parsed, last, parses, elaborates, rfl⟩

/-- What a type parameter is for a declaration. -/
inductive ParamLabel where
  | /-- A parameter of one of its own templates, by
      its place among these parameters. -/
    own (position : Nat)
  | /-- A parameter of a template around it. -/
    outer (param : DeclId)
deriving DecidableEq

namespace Arena

/--
The parameters of the templates that a declaration is wrapped in, below some
templates.
-/
def ownParamsWithin (arena : Arena) : Nat → DeclId → List DeclId
  | 0, _ => []
  | depth + 1, decl =>
      match (arena.decl decl).form with
      | .template parms _ inner => parms ++ arena.ownParamsWithin depth inner
      | _ => []

/-- What a type parameter is for a declaration. -/
def labelFor (arena : Arena) (decl param : DeclId) : ParamLabel :=
  match (arena.ownParamsWithin (arena.decls.size + 1) decl).idxOf? param with
  | some position => .own position
  | none => .outer param

/--
The signature of a declaration with its own type parameters told from others.
-/
def ownSignature? (arena : Arena) (decl : DeclId) :
    Option (SignatureTree ParamLabel) :=
  arena.signatureTree? (fun param _ => arena.labelFor decl param) decl

end Arena

namespace Compilation

/--
All that was merged or found to be redefined in a compilation has signatures
that differ in the parameters of the own templates of the declarations at most.
-/
def MergesByTemplate (compilation : Compilation) : Prop :=
  (∀ merge ∈ compilation.findings.merges,
      compilation.arena.ownSignature? merge.1 =
        compilation.arena.ownSignature? merge.2) ∧
    ∀ fault ∈ compilation.findings.faults, ∀ previous, fault.cause =
      .redefinition previous →
      compilation.arena.ownSignature? previous =
        compilation.arena.ownSignature? fault.decl

end Compilation

/-- The label of a type that is a type parameter. -/
def TypeTree.label? {Label : Type} : TypeTree Label → Option Label
  | .parameter label => some label
  | _ => none

/-- The labels of the parameter types of a signature. -/
def SignatureTree.labels {Label : Type} :
    SignatureTree Label → List (Option Label)
  | .callable _ params _ => params.map TypeTree.label?
  | .classType _ => []
  | .template _ inner => inner.labels

/--
Whether declarations were merged that take parameters of different templates.
-/
def Compilation.mergesAcrossTemplates (compilation : Compilation) : Bool :=
  compilation.findings.merges.any fun merge =>
    (compilation.arena.ownSignature? merge.1).map SignatureTree.labels ≠
      (compilation.arena.ownSignature? merge.2).map SignatureTree.labels

/--
Declarations that take parameters of different templates have different
signatures.
-/
private theorem Compilation.not_mergesByTemplate_of_across
    {compilation : Compilation}
    (across : compilation.mergesAcrossTemplates = true) :
    ¬ compilation.MergesByTemplate := by
  rintro ⟨merged, -⟩
  obtain ⟨merge, member, differ⟩ := List.any_eq_true.mp across
  rw [merged merge member] at differ
  simp at differ

/-- A compilation that has a property came out of the compiler. -/
theorem exists_compilation
    {result? : Option (Except CompileError Compilation)}
    {property : Compilation → Bool}
    (holds : (result?.bind Except.toOption).any property = true) :
    ∃ compilation, result? = some (.ok compilation) ∧ property compilation =
      true := by
  cases result? with
  | none => cases holds
  | some result =>
      cases result with
      | error _ => cases holds
      | ok compilation => exact ⟨compilation, rfl, holds⟩

/--
In a class template with parameter `T`, methods with parameters `(a: T, b)` and
`(a, b: T)` are merged, although the first takes a `T` where the second takes a
type parameter of its own.
-/
theorem not_mergesByTemplate :
    ¬ ∀ (source : String) (options : ElabOptions) (compilation : Compilation),
      compile? source options = some (.ok compilation) →
        compilation.MergesByTemplate := by
  intro always
  have merges :
      ((compile?
        "template<typename T> class C \x7b def f(a: T, b); def f(a, b: T); \x7d"
        { mode := .deferred, openMethods := false }).bind Except.toOption).any
          Compilation.mergesAcrossTemplates = true := by
    decide +kernel
  obtain ⟨compilation, compiled, across⟩ := exists_compilation merges
  exact Compilation.not_mergesByTemplate_of_across across
    (always _ _ compilation compiled)

end Tern
