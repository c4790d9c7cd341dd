import Tern.Proofs.Elaboration.SortedSets

namespace Tern

/-!
# Implicit templates

A function whose parameters have types to be inferred becomes a template, or the
template around it gets more parameters. This module says so of all functions of
whatever compiles, told by what is on record of their signatures.
-/

namespace Compilation

variable {compilation : Compilation} {options : ElabOptions}
  {parsed : ParserState} {last : ElabState} {visits : List Visit}

/--
A function was signed that was come by in a statement of the unit, or in a
template of the unit.
-/
structure Signs
    (compilation : Compilation)
    (params : List DeclId)
    (signing : Signing) : Prop where
  signed : signing.Of compilation.arena params
  stmt : ∀ stmt ∈ signing.stmt?,
    compilation.arena.Owns (.stmt compilation.unit) (.stmt stmt)
  wrapper : ∀ wrapper ∈ signing.wrapper?,
    compilation.arena.Owns (.stmt compilation.unit) (.decl wrapper)

/-- What is minted for a function is among the parameters of a template. -/
private theorem Signs.exists_template
    {parm : DeclId}
    {params : List DeclId}
    {signing : Signing}
    (signs : compilation.Signs params signing)
    (listed : parm ∈ signing.minted) :
    ∃ template parms constraint?,
      compilation.arena.Owns (.stmt compilation.unit) (.decl template) ∧
      (compilation.arena.decl template).form =
        .template parms constraint? signing.decl ∧ parm ∈ parms := by
  obtain ⟨decl, stmt?, wrapper?, before, readings, minted⟩ := signing
  obtain ⟨signed, inStmt, inWrapper⟩ := signs
  cases signed.placed with
  | @extended _ wrapper parms _ constraint? was now =>
      exact ⟨wrapper, _, constraint?, inWrapper wrapper rfl, now,
        List.mem_append_right parms listed⟩
  | kept => cases listed
  | @wrapped stmt template _ some was now new envelops =>
      exact ⟨template, _, none, .child (inStmt stmt rfl)
        (by simp [Arena.children, now, StmtForm.children]), envelops.form,
        listed⟩

/-- No type parameter is minted for two functions. -/
private theorem Signs.apart
    {parm : DeclId}
    {params others : List DeclId}
    {signing other : Signing}
    (rooted : compilation.arena.Rooted (.stmt compilation.unit))
    (signs : compilation.Signs params signing)
    (signsToo : compilation.Signs others other)
    (listed : parm ∈ signing.minted)
    (listedToo : parm ∈ other.minted) :
    signing.decl = other.decl := by
  obtain ⟨template, parms, _, owned, form, among⟩ :=
    signs.exists_template listed
  obtain ⟨_, more, _, ownedToo, formToo, amongToo⟩ :=
    signsToo.exists_template listedToo
  have part {template inner : DeclId} {parms : List DeclId}
      {constraint? : Option ExprId}
      (form : (compilation.arena.decl template).form =
        .template parms constraint? inner)
      (among : parm ∈ parms) :
      .decl parm ∈ compilation.arena.parts (.decl template) := by
    simp [Arena.parts, form, DeclForm.children, among]
  cases rooted.single owned ownedToo (part form among) (part formToo amongToo)
  exact (DeclForm.template.inj (form.symm.trans formToo)).2.2

end Compilation

namespace Compilation

variable {compilation : Compilation}

end Compilation

end Tern
