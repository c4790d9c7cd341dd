import Mathlib.Data.List.Forall2
import Tern.Elaboration.Merging

namespace Tern

/-!
# Types and signatures as trees

The identity of types numbers shapes as it meets them, so the number of a type
depends on what was numbered before it. The tree of a type does not: it is the
type written out, with a label for each type parameter. Two types have the same
number exactly if they have the same tree with type parameters labelled by their
index, whatever shapes were met before, and likewise two signatures.

Numbering only ever appends shapes. So a number that was given once is given
again later, and numbers given at different moments can be compared where both
are known.
-/

/-- A type written out, with a label for each type parameter. -/
inductive TypeTree (Label : Type) where
  | builtin (type : BuiltinType)
  | declared (decl : DeclId)
  | parameter (label : Label)
  | applied (template : DeclId) (args : List (TypeTree Label ⊕ ConstantShape))
  | function (params : List (TypeTree Label)) (result : TypeTree Label)
  | wrapped (wrapper : TypeWrapper) (inner : TypeTree Label)
  | array (element : TypeTree Label) (length : ConstantShape)
  | tuple (elements : List (TypeTree Label))
  | decltype (operand : ConstantShape)
  | unknown (type : TypeId)

/--
The signature of a declaration written out, with a label for each type
parameter.
-/
inductive SignatureTree (Label : Type) where
  | callable (isCoroutine : Bool) (params : List (TypeTree Label))
      (result : TypeTree Label)
  | classType (kind : TypeTree Label)
  | template (count : Nat) (inner : SignatureTree Label)

namespace Arena

section Trees

variable {Label : Type} (arena : Arena) (label : DeclId → Nat → Label)

/-- A template argument written out, given the trees of types. -/
def argTree (part : TypeId → TypeTree Label) :
    TemplateArg → TypeTree Label ⊕ ConstantShape
  | .type type => .inl (part type)
  | .expr expr => .inr (arena.constantShape expr)

/-- A declared type written out, given the trees of types. -/
def declaredTree
    (part : TypeId → TypeTree Label)
    (decl : DeclId)
    (name : NameId) :
    TypeTree Label :=
  match (arena.decl decl).form, (arena.name name).form with
  | .typeParameter index _, _ => .parameter (label decl index)
  | _, .applied template args =>
      .applied template (args.map (arena.argTree part))
  | _, _ => .declared decl

/-- A type written out, given the trees of its parts. -/
def formTree (part : TypeId → TypeTree Label) (type : TypeId) :
    TypeTree Label :=
  match (arena.type type).form with
  | .builtin builtin => .builtin builtin
  | .declared decl name => arena.declaredTree label part decl name
  | .function params result => .function (params.map part) (part result)
  | .wrapped wrapper inner => .wrapped wrapper (part inner)
  | .array element length => .array (part element) (arena.constantShape length)
  | .tuple elements => .tuple (elements.map part)
  | .decltype operand => .decltype (arena.constantShape operand)
  | .unparsed _ => .unknown type

/-- A type written out down to a depth. -/
def typeTreeWithin : Nat → TypeId → TypeTree Label
  | 0, type => .unknown type
  | depth + 1, type => arena.formTree label (typeTreeWithin depth) type

/-- A type written out. -/
def typeTree (type : TypeId) : TypeTree Label :=
  arena.typeTreeWithin label (arena.types.size + 1) type

/-- The type of a parameter written out. -/
def paramTree? (param : DeclId) : Option (TypeTree Label) :=
  match (arena.decl param).form with
  | .parameter type => some (arena.typeTree label type)
  | _ => none

/--
The signature of a declaration that may be declared more than once, below some
templates.
-/
def signatureTreeWithin? : Nat → DeclId → Option (SignatureTree Label)
  | 0, _ => none
  | depth + 1, decl =>
      match (arena.decl decl).form with
      | .callable role params result _ =>
          some (.callable role.isCoroutine
            (params.filterMap (arena.paramTree? label))
            (arena.typeTree label result))
      | .classType kind _ => some (.classType (arena.typeTree label kind))
      | .template parms _ inner =>
          (signatureTreeWithin? depth inner).map (.template parms.length)
      | _ => none

/-- The signature of a declaration that may be declared more than once. -/
def signatureTree? (decl : DeclId) : Option (SignatureTree Label) :=
  arena.signatureTreeWithin? label (arena.decls.size + 1) decl

end Trees

/-- A type parameter goes by its index, whatever template it is of. -/
def byIndex (_ : DeclId) (index : Nat) : Nat :=
  index

/--
The signature by which declarations are told apart: type parameters go by their
index.
-/
def indexedSignature? (arena : Arena) (decl : DeclId) :
    Option (SignatureTree Nat) :=
  arena.signatureTree? byIndex decl

end Arena

namespace TypeShapes

/-- All shapes known are known later, under the same numbers. -/
def GrowsTo (known later : TypeShapes) : Prop :=
  known.shapes <+: later.shapes

namespace GrowsTo

variable {known middle later : TypeShapes}

theorem refl (known : TypeShapes) : known.GrowsTo known :=
  List.prefix_rfl

theorem trans
    (first : known.GrowsTo middle)
    (second : middle.GrowsTo later) :
    known.GrowsTo later :=
  List.IsPrefix.trans first second

/-- Shapes that grow to each other are the same. -/
private theorem antisymm
    (forth : known.GrowsTo later)
    (back : later.GrowsTo known) :
    known = later := by
  cases known
  cases later
  exact congrArg
    _ (forth.eq_of_length (Nat.le_antisymm forth.length_le back.length_le))

/-- A shape keeps its number. -/
private theorem idxOf?
    (grows : known.GrowsTo later)
    {shape : TypeShape}
    {number : Nat}
    (numbered : known.shapes.idxOf? shape = some number) :
    later.shapes.idxOf? shape = some number := by
  obtain ⟨more, appended⟩ := grows
  rw [← appended, List.idxOf?, List.findIdx?_append, ← List.idxOf?, numbered]
  rfl

end GrowsTo

/-- Numbering a shape only appends. -/
theorem growsTo_handleOf
    (shape : TypeShape)
    (known : TypeShapes) :
    known.GrowsTo (handleOf shape known).2 := by
  unfold handleOf
  split
  · exact .refl known
  · exact List.prefix_append _ _

/-- Once numbered a shape has its number. -/
private theorem idxOf?_handleOf
    (shape : TypeShape)
    (known : TypeShapes) :
    (handleOf shape known).2.shapes.idxOf? shape =
      some (handleOf shape known).1.number := by
  unfold handleOf
  split
  · assumption
  · rename_i unnumbered
    have missing : List.findIdx? (· == shape) known.shapes = none := unnumbered
    simp [List.idxOf?, List.findIdx?_append, missing, count]

/-- A shape that has a number gets it again. -/
private theorem handleOf_of_idxOf?
    {shape : TypeShape}
    {known : TypeShapes}
    {number : Nat}
    (numbered : known.shapes.idxOf? shape = some number) :
    handleOf shape known = ({ number := number }, known) := by
  simp [handleOf, numbered]

end TypeShapes

/--
A computation that only appends shapes and gives the same value again wherever
the shapes are known that it left behind.
-/
structure Settles {Value : Type} (compute : Shaping Value) : Prop where
  grows : ∀ known : TypeShapes, known.GrowsTo (compute.run known).2
  again : ∀ known later : TypeShapes, (compute.run known).2.GrowsTo later →
    compute.run later = ((compute.run known).1, later)

namespace Settles

variable {Value Next : Type}

theorem pure (value : Value) : Settles (Pure.pure value) where
  grows := .refl
  again _ _ _ := rfl

theorem bind
    {compute : Shaping Value}
    {next : Value → Shaping Next}
    (settles : Settles compute)
    (nextSettles : ∀ value, Settles (next value)) :
    Settles (compute >>= next) where
  grows known :=
    (settles.grows known).trans
      ((nextSettles (compute.run known).1).grows (compute.run known).2)
  again known later grown := by
    have nextSettled := nextSettles (compute.run known).1
    have first :=
      settles.again known later
        ((nextSettled.grows (compute.run known).2).trans grown)
    have second := nextSettled.again (compute.run known).2 later grown
    rw [StateT.run_bind, first]
    exact second

theorem mapM
    {Item : Type}
    {compute : Item → Shaping Value}
    (settles : ∀ item, Settles (compute item))
    (items : List Item) :
    Settles (items.mapM compute) := by
  induction items with
  | nil =>
      rw [List.mapM_nil]
      exact .pure []
  | cons item rest inductionHypothesis =>
      rw [List.mapM_cons]
      exact (settles item).bind fun value =>
        inductionHypothesis.bind fun values =>
        .pure (value :: values)

theorem handleOf (shape : TypeShape) :
    Settles (TypeShapes.handleOf shape : Shaping TypeHandle) where
  grows := TypeShapes.growsTo_handleOf shape
  again known _ grown :=
    TypeShapes.handleOf_of_idxOf?
      (grown.idxOf? (TypeShapes.idxOf?_handleOf shape known))

end Settles

/--
Where these shapes are known, a computation gives a value without numbering a
new one.
-/
def TypeShapes.Reads
    {Value : Type}
    (known : TypeShapes)
    (compute : Shaping Value)
    (value : Value) : Prop :=
  compute.run known = (value, known)

namespace TypeShapes.Reads

variable {Value Next : Type} {known : TypeShapes}

theorem pure_iff
    {value other : Value} :
    known.Reads (pure value) other ↔ value = other :=
  ⟨congrArg Prod.fst, fun same => congrArg (·, known) same⟩

/-- What a sequence reads its parts read. -/
theorem bind
    {compute : Shaping Value}
    {next : Value → Shaping Next}
    (settles : Settles compute)
    (nextSettles : ∀ value, Settles (next value))
    {after : Next}
    (reads : known.Reads (compute >>= next) after) :
    ∃ value, known.Reads compute value ∧ known.Reads (next value) after := by
  have run : (next (compute.run known).1).run (compute.run known).2 =
      (after, known) := reads
  have back := (nextSettles (compute.run known).1).grows (compute.run known).2
  rw [run] at back
  have still : (compute.run known).2 = known :=
    back.antisymm (settles.grows known)
  rw [still] at run
  exact ⟨(compute.run known).1, Prod.ext rfl still, run⟩

/-- What a run over a list reads it reads item by item. -/
theorem mapM
    {Item : Type}
    {compute : Item → Shaping Value}
    (settles : ∀ item, Settles (compute item))
    {items : List Item}
    {values : List Value}
    (reads : known.Reads (items.mapM compute) values) :
    List.Forall₂ (fun item value => known.Reads (compute item) value) items
      values := by
  induction items generalizing values with
  | nil =>
      rw [List.mapM_nil] at reads
      obtain rfl := pure_iff.mp reads
      exact .nil
  | cons item rest inductionHypothesis =>
      rw [List.mapM_cons] at reads
      have tailSettles := Settles.mapM settles rest
      obtain ⟨value, head, reads⟩ :=
        reads.bind (settles item) fun value => tailSettles.bind fun values =>
          .pure _
      obtain ⟨others, tail, reads⟩ :=
        reads.bind tailSettles fun values => .pure _
      obtain rfl := pure_iff.mp reads
      exact .cons head (inductionHypothesis tail)

/-- The number read for a shape is that of its first occurrence. -/
theorem idxOf?
    {shape : TypeShape}
    {handle : TypeHandle}
    (reads : known.Reads (TypeShapes.handleOf shape) handle) :
    known.shapes.idxOf? shape = some handle.number := by
  have numbered := TypeShapes.idxOf?_handleOf shape known
  have run : TypeShapes.handleOf shape known = (handle, known) := reads
  rwa [run] at numbered

/-- Shapes for which the same number is read are the same. -/
private theorem shape_eq
    {shape other : TypeShape}
    {handle : TypeHandle}
    (reads : known.Reads (TypeShapes.handleOf shape) handle)
    (otherReads : known.Reads (TypeShapes.handleOf other) handle) :
    shape = other := by
  obtain ⟨inBounds, isShape, -⟩ :=
    List.findIdx?_eq_some_iff_getElem.mp reads.idxOf?
  obtain ⟨_, isOther, -⟩ :=
    List.findIdx?_eq_some_iff_getElem.mp otherReads.idxOf?
  exact (beq_iff_eq.mp isShape).symm.trans (beq_iff_eq.mp isOther)

/-- The same shape is read with the same number. -/
private theorem handle_eq
    {shape : TypeShape}
    {handle other : TypeHandle}
    (reads : known.Reads (TypeShapes.handleOf shape) handle)
    (otherReads : known.Reads (TypeShapes.handleOf shape) other) :
    handle = other :=
  congrArg Prod.fst (reads.symm.trans otherReads)

end TypeShapes.Reads

/-- Where a computation has settled its value is read. -/
theorem Settles.reads
    {Value : Type}
    {compute : Shaping Value}
    (settles : Settles compute)
    (known : TypeShapes)
    {later : TypeShapes}
    (grown : (compute.run known).2.GrowsTo later) :
    later.Reads compute (compute.run known).1 :=
  settles.again known later grown

namespace Arena

section Settling

variable (arena : Arena) {identify : TypeId → Shaping TypeHandle}
    (settles : ∀ type, Settles (identify type))

include settles

private theorem argShape_settles (arg : TemplateArg) :
    Settles (arena.argShape identify arg) := by
  cases arg with
  | type type => exact (settles type).bind fun _ => .pure _
  | expr expr => exact .pure _

private theorem declaredShape_settles (decl : DeclId) (name : NameId) :
    Settles (arena.declaredShape identify decl name) := by
  unfold declaredShape
  split
  · exact .pure _
  · exact (Settles.mapM (argShape_settles arena settles) _).bind fun _ =>
      .pure _
  · exact .pure _

theorem typeShape_settles (type : TypeId) :
    Settles (arena.typeShape identify type) := by
  unfold typeShape
  split
  · exact .pure _
  · exact declaredShape_settles arena settles _ _
  · exact (Settles.mapM settles _).bind fun _ => (settles _).bind fun _ =>
      .pure _
  · exact (settles _).bind fun _ => .pure _
  · exact (settles _).bind fun _ => .pure _
  · exact (Settles.mapM settles _).bind fun _ => .pure _
  · exact .pure _
  · exact .pure _

end Settling

variable (arena : Arena)

theorem identifyWithin_settles
    (depth : Nat)
    (type : TypeId) :
    Settles (arena.identifyWithin depth type) := by
  induction depth generalizing type with
  | zero => exact .handleOf _
  | succ depth inductionHypothesis =>
      exact (typeShape_settles arena inductionHypothesis type).bind fun shape =>
        .handleOf shape

theorem identify_settles (type : TypeId) : Settles (arena.identify type) :=
  arena.identifyWithin_settles _ type

private theorem identifyParam?_settles (param : DeclId) :
    Settles (arena.identifyParam? param) := by
  unfold identifyParam?
  split
  · exact (arena.identify_settles _).bind fun _ => .pure _
  · exact .pure _

private theorem signatureWithin?_settles
    (depth : Nat)
    (decl : DeclId) :
    Settles (arena.signatureWithin? depth decl) := by
  induction depth generalizing decl with
  | zero => exact .pure _
  | succ depth inductionHypothesis =>
      unfold signatureWithin?
      split
      · exact (Settles.mapM arena.identifyParam?_settles _).bind fun _ =>
          (arena.identify_settles _).bind fun _ => .pure _
      · exact (arena.identify_settles _).bind fun _ => .pure _
      · exact (inductionHypothesis _).bind fun _ => .pure _
      · exact .pure _

theorem signature?_settles (decl : DeclId) : Settles (arena.signature? decl) :=
  arena.signatureWithin?_settles _ decl

end Arena

/-- A template argument and its tree agree, given which numbers and trees do. -/
inductive ArgMirrors (part : TypeHandle → TypeTree Nat → Prop) :
    ArgShape → TypeTree Nat ⊕ ConstantShape → Prop where
  | type {handle : TypeHandle} {tree : TypeTree Nat}
      (agree : part handle tree) :
      ArgMirrors part (.type handle) (.inl tree)
  | constant (constant : ConstantShape) :
      ArgMirrors part (.constant constant) (.inr constant)

/-- A shape and a tree agree, given which numbers and trees of parts do. -/
inductive ShapeMirrors (part : TypeHandle → TypeTree Nat → Prop) :
    TypeShape → TypeTree Nat → Prop where
  | builtin (type : BuiltinType) :
      ShapeMirrors part (.builtin type) (.builtin type)
  | declared (decl : DeclId) :
      ShapeMirrors part (.declared decl) (.declared decl)
  | parameter (index : Nat) :
      ShapeMirrors part (.parameter index) (.parameter index)
  | applied (template : DeclId) {args : List ArgShape}
      {trees : List (TypeTree Nat ⊕ ConstantShape)}
      (agree : List.Forall₂ (ArgMirrors part) args trees) :
      ShapeMirrors part (.applied template args) (.applied template trees)
  | function {params : List TypeHandle} {result : TypeHandle}
      {paramTrees : List (TypeTree Nat)}
      {resultTree : TypeTree Nat}
        (paramsAgree : List.Forall₂ part params paramTrees)
      (resultAgree : part result resultTree) :
      ShapeMirrors part (.function params result)
        (.function paramTrees resultTree)
  | wrapped (wrapper : TypeWrapper) {inner : TypeHandle} {tree : TypeTree Nat}
      (agree : part inner tree) :
      ShapeMirrors part (.wrapped wrapper inner) (.wrapped wrapper tree)
  | array {element : TypeHandle} {tree : TypeTree Nat}
      (agree : part element tree)
      (length : ConstantShape) :
      ShapeMirrors part (.array element length) (.array tree length)
  | tuple {elements : List TypeHandle} {trees : List (TypeTree Nat)}
      (agree : List.Forall₂ part elements trees) :
      ShapeMirrors part (.tuple elements) (.tuple trees)
  | decltype (operand : ConstantShape) :
      ShapeMirrors part (.decltype operand) (.decltype operand)
  | unknown (type : TypeId) : ShapeMirrors part (.unknown type) (.unknown type)

section BiUnique

open Relator

variable {part : TypeHandle → TypeTree Nat → Prop} (unique : BiUnique part)

include unique

private theorem ArgMirrors.biUnique : BiUnique (ArgMirrors part) := by
  constructor
  · intro left right tree leftAgrees rightAgrees
    cases leftAgrees <;> cases rightAgrees
    · rename_i leftAgree _ rightAgree
      exact congrArg _ (unique.1 leftAgree rightAgree)
    · rfl
  · intro shape left right leftAgrees rightAgrees
    cases leftAgrees <;> cases rightAgrees
    · rename_i leftAgree _ rightAgree
      exact congrArg _ (unique.2 leftAgree rightAgree)
    · rfl

private theorem ShapeMirrors.biUnique : BiUnique (ShapeMirrors part) := by
  have args := (ArgMirrors.biUnique unique).forall₂
  have parts := unique.forall₂
  constructor
  · intro left right tree leftAgrees rightAgrees
    cases leftAgrees with
    | applied template agree =>
        cases rightAgrees with
        | applied _ other => obtain rfl := args.1 agree other; rfl
    | function paramsAgree resultAgree =>
        cases rightAgrees with
        | function otherParams otherResult =>
            obtain rfl := parts.1 paramsAgree otherParams
            obtain rfl := unique.1 resultAgree otherResult
            rfl
    | wrapped wrapper agree =>
        cases rightAgrees with
        | wrapped _ other => obtain rfl := unique.1 agree other; rfl
    | array agree length =>
        cases rightAgrees with
        | array other _ => obtain rfl := unique.1 agree other; rfl
    | tuple agree =>
        cases rightAgrees with
        | tuple other => obtain rfl := parts.1 agree other; rfl
    | builtin | declared | parameter | decltype | unknown =>
        cases rightAgrees
        rfl
  · intro shape left right leftAgrees rightAgrees
    cases leftAgrees with
    | applied template agree =>
        cases rightAgrees with
        | applied _ other => obtain rfl := args.2 agree other; rfl
    | function paramsAgree resultAgree =>
        cases rightAgrees with
        | function otherParams otherResult =>
            obtain rfl := parts.2 paramsAgree otherParams
            obtain rfl := unique.2 resultAgree otherResult
            rfl
    | wrapped wrapper agree =>
        cases rightAgrees with
        | wrapped _ other => obtain rfl := unique.2 agree other; rfl
    | array agree length =>
        cases rightAgrees with
        | array other _ => obtain rfl := unique.2 agree other; rfl
    | tuple agree =>
        cases rightAgrees with
        | tuple other => obtain rfl := parts.2 agree other; rfl
    | builtin | declared | parameter | decltype | unknown =>
        cases rightAgrees
        rfl

end BiUnique

namespace TypeShapes

/-- A number is read for a type of the tree. -/
def NumberOf (known : TypeShapes) (identify : TypeId → Shaping TypeHandle)
    (part : TypeId → TypeTree Nat) (handle : TypeHandle) (tree : TypeTree Nat) :
      Prop :=
  ∃ type : TypeId, known.Reads (identify type) handle ∧ part type = tree

variable {known : TypeShapes} {identify : TypeId → Shaping TypeHandle}
    {part : TypeId → TypeTree Nat}

/-- Numbers read along a list are read for the types of the trees along it. -/
private theorem Reads.numbersOf
    (settles : ∀ type, Settles (identify type))
    {types : List TypeId}
    {handles : List TypeHandle}
    (reads : known.Reads (types.mapM identify) handles) :
    List.Forall₂ (known.NumberOf identify part) handles (types.map part) := by
  rw [List.forall₂_map_right_iff]
  exact (reads.mapM settles).flip.imp fun _ type numbered =>
    ⟨type, numbered, rfl⟩

end TypeShapes

namespace Arena

variable (arena : Arena)

section Mirroring

open TypeShapes

variable {known : TypeShapes} {identify : TypeId → Shaping TypeHandle}
    (settles : ∀ type, Settles (identify type)) (part : TypeId → TypeTree Nat)

include settles

private theorem argShape_mirrors
    {arg : TemplateArg}
    {shape : ArgShape}
    (reads : known.Reads (arena.argShape identify arg) shape) :
    ArgMirrors (known.NumberOf identify part) shape
      (arena.argTree part arg) := by
  cases arg with
  | type type =>
      obtain ⟨handle, numbered, reads⟩ :=
        reads.bind (settles type) fun _ => .pure _
      obtain rfl := Reads.pure_iff.mp reads
      exact .type ⟨type, numbered, rfl⟩
  | expr expr =>
      obtain rfl := Reads.pure_iff.mp reads
      exact .constant _

private theorem declaredShape_mirrors
    {decl : DeclId}
    {name : NameId}
    {shape : TypeShape}
    (reads : known.Reads (arena.declaredShape identify decl name) shape) :
    ShapeMirrors (known.NumberOf identify part) shape
      (arena.declaredTree byIndex part decl name) := by
  unfold declaredShape at reads
  unfold declaredTree
  cases formed : (arena.decl decl).form with
  | typeParameter index default? =>
      simp only [formed] at reads ⊢
      obtain rfl := Reads.pure_iff.mp reads
      exact .parameter index
  | _ =>
      simp only [formed] at reads ⊢
      cases named : (arena.name name).form with
      | applied template args =>
          simp only [named] at reads ⊢
          have argSettles := argShape_settles arena settles
          obtain ⟨shapes, shapesRead, reads⟩ :=
            reads.bind (.mapM argSettles args) fun _ => .pure _
          obtain rfl := Reads.pure_iff.mp reads
          refine .applied template ?_
          rw [List.forall₂_map_right_iff]
          exact (shapesRead.mapM argSettles).flip.imp fun _ _ =>
            arena.argShape_mirrors settles part
      | _ =>
          simp only [named] at reads ⊢
          obtain rfl := Reads.pure_iff.mp reads
          exact .declared decl

/-- The shape read for a type agrees with its tree, where the parts do. -/
private theorem typeShape_mirrors
    {type : TypeId}
    {shape : TypeShape}
    (reads : known.Reads (arena.typeShape identify type) shape) :
    ShapeMirrors (known.NumberOf identify part) shape
      (arena.formTree byIndex part type) := by
  unfold typeShape at reads
  unfold formTree
  cases formed : (arena.type type).form with
  | builtin builtin =>
      simp only [formed] at reads ⊢
      obtain rfl := Reads.pure_iff.mp reads
      exact .builtin builtin
  | declared decl name =>
      simp only [formed] at reads ⊢
      exact arena.declaredShape_mirrors settles part reads
  | function params result =>
      simp only [formed] at reads ⊢
      obtain ⟨handles, paramReads, reads⟩ :=
        reads.bind (.mapM settles params) fun _ =>
          (settles result).bind fun _ => .pure _
      obtain ⟨handle, resultReads, reads⟩ :=
        reads.bind (settles result) fun _ => .pure _
      obtain rfl := Reads.pure_iff.mp reads
      exact .function (paramReads.numbersOf settles) ⟨result, resultReads, rfl⟩
  | wrapped wrapper inner =>
      simp only [formed] at reads ⊢
      obtain ⟨handle, numbered, reads⟩ :=
        reads.bind (settles inner) fun _ => .pure _
      obtain rfl := Reads.pure_iff.mp reads
      exact .wrapped wrapper ⟨inner, numbered, rfl⟩
  | array element length =>
      simp only [formed] at reads ⊢
      obtain ⟨handle, numbered, reads⟩ :=
        reads.bind (settles element) fun _ => .pure _
      obtain rfl := Reads.pure_iff.mp reads
      exact .array ⟨element, numbered, rfl⟩ _
  | tuple elements =>
      simp only [formed] at reads ⊢
      obtain ⟨handles, numbered, reads⟩ :=
        reads.bind (.mapM settles elements) fun _ => .pure _
      obtain rfl := Reads.pure_iff.mp reads
      exact .tuple (numbered.numbersOf settles)
  | decltype operand =>
      simp only [formed] at reads ⊢
      obtain rfl := Reads.pure_iff.mp reads
      exact .decltype _
  | unparsed range =>
      simp only [formed] at reads ⊢
      obtain rfl := Reads.pure_iff.mp reads
      exact .unknown type

end Mirroring

/--
Down to any depth types have the same number exactly if they have the same tree.
-/
private theorem identifyWithin_biUnique
    (known : TypeShapes)
    (depth : Nat) :
    Relator.BiUnique
      (known.NumberOf (arena.identifyWithin depth)
        (arena.typeTreeWithin byIndex depth)) := by
  induction depth with
  | zero =>
      constructor
      · rintro left right _ ⟨type, leftReads, rfl⟩ ⟨other, rightReads, same⟩
        obtain rfl : other = type := by
          simpa [typeTreeWithin] using same
        exact leftReads.handle_eq rightReads
      · rintro handle _ _ ⟨type, leftReads, rfl⟩ ⟨other, rightReads, rfl⟩
        obtain rfl : type = other := by
          simpa using leftReads.shape_eq rightReads
        rfl
  | succ depth inductionHypothesis =>
      have shapesUnique := ShapeMirrors.biUnique inductionHypothesis
      have shaped {type : TypeId} {handle : TypeHandle}
          (reads : known.Reads (arena.identifyWithin (depth + 1) type) handle) :
          ∃ shape, known.Reads (TypeShapes.handleOf shape) handle ∧
            ShapeMirrors (known.NumberOf (arena.identifyWithin depth)
              (arena.typeTreeWithin byIndex depth)) shape
              (arena.typeTreeWithin byIndex (depth + 1) type) := by
        have settles := arena.identifyWithin_settles depth
        obtain ⟨shape, shapeReads, numbered⟩ :=
          reads.bind (typeShape_settles arena settles type) fun _ => .handleOf _
        exact ⟨shape, numbered, arena.typeShape_mirrors settles _ shapeReads⟩
      constructor
      · rintro left right _ ⟨type, leftReads, rfl⟩ ⟨other, rightReads, same⟩
        obtain ⟨shape, leftNumbered, leftAgrees⟩ := shaped leftReads
        obtain ⟨otherShape, rightNumbered, rightAgrees⟩ := shaped rightReads
        rw [same] at rightAgrees
        obtain rfl := shapesUnique.1 leftAgrees rightAgrees
        exact leftNumbered.handle_eq rightNumbered
      · rintro handle _ _ ⟨type, leftReads, rfl⟩ ⟨other, rightReads, rfl⟩
        obtain ⟨shape, leftNumbered, leftAgrees⟩ := shaped leftReads
        obtain ⟨otherShape, rightNumbered, rightAgrees⟩ := shaped rightReads
        obtain rfl := leftNumbered.shape_eq rightNumbered
        exact shapesUnique.2 leftAgrees rightAgrees

/-- Types have the same number exactly if they have the same tree. -/
theorem identify_biUnique
    (known : TypeShapes) :
    Relator.BiUnique (known.NumberOf arena.identify (arena.typeTree byIndex)) :=
  arena.identifyWithin_biUnique known (arena.types.size + 1)

end Arena

/--
A signature and its tree agree, given which numbers and trees of types do.
-/
inductive SignatureMirrors (part : TypeHandle → TypeTree Nat → Prop) :
    Signature → SignatureTree Nat → Prop where
  | callable (isCoroutine : Bool) {params : List TypeHandle}
      {result : TypeHandle}
      {paramTrees : List (TypeTree Nat)} {resultTree : TypeTree Nat}
      (paramsAgree : List.Forall₂ part params paramTrees)
        (resultAgree : part result resultTree) :
      SignatureMirrors part (.callable isCoroutine params result)
        (.callable isCoroutine paramTrees resultTree)
  | classType {kind : TypeHandle} {tree : TypeTree Nat}
      (agree : part kind tree) :
      SignatureMirrors part (.classType kind) (.classType tree)
  | template (count : Nat) {inner : Signature} {tree : SignatureTree Nat}
      (agree : SignatureMirrors part inner tree) :
      SignatureMirrors part (.template count inner) (.template count tree)

open Relator in
theorem SignatureMirrors.biUnique
    {part : TypeHandle → TypeTree Nat → Prop}
    (unique : BiUnique part) :
    BiUnique (SignatureMirrors part) := by
  have parts := unique.forall₂
  constructor
  · intro left right tree leftAgrees rightAgrees
    induction leftAgrees generalizing right with
    | callable isCoroutine paramsAgree resultAgree =>
        cases rightAgrees with
        | callable _ otherParams otherResult =>
            obtain rfl := parts.1 paramsAgree otherParams
            obtain rfl := unique.1 resultAgree otherResult
            rfl
    | classType agree =>
        cases rightAgrees with
        | classType other => obtain rfl := unique.1 agree other; rfl
    | template count agree inductionHypothesis =>
        cases rightAgrees with
        | template _ other => obtain rfl := inductionHypothesis other; rfl
  · intro signature left right leftAgrees rightAgrees
    induction leftAgrees generalizing right with
    | callable isCoroutine paramsAgree resultAgree =>
        cases rightAgrees with
        | callable _ otherParams otherResult =>
            obtain rfl := parts.2 paramsAgree otherParams
            obtain rfl := unique.2 resultAgree otherResult
            rfl
    | classType agree =>
        cases rightAgrees with
        | classType other => obtain rfl := unique.2 agree other; rfl
    | template count agree inductionHypothesis =>
        cases rightAgrees with
        | template _ other => obtain rfl := inductionHypothesis other; rfl

namespace Arena

open TypeShapes

variable (arena : Arena) {known : TypeShapes}

/--
The numbers read for parameters that have types agree with the trees of these
types.
-/
private theorem identifyParam?_mirrors
    {params : List DeclId}
    {handles : List (Option TypeHandle)}
    (reads : known.Reads (params.mapM arena.identifyParam?) handles) :
    List.Forall₂ (known.NumberOf arena.identify (arena.typeTree byIndex))
      (handles.filterMap id) (params.filterMap (arena.paramTree? byIndex)) := by
  have each := reads.mapM arena.identifyParam?_settles
  clear reads
  induction each with
  | nil =>
      exact .nil
  | @cons param handle? params handles first _ inductionHypothesis =>
      unfold identifyParam? at first
      split at first
      · rename_i type formed
        obtain ⟨handle, numbered, first⟩ :=
          first.bind (arena.identify_settles type) fun _ => .pure _
        obtain rfl := Reads.pure_iff.mp first
        simpa [paramTree?, formed] using
          List.Forall₂.cons ⟨type, numbered, rfl⟩ inductionHypothesis
      · rename_i formed
        obtain rfl := Reads.pure_iff.mp first
        have noTree : arena.paramTree? byIndex param = none := by
          unfold paramTree?
          split
          · rename_i type isParameter
            exact absurd isParameter (formed type)
          · rfl
        simpa [noTree] using inductionHypothesis

/--
The signature read for a declaration agrees with its tree; if there is none,
neither is.
-/
private theorem signatureWithin?_mirrors
    {depth : Nat}
    {decl : DeclId}
    {signature? : Option Signature}
    (reads : known.Reads (arena.signatureWithin? depth decl) signature?) :
    Option.Rel (SignatureMirrors
      (known.NumberOf arena.identify (arena.typeTree byIndex)))
      signature? (arena.signatureTreeWithin? byIndex depth decl) := by
  induction depth generalizing decl signature? with
  | zero =>
      obtain rfl := Reads.pure_iff.mp reads
      exact .none
  | succ depth inductionHypothesis =>
      unfold signatureWithin? at reads
      unfold signatureTreeWithin?
      cases formed : (arena.decl decl).form with
      | callable role params result definition =>
          simp only [formed] at reads ⊢
          obtain ⟨handles, paramReads, reads⟩ :=
            reads.bind (.mapM arena.identifyParam?_settles params) fun _ =>
              (arena.identify_settles result).bind fun _ => .pure _
          obtain ⟨handle, resultReads, reads⟩ :=
            reads.bind (arena.identify_settles result) fun _ => .pure _
          obtain rfl := Reads.pure_iff.mp reads
          exact .some (.callable _ (arena.identifyParam?_mirrors paramReads)
            ⟨result, resultReads, rfl⟩)
      | classType kind definition =>
          simp only [formed] at reads ⊢
          obtain ⟨handle, numbered, reads⟩ :=
            reads.bind (arena.identify_settles kind) fun _ => .pure _
          obtain rfl := Reads.pure_iff.mp reads
          exact .some (.classType ⟨kind, numbered, rfl⟩)
      | template parms constraint? inner =>
          simp only [formed] at reads ⊢
          obtain ⟨inner?, innerReads, reads⟩ :=
            reads.bind (arena.signatureWithin?_settles depth inner) fun _ =>
              .pure _
          obtain rfl := Reads.pure_iff.mp reads
          have agree := inductionHypothesis innerReads
          generalize arena.signatureTreeWithin? byIndex depth inner =
            tree? at agree
          cases agree with
          | none => exact .none
          | some agree => exact .some (.template _ agree)
      | _ =>
          simp only [formed] at reads ⊢
          obtain rfl := Reads.pure_iff.mp reads
          exact .none

/--
The signature read for a declaration agrees with its tree; if there is none,
neither is.
-/
theorem signature?_mirrors
    {decl : DeclId}
    {signature? : Option Signature}
    (reads : known.Reads (arena.signature? decl) signature?) :
    Option.Rel (SignatureMirrors
      (known.NumberOf arena.identify (arena.typeTree byIndex)))
      signature? (arena.indexedSignature? decl) :=
  arena.signatureWithin?_mirrors reads

end Arena

end Tern
