import Mathlib.Data.List.Perm.Subperm
import Mathlib.Logic.Relation
import Tern.Proofs.Elaboration.TypeIdentity

namespace Tern

/-!
# When types are the same

Two types are the same if they are built alike from parts that are the same.
This says nothing of numbers or trees; it reads the arena alone. If no type is a
part of itself, writing types out ends before the bound on the depth is reached,
and types are the same exactly if they have the same tree.
-/

namespace Arena

/-- A declaration is a type parameter of an index. -/
def IsTypeParameter (arena : Arena) (decl : DeclId) (index : Nat) : Prop :=
  ∃ default?, (arena.decl decl).form = .typeParameter index default?

/-- A name is a template with its arguments. -/
def IsApplied
    (arena : Arena)
    (name : NameId)
    (template : DeclId)
    (args : List TemplateArg) :
    Prop :=
  (arena.name name).form = .applied template args

/--
Expressions within types are the same if they are the same literal or one
expression.
-/
inductive SameConstant (arena : Arena) (left right : ExprId) : Prop
  | int {value : Nat}
      (formed : (arena.expr left).form = .int value)
      (otherFormed : (arena.expr right).form = .int value) :
      SameConstant arena left right
  | bool {value : Bool}
      (formed : (arena.expr left).form = .bool value)
      (otherFormed : (arena.expr right).form = .bool value) :
      SameConstant arena left right
  | term (same : left = right) :
      SameConstant arena left right

/-- Template arguments are the same if they are the same type or constant. -/
inductive SameArg (arena : Arena) (alike : TypeId → TypeId → Prop) :
    TemplateArg → TemplateArg → Prop
  | type {left right : TypeId} (same : alike left right) :
      SameArg arena alike (.type left) (.type right)
  | expr {left right : ExprId} (same : arena.SameConstant left right) :
      SameArg arena alike (.expr left) (.expr right)

/-- Types are the same if they are built alike from parts that are the same. -/
inductive SameType (arena : Arena) : TypeId → TypeId → Prop
  | builtin {left right : TypeId} {builtin : BuiltinType}
      (formed : (arena.type left).form = .builtin builtin)
      (otherFormed : (arena.type right).form = .builtin builtin) :
      SameType arena left right
  | parameter {left right : TypeId} {decl otherDecl : DeclId}
      {name otherName : NameId}
      {index : Nat}
      (formed : (arena.type left).form = .declared decl name)
      (otherFormed : (arena.type right).form = .declared otherDecl otherName)
      (isParameter : arena.IsTypeParameter decl index)
      (otherParameter : arena.IsTypeParameter otherDecl index) :
      SameType arena left right
  | applied {left right : TypeId} {decl otherDecl : DeclId}
      {name otherName : NameId}
      {template : DeclId} {args otherArgs : List TemplateArg}
      (formed : (arena.type left).form = .declared decl name)
      (otherFormed : (arena.type right).form = .declared otherDecl otherName)
      (noParameter : ∀ index, ¬ arena.IsTypeParameter decl index)
      (otherNoParameter : ∀ index, ¬ arena.IsTypeParameter otherDecl index)
      (isApplied : arena.IsApplied name template args)
      (otherApplied : arena.IsApplied otherName template otherArgs)
      (same : List.Forall₂ (arena.SameArg (SameType arena)) args otherArgs) :
      SameType arena left right
  | declared {left right : TypeId} {decl : DeclId} {name otherName : NameId}
      (formed : (arena.type left).form = .declared decl name)
      (otherFormed : (arena.type right).form = .declared decl otherName)
      (noParameter : ∀ index, ¬ arena.IsTypeParameter decl index)
      (unapplied : ∀ template args, ¬ arena.IsApplied name template args)
      (otherUnapplied : ∀ template args,
        ¬ arena.IsApplied otherName template args) :
      SameType arena left right
  | function {left right : TypeId} {params otherParams : List TypeId}
      {result otherResult : TypeId}
      (formed : (arena.type left).form = .function params result)
      (otherFormed : (arena.type right).form =
        .function otherParams otherResult)
      (sameParams : List.Forall₂ (SameType arena) params otherParams)
      (sameResult : SameType arena result otherResult) :
      SameType arena left right
  | wrapped {left right : TypeId} {wrapper : TypeWrapper}
      {inner otherInner : TypeId}
      (formed : (arena.type left).form = .wrapped wrapper inner)
      (otherFormed : (arena.type right).form = .wrapped wrapper otherInner)
      (same : SameType arena inner otherInner) :
      SameType arena left right
  | array {left right : TypeId} {element otherElement : TypeId}
      {length otherLength : ExprId}
      (formed : (arena.type left).form = .array element length)
      (otherFormed : (arena.type right).form = .array otherElement otherLength)
      (sameElement : SameType arena element otherElement)
      (sameLength : arena.SameConstant length otherLength) :
      SameType arena left right
  | tuple {left right : TypeId} {elements otherElements : List TypeId}
      (formed : (arena.type left).form = .tuple elements)
      (otherFormed : (arena.type right).form = .tuple otherElements)
      (same : List.Forall₂ (SameType arena) elements otherElements) :
      SameType arena left right
  | decltype {left right : TypeId} {operand otherOperand : ExprId}
      (formed : (arena.type left).form = .decltype operand)
      (otherFormed : (arena.type right).form = .decltype otherOperand)
      (same : arena.SameConstant operand otherOperand) :
      SameType arena left right
  | /-- A type not parsed yet is the same as itself only. -/
    unparsed {type : TypeId} {range : TokenRange}
      (formed : (arena.type type).form = .unparsed range) :
      SameType arena type type

/-- The types that a template argument mentions. -/
def argPart? : TemplateArg → Option TypeId
  | .type type => some type
  | .expr _ => none

/-- The types that a type is built from. -/
def typeParts (arena : Arena) (type : TypeId) : List TypeId :=
  match (arena.type type).form with
  | .declared _ name =>
      match (arena.name name).form with
      | .applied _ args => args.filterMap argPart?
      | _ => []
  | .function params result => params ++ [result]
  | .wrapped _ inner => [inner]
  | .array element _ => [element]
  | .tuple elements => elements
  | _ => []

/-- One type is built from another one. -/
def HasPart (arena : Arena) (whole part : TypeId) : Prop :=
  part ∈ arena.typeParts whole

/-- No type is built from itself. -/
def Acyclic (arena : Arena) : Prop :=
  ∀ type, ¬ Relation.TransGen arena.HasPart type type

/-- Going from a type to its parts comes to an end within so many steps. -/
def EndsWithin (arena : Arena) : Nat → TypeId → Prop
  | 0, _ => False
  | depth + 1, type => ∀ part ∈ arena.typeParts type,
      arena.EndsWithin depth part

variable {arena : Arena}

/-- What has parts is stored. -/
theorem HasPart.lt_size {whole part : TypeId} (has : arena.HasPart whole part) :
    whole.raw < arena.types.size := by
  apply Nat.lt_of_not_le
  intro outside
  have vacant : arena.type whole = Vacant.type := by
    rw [type, Array.getD_eq_getD_getElem?, Array.getElem?_eq_none outside,
      Option.getD_none]
  rw [HasPart, typeParts, vacant] at has
  cases has

/-- Different types with parts are no more than the types stored. -/
private theorem length_le_of_hasPart
    {wholes : List TypeId}
    (distinct : wholes.Nodup)
    (having : ∀ whole ∈ wholes, ∃ part, arena.HasPart whole part) :
    wholes.length ≤ arena.types.size := by
  have listed : ∀ whole ∈ wholes, whole ∈ (List.range arena.types.size).map
      Slot.mk := by
    intro whole isWhole
    obtain ⟨part, has⟩ := having whole isWhole
    exact List.mem_map.mpr ⟨whole.raw, List.mem_range.mpr has.lt_size, rfl⟩
  simpa using (List.subperm_of_subset distinct listed).length_le

/-- Types with larger numbers than their parts are acyclic. -/
theorem acyclic_of_lt
    (smaller : ∀ {whole part}, arena.HasPart whole part →
      part.raw < whole.raw) :
    arena.Acyclic := by
  have below {whole part : TypeId}
      (leads : Relation.TransGen arena.HasPart whole part) :
      part.raw < whole.raw := by
    induction leads with
    | single isPart => exact smaller isPart
    | tail _ isPart inductionHypothesis =>
        exact Nat.lt_trans (smaller isPart) inductionHypothesis
  exact fun type leads => Nat.lt_irrefl _ (below leads)

namespace Acyclic

variable (acyclic : arena.Acyclic)

include acyclic

/--
Below some types that lead to it a type ends within the number of the others.
-/
private theorem endsWithin_below
    {depth : Nat}
    {type : TypeId}
    {above : List TypeId}
    (distinct : above.Nodup)
    (leading : ∀ whole ∈ above, Relation.TransGen arena.HasPart whole type)
    (enough : arena.types.size < depth + above.length) :
    arena.EndsWithin depth type := by
  induction depth generalizing type above with
  | zero =>
      have few : above.length ≤ arena.types.size := by
        refine length_le_of_hasPart distinct fun whole isAbove => ?_
        obtain ⟨part, has, -⟩ :=
          Relation.TransGen.head'_iff.mp (leading whole isAbove)
        exact ⟨part, has⟩
      omega
  | succ depth inductionHypothesis =>
      intro part isPart
      have fresh : type ∉ above :=
        fun isAbove => acyclic type (leading type isAbove)
      refine inductionHypothesis (List.nodup_cons.mpr ⟨fresh, distinct⟩) ?_
        (by simp; omega)
      exact List.forall_mem_cons.mpr
        ⟨.single isPart, fun whole isAbove =>
          (leading whole isAbove).tail isPart⟩

/-- Writing out a type comes to an end. -/
theorem endsWithin (type : TypeId) :
    arena.EndsWithin (arena.types.size + 1) type :=
  acyclic.endsWithin_below List.nodup_nil (fun _ isAbove => nomatch isAbove)
    (Nat.lt_succ_self _)

end Acyclic

private theorem constantShape_eq_iff {left right : ExprId} :
    arena.constantShape left = arena.constantShape right ↔
      arena.SameConstant left right := by
  constructor
  · intro same
    unfold constantShape at same
    split at same
    next value formed =>
      split at same
      next other otherFormed =>
        cases same
        exact .int formed otherFormed
      all_goals cases same
    next value formed =>
      split at same
      next => cases same
      next other otherFormed =>
        cases same
        exact .bool formed otherFormed
      next => cases same
    next =>
      split at same
      next => cases same
      next => cases same
      next =>
        cases same
        exact .term rfl
  · rintro (⟨formed, otherFormed⟩ | ⟨formed, otherFormed⟩ | same)
    · simp [constantShape, formed, otherFormed]
    · simp [constantShape, formed, otherFormed]
    · rw [same]

/-- What holds of the members of two lists holds along them. -/
private theorem forall₂_iff_of_mem
    {Left Right : Type}
    {relation other : Left → Right → Prop}
    {lefts : List Left}
    {rights : List Right}
    (agree : ∀ left ∈ lefts, ∀ right ∈ rights, relation left right ↔
      other left right) :
    List.Forall₂ relation lefts rights ↔ List.Forall₂ other lefts rights := by
  induction lefts generalizing rights with
  | nil => simp
  | cons left lefts inductionHypothesis =>
      cases rights with
      | nil => simp
      | cons right rights =>
          rw [List.forall₂_cons, List.forall₂_cons,
            agree left (by simp) right (by simp),
            inductionHypothesis fun left isLeft right isRight =>
              agree left (by simp [isLeft]) right (by simp [isRight])]

/-- Lists are written out alike if their members are. -/
private theorem map_eq_map_iff
    {Item Value : Type}
    {written : Item → Value}
    {alike : Item → Item → Prop}
    {lefts rights : List Item}
    (agree : ∀ left ∈ lefts, ∀ right ∈ rights, written left = written right ↔
      alike left right) :
    lefts.map written = rights.map written ↔
      List.Forall₂ alike lefts rights := by
  rw [← List.forall₂_eq_eq_eq, List.forall₂_map_left_iff,
    List.forall₂_map_right_iff]
  exact forall₂_iff_of_mem agree

section Written

variable {written : TypeId → TypeTree Nat} {alike : TypeId → TypeId → Prop}

private theorem argTree_eq_iff
    {left right : TemplateArg}
    (agree : ∀ type ∈ argPart? left, ∀ other ∈ argPart? right,
      written type = written other ↔ alike type other) :
    arena.argTree written left = arena.argTree written right ↔
      arena.SameArg alike left right := by
  cases left with
  | type left =>
      cases right with
      | type right =>
          rw [argTree, argTree, Sum.inl.injEq, agree left rfl right rfl]
          exact ⟨.type, fun | .type same => same⟩
      | expr right => exact ⟨nofun, nofun⟩
  | expr left =>
      cases right with
      | type right => exact ⟨nofun, nofun⟩
      | expr right =>
          rw [argTree, argTree, Sum.inr.injEq, constantShape_eq_iff]
          exact ⟨.expr, fun | .expr same => same⟩

/-- What a type is written out as, given the trees of its parts. -/
inductive WrittenAs
    (arena : Arena)
    (written : TypeId → TypeTree Nat)
    (type : TypeId) :
    TypeTree Nat → Prop
  | builtin {builtin : BuiltinType}
      (formed : (arena.type type).form = .builtin builtin) :
      WrittenAs arena written type (.builtin builtin)
  | parameter {decl : DeclId} {name : NameId} {index : Nat}
      (formed : (arena.type type).form = .declared decl name)
      (isParameter : arena.IsTypeParameter decl index) :
      WrittenAs arena written type (.parameter index)
  | applied {decl : DeclId} {name : NameId} {template : DeclId}
      {args : List TemplateArg}
      {trees : List (TypeTree Nat ⊕ ConstantShape)}
      (formed : (arena.type type).form = .declared decl name)
      (noParameter : ∀ index, ¬ arena.IsTypeParameter decl index)
      (isApplied : arena.IsApplied name template args)
      (same : args.map (arena.argTree written) = trees) :
      WrittenAs arena written type (.applied template trees)
  | declared {decl : DeclId} {name : NameId}
      (formed : (arena.type type).form = .declared decl name)
      (noParameter : ∀ index, ¬ arena.IsTypeParameter decl index)
      (unapplied : ∀ template args, ¬ arena.IsApplied name template args) :
      WrittenAs arena written type (.declared decl)
  | function {params : List TypeId} {result : TypeId}
      {trees : List (TypeTree Nat)}
      {tree : TypeTree Nat}
      (formed : (arena.type type).form = .function params result)
      (sameParams : params.map written = trees)
      (sameResult : written result = tree) :
      WrittenAs arena written type (.function trees tree)
  | wrapped {wrapper : TypeWrapper} {inner : TypeId} {tree : TypeTree Nat}
      (formed : (arena.type type).form = .wrapped wrapper inner)
      (same : written inner = tree) :
      WrittenAs arena written type (.wrapped wrapper tree)
  | array {element : TypeId} {length : ExprId} {tree : TypeTree Nat}
      {constant : ConstantShape}
      (formed : (arena.type type).form = .array element length)
      (sameElement : written element = tree)
      (sameLength : arena.constantShape length = constant) :
      WrittenAs arena written type (.array tree constant)
  | tuple {elements : List TypeId} {trees : List (TypeTree Nat)}
      (formed : (arena.type type).form = .tuple elements)
      (same : elements.map written = trees) :
      WrittenAs arena written type (.tuple trees)
  | decltype {operand : ExprId} {constant : ConstantShape}
      (formed : (arena.type type).form = .decltype operand)
      (same : arena.constantShape operand = constant) :
      WrittenAs arena written type (.decltype constant)
  | unparsed {range : TokenRange}
      (formed : (arena.type type).form = .unparsed range) :
      WrittenAs arena written type (.unknown type)

/-- A type is written out as its tree. -/
private theorem writtenAs_formTree (type : TypeId) :
    arena.WrittenAs written type (arena.formTree byIndex written type) := by
  unfold formTree
  cases formed : (arena.type type).form with
  | builtin => exact .builtin formed
  | function => exact .function formed rfl rfl
  | wrapped => exact .wrapped formed rfl
  | array => exact .array formed rfl rfl
  | tuple => exact .tuple formed rfl
  | decltype => exact .decltype formed rfl
  | unparsed => exact .unparsed formed
  | declared decl name =>
      unfold declaredTree
      dsimp only
      split
      next index default? isParameter =>
        exact .parameter formed ⟨default?, isParameter⟩
      next template args isApplied noParameter =>
        exact .applied formed (fun index ⟨default?, is⟩ =>
          noParameter index default? is) isApplied
          rfl
      next noParameter unapplied =>
        exact .declared formed (fun index ⟨default?, is⟩ =>
          noParameter index default? is)
          unapplied

/-- What a type is written out as is its tree. -/
private theorem WrittenAs.eq
    {type : TypeId}
    {tree : TypeTree Nat}
    (writtenAs : arena.WrittenAs written type tree) :
    arena.formTree byIndex written type = tree := by
  cases writtenAs with
  | builtin formed => rw [formTree, formed]
  | parameter formed isParameter =>
      obtain ⟨default?, isParameter⟩ := isParameter
      rw [formTree, formed]
      simp only [declaredTree, isParameter, byIndex]
  | applied formed noParameter isApplied same =>
      rw [formTree, formed]
      dsimp only [declaredTree]
      rw [isApplied]
      split
      next index default? isParameter =>
        exact absurd ⟨default?, isParameter⟩ (noParameter index)
      next isName _ =>
        cases isName
        rw [same]
      next unapplied => exact absurd rfl (unapplied _ _)
  | declared formed noParameter unapplied =>
      rw [formTree, formed]
      dsimp only [declaredTree]
      split
      next index default? isParameter =>
        exact absurd ⟨default?, isParameter⟩ (noParameter index)
      next template args isName _ =>
        exact absurd isName (unapplied template args)
      next => rfl
  | function formed sameParams sameResult =>
      rw [formTree, formed, ← sameParams, ← sameResult]
  | wrapped formed same => rw [formTree, formed, ← same]
  | array formed sameElement sameLength =>
      rw [formTree, formed, ← sameElement, ← sameLength]
  | tuple formed same => rw [formTree, formed, ← same]
  | decltype formed same => rw [formTree, formed, ← same]
  | unparsed formed => rw [formTree, formed]

section Parts

variable {left right : TypeId}
    (agree : ∀ part ∈ arena.typeParts left, ∀ other ∈ arena.typeParts right,
      written part = written other ↔ arena.SameType part other)

include agree

/--
Arguments are written out alike exactly if they are the same, given that of
their types.
-/
private theorem map_argTree_eq_iff
    {decl otherDecl : DeclId}
    {name otherName : NameId}
    {template : DeclId}
    {args otherArgs : List TemplateArg}
    (formed : (arena.type left).form = .declared decl name)
    (otherFormed : (arena.type right).form = .declared otherDecl otherName)
    (isApplied : arena.IsApplied name template args)
    (otherApplied : arena.IsApplied otherName template otherArgs) :
    args.map (arena.argTree written) = otherArgs.map (arena.argTree written) ↔
      List.Forall₂ (arena.SameArg arena.SameType) args otherArgs := by
  unfold IsApplied at isApplied otherApplied
  simp only [typeParts, formed, otherFormed, isApplied, otherApplied,
    List.mem_filterMap] at agree
  refine map_eq_map_iff fun arg isArg other isOther => argTree_eq_iff ?_
  exact fun type isType otherType isOtherType =>
    agree type ⟨arg, isArg, isType⟩ otherType ⟨other, isOther, isOtherType⟩

/-- Types written out alike are the same. -/
private theorem sameType_of_formTree_eq
    (same : arena.formTree byIndex written left =
      arena.formTree byIndex written right) :
    arena.SameType left right := by
  have isLeft : arena.WrittenAs written left _ := writtenAs_formTree left
  have isRight : arena.WrittenAs written right _ := writtenAs_formTree right
  rw [same] at isLeft
  generalize arena.formTree byIndex written right = tree at isLeft isRight
  clear same
  cases isLeft with
  | builtin formed =>
      cases isRight with
      | builtin otherFormed => exact .builtin formed otherFormed
  | parameter formed isParameter =>
      cases isRight with
      | parameter otherFormed otherParameter =>
          exact .parameter formed otherFormed isParameter otherParameter
  | applied formed noParameter isApplied same =>
      cases isRight with
      | applied otherFormed otherNoParameter otherApplied otherSame =>
          refine .applied formed otherFormed noParameter otherNoParameter
            isApplied otherApplied ?_
          exact (map_argTree_eq_iff agree formed otherFormed isApplied
            otherApplied).mp
            (same.trans otherSame.symm)
  | declared formed noParameter unapplied =>
      cases isRight with
      | declared otherFormed otherNoParameter otherUnapplied =>
          exact .declared formed otherFormed noParameter unapplied
            otherUnapplied
  | function formed sameParams sameResult =>
      cases isRight with
      | function otherFormed otherParams otherResult =>
          simp only [typeParts, formed, otherFormed, List.mem_append] at agree
          have params := (map_eq_map_iff fun param isParam other isOther =>
            agree param (.inl isParam) other (.inl isOther)).mp
              (sameParams.trans otherParams.symm)
          have result :=
            (agree _ (.inr List.mem_cons_self) _ (.inr List.mem_cons_self)).mp
            (sameResult.trans otherResult.symm)
          exact .function formed otherFormed params result
  | wrapped formed same =>
      cases isRight with
      | wrapped otherFormed otherSame =>
          simp only [typeParts, formed, otherFormed, List.forall_mem_singleton]
            at agree
          exact .wrapped formed otherFormed
            (agree.mp (same.trans otherSame.symm))
  | array formed sameElement sameLength =>
      cases isRight with
      | array otherFormed otherElement otherLength =>
          simp only [typeParts, formed, otherFormed, List.forall_mem_singleton]
            at agree
          exact .array formed otherFormed
            (agree.mp (sameElement.trans otherElement.symm))
            (constantShape_eq_iff.mp (sameLength.trans otherLength.symm))
  | tuple formed same =>
      cases isRight with
      | tuple otherFormed otherSame =>
          simp only [typeParts, formed, otherFormed] at agree
          exact .tuple formed otherFormed
            ((map_eq_map_iff agree).mp (same.trans otherSame.symm))
  | decltype formed same =>
      cases isRight with
      | decltype otherFormed otherSame =>
          exact .decltype formed otherFormed
            (constantShape_eq_iff.mp (same.trans otherSame.symm))
  | unparsed formed =>
      cases isRight with
      | unparsed otherFormed => exact .unparsed formed

/-- The same types are written out alike. -/
private theorem formTree_eq_of_sameType (same : arena.SameType left right) :
    arena.formTree byIndex written left =
      arena.formTree byIndex written right := by
  cases same with
  | builtin formed otherFormed =>
      exact (WrittenAs.builtin formed).eq.trans
        (WrittenAs.builtin otherFormed).eq.symm
  | parameter formed otherFormed isParameter otherParameter =>
      exact (WrittenAs.parameter formed isParameter).eq.trans
        (WrittenAs.parameter otherFormed otherParameter).eq.symm
  | applied formed otherFormed noParameter otherNoParameter isApplied
      otherApplied same =>
      have args :=
        (map_argTree_eq_iff agree formed otherFormed isApplied otherApplied).mpr
          same
      exact (WrittenAs.applied formed noParameter isApplied args).eq.trans
        (WrittenAs.applied otherFormed otherNoParameter otherApplied
          rfl).eq.symm
  | declared formed otherFormed noParameter unapplied otherUnapplied =>
      exact (WrittenAs.declared formed noParameter unapplied).eq.trans
        (WrittenAs.declared otherFormed noParameter otherUnapplied).eq.symm
  | function formed otherFormed sameParams sameResult =>
      simp only [typeParts, formed, otherFormed, List.mem_append] at agree
      have params := (map_eq_map_iff fun param isParam other isOther =>
        agree param (.inl isParam) other (.inl isOther)).mpr sameParams
      have result :=
        (agree _ (.inr List.mem_cons_self) _ (.inr List.mem_cons_self)).mpr
          sameResult
      exact (WrittenAs.function formed params result).eq.trans
        (WrittenAs.function otherFormed rfl rfl).eq.symm
  | wrapped formed otherFormed same =>
      simp only [typeParts, formed, otherFormed, List.forall_mem_singleton]
        at agree
      exact (WrittenAs.wrapped formed (agree.mpr same)).eq.trans
        (WrittenAs.wrapped otherFormed rfl).eq.symm
  | array formed otherFormed sameElement sameLength =>
      simp only [typeParts, formed, otherFormed, List.forall_mem_singleton]
        at agree
      have length := constantShape_eq_iff.mpr sameLength
      exact (WrittenAs.array formed (agree.mpr sameElement) length).eq.trans
        (WrittenAs.array otherFormed rfl rfl).eq.symm
  | tuple formed otherFormed same =>
      simp only [typeParts, formed, otherFormed] at agree
      exact (WrittenAs.tuple formed ((map_eq_map_iff agree).mpr same)).eq.trans
        (WrittenAs.tuple otherFormed rfl).eq.symm
  | decltype formed otherFormed same =>
      exact (WrittenAs.decltype formed (constantShape_eq_iff.mpr same)).eq.trans
        (WrittenAs.decltype otherFormed rfl).eq.symm
  | unparsed formed => rfl

end Parts

end Written

/--
Where writing out ends, types have the same tree exactly if they are the same.
-/
private theorem typeTreeWithin_eq_iff
    {depth : Nat}
    {left right : TypeId}
    (ends : arena.EndsWithin depth left)
    (otherEnds : arena.EndsWithin depth right) :
    arena.typeTreeWithin byIndex depth left =
      arena.typeTreeWithin byIndex depth right ↔
      arena.SameType left right := by
  induction depth generalizing left right with
  | zero => exact ends.elim
  | succ depth inductionHypothesis =>
      have agree : ∀ part ∈ arena.typeParts left,
          ∀ other ∈ arena.typeParts right,
          arena.typeTreeWithin byIndex depth part =
            arena.typeTreeWithin byIndex depth other ↔
            arena.SameType part other :=
        fun part isPart other isOther =>
          inductionHypothesis (ends part isPart) (otherEnds other isOther)
      exact ⟨sameType_of_formTree_eq agree, formTree_eq_of_sameType agree⟩

/-- Types have the same tree exactly if they are the same. -/
theorem Acyclic.typeTree_eq_iff
    (acyclic : arena.Acyclic)
    {left right : TypeId} :
    arena.typeTree byIndex left = arena.typeTree byIndex right ↔
      arena.SameType left right :=
  typeTreeWithin_eq_iff (acyclic.endsWithin left) (acyclic.endsWithin right)

end Arena

end Tern
