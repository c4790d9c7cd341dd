import Tern.Proofs.Elaboration.SameTypes

namespace Tern

/-!
# Numbers of types are canonical

Types asked for one after the other get the same number exactly if they are the
same, whatever was asked for in between. A number stays with its type, and each
number below the count of shapes is that of a type asked for or of a part of
one.
-/

namespace TypeShapes

variable {Value : Type} {known later : TypeShapes}

/-- What is read goes on being read while shapes are added. -/
private theorem Reads.grow
    {compute : Shaping Value}
    {value : Value}
    (reads : known.Reads compute value)
    (settles : Settles compute)
    (grown : known.GrowsTo later) :
    later.Reads compute value := by
  have run : compute.run known = (value, known) := reads
  have again := settles.again known later (by rwa [run])
  rwa [run] at again

/-- The number read for a shape is one of those known. -/
private theorem Reads.lt_count
    {shape : TypeShape}
    {handle : TypeHandle}
    (reads : known.Reads (TypeShapes.handleOf shape) handle) :
    handle.number < known.count := by
  obtain ⟨inBounds, -, -⟩ := List.findIdx?_eq_some_iff_getElem.mp reads.idxOf?
  exact inBounds

/-- Numbering a shape adds no number but its own. -/
private theorem lt_count_handleOf
    {shape : TypeShape}
    {number : Nat}
    (inside : number < (handleOf shape known).2.count) :
    number < known.count ∨ number = (handleOf shape known).1.number := by
  unfold handleOf at inside ⊢
  split at inside
  · exact .inl inside
  · simp only [count, List.length_append, List.length_singleton] at inside ⊢
    omega

end TypeShapes

namespace Arena

variable {arena : Arena}

/-- The number of a type is one of those known. -/
private theorem number_lt_count
    {known : TypeShapes}
    {type : TypeId}
    {handle : TypeHandle}
    (reads : known.Reads (arena.identify type) handle) :
    handle.number < known.count := by
  obtain ⟨shape, -, numbered⟩ := TypeShapes.Reads.bind
    (arena.typeShape_settles (arena.identifyWithin_settles _) type)
      (fun _ => .handleOf _) reads
  exact numbered.lt_count

section Agreeing

variable {identify other : TypeId → Shaping TypeHandle}

private theorem mapM_congr_of_mem
    {Item Value : Type}
    {compute other : Item → Shaping Value}
    {items : List Item}
    (agree : ∀ item ∈ items, compute item = other item) :
    items.mapM compute = items.mapM other := by
  induction items with
  | nil => rfl
  | cons item rest inductionHypothesis =>
      rw [List.mapM_cons, List.mapM_cons, agree item List.mem_cons_self,
        inductionHypothesis fun item isRest =>
          agree item (List.mem_cons_of_mem _ isRest)]

/-- The shape of a type depends on the numbers of its parts only. -/
private theorem typeShape_congr
    {type : TypeId}
    (agree : ∀ part ∈ arena.typeParts type, identify part = other part) :
    arena.typeShape identify type = arena.typeShape other type := by
  unfold typeShape
  cases formed : (arena.type type).form with
  | function params result =>
      simp only [typeParts, formed, List.mem_append] at agree
      simp only [mapM_congr_of_mem fun param isParam =>
        agree param (.inl isParam), agree result (.inr List.mem_cons_self)]
  | wrapped wrapper inner =>
      simp only [typeParts, formed, List.forall_mem_singleton] at agree
      simp only [agree]
  | array element length =>
      simp only [typeParts, formed, List.forall_mem_singleton] at agree
      simp only [agree]
  | tuple elements =>
      simp only [typeParts, formed] at agree
      simp only [mapM_congr_of_mem agree]
  | declared decl name =>
      dsimp only [declaredShape]
      cases named : (arena.name name).form with
      | applied template args =>
          simp only [typeParts, formed, named, List.mem_filterMap] at agree
          have sameArgs :
              args.mapM (arena.argShape identify) =
                args.mapM (arena.argShape other) := by
            refine mapM_congr_of_mem fun arg isArg => ?_
            cases arg with
            | type type => rw [argShape, argShape, agree type ⟨_, isArg, rfl⟩]
            | expr expr => rfl
          cases (arena.decl decl).form <;> simp only [sameArgs]
      | _ => cases (arena.decl decl).form <;> rfl
  | _ => rfl

end Agreeing

/-- Where going to the parts ends, looking deeper gives the same number. -/
private theorem identifyWithin_eq
    {depth deeper : Nat}
    {type : TypeId}
    (ends : arena.EndsWithin depth type)
    (endsDeeper : arena.EndsWithin deeper type) :
    arena.identifyWithin depth type = arena.identifyWithin deeper type := by
  induction depth generalizing deeper type with
  | zero => exact ends.elim
  | succ depth inductionHypothesis =>
      cases deeper with
      | zero => exact endsDeeper.elim
      | succ deeper =>
          rw [identifyWithin, identifyWithin, typeShape_congr fun part isPart =>
            inductionHypothesis (ends part isPart) (endsDeeper part isPart)]

/-- Every number is that of a type of some kind. -/
def NumbersOnly
    (arena : Arena)
    (kind : TypeId → Prop)
    (known : TypeShapes) :
    Prop :=
  ∀ number < known.count, ∃ type, kind type ∧
    known.Reads (arena.identify type) { number := number }

/-- A computation numbers types of some kind only. -/
def KeepsNumbers
    (arena : Arena)
    (kind : TypeId → Prop)
    {Value : Type}
    (compute : Shaping Value) :
    Prop :=
  ∀ known, arena.NumbersOnly kind known →
    arena.NumbersOnly kind (compute.run known).2

namespace KeepsNumbers

variable {kind : TypeId → Prop} {Value Next : Type}

theorem pure (value : Value) : arena.KeepsNumbers kind (Pure.pure value) :=
  fun _ numbers => numbers

theorem bind
    {compute : Shaping Value}
    {next : Value → Shaping Next}
    (keeps : arena.KeepsNumbers kind compute)
    (nextKeeps : ∀ value, arena.KeepsNumbers kind (next value)) :
    arena.KeepsNumbers kind (compute >>= next) :=
  fun known numbers => nextKeeps _ _ (keeps known numbers)

theorem mapM
    {Item : Type}
    {compute : Item → Shaping Value}
    {items : List Item}
    (keeps : ∀ item ∈ items, arena.KeepsNumbers kind (compute item)) :
    arena.KeepsNumbers kind (items.mapM compute) := by
  induction items with
  | nil =>
      rw [List.mapM_nil]
      exact .pure []
  | cons item rest inductionHypothesis =>
      rw [List.mapM_cons]
      refine (keeps item List.mem_cons_self).bind fun value => ?_
      refine (inductionHypothesis fun item isRest =>
        keeps item (List.mem_cons_of_mem _ isRest)).bind fun values => ?_
      exact .pure (value :: values)

/-- The shape of a type numbers what its parts do. -/
private theorem typeShape
    {identify : TypeId → Shaping TypeHandle}
    {type : TypeId}
    (keeps : ∀ part ∈ arena.typeParts type,
      arena.KeepsNumbers kind (identify part)) :
    arena.KeepsNumbers kind (arena.typeShape identify type) := by
  unfold Arena.typeShape
  cases formed : (arena.type type).form with
  | function params result =>
      simp only [typeParts, formed, List.mem_append] at keeps
      exact (mapM fun param isParam => keeps param (.inl isParam)).bind fun _ =>
        (keeps result (.inr List.mem_cons_self)).bind fun _ => .pure _
  | wrapped wrapper inner =>
      simp only [typeParts, formed, List.forall_mem_singleton] at keeps
      exact keeps.bind fun _ => .pure _
  | array element length =>
      simp only [typeParts, formed, List.forall_mem_singleton] at keeps
      exact keeps.bind fun _ => .pure _
  | tuple elements =>
      simp only [typeParts, formed] at keeps
      exact (mapM keeps).bind fun _ => .pure _
  | declared decl name =>
      simp only [declaredShape]
      split
      · exact .pure _
      next template args named _ =>
        simp only [typeParts, formed, named, List.mem_filterMap] at keeps
        refine (mapM fun arg isArg => ?_).bind fun _ => .pure _
        cases arg with
        | type type => exact (keeps type ⟨_, isArg, rfl⟩).bind fun _ => .pure _
        | expr expr => exact .pure _
      · exact .pure _
  | _ => exact .pure _

/-- Numbering a type numbers it and its parts. -/
private theorem identifyWithin
    (acyclic : arena.Acyclic)
    (closed : ∀ {whole part}, kind whole → arena.HasPart whole part → kind part)
    {depth : Nat}
    {type : TypeId}
    (ends : arena.EndsWithin depth type)
    (isKind : kind type) :
    arena.KeepsNumbers kind (arena.identifyWithin depth type) := by
  induction depth generalizing type with
  | zero => exact ends.elim
  | succ depth inductionHypothesis =>
      intro known numbers number inside
      have settles := arena.identifyWithin_settles (depth + 1) type
      have numbersParts := typeShape (fun part isPart =>
        inductionHypothesis (ends part isPart) (closed isKind isPart)) known
          numbers
      rcases TypeShapes.lt_count_handleOf inside with before | rfl
      · obtain ⟨older, isOlder, reads⟩ := numbersParts number before
        exact ⟨older, isOlder, reads.grow (arena.identify_settles older)
          (TypeShapes.growsTo_handleOf _ _)⟩
      · refine ⟨type, isKind, ?_⟩
        rw [Arena.identify, ← identifyWithin_eq ends (acyclic.endsWithin type)]
        exact settles.reads known (.refl _)

end KeepsNumbers

/-- The numbers of types asked for one after the other, and the shapes met. -/
def numbered (arena : Arena) (asked : List TypeId) :
    List TypeHandle × TypeShapes :=
  (asked.mapM arena.identify).run .empty

/-- One of the types asked for got a number. -/
def Numbers
    (arena : Arena)
    (asked : List TypeId)
    (type : TypeId)
    (handle : TypeHandle) :
    Prop :=
  (type, handle) ∈ asked.zip (arena.numbered asked).1

section Numbered

variable {asked : List TypeId}

/-- What is asked for later only adds shapes. -/
private theorem numbered_growsTo (asked more : List TypeId) :
    (arena.numbered asked).2.GrowsTo (arena.numbered (asked ++ more)).2 := by
  rw [numbered, numbered, List.mapM_append]
  exact ((Settles.mapM arena.identify_settles more).bind fun _ => .pure _).grows
    _

/-- The numbers of the types asked for are read off the shapes met. -/
private theorem numbered_reads (asked : List TypeId) :
    List.Forall₂ (fun type handle =>
      (arena.numbered asked).2.Reads (arena.identify type) handle)
      asked (arena.numbered asked).1 :=
  ((Settles.mapM arena.identify_settles asked).reads .empty (.refl _)).mapM
    arena.identify_settles

private theorem Numbers.reads
    {type : TypeId}
    {handle : TypeHandle}
    (numbers : arena.Numbers asked type handle) :
    (arena.numbered asked).2.Reads (arena.identify type) handle :=
  (List.forall₂_iff_zip.mp (numbered_reads asked)).2 numbers

/-- Numbers read off the same shapes are the same exactly if their types are. -/
private theorem Acyclic.handle_eq_iff
    (acyclic : arena.Acyclic)
    {known : TypeShapes}
    {type other : TypeId}
    {handle otherHandle : TypeHandle}
    (reads : known.Reads (arena.identify type) handle)
    (otherReads : known.Reads (arena.identify other) otherHandle) :
    handle = otherHandle ↔ arena.SameType type other := by
  obtain ⟨sameHandle, sameTree⟩ := arena.identify_biUnique known
  rw [← acyclic.typeTree_eq_iff]
  constructor
  · rintro rfl
    exact sameTree ⟨type, reads, rfl⟩ ⟨other, otherReads, rfl⟩
  · intro same
    exact sameHandle ⟨type, reads, same⟩ ⟨other, otherReads, rfl⟩

/-- A type that is asked for or a part of one. -/
def Involves (arena : Arena) (asked : List TypeId) (type : TypeId) : Prop :=
  ∃ root ∈ asked, Relation.ReflTransGen arena.HasPart root type

/-- Only types asked for and their parts have numbers. -/
private theorem Acyclic.numbersOnly
    (acyclic : arena.Acyclic)
    (asked : List TypeId) :
    arena.NumbersOnly (arena.Involves asked) (arena.numbered asked).2 := by
  have closed {whole part : TypeId} (involved : arena.Involves asked whole)
      (isPart : arena.HasPart whole part) : arena.Involves asked part := by
    obtain ⟨root, isAsked, path⟩ := involved
    exact ⟨root, isAsked, path.tail isPart⟩
  have keeps : arena.KeepsNumbers (arena.Involves asked)
      (asked.mapM arena.identify) :=
    .mapM fun root isAsked =>
      .identifyWithin acyclic closed (acyclic.endsWithin root)
        ⟨root, isAsked, .refl⟩
  exact keeps .empty fun number inside => absurd inside (Nat.not_lt_zero number)

end Numbered

/-- Numbers stand for types up to sameness. -/
structure NumbersCanonically (arena : Arena) : Prop where
  answered : ∀ asked, (arena.numbered asked).1.length = asked.length
  same_iff : ∀ asked {type other handle otherHandle},
    arena.Numbers asked type handle →
    arena.Numbers asked other otherHandle →
      (handle = otherHandle ↔ arena.SameType type other)
  issued : ∀ asked {type handle}, arena.Numbers asked type handle →
    (arena.numbered asked).2.Reads (arena.identify type) handle
  kept : ∀ asked more {type handle},
    (arena.numbered asked).2.Reads (arena.identify type) handle →
    (arena.numbered (asked ++ more)).2.Reads (arena.identify type) handle
  dense : ∀ asked number, number < (arena.numbered asked).2.count ↔
    ∃ type, arena.Involves asked type ∧
      (arena.numbered asked).2.Reads (arena.identify type) { number := number }
  unordered :
    ∀ asked others {type other handle otherHandle laterHandle otherLaterHandle},
    arena.Numbers asked type handle → arena.Numbers asked other otherHandle →
    arena.Numbers others type laterHandle →
      arena.Numbers others other otherLaterHandle →
    (handle = otherHandle ↔ laterHandle = otherLaterHandle)

/-- In an arena of acyclic types numbers are canonical. -/
theorem identify_canonical (acyclic : arena.Acyclic) :
    arena.NumbersCanonically where
  answered asked := (numbered_reads asked).length_eq.symm
  same_iff _ _ _ _ _ numbers otherNumbers :=
    acyclic.handle_eq_iff numbers.reads otherNumbers.reads
  issued _ _ _ numbers := numbers.reads
  kept asked more type _ reads :=
    reads.grow (arena.identify_settles type) (numbered_growsTo asked more)
  dense asked number := by
    refine ⟨acyclic.numbersOnly asked number, fun ⟨type, _, reads⟩ => ?_⟩
    exact number_lt_count reads
  unordered _ _ _ _ _ _ _ _ numbers otherNumbers laterNumbers
    otherLaterNumbers :=
    (acyclic.handle_eq_iff numbers.reads otherNumbers.reads).trans
      (acyclic.handle_eq_iff laterNumbers.reads otherLaterNumbers.reads).symm

/-- An arena that holds the type of references to integers twice. -/
def twoReferences : Arena :=
  { empty with
    types := #[
      { form := .builtin .int, span := .synthetic },
      { form := .wrapped .reference ⟨0⟩, span := .synthetic },
      { form := .builtin .int, span := .synthetic },
      { form := .wrapped .reference ⟨2⟩, span := .synthetic }] }

private theorem acyclic_twoReferences : twoReferences.Acyclic := by
  apply acyclic_of_lt
  rintro ⟨raw⟩ ⟨part⟩ has
  have stored : raw < 4 := has.lt_size
  have bounded : ∀ raw < 4, ∀ part ∈ twoReferences.typeParts ⟨raw⟩, part.raw <
      raw := by decide
  exact bounded raw stored _ has

/-- Numbers are canonical where the types of references are the same type. -/
theorem identify_canonical_twoReferences :
    twoReferences.Acyclic ∧ twoReferences.SameType ⟨1⟩ ⟨3⟩ ∧
      twoReferences.NumbersCanonically :=
  ⟨acyclic_twoReferences, .wrapped rfl rfl (.builtin rfl rfl),
    identify_canonical acyclic_twoReferences⟩

end Arena

end Tern
