import Tern.Proofs.Elaboration.SameTypes
import Tern.Proofs.Elaboration.Visiting
import Tern.Proofs.Term.Descent

namespace Tern

/-!
# Signatures that stay

Once a declaration is typed, the types of its signature do not change any more.
A type changes only if it is to be inferred for a parameter of a function that
is being typed, and no type belongs to two functions. So what the third pass
makes of declarations that were typed before it is what it would make of them
at any later time.
-/

namespace Arena

/--
The types that a declaration is told apart by: those of its parameters and its
result, or its kind.
-/
inductive Signs (arena : Arena) (decl : DeclId) : TypeId → Prop where
  | param {role : CallableRole} {params : List DeclId} {result type : TypeId}
      {definition : DefId} {param : DeclId}
      (form : (arena.decl decl).form = .callable role params result definition)
      (listed : param ∈ params)
      (typed : (arena.decl param).form = .parameter type) :
      Signs arena decl type
  | result {role : CallableRole} {params : List DeclId} {result : TypeId}
      {definition : DefId}
      (form : (arena.decl decl).form =
        .callable role params result definition) :
      Signs arena decl result
  | kind {kind : TypeId} {definition : DefId}
      (form : (arena.decl decl).form = .classType kind definition) :
      Signs arena decl kind

/-- A type is built into another one at any depth. -/
abbrev BuiltInto (arena : Arena) (whole part : TypeId) : Prop :=
  Relation.ReflTransGen arena.HasPart whole part

/-- The way down from a type leads to its parts. -/
def typeSteps (arena : Arena) : Term → List Term
  | .type type => (arena.typeParts type).map Term.type
  | _ => []

/-- The way down from a template leads to what it is around. -/
def templateSteps (arena : Arena) : Term → List Term
  | .decl decl => match (arena.decl decl).form with
    | .template _ _ inner => [.decl inner]
    | _ => []
  | _ => []

/-- What is found below a type is that type, or what a type below it wraps. -/
private theorem Below.cases_last
    {arena : Arena}
    {outer slot : TypeId}
    (below : arena.Below outer slot) :
    outer = slot ∨ ∃ around wrapper, arena.Below outer around ∧
      (arena.type around).form = .wrapped wrapper slot := by
  induction below with
  | refl => exact .inl rfl
  | @reference outer _ _ form _ inductionHypothesis =>
      rcases inductionHypothesis with rfl | ⟨around, wrapper, below, last⟩
      · exact .inr ⟨outer, .reference, .refl outer, form⟩
      · exact .inr ⟨around, wrapper, .reference form below, last⟩
  | @qualified outer _ _ qualifiers form _ inductionHypothesis =>
      rcases inductionHypothesis with rfl | ⟨around, wrapper, below, last⟩
      · exact .inr ⟨outer, .qualified qualifiers, .refl outer, form⟩
      · exact .inr ⟨around, wrapper, .qualified form below, last⟩

/-- What signs a declaration is no deeper than the declaration. -/
private theorem Signs.bounded
    {arena : Arena}
    {decl : DeclId}
    {type : TypeId}
    (signs : arena.Signs decl type)
    (bounded : arena.Bounded (.decl decl)) :
    arena.Bounded (.type type) := by
  cases signs with
  | @param _ params _ _ _ param form listed typed =>
      have param : arena.Bounded (.decl param) :=
        bounded.child (by simp [children, form, DeclForm.children, listed])
      exact param.child (by simp [children, typed, DeclForm.children])
  | result form =>
      exact bounded.child (by simp [children, form, DeclForm.children])
  | kind form =>
      exact bounded.child (by simp [children, form, DeclForm.children])

/-- A part of a type is owned by it, or by the name in it. -/
private theorem HasPart.owned
    {arena : Arena}
    {whole part : TypeId}
    (has : arena.HasPart whole part) :
    .type part ∈ arena.children (.type whole) ∨
      ∃ name, .name name ∈ arena.children (.type whole) ∧
        .type part ∈ arena.children (.name name) := by
  rw [HasPart, typeParts] at has
  simp only [children]
  cases form : (arena.type whole).form with
  | declared decl name =>
      rw [form] at has
      right
      refine ⟨name, List.mem_singleton_self _, ?_⟩
      cases applied : (arena.name name).form with
      | applied template args =>
          simp only [applied, List.mem_filterMap] at has
          obtain ⟨arg, listed, isType⟩ := has
          refine List.mem_map.mpr ⟨arg, listed, ?_⟩
          cases arg <;> simp_all [argPart?, TemplateArg.term]
      | _ => simp [applied] at has
  | function params result =>
      rw [form] at has
      left
      simpa [TypeForm.children] using has
  | wrapped wrapper inner =>
      rw [form] at has
      left
      simpa [TypeForm.children] using has
  | array element length =>
      rw [form] at has
      left
      simpa [TypeForm.children] using has
  | tuple elements =>
      rw [form] at has
      left
      simpa [TypeForm.children] using has
  | _ =>
      rw [form] at has
      cases has

end Arena

namespace Worksite

variable {site : Worksite} (sound : site.Sound)

include sound

/--
What owns a type that is found in the type of a parameter is that parameter, or
a type that is found there.
-/
private theorem Sound.owner_of_belowParamOf
    {decl : DeclId}
    {slot : TypeId}
    {owner : Term}
    (below : site.arena.BelowParamOf decl slot)
    (whole : site.Whole owner)
    (owned : .type slot ∈ site.arena.parts owner) :
    (∃ param type, owner = .decl param ∧
      (site.arena.decl param).form = .parameter type ∧
        site.Whole (.decl decl) ∧
          .decl param ∈ site.arena.parts (.decl decl)) ∨
      ∃ around, owner = .type around ∧
        site.arena.BelowParamOf decl around := by
  obtain ⟨role, params, result, definition, param, type, callable, listed, held,
    form, inside⟩ := below.found
  have wholeDecl : site.Whole (.decl decl) := by
    refine ⟨Arena.holds_of_form callable nofun, fun other same begun => ?_⟩
    obtain rfl := Term.decl.inj same
    have hollow := (sound.begun decl begun).2
    rw [callable, DeclForm.hollow] at hollow
    cases hollow
    cases listed
  have ownedParam : .decl param ∈ site.arena.parts (.decl decl) := by
    simp [Arena.parts, callable, DeclForm.children, listed]
  have wholeParam := (sound.forest.below wholeDecl ownedParam).1
  have ownedType : .type type ∈ site.arena.parts (.decl param) := by
    simp [Arena.parts, form, DeclForm.children]
  rcases inside.cases_last with rfl | ⟨around, wrapper, below, wraps⟩
  · exact .inl ⟨param, type,
      sound.forest.single whole wholeParam owned ownedType, form, wholeDecl,
      ownedParam⟩
  · have wholeAround := sound.whole_of_below
      (sound.forest.below wholeParam ownedType).1 below
    refine .inr ⟨around, sound.forest.single whole wholeAround owned ?_,
      ⟨role, params, result, definition, param, type, callable, listed, held,
        form, below⟩⟩
    simp [Arena.parts, Arena.children, wraps, TypeForm.children]

/--
If a part of a type is found in the type of a parameter, so is that type.
-/
private theorem Sound.belowParamOf_of_hasPart
    {whole part : TypeId}
    {decl : DeclId}
    (wholeType : site.Whole (.type whole))
    (has : site.arena.HasPart whole part)
    (below : site.arena.BelowParamOf decl part) :
    site.arena.BelowParamOf decl whole := by
  rcases has.owned with owned | ⟨name, named, owned⟩
  · rcases sound.owner_of_belowParamOf below wholeType owned with
      ⟨_, _, same, -⟩ | ⟨around, same, found⟩
    · cases same
    · cases same
      exact found
  · have wholeName := sound.whole_child wholeType named
    rcases sound.owner_of_belowParamOf below wholeName owned with
      ⟨_, _, same, -⟩ | ⟨_, same, -⟩ <;> cases same

/--
Only for the parameters of a declaration itself may the types that sign it be
inferred.
-/
private theorem Sound.eq_of_signs
    {decl other : DeclId}
    {type : TypeId}
    (whole : site.Whole (.decl decl))
    (signs : site.arena.Signs decl type)
    (below : site.arena.BelowParamOf other type) :
    other = decl := by
  cases signs with
  | @param role params result _ definition param form listed typed =>
      have ownedParam : .decl param ∈ site.arena.parts (.decl decl) := by
        simp [Arena.parts, form, DeclForm.children, listed]
      have owned : .type type ∈ site.arena.parts (.decl param) := by
        simp [Arena.parts, typed, DeclForm.children]
      rcases sound.owner_of_belowParamOf below
        (sound.forest.below whole ownedParam).1 owned with
          ⟨_, _, same, -, wholeOther, ownedToo⟩ | ⟨_, same, -⟩
      · cases same
        cases sound.forest.single wholeOther whole ownedToo ownedParam
        rfl
      · cases same
  | result form =>
      rcases sound.owner_of_belowParamOf below whole
        (by simp [Arena.parts, form, DeclForm.children]) with
          ⟨_, _, same, parameter, -⟩ | ⟨_, same, -⟩
      · cases same
        cases form.symm.trans parameter
      · cases same
  | kind form =>
      rcases sound.owner_of_belowParamOf below whole
        (by simp [Arena.parts, form, DeclForm.children]) with
          ⟨_, _, same, parameter, -⟩ | ⟨_, same, -⟩
      · cases same
        cases form.symm.trans parameter
      · cases same

/-- A type that signs a whole declaration is whole. -/
private theorem Sound.whole_of_signs
    {decl : DeclId}
    {type : TypeId}
    (whole : site.Whole (.decl decl))
    (signs : site.arena.Signs decl type) :
    site.Whole (.type type) := by
  cases signs with
  | param form listed typed =>
      exact sound.whole_of_form
        (sound.whole_of_form whole form (by simp [DeclForm.children, listed]))
        typed (List.mem_singleton_self _)
  | result form =>
      exact sound.whole_of_form whole form (by simp [DeclForm.children])
  | kind form =>
      exact sound.whole_of_form whole form (by simp [DeclForm.children])

/-- The same is so of all types that are built into those. -/
private theorem Sound.eq_of_builtInto
    {decl other : DeclId}
    {start type : TypeId}
    (whole : site.Whole (.decl decl))
    (signs : site.arena.Signs decl start)
    (built : site.arena.BuiltInto start type)
    (below : site.arena.BelowParamOf other type) :
    other = decl := by
  have wholes {type : TypeId} (built : site.arena.BuiltInto start type) :
      site.Whole (.type type) := by
    induction built with
    | refl => exact sound.whole_of_signs whole signs
    | tail _ has inductionHypothesis =>
        rcases has.owned with owned | ⟨name, named, owned⟩
        · exact sound.whole_child inductionHypothesis owned
        · exact sound.whole_child
            (sound.whole_child inductionHypothesis named) owned
  induction built with
  | refl => exact sound.eq_of_signs whole signs below
  | tail built has inductionHypothesis =>
      exact inductionHypothesis
        (sound.belowParamOf_of_hasPart (wholes built) has below)

end Worksite

/--
A declaration is whole on two worksites; it was typed by the first one, and
nothing below it is too deep on the second one.
-/
structure Worksite.Abides (older newer : Worksite) (decl : DeclId) : Prop where
  before : older.Whole (.decl decl)
  behind : newer.Whole (.decl decl)
  typed : (older.arena.decl decl).phase ≠ .unelaborated
  bounded : newer.arena.Bounded (.decl decl)

/-- One worksite leads to another one, and what was typed is respected. -/
structure Worksite.LeadsTo
    (input : ElabInput)
    (origin : Arena)
    (older newer : Worksite) : Prop where
  sound : older.Sound
  standing : older.arena.Standing []
  soundNow : newer.Sound
  toward : Arena.Toward input origin older.arena newer.arena
  respects : older.arena.Respects newer.arena

namespace Worksite.LeadsTo

variable {input : ElabInput} {origin : Arena} {older newer : Worksite}
  (leads : older.LeadsTo input origin newer)

include leads

/-- A declaration that was typed keeps its form. -/
private theorem form_eq
    {decl : DeclId}
    (typed : (older.arena.decl decl).phase ≠ .unelaborated) :
    (newer.arena.decl decl).form = (older.arena.decl decl).form := by
  refine (leads.respects.form (Arena.holds_of_phase_ne typed)).resolve_right ?_
  rintro ⟨_, _, _, _, was, -, early, -⟩
  exact leads.standing.wrapped List.not_mem_nil typed was early

/-- What a declaration that abides is around abides. -/
private theorem abides_inner
    {decl inner : DeclId}
    {parms : List DeclId}
    {constraint? : Option ExprId}
    (abides : older.Abides newer decl)
    (form : (older.arena.decl decl).form = .template parms constraint? inner) :
    older.Abides newer inner := by
  have now := (leads.form_eq abides.typed).trans form
  have owned : Term.decl inner ∈
      (DeclForm.template parms constraint? inner).children := by
    simp [DeclForm.children]
  exact
    { before := leads.sound.whole_of_form abides.before form owned
      behind := leads.soundNow.whole_of_form abides.behind now owned
      typed := leads.standing.wrapped List.not_mem_nil abides.typed form
      bounded := abides.bounded.child
        (List.mem_cons_of_mem _ (now ▸ owned)) }

/-- The parameters of a declaration that was typed are parsed, and stay. -/
private theorem param_kept
    {decl param : DeclId}
    {role : CallableRole}
    {params : List DeclId}
    {result : TypeId}
    {definition : DefId}
    (typed : (older.arena.decl decl).phase ≠ .unelaborated)
    (form : (older.arena.decl decl).form =
      .callable role params result definition)
    (listed : param ∈ params) :
    older.arena.Parsed (.decl param) ∧
      (newer.arena.decl param).form = (older.arena.decl param).form := by
  have parsed := leads.standing.heads typed (.decl param)
    (by simp [form, DeclForm.heads, listed])
  refine ⟨parsed, leads.respects.form_eq parsed.here.1.1 ?_⟩
  have isParam := parsed.here.2 param rfl
  cases found : (older.arena.decl param).form <;>
    simp_all [DeclForm.isParam, DeclForm.isTemplate]

/-- A type that signs a typed declaration is parsed, and does so later. -/
private theorem signs_kept
    {decl : DeclId}
    {type : TypeId}
    (typed : (older.arena.decl decl).phase ≠ .unelaborated)
    (signs : older.arena.Signs decl type) :
    older.arena.Parsed (.type type) ∧ newer.arena.Signs decl type := by
  have same := leads.form_eq typed
  have heads := leads.standing.heads typed
  cases signs with
  | param form listed isParam =>
      obtain ⟨parsed, kept⟩ := leads.param_kept typed form listed
      refine ⟨parsed.child ?_,
        .param (same.trans form) listed (kept.trans isParam)⟩
      simp [Arena.children, isParam, DeclForm.children]
  | result form =>
      exact ⟨heads _ (by simp [form, DeclForm.heads]),
        .result (same.trans form)⟩
  | kind form =>
      exact ⟨heads _ (by simp [form, DeclForm.heads]), .kind (same.trans form)⟩

/-- A parsed type that stays has the same parts. -/
private theorem hasPart_kept
    {whole part : TypeId}
    (parsed : older.arena.Parsed (.type whole))
    (same : newer.arena.type whole = older.arena.type whole)
    (has : older.arena.HasPart whole part) :
    newer.arena.HasPart whole part := by
  rw [Arena.HasPart, Arena.typeParts] at has ⊢
  rw [same]
  cases form : (older.arena.type whole).form with
  | declared mentioned name =>
      have named : older.arena.Parsed (.name name) :=
        parsed.child (by simp [Arena.children, form, TypeForm.children])
      rw [form] at has
      simpa only [leads.toward.framed.name named.here.1.1] using has
  | _ => simpa only [form] using has

variable {decl : DeclId} (abides : older.Abides newer decl)

include abides

/-- All types that the signature of a typed declaration is built from stay. -/
private theorem type_kept
    {start type : TypeId}
    (signs : older.arena.Signs decl start)
    (built : older.arena.BuiltInto start type) :
    older.arena.Parsed (.type type) ∧ newer.arena.BuiltInto start type ∧
      newer.arena.type type = older.arena.type type := by
  obtain ⟨parsed, signsNow⟩ := leads.signs_kept abides.typed signs
  have kept {type : TypeId} (parsed : older.arena.Parsed (.type type))
      (built : newer.arena.BuiltInto start type) :
      newer.arena.type type = older.arena.type type := by
    refine (leads.respects.type parsed.here.1.1
      parsed.here.1.2).resolve_right ?_
    rintro ⟨-, other, early, below⟩
    have same :=
      leads.soundNow.eq_of_builtInto abides.behind signsNow built below
    exact abides.typed (same ▸ early)
  induction built with
  | refl => exact ⟨parsed, .refl, kept parsed .refl⟩
  | @tail whole part _ has inductionHypothesis =>
      obtain ⟨parsed, built, same⟩ := inductionHypothesis
      have parsedPart : older.arena.Parsed (.type part) := by
        rcases has.owned with owned | ⟨name, named, owned⟩
        · exact parsed.child owned
        · exact (parsed.child named).child owned
      have builtNow := built.tail (leads.hasPart_kept parsed same has)
      exact ⟨parsedPart, builtNow, kept parsedPart builtNow⟩

end Worksite.LeadsTo

namespace Worksite.LeadsTo

variable {input : ElabInput} {origin : Arena} {older newer : Worksite}
  (leads : older.LeadsTo input origin newer)

include leads

/-- A parsed expression is compared alike later. -/
private theorem constantShape_eq
    {expr : ExprId}
    (parsed : older.arena.Parsed (.expr expr)) :
    newer.arena.constantShape expr = older.arena.constantShape expr := by
  cases leads.toward.framed.expr parsed.here.1.1 with
  | same same => rw [Arena.constantShape, Arena.constantShape, same]
  | parsed captured _ =>
      have present := parsed.here.1.2
      rw [Arena.isUnparsed, captured] at present
      cases present

section

variable {written writtenNow : TypeId → TypeTree Nat}

/-- A declared type is written out alike later, if its arguments are. -/
private theorem declaredTree_eq
    {type : TypeId}
    {decl : DeclId}
    {name : NameId}
    (parsed : older.arena.Parsed (.type type))
    (form : (older.arena.type type).form = .declared decl name)
    (agree : ∀ part ∈ older.arena.typeParts type,
      writtenNow part = written part) :
    newer.arena.declaredTree Arena.byIndex writtenNow decl name =
      older.arena.declaredTree Arena.byIndex written decl name := by
  have named : older.arena.Parsed (.name name) :=
    parsed.child (by simp [Arena.children, form, TypeForm.children])
  have sameName := leads.toward.framed.name named.here.1.1
  have held : older.arena.Holds (.decl decl) := by
    obtain ⟨_, -, keyed⟩ :=
      (leads.sound.fit (.type type) parsed.here.1.1).mentions (name, decl)
        (by simp [Arena.mentions, form, TypeForm.mentions])
    exact keyed.held
  have args {template : DeclId} {args : List TemplateArg}
      (applied : (older.arena.name name).form = .applied template args) :
      args.map (newer.arena.argTree writtenNow) =
        args.map (older.arena.argTree written) := by
    refine List.map_congr_left fun arg listed => ?_
    cases arg with
    | type part =>
        refine congrArg Sum.inl (agree part ?_)
        simp only [Arena.typeParts, form, applied, List.mem_filterMap]
        exact ⟨.type part, listed, rfl⟩
    | expr expr =>
        refine congrArg Sum.inr (leads.constantShape_eq (named.child ?_))
        simp only [Arena.children, applied, NameForm.children]
        exact List.mem_map.mpr ⟨.expr expr, listed, rfl⟩
  rw [Arena.declaredTree, Arena.declaredTree, sameName]
  rcases leads.respects.form held with same | ⟨_, _, _, _, was, now, -⟩
  · rw [same]
    cases applied : (older.arena.name name).form with
    | applied template listed =>
        cases (older.arena.decl decl).form <;> simp only [args applied]
    | _ => cases (older.arena.decl decl).form <;> rfl
  · rw [was, now]
    cases applied : (older.arena.name name).form with
    | applied template listed => simp only [args applied]
    | _ => rfl

/-- A type is written out alike later, if its parts are. -/
private theorem formTree_eq
    {type : TypeId}
    (parsed : older.arena.Parsed (.type type))
    (same : newer.arena.type type = older.arena.type type)
    (agree : ∀ part ∈ older.arena.typeParts type,
      writtenNow part = written part) :
    newer.arena.formTree Arena.byIndex writtenNow type =
      older.arena.formTree Arena.byIndex written type := by
  have owned {expr : ExprId}
      (listed : .expr expr ∈ (older.arena.type type).form.children) :
      newer.arena.constantShape expr = older.arena.constantShape expr :=
    leads.constantShape_eq (parsed.child listed)
  rw [Arena.formTree, Arena.formTree, same]
  cases form : (older.arena.type type).form with
  | declared decl name => exact leads.declaredTree_eq parsed form agree
  | function params result =>
      simp only [Arena.typeParts, form, List.mem_append,
        List.mem_singleton] at agree
      simp only [agree result (.inr rfl),
        List.map_congr_left fun param listed => agree param (.inl listed)]
  | wrapped wrapper inner =>
      simp only [Arena.typeParts, form, List.forall_mem_singleton] at agree
      simp only [agree]
  | array element length =>
      simp only [Arena.typeParts, form, List.forall_mem_singleton] at agree
      have same := @owned length (by simp [form, TypeForm.children])
      simp only [agree, same]
  | tuple elements =>
      simp only [Arena.typeParts, form] at agree
      simp only [List.map_congr_left agree]
  | decltype operand =>
      have same := @owned operand (by simp [form, TypeForm.children])
      simp only [same]
  | _ => rfl

end

variable {decl : DeclId} (abides : older.Abides newer decl)

include abides

/--
A type that the signature of a typed declaration is built from is written out
alike later, however deep, if its parts come to an end.
-/
private theorem typeTreeWithin_eq
    {depth more : Nat}
    {start type : TypeId}
    (signs : older.arena.Signs decl start)
    (built : older.arena.BuiltInto start type)
    (within : Term.Within older.arena.typeSteps depth (.type type))
    (enough : depth ≤ more) :
    newer.arena.typeTreeWithin Arena.byIndex more type =
      older.arena.typeTreeWithin Arena.byIndex depth type := by
  induction depth generalizing more type with
  | zero => exact within.elim
  | succ depth inductionHypothesis =>
      obtain ⟨more, rfl⟩ :=
        Nat.exists_eq_add_of_le' (Nat.lt_of_lt_of_le (Nat.succ_pos _) enough)
      obtain ⟨parsed, -, same⟩ := leads.type_kept abides signs built
      refine leads.formTree_eq parsed same fun part has => ?_
      exact inductionHypothesis (built.tail has)
        (within _ (List.mem_map_of_mem has)) (Nat.le_of_succ_le_succ enough)

/-- The parts of a type that signs a typed declaration come to an end. -/
private theorem typeSteps_within
    {start : TypeId}
    (signs : older.arena.Signs decl start) :
    Term.Within older.arena.typeSteps (older.arena.types.size + 1)
      (.type start) := by
  have ends {depth : Nat} {type : TypeId}
      (built : older.arena.BuiltInto start type)
      (shallow : newer.arena.Shallow depth (.type type)) :
      Acc (fun follower term => follower ∈ older.arena.typeSteps term)
        (.type type) := by
    induction depth generalizing type with
    | zero => exact shallow.elim
    | succ depth inductionHypothesis =>
        obtain ⟨parsed, -, same⟩ := leads.type_kept abides signs built
        refine ⟨_, fun follower step => ?_⟩
        obtain ⟨part, has, rfl⟩ := List.mem_map.mp step
        refine inductionHypothesis (built.tail has) ?_
        rcases (leads.hasPart_kept parsed same has).owned with owned |
            ⟨name, named, owned⟩
        · exact shallow _ owned
        · have below := shallow _ named
          cases depth with
          | zero => exact below.elim
          | succ depth => exact (below _ owned).mono (Nat.le_succ _)
  have signsNow := (leads.signs_kept abides.typed signs).2
  refine Term.within_of_slots Term.type
    (ends .refl (signsNow.bounded abides.bounded)) fun other leadsOn => ?_
  cases other with
  | type type =>
      obtain ⟨part, has⟩ := List.exists_mem_of_ne_nil _
        (List.map_eq_nil_iff.not.mp leadsOn)
      exact ⟨type, rfl, Arena.HasPart.lt_size has⟩
  | _ => exact absurd rfl leadsOn

/-- A type that signs a typed declaration is written out alike later. -/
private theorem typeTree_eq
    {type : TypeId}
    (signs : older.arena.Signs decl type) :
    newer.arena.typeTree Arena.byIndex type =
      older.arena.typeTree Arena.byIndex type := by
  have more : older.arena.types.size ≤ newer.arena.types.size :=
    Nat.le_of_not_lt fun fewer => Nat.lt_irrefl _
      (@Arena.Framed.held _ _ _ _ leads.toward.framed
        (.type ⟨newer.arena.types.size⟩) fewer)
  exact leads.typeTreeWithin_eq abides signs .refl
    (leads.typeSteps_within abides signs) (Nat.succ_le_succ more)

omit abides

/--
A typed declaration has the same signature later, however deep, if the templates
come to an end.
-/
private theorem signatureTreeWithin?_eq
    {depth more : Nat}
    {decl : DeclId}
    (abides : older.Abides newer decl)
    (within : Term.Within older.arena.templateSteps depth (.decl decl))
    (enough : depth ≤ more) :
    newer.arena.signatureTreeWithin? Arena.byIndex more decl =
      older.arena.signatureTreeWithin? Arena.byIndex depth decl := by
  induction depth generalizing more decl with
  | zero => exact within.elim
  | succ depth inductionHypothesis =>
      obtain ⟨more, rfl⟩ :=
        Nat.exists_eq_add_of_le' (Nat.lt_of_lt_of_le (Nat.succ_pos _) enough)
      rw [Arena.signatureTreeWithin?, Arena.signatureTreeWithin?,
        leads.form_eq abides.typed]
      cases form : (older.arena.decl decl).form with
      | callable role params result definition =>
          have params : params.filterMap
              (newer.arena.paramTree? Arena.byIndex) =
                params.filterMap (older.arena.paramTree? Arena.byIndex) := by
            refine List.filterMap_congr fun param listed => ?_
            rw [Arena.paramTree?, Arena.paramTree?,
              (leads.param_kept abides.typed form listed).2]
            cases typed : (older.arena.decl param).form with
            | parameter type =>
                exact congrArg some
                  (leads.typeTree_eq abides (.param form listed typed))
            | _ => rfl
          simp only [params, leads.typeTree_eq abides (.result form)]
      | classType kind definition =>
          simp only [leads.typeTree_eq abides (.kind form)]
      | template parms constraint? inner =>
          refine congrArg (Option.map _) ?_
          exact inductionHypothesis (leads.abides_inner abides form)
            (within _ (by simp [Arena.templateSteps, form]))
            (Nat.le_of_succ_le_succ enough)
      | _ => rfl

/-- So it is with whether the declaration is a definition. -/
private theorem isDefinitionWithin_eq
    {depth more : Nat}
    {decl : DeclId}
    (abides : older.Abides newer decl)
    (within : Term.Within older.arena.templateSteps depth (.decl decl))
    (enough : depth ≤ more) :
    newer.arena.isDefinitionWithin more decl =
      older.arena.isDefinitionWithin depth decl := by
  induction depth generalizing more decl with
  | zero => exact within.elim
  | succ depth inductionHypothesis =>
      obtain ⟨more, rfl⟩ :=
        Nat.exists_eq_add_of_le' (Nat.lt_of_lt_of_le (Nat.succ_pos _) enough)
      have same {definition : DefId}
          (defines : (older.arena.decl decl).form.definition? =
            some definition) :
          newer.arena.definition definition =
            older.arena.definition definition :=
        leads.toward.framed.definition
          (leads.sound.whole_of_form abides.before rfl
            (DeclForm.mem_children.mpr
              (.inr (.inl (by rw [defines]; rfl))))).1
      rw [Arena.isDefinitionWithin, Arena.isDefinitionWithin,
        leads.form_eq abides.typed]
      cases form : (older.arena.decl decl).form with
      | template parms constraint? inner =>
          exact inductionHypothesis (leads.abides_inner abides form)
            (within _ (by simp [Arena.templateSteps, form]))
            (Nat.le_of_succ_le_succ enough)
      | _ =>
          rw [form] at same
          simp_all [DeclForm.definition?]

/-- The templates around what a typed declaration is come to an end. -/
private theorem templateSteps_within
    {decl : DeclId}
    (abides : older.Abides newer decl) :
    Term.Within older.arena.templateSteps (older.arena.decls.size + 1)
      (.decl decl) := by
  have ends {depth : Nat} {decl : DeclId} (abides : older.Abides newer decl)
      (shallow : newer.arena.Shallow depth (.decl decl)) :
      Acc (fun follower term => follower ∈ older.arena.templateSteps term)
        (.decl decl) := by
    induction depth generalizing decl with
    | zero => exact shallow.elim
    | succ depth inductionHypothesis =>
        refine ⟨_, fun follower step => ?_⟩
        simp only [Arena.templateSteps] at step
        split at step
        next parms constraint? inner form =>
          obtain rfl := List.mem_singleton.mp step
          refine inductionHypothesis (leads.abides_inner abides form)
            (shallow _ ?_)
          simp [Arena.children, leads.form_eq abides.typed, form,
            DeclForm.children]
        next => cases step
  refine Term.within_of_slots Term.decl (ends abides abides.bounded)
    fun other leadsOn => ?_
  cases other with
  | decl decl =>
      refine ⟨decl, rfl, Classical.byContradiction fun absent => ?_⟩
      have plain : ∀ type, (older.arena.decl decl).form ≠ .parameter type := by
        intro type form
        simp [Arena.templateSteps, form] at leadsOn
      exact absent (Arena.holds_of_form rfl plain)
  | _ => exact absurd rfl leadsOn

end Worksite.LeadsTo

namespace Arena

/-- A declaration is told apart in two arenas by the same. -/
structure ToldAlike (older newer : Arena) (decl : DeclId) : Prop where
  scope : (newer.decl decl).scope = (older.decl decl).scope
  key : newer.declKey decl = older.declKey decl
  span : (newer.decl decl).span = (older.decl decl).span
  signature : newer.indexedSignature? decl = older.indexedSignature? decl
  definition : newer.isDefinition decl = older.isDefinition decl

variable {older newer : Arena} {decl other : DeclId}
  (here : older.ToldAlike newer decl) (there : older.ToldAlike newer other)

include here there

private theorem ToldAlike.sameSignature_iff :
    newer.SameSignature decl other ↔ older.SameSignature decl other := by
  rw [SameSignature, SameSignature, here.signature, there.signature]

private theorem ToldAlike.unsigned_iff :
    newer.Unsigned decl other ↔ older.Unsigned decl other := by
  rw [Unsigned, Unsigned, here.signature, there.signature]

private theorem ToldAlike.samePlace_iff :
    newer.SamePlace decl other ↔ older.SamePlace decl other := by
  rw [SamePlace, SamePlace, here.scope, there.scope, here.key, there.key]

end Arena

section

variable {older newer : Arena}

/-- What comes of comparing depends on what declarations are told apart by. -/
private theorem Compared.of_toldAlike
    {decl : DeclId}
    {earlier : List DeclId}
    {causes : List FaultCause}
    {merges : Merges}
    {stays : Bool}
    (compared : Compared older decl earlier causes merges stays)
    (here : older.ToldAlike newer decl)
    (alike : ∀ other ∈ earlier, older.ToldAlike newer other) :
    Compared newer decl earlier causes merges stays := by
  induction compared with
  | nil => exact .nil
  | overloads signed different _ inductionHypothesis =>
      obtain ⟨first, others⟩ := List.forall_mem_cons.mp alike
      exact .overloads (signed ∘ (first.unsigned_iff here).mp)
        (different ∘ (first.sameSignature_iff here).mp)
        (inductionHypothesis others)
  | conflicts unsigned _ inductionHypothesis =>
      obtain ⟨first, others⟩ := List.forall_mem_cons.mp alike
      exact .conflicts ((first.unsigned_iff here).mpr unsigned)
        (inductionHypothesis others)
  | redefines same earlierDefines defines _ inductionHypothesis =>
      obtain ⟨first, others⟩ := List.forall_mem_cons.mp alike
      exact .redefines ((first.sameSignature_iff here).mpr same)
        (first.definition.trans earlierDefines)
        (here.definition.trans defines) (inductionHypothesis others)
  | takesOver same forward defines _ inductionHypothesis =>
      obtain ⟨first, others⟩ := List.forall_mem_cons.mp alike
      exact .takesOver ((first.sameSignature_iff here).mpr same)
        (first.definition.trans forward)
        (here.definition.trans defines) (inductionHypothesis others)
  | leaves same forward =>
      obtain ⟨first, -⟩ := List.forall_mem_cons.mp alike
      exact .leaves ((first.sameSignature_iff here).mpr same)
        (here.definition.trans forward)

/-- So does what comes of comparing declarations in turn. -/
theorem Merging.of_toldAlike
    {decls alive : List DeclId}
    {faults : List StructuralFault}
    {merges : Merges}
    (merging : Merging older decls alive faults merges)
    (alike : ∀ decl ∈ decls, older.ToldAlike newer decl) :
    Merging newer decls alive faults merges := by
  induction merging with
  | start => exact .start
  | @next decls alive _ _ _ causes _ before decl compared
      inductionHypothesis =>
      obtain ⟨earlier, last⟩ := List.forall_mem_append.mp alike
      have here := last decl (List.mem_singleton_self _)
      have among : ∀ other ∈ alive, older.ToldAlike newer other :=
        fun other listed => earlier other (before.alive_sublist.subset listed)
      have places : alive.filter (newer.SamePlace · decl) =
          alive.filter (older.SamePlace · decl) :=
        List.filter_congr fun other listed => by
          rw [decide_eq_decide, (among other listed).samePlace_iff here]
      have faults : causes.map (newer.faultOf decl) =
          causes.map (older.faultOf decl) :=
        List.map_congr_left fun cause _ => by
          rw [Arena.faultOf, Arena.faultOf, here.span]
      have comparedNow := compared.of_toldAlike here fun other listed =>
        among other (List.mem_of_mem_filter listed)
      rw [← places] at comparedNow
      rw [← faults]
      exact (inductionHypothesis earlier).next decl comparedNow

end

/-- A typed declaration is told apart later by the same. -/
theorem Worksite.LeadsTo.toldAlike
    {input : ElabInput}
    {origin : Arena}
    {older newer : Worksite}
    {decl : DeclId}
    (leads : older.LeadsTo input origin newer)
    (abides : older.Abides newer decl) :
    older.arena.ToldAlike newer.arena decl := by
  have framed := leads.toward.framed
  obtain ⟨scope, key⟩ := leads.sound.bound_eq framed abides.before
  have more : older.arena.decls.size ≤ newer.arena.decls.size :=
    Nat.le_of_not_lt fun fewer => Nat.lt_irrefl _
      (@Arena.Framed.held _ _ _ _ framed (.decl ⟨newer.arena.decls.size⟩) fewer)
  have within := leads.templateSteps_within abides
  have enough := Nat.succ_le_succ more
  exact
    { scope := scope.symm
      key := key.symm
      span := (framed.decl abides.before.1).span
      signature := leads.signatureTreeWithin?_eq abides within enough
      definition := leads.isDefinitionWithin_eq abides within enough }

end Tern
