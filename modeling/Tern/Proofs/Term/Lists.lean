import Mathlib.Data.List.Nodup
import Mathlib.Data.List.Perm.Lattice
import Tern.Proofs.Term.Readiness
import Tern.Proofs.Term.Trails

namespace Tern

/-!
# Statement lists

A walk down from a term meets statement lists, each before those within its
statements. A declaration that stands alone, as in a branch, is a list of its
own. In a tree every statement that holds a declaration is in one of the lists,
once, and every declaration but a parameter comes to its end once.
-/

namespace Arena

variable (arena : Arena)

/--
What is within a statement of a list: the declaration that it holds, or else the
statement.
-/
def inside (stmt : StmtId) : Term :=
  match (arena.stmt stmt).form with
  | .declaration decl => .decl decl
  | _ => .stmt stmt

/--
What is within a term where a list holds it as a statement, and else the term.
-/
def within : Term → Term
  | .stmt stmt => arena.inside stmt
  | term => term

/--
The statement lists within a term down to a depth, a list before those within
its statements.
-/
def listsWithin : Nat → Term → List (List StmtId)
  | 0, _ => []
  | depth + 1, .stmt stmt =>
      match (arena.stmt stmt).form with
      | .list _ stmts _ =>
          stmts :: stmts.flatMap fun item =>
            listsWithin depth (arena.inside item)
      | .declaration decl => [stmt] :: listsWithin depth (.decl decl)
      | form => form.children.flatMap (listsWithin depth)
  | depth + 1, term => (arena.children term).flatMap (listsWithin depth)

/--
The statement lists within a term, a list before those within its statements.
-/
def lists (root : Term) : List (List StmtId) :=
  arena.listsWithin (arena.termCount + 1) root

end Arena

/-- Whether a term is neither a statement nor a definition. -/
def Term.isInline : Term → Bool
  | .stmt _ => false
  | .definition _ => false
  | _ => true

private theorem NameForm.isInline_child (form : NameForm) :
    ∀ child ∈ form.children, child.isInline = true := by
  cases form <;> simp [NameForm.children]
  rintro (_ | _) _ <;> rfl

private theorem TypeForm.isInline_child (form : TypeForm) :
    ∀ child ∈ form.children, child.isInline = true := by
  cases form <;> simp +contextual [TypeForm.children, Term.isInline, or_imp]

private theorem ExprForm.isInline_child (form : ExprForm) :
    ∀ child ∈ form.children, child.isInline = true := by
  cases form <;>
    simp +contextual [ExprForm.children, Term.isInline, or_imp, forall_and]

private theorem ReqForm.isInline_child (form : ReqForm) :
    ∀ child ∈ form.children, child.isInline = true := by
  cases form <;> simp +contextual [ReqForm.children, Term.isInline]

private theorem DeclForm.isInline_child
    {form : DeclForm}
    (isParam : form.isParam = true) :
    ∀ child ∈ form.children, child.isInline = true := by
  cases form <;> simp_all [DeclForm.children, DeclForm.isParam, Term.isInline]

private theorem DefForm.isInline_child
    {form : DefForm}
    (flat : form.block? = none) :
    ∀ child ∈ form.children, child.isInline = true := by
  cases form <;> simp_all [DefForm.children, DefForm.block?, Term.isInline]

private theorem StmtForm.isInline_child
    {form : StmtForm}
    (flat : form.isFlat = true) :
    ∀ child ∈ form.children, child.isInline = true := by
  cases form <;> simp_all [StmtForm.children, StmtForm.isFlat, Term.isInline]

private theorem DeclForm.isInline_head {form : DeclForm} :
    ∀ head ∈ form.heads, head.isInline = true := by
  cases form <;>
    simp +contextual [DeclForm.heads, Term.isInline, or_imp, forall_and]

/--
What a declaration owns are its heads, then its definition or what it wraps.
-/
private theorem DeclForm.children_eq (form : DeclForm) :
    form.children =
      form.heads ++ form.definition?.toList.map Term.definition ++
        form.wrapped?.toList := by
  cases form <;>
    simp [DeclForm.children, DeclForm.heads, DeclForm.definition?,
      DeclForm.wrapped?]

/-- What a walk through statement lists comes by. -/
inductive Landmark where
  | list (stmts : List StmtId)
  | /-- The end of a declaration that is no parameter. -/
    finish (decl : DeclId)

/-- The statement list that is come by. -/
def Landmark.list? : Landmark → Option (List StmtId)
  | .list stmts => some stmts
  | .finish _ => none

/-- The declaration whose end is come by. -/
def Landmark.finish? : Landmark → Option DeclId
  | .list _ => none
  | .finish decl => some decl

namespace Arena

variable {arena : Arena} {depth more : Nat} {root term : Term}

/-- What a walk comes by within a term down to a depth. -/
def walkWithin (arena : Arena) : Nat → Term → List Landmark
  | 0, _ => []
  | depth + 1, .stmt stmt =>
      match (arena.stmt stmt).form with
      | .list _ stmts _ =>
          .list stmts :: stmts.flatMap fun item =>
            walkWithin arena depth (arena.inside item)
      | .declaration decl => .list [stmt] :: walkWithin arena depth (.decl decl)
      | form => form.children.flatMap (walkWithin arena depth)
  | depth + 1, .decl decl =>
      (arena.children (.decl decl)).flatMap (walkWithin arena depth) ++
        if (arena.decl decl).form.isParam then [] else [.finish decl]
  | depth + 1, term => (arena.children term).flatMap (walkWithin arena depth)

/-- The lists that a walk comes by. -/
theorem filterMap_walkWithin (depth : Nat) (term : Term) :
    (arena.walkWithin depth term).filterMap Landmark.list? =
      arena.listsWithin depth term := by
  induction depth generalizing term with
  | zero => rfl
  | succ depth inductionHypothesis =>
      cases term with
      | stmt stmt =>
          simp only [walkWithin, listsWithin]
          cases (arena.stmt stmt).form <;>
            simp only [List.filterMap_cons, Landmark.list?,
              List.filterMap_flatMap, inductionHypothesis]
      | decl decl =>
          have none : (if (arena.decl decl).form.isParam then [] else
              [Landmark.finish decl]).filterMap Landmark.list? = [] := by
            split <;> rfl
          simp only [walkWithin, listsWithin, List.filterMap_append,
            List.filterMap_flatMap, inductionHypothesis, none, List.append_nil]
      | _ => simp only [walkWithin, listsWithin, List.filterMap_flatMap,
          inductionHypothesis]

/-- What is within a statement is no deeper than the statement. -/
theorem Shallow.inside
    {stmt : StmtId}
    (shallow : arena.Shallow depth (.stmt stmt)) :
    arena.Shallow depth (arena.inside stmt) := by
  unfold Arena.inside
  split
  next decl form =>
    cases depth with
    | zero => exact shallow.elim
    | succ depth =>
        exact (shallow (.decl decl)
          (by simp [children, form, StmtForm.children])).mono
          (Nat.le_succ _)
  next => exact shallow

/--
A walk to the ends of all trails is no longer for being allowed to go deeper.
-/
private theorem Shallow.walkWithin_eq
    (shallow : arena.Shallow depth term)
    (enough : depth ≤ more) :
    arena.walkWithin more term = arena.walkWithin depth term := by
  induction depth generalizing more term with
  | zero => exact shallow.elim
  | succ depth inductionHypothesis =>
      obtain ⟨more, rfl⟩ :=
        Nat.exists_eq_add_of_le' (Nat.lt_of_lt_of_le (Nat.succ_pos _) enough)
      have enough := Nat.le_of_succ_le_succ enough
      have below : (arena.children term).flatMap (arena.walkWithin more) =
          (arena.children term).flatMap (arena.walkWithin depth) :=
        List.flatMap_congr fun child owned =>
          inductionHypothesis (shallow child owned) enough
      cases term with
      | stmt stmt =>
          simp only [walkWithin]
          cases form : (arena.stmt stmt).form with
          | list role stmts scope =>
              refine congrArg _ (List.flatMap_congr fun item listed => ?_)
              have inside := shallow (.stmt item)
                (by simp [children, form, StmtForm.children, listed])
              exact inductionHypothesis inside.inside enough
          | declaration decl =>
              rw [children, form] at below
              simpa [StmtForm.children] using below
          | _ =>
              rw [children, form] at below
              exact below
      | decl decl => simp only [walkWithin, below]
      | _ => simp only [walkWithin, below]

/-- A parsed term that is neither a statement nor a definition owns none. -/
private theorem Parsed.isInline_child
    {child : Term}
    (parsed : arena.Parsed term)
    (inline : term.isInline = true)
    (owned : child ∈ arena.children term) :
    child.isInline = true := by
  cases term with
  | stmt stmt => cases inline
  | definition definition => cases inline
  | name name => exact NameForm.isInline_child _ child owned
  | type type => exact TypeForm.isInline_child _ child owned
  | expr expr => exact ExprForm.isInline_child _ child owned
  | requirement requirement => exact ReqForm.isInline_child _ child owned
  | decl decl =>
      rcases List.mem_cons.mp owned with rfl | owned
      · rfl
      · exact DeclForm.isInline_child (parsed.here.2 decl rfl) child owned

/--
A walk comes by nothing in a parsed term that is neither a statement nor a
definition.
-/
private theorem Parsed.walkWithin_eq_nil
    (parsed : arena.Parsed term)
    (inline : term.isInline = true) :
    arena.walkWithin depth term = [] := by
  induction depth generalizing term with
  | zero => rfl
  | succ depth inductionHypothesis =>
      have below : (arena.children term).flatMap (arena.walkWithin depth) =
          [] :=
        List.flatMap_eq_nil_iff.mpr fun child owned =>
          inductionHypothesis (parsed.child owned)
            (parsed.isInline_child inline owned)
      cases term with
      | stmt stmt => cases inline
      | definition definition => cases inline
      | decl decl => simp [walkWithin, below, parsed.here.2 decl rfl]
      | _ => simpa only [walkWithin] using below

/-- No trail down from a term is longer than there are terms. -/
abbrev Bounded (arena : Arena) (term : Term) : Prop :=
  arena.Shallow (arena.termCount + 1) term

/-- What a walk comes by within a term, down to the ends of all trails. -/
def walk (arena : Arena) (term : Term) : List Landmark :=
  arena.walkWithin (arena.termCount + 1) term

theorem Parsed.walk_eq_nil
    (parsed : arena.Parsed term)
    (inline : term.isInline = true) :
    arena.walk term = [] :=
  parsed.walkWithin_eq_nil inline

/-- A walk comes by nothing in a parsed definition that is no block. -/
theorem Parsed.walk_definition
    {definition : DefId}
    (parsed : arena.Parsed (.definition definition))
    (flat : (arena.definition definition).form.block? = none) :
    arena.walk (.definition definition) = [] :=
  List.flatMap_eq_nil_iff.mpr fun _ owned =>
    Parsed.walkWithin_eq_nil (parsed.child owned)
      (DefForm.isInline_child flat _ owned)

namespace Bounded

theorem child
    {child : Term}
    (bounded : arena.Bounded term)
    (owned : child ∈ arena.children term) :
    arena.Bounded child :=
  (bounded child owned).mono (Nat.le_succ _)

private theorem walk_eq (bounded : arena.Bounded term) :
    arena.walk term = arena.walkWithin (arena.termCount + 1 + 1) term :=
  (Shallow.walkWithin_eq bounded (Nat.le_succ _)).symm

section

variable {stmt : StmtId} (bounded : arena.Bounded (.stmt stmt))

include bounded

/--
A walk through a statement goes on with walks through what is within its own.
-/
private theorem walk_stmt :
    arena.walk (.stmt stmt) =
      match (arena.stmt stmt).form with
      | .list _ stmts _ => .list stmts :: stmts.flatMap fun item =>
          arena.walk (arena.inside item)
      | .declaration decl => .list [stmt] :: arena.walk (.decl decl)
      | form => form.children.flatMap arena.walk := by
  rw [bounded.walk_eq, walkWithin]
  rfl

theorem walk_list
    {role : ListRole}
    {stmts : List StmtId}
    {scope : ScopeId}
    (form : (arena.stmt stmt).form = .list role stmts scope) :
    arena.walk (.stmt stmt) =
      .list stmts :: stmts.flatMap fun item =>
        arena.walk (arena.inside item) := by
  rw [bounded.walk_stmt, form]

theorem walk_declaration
    {decl : DeclId}
    (form : (arena.stmt stmt).form = .declaration decl) :
    arena.walk (.stmt stmt) = .list [stmt] :: arena.walk (.decl decl) := by
  rw [bounded.walk_stmt, form]

theorem walk_branch
    {condition : ExprId}
    {accepted : StmtId}
    {rejected? : Option StmtId}
    (form : (arena.stmt stmt).form = .branch condition accepted rejected?)
    (test : arena.Parsed (.expr condition)) :
    arena.walk (.stmt stmt) = arena.walk (.stmt accepted) ++
      rejected?.toList.flatMap fun rejected => arena.walk (.stmt rejected) := by
  rw [bounded.walk_stmt, form]
  simp only [StmtForm.children, List.flatMap_cons, List.flatMap_map,
    test.walk_eq_nil rfl, List.nil_append]

theorem walk_loop
    {condition : ExprId}
    {body : StmtId}
    (form : (arena.stmt stmt).form = .loop condition body)
    (test : arena.Parsed (.expr condition)) :
    arena.walk (.stmt stmt) = arena.walk (.stmt body) := by
  rw [bounded.walk_stmt, form]
  simp only [StmtForm.children, List.flatMap_cons, List.flatMap_nil,
    test.walk_eq_nil rfl, List.nil_append, List.append_nil]

/-- A walk through a statement that is no list goes through those in it. -/
theorem walk_nested
    {inner : StmtId}
    (owned : .stmt inner ∈ arena.children (.stmt stmt))
    (alone : ∀ role stmts scope,
      (arena.stmt stmt).form ≠ .list role stmts scope) :
    arena.walk (.stmt inner) ⊆ arena.walk (.stmt stmt) := by
  rw [bounded.walk_stmt]
  rw [children] at owned
  cases form : (arena.stmt stmt).form with
  | list role stmts scope => exact absurd form (alone role stmts scope)
  | declaration decl => simp [form, StmtForm.children] at owned
  | _ =>
      rw [form] at owned
      exact fun landmark inside => List.mem_flatMap.mpr ⟨_, owned, inside⟩

/-- A walk comes by nothing in a parsed statement without others. -/
theorem walk_flat
    (parsed : arena.Parsed (.stmt stmt))
    (flat : (arena.stmt stmt).form.isFlat = true) :
    arena.walk (.stmt stmt) = [] := by
  have nothing : ∀ child ∈ (arena.stmt stmt).form.children,
      arena.walk child = [] :=
    fun child owned =>
      Parsed.walk_eq_nil (parsed.child owned)
        (StmtForm.isInline_child flat child owned)
  rw [bounded.walk_stmt]
  cases form : (arena.stmt stmt).form with
  | list _ _ _ => rw [form] at flat; cases flat
  | declaration _ => rw [form] at flat; cases flat
  | _ => exact List.flatMap_eq_nil_iff.mpr fun child owned =>
      nothing child (form ▸ owned)

end

theorem walk_definition
    {definition : DefId}
    (bounded : arena.Bounded (.definition definition)) :
    arena.walk (.definition definition) =
      (arena.definition definition).form.children.flatMap arena.walk :=
  bounded.walk_eq

/--
A declaration with parsed heads is walked through its definition, or what it
wraps, to its end.
-/
theorem walk_decl
    {decl : DeclId}
    (bounded : arena.Bounded (.decl decl))
    (plain : (arena.decl decl).form.isParam = false)
    (name : arena.Parsed (.name (arena.decl decl).name))
    (heads : ∀ head ∈ (arena.decl decl).form.heads, arena.Parsed head) :
    arena.walk (.decl decl) =
      ((arena.decl decl).form.definition?.toList.flatMap fun definition =>
        arena.walk (.definition definition)) ++
          (arena.decl decl).form.wrapped?.toList.flatMap arena.walk ++
            [.finish decl] := by
  have named := name.walk_eq_nil rfl
  have none : (arena.decl decl).form.heads.flatMap arena.walk = [] :=
    List.flatMap_eq_nil_iff.mpr fun head listed =>
      (heads head listed).walk_eq_nil (DeclForm.isInline_head head listed)
  have below : (arena.children (.decl decl)).flatMap arena.walk =
      ((arena.decl decl).form.definition?.toList.flatMap fun definition =>
        arena.walk (.definition definition)) ++
          (arena.decl decl).form.wrapped?.toList.flatMap arena.walk := by
    rw [children, DeclForm.children_eq, List.flatMap_cons, named,
      List.flatMap_append, List.flatMap_append, none, List.flatMap_map]
    rfl
  rw [bounded.walk_eq, walkWithin, plain, ← below]
  rfl

/-- What one item is listed by is listed without a break. -/
private theorem infix_flatMap
    {Item Value : Type}
    {item : Item}
    {items : List Item}
    (listed : item ∈ items)
    (values : Item → List Value) :
    values item <:+: items.flatMap values := by
  obtain ⟨before, after, rfl⟩ := List.append_of_mem listed
  exact ⟨before.flatMap values, after.flatMap values, by simp⟩

/-- A walk through a term goes through what is within it. -/
private theorem infix_within (bounded : arena.Bounded term) :
    arena.walk (arena.within term) <:+: arena.walk term := by
  cases term with
  | stmt stmt =>
      rw [Arena.within, Arena.inside]
      split
      next decl form =>
        rw [bounded.walk_declaration form]
        exact List.infix_cons (List.infix_refl _)
      next => exact List.infix_refl _
  | _ => exact List.infix_refl _

/--
A walk goes through what is within a child of a term as it goes through the
term. Of a declaration in a list only what is within its statement is walked
through.
-/
private theorem infix_child
    {owner : Term}
    (bounded : arena.Bounded owner)
    (owned : term ∈ arena.children owner) :
    arena.walk (arena.within term) <:+: arena.walk (arena.within owner) := by
  have among : arena.walk (arena.within term) <:+:
      (arena.children owner).flatMap arena.walk :=
    (bounded.child owned).infix_within.trans (infix_flatMap owned arena.walk)
  have through (same : arena.within owner = owner)
      (all : (arena.children owner).flatMap arena.walk <:+: arena.walk owner) :
      arena.walk (arena.within term) <:+: arena.walk (arena.within owner) := by
    rw [same]
    exact among.trans all
  cases owner with
  | stmt owner =>
      cases form : (arena.stmt owner).form with
      | list role stmts scope =>
          rw [children, form] at owned
          obtain ⟨item, listed, rfl⟩ := List.mem_map.mp owned
          have same : arena.within (.stmt owner) = .stmt owner := by
            simp [Arena.within, Arena.inside, form]
          rw [same, bounded.walk_list form]
          exact List.infix_cons (infix_flatMap listed fun item =>
            arena.walk (arena.inside item))
      | declaration decl =>
          rw [children, form] at owned
          obtain rfl := List.mem_singleton.mp owned
          have same : arena.walk (arena.within (.stmt owner)) =
              arena.walk (.decl decl) := by
            simp [Arena.within, Arena.inside, form]
          exact same.symm ▸ List.infix_refl _
      | _ =>
          have same : arena.walk (.stmt owner) =
              (arena.children (.stmt owner)).flatMap arena.walk := by
            rw [bounded.walk_stmt, form, children, form]
          exact through (by simp [Arena.within, Arena.inside, form])
            (same ▸ List.infix_refl _)
  | decl owner =>
      exact through rfl (bounded.walk_eq ▸ (List.prefix_append _ _).isInfix)
  | _ => exact through rfl (bounded.walk_eq ▸ List.infix_refl _)

/-- A walk through a term goes through each statement list below. -/
theorem infix_walk
    {stmt : StmtId}
    (bounded : arena.Bounded root)
    (reached : arena.Owns root (.stmt stmt))
    (plain : (arena.stmt stmt).form.isDeclaration = false) :
    arena.walk (.stmt stmt) <:+: arena.walk root := by
  have below {term : Term} (reached : arena.Owns root term) :
      arena.Bounded term ∧
        arena.walk (arena.within term) <:+: arena.walk root := by
    induction reached with
    | self => exact ⟨bounded, bounded.infix_within⟩
    | child _ owned inductionHypothesis =>
        obtain ⟨boundedOwner, above⟩ := inductionHypothesis
        exact ⟨boundedOwner.child owned,
          (boundedOwner.infix_child owned).trans above⟩
  have same : arena.within (.stmt stmt) = .stmt stmt := by
    cases form : (arena.stmt stmt).form <;>
      simp_all [Arena.within, Arena.inside, StmtForm.isDeclaration]
  exact same ▸ (below reached).2

end Bounded

/--
Whether a term is a statement that holds a declaration, or a declaration but no
parameter.
-/
def isMarked (arena : Arena) : Term → Bool
  | .stmt stmt => (arena.stmt stmt).form.isDeclaration
  | .decl decl => !(arena.decl decl).form.isParam
  | _ => false

/-- The terms so marked that a landmark shows. -/
def marks (arena : Arena) : Landmark → List Term
  | .list stmts => (stmts.map Term.stmt).filter arena.isMarked
  | .finish decl => [.decl decl]

/-- A statement shows its own mark, and what is within it shows those below. -/
private theorem Shallow.filter_preorderWithin
    {stmt : StmtId}
    (shallow : arena.Shallow depth (.stmt stmt)) :
    (arena.preorderWithin depth (.stmt stmt)).filter arena.isMarked =
      [Term.stmt stmt].filter arena.isMarked ++
        (arena.preorderWithin depth (arena.inside stmt)).filter
          arena.isMarked := by
  cases form : (arena.stmt stmt).form with
  | declaration decl =>
      rw [show arena.inside stmt = .decl decl by simp [Arena.inside, form]]
      cases depth with
      | zero => exact shallow.elim
      | succ depth =>
          have below : arena.Shallow depth (.decl decl) :=
            shallow _ (by simp [children, form, StmtForm.children])
          rw [below.preorderWithin_eq (Nat.le_succ depth), preorderWithin,
            children, form, StmtForm.children, List.flatMap_cons,
            List.flatMap_nil, List.append_nil, List.filter_cons,
            List.filter_cons]
          split <;> rfl
  | _ =>
      have plain : arena.isMarked (.stmt stmt) = false := by
        rw [isMarked, form]; rfl
      simp [Arena.inside, form, plain]

/--
The marks that a walk comes by are those of the terms that are owned. The marks
of the items of a list come first, then those below each.
-/
private theorem Shallow.marks_perm (shallow : arena.Shallow depth term) :
    ((arena.walkWithin depth term).flatMap arena.marks).Perm
      ((arena.preorderWithin depth term).filter arena.isMarked) := by
  induction depth generalizing term with
  | zero => exact shallow.elim
  | succ depth inductionHypothesis =>
      have below :
          (((arena.children term).flatMap (arena.walkWithin depth)).flatMap
            arena.marks).Perm
          (((arena.children term).flatMap (arena.preorderWithin depth)).filter
            arena.isMarked) := by
        rw [List.flatMap_assoc, List.filter_flatMap]
        exact List.Perm.flatMap_left _ fun child owned =>
          inductionHypothesis (shallow child owned)
      cases term with
      | stmt stmt =>
          rw [walkWithin, preorderWithin, List.filter_cons]
          cases form : (arena.stmt stmt).form with
          | list role stmts scope =>
              have items : arena.children (.stmt stmt) =
                  stmts.map Term.stmt := by
                rw [children, form]
                rfl
              have each (item : StmtId) (listed : item ∈ stmts) :
                  ([Term.stmt item].filter arena.isMarked ++
                    (arena.walkWithin depth (arena.inside item)).flatMap
                      arena.marks).Perm
                      ((arena.preorderWithin depth (.stmt item)).filter
                        arena.isMarked) := by
                have inner :=
                  shallow (.stmt item) (items ▸ List.mem_map_of_mem listed)
                rw [inner.filter_preorderWithin]
                exact (inductionHypothesis inner.inside).append_left _
              have plain : arena.isMarked (.stmt stmt) = false := by
                rw [isMarked, form]; rfl
              rw [items, List.filter_flatMap, List.flatMap_map,
                if_neg (by simp [plain])]
              refine .trans ?_ (List.Perm.flatMap_left _ each)
              have heads : arena.marks (.list stmts) =
                  stmts.flatMap fun item =>
                    [Term.stmt item].filter arena.isMarked := by
                rw [← List.filter_flatMap, marks, List.map_eq_flatMap]
              rw [List.flatMap_cons, List.flatMap_assoc, heads]
              exact List.flatMap_append_perm _ _ _
          | declaration decl =>
              have marked : arena.isMarked (.stmt stmt) = true := by
                rw [isMarked, form]; rfl
              rw [children, form] at below ⊢
              simpa [marks, marked, StmtForm.children] using below
          | _ =>
              have plain : arena.isMarked (.stmt stmt) = false := by
                rw [isMarked, form]; rfl
              rw [children, form] at below ⊢
              simpa [plain] using below
      | decl decl =>
          rw [walkWithin, preorderWithin, List.flatMap_append]
          cases isParam : (arena.decl decl).form.isParam with
          | true => simpa [isMarked, isParam] using below
          | false =>
              have marked : arena.isMarked (.decl decl) = true := by
                simp [isMarked, isParam]
              rw [List.filter_cons_of_pos marked]
              exact (below.append_right _).trans
                (List.perm_append_singleton _ _)
      | _ => simpa [walkWithin, preorderWithin, isMarked] using below

/-- A trail goes on where another one has come to. -/
theorem Trail.append
    {path further : List Nat}
    {middle : Term}
    (first : arena.Trail root path middle)
    (second : arena.Trail middle further term) :
    arena.Trail root (further ++ path) term := by
  induction second with
  | here => exact first
  | down _ owned inductionHypothesis => exact inductionHypothesis.down owned

/-- Whether a term is no name. -/
def isSolid : Term → Bool
  | .name _ => false
  | _ => true

/-- Below the root of a tree no term but a name is met twice. -/
private theorem Rooted.nodup_preorderWithin
    (rooted : arena.Rooted root)
    {path : List Nat}
    (trail : arena.Trail root path term) :
    ((arena.preorderWithin depth term).filter isSolid).Nodup := by
  have unique {term : Term} {path other : List Nat}
      (solid : isSolid term = true)
      (first : arena.Trail root path term)
        (second : arena.Trail root other term) : path = other := by
    refine rooted.trail_unique (fun name same => ?_) first second
    rw [same] at solid
    cases solid
  induction depth generalizing term path with
  | zero => exact List.nodup_nil
  | succ depth inductionHypothesis =>
      have below :
          (((arena.children term).flatMap (arena.preorderWithin depth)).filter
            isSolid).Nodup := by
        rw [List.filter_flatMap, List.nodup_flatMap]
        refine ⟨fun child owned => ?_, ?_⟩
        · obtain ⟨place, found⟩ := List.mem_iff_getElem?.mp owned
          exact inductionHypothesis (trail.down found)
        · refine List.pairwise_iff_getElem.mpr
            fun place other inside insideToo before => ?_
          intro found first second
          obtain ⟨first, solid⟩ := List.mem_filter.mp first
          obtain ⟨firstPath, firstTrail⟩ :=
            (owns_of_mem_preorderWithin .self first).trail
          obtain ⟨secondPath, secondTrail⟩ :=
            (owns_of_mem_preorderWithin .self
              (List.mem_filter.mp second).1).trail
          have same :=
            unique solid ((trail.down (List.getElem?_eq_getElem inside)).append
              firstTrail)
            ((trail.down (List.getElem?_eq_getElem insideToo)).append
              secondTrail)
          have last := congrArg (fun path => path.reverse) same
          simp at last
          omega
      rw [preorderWithin, List.filter_cons]
      split
      next solid =>
        refine List.nodup_cons.mpr ⟨fun listed => ?_, below⟩
        obtain ⟨child, owned, found⟩ :=
          List.mem_flatMap.mp (List.mem_filter.mp listed).1
        obtain ⟨place, at_⟩ := List.mem_iff_getElem?.mp owned
        obtain ⟨further, onward⟩ :=
          (owns_of_mem_preorderWithin .self found).trail
        have same :=
          congrArg List.length
            (unique solid trail ((trail.down at_).append onward))
        simp at same
        omega
      next => exact below

/--
In a tree a walk comes by no statement that holds a declaration twice, and ends
none twice.
-/
theorem Rooted.nodup_marks
    (rooted : arena.Rooted root)
    (shallow : arena.Shallow depth root) :
    ((arena.walkWithin depth root).flatMap arena.marks).Nodup := by
  have marked : ∀ term ∈ arena.preorderWithin depth root,
      (arena.isMarked term && isSolid term) = arena.isMarked term :=
        fun term _ => by
    cases term <;> simp [isMarked, isSolid]
  have distinct :=
    (@Rooted.nodup_preorderWithin _ depth _ _ rooted _ .here).filter
      arena.isMarked
  rw [List.filter_filter, List.filter_congr marked] at distinct
  exact shallow.marks_perm.nodup_iff.mpr distinct

/-- Only a statement that is marked holds a declaration. -/
private theorem filterMap_marked (arena : Arena) (terms : List Term) :
    (terms.filter arena.isMarked).filterMap arena.declared? =
      terms.filterMap arena.declared? := by
  rw [List.filterMap_filter]
  refine List.filterMap_congr fun term _ => ?_
  cases term with
  | stmt stmt =>
      rw [isMarked, declared?]
      cases (arena.stmt stmt).form <;> rfl
  | _ => simp [declared?]

/--
The declarations among the marks of landmarks are those held by the statements
of the lists.
-/
private theorem filterMap_marks (arena : Arena) (landmarks : List Landmark) :
    (landmarks.flatMap arena.marks).filterMap arena.declared? =
      (landmarks.filterMap Landmark.list?).flatten.filterMap fun stmt =>
        (arena.stmt stmt).form.declared? := by
  induction landmarks with
  | nil => rfl
  | cons landmark landmarks inductionHypothesis =>
      rw [List.flatMap_cons, List.filterMap_append, inductionHypothesis]
      cases landmark with
      | list stmts =>
          rw [marks, filterMap_marked, List.filterMap_map]
          simp [Landmark.list?, declared?, Function.comp_def]
      | finish decl => rfl

section

variable (rooted : arena.Rooted root)

include rooted

/-- In a tree no trail down from the root is longer than there are terms. -/
theorem Rooted.bounded : arena.Bounded root :=
  Shallow.mono (rooted.shallow .here)
    (Nat.le_trans (Nat.sub_le _ _) (Nat.le_succ _))

/-- So it is from all terms below the root. -/
theorem Rooted.bounded_of_owns (reached : arena.Owns root term) :
    arena.Bounded term := by
  induction reached with
  | self => exact rooted.bounded
  | child _ owned inductionHypothesis => exact inductionHypothesis.child owned

/--
The marks that a walk from the root comes by are those of all terms below it.
-/
theorem Rooted.mem_marks :
    term ∈ (arena.walk root).flatMap arena.marks ↔
      arena.Owns root term ∧ arena.isMarked term = true := by
  rw [walk, rooted.bounded.marks_perm.mem_iff, ← preorder_eq, List.mem_filter,
    rooted.tree.listed]

/--
The statements of all lists hold the declarations that statements below the root
hold.
-/
theorem Rooted.mem_declared {decl : DeclId} :
    decl ∈ (arena.lists root).flatten.filterMap
      (fun stmt => (arena.stmt stmt).form.declared?) ↔
      ∃ stmt, arena.Owns root (.stmt stmt) ∧ (arena.stmt stmt).form =
        .declaration decl := by
  have holder {stmt : StmtId}
      (holds : arena.declared? (.stmt stmt) = some decl) :
      (arena.stmt stmt).form = .declaration decl := by
    cases form : (arena.stmt stmt).form <;>
      simp_all [declared?, StmtForm.declared?]
  rw [lists, ← filterMap_walkWithin, ← filterMap_marks, List.mem_filterMap]
  constructor
  · rintro ⟨term, listed, holds⟩
    cases term with
    | stmt stmt => exact ⟨stmt, (rooted.mem_marks.mp listed).1, holder holds⟩
    | _ => cases holds
  · rintro ⟨stmt, reached, form⟩
    have marked : arena.isMarked (.stmt stmt) = true := by
      rw [isMarked, form]; rfl
    exact ⟨.stmt stmt,
      rooted.mem_marks.mpr ⟨reached, marked⟩, by rw [declared?, form]; rfl⟩

/-- No declaration is held twice by the statements of all lists. -/
theorem Rooted.nodup_declared :
    ((arena.lists root).flatten.filterMap fun stmt =>
      (arena.stmt stmt).form.declared?).Nodup := by
  rw [lists, ← filterMap_walkWithin, ← filterMap_marks, List.Nodup,
    List.pairwise_filterMap]
  refine (rooted.nodup_marks rooted.bounded).imp_of_mem
    fun {first second} among amongToo apart => ?_
  rintro decl holds other holdsToo rfl
  have owner {term : Term} (holds : arena.declared? term = some decl) :
      .decl decl ∈ arena.parts term := by
    cases term with
    | stmt stmt =>
        cases form : (arena.stmt stmt).form <;>
          simp_all [declared?, StmtForm.declared?, parts, children,
            StmtForm.children]
    | _ => cases holds
  exact apart (rooted.single (rooted.mem_marks.mp among).1
    (rooted.mem_marks.mp amongToo).1
    (owner holds) (owner holdsToo))

end

end Arena

end Tern
