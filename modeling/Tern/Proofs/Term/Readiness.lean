import Tern.Proofs.Term.Ownership

namespace Tern

/-!
# Readiness

What parsing leaves behind is ready to be elaborated: ranges of tokens stand
only where elaboration looks for them, and the statement lists nested in a term
are bounded, a range counting for all that may be parsed from it.
-/

/--
The terms that a declaration owns besides its name, its definition and what it
wraps.
-/
def DeclForm.heads : DeclForm → List Term
  | .object _ type _ => [.type type]
  | .parameter type => [.type type]
  | .callable _ params result _ => params.map Term.decl ++ [.type result]
  | .classType kind _ => [.type kind]
  | .typeParameter _ default? => default?.toList.map Term.type
  | .concept parms _ => parms.map Term.decl
  | .namespaceBlock _ => []
  | .template parms constraint? _ =>
      parms.map Term.decl ++ constraint?.toList.map Term.expr

/-- The term that a declaration wraps. -/
def DeclForm.wrapped? : DeclForm → Option Term
  | .template _ _ inner => some (.decl inner)
  | .namespaceBlock body => some (.stmt body)
  | _ => none

/-- What a declaration owns are its heads, its definition and what it wraps. -/
theorem DeclForm.mem_children {form : DeclForm} {term : Term} :
    term ∈ form.children ↔
      term ∈ form.heads ∨ form.definition?.map Term.definition = some term ∨
        form.wrapped? = some term := by
  cases form <;>
    simp [children, heads, definition?, wrapped?, eq_comm, or_assoc]

/-- Whether a declaration has parameters and no definition. -/
def DeclForm.isParam : DeclForm → Bool
  | .parameter _ => true
  | .typeParameter _ _ => true
  | _ => false

/-- Whether a declaration is a template. -/
def DeclForm.isTemplate : DeclForm → Bool
  | .template _ _ _ => true
  | _ => false

/-- Which definitions elaboration looks for in a declaration. -/
def DeclForm.takes : DeclForm → DefForm → Bool
  | .object _ _ _, .empty => true
  | .object _ _ _, .expression _ => true
  | .callable _ _ _ _, .empty => true
  | .callable _ _ _ _, .expression _ => true
  | .callable _ _ _ _, .body _ => true
  | .callable _ _ _ _, .deleted => true
  | .callable _ _ _ _, .defaulted => true
  | .classType _ _, .empty => true
  | .classType _ _, .members _ => true
  | _, _ => false

/-- The statement that a definition is. -/
def DefForm.block? : DefForm → Option StmtId
  | .body stmt => some stmt
  | .members stmt => some stmt
  | _ => none

/-- What a definition that is a statement owns is that statement. -/
theorem DefForm.children_of_block?
    {form : DefForm}
    {stmt : StmtId}
    (block : form.block? = some stmt) :
    form.children = [.stmt stmt] := by
  cases form <;> simp_all [block?, children]

/-- A declaration with a definition wraps nothing. -/
theorem DeclForm.wrapped?_eq_none
    {form : DeclForm}
    {definition : DefId}
    (defines : form.definition? = some definition) :
    form.wrapped? = none := by
  cases form <;> simp_all [definition?, wrapped?]

/-- Whether a statement owns neither statements nor a declaration. -/
def StmtForm.isFlat : StmtForm → Bool
  | .empty => true
  | .value _ _ => true
  | .jump _ => true
  | _ => false

/-- Whether a statement holds a declaration. -/
def StmtForm.isDeclaration : StmtForm → Bool
  | .declaration _ => true
  | _ => false

/-- The range of tokens that a type is. -/
def TypeForm.range? : TypeForm → Option TokenRange
  | .unparsed range => some range
  | _ => none

/-- The range of tokens that an expression is. -/
def ExprForm.range? : ExprForm → Option TokenRange
  | .unparsed range => some range
  | _ => none

/-- The range of tokens that a statement is. -/
def StmtForm.range? : StmtForm → Option TokenRange
  | .unparsed range => some range
  | _ => none

namespace Arena

/-- The range of tokens that a term is. -/
def range? (arena : Arena) : Term → Option TokenRange
  | .type id => (arena.type id).form.range?
  | .expr id => (arena.expr id).form.range?
  | .stmt id => (arena.stmt id).form.range?
  | _ => none

/--
A term is stored and parsed, and if it is a declaration it is a parameter.
-/
def Settled (arena : Arena) (term : Term) : Prop :=
  arena.Present term ∧ ∀ decl, term = .decl decl →
    (arena.decl decl).form.isParam = true

/--
A name, type, expression, requirement or parameter that was parsed as a whole.
-/
def Parsed (arena : Arena) (term : Term) : Prop :=
  arena.Throughout arena.Settled term

/-- A term is stored as a range of tokens. -/
def Captured (arena : Arena) (term : Term) : Prop :=
  arena.Holds term ∧ arena.isUnparsed term = true

/--
A term is parsed, captured other than as a statement, or a parameter of a
captured type.
-/
inductive Due (arena : Arena) : Term → Prop where
  | parsed {term : Term} (parsed : arena.Parsed term) : Due arena term
  | captured {term : Term} (captured : arena.Captured term)
      (inline : term.family ≠ .statement) : Due arena term
  | param {decl : DeclId} {type : TypeId} (held : arena.Holds (.decl decl))
      (name : arena.Parsed (.name (arena.decl decl).name))
      (form : (arena.decl decl).form = .parameter type)
      (captured : arena.Captured (.type type)) :
      Due arena (.decl decl)

/--
What a statement adds to the bound of a declaration, which may get a template
around it.
-/
def wrapCost (arena : Arena) (decl : DeclId) : Nat :=
  if (arena.decl decl).form.isTemplate then 2 else 3

theorem two_le_wrapCost (arena : Arena) (decl : DeclId) :
    2 ≤ arena.wrapCost decl := by
  unfold wrapCost
  split <;> decide

/--
A statement, declaration or definition is ready to be elaborated with statement
lists nested within a bound. All declarations in it are stored from a slot on.
-/
inductive Ready (arena : Arena) (low : Nat) : Nat → Term → Prop where
  | plain {bound : Nat} {stmt : StmtId} (parsed : arena.Parsed (.stmt stmt))
      (flat : (arena.stmt stmt).form.isFlat = true) :
      Ready arena low bound (.stmt stmt)
  | list {bound inner : Nat} {stmt : StmtId} {role : ListRole}
      {stmts : List StmtId}
      {scope : ScopeId} (held : arena.Holds (.stmt stmt))
      (form : (arena.stmt stmt).form = .list role stmts scope)
      (items : ∀ item ∈ stmts, Ready arena low inner (.stmt item))
      (room : inner + 2 ≤ bound) :
      Ready arena low bound (.stmt stmt)
  | branch {bound inner : Nat} {stmt : StmtId} {condition : ExprId}
      {accepted : StmtId}
      {rejected? : Option StmtId} (held : arena.Holds (.stmt stmt))
      (form : (arena.stmt stmt).form = .branch condition accepted rejected?)
      (test : arena.Parsed (.expr condition))
      (yes : Ready arena low inner (.stmt accepted))
      (no : ∀ rejected ∈ rejected?, Ready arena low inner (.stmt rejected))
      (room : inner + 1 ≤ bound) :
      Ready arena low bound (.stmt stmt)
  | loop {bound inner : Nat} {stmt : StmtId} {condition : ExprId}
      {body : StmtId}
      (held : arena.Holds (.stmt stmt))
      (form : (arena.stmt stmt).form = .loop condition body)
      (test : arena.Parsed (.expr condition))
      (again : Ready arena low inner (.stmt body))
      (room : inner + 1 ≤ bound) :
      Ready arena low bound (.stmt stmt)
  | declaration {bound inner : Nat} {stmt : StmtId} {decl : DeclId}
      (held : arena.Holds (.stmt stmt))
      (form : (arena.stmt stmt).form = .declaration decl)
      (declared : Ready arena low inner (.decl decl))
      (room : inner + arena.wrapCost decl ≤ bound) :
      Ready arena low bound (.stmt stmt)
  | defined {bound inner : Nat} {decl : DeclId} {definition : DefId}
      (held : arena.Holds (.decl decl)) (new : low ≤ decl.raw)
      (name : arena.Parsed (.name (arena.decl decl).name))
      (heads : ∀ head ∈ (arena.decl decl).form.heads, arena.Due head)
      (defines : (arena.decl decl).form.definition? = some definition)
      (takes : (arena.decl decl).form.takes (arena.definition definition).form =
        true)
      (ready : Ready arena low inner (.definition definition))
      (room : inner + 1 ≤ bound) :
      Ready arena low bound (.decl decl)
  | concept {bound : Nat} {decl : DeclId} {parms : List DeclId}
      {definition : DefId}
      (held : arena.Holds (.decl decl)) (new : low ≤ decl.raw)
      (name : arena.Parsed (.name (arena.decl decl).name))
      (form : (arena.decl decl).form = .concept parms definition)
      (parameters : ∀ parm ∈ parms, arena.Parsed (.decl parm))
      (required : arena.Parsed (.definition definition))
      (flat : (arena.definition definition).form.block? = none) :
      Ready arena low bound (.decl decl)
  | template {bound inner : Nat} {decl wrapped : DeclId} {parms : List DeclId}
      {constraint? : Option ExprId} (held : arena.Holds (.decl decl))
        (new : low ≤ decl.raw)
      (name : arena.Parsed (.name (arena.decl decl).name))
      (form : (arena.decl decl).form = .template parms constraint? wrapped)
      (heads : ∀ head ∈ (arena.decl decl).form.heads, arena.Parsed head)
      (ready : Ready arena low inner (.decl wrapped))
      (order : (arena.decl decl).phase = .unelaborated → decl.raw < wrapped.raw)
      (room : inner + 1 ≤ bound) :
      Ready arena low bound (.decl decl)
  | namespaceBlock {bound inner : Nat} {decl : DeclId} {body : StmtId}
      (held : arena.Holds (.decl decl)) (new : low ≤ decl.raw)
      (name : arena.Parsed (.name (arena.decl decl).name))
      (form : (arena.decl decl).form = .namespaceBlock body)
      (ready : Ready arena low inner (.stmt body)) (room : inner + 1 ≤ bound) :
      Ready arena low bound (.decl decl)
  | nothing {bound : Nat} {definition : DefId}
      (parsed : arena.Parsed (.definition definition))
      (flat : (arena.definition definition).form.block? = none) :
      Ready arena low bound (.definition definition)
  | initializer {bound : Nat} {definition : DefId} {expr : ExprId}
      (held : arena.Holds (.definition definition))
      (form : (arena.definition definition).form = .expression expr)
      (due : arena.Due (.expr expr)) :
      Ready arena low bound (.definition definition)
  | block {bound inner : Nat} {definition : DefId} {stmt : StmtId}
      (held : arena.Holds (.definition definition))
      (form : (arena.definition definition).form.block? = some stmt)
      (ready : Ready arena low inner (.stmt stmt)) (room : inner + 1 ≤ bound) :
      Ready arena low bound (.definition definition)
  | capturedBlock {bound : Nat} {definition : DefId} {stmt : StmtId}
      {range : TokenRange}
      (held : arena.Holds (.definition definition))
      (form : (arena.definition definition).form.block? = some stmt)
      (stored : arena.Holds (.stmt stmt))
      (captured : (arena.stmt stmt).form = .unparsed range)
      (room : 4 * (range.stop - range.start) + 1 ≤ bound) :
      Ready arena low bound (.definition definition)

/-- A parameter is parsed if its name and what else it owns are. -/
theorem parsed_param
    {arena : Arena}
    {decl : DeclId}
    (held : arena.Holds (.decl decl))
    (isParam : (arena.decl decl).form.isParam = true)
    (name : arena.Parsed (.name (arena.decl decl).name))
    (children : ∀ child ∈ (arena.decl decl).form.children, arena.Parsed child) :
    arena.Parsed (.decl decl) := by
  apply Throughout.intro
  · refine ⟨⟨held, rfl⟩, ?_⟩
    rintro _ ⟨⟩
    exact isParam
  · exact List.forall_mem_cons.mpr ⟨name, children⟩

/-- What is parsed is complete. -/
theorem Parsed.complete
    {arena : Arena}
    {term : Term}
    (parsed : arena.Parsed term) :
    arena.Complete term :=
  parsed.weaken fun _ settled => settled.1

/--
What is parsed in one arena is parsed in another one that shows it with parsed
children.
-/
theorem Parsed.transport
    {older newer : Arena}
    (shown : ∀ term, older.Parsed term →
      newer.Settled term ∧ ∀ child ∈ newer.children term, older.Parsed child)
    {term : Term}
    (parsed : older.Parsed term) :
    newer.Parsed term :=
  .of_closed older.Parsed (fun _ given => (shown _ given).1)
    (fun _ given => (shown _ given).2) parsed

/-- A parameter that is parsed is due. -/
theorem Due.holds
    {arena : Arena}
    {term : Term}
    (due : arena.Due term) :
    arena.Holds term := by
  cases due with
  | parsed parsed => exact parsed.here.1.1
  | captured captured _ => exact captured.1
  | param held _ _ _ => exact held

/-- A statement that is ready is stored. -/
theorem Ready.holds
    {arena : Arena}
    {low bound : Nat}
    {term : Term}
    (ready : arena.Ready low bound term) :
    arena.Holds term := by
  cases ready with
  | plain parsed _ => exact parsed.here.1.1
  | nothing parsed _ => exact parsed.here.1.1
  | _ => assumption

/-- A statement that is ready is no range of tokens. -/
theorem Ready.present
    {arena : Arena}
    {low bound : Nat}
    {stmt : StmtId}
    (ready : arena.Ready low bound (.stmt stmt)) :
    arena.isUnparsed (.stmt stmt) = false := by
  cases ready with
  | plain parsed _ => exact parsed.here.1.2
  | list _ form _ _ => simp [isUnparsed, form, StmtForm.isUnparsed]
  | branch _ form _ _ _ _ => simp [isUnparsed, form, StmtForm.isUnparsed]
  | loop _ form _ _ _ => simp [isUnparsed, form, StmtForm.isUnparsed]
  | declaration _ form _ _ => simp [isUnparsed, form, StmtForm.isUnparsed]

/-- A declaration that is ready is stored from the slot on. -/
theorem Ready.new
    {arena : Arena}
    {low bound : Nat}
    {decl : DeclId}
    (ready : arena.Ready low bound (.decl decl)) :
    low ≤ decl.raw := by
  cases ready <;> assumption

/--
The declaration that a ready statement holds is ready, with room to perform on
it.
-/
theorem Ready.declared
    {arena : Arena}
    {low bound : Nat}
    {stmt : StmtId}
    {decl : DeclId}
    (ready : arena.Ready low bound (.stmt stmt))
    (form : (arena.stmt stmt).form = .declaration decl) :
    ∃ inner, inner + 2 ≤ bound ∧ arena.Ready low inner (.decl decl) := by
  cases ready with
  | plain _ flat =>
      rw [form] at flat
      cases flat
  | declaration _ same declared room =>
      rw [form] at same
      cases same
      exact ⟨_, Nat.le_trans
        (Nat.add_le_add_left (arena.two_le_wrapCost decl) _) room, declared⟩
  | list _ same => simp [form] at same
  | branch _ same => simp [form] at same
  | loop _ same => simp [form] at same

/-- The name of a declaration that is ready is parsed. -/
theorem Ready.name
    {arena : Arena}
    {low bound : Nat}
    {decl : DeclId}
    (ready : arena.Ready low bound (.decl decl)) :
    arena.Parsed (.name (arena.decl decl).name) := by
  cases ready <;> assumption

/--
What is ready within a bound is so within a larger one, and from a smaller slot
on.
-/
theorem Ready.weaken
    {arena : Arena}
    {low lower bound larger : Nat}
    {term : Term}
    (ready : arena.Ready low bound term)
    (order : lower ≤ low)
    (more : bound ≤ larger) :
    arena.Ready lower larger term := by
  induction ready generalizing larger with
  | plain parsed flat => exact .plain parsed flat
  | list held form _ room items =>
      exact .list held form
        (fun item listed => items item listed (Nat.le_refl _))
        (Nat.le_trans room more)
  | branch held form test _ _ room yes no =>
      exact .branch held form test (yes (Nat.le_refl _))
        (fun rejected given => no rejected given (Nat.le_refl _))
          (Nat.le_trans room more)
  | loop held form test _ room again =>
      exact .loop held form test (again (Nat.le_refl _))
        (Nat.le_trans room more)
  | declaration held form _ room declared =>
      exact .declaration held form (declared (Nat.le_refl _))
        (Nat.le_trans room more)
  | defined held new name heads defines takes _ room ready =>
      exact .defined held (Nat.le_trans order new) name heads defines takes
        (ready (Nat.le_refl _)) (Nat.le_trans room more)
  | concept held new name form parameters required flat =>
      exact .concept held (Nat.le_trans order new) name form parameters
        required flat
  | template held new name form heads _ older room ready =>
      exact .template held (Nat.le_trans order new) name form heads
        (ready (Nat.le_refl _)) older
        (Nat.le_trans room more)
  | namespaceBlock held new name form _ room ready =>
      exact .namespaceBlock held (Nat.le_trans order new) name form
        (ready (Nat.le_refl _))
        (Nat.le_trans room more)
  | nothing parsed flat => exact .nothing parsed flat
  | initializer held form due => exact .initializer held form due
  | block held form _ room ready =>
      exact .block held form (ready (Nat.le_refl _)) (Nat.le_trans room more)
  | capturedBlock held form stored captured room =>
      exact .capturedBlock held form stored captured (Nat.le_trans room more)

/-- A term is due, a range of tokens, or ready. -/
inductive Prepared (arena : Arena) : Term → Prop where
  | due {term : Term} (due : arena.Due term) : Prepared arena term
  | captured {term : Term} (captured : arena.isUnparsed term = true) :
      Prepared arena term
  | ready {bound : Nat} {term : Term} (ready : arena.Ready 0 bound term) :
      Prepared arena term

private theorem Parsed.prepared
    {arena : Arena}
    {term : Term}
    (parsed : arena.Parsed term) :
    arena.Prepared term :=
  .due (.parsed parsed)

/-- A range of tokens owns nothing. -/
private theorem children_of_isUnparsed
    {arena : Arena}
    {term : Term}
    (captured : arena.isUnparsed term = true) :
    arena.children term = [] := by
  cases term with
  | type id =>
      simp only [isUnparsed, children] at captured ⊢
      cases form : (arena.type id).form <;>
        simp_all [TypeForm.isUnparsed, TypeForm.children]
  | expr id =>
      simp only [isUnparsed, children] at captured ⊢
      cases form : (arena.expr id).form <;>
        simp_all [ExprForm.isUnparsed, ExprForm.children]
  | stmt id =>
      simp only [isUnparsed, children] at captured ⊢
      cases form : (arena.stmt id).form <;>
        simp_all [StmtForm.isUnparsed, StmtForm.children]
  | _ => cases captured

private theorem Due.prepared_child
    {arena : Arena}
    {owner child : Term}
    (due : arena.Due owner)
    (owned : child ∈ arena.children owner) :
    arena.Prepared child := by
  cases due with
  | parsed parsed => exact Parsed.prepared (parsed.child owned)
  | captured captured _ =>
      rw [children_of_isUnparsed captured.2] at owned
      cases owned
  | param _ name form captured =>
      rw [children, form] at owned
      rcases List.mem_cons.mp owned with rfl | owned
      · exact Parsed.prepared name
      · obtain rfl := List.mem_singleton.mp owned
        exact .captured captured.2

private theorem Ready.prepared_child
    {arena : Arena}
    {bound : Nat}
    {owner child : Term}
    (ready : arena.Ready 0 bound owner)
    (owned : child ∈ arena.children owner) :
    arena.Prepared child := by
  cases ready with
  | plain parsed _ => exact Parsed.prepared (parsed.child owned)
  | list _ form items _ =>
      rw [children, form] at owned
      obtain ⟨item, listed, rfl⟩ := List.mem_map.mp owned
      exact .ready (items item listed)
  | branch _ form test yes no _ =>
      simp only [children, form, StmtForm.children, List.mem_cons, List.mem_map,
        Option.mem_toList] at owned
      rcases owned with rfl | rfl | ⟨rejected, given, rfl⟩
      · exact Parsed.prepared test
      · exact .ready yes
      · exact .ready (no rejected given)
  | loop _ form test again _ =>
      simp only [children, form, StmtForm.children, List.mem_cons,
        List.not_mem_nil, or_false] at owned
      rcases owned with rfl | rfl
      · exact Parsed.prepared test
      · exact .ready again
  | declaration _ form declared _ =>
      rw [children, form] at owned
      exact List.mem_singleton.mp owned ▸ .ready declared
  | defined _ _ name heads defines _ inside _ =>
      rcases List.mem_cons.mp owned with rfl | owned
      · exact Parsed.prepared name
      · rcases DeclForm.mem_children.mp owned with head | definition | wrapped
        · exact .due (heads _ head)
        · rw [defines] at definition
          cases definition
          exact .ready inside
        · rw [DeclForm.wrapped?_eq_none defines] at wrapped
          cases wrapped
  | concept _ _ name form parameters required _ =>
      rcases List.mem_cons.mp owned with rfl | owned
      · exact Parsed.prepared name
      · simp only [form, DeclForm.children, List.mem_append, List.mem_map,
          List.mem_singleton] at owned
        rcases owned with ⟨parm, listed, rfl⟩ | rfl
        · exact (parameters parm listed).prepared
        · exact Parsed.prepared required
  | template _ _ name form heads inside _ _ =>
      rcases List.mem_cons.mp owned with rfl | owned
      · exact Parsed.prepared name
      · rcases DeclForm.mem_children.mp owned with head | definition | wrapped
        · exact (heads _ head).prepared
        · rw [form] at definition
          cases definition
        · rw [form] at wrapped
          cases wrapped
          exact .ready inside
  | namespaceBlock _ _ name form inside _ =>
      rcases List.mem_cons.mp owned with rfl | owned
      · exact Parsed.prepared name
      · rw [form] at owned
        exact List.mem_singleton.mp owned ▸ .ready inside
  | nothing parsed _ => exact Parsed.prepared (parsed.child owned)
  | initializer _ form due =>
      rw [children, form] at owned
      exact List.mem_singleton.mp owned ▸ .due due
  | block _ form inside _ =>
      rw [children, DefForm.children_of_block? form] at owned
      exact List.mem_singleton.mp owned ▸ .ready inside
  | capturedBlock _ form _ captured _ =>
      rw [children, DefForm.children_of_block? form] at owned
      refine List.mem_singleton.mp owned ▸ .captured ?_
      rw [isUnparsed, captured]
      rfl

private theorem Prepared.child
    {arena : Arena}
    {owner child : Term}
    (prepared : arena.Prepared owner)
    (owned : child ∈ arena.children owner) :
    arena.Prepared child := by
  cases prepared with
  | due due => exact due.prepared_child owned
  | captured captured =>
      rw [children_of_isUnparsed captured] at owned
      cases owned
  | ready ready => exact ready.prepared_child owned

/-- The parameters of requires-expressions within what is ready are parsed. -/
theorem Ready.parsed_ownedRequiresParams
    {arena : Arena}
    {bound : Nat}
    {term : Term}
    (ready : arena.Ready 0 bound term)
    {param : DeclId}
    (listed : param ∈ arena.ownedRequiresParams term) :
    arena.Parsed (.decl param) := by
  obtain ⟨owner, walked, inside⟩ := List.mem_flatMap.mp listed
  have prepared : arena.Prepared owner := by
    refine Throughout.of_closed (arena.Prepared ·) (fun _ => id)
      (fun _ given _ => given.child)
      (.ready ready) owner (owns_of_mem_preorder walked)
  cases owner with
  | expr id =>
      simp only [requiresParams] at inside
      split at inside
      next form =>
        have child : Term.decl param ∈ arena.children (.expr id) := by
          simp [children, form, ExprForm.children, inside]
        cases prepared with
        | due due =>
            cases due with
            | parsed parsed => exact parsed.child child
            | captured captured _ =>
                rw [children_of_isUnparsed captured.2] at child
                cases child
        | captured captured =>
            rw [children_of_isUnparsed captured] at child
            cases child
        | ready ready => cases ready
      next => cases inside
  | _ => cases inside

end Arena

end Tern
