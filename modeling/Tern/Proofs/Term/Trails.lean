import Mathlib.Data.List.Nodup
import Mathlib.Data.List.Perm.Subperm
import Tern.Proofs.Term.Forest
import Tern.Proofs.Term.Ownership
import Tern.Term.Render

namespace Tern

/-!
# Trails from a root

A trail leads from a root to a term below it, from child to child. Below the
root of a tree there is one trail to each term that is no name, and no trail is
longer than the arena, so whatever goes down along the trails comes to an end.
-/

/-- Whether the slot of a term is known. -/
def Term.isValid : Term → Bool
  | .name id => id.isValid
  | .type id => id.isValid
  | .expr id => id.isValid
  | .stmt id => id.isValid
  | .decl id => id.isValid
  | .definition id => id.isValid
  | .requirement id => id.isValid

section

variable {write other : Term → String}

theorem NameForm.render_congr
    {arena : Arena}
    {names : Names}
    {form : NameForm}
    (children : ∀ child ∈ form.children, write child = other child)
    (template : ∀ template, form.template? = some template →
      write (.name (arena.decl template).name) =
        other (.name (arena.decl template).name)) :
    form.render write arena names = form.render other arena names := by
  cases form with
  | simple name => rfl
  | placeholder number => rfl
  | applied applied args =>
      have same : args.map (TemplateArg.render write) =
          args.map (TemplateArg.render other) :=
        List.map_congr_left fun arg listed => by
          cases arg <;> exact children _ (List.mem_map_of_mem listed)
      rw [NameForm.render, NameForm.render, template applied rfl, same]

/--
Terms among those that are written alike are written alike one after the other.
-/
private theorem map_write_congr
    {Id : Type}
    {make : Id → Term}
    {ids : List Id}
    {children : List Term}
    (same : ∀ child ∈ children, write child = other child)
    (inside : ∀ {id}, id ∈ ids → make id ∈ children) :
    ids.map (write ∘ make) = ids.map (other ∘ make) :=
  List.map_congr_left fun _ listed => same _ (inside listed)

theorem TypeForm.render_congr
    {form : TypeForm}
    (children : ∀ child ∈ form.children, write child = other child) :
    form.render write = form.render other := by
  cases form with
  | function params result =>
      rw [TypeForm.render, TypeForm.render,
        children (.type result) (by simp [TypeForm.children]), map_write_congr
        children fun listed => by simp [TypeForm.children, listed]]
  | tuple elements =>
      rw [TypeForm.render, TypeForm.render, map_write_congr children
        fun listed => by simp [TypeForm.children, listed]]
  | _ => simp_all [TypeForm.render, TypeForm.children]

theorem ExprForm.render_congr
    {form : ExprForm}
    (children : ∀ child ∈ form.children, write child = other child) :
    form.render write = form.render other := by
  cases form with
  | call callee args =>
      rw [ExprForm.render, ExprForm.render,
        children (.expr callee) (by simp [ExprForm.children]), map_write_congr
        children fun listed => by simp [ExprForm.children, listed]]
  | tuple elements =>
      rw [ExprForm.render, ExprForm.render, map_write_congr children
        fun listed => by simp [ExprForm.children, listed]]
  | requires parms reqs scope =>
      rw [ExprForm.render, ExprForm.render,
        @map_write_congr _ _ _ Term.decl parms _ children fun listed => by
          simp [ExprForm.children, listed],
        @map_write_congr _ _ _ Term.requirement reqs _ children fun listed => by
          simp [ExprForm.children, listed]]
  | _ => simp_all [ExprForm.render, ExprForm.children]

theorem StmtForm.render_congr
    {form : StmtForm}
    (children : ∀ child ∈ form.children, write child = other child) :
    form.render write = form.render other := by
  cases form with
  | list role stmts scope =>
      rw [StmtForm.render, StmtForm.render, map_write_congr children
        fun listed => by simp [StmtForm.children, listed]]
  | branch condition accepted rejected? =>
      rw [StmtForm.render, StmtForm.render,
        children (.expr condition) (by simp [StmtForm.children]),
        children (.stmt accepted) (by simp [StmtForm.children]),
        map_write_congr children fun listed =>
        by simp [StmtForm.children, Option.mem_toList.mp listed]]
  | _ => simp_all [StmtForm.render, StmtForm.children]

theorem DeclForm.render_congr
    {form : DeclForm}
    {name : NameId}
    (named : write (.name name) = other (.name name))
    (children : ∀ child ∈ form.children, write child = other child) :
    form.render write name = form.render other name := by
  cases form with
  | callable role params result definition =>
      rw [DeclForm.render, DeclForm.render, named,
        children (.type result) (by simp [DeclForm.children]),
        children (.definition definition) (by simp [DeclForm.children]),
        map_write_congr children fun listed =>
          by simp [DeclForm.children, listed]]
  | typeParameter index default? =>
      rw [DeclForm.render, DeclForm.render, named,
        map_write_congr children fun listed =>
          by simp [DeclForm.children, Option.mem_toList.mp listed]]
  | concept parms definition =>
      rw [DeclForm.render, DeclForm.render, named,
        children (.definition definition) (by simp [DeclForm.children]),
        map_write_congr children fun listed =>
          by simp [DeclForm.children, listed]]
  | template parms constraint? inner =>
      cases constraint? with
      | none =>
          rw [DeclForm.render, DeclForm.render,
            children (.decl inner) (by simp [DeclForm.children]),
            map_write_congr children fun listed =>
            by simp [DeclForm.children, listed]]
          rfl
      | some constraint =>
          have same := children (.expr constraint) (by simp [DeclForm.children])
          rw [DeclForm.render, DeclForm.render,
            children (.decl inner) (by simp [DeclForm.children]),
            map_write_congr children fun listed =>
            by simp [DeclForm.children, listed]]
          simp [same]
  | _ => simp_all [DeclForm.render, DeclForm.children]

theorem DefForm.render_congr
    {form : DefForm}
    (children : ∀ child ∈ form.children, write child = other child) :
    form.render write = form.render other := by
  cases form with
  | requirements reqs =>
      rw [DefForm.render, DefForm.render, map_write_congr children fun listed =>
        by simp [DefForm.children, listed]]
  | _ => simp_all [DefForm.render, DefForm.children]

theorem ReqForm.render_congr
    {form : ReqForm}
    (children : ∀ child ∈ form.children, write child = other child) :
    form.render write = form.render other := by
  cases form <;> simp_all [ReqForm.render, ReqForm.children]

end

namespace Arena

/-- The declarations that a term refers to without owning them. -/
def referred (arena : Arena) (term : Term) : List DeclId :=
  (arena.mentions term).map Prod.snd ++ (arena.template? term).toList

/--
The terms whose slots a term stores: what it owns, and the declarations it
refers to.
-/
def stored (arena : Arena) (term : Term) : List Term :=
  arena.children term ++ (arena.referred term).map Term.decl

/--
A trail leads down to a term by the places of children, the last step first.
-/
inductive Trail (arena : Arena) (root : Term) : List Nat → Term → Prop where
  | here : Trail arena root [] root
  | down {path : List Nat} {owner term : Term} {place : Nat}
      (above : Trail arena root path owner)
      (owned : (arena.children owner)[place]? = some term) :
        Trail arena root (place :: path) term

/-- Nothing below a term is as many steps down as a depth says. -/
def Shallow (arena : Arena) : Nat → Term → Prop
  | 0, _ => False
  | depth + 1, term => ∀ child ∈ arena.children term, arena.Shallow depth child

/--
Terms below a root are stored, and own their parts alone. The names that
declarations share with others are names on their own.
-/
structure Rooted (arena : Arena) (root : Term) : Prop where
  held : ∀ {term}, arena.Owns root term → arena.Holds term
  stored : ∀ {term}, arena.Owns root term → ∀ other ∈ arena.stored term,
    arena.Holds other
  plain : ∀ {owner decl}, arena.Owns root owner →
    (owner = .decl decl ∨ decl ∈ arena.referred owner) →
    (arena.name (arena.decl decl).name).form.template? = none
  top : (∀ name, root ≠ .name name) ∧ ∀ {owner}, arena.Owns root owner →
    root ∉ arena.parts owner
  nodup : ∀ {owner}, arena.Owns root owner → (arena.parts owner).Nodup
  single : ∀ {owner other part}, arena.Owns root owner → arena.Owns root other →
    part ∈ arena.parts owner → part ∈ arena.parts other → owner = other

/--
The terms below a root are a finite tree. All slots that they store are known
and hold a term. One trail leads to each term that is no name, none is longer
than the arena, and what goes down along them does not stop before their ends.
-/
structure Tree (arena : Arena) (root : Term) : Prop where
  held : ∀ {term}, arena.Owns root term → arena.Holds term ∧
    ∀ other ∈ arena.stored term,
    arena.Holds other
  valid : arena.termCount ≤ largestWord → ∀ {term}, arena.Owns root term →
    term.isValid ∧ ∀ other ∈ arena.stored term, other.isValid
  single : ∀ {term path other}, (∀ name, term ≠ .name name) →
    arena.Trail root path term →
    arena.Trail root other term → path = other
  finite : ∀ {term path}, arena.Trail root path term →
    path.length < arena.termCount
  walked : ∀ {depth}, arena.termCount < depth →
    arena.preorderWithin depth root = arena.preorder root
  listed : ∀ {term}, term ∈ arena.preorder root ↔ arena.Owns root term
  searched : ∀ {depth}, arena.termCount < depth →
    arena.firstUnparsedWithin? depth root =
      arena.firstUnparsedWithin? (arena.termCount + 1) root
  written : ∀ {depth}, arena.termCount < depth → ∀ names,
    arena.renderWithin names depth root = arena.render names root

variable {arena : Arena} {root term : Term}

/-- Whatever a trail leads to is owned. -/
private theorem Trail.owns
    {path : List Nat}
    (trail : arena.Trail root path term) :
    arena.Owns root term := by
  induction trail with
  | here => exact .self
  | down _ owned inductionHypothesis =>
      exact .child inductionHypothesis (List.mem_of_getElem? owned)

/-- A trail leads to whatever is owned. -/
theorem Owns.trail (reached : arena.Owns root term) :
    ∃ path, arena.Trail root path term := by
  induction reached with
  | self => exact ⟨[], .here⟩
  | child _ owned inductionHypothesis =>
      obtain ⟨path, above⟩ := inductionHypothesis
      obtain ⟨place, found⟩ := List.mem_iff_getElem?.mp owned
      exact ⟨place :: path, .down above found⟩

/-- What is owned by a term that reads no template is owned by none. -/
theorem children_name_eq_nil
    {name : NameId}
    (plain : (arena.name name).form.template? = none) :
    arena.children (.name name) = [] := by
  cases form : (arena.name name).form <;>
    simp_all [children, NameForm.children, NameForm.template?]

/-- What is owned is the term itself, or is owned by one of its children. -/
private theorem Owns.fromTop (reached : arena.Owns root term) :
    term = root ∨ ∃ child ∈ arena.children root, arena.Owns child term := by
  induction reached with
  | self => exact .inl rfl
  | child _ owned inductionHypothesis =>
      rcases inductionHypothesis with rfl | ⟨child, first, below⟩
      · exact .inr ⟨_, owned, .self⟩
      · exact .inr ⟨child, first, .child below owned⟩

/-- What a child owns is owned. -/
theorem Owns.under
    {child : Term}
    (reached : arena.Owns child term)
    (owned : child ∈ arena.children root) :
    arena.Owns root term := by
  induction reached with
  | self => exact .child .self owned
  | child _ further inductionHypothesis =>
      exact .child inductionHypothesis further

/-- All terms of an arena. -/
def terms (arena : Arena) : List Term :=
  (List.range arena.names.size).map (fun raw => Term.name ⟨raw⟩)
    ++ (List.range arena.types.size).map (fun raw => Term.type ⟨raw⟩)
    ++ (List.range arena.exprs.size).map (fun raw => Term.expr ⟨raw⟩)
    ++ (List.range arena.stmts.size).map (fun raw => Term.stmt ⟨raw⟩)
    ++ (List.range arena.decls.size).map (fun raw => Term.decl ⟨raw⟩)
    ++ (List.range arena.definitions.size).map
      (fun raw => Term.definition ⟨raw⟩)
    ++ (List.range arena.requirements.size).map
      (fun raw => Term.requirement ⟨raw⟩)

private theorem length_terms : arena.terms.length = arena.termCount := by
  simp [terms, termCount, Nat.add_assoc]

private theorem mem_terms (held : arena.Holds term) : term ∈ arena.terms := by
  cases term <;> rename_i id <;> obtain ⟨raw⟩ :=
    id <;> simpa [terms, Holds] using held

/-- There are no more different terms than the arena holds. -/
theorem length_le_termCount
    {terms : List Term}
    (distinct : terms.Nodup)
    (held : ∀ term ∈ terms, arena.Holds term) :
    terms.length ≤ arena.termCount :=
  @length_terms arena ▸
    (List.subperm_of_subset distinct fun _ listed =>
      mem_terms (held _ listed)).length_le

/--
A slot that holds a term is known, if the arena is no larger than slots can
tell.
-/
private theorem isValid_of_holds
    (small : arena.termCount ≤ largestWord)
    (held : arena.Holds term) :
    term.isValid = true := by
  unfold termCount at small
  cases term <;> simp only [Holds] at held <;>
    simp only [Term.isValid, Slot.isValid, bne_iff_ne, ne_eq] <;> omega

namespace Rooted

variable (rooted : arena.Rooted root)

include rooted

/--
What has an owner and owns something, or is no name, is a part of its owner.
-/
private theorem part
    {owner : Term}
    (reached : arena.Owns root owner)
    (owned : term ∈ arena.children owner)
    (solid : ∀ name, term = .name name → arena.children term ≠ []) :
    term ∈ arena.parts owner := by
  rcases mem_children_iff.mp owned with part | ⟨decl, rfl, rfl⟩
  · exact part
  · exact absurd (children_name_eq_nil (rooted.plain reached (.inl rfl)))
      (solid _ rfl)

/--
A part has one place among the children of its owner. The name in front of the
parts has nothing below it.
-/
private theorem place_unique
    {owner : Term}
    {place other : Nat}
    (reached : arena.Owns root owner)
    (solid : ∀ name, term = .name name → arena.children term ≠ [])
    (first : (arena.children owner)[place]? = some term)
    (second : (arena.children owner)[other]? = some term) :
    place = other := by
  have distinct := rooted.nodup reached
  have among {parts : List Term} (distinct : parts.Nodup) {place other : Nat}
      (first : parts[place]? = some term) (second : parts[other]? = some term) :
        place = other :=
    (List.getElem?_inj (List.getElem?_eq_some_iff.mp first).1 distinct).mp
      (first.trans second.symm)
  cases owner with
  | decl decl =>
      have behind {place : Nat} (found : (arena.children (.decl decl))[place]? =
          some term) :
          ∃ later, place = later + 1 ∧ (arena.decl decl).form.children[later]? =
            some term := by
        cases place with
        | zero =>
            have same : Term.name (arena.decl decl).name = term := by
              simpa [children] using found
            exact absurd
              (same ▸ children_name_eq_nil (rooted.plain reached (.inl rfl)))
              (solid _ same.symm)
        | succ later => exact ⟨later, rfl, by simpa [children] using found⟩
      obtain ⟨earlier, rfl, first⟩ := behind first
      obtain ⟨later, rfl, second⟩ := behind second
      exact congrArg Nat.succ (among distinct first second)
  | _ => exact among distinct first second

/-- One trail leads to a term that is no name, or is one and owns something. -/
theorem trail_unique
    {path other : List Nat}
    (solid : ∀ name, term = .name name → arena.children term ≠ [])
    (first : arena.Trail root path term)
    (second : arena.Trail root other term) :
    path = other := by
  induction first generalizing other with
  | here =>
      cases second with
      | here => rfl
      | down above owned =>
          exact absurd (rooted.part above.owns (List.mem_of_getElem? owned)
            solid)
            (rooted.top.2 above.owns)
  | @down path owner term place above owned inductionHypothesis =>
      cases second with
      | here =>
          exact absurd (rooted.part above.owns (List.mem_of_getElem? owned)
            solid)
            (rooted.top.2 above.owns)
      | @down path' owner' _ place' above' owned' =>
          obtain rfl := rooted.single above.owns above'.owns
            (rooted.part above.owns (List.mem_of_getElem? owned) solid)
            (rooted.part above'.owns (List.mem_of_getElem? owned') solid)
          have owns : arena.children owner ≠ [] :=
            List.ne_nil_of_mem (List.mem_of_getElem? owned)
          rw [rooted.place_unique above.owns solid owned owned',
            inductionHypothesis (fun _ _ => owns) above']

/--
The terms along a trail are all different. A trail to a term met before would be
shorter than the one that goes on.
-/
private theorem visited
    {path : List Nat}
    (trail : arena.Trail root path term) :
    ∃ visited : List Term, visited.length = path.length + 1 ∧ visited.Nodup ∧
      ∀ other ∈ visited, arena.Holds other ∧
        (other = term ∨ arena.children other ≠ []) ∧
        ∃ shorter, arena.Trail root shorter other ∧
          shorter.length ≤ path.length := by
  induction trail with
  | here =>
      refine ⟨[root], rfl, List.nodup_singleton _,
        List.forall_mem_singleton.mpr ?_⟩
      exact ⟨rooted.held .self, .inl rfl, [], .here, Nat.le_refl _⟩
  | @down path owner term place above owned inductionHypothesis =>
      obtain ⟨visited, length, distinct, each⟩ := inductionHypothesis
      have nonempty : arena.children owner ≠ [] :=
        List.ne_nil_of_mem (List.mem_of_getElem? owned)
      have trail := above.down owned
      have inside {other : Term} (listed : other ∈ visited) :
          arena.children other ≠ [] :=
        (each other listed).2.1.elim (fun same => same ▸ nonempty) id
      have new : term ∉ visited := by
        intro listed
        obtain ⟨-, -, shorter, before, short⟩ := each term listed
        have same := rooted.trail_unique (fun _ _ => inside listed) before trail
        rw [same, List.length_cons] at short
        omega
      refine ⟨term :: visited, by simp [length],
        List.nodup_cons.mpr ⟨new, distinct⟩, ?_⟩
      intro other listed
      rcases List.mem_cons.mp listed with rfl | earlier
      · exact ⟨rooted.held trail.owns, .inl rfl, _, trail, Nat.le_refl _⟩
      · obtain ⟨held, -, shorter, before, short⟩ := each other earlier
        exact ⟨held, .inr (inside earlier), shorter, before,
          Nat.le_succ_of_le short⟩

/-- No trail is longer than the arena. -/
private theorem length_lt
    {path : List Nat}
    (trail : arena.Trail root path term) :
    path.length < arena.termCount := by
  obtain ⟨visited, length, distinct, each⟩ := rooted.visited trail
  have bounded :=
    length_le_termCount distinct fun other listed => (each other listed).1
  omega

/-- The farther a trail has come, the less is below its end. -/
theorem shallow
    {path : List Nat}
    (trail : arena.Trail root path term) :
    arena.Shallow (arena.termCount - path.length) term := by
  generalize left : arena.termCount - path.length = depth
  induction depth generalizing path term with
  | zero =>
      have bounded := rooted.length_lt trail
      omega
  | succ depth inductionHypothesis =>
      intro child owned
      obtain ⟨place, found⟩ := List.mem_iff_getElem?.mp owned
      exact inductionHypothesis (trail.down found) (by simp; omega)

end Rooted

/-- A name that applies nothing is written in one step. -/
private theorem renderWithin_name
    {name : NameId}
    {depth more : Nat}
    (names : Names)
    (plain : (arena.name name).form.template? = none)
    (enough : depth < more) :
    arena.renderWithin names more (.name name) =
      arena.renderWithin names (depth + 1) (.name name) := by
  obtain ⟨more, rfl⟩ :=
    Nat.exists_eq_add_of_le' (Nat.lt_of_lt_of_le (Nat.succ_pos _) enough)
  refine NameForm.render_congr (fun child owned => ?_) fun template applied =>
    ?_
  · have owned : child ∈ arena.children (.name name) := owned
    rw [children_name_eq_nil plain] at owned
    cases owned
  · rw [plain] at applied
    cases applied

/-- A search that does the same on each element finds the same. -/
theorem findSome?_congr
    {search other : Term → Option Term}
    {terms : List Term}
    (same : ∀ term ∈ terms, search term = other term) :
    terms.findSome? search = terms.findSome? other := by
  induction terms with
  | nil => rfl
  | cons term terms inductionHypothesis =>
      rw [List.findSome?_cons, List.findSome?_cons,
        same term (List.mem_cons_self ..), inductionHypothesis
        fun later listed => same later (List.mem_cons_of_mem _ listed)]

namespace Shallow

variable {depth more : Nat}

theorem mono (shallow : arena.Shallow depth term) (enough : depth ≤ more) :
    arena.Shallow more term := by
  induction depth generalizing more term with
  | zero => exact shallow.elim
  | succ depth inductionHypothesis =>
      obtain ⟨more, rfl⟩ :=
        Nat.exists_eq_add_of_le' (Nat.lt_of_lt_of_le (Nat.succ_pos _) enough)
      exact fun child owned =>
        inductionHypothesis (shallow child owned)
          (Nat.le_of_succ_le_succ enough)

theorem preorderWithin_eq
    (shallow : arena.Shallow depth term)
    (enough : depth ≤ more) :
    arena.preorderWithin more term = arena.preorderWithin depth term := by
  induction depth generalizing more term with
  | zero => exact shallow.elim
  | succ depth inductionHypothesis =>
      obtain ⟨more, rfl⟩ :=
        Nat.exists_eq_add_of_le' (Nat.lt_of_lt_of_le (Nat.succ_pos _) enough)
      rw [preorderWithin, preorderWithin, List.flatMap_congr fun child owned =>
        inductionHypothesis (shallow child owned)
          (Nat.le_of_succ_le_succ enough)]

/-- Going down comes to an end. -/
theorem ends (shallow : arena.Shallow depth term) :
    Acc (fun child owner => child ∈ arena.children owner) term := by
  induction depth generalizing term with
  | zero => exact shallow.elim
  | succ depth inductionHypothesis =>
      exact ⟨_, fun child owned => inductionHypothesis (shallow child owned)⟩

/-- Whatever is owned is listed. -/
theorem mem_preorderWithin
    {found : Term}
    (shallow : arena.Shallow depth term)
    (reached : arena.Owns term found) :
    found ∈ arena.preorderWithin depth term := by
  induction depth generalizing term with
  | zero => exact shallow.elim
  | succ depth inductionHypothesis =>
      rcases reached.fromTop with rfl | ⟨child, owned, below⟩
      · exact List.mem_cons_self ..
      · exact List.mem_cons_of_mem _ (List.mem_flatMap.mpr
          ⟨child, owned, inductionHypothesis (shallow child owned) below⟩)

private theorem firstUnparsedWithin?_eq
    (shallow : arena.Shallow depth term)
    (enough : depth ≤ more) :
    arena.firstUnparsedWithin? more term =
      arena.firstUnparsedWithin? depth term := by
  induction depth generalizing more term with
  | zero => exact shallow.elim
  | succ depth inductionHypothesis =>
      obtain ⟨more, rfl⟩ :=
        Nat.exists_eq_add_of_le' (Nat.lt_of_lt_of_le (Nat.succ_pos _) enough)
      rw [firstUnparsedWithin?, firstUnparsedWithin?,
          findSome?_congr fun child owned =>
        inductionHypothesis (shallow child owned)
          (Nat.le_of_succ_le_succ enough)]

/--
A written name may go one step further down, to the name of the template that it
applies.
-/
private theorem renderWithin_eq
    (names : Names)
    (shallow : arena.Shallow depth term)
    (plain : ∀ {owner decl}, arena.Owns term owner →
      decl ∈ arena.referred owner →
      (arena.name (arena.decl decl).name).form.template? = none)
    (enough : depth < more) :
    arena.renderWithin names more term =
      arena.renderWithin names (depth + 1) term := by
  induction depth generalizing more term with
  | zero => exact shallow.elim
  | succ depth inductionHypothesis =>
      obtain ⟨more, rfl⟩ :=
        Nat.exists_eq_add_of_le' (Nat.lt_of_lt_of_le (Nat.succ_pos _) enough)
      have below {child : Term} (owned : child ∈ arena.children term) :
          arena.renderWithin names more child =
            arena.renderWithin names (depth + 1) child :=
        inductionHypothesis (shallow child owned)
          (fun reached => plain (reached.under owned))
            (Nat.lt_of_succ_lt_succ enough)
      cases term with
      | name id =>
          refine NameForm.render_congr (fun child => below)
            fun template applied => ?_
          have listed : template ∈ arena.referred (.name id) := by
            simp [referred, Arena.template?, applied]
          exact renderWithin_name names (plain .self listed)
            (Nat.lt_of_succ_lt_succ enough)
      | type id => exact TypeForm.render_congr fun child => below
      | expr id => exact ExprForm.render_congr fun child => below
      | stmt id => exact StmtForm.render_congr fun child => below
      | decl id =>
          exact DeclForm.render_congr
              (below (List.mem_cons_self ..)) fun child owned =>
            below (List.mem_cons_of_mem _ owned)
      | definition id => exact DefForm.render_congr fun child => below
      | requirement id => exact ReqForm.render_congr fun child => below

end Shallow

/-- The terms below a root whose terms own their parts alone are a tree. -/
theorem Rooted.tree (rooted : arena.Rooted root) : arena.Tree root := by
  have shallow : arena.Shallow arena.termCount root := rooted.shallow .here
  have further {depth : Nat} (enough : arena.termCount < depth) :
      arena.termCount ≤ depth := Nat.le_of_lt enough
  have walked {depth : Nat} (enough : arena.termCount < depth) :
      arena.preorderWithin depth root = arena.preorder root := by
    rw [preorder_eq, shallow.preorderWithin_eq (further enough),
      shallow.preorderWithin_eq (Nat.le_succ _)]
  exact
    { held := fun reached => ⟨rooted.held reached, rooted.stored reached⟩
      valid :=
        fun small _ reached => ⟨isValid_of_holds small (rooted.held reached),
        fun other listed =>
          isValid_of_holds small (rooted.stored reached other listed)⟩
      single := fun other => rooted.trail_unique fun name same =>
        absurd same (other name)
      finite := rooted.length_lt
      walked := walked
      listed := ⟨owns_of_mem_preorder, fun reached => by
        rw [← walked (Nat.lt_succ_self _),
          shallow.preorderWithin_eq (Nat.le_succ _)]
        exact shallow.mem_preorderWithin reached⟩
      searched := fun enough => by
        rw [shallow.firstUnparsedWithin?_eq (further enough),
          shallow.firstUnparsedWithin?_eq (Nat.le_succ _)]
      written := fun enough names => shallow.renderWithin_eq names
        (fun reached listed => rooted.plain reached (.inr listed)) enough }

end Arena

end Tern
