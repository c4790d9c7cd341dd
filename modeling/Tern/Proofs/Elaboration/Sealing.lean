import Tern.Proofs.Elaboration.Advancing
import Tern.Proofs.Term.Lists
import Tern.Proofs.Term.Searching

namespace Tern

/-!
# Requires-expressions within a complete declaration

No statement lists the parameters of requires-expressions, so they are let reach
the last phase behind the definition that they are within. What comes into a
declaration later is a template around a function, or a type parameter, and
brings no requires-expression with it. So in the end these parameters are
finished, all of them.
-/

namespace Arena

/--
On the way to an arena a declaration was complete, and the parameters of the
requires-expressions within it then are finished in the end.
-/
def Sealed
    (final : Arena)
    (input : ElabInput)
    (origin : Arena)
    (decl : DeclId) : Prop :=
  ∃ middle : Arena, Arena.Toward input origin middle final ∧
    middle.Complete (.decl decl) ∧
    ∀ param ∈ middle.ownedRequiresParams (.decl decl),
      (final.decl param).phase = .definitionElaborated

/-- There is no parameter of a requires-expression within a term. -/
private def NoRequires (arena : Arena) (term : Term) : Prop :=
  arena.Throughout (arena.requiresParams · = []) term

/-- A name that belongs to a declaration owns nothing. -/
private theorem plain_of_key?
    {arena : Arena}
    {name : NameId}
    {key : Key}
    (keyed : (arena.name name).form.key? = some key) :
    arena.NoRequires (.name name) := by
  refine .intro rfl fun child owned => ?_
  rw [children] at owned
  cases form : (arena.name name).form <;>
    simp_all [NameForm.key?, NameForm.children]

end Arena

namespace Worksite

variable {site : Worksite} (sound : site.Sound)

include sound

/-- A whole type parameter without a default is plain. -/
private theorem Sound.plain_typeParam
    {parm : DeclId}
    {index : Nat}
    (whole : site.Whole (.decl parm))
    (form : (site.arena.decl parm).form = .typeParameter index none) :
    site.arena.NoRequires (.decl parm) := by
  obtain ⟨key, keyed⟩ := sound.keyed_of_whole whole
  refine .intro rfl fun child owned => ?_
  rw [Arena.children, form] at owned
  obtain rfl := List.mem_singleton.mp owned
  exact Arena.plain_of_key? keyed.key

/-- The name in a type that a declaration is referred to by is plain. -/
private theorem Sound.plain_declared
    {type : TypeId}
    {parm : DeclId}
    (whole : site.Whole (.type type))
    (form : (site.arena.type type).form =
      .declared parm (site.arena.decl parm).name) :
    site.arena.NoRequires (.name (site.arena.decl parm).name) := by
  obtain ⟨key, -, keyed⟩ := (sound.fit _ whole.1).mentions
    ((site.arena.decl parm).name, parm)
    (by simp [Arena.mentions, form, TypeForm.mentions])
  exact Arena.plain_of_key? keyed.key

section

variable {input : ElabInput} {origin older : Arena} {owner child : Term}
  (framed : Arena.Framed input origin older site.arena)

include framed

/--
What a parsed term owns it owned before, or that is plain, or a template around
what it owned before.
-/
private theorem Sound.child_before
    (present : older.Present owner)
    (whole : site.Whole owner)
    (owned : child ∈ site.arena.children owner) :
    child ∈ older.children owner ∨ site.arena.NoRequires child ∨
      ∃ inner wrapper, child = .decl wrapper ∧
        Arena.Wraps origin site.arena inner wrapper ∧
        .decl inner ∈ older.children owner := by
  obtain ⟨held, parsed⟩ := present
  have same (kept : site.arena.children owner = older.children owner) :
      child ∈ older.children owner := kept ▸ owned
  cases owner with
  | name name =>
      exact .inl (same (by
        rw [Arena.children, Arena.children, framed.name held]))
  | definition definition =>
      exact .inl (same (by
        rw [Arena.children, Arena.children, framed.definition held]))
  | requirement requirement =>
      exact .inl (same (by
        rw [Arena.children, Arena.children, framed.requirement held]))
  | expr expr =>
      cases framed.expr held with
      | same kept =>
          exact .inl (same (by rw [Arena.children, Arena.children, kept]))
      | parsed captured _ =>
          rw [Arena.isUnparsed, captured] at parsed
          cases parsed
  | type type =>
      cases framed.type held with
      | same kept =>
          exact .inl (same (by rw [Arena.children, Arena.children, kept]))
      | parsed captured _ =>
          rw [Arena.isUnparsed, captured] at parsed
          cases parsed
      | minted _ _ now _ named _ =>
          have form := congrArg Node.form now
          rw [← named.1] at form
          rw [Arena.children, form] at owned
          obtain rfl := List.mem_singleton.mp owned
          exact .inr (.inl (sound.plain_declared whole form))
  | stmt stmt =>
      cases framed.stmt held with
      | same kept =>
          exact .inl (same (by rw [Arena.children, Arena.children, kept]))
      | parsed _ captured _ =>
          rw [Arena.isUnparsed, captured] at parsed
          cases parsed
      | @wrapped inner wrapper _ _ _ _ form _ now wraps =>
          rw [Arena.children, now] at owned
          obtain rfl := List.mem_singleton.mp owned
          refine .inr (.inr ⟨inner, wrapper, rfl, wraps, ?_⟩)
          simp [Arena.children, form, StmtForm.children]
  | decl decl =>
      have wholeChild := sound.whole_child whole owned
      have kept := framed.decl held
      rcases kept.form with unchanged |
          ⟨parms, constraint?, inner, more, was, now, minted⟩
      · exact .inl (same (by
          rw [Arena.children, Arena.children, kept.name, unchanged]))
      · have split : child ∈ older.children (.decl decl) ∨
            ∃ parm ∈ more, child = .decl parm := by
          rw [Arena.children, kept.name, now] at owned
          rw [Arena.children, was]
          simp only [DeclForm.children, List.map_append, List.mem_cons,
            List.mem_append, List.mem_map] at owned ⊢
          grind
        rcases split with old | ⟨parm, listed, rfl⟩
        · exact .inl old
        · obtain ⟨index, typed⟩ := (minted parm listed).form
          exact .inr (.inl (sound.plain_typeParam wholeChild typed))

/-- A new template owns what it is around, its name, and what is plain. -/
private theorem Sound.child_of_wraps
    {inner wrapper : DeclId}
    (held : older.Holds (.decl inner))
    (wraps : Arena.Wraps origin site.arena inner wrapper)
    (whole : site.Whole (.decl wrapper))
    (owned : child ∈ site.arena.children (.decl wrapper)) :
    child = .decl inner ∨ child ∈ older.children (.decl inner) ∨
      site.arena.NoRequires child := by
  have wholeChild := sound.whole_child whole owned
  obtain ⟨parms, form, minted⟩ := wraps.form
  have split : child = .decl inner ∨ child ∈ older.children (.decl inner) ∨
      ∃ parm ∈ parms, child = .decl parm := by
    rw [Arena.children, form, wraps.name, (framed.decl held).name] at owned
    simp only [DeclForm.children, Option.toList_none, List.map_nil,
      List.mem_cons, List.mem_append, List.mem_map] at owned
    rw [Arena.children]
    grind
  rcases split with within | old | ⟨parm, listed, rfl⟩
  · exact .inl within
  · exact .inr (.inl old)
  · obtain ⟨index, typed⟩ := (minted parm listed).form
    exact .inr (.inr (sound.plain_typeParam wholeChild typed))

/--
What a declaration owns that was complete before it owned then, or that is
plain, or a template around something that it owned then.
-/
private theorem Sound.owned_before
    {root : Term}
    (complete : older.Complete root)
    (whole : site.Whole root)
    (reached : site.arena.Owns root child) :
    older.Owns root child ∨ site.arena.NoRequires child ∨
      ∃ inner wrapper, child = .decl wrapper ∧
        Arena.Wraps origin site.arena inner wrapper ∧
        older.Owns root (.decl inner) := by
  induction reached with
  | self => exact .inl .self
  | child above owned inductionHypothesis =>
      have wholeOwner := sound.whole_of_owns whole above
      rcases inductionHypothesis with before | plain |
          ⟨inner, wrapper, rfl, wraps, before⟩
      · rcases sound.child_before framed (complete _ before) wholeOwner owned
          with old | plain | ⟨inner, wrapper, same, wraps, old⟩
        · exact .inl (.child before old)
        · exact .inr (.inl plain)
        · exact .inr (.inr ⟨inner, wrapper, same, wraps, .child before old⟩)
      · exact .inr (.inl (plain.child owned))
      · rcases sound.child_of_wraps framed (complete _ before).1 wraps
          wholeOwner owned with rfl | old | plain
        · exact .inl before
        · exact .inl (.child before old)
        · exact .inr (.inl plain)

end

end Worksite

namespace Arena

variable {input : ElabInput} {origin older newer : Arena}

/-- What a term owned it still owns, but for a template in between. -/
private theorem Framed.child_kept
    {term child : Term}
    (framed : Arena.Framed input origin older newer)
    (present : older.Present term)
    (owned : child ∈ older.children term) :
    child ∈ newer.children term ∨
      ∃ middle ∈ newer.children term, child ∈ newer.children middle := by
  obtain ⟨held, parsed⟩ := present
  have same (kept : newer.children term = older.children term) :
      child ∈ newer.children term := kept ▸ owned
  cases term with
  | name name =>
      exact .inl (same (by rw [children, children, framed.name held]))
  | definition definition =>
      exact .inl (same (by rw [children, children, framed.definition held]))
  | requirement requirement =>
      exact .inl (same (by rw [children, children, framed.requirement held]))
  | expr expr =>
      cases framed.expr held with
      | same kept => exact .inl (same (by rw [children, children, kept]))
      | parsed captured _ =>
          rw [isUnparsed, captured] at parsed
          cases parsed
  | type type =>
      cases framed.type held with
      | same kept => exact .inl (same (by rw [children, children, kept]))
      | parsed captured _ =>
          rw [isUnparsed, captured] at parsed
          cases parsed
      | minted before inferred _ _ _ _ =>
          rcases before with rfl | ⟨_, captured, _⟩
          · rw [children, inferred] at owned
            cases owned
          · rw [isUnparsed, captured] at parsed
            cases parsed
  | stmt stmt =>
      cases framed.stmt held with
      | same kept => exact .inl (same (by rw [children, children, kept]))
      | parsed _ captured _ =>
          rw [isUnparsed, captured] at parsed
          cases parsed
      | @wrapped inner wrapper _ _ _ _ form _ now wraps =>
          obtain ⟨parms, around, -⟩ := wraps.form
          rw [children, form] at owned
          obtain rfl := List.mem_singleton.mp owned
          refine .inr ⟨.decl wrapper, ?_, ?_⟩
          · simp [children, now, StmtForm.children]
          · simp [children, around, DeclForm.children]
  | decl decl =>
      have kept := framed.decl held
      rcases kept.form with unchanged |
          ⟨parms, constraint?, inner, more, was, now, -⟩
      · exact .inl (same (by rw [children, children, kept.name, unchanged]))
      · rw [children, was] at owned
        rw [children, kept.name, now]
        simp only [DeclForm.children, List.map_append, List.mem_cons,
          List.mem_append] at owned ⊢
        grind

/-- What is complete was no deeper before. -/
private theorem Framed.shallow_before
    {depth : Nat}
    {term : Term}
    (framed : Arena.Framed input origin older newer)
    (complete : older.Complete term)
    (shallow : newer.Shallow depth term) :
    older.Shallow depth term := by
  induction depth generalizing term with
  | zero => exact shallow.elim
  | succ depth inductionHypothesis =>
      intro child owned
      refine inductionHypothesis (complete.child owned) ?_
      rcases framed.child_kept complete.here owned with kept |
          ⟨middle, kept, below⟩
      · exact shallow child kept
      · cases depth with
        | zero => exact (shallow middle kept).elim
        | succ depth =>
            exact (shallow middle kept child below).mono (Nat.le_succ depth)

end Arena

/--
In the end all parameters of requires-expressions within a sealed declaration
are finished.
-/
theorem Worksite.Sound.finished_requiresParams
    {input : ElabInput}
    {origin : Arena}
    {site : Worksite}
    {decl : DeclId}
    (sound : site.Sound)
    (whole : site.Whole (.decl decl))
    (bounded : site.arena.Bounded (.decl decl))
    (seals : site.arena.Sealed input origin decl)
    {param : DeclId}
    (listed : param ∈ site.arena.ownedRequiresParams (.decl decl)) :
    (site.arena.decl param).phase = .definitionElaborated := by
  obtain ⟨middle, toward, complete, finished⟩ := seals
  obtain ⟨owner, walked, inside⟩ := List.mem_flatMap.mp listed
  have shallow := toward.framed.shallow_before complete bounded
  have finite : middle.Finite (.decl decl) :=
    ⟨shallow.ends, complete.weaken fun _ => And.left⟩
  refine finished param (List.mem_flatMap.mpr ⟨owner, ?_, ?_⟩)
  all_goals
    rcases sound.owned_before toward.framed complete whole
      (Arena.owns_of_mem_preorder walked) with before | plain |
        ⟨_, _, rfl, -, -⟩
  · rw [Arena.preorder_eq]
    exact finite.shallow.mem_preorderWithin before
  · exact absurd inside (by simp [plain.here])
  · cases inside
  · cases owner with
    | expr expr =>
        obtain ⟨held, present⟩ := complete _ before
        cases toward.framed.expr held with
        | same kept => rwa [Arena.requiresParams, ← kept]
        | parsed captured _ =>
            rw [Arena.isUnparsed, captured] at present
            cases present
    | _ => cases inside
  · exact absurd inside (by simp [plain.here])
  · cases inside

/-- A declaration that is sealed stays so. -/
theorem Arena.Sealed.onward
    {input : ElabInput}
    {origin older newer : Arena}
    {decl : DeclId}
    (seals : older.Sealed input origin decl)
    (toward : Arena.Toward input origin older newer) :
    newer.Sealed input origin decl := by
  obtain ⟨middle, before, complete, finished⟩ := seals
  exact ⟨middle, before.trans toward, complete, fun param listed =>
    toward.framed.phase_finished (finished param listed)⟩

/-- Declarations that are let reach the last phase are finished. -/
private theorem Elab.raiseAll_finished
    {input : ElabInput}
    {state after : ElabState}
    {decls : List DeclId}
    (held : ∀ decl ∈ decls, state.arena.Holds (.decl decl))
    (run : raiseAll decls .definitionElaborated input state = .done () after) :
    ∀ decl ∈ decls, (after.arena.decl decl).phase = .definitionElaborated := by
  induction decls generalizing state with
  | nil => exact List.forall_mem_nil _
  | cons decl decls inductionHypothesis =>
      obtain ⟨here, others⟩ := List.forall_mem_cons.mp held
      obtain ⟨_, middle, raised, run⟩ := Action.done_of_bind run
      have now : (middle.arena.decl decl).phase = .definitionElaborated := by
        cases raised
        show ((state.arena.updateDecl decl _).decl decl).phase = _
        rw [Arena.decl_updateDecl here]
        exact Phase.latest_finished _
      have heldNow : ∀ decl ∈ decls, middle.arena.Holds (.decl decl) := by
        cases raised
        exact fun other listed =>
          (Arena.progress_raise decl _).holds (others other listed)
      obtain ⟨_, rfl, rephased, -⟩ := raiseAll_done run
      exact List.forall_mem_cons.mpr
        ⟨Phase.eq_of_finished now (rephased.rank decl),
          inductionHypothesis heldNow run⟩

namespace ElabState

variable {input : ElabInput} {origin : Arena} {state after : ElabState}
  {site : Worksite} {depth : Nat}

/-- What a typed statement holds is sealed as it is defined. -/
private theorem At.seals
    {stmt : StmtId}
    {scope : ScopeId}
    (start : state.At origin site)
    (whole : site.Whole (.stmt stmt))
    (typed : site.arena.Typed stmt)
    (enters : site.arena.Enters (depth + 1) stmt)
    (run : Elab.defineStatement (Elab.nested depth) scope stmt input state =
      .done () after) :
    ∃ later, ElabState.Goes input origin state after site later ∧
      ∀ decl, (site.arena.stmt stmt).form = .declaration decl →
        after.arena.Sealed input origin decl := by
  obtain ⟨bound, ready, room, more⟩ := enters
  obtain ⟨decl?, _, read, run⟩ := Action.done_of_bind run
  have known : Elab.declarationOf? stmt input state = _ :=
    Elab.declarationOf?_run stmt input state
  rw [start.shows.arena] at known
  cases known.symm.trans read
  cases form : (site.arena.stmt stmt).form with
  | declaration decl =>
      rw [form] at run
      obtain ⟨inner, within, inside⟩ := ready.declared form
      have wholeDecl : site.Whole (.decl decl) :=
        start.since.sound.whole_of_stmt whole form
          (by simp [StmtForm.children])
      have fits : site.arena.Fits depth (.definition decl) :=
        ⟨inner, by omega, inside, typed.elaborated decl form⟩
      obtain ⟨_, middle, first, raising⟩ := Action.done_of_bind run
      obtain ⟨between, goes, -, complete⟩ :=
        (Works.nested (.definition decl) wholeDecl).goes
          (Performs.nested input depth fits fun _ => id) start first
      have readyNow := goes.later.ready inside
      obtain ⟨later, goesOn, -⟩ :=
        (Works.raiseRequiresParams _ (goes.onward.keeps.whole wholeDecl)).goes
          (Completes.raiseRequiresParams _ readyNow) goes.behind raising
      refine ⟨later, goes.trans goesOn, ?_⟩
      rintro _ ⟨⟩
      rw [← goes.behind.shows.arena] at complete readyNow
      exact ⟨middle.arena, goesOn.toward,
        complete _ (List.mem_singleton_self _),
        Elab.raiseAll_finished (fun param listed =>
          (readyNow.parsed_ownedRequiresParams listed).here.1.1) raising⟩
  | _ =>
      rw [form] at run
      have fits : site.arena.Fits depth (.statement stmt scope) :=
        ⟨bound, by have := more (by rw [form]; rfl); omega, ready⟩
      obtain ⟨later, goes, -⟩ :=
        (Works.nested (.statement stmt scope) whole).goes
          (Performs.nested input depth fits fun _ => id) start run
      exact ⟨later, goes, fun _ same => by cases same⟩

/-- What typed statements hold is sealed as they are defined in turn. -/
theorem At.sealsAll
    {stmts : List StmtId}
    {scope : ScopeId}
    (start : state.At origin site)
    (whole : ∀ stmt ∈ stmts, site.Whole (.stmt stmt))
    (typed : ∀ stmt ∈ stmts, site.arena.Typed stmt)
    (enters : ∀ stmt ∈ stmts, site.arena.Enters (depth + 1) stmt)
    (run : stmts.forM (Elab.defineStatement (Elab.nested depth) scope) input
      state = .done () after) :
    ∃ later, ElabState.Goes input origin state after site later ∧
      ∀ stmt ∈ stmts, ∀ decl,
        (site.arena.stmt stmt).form = .declaration decl →
          after.arena.Sealed input origin decl := by
  induction stmts generalizing state site with
  | nil =>
      cases run
      exact ⟨site, .refl start, List.forall_mem_nil _⟩
  | cons stmt stmts inductionHypothesis =>
      rw [List.forall_mem_cons] at whole typed enters
      obtain ⟨_, middle, first, others⟩ := Action.done_of_bind run
      obtain ⟨between, goes, here⟩ :=
        start.seals whole.1 typed.1 enters.1 first
      obtain ⟨later, goesOn, rest⟩ := inductionHypothesis goes.behind
        (fun other listed => goes.onward.keeps.whole (whole.2 other listed))
        (fun other listed => goes.later.typed (typed.2 other listed)
          (typed.2 other listed))
        (fun other listed => goes.later.enters (enters.2 other listed)) others
      refine ⟨later, goes.trans goesOn, List.forall_mem_cons.mpr
        ⟨fun decl form => (here decl form).onward goesOn.toward,
          fun other listed decl form => rest other listed decl ?_⟩⟩
      rw [goes.later.stmts (typed.2 other listed) (typed.2 other listed).held]
      exact form

end ElabState

end Tern
