import Tern.Proofs.Building.Rework
import Tern.Proofs.Building.Trees

namespace Tern

/-!
# Type parameters and templates that elaboration adds

A type to be inferred is minted: a type parameter with a placeholder for a name
is bound in a scope, and the type declares it. The parameters minted for a
function go to a template that is put around it. Both are done in several steps
each, and each of them keeps a worksite sound.
-/

namespace Arena

variable {arena : Arena} {stmt : StmtId} (held : arena.Holds (.stmt stmt))

include held

/-- A statement that is given another form keeps its span. -/
theorem node_setStmtForm (form : StmtForm) :
    (arena.setStmtForm stmt form).stmt stmt =
      { arena.stmt stmt with form := form } := by
  have inBounds : stmt.raw < arena.stmts.size := held
  simp [setStmtForm, Arena.stmt, Array.getD_eq_getD_getElem?, inBounds]

/-- Of two forms that a statement is given, the later one stays. -/
private theorem setStmtForm_setStmtForm (first second : StmtForm) :
    (arena.setStmtForm stmt first).setStmtForm stmt second =
      arena.setStmtForm stmt second := by
  have inBounds : stmt.raw < arena.stmts.size := held
  simp [setStmtForm, Arena.stmt, Array.getD_eq_getD_getElem?, inBounds]

end Arena

namespace Scopes

variable {scopes changed : Scopes} {scope : ScopeId} {key : Key}
  {decl next : DeclId}

/--
A declaration that another one takes the place of was a member of its set.
-/
theorem of_replaceMember?
    (done : scopes.replaceMember? scope key decl next = some changed) :
    ∃ set position, scopes.table.findLocal? scope key = some set ∧
      set.idxOf? decl = some position ∧
      changed.table = scopes.table.put scope key (set.set position next) ∧
        changed.saved = scopes.saved ∧ changed.current = scopes.current := by
  unfold replaceMember? at done
  split at done
  next => cases done
  next set found =>
    split at done
    next => cases done
    next position listed =>
      cases done
      exact ⟨set, position, found, listed, by simp, by simp, by simp⟩

/-- A declaration that is removed was a member of its set. -/
theorem of_removeMember?
    (done : scopes.removeMember? scope key decl = some changed) :
    ∃ set position, scopes.table.findLocal? scope key = some set ∧
      set.idxOf? decl = some position ∧
      changed.table = scopes.table.put scope key (set.eraseIdx position) ∧
        changed.saved = scopes.saved ∧ changed.current = scopes.current := by
  unfold removeMember? at done
  split at done
  next => cases done
  next set found =>
    split at done
    next => cases done
    next position listed =>
      cases done
      exact ⟨set, position, found, listed, by simp, by simp, by simp⟩

end Scopes

namespace Worksite

variable {arena : Arena} {table : ScopeTable} {saved : List (DeclId × ScopeId)}
  {rest : Stock}
  {scope : ScopeId}

section

variable {scopes : Scopes} {decl : DeclId} {key : Key} {place : Nat}
  (wellFormed : scopes.WellFormed)
  (sound : Sound
    { arena := arena, table := scopes.table, saved := scopes.saved
      stock := .fresh decl scope key place ::ₘ rest })

include wellFormed sound

/-- A declaration that is not bound is bound in its scope. -/
private theorem Sound.declare :
    let after := (scopes.declare scope key decl).2
    after.current = scopes.current ∧ after.WellFormed ∧ ∃ more : Stock,
      let later : Worksite :=
        { arena := arena, table := after.table, saved := after.saved,
          stock := more + rest }
      Keeps
          { arena := arena, table := scopes.table, saved := scopes.saved
            stock := .fresh decl scope key place ::ₘ rest } later ∧
        later.Sound := by
  intro after
  obtain ⟨keyed, inside⟩ :=
    sound.backed (.fresh decl scope key place) (Multiset.mem_cons_self ..)
  have room : scope.raw < scopes.table.size :=
    (sound.fit _ keyed.held).scope scope (by simp [Arena.scope?, inside])
  obtain ⟨keepsRight, right⟩ :=
    @Sound.note _ sound (.binder scope 0) rfl room rfl
  rw [Multiset.cons_swap] at keepsRight right
  obtain ⟨keeps, bound⟩ := right.bind
  have table : after.table = scopes.table.put scope key
      ((scopes.table.findLocal? scope key).getD [] ++ [decl]) := by
    simp [after, Scopes.declare, Scopes.findLocal?]
  have saved : after.saved = scopes.saved := by simp [after, Scopes.declare]
  refine ⟨by simp [after, Scopes.declare], wellFormed.declare _ _ _,
    .binder scope (place + 1) ::ₘ {.bound decl scope key}, ?_⟩
  rw [table, saved, Multiset.cons_add, Multiset.singleton_add]
  exact ⟨keepsRight.trans keeps, bound⟩

/--
A declaration that is not bound takes the place of another one, or is bound
behind all others.
-/
theorem Sound.supplant (previous : DeclId) :
    let after := (scopes.replaceMember? scope key previous decl).getD
      (scopes.declare scope key decl).2
    after.current = scopes.current ∧ after.WellFormed ∧ ∃ more : Stock,
      let later : Worksite :=
        { arena := arena, table := after.table, saved := after.saved,
          stock := more + rest }
      Keeps
          { arena := arena, table := scopes.table, saved := scopes.saved
            stock := .fresh decl scope key place ::ₘ rest } later ∧
        later.Sound := by
  intro after
  cases replaced : scopes.replaceMember? scope key previous decl with
  | none =>
      simp only [after, replaced, Option.getD_none]
      exact sound.declare wellFormed
  | some changed =>
      obtain ⟨set, position, found, -, table, saved, current⟩ :=
        Scopes.of_replaceMember? replaced
      simp only [after, replaced, Option.getD_some, table, saved]
      refine ⟨current, wellFormed.replaceMember? replaced, 0, ?_⟩
      rw [zero_add]
      exact sound.replace found

end

/--
The scope of a declaration is looked up, or added inside another one and saved.
-/
theorem Sound.scopeFor
    {scopes : Scopes}
    {decl : DeclId}
    {parent : ScopeId}
    (kind : ScopeKind)
    (wellFormed : scopes.WellFormed)
    (sound : Sound
      { arena := arena, table := scopes.table, saved := scopes.saved,
        stock := rest })
    (held : arena.Holds (.decl decl))
    (room : parent.raw < scopes.table.size) :
    let opened := scopes.scopeFor decl parent kind
    opened.2.current = scopes.current ∧ opened.2.WellFormed ∧
      opened.1.raw < opened.2.table.size ∧ ∃ stock : Stock,
        let later : Worksite :=
          { arena := arena, table := opened.2.table, saved := opened.2.saved,
            stock := stock }
        Keeps { arena := arena, table := scopes.table, saved := scopes.saved,
                stock := rest } later ∧
          later.Sound := by
  intro opened
  have wellFormedNow : opened.2.WellFormed := wellFormed.scopeFor _ _ _
  cases known : scopes.saved.lookup decl with
  | some scope =>
      have found : opened = (scope, scopes) := by
        simp [opened, Scopes.scopeFor, Scopes.savedScope?, known]
      rw [found]
      refine ⟨rfl, wellFormed, ?_, rest, .refl _, sound⟩
      obtain ⟨before, after, listed, -⟩ := List.lookup_eq_some_iff.mp known
      exact (sound.saved (decl, scope) (by simp [listed])).2
  | none =>
      have scope : opened.1 = { raw := scopes.table.size } := by
        simp [opened, Scopes.scopeFor, Scopes.savedScope?, known, Scopes.push]
      have table : opened.2.table =
          scopes.table.push
            { parent? := some parent, kind := kind, bindings := [] } := by
        simp [opened, Scopes.scopeFor, Scopes.savedScope?, known, Scopes.push]
      have saved : opened.2.saved = (decl, opened.1) :: scopes.saved := by
        simp [opened, Scopes.scopeFor, Scopes.savedScope?, known, Scopes.push]
      have current : opened.2.current = scopes.current := by
        simp [opened, Scopes.scopeFor, Scopes.savedScope?, known, Scopes.push]
      have inside : opened.1.raw < opened.2.table.size := by simp [scope, table]
      obtain ⟨keepsRoom, roomy⟩ :=
        @Sound.note _ sound (.room parent) rfl room rfl
      obtain ⟨keepsPush, pushed⟩ :=
        @Sound.push arena scopes.table scopes.saved _ kind parent roomy
          (Multiset.mem_cons_self ..)
      obtain ⟨keepsSave, settled⟩ := @Sound.saveAnew arena _ scopes.saved _ decl
        { raw := scopes.table.size } pushed held known (by simp)
      let notes : Stock := .room { raw := scopes.table.size } ::ₘ
        .binder { raw := scopes.table.size } 0 ::ₘ .room parent ::ₘ rest
      refine ⟨current, wellFormedNow, inside,
        notes.filter (· ≠ .unsaved decl), ?_⟩
      rw [table, saved, scope]
      exact ⟨keepsRoom.trans (keepsPush.trans keepsSave), settled⟩

/-- A name is minted, and a declaration may be given it. -/
private theorem Sound.addPlaceholder
    (span : Span)
    (sound :
      Sound { arena := arena, table := table, saved := saved, stock := rest }) :
    let named := arena.addPlaceholder span
    ∃ key, (named.2.name named.1).form.key? = some key ∧
      Keeps { arena := arena, table := table, saved := saved, stock := rest }
          { arena := named.2, table := table, saved := saved
            stock := Piece.fee named.1 key + .term (.name named.1) ::ₘ .named
              named.1 key true ::ₘ rest } ∧
        Sound
          { arena := named.2, table := table, saved := saved
            stock := Piece.fee named.1 key + .term (.name named.1) ::ₘ .named
              named.1 key true ::ₘ rest } := by
  intro named
  have keyed : (named.2.name named.1).form.key? =
      some (.placeholder arena.placeholders) :=
    congrArg (fun node => node.form.key?) (Arena.name_addName _ _ _)
  obtain ⟨keeps, soundNow⟩ := sound.mintName span
  have regroup :
      (.unspent named.1 ::ₘ (named.2.loose (.name named.1) + rest) : Stock) =
      Piece.fee named.1 (.placeholder arena.placeholders) +
        .term (.name named.1) ::ₘ
        .named named.1 (.placeholder arena.placeholders) true ::ₘ rest := by
    simp only [Builds.loose_name keyed, Piece.fee, Piece.naming,
      ← Multiset.singleton_add]
    abel
  rw [regroup] at keeps soundNow
  exact ⟨_, keyed, keeps, soundNow⟩

/--
A type to be inferred becomes that of a type parameter with a minted name.
-/
theorem Sound.mint
    {slot : TypeId}
    (span : Span)
    (index : Nat)
    (phase : Phase)
    (sound :
      Sound { arena := arena, table := table, saved := saved, stock := rest })
    (whole : Whole { arena := arena, table := table, saved := saved,
                     stock := rest } (.type slot))
    (empty : arena.children (.type slot) = [])
    (room : scope.raw < table.size) :
    let named := arena.addPlaceholder span
    let declared := named.2.addDecl
      { name := named.1, specifiers := .none, form := .typeParameter index none,
        span := span
        scope := scope, phase := phase }
    let typed := declared.2.addType (.declared declared.1 named.1) span
    ∃ more : Stock,
      let later : Worksite :=
        { arena := typed.2.moveType slot typed.1
          table := table.put scope (declared.2.keyOf named.1)
            ((table.findLocal? scope (declared.2.keyOf named.1)).getD [] ++
              [declared.1])
          saved := saved, stock := .term (.decl declared.1) ::ₘ (more + rest) }
      Keeps { arena := arena, table := table, saved := saved, stock := rest }
        later ∧
        later.Sound := by
  intro named declared typed
  obtain ⟨key, naming, keepsName, soundName⟩ := sound.addPlaceholder span
  obtain ⟨keepsRoom, soundRoom⟩ :=
    @Sound.note _ soundName (.room scope) rfl room rfl
  let parm : Decl :=
    { name := named.1, specifiers := .none, form := .typeParameter index none,
      span := span
      scope := scope, phase := phase }
  have regroupPaid :
      (.room scope ::ₘ (Piece.fee named.1 key + .term (.name named.1) ::ₘ
      .named named.1 key true ::ₘ rest) : Stock) =
      Piece.fee parm.name key +
        (Piece.terms parm.form.children + .room scope ::ₘ
        .term (.name named.1) ::ₘ .named named.1 key true ::ₘ rest) := by
    simp only [parm, DeclForm.children, Option.toList_none, List.map_nil,
      Piece.terms_nil, ← Multiset.singleton_add]
    abel
  rw [regroupPaid] at keepsRoom soundRoom
  obtain ⟨keepsDecl, soundDecl⟩ :=
    @Sound.addDecl named.2 table saved _ parm key soundRoom rfl
    (by simp [parm]) (by simp [parm])
  have keyed : declared.2.keyOf named.1 = key := by
    refine Arena.keyOf_of_key? ?_
    have read : named.2.Reads declared.2 (.name named.1) :=
      Arena.reads_addDecl Term.noConfusion
    have read : declared.2.name named.1 = named.2.name named.1 := read
    exact read ▸ naming
  obtain ⟨keepsRight, soundRight⟩ :=
    @Sound.note _ soundDecl (.binder scope 0) rfl room rfl
  have regroup :
      ((.binder scope 0 ::ₘ .term (.decl declared.1) ::ₘ .fresh declared.1 scope
        key 0 ::ₘ
      .unsaved declared.1 ::ₘ .room scope ::ₘ .term (.name named.1) ::ₘ .named
        named.1 key true ::ₘ
        rest : Stock)) =
      .fresh declared.1 scope key 0 ::ₘ .binder scope 0 ::ₘ
        (.term (.name named.1) ::ₘ .term (.decl declared.1) ::ₘ .unsaved
          declared.1 ::ₘ
          .room scope ::ₘ .named named.1 key true ::ₘ rest) := by
    simp only [← Multiset.singleton_add]
    abel
  rw [regroup] at soundRight keepsRight
  obtain ⟨keepsBind, soundBind⟩ := soundRight.bind
  have found : typed.2.type typed.1 =
      { form := .declared declared.1 named.1, span := span } :=
        Arena.type_addType _ _ _
  have owned : typed.2.children (.type typed.1) = [.name named.1] := by
    simp [Arena.children, found, TypeForm.children]
  let more : Stock :=
    .binder scope 1 ::ₘ .bound declared.1 scope key ::ₘ .unsaved declared.1 ::ₘ
    .room scope ::ₘ {.named named.1 key true}
  have regroupBound :
      ((.binder scope (0 + 1) ::ₘ .bound declared.1 scope key ::ₘ
      .term (.name named.1) ::ₘ .term (.decl declared.1) ::ₘ .unsaved declared.1
        ::ₘ .room scope ::ₘ
        .named named.1 key true ::ₘ rest : Stock)) =
      Piece.terms (typed.2.children (.type typed.1)) +
        .term (.decl declared.1) ::ₘ (more + rest) := by
    simp only [owned, Piece.terms, List.map_cons, List.map_nil, more,
      ← Multiset.singleton_add, Multiset.coe_singleton]
    abel
  rw [regroupBound] at soundBind keepsBind
  have warranted : Stock.Warrants (.term (.decl declared.1) ::ₘ (more + rest))
      Order.none typed.2
      (.type typed.1) := by
    refine ⟨fun mention listed =>
      ?_, by rintro _ ⟨⟩, by rintro _ ⟨⟩, by rintro _ ⟨⟩,
      fun _ _ _ => Term.noConfusion⟩
    obtain rfl : mention = (named.1, declared.1) := by
      simpa [Arena.mentions, found, TypeForm.mentions] using listed
    exact ⟨key, true, scope, by simp [more], by simp [more]⟩
  obtain ⟨keepsType, soundType⟩ := soundBind.add (.type _ _) trivial warranted
  rw [Builds.loose_eq _ rfl fun _ => Term.noConfusion, Multiset.singleton_add]
    at soundType keepsType
  have wholeNow :=
    (keepsName.trans (keepsRoom.trans (keepsDecl.trans (keepsRight.trans
    (keepsBind.trans keepsType))))).whole whole
  have extended : arena.Extends typed.2 :=
    (arena.extends_addPlaceholder span).trans
    ((named.2.extends_addDecl parm).trans (declared.2.extends_addType _ span))
  have apart : slot ≠ typed.1 := by
    rintro rfl
    have added : declared.2.Adds (.type typed.1) typed.2 := .type _ _
    exact added.new ((arena.extends_addPlaceholder span).trans
      (named.2.extends_addDecl parm) |>.holds whole.1)
  obtain ⟨keepsShift, soundShift⟩ :=
    soundType.shift wholeNow (Multiset.mem_cons_self ..)
    ((extended.reads whole.1).children.trans empty)
      (Arena.shifts_moveType wholeNow.1 apart)
  have regroupMinted :
      ((.term (.type typed.1) ::ₘ .term (.decl declared.1) ::ₘ (more + rest) :
      Stock)) = .term (.decl declared.1) ::ₘ
        (.term (.type typed.1) ::ₘ more + rest) := by
    simp only [← Multiset.singleton_add]
    abel
  rw [regroupMinted] at keepsType keepsShift soundShift
  rw [keyed]
  exact ⟨.term (.type typed.1) ::ₘ more,
    keepsName.trans (keepsRoom.trans (keepsDecl.trans (keepsRight.trans
    (keepsBind.trans (keepsType.trans keepsShift))))), soundShift⟩

/--
A statement that holds a declaration holds a new template around it instead.
-/
theorem Sound.wrap
    {stmt : StmtId}
    {decl : DeclId}
    {parms : List DeclId}
    (phase : Phase)
    (sound : Sound
      { arena := arena, table := table, saved := saved
        stock := Piece.terms (parms.map Term.decl) + rest })
    (whole : Whole
      { arena := arena, table := table, saved := saved
        stock := Piece.terms (parms.map Term.decl) + rest } (.stmt stmt))
    (holds : (arena.stmt stmt).form = .declaration decl)
    (bodied : (arena.decl decl).form.isPlain = false) :
    let old := arena.decl decl
    let wrapping := arena.addDecl
      { name := old.name, specifiers := .none,
        form := .template parms none decl, span := old.span
        scope := old.scope, phase := phase }
    ∃ (key : Key) (more : Stock),
      let later : Worksite :=
        { arena := wrapping.2.setStmtForm stmt (.declaration wrapping.1),
          table := table
          saved := saved, stock :=
            .fresh wrapping.1 old.scope key 0 ::ₘ (more + rest) }
      later.arena.keyOf old.name = key ∧ Keeps
          { arena := arena, table := table, saved := saved
            stock := Piece.terms (parms.map Term.decl) + rest } later ∧
        later.Sound := by
  intro old wrapping
  have owned : Term.decl decl ∈ arena.children (.stmt stmt) := by
    simp [Arena.children, holds, StmtForm.children]
  obtain ⟨key, keyed⟩ := sound.keyed_of_whole (sound.whole_child whole owned)
  have room : old.scope.raw < table.size := (sound.fit _ keyed.held).scope _ rfl
  have unminted (number : Nat) : ¬ Keyed
      { arena := arena, table := table, saved := saved
        stock := Piece.terms (parms.map Term.decl) + rest } decl
          (.placeholder number) := fun minted => by
    simp [sound.distinct.plain _ _ minted] at bodied
  obtain ⟨spelling, rfl⟩ : ∃ spelling, key = .simple spelling := by
    cases key with
    | simple spelling => exact ⟨spelling, rfl⟩
    | placeholder number => exact absurd keyed (unminted number)
  obtain ⟨keepsBare, bare⟩ := @Sound.setStmt arena table saved
    (Piece.terms (parms.map Term.decl) + rest) stmt .empty [] [.decl decl]
      (by simpa using sound)
    (by simpa using whole) rfl rfl (by simpa using unminted)
      (by simp [holds, StmtForm.children])
  obtain ⟨keepsName, named⟩ :=
    @Sound.note _ bare (.named old.name (.simple spelling) true) rfl
    ⟨⟨keepsBare.held keyed.name, .inl keyed.key⟩, fun _ => keyed.key⟩ rfl
  obtain ⟨keepsRoom, roomy⟩ :=
    @Sound.note _ named (.room old.scope) rfl room rfl
  let wrapper : Decl :=
    { name := old.name, specifiers := .none, form := .template parms none decl,
      span := old.span
      scope := old.scope, phase := phase }
  let notes : Stock :=
    .room old.scope ::ₘ .named old.name (.simple spelling) true ::ₘ rest
  have regroup :
      ((.room old.scope ::ₘ .named old.name (.simple spelling) true ::ₘ
      (Piece.terms [.decl decl] + (Piece.terms (parms.map Term.decl) + rest)) :
        Stock)) =
      Piece.fee wrapper.name (.simple spelling) +
        (Piece.terms wrapper.form.children + notes) := by
    simp only [wrapper, notes, Piece.fee, DeclForm.children, Option.toList_none,
      List.map_nil, List.append_nil, Piece.terms_append,
      ← Multiset.singleton_add]
    abel
  rw [regroup] at roomy keepsRoom
  obtain ⟨keepsWrapper, wrapped⟩ := @Sound.addDecl _ table saved notes wrapper
    (.simple spelling) roomy rfl (by simp [wrapper, notes])
      (by simp [wrapper, notes])
  have keepsAll :=
    keepsBare.trans (keepsName.trans (keepsRoom.trans keepsWrapper))
  let more : Stock := .unsaved wrapping.1 ::ₘ .room old.scope ::ₘ
    {.named old.name (.simple spelling) true}
  have regroupWrapper : ((.term (.decl wrapping.1) ::ₘ
      .fresh wrapping.1 old.scope (.simple spelling) 0 ::ₘ .unsaved wrapping.1
        ::ₘ notes : Stock)) =
      Piece.terms [.decl wrapping.1] +
        .fresh wrapping.1 old.scope (.simple spelling) 0 ::ₘ (more + rest) := by
    simp only [notes, more, Piece.terms_cons, Piece.terms_nil,
      ← Multiset.singleton_add]
    abel
  have slot : ((arena.setStmtForm stmt .empty).addDecl wrapper).1 =
      wrapping.1 := rfl
  rw [slot] at wrapped keepsAll
  rw [regroupWrapper] at wrapped keepsAll
  have bare :
      (((arena.setStmtForm stmt .empty).addDecl wrapper).2.stmt stmt).form =
      .empty :=
    Arena.stmt_setStmtForm whole.1
  obtain ⟨keepsStmt, settled⟩ :=
    @Sound.setStmt _ table saved _ stmt (.declaration wrapping.1)
    [.decl wrapping.1] [] wrapped (keepsAll.whole (by simpa using whole)) rfl
      rfl (by simp)
    (by simp [bare, StmtForm.children])
  have same : ((arena.setStmtForm stmt .empty).addDecl wrapper).2.setStmtForm
      stmt
      (.declaration wrapping.1) =
        wrapping.2.setStmtForm stmt (.declaration wrapping.1) :=
    Arena.setStmtForm_setStmtForm
      (Arena.holds_addDecl wrapper |>.mpr (.inl whole.1)) _ _
  rw [same] at keepsStmt settled
  simp only [Piece.terms_nil, zero_add] at keepsStmt settled keepsAll
  exact ⟨.simple spelling, more, Arena.keyOf_of_key? keyed.key,
    keepsAll.trans keepsStmt, settled⟩

end Worksite

end Tern
