import Tern.Proofs.Building.Ordering
import Tern.Proofs.Elaboration.Advancing

namespace Tern

/-!
# Arranged worksites

On an arranged worksite overload sets are in order, but for declarations that do
not count any more, and whatever is to be bound later on is behind all that is
bound where it belongs: the parameters of a function, and what its body or the
body of a class declares while that is captured.
-/

namespace Arena

/-- A statement holds a declaration, or templates around it. -/
def Declares (arena : Arena) (decl : DeclId) : Prop :=
  ∃ stmt outer, (arena.stmt stmt).form = .declaration outer ∧
    arena.Houses outer decl

/-- The body of a function or of a class is captured, and begins in a place. -/
def CapturedAt (arena : Arena) (decl : DeclId) (place : Nat) : Prop :=
  (arena.decl decl).form.isPlain = false ∧ ∃ definition stmt range,
    (arena.decl decl).form.definition? = some definition ∧
      (arena.definition definition).form.block? = some stmt ∧
        (arena.stmt stmt).form = .unparsed range ∧ range.start = place

variable {arena older newer : Arena} {decl : DeclId}

/-- What a statement holds is declared. -/
theorem declares_of_stmt
    {stmt : StmtId}
    (form : (arena.stmt stmt).form = .declaration decl) :
    arena.Declares decl :=
  ⟨stmt, decl, form, .refl decl⟩

/-- So is what a template is around that is declared. -/
theorem Declares.inner
    (declares : arena.Declares decl)
    {parms : List DeclId}
    {constraint? : Option ExprId}
    {inner : DeclId}
    (form : (arena.decl decl).form = .template parms constraint? inner) :
    arena.Declares inner :=
  have ⟨stmt, outer, held, houses⟩ := declares
  ⟨stmt, outer, held, houses.trans (.template form (.refl inner))⟩

/--
A declaration starts where it did, is elaborated as far as it was or further,
and has the form that it had, but for the parameters of a template.
-/
structure Resembles (older newer : Arena) (decl : DeclId) : Prop where
  span : (newer.decl decl).span = (older.decl decl).span
  phase : (older.decl decl).phase.rank ≤ (newer.decl decl).phase.rank
  form : (newer.decl decl).form = (older.decl decl).form ∨
    ∃ parms more constraint? inner,
    (older.decl decl).form = .template parms constraint? inner ∧
      (newer.decl decl).form = .template more constraint? inner

/-- Within the frame of elaboration declarations resemble what they were. -/
theorem DeclFramed.resembles
    {origin : Arena}
    (framed : DeclFramed origin older newer decl) :
    older.Resembles newer decl where
  span := framed.span
  phase := framed.phase
  form :=
    framed.form.imp_right fun ⟨parms, constraint?, inner, more, was, now, _⟩ =>
    ⟨parms, parms ++ more, constraint?, inner, was, now⟩

/-- A declaration that did not change resembles itself. -/
theorem Resembles.of_eq (same : newer.decl decl = older.decl decl) :
    older.Resembles newer decl where
  span := by rw [same]
  phase := by rw [same]
  form := .inl (by rw [same])

/-- What resembles a template is one around the same declaration. -/
theorem Resembles.template
    (resembles : older.Resembles newer decl)
    {parms : List DeclId}
    {constraint? : Option ExprId}
    {inner : DeclId}
    (form : (older.decl decl).form = .template parms constraint? inner) :
    ∃ more, (newer.decl decl).form = .template more constraint? inner := by
  rcases resembles.form with same | ⟨_, more, _, _, was, now⟩
  · exact ⟨parms, same.trans form⟩
  · cases form.symm.trans was
    exact ⟨more, now⟩

/-- A template resembles one that was around the same declaration. -/
private theorem Resembles.of_template
    (resembles : older.Resembles newer decl)
    {parms : List DeclId}
    {constraint? : Option ExprId}
    {inner : DeclId}
    (form : (newer.decl decl).form = .template parms constraint? inner) :
    ∃ fewer, (older.decl decl).form = .template fewer constraint? inner := by
  rcases resembles.form with same | ⟨fewer, _, _, _, was, now⟩
  · exact ⟨parms, same.symm.trans form⟩
  · cases form.symm.trans now
    exact ⟨fewer, was⟩

/--
Templates stay around what they are around as long as declarations resemble what
they were.
-/
theorem Houses.of_resembles
    (resembles : ∀ {decl}, older.Holds (.decl decl) →
      older.Resembles newer decl)
    {outer : DeclId}
    (houses : older.Houses outer decl) :
    newer.Houses outer decl := by
  induction houses with
  | refl => exact .refl _
  | template form _ inductionHypothesis =>
      obtain ⟨_, now⟩ := (resembles (holds_of_form form nofun)).template form
      exact .template now inductionHypothesis

/-- A range of tokens is stored. -/
theorem holds_of_unparsed
    {stmt : StmtId}
    {range : TokenRange}
    (form : (arena.stmt stmt).form = .unparsed range) :
    arena.Holds (.stmt stmt) := by
  by_contra missing
  have past : arena.stmts.size ≤ stmt.raw := Nat.le_of_not_lt missing
  simp [Arena.stmt, Array.getD_eq_getD_getElem?, past, Vacant.stmt] at form

/-- What is declared stays so when terms are added. -/
private theorem Extends.declares
    (extended : older.Extends newer)
    (declares : older.Declares decl) :
    newer.Declares decl := by
  obtain ⟨stmt, outer, form, houses⟩ := declares
  refine ⟨stmt, outer, (extended.stmt_eq (holds_of_declaration form)).symm ▸
    form, ?_⟩
  clear form
  induction houses with
  | refl => exact .refl _
  | template around _ inductionHypothesis =>
      exact .template
        ((extended.decl_eq (holds_of_form around nofun)).symm ▸ around)
        inductionHypothesis

/-- What is declared stays so within the frame of elaboration. -/
theorem Framed.declares
    {input : ElabInput}
    {origin : Arena}
    (framed : Arena.Framed input origin older newer)
    (declares : older.Declares decl) :
    newer.Declares decl := by
  obtain ⟨stmt, outer, form, houses⟩ := declares
  obtain ⟨held, now, around⟩ := framed.declaration form
  exact ⟨stmt, held, now, around.trans (framed.houses houses)⟩

end Arena

namespace Worksite

variable {site : Worksite} {decl : DeclId}

/-- What is declared is whole. -/
theorem Sound.whole_of_declares
    (sound : site.Sound)
    (declares : site.arena.Declares decl) :
    site.Whole (.decl decl) := by
  obtain ⟨stmt, outer, form, houses⟩ := declares
  have whole : site.Whole (.stmt stmt) :=
    ⟨Arena.holds_of_declaration form, nofun⟩
  exact sound.whole_of_houses
    (sound.whole_of_stmt whole form (by simp [StmtForm.children])) houses

/-- Parameters of what is whole are stored. -/
private theorem Sound.held_of_param
    (sound : site.Sound)
    (whole : site.Whole (.decl decl))
    {param : DeclId}
    (listed : param ∈ (site.arena.decl decl).form.params) :
    site.arena.Holds (.decl param) := by
  refine (sound.whole_of_form whole rfl ?_ : site.Whole (.decl param)).1
  cases form : (site.arena.decl decl).form <;>
    simp_all [DeclForm.params, DeclForm.children]

/--
What is declared is owned by a statement or by a template, and by nothing else.
-/
theorem Sound.not_declares_of_param
    (sound : site.Sound)
    (whole : site.Whole (.decl decl))
    {param : DeclId}
    (listed : param ∈ (site.arena.decl decl).form.params) :
    ¬ site.arena.Declares param := by
  have owned : Term.decl param ∈ site.arena.parts (.decl decl) := by
    cases form : (site.arena.decl decl).form <;>
      simp_all [DeclForm.params, Arena.parts, DeclForm.children]
  rintro ⟨stmt, outer, form, houses⟩
  have wholeStmt : site.Whole (.stmt stmt) :=
    ⟨Arena.holds_of_declaration form, by simp⟩
  have wholeOuter : site.Whole (.decl outer) :=
    sound.whole_of_stmt wholeStmt form (by simp [StmtForm.children])
  rcases houses.cases_last with rfl |
      ⟨wrapper, parms, constraint?, around, last⟩
  · cases sound.forest.single whole wholeStmt owned
      (by simp [Arena.parts, Arena.children, form, StmtForm.children])
  · cases sound.forest.single whole (sound.whole_of_houses wholeOuter around)
      owned
      (by simp [Arena.parts, last, DeclForm.children])
    rw [last] at listed
    cases listed

/--
Templates are around what they were around if declarations resemble what they
were.
-/
theorem Sound.houses_of_resembles
    {later : Arena}
    (sound : site.Sound)
    (resembles : ∀ {decl}, site.arena.Holds (.decl decl) →
      site.arena.Resembles later decl)
    {outer : DeclId}
    (whole : site.Whole (.decl outer))
    (houses : later.Houses outer decl) :
    site.arena.Houses outer decl := by
  induction houses with
  | refl => exact .refl _
  | template form _ inductionHypothesis =>
      obtain ⟨_, was⟩ := (resembles whole.1).of_template form
      exact .template was
        (inductionHypothesis
          (sound.whole_of_form whole was (by simp [DeclForm.children])))

/--
Something is to be bound yet in the scope of a declaration: a parameter, or what
its body declares.
-/
def Dozes (site : Worksite) (decl : DeclId) : Prop :=
  (∃ param ∈ (site.arena.decl decl).form.params, ¬ site.table.Enlists param) ∨
    ∃ place, site.arena.CapturedAt decl place

/--
What is to be bound yet in the scope of a declaration starts behind all that is
bound there: its parameters one behind the other, and then what its body
declares.
-/
structure Waits
    (order : Order)
    (out : DeclId → Prop)
    (site : Worksite)
    (decl : DeclId) :
    Prop where
  rising : (site.arena.decl decl).form.params.Pairwise fun param later =>
    site.table.Enlists param ∨ site.arena.startOf param <
      site.arena.startOf later
  unbound : ∀ param ∈ (site.arena.decl decl).form.params,
    site.table.Enlists param ∨
    ∃ scope, site.saved.lookup decl = some scope ∧
      site.table.BindsBefore site.arena out scope (site.arena.startOf param)
  captured : ∀ place, site.arena.CapturedAt decl place →
    ∃ scope, site.saved.lookup decl = some scope ∧
      site.table.BindsBefore site.arena out scope (order.startOf place) ∧
        ∀ param ∈ (site.arena.decl decl).form.params, site.table.Enlists param ∨
          site.arena.startOf param < order.startOf place

/-- Nothing is left for a declaration that does not doze. -/
private theorem Waits.of_awake
    (order : Order)
    (out : DeclId → Prop)
    (awake : ¬ site.Dozes decl) :
    site.Waits order out decl := by
  have bound (param : DeclId)
      (listed : param ∈ (site.arena.decl decl).form.params) :
      site.table.Enlists param :=
    Classical.byContradiction fun unbound =>
      awake (.inl ⟨param, listed, unbound⟩)
  exact
    { rising := List.pairwise_iff_forall_sublist.mpr fun pair =>
        .inl (bound _ (pair.subset (List.mem_cons_self ..)))
      unbound := fun param listed => .inl (bound param listed)
      captured := fun place captured => absurd (.inr ⟨place, captured⟩) awake }

/-- Who dozes has a scope. -/
private theorem Waits.scope_of_dozes
    {order : Order}
    {out : DeclId → Prop}
    (waits : site.Waits order out decl)
    (dozes : site.Dozes decl) :
    ∃ scope, site.saved.lookup decl = some scope := by
  rcases dozes with ⟨param, listed, unbound⟩ | ⟨place, captured⟩
  · obtain ⟨scope, saved, -⟩ :=
      (waits.unbound param listed).resolve_left unbound
    exact ⟨scope, saved⟩
  · obtain ⟨scope, saved, -⟩ := waits.captured place captured
    exact ⟨scope, saved⟩

/--
A declaration that goes on with its form dozes only if it did, as long as its
parameters stay bound.
-/
theorem Dozes.back
    {later : Worksite}
    (dozes : later.Dozes decl)
    (form : (later.arena.decl decl).form = (site.arena.decl decl).form)
    (captured : ∀ {place}, later.arena.CapturedAt decl place →
      site.arena.CapturedAt decl place)
    (members : ∀ param ∈ (site.arena.decl decl).form.params,
      site.table.Enlists param →
      later.table.Enlists param) :
    site.Dozes decl := by
  rcases dozes with ⟨param, listed, unbound⟩ | ⟨place, here⟩
  · rw [form] at listed
    exact .inl ⟨param, listed, fun bound =>
      unbound (members param listed bound)⟩
  · exact .inr ⟨place, captured here⟩

/--
It goes on to wait as long as its scope binds nothing behind what it waits with.
-/
theorem Waits.onward
    {order : Order}
    {out outNow : DeclId → Prop}
    {later : Worksite}
    (waits : site.Waits order out decl)
    (form : (later.arena.decl decl).form = (site.arena.decl decl).form)
    (captured : ∀ {place}, later.arena.CapturedAt decl place →
      site.arena.CapturedAt decl place)
    (members : ∀ param ∈ (site.arena.decl decl).form.params,
      site.table.Enlists param →
      later.table.Enlists param)
    (starts : ∀ param ∈ (site.arena.decl decl).form.params,
      later.arena.startOf param = site.arena.startOf param)
    (saved : ∀ {scope}, site.saved.lookup decl = some scope →
      later.saved.lookup decl = some scope)
    (binds : ∀ {scope offset}, site.saved.lookup decl = some scope →
      site.table.BindsBefore site.arena out scope offset →
        later.table.BindsBefore later.arena outNow scope offset) :
    later.Waits order outNow decl where
  rising := by
    rw [form]
    refine waits.rising.imp_of_mem fun {param further} here there before => ?_
    rw [starts param here, starts further there]
    exact before.imp_left (members param here)
  unbound param listed := by
    rw [form] at listed
    rw [starts param listed]
    exact (waits.unbound param listed).imp (members param listed)
      fun ⟨scope, opened, before⟩ => ⟨scope, saved opened, binds opened before⟩
  captured place here := by
    obtain ⟨scope, opened, before, behind⟩ :=
      waits.captured place (captured here)
    refine ⟨scope, saved opened, binds opened before, fun param listed => ?_⟩
    rw [form] at listed
    rw [starts param listed]
    exact (behind param listed).imp_left (members param listed)

/-- What the form of a declaration is plain of has nothing to wait for. -/
private theorem not_dozes_of_isPlain
    (plain : (site.arena.decl decl).form.isPlain = true) :
    ¬ site.Dozes decl := by
  rintro (⟨param, listed, -⟩ | ⟨place, captured⟩)
  · cases form : (site.arena.decl decl).form <;>
      simp_all [DeclForm.params, DeclForm.isPlain]
  · cases plain.symm.trans captured.1

/--
Overload sets are in order, but for what is out, and each declared declaration
waits in a scope of its own, some of them apart. What a statement holds is a
member unless it is out, and what is out is declared and typed.
-/
structure Arranged
    (order : Order)
    (out but : DeclId → Prop)
    (site : Worksite) :
    Prop where
  sets : site.table.InOrder site.arena out
  settled : ∀ {stmt decl}, (site.arena.stmt stmt).form = .declaration decl →
    site.table.Enlists decl ∨ out decl
  inline : order.eager → ∀ {stmt : StmtId}, site.arena.Holds (.stmt stmt) →
    (site.arena.stmt stmt).form.isUnparsed = false
  waits : ∀ {decl}, site.arena.Declares decl → ¬ but decl →
    site.Waits order out decl
  alone : ∀ {decl other scope}, site.arena.Declares decl →
    site.arena.Declares other →
    ¬ but decl → ¬ but other → site.Dozes decl → site.Dozes other →
      site.saved.lookup decl = some scope → site.saved.lookup other =
        some scope → decl = other
  gone : ∀ {decl}, out decl →
    site.arena.Declares decl ∧ (site.arena.decl decl).phase ≠ .unelaborated

namespace Arranged

variable {order : Order} {out but fewer : DeclId → Prop} {later : Worksite}

/-- What is at hand is of no account. -/
theorem restock
    (arranged : site.Arranged order out but)
    (stock : Stock) :
    Worksite.Arranged order out but { site with stock := stock } where
  sets := arranged.sets
  settled := arranged.settled
  inline := arranged.inline
  waits declares kept :=
    have waits := arranged.waits declares kept
    ⟨waits.rising, waits.unbound, waits.captured⟩
  alone := arranged.alone
  gone := arranged.gone

/-- Those that were apart are not any more if they do not doze. -/
theorem awaken
    (arranged : site.Arranged order out but)
    (awake : ∀ {decl}, but decl → site.arena.Declares decl → ¬ fewer decl →
      ¬ site.Dozes decl) :
    site.Arranged order out fewer :=
  { arranged with
    waits := fun {decl} declares kept => by
      by_cases apart : but decl
      · exact .of_awake order out (awake apart declares kept)
      · exact arranged.waits declares apart
    alone := fun declares declaresToo kept keptToo dozes dozesToo =>
      arranged.alone declares declaresToo
      (fun apart => awake apart declares kept dozes)
      (fun apart => awake apart declaresToo keptToo dozesToo) dozes dozesToo }

/--
Where the same terms and the same scopes are shown, all is arranged in the same
way.
-/
theorem of_eq
    (arranged : site.Arranged order out but)
    (arena : later.arena = site.arena)
    (table : later.table = site.table)
    (saved : later.saved = site.saved) :
    later.Arranged order out but := by
  obtain ⟨arena, table, saved, stock⟩ := site
  obtain ⟨_, _, _, stockNow⟩ := later
  subst arena table saved
  exact arranged.restock stockNow

/--
All stays arranged if sets do, if declarations keep their forms, and if what is
bound in the scope of a declaration that waits is in front of what it waits
with.
-/
theorem carry
    {outNow : DeclId → Prop}
    (arranged : site.Arranged order out but)
    (sound : site.Sound)
    (decls : ∀ {decl}, site.arena.Holds (.decl decl) →
      site.arena.Resembles later.arena decl)
    (definitions : ∀ {definition}, site.arena.Holds (.definition definition) →
      later.arena.definition definition = site.arena.definition definition)
    (unparsed : ∀ {stmt range}, (later.arena.stmt stmt).form = .unparsed range →
      (site.arena.stmt stmt).form = .unparsed range)
    (kept : ∀ {decl}, site.arena.Declares decl → later.arena.Declares decl)
    (back : ∀ {decl}, later.arena.Declares decl →
      (later.arena.decl decl).form.isPlain = true ∨ site.arena.Declares decl)
    (sets : later.table.InOrder later.arena outNow)
    (settled : ∀ {stmt decl}, (later.arena.stmt stmt).form = .declaration decl →
      later.table.Enlists decl ∨ outNow decl)
    (members : ∀ {param}, ¬ site.arena.Declares param →
      site.table.Enlists param →
      later.table.Enlists param)
    (saved : ∀ {decl scope}, site.saved.lookup decl = some scope →
      later.saved.lookup decl = some scope)
    (binds : ∀ {decl scope offset}, site.arena.Declares decl → ¬ but decl →
      site.Dozes decl →
      site.saved.lookup decl = some scope →
        site.table.BindsBefore site.arena out scope offset →
        later.table.BindsBefore later.arena outNow scope offset)
    (gone : ∀ {decl}, outNow decl → ¬ out decl →
      site.arena.Declares decl ∧ (site.arena.decl decl).phase ≠ .unelaborated) :
    later.Arranged order outNow but := by
  have whole {decl : DeclId} (was : site.arena.Declares decl) :
      site.Whole (.decl decl) :=
    sound.whole_of_declares was
  have same {decl : DeclId} (was : site.arena.Declares decl)
      (still : (later.arena.decl decl).form.isPlain = false) :
      (later.arena.decl decl).form = (site.arena.decl decl).form := by
    refine (decls (whole was).1).form.resolve_right ?_
    rintro ⟨_, _, _, _, -, now⟩
    rw [now] at still
    cases still
  have captured {decl : DeclId} {place : Nat} (was : site.arena.Declares decl)
      (now : later.arena.CapturedAt decl place) :
        site.arena.CapturedAt decl place := by
    obtain ⟨still, definition, stmt, range, defines, block, form, begins⟩ := now
    have form_eq := same was still
    rw [form_eq] at still defines
    have inside : site.Whole (.definition definition) :=
      sound.whole_of_form (whole was) rfl
      (DeclForm.mem_children.mpr (.inr (.inl (by rw [defines]; rfl))))
    rw [definitions inside.1] at block
    exact ⟨still, definition, stmt, range, defines, block, unparsed form,
      begins⟩
  have bound {decl param : DeclId} (was : site.arena.Declares decl)
      (listed : param ∈ (site.arena.decl decl).form.params)
        (member : site.table.Enlists param) :
      later.table.Enlists param :=
    members (sound.not_declares_of_param (whole was) listed) member
  have before {decl : DeclId} (declares : later.arena.Declares decl)
      (dozes : later.Dozes decl) :
      site.arena.Declares decl ∧ site.Dozes decl ∧
        (later.arena.decl decl).form = (site.arena.decl decl).form := by
    have still : (later.arena.decl decl).form.isPlain = false :=
      Bool.eq_false_iff.mpr fun plain => not_dozes_of_isPlain plain dozes
    have was := (back declares).resolve_left (by simp [still])
    exact ⟨was, dozes.back (same was still) (captured was) fun _ =>
      bound was, same was still⟩
  have opened {decl : DeclId} {scope : ScopeId} (was : site.arena.Declares decl)
      (waking : ¬ but decl)
      (dozes : site.Dozes decl) (now : later.saved.lookup decl = some scope) :
      site.saved.lookup decl = some scope := by
    obtain ⟨home, known⟩ := (arranged.waits was waking).scope_of_dozes dozes
    rw [known]
    exact (saved known).symm.trans now
  refine
    { sets := sets
      settled := settled
      inline := fun eager {stmt} held => ?_
      waits := fun {decl} declares waking => ?_
      alone :=
        fun {decl other
          scope} declares declaresToo waking wakingToo dozes dozesToo home
        homeToo => ?_
      gone := fun {decl} left => ?_ }
  · cases form : (later.arena.stmt stmt).form with
    | unparsed range =>
        have before := unparsed form
        have inline := arranged.inline eager (Arena.holds_of_unparsed before)
        rw [before] at inline
        cases inline
    | _ => rfl
  · by_cases dozes : later.Dozes decl
    · obtain ⟨was, dozed, form⟩ := before declares dozes
      refine (arranged.waits was waking).onward form (captured was)
        (fun _ => bound was)
        (fun param listed => ?_) saved fun home before =>
          binds was waking dozed home before
      rw [Arena.startOf, (decls (sound.held_of_param (whole was) listed)).span,
        Arena.startOf]
    · exact .of_awake order outNow dozes
  · obtain ⟨was, dozed, -⟩ := before declares dozes
    obtain ⟨wasToo, dozedToo, -⟩ := before declaresToo dozesToo
    exact arranged.alone was wasToo waking wakingToo dozed dozedToo
      (opened was waking dozed home)
      (opened wasToo wakingToo dozedToo homeToo)
  · have before : site.arena.Declares decl ∧ (site.arena.decl decl).phase ≠
        .unelaborated := by
      by_cases already : out decl
      · exact arranged.gone already
      · exact gone left already
    refine ⟨kept before.1, fun early => before.2 ?_⟩
    have rank := (decls (whole before.1).1).phase
    rw [early] at rank
    cases phase : (site.arena.decl decl).phase <;> simp_all [Phase.rank]

/--
All stays arranged where no statement changes, no member leaves its set, and
nothing is bound under an identifier.
-/
theorem beside
    (arranged : site.Arranged order out but)
    (sound : site.Sound)
    (decls : ∀ {decl}, site.arena.Holds (.decl decl) →
      site.arena.Resembles later.arena decl)
    (definitions : ∀ {definition}, site.arena.Holds (.definition definition) →
      later.arena.definition definition = site.arena.definition definition)
    (stmts : later.arena.stmts = site.arena.stmts)
    (same : ∀ scope name,
      later.table.findLocal? scope (.simple name) =
        site.table.findLocal? scope (.simple name))
    (members : ∀ {decl}, site.table.Enlists decl → later.table.Enlists decl)
    (saved : ∀ {decl scope}, site.saved.lookup decl = some scope →
      later.saved.lookup decl = some scope) :
    later.Arranged order out but := by
  have stmt (stmt : StmtId) : later.arena.stmt stmt = site.arena.stmt stmt := by
    simp only [Arena.stmt, stmts]
  have starts (scope : ScopeId) (name : Name) (set : OverloadSet)
      (found : site.table.findLocal? scope (.simple name) = some set)
        (decl : DeclId)
      (listed : decl ∈ set) : later.arena.startOf decl =
        site.arena.startOf decl := by
    rw [Arena.startOf,
      (decls ((sound.members _ _ _ found).2 decl listed).1.held).span,
      Arena.startOf]
  have declares {decl : DeclId} (declares : site.arena.Declares decl) :
      later.arena.Declares decl := by
    obtain ⟨owner, outer, form, houses⟩ := declares
    exact ⟨owner, outer, (stmt _).symm ▸ form, houses.of_resembles decls⟩
  refine arranged.carry sound decls definitions (fun form => stmt _ ▸ form)
    declares ?_
    (arranged.sets.congr same starts)
    (fun {owner decl} form =>
      (arranged.settled (stmt owner ▸ form)).imp_left members)
    (fun _ => members) saved
    (fun {decl scope offset} _ _ _ _ before =>
      before.congr (same scope) (starts scope))
    fun now before => absurd now before
  rintro decl ⟨owner, outer, form, houses⟩
  rw [stmt] at form
  exact .inr ⟨owner, outer, form,
    sound.houses_of_resembles decls
      (sound.whole_of_declares (Arena.declares_of_stmt form)) houses⟩

end Arranged

section

variable {order : Order} {out : DeclId → Prop} {base later : Worksite}

/-- Templates that were there are around what they were around. -/
private theorem Sound.houses_of_extends
    (sound : base.Sound)
    (extended : base.arena.Extends site.arena)
    {outer : DeclId}
    (whole : base.Whole (.decl outer))
    (houses : site.arena.Houses outer decl) :
    base.arena.Houses outer decl := by
  induction houses with
  | refl => exact .refl _
  | template form _ inductionHypothesis =>
      rw [extended.decl_eq whole.1] at form
      exact .template form
        (inductionHypothesis
          (sound.whole_of_form whole form (by simp [DeclForm.children])))

/-- New templates are around new declarations. -/
private theorem Ordered.new_of_houses
    (ordered : base.Ordered order out site)
    (sound : site.Sound)
    (kept : ∀ {decl}, base.Keeping decl → site.Keeping decl)
    {outer : DeclId}
    (whole : site.Whole (.decl outer))
    (new : ¬ base.arena.Holds (.decl outer))
    (houses : site.arena.Houses outer decl) :
    ¬ base.arena.Holds (.decl decl) := by
  induction houses with
  | refl => exact new
  | @template outer inner _ parms constraint? form _ inductionHypothesis =>
      have listed : Term.decl inner ∈
          (site.arena.decl outer).form.children := by
        simp [form, DeclForm.children]
      refine inductionHypothesis (sound.whole_of_form whole rfl listed)
        fun stored => ?_
      rcases kept ((ordered.assembled whole new).inner inner listed stored)
        with loose | begun
      · exact (sound.forest.loose loose).2.2 _ whole listed
      · exact (sound.forest.below whole listed).1.2 inner rfl begun

/-- What is declared was declared before, or it is new. -/
private theorem Ordered.declares_cases
    (ordered : base.Ordered order out site)
    (sound : base.Sound)
    (soundNow : site.Sound)
    (enrolls : base.Enrolls site)
    (kept : ∀ {decl}, base.Keeping decl → site.Keeping decl)
    (extended : base.arena.Extends site.arena)
    (declares : site.arena.Declares decl) :
    base.arena.Declares decl ∨
      (site.Whole (.decl decl) ∧ ¬ base.arena.Holds (.decl decl)) := by
  have whole := soundNow.whole_of_declares declares
  obtain ⟨stmt, outer, form, houses⟩ := declares
  by_cases stored : base.arena.Holds (.stmt stmt)
  · rw [extended.stmt_eq stored] at form
    have wholeOuter := sound.whole_of_declares (Arena.declares_of_stmt form)
    exact .inl ⟨stmt, outer, form, sound.houses_of_extends extended wholeOuter
      houses⟩
  · have wholeOuter := soundNow.whole_of_declares (Arena.declares_of_stmt form)
    obtain ⟨new, -⟩ :=
      enrolls.declared soundNow kept (Arena.holds_of_declaration form)
        stored form
    exact .inr ⟨whole, ordered.new_of_houses soundNow kept wholeOuter new
      houses⟩

/--
A new declaration waits in its scope, and if it dozes it has the right to bind
there.
-/
private theorem Ordered.waits
    (ordered : base.Ordered order out site)
    (rising : StrictMono order.startOf)
    (sound : site.Sound)
    (whole : site.Whole (.decl decl))
    (new : ¬ base.arena.Holds (.decl decl)) :
    site.Waits order out decl ∧ (site.Dozes decl → ∃ scope place params stop,
      Piece.asleep decl scope place params stop ∈ site.stock) := by
  have rests := (ordered.assembled whole new).rests
  have opened {definition : DefId} {stop place : Nat}
      (opens : Piece.opens (.definition definition) (some stop) ∈ site.stock)
      (defines : (site.arena.decl decl).form.definition? = some definition)
      (captured : site.arena.CapturedAt decl place) : stop ≤ place := by
    obtain ⟨-, found, stmt, range, same, block, form, rfl⟩ := captured
    cases defines.symm.trans same
    obtain ⟨last, ⟨⟩, before⟩ := ordered.placed _ opens stmt block range form
    exact before
  cases form : (site.arena.decl decl).form with
  | callable role params result definition =>
      rw [form] at rests
      by_cases eager : order.eager
      · have awake : ¬ site.Dozes decl := by
          rintro (⟨param, listed, unbound⟩ |
              ⟨place, -, _, stmt, range, -, -, unparsed, -⟩)
          · rw [form] at listed
            obtain ⟨scope, key, bound⟩ := rests.1 eager param listed
            exact unbound ⟨scope, key, ordered.placed _ bound⟩
          · have inline :=
              ordered.inline eager (Arena.holds_of_unparsed unparsed)
            rw [unparsed] at inline
            cases inline
        exact ⟨.of_awake order out awake, fun dozes => absurd dozes awake⟩
      · obtain ⟨scope, place, slated, stop, asleep, rfl, opens⟩ := rests.2 eager
        obtain ⟨before, ⟨inTurn, between⟩, onward, begins⟩ :=
          ordered.placed _ asleep
        have saved := (sound.backed _ asleep).1
        have starts {param : DeclId}
            (listed : param ∈ (site.arena.decl decl).form.params) :
            ∃ begun, site.arena.startOf param = order.startOf begun ∧
              place ≤ begun ∧ begun < stop := by
          rw [form] at listed
          obtain ⟨slot, among, rfl⟩ := List.mem_map.mp listed
          exact ⟨slot.2.2, (begins slot among).starts,
            between _ (List.mem_map_of_mem among)⟩
        refine ⟨?_, fun _ => ⟨scope, place, slated, stop, asleep⟩⟩
        refine
          { rising := ?_
            unbound := fun param listed => ?_
            captured := fun begins captured =>
              ⟨scope, saved, ?_, fun param listed => .inr ?_⟩ }
        · rw [form]
          refine List.pairwise_map.mpr
            ((List.pairwise_map.mp inTurn).imp_of_mem ?_)
          intro first second here there before
          rw [(begins first here).starts, (begins second there).starts]
          exact .inr (rising before)
        · obtain ⟨begun, same, after, -⟩ := starts listed
          exact .inr ⟨scope, saved, before.mono (same ▸ rising.monotone after)⟩
        · have body := opened opens (by rw [form]; rfl) captured
          exact before.mono (rising.monotone (Nat.le_trans onward body))
        · obtain ⟨begun, same, -, ahead⟩ := starts listed
          have body := opened opens (by rw [form]; rfl) captured
          exact same ▸ rising (Nat.lt_of_lt_of_le ahead body)
  | classType kind definition =>
      rw [form] at rests
      have alone : (site.arena.decl decl).form.params = [] := by rw [form]; rfl
      by_cases captured : ∃ place, site.arena.CapturedAt decl place
      · obtain ⟨begins, here⟩ := captured
        obtain ⟨-, found, stmt, range, defines, block, unparsed, -⟩ := here
        obtain rfl : definition = found := by
          simpa [form, DeclForm.definition?] using defines
        have deferred : ¬ order.eager := fun eager => by
          have inline := ordered.inline eager (Arena.holds_of_unparsed unparsed)
          rw [unparsed] at inline
          cases inline
        rcases rests deferred with opens | ⟨scope, place, stop, asleep, opens⟩
        · obtain ⟨_, ⟨⟩, -⟩ := ordered.placed _ opens stmt block range unparsed
        obtain ⟨before, -, onward, -⟩ := ordered.placed _ asleep
        have saved := (sound.backed _ asleep).1
        refine ⟨?_, fun _ => ⟨scope, place, [], stop, asleep⟩⟩
        refine
          { rising := alone ▸ .nil
            unbound := fun param listed => by simp [alone] at listed
            captured :=
              fun begins captured => ⟨scope, saved, ?_, fun param listed => by
              simp [alone] at listed⟩ }
        have body := opened opens (by rw [form]; rfl) captured
        exact before.mono (rising.monotone (Nat.le_trans onward body))
      · have awake : ¬ site.Dozes decl := by
          rintro (⟨param, listed, -⟩ | here)
          · simp [alone] at listed
          · exact captured here
        exact ⟨.of_awake order out awake, fun dozes => absurd dozes awake⟩
  | _ =>
      have awake : ¬ site.Dozes decl := not_dozes_of_isPlain (by rw [form]; rfl)
      exact ⟨.of_awake order out awake, fun dozes => absurd dozes awake⟩

/-- A body that was there is captured as it was. -/
theorem Sound.capturedAt_of_extends
    {newer : Arena}
    (sound : base.Sound)
    (extended : base.arena.Extends newer)
    (whole : base.Whole (.decl decl))
    {place : Nat}
    (captured : newer.CapturedAt decl place) :
    base.arena.CapturedAt decl place := by
  obtain ⟨plain, definition, stmt, range, defines, block, unparsed, begins⟩ :=
    captured
  rw [extended.decl_eq whole.1] at plain defines
  have inside : base.Whole (.definition definition) :=
    sound.whole_of_form whole rfl
      (DeclForm.mem_children.mpr (.inr (.inl (by rw [defines]; rfl))))
  rw [extended.definition_eq inside.1] at block
  have within : base.Whole (.stmt stmt) :=
    sound.whole_of_definition inside rfl (by
    rw [DefForm.children_of_block? block]
    exact List.mem_singleton_self _)
  rw [extended.stmt_eq within.1] at unparsed
  exact ⟨plain, definition, stmt, range, defines, block, unparsed, begins⟩

/--
Any number of steps of building leave all arranged, apart from the declarations
in whose scopes there was a right to bind. What was there is a member only if it
was one, and declared only if it was.
-/
theorem Arranged.built
    (arranged : base.Arranged order out fun _ => False)
    (steps : BuildSteps order base site)
    (inTurn : order.kept)
    (rising : StrictMono order.startOf)
    (sound : base.Sound)
    (single : base.stock.rights.Nodup)
    (still : ∀ decl, base.Unnamed decl → site.Unnamed decl)
    (kept : ∀ {decl}, base.Keeping decl → site.Keeping decl)
    (placed : ∀ piece ∈ base.stock, piece.Placed order out base base)
    (extended : base.arena.Extends site.arena) :
    site.Arranged order out (fun decl => base.arena.Holds (.decl decl) ∧
        ∃ scope ∈ base.stock.rights, base.saved.lookup decl = some scope) ∧
      (∀ {decl}, site.table.Enlists decl → base.arena.Holds (.decl decl) →
        base.table.Enlists decl) ∧
          ∀ {decl}, site.arena.Declares decl → base.arena.Holds (.decl decl) →
            base.arena.Declares decl := by
  have initial : base.Ordered order out base :=
    { sets := arranged.sets
      placed := placed
      inline := arranged.inline
      assembled := fun whole new => absurd whole.1 new
      enlisted := fun was _ => was }
  obtain ⟨confined, ordered⟩ :=
    BuildSteps.ordered steps inTurn rising sound single still initial
  obtain ⟨keeps, soundNow⟩ := BuildSteps.sound steps sound
  have enrolls := BuildSteps.enrolls steps sound
  have cases {decl : DeclId} (declares : site.arena.Declares decl) :
      base.arena.Declares decl ∨
        (site.Whole (.decl decl) ∧ ¬ base.arena.Holds (.decl decl)) :=
    ordered.declares_cases sound soundNow enrolls kept extended declares
  have same {decl : DeclId} (whole : base.Whole (.decl decl)) :
      site.arena.decl decl = base.arena.decl decl := extended.decl_eq whole.1
  have back {decl : DeclId} (was : base.arena.Declares decl)
      (dozes : site.Dozes decl) :
      base.Dozes decl ∧ ∃ scope, base.saved.lookup decl = some scope ∧
        site.saved.lookup decl = some scope ∧ scope.raw < base.table.size := by
    have whole := sound.whole_of_declares was
    have before : base.Dozes decl :=
      dozes.back (congrArg Decl.form (same whole))
      (sound.capturedAt_of_extends extended whole) fun _ _ => enrolls.members
    obtain ⟨scope, saved⟩ := (arranged.waits was id).scope_of_dozes before
    obtain ⟨_, _, split, -⟩ := List.lookup_eq_some_iff.mp saved
    exact ⟨before, scope, saved, keeps.saved saved,
      (sound.saved (decl, scope) (by simp [split])).2⟩
  have asleep {decl : DeclId} {scope : ScopeId}
      (declares : site.arena.Declares decl)
      (new : ¬ base.arena.Holds (.decl decl)) (dozes : site.Dozes decl)
      (saved : site.saved.lookup decl = some scope) : ∃ place params stop,
        Piece.asleep decl scope place params stop ∈ site.stock := by
    obtain ⟨-, rights⟩ :=
      ordered.waits rising soundNow (soundNow.whole_of_declares declares) new
    obtain ⟨home, place, params, stop, listed⟩ := rights dozes
    obtain rfl :=
      Option.some.inj ((soundNow.backed _ listed).1.symm.trans saved)
    exact ⟨place, params, stop, listed⟩
  have apart {decl other : DeclId} {scope : ScopeId}
      (was : base.arena.Declares decl)
      (waking : ¬ (base.arena.Holds (.decl decl) ∧
        ∃ scope ∈ base.stock.rights, base.saved.lookup decl = some scope))
      (dozes : site.Dozes decl) (saved : site.saved.lookup decl = some scope)
      (declares : site.arena.Declares other)
        (new : ¬ base.arena.Holds (.decl other))
      (dozesToo : site.Dozes other)
        (savedToo : site.saved.lookup other = some scope) : False := by
    obtain ⟨-, home, opened, now, room⟩ := back was dozes
    obtain rfl := Option.some.inj (now.symm.trans saved)
    obtain ⟨place, params, stop, listed⟩ :=
      asleep declares new dozesToo savedToo
    rcases confined.reach home
      (Stock.mem_rights.mpr ⟨_, listed, Multiset.mem_singleton_self _⟩)
      with right | further
    · exact waking ⟨(sound.whole_of_declares was).1, home, right, opened⟩
    · exact absurd room (Nat.not_lt.mpr further)
  refine ⟨?_, ordered.enlisted, fun declares held =>
    (cases declares).resolve_right fun new => new.2 held⟩
  refine
    { sets := ordered.sets
      settled := fun {stmt decl} form => ?_
      inline := ordered.inline
      waits := fun {decl} declares waking => ?_
      alone :=
        fun {decl other
          scope} declares declaresToo waking wakingToo dozes dozesToo saved
        savedToo => ?_
      gone := fun {decl} left => ?_ }
  · by_cases stored : base.arena.Holds (.stmt stmt)
    · rw [extended.stmt_eq stored] at form
      exact (arranged.settled form).imp_left enrolls.members
    · exact .inl (enrolls.declared soundNow kept
        (Arena.holds_of_declaration form) stored form).2
  · rcases cases declares with was | ⟨whole, new⟩
    · have whole := sound.whole_of_declares was
      refine (arranged.waits was id).onward (congrArg Decl.form (same whole))
        (sound.capturedAt_of_extends extended whole)
          (fun _ _ => enrolls.members)
        (fun param listed => ?_) keeps.saved fun {scope offset} saved before =>
          ?_
      · rw [Arena.startOf, extended.decl_eq (sound.held_of_param whole listed),
          Arena.startOf]
      · obtain ⟨_, _, split, -⟩ := List.lookup_eq_some_iff.mp saved
        have room : scope.raw < base.table.size :=
          (sound.saved (decl, scope) (by simp [split])).2
        refine before.congr
          (fun name => confined.outside room (fun right => ?_) _) ?_
        · exact waking ⟨whole.1, scope, right, saved⟩
        · intro name set found member listed
          rw [Arena.startOf, extended.decl_eq
            ((sound.members _ _ _ found).2 member listed).1.held, Arena.startOf]
    · exact (ordered.waits rising soundNow whole new).1
  · rcases cases declares with was | ⟨-, new⟩ <;>
      rcases cases declaresToo with wasToo | ⟨-, newToo⟩
    · obtain ⟨before, home, opened, now, -⟩ := back was dozes
      obtain ⟨beforeToo, homeToo, openedToo, nowToo, -⟩ := back wasToo dozesToo
      obtain rfl := Option.some.inj (now.symm.trans saved)
      obtain rfl := Option.some.inj (nowToo.symm.trans savedToo)
      exact arranged.alone was wasToo id id before beforeToo opened openedToo
    · exact (apart was waking dozes saved declaresToo newToo dozesToo
        savedToo).elim
    · exact (apart wasToo wakingToo dozesToo savedToo declares new dozes
        saved).elim
    · obtain ⟨place, params, stop, listed⟩ := asleep declares new dozes saved
      obtain ⟨placeToo, paramsToo, stopToo, listedToo⟩ :=
        asleep declaresToo newToo dozesToo savedToo
      by_contra different
      obtain ⟨rest, split⟩ := Multiset.exists_cons_of_mem listed
      rw [split] at listedToo
      refine Stock.notMem_rights_of_nodup confined.single split
        (Multiset.mem_singleton_self _)
        (Stock.mem_rights.mpr
          ⟨.asleep other scope placeToo paramsToo stopToo, ?_,
          Multiset.mem_singleton_self _⟩)
      refine (Multiset.mem_cons.mp listedToo).resolve_left fun twice => ?_
      cases twice
      exact different rfl
  · obtain ⟨declared, typed⟩ := arranged.gone left
    have whole := sound.whole_of_declares declared
    exact ⟨extended.declares declared, by rwa [same whole]⟩

end

end Worksite

end Tern
