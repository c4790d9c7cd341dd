import Tern.Proofs.Elaboration.Passes
import Tern.Proofs.Elaboration.Registering
import Tern.Proofs.Elaboration.Defining

namespace Tern

/-!
# How far elaboration has come

While the statement lists of a compilation unit are visited, what is typed is
within the statements visited so far, what is finished has come to its end, and
the declarations of all other statements are still members of overload sets.
-/

/--
Elaboration leads from one arena to another one, where typed statements keep
their forms.
-/
structure Arena.Toward (input : ElabInput) (origin older newer : Arena) :
    Prop where
  later : older.Later older.Typed newer
  framed : Arena.Framed input origin older newer

namespace Arena

variable {input : ElabInput} {origin older middle newer : Arena}

namespace Toward

theorem refl (arena : Arena) : Arena.Toward input origin arena arena where
  later := .refl _
  framed := .refl _ _ _

theorem trans
    (first : Arena.Toward input origin older middle)
    (second : Arena.Toward input origin middle newer) :
    Arena.Toward input origin older newer where
  later :=
    first.later.trans (second.later.weaken fun _ typed =>
      first.later.typed typed typed)
  framed := first.framed.trans second.framed

end Toward

/-- A statement that holds a declaration is stored. -/
theorem holds_of_declaration
    {stmt : StmtId}
    {decl : DeclId}
    (form : (older.stmt stmt).form = .declaration decl) :
    older.Holds (.stmt stmt) := by
  by_contra missing
  have past : older.stmts.size ≤ stmt.raw := Nat.le_of_not_lt missing
  simp [Arena.stmt, Array.getD_eq_getD_getElem?, past, Vacant.stmt] at form

theorem Houses.trans
    {outer middle inner : DeclId}
    (first : older.Houses outer middle)
    (second : older.Houses middle inner) :
    older.Houses outer inner := by
  induction first with
  | refl => exact second
  | template form _ inductionHypothesis =>
      exact .template form (inductionHypothesis second)

/-- What is within a template is below all that the template is below. -/
theorem Houses.owns
    {outer inner : DeclId}
    {root : Term}
    (houses : older.Houses outer inner)
    (reached : older.Owns root (.decl outer)) :
    older.Owns root (.decl inner) := by
  induction houses with
  | refl => exact reached
  | template form _ inductionHypothesis =>
      exact inductionHypothesis
        (.child reached (by simp [children, form, DeclForm.children]))

/-- Templates are around one declaration that is no template. -/
theorem Houses.unique
    {outer inner decl : DeclId}
    (houses : older.Houses outer inner)
    (plain : (older.decl inner).form.isTemplate = false)
    (other : older.Houses outer decl)
    (plainToo : (older.decl decl).form.isTemplate = false) :
    inner = decl := by
  induction houses with
  | refl inner =>
      cases other with
      | refl => rfl
      | template form _ =>
          rw [form] at plain
          cases plain
  | template form _ inductionHypothesis =>
      cases other with
      | refl =>
          rw [form] at plainToo
          cases plainToo
      | template formToo below =>
          cases form.symm.trans formToo
          exact inductionHypothesis plain below

/-- What a template is around is at its end, or in a template that is. -/
theorem Houses.cases_last
    {outer inner : DeclId}
    (houses : older.Houses outer inner) :
    outer = inner ∨ ∃ wrapper parms constraint?, older.Houses outer wrapper ∧
      (older.decl wrapper).form = .template parms constraint? inner := by
  induction houses with
  | refl => exact .inl rfl
  | @template outer _ _ parms constraint? form _ inductionHypothesis =>
      rcases inductionHypothesis with rfl |
          ⟨wrapper, others, further?, below, last⟩
      · exact .inr ⟨outer, parms, constraint?, .refl outer, form⟩
      · exact .inr ⟨wrapper, others, further?, .template form below, last⟩

namespace Framed

variable (framed : Arena.Framed input origin older newer)

include framed

/-- Templates stay around what they are around. -/
theorem houses {outer inner : DeclId} (houses : older.Houses outer inner) :
    newer.Houses outer inner := by
  induction houses with
  | refl => exact .refl _
  | template form _ inductionHypothesis =>
      rcases (framed.decl (holds_of_form form nofun)).form with same |
          ⟨_, _, _, _, was, now, -⟩
      · exact .template (same.trans form) inductionHypothesis
      · cases form.symm.trans was
        exact .template now inductionHypothesis

/-- What is finished stays so. -/
theorem phase_finished
    {decl : DeclId}
    (finished : (older.decl decl).phase = .definitionElaborated) :
    (newer.decl decl).phase = .definitionElaborated :=
  have held : older.Holds (.decl decl) :=
    holds_of_phase_ne (by rw [finished]; nofun)
  Phase.eq_of_finished finished (framed.decl held).phase

/-- Whether a statement holds a declaration does not change. -/
theorem isDeclaration_eq {stmt : StmtId} (held : older.Holds (.stmt stmt)) :
    (newer.stmt stmt).form.isDeclaration =
      (older.stmt stmt).form.isDeclaration := by
  cases framed.stmt held with
  | same same => rw [same]
  | parsed block captured parses =>
      obtain ⟨_, _, _, form⟩ := parses.stmt_form block
      rw [form, captured]
      rfl
  | wrapped was _ now _ =>
      rw [now, was]
      rfl

/--
A statement that holds a declaration goes on to hold it, or a template around
it.
-/
theorem declaration
    {stmt : StmtId}
    {decl : DeclId}
    (form : (older.stmt stmt).form = .declaration decl) :
    ∃ held, (newer.stmt stmt).form = .declaration held ∧
      newer.Houses held decl := by
  cases framed.stmt (holds_of_declaration form) with
  | same same => exact ⟨decl, same ▸ form, .refl _⟩
  | parsed _ captured _ => cases form.symm.trans captured
  | wrapped was _ now wraps =>
      cases form.symm.trans was
      obtain ⟨parms, around, -⟩ := wraps.form
      exact ⟨_, congrArg Node.form now, .template around (.refl _)⟩

end Framed

end Arena

namespace Worksite

variable {site : Worksite} (sound : site.Sound)

include sound

theorem Sound.whole_of_houses
    {outer inner : DeclId}
    (whole : site.Whole (.decl outer))
    (houses : site.arena.Houses outer inner) :
    site.Whole (.decl inner) := by
  induction houses with
  | refl => exact whole
  | template form _ inductionHypothesis =>
      exact inductionHypothesis
        (sound.whole_of_form whole form (by simp [DeclForm.children]))

/--
What two templates are around to any depth, one of them is around through the
other.
-/
private theorem Sound.houses_total
    {outer other inner : DeclId}
    (whole : site.Whole (.decl outer))
    (wholeToo : site.Whole (.decl other))
    (houses : site.arena.Houses outer inner)
    (housesToo : site.arena.Houses other inner) :
    site.arena.Houses outer other ∨ site.arena.Houses other outer := by
  induction houses with
  | refl => exact .inr housesToo
  | @template outer middle _ parms constraint? form _ inductionHypothesis =>
      have owned : .decl middle ∈ (site.arena.decl outer).form.children := by
        simp [form, DeclForm.children]
      rcases inductionHypothesis (sound.whole_of_form whole rfl owned) housesToo
        with below | above
      · exact .inl (.template form below)
      · rcases above.cases_last with rfl |
            ⟨wrapper, others, further?, around, last⟩
        · exact .inl (.template form (.refl _))
        · have same :=
            sound.forest.single whole
              (sound.whole_of_houses wholeToo around) owned
            (by simp [Arena.parts, last, DeclForm.children])
          cases same
          exact .inr around

/-- No two statements hold a declaration, or templates around it. -/
theorem Sound.holder_unique
    {first second : StmtId}
    {outer other inner : DeclId}
    (form : (site.arena.stmt first).form = .declaration outer)
    (formToo : (site.arena.stmt second).form = .declaration other)
    (houses : site.arena.Houses outer inner)
    (housesToo : site.arena.Houses other inner) :
    first = second := by
  have whole {stmt : StmtId} {decl : DeclId}
      (form : (site.arena.stmt stmt).form = .declaration decl) :
      site.Whole (.stmt stmt) ∧ site.Whole (.decl decl) ∧
        .decl decl ∈ site.arena.parts (.stmt stmt) :=
    have held : site.Whole (.stmt stmt) :=
      ⟨Arena.holds_of_declaration form, nofun⟩
    ⟨held, sound.whole_of_stmt held form (by simp [StmtForm.children]),
      by simp [Arena.parts, Arena.children, form, StmtForm.children]⟩
  obtain ⟨wholeFirst, wholeOuter, owned⟩ := whole form
  obtain ⟨wholeSecond, wholeOther, ownedToo⟩ := whole formToo
  have apart {stmt : StmtId} {holder decl : DeclId}
      (wholeStmt : site.Whole (.stmt stmt))
      (wholeHolder : site.Whole (.decl holder))
      (held : .decl decl ∈ site.arena.parts (.stmt stmt))
      (below : site.arena.Houses holder decl) : holder = decl := by
    rcases below.cases_last with same |
        ⟨wrapper, parms, constraint?, around, last⟩
    · exact same
    · cases sound.forest.single wholeStmt
        (sound.whole_of_houses wholeHolder around) held
        (by simp [Arena.parts, last, DeclForm.children])
  rcases sound.houses_total wholeOuter wholeOther houses housesToo with below |
      above
  · cases apart wholeSecond wholeOuter ownedToo below
    cases sound.forest.single wholeFirst wholeSecond owned ownedToo
    rfl
  · cases apart wholeFirst wholeOther owned above
    cases sound.forest.single wholeFirst wholeSecond owned ownedToo
    rfl

/--
A member of some overload set is one of the set of its key in its own scope.
-/
theorem Sound.member_of_enlists
    {decl : DeclId}
    (enlists : site.table.Enlists decl) :
    ∃ set, site.table.findLocal? (site.arena.decl decl).scope
      (site.arena.declKey decl) = some set ∧
      decl ∈ set := by
  obtain ⟨scope, key, set, found, member⟩ := enlists
  obtain ⟨keyed, rfl⟩ := (sound.members scope key set found).2 decl member
  exact ⟨set, by rw [Arena.declKey, Arena.keyOf_of_key? keyed.key, found],
    member⟩

end Worksite

namespace ElabState

/-- A state shows a sound worksite, where the phases tell what they have to. -/
structure At (origin : Arena) (state : ElabState) (site : Worksite) : Prop where
  shows : state.Shows site
  since : site.Since origin
  standing : site.arena.Standing []

/--
An elaborator goes on from a state to another one, both of which show worksites.
-/
structure Goes (input : ElabInput) (origin : Arena) (state after : ElabState)
    (site later : Worksite) : Prop where
  before : state.At origin site
  behind : after.At origin later
  onward : site.Onward input origin later
  later : site.arena.Later site.arena.Typed later.arena

namespace Goes

variable {input : ElabInput} {origin : Arena} {state middle after : ElabState}
  {site between later : Worksite}

theorem toward (goes : Goes input origin state after site later) :
    Arena.Toward input origin state.arena after.arena := by
  rw [goes.before.shows.arena, goes.behind.shows.arena]
  exact ⟨goes.later, goes.onward.framed⟩

theorem respects
    (goes : Goes input origin state after site later)
    (respects : site.arena.Respects later.arena) :
    state.arena.Respects after.arena := by
  rwa [goes.before.shows.arena, goes.behind.shows.arena]

theorem refl (start : state.At origin site) :
    Goes input origin state state site site where
  before := start
  behind := start
  onward := .refl start.since.sound
  later := .refl _

theorem trans
    (first : Goes input origin state middle site between)
    (second : Goes input origin middle after between later) :
    Goes input origin state after site later where
  before := first.before
  behind := second.behind
  onward := first.onward.trans second.onward
  later :=
    first.later.trans (second.later.weaken fun _ typed =>
      first.later.typed typed typed)

end Goes

end ElabState

/--
What works and completes what it has to goes on to a worksite when it is done.
-/
theorem Works.goes
    {Value : Type}
    {input : ElabInput}
    {origin : Arena}
    {site : Worksite}
    {action : Elab Value}
    {known : Worksite → Value → Prop}
    {fact : Arena → Value → Prop}
    {state after : ElabState}
    {value : Value}
    (works : Works input origin site action known)
    (completes : Completes input site.arena.Typed [] site.arena action fact)
    (start : state.At origin site)
    (run : action input state = .done value after) :
    ∃ later, ElabState.Goes input origin state after site later ∧
      known later value ∧
      fact later.arena value := by
  have completed := completes state start.shows.arena start.standing
  rw [run] at completed
  obtain ⟨later, shows, onward, fact⟩ := works.reach start.shows start.since run
  obtain ⟨order, standing, complete⟩ := completed
  rw [shows.arena] at order standing complete
  exact ⟨later, ⟨start, ⟨shows, onward.since start.since, standing⟩, onward,
    order⟩, fact, complete⟩

/--
What is typed is within statements known to be typed, declarations are members
unless the statements that hold them are listed, and what has ended is finished,
and nothing else but parameters.
-/
structure ElabState.Abreast (state : ElabState) (typed listed : List StmtId)
    (ended : List DeclId) : Prop where
  typed : ∀ {decl}, (state.arena.decl decl).phase ≠ .unelaborated →
    (state.arena.decl decl).form.isParam = false →
      ∃ stmt ∈ typed, ∃ outer, (state.arena.stmt stmt).form =
        .declaration outer ∧
        state.arena.Houses outer decl
  members : ∀ {stmt decl}, (state.arena.stmt stmt).form = .declaration decl →
    stmt ∉ listed →
    state.scopes.table.Enlists decl
  finished : ∀ {decl}, decl ∈ ended → (state.arena.decl decl).phase =
    .definitionElaborated
  ended : ∀ {decl}, (state.arena.decl decl).phase = .definitionElaborated →
    (state.arena.decl decl).form.isParam = false → decl ∈ ended

namespace ElabState.Abreast

variable {input : ElabInput} {origin : Arena} {state after : ElabState}
  {site later : Worksite}
  {typed listed : List StmtId} {ended : List DeclId}

/-- More statements may be known to be typed. -/
theorem weaken
    {more : List StmtId}
    (abreast : state.Abreast typed listed ended)
    (order : typed ⊆ more) :
    state.Abreast more listed ended :=
  { abreast with
    typed := fun reached plain =>
      have ⟨stmt, among, holds⟩ := abreast.typed reached plain
      ⟨stmt, order among, holds⟩ }

/--
A statement that is known to be typed, and what it holds, is so ever after.
-/
private theorem typed_onward
    (abreast : state.Abreast typed listed ended)
    (goes : Goes input origin state after site later)
    {decl : DeclId}
    (reached : (state.arena.decl decl).phase ≠ .unelaborated)
    (plain : (state.arena.decl decl).form.isParam = false) :
    ∃ stmt ∈ typed, ∃ outer, (after.arena.stmt stmt).form = .declaration outer ∧
      after.arena.Houses outer decl := by
  obtain ⟨stmt, listed, outer, form, houses⟩ := abreast.typed reached plain
  obtain ⟨held, now, around⟩ := goes.toward.framed.declaration form
  exact ⟨stmt, listed, held, now,
    around.trans (goes.toward.framed.houses houses)⟩

/-- What has a phase is a parameter later if it was one before. -/
private theorem isParam_eq
    (goes : Goes input origin state after site later)
    {decl : DeclId}
    (reached : (state.arena.decl decl).phase ≠ .unelaborated) :
    (after.arena.decl decl).form.isParam =
      (state.arena.decl decl).form.isParam :=
  (goes.toward.framed.decl (Arena.holds_of_phase_ne reached)).isParam_eq

/--
After something steady elaboration has come further by the declarations that
have reached a phase, and by the statements whose declarations are members no
more.
-/
private theorem steady
    {raised : DeclId → Phase → Prop}
    {lost affected : DeclId → Prop}
    {typedNow listedNow : List StmtId}
    (abreast : state.Abreast typed listed ended)
    (goes : Goes input origin state after site later)
    (steady : site.Steady raised lost affected later)
    (moreTyped : typed ⊆ typedNow)
    (moreListed : listed ⊆ listedNow)
    (raises : ∀ {decl reached}, raised decl reached →
      (after.arena.decl decl).form.isParam = false → reached = .typeElaborated ∧
        ∃ stmt ∈ typedNow, ∃ outer, (after.arena.stmt stmt).form =
          .declaration outer ∧
          after.arena.Houses outer decl)
    (stays : ∀ {stmt decl}, (after.arena.stmt stmt).form = .declaration decl →
      stmt ∉ listedNow → ¬ lost decl) :
    after.Abreast typedNow listedNow ended := by
  have phase {decl : DeclId} (plain : (after.arena.decl decl).form.isParam =
      false) :
      (after.arena.decl decl).phase = (state.arena.decl decl).phase ∨
        raised decl (after.arena.decl decl).phase := by
    rw [goes.before.shows.arena, goes.behind.shows.arena] at *
    exact (steady.phase decl).imp_right fun param =>
      param.resolve_left fun isParam => by cases isParam.symm.trans plain
  have before {decl : DeclId} (now : (after.arena.decl decl).form.isParam =
      false)
      (same : (after.arena.decl decl).phase = (state.arena.decl decl).phase)
      (reached : (after.arena.decl decl).phase ≠ .unelaborated) :
      (state.arena.decl decl).phase ≠ .unelaborated ∧
        (state.arena.decl decl).form.isParam = false := by
    have was := same ▸ reached
    exact ⟨was, (isParam_eq goes was).symm.trans now⟩
  refine ⟨fun reached now => ?_, fun {stmt decl} form new => ?_,
    fun before => goes.toward.framed.phase_finished (abreast.finished before),
      fun finished now => ?_⟩
  · rcases phase now with same | further
    · obtain ⟨reached, was⟩ := before now same reached
      obtain ⟨stmt, among, holds⟩ := abreast.typed_onward goes reached was
      exact ⟨stmt, moreTyped among, holds⟩
    · exact (raises further now).2
  · have kept := stays form new
    rw [goes.behind.shows.arena] at form
    rw [goes.behind.shows.table]
    rcases steady.stmts (Arena.holds_of_declaration form) form
      with ⟨-, before⟩ | member | lost
    · rw [← goes.before.shows.arena] at before
      have was := abreast.members before fun among => new (moreListed among)
      rw [goes.before.shows.table] at was
      exact (steady.members was).resolve_right kept
    · exact member
    · exact absurd lost kept
  · rcases phase now with same | further
    · have reached := before now same (by rw [finished]; nofun)
      exact abreast.ended (same.symm.trans finished) reached.2
    · cases finished.symm.trans (raises further now).1

/--
Where nothing but parameters reaches a phase, elaboration has come no further.
-/
theorem calm
    (abreast : state.Abreast typed listed ended)
    (goes : Goes input origin state after site later)
    (calm : site.Calm later) :
    after.Abreast typed listed ended :=
  abreast.steady goes calm (List.Subset.refl _) (List.Subset.refl _) False.elim
    fun _ _ => id

/-- Elaboration has come further by a statement whose declaration was typed. -/
theorem types
    {stmt : StmtId}
    {decl : DeclId}
    (abreast : state.Abreast typed listed ended)
    (goes : Goes input origin state after site later)
    (types : site.Types (some stmt) decl later)
    (form : (state.arena.stmt stmt).form = .declaration decl)
    (parms : ∀ inner, after.arena.Houses decl inner →
      ∀ parm ∈ (after.arena.decl inner).form.parms,
        (after.arena.decl parm).form.isParam = true) :
    after.Abreast (typed ++ [stmt]) listed ended := by
  obtain ⟨held, now, around⟩ := goes.toward.framed.declaration form
  have among : stmt ∈ typed ++ [stmt] := by simp
  refine abreast.steady goes types (List.subset_append_left _ _)
    (List.Subset.refl _) ?_ ?_
  · rintro other _ ⟨rfl, known⟩ plain
    refine ⟨rfl, stmt, among, ?_⟩
    rw [← goes.behind.shows.arena] at known
    rcases known with ⟨inner, below, rfl | parm⟩ | ⟨_, ⟨⟩, placed⟩
    · exact ⟨held, now, around.trans below⟩
    · cases (parms inner below other parm).symm.trans plain
    · exact ⟨other, placed, .refl _⟩
  · rintro other _ holds - ⟨rfl, _, ⟨⟩, moved⟩
    rw [← goes.behind.shows.arena] at moved
    have arena := goes.behind.shows.arena
    obtain rfl :=
      goes.behind.since.sound.holder_unique (arena ▸ holds) (arena ▸ now)
      (.refl _) (arena ▸ around)
    exact moved holds

/-- Statements whose declarations left their sets for others are listed. -/
theorem merge
    {stmts : List StmtId}
    (abreast : state.Abreast typed listed ended)
    (goes : Goes input origin state after site later)
    (same : later.arena = site.arena)
    (steady : site.Steady (fun _ _ => False)
      (· ∈ site.arena.declarationsAmong stmts) (fun _ => False) later) :
    after.Abreast typed (listed ++ stmts) ended := by
  refine abreast.steady goes steady (List.Subset.refl _)
    (List.subset_append_left _ _)
    False.elim fun {stmt decl} form new left => ?_
  rw [goes.behind.shows.arena, same] at form
  obtain ⟨other, among, held⟩ := List.mem_filterMap.mp left
  have formToo : (site.arena.stmt other).form = .declaration decl := by
    cases found : (site.arena.stmt other).form <;> simp_all
  obtain rfl :=
    goes.before.since.sound.holder_unique form formToo (.refl _) (.refl _)
  exact new (List.mem_append_right _ among)

/-- A declaration that was typed comes to its end. -/
theorem finish
    {decl : DeclId}
    (abreast : state.Abreast typed listed ended)
    (reached : (state.arena.decl decl).phase ≠ .unelaborated) :
    ElabState.Abreast
      { state with
        arena := state.arena.updateDecl decl fun old =>
          old.raiseTo .definitionElaborated }
      typed listed (ended ++ [decl]) := by
  have rephased := Arena.Rephased.raise state.arena decl .definitionElaborated
  have houses {outer inner : DeclId} (was : state.arena.Houses outer inner) :
      (state.arena.updateDecl decl fun old =>
        old.raiseTo .definitionElaborated).Houses outer inner := by
    induction was with
    | refl => exact .refl _
    | template form _ inductionHypothesis =>
        exact .template ((rephased.form _).trans form) inductionHypothesis
  refine ⟨fun {other} now plain => ?_, fun form new => abreast.members form new,
    fun {other} has => ?_, fun {other} now plain => ?_⟩
  · have before : (state.arena.decl other).phase ≠ .unelaborated := by
      by_cases same : other = decl
      · exact same ▸ reached
      · rwa [rephased.others other same] at now
    obtain ⟨stmt, among, outer, form, below⟩ :=
      abreast.typed before (rephased.form other ▸ plain)
    exact ⟨stmt, among, outer, form, houses below⟩
  · rcases List.mem_append.mp has with before | now
    · exact Phase.eq_of_finished (abreast.finished before) (rephased.rank other)
    · obtain rfl := List.mem_singleton.mp now
      show ((state.arena.updateDecl other _).decl other).phase = _
      rw [Arena.decl_updateDecl (Arena.holds_of_phase_ne reached)]
      exact Phase.latest_finished _
  · by_cases same : other = decl
    · simp [same]
    · rw [rephased.others other same] at now plain
      exact List.mem_append_left _ (abreast.ended now plain)

end ElabState.Abreast

end Tern
