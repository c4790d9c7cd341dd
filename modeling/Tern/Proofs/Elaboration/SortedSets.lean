import Tern.Proofs.Elaboration.ArrangedDefinitions
import Tern.Proofs.Elaboration.Memberships

namespace Tern

/-!
# Overload sets in the end

What a unit is parsed to is arranged, and so is what it is elaborated to. As
each declaration is reported once, none that has been merged away is a member.
So a declaration that a statement holds either was merged away or is a member of
its overload set, and all sets are in the order of the text.
-/

/-- Nothing is bound before anything is parsed. -/
private theorem Scopes.findLocal?_initial (scope : ScopeId) (key : Key) :
    Scopes.initial.table.findLocal? scope key = none := by
  obtain ⟨raw⟩ := scope
  cases raw <;> simp [Scopes.initial, ScopeTable.initial, ScopeTable.findLocal?,
    Bindings.find?]

/-- All is arranged before anything is parsed. -/
theorem Worksite.Arranged.initial (order : Order) (stock : Stock) :
    Worksite.Arranged order (fun _ => False) (fun _ => False)
      { arena := .empty, table := Scopes.initial.table, saved := [],
        stock := stock } := by
  have missing {stmt : StmtId} {decl : DeclId} :
      (Arena.empty.stmt stmt).form ≠ .declaration decl := fun form =>
    Arena.not_holds_empty _ (Arena.holds_of_declaration form)
  have undeclared {decl : DeclId} : ¬ Arena.empty.Declares decl := by
    rintro ⟨_, _, form, -⟩
    exact missing form
  exact
    { sets := fun _ _ _ found => by simp [Scopes.findLocal?_initial] at found
      settled := fun form => absurd form missing
      inline := fun _ _ held => absurd held (Arena.not_holds_empty _)
      waits := fun declares _ => absurd declares undeclared
      alone := fun declares => absurd declares undeclared
      gone := False.elim }

/--
A unit that was parsed from tokens is arranged, and nothing has been merged.
-/
private theorem parsedUnit_stands
    {input : ElabInput}
    {unit : StmtId}
    {parsed : ParserState}
    (scanned : input.Scanned)
    (parses : parseUnit input.names input.tokens input.options.mode =
      .done unit parsed) :
    (ElabState.afterParsing parsed).Stands input parsed.arena := by
  let parserInput : ParserInput :=
    { window := .whole input.tokens, names := input.names,
      mode := input.options.mode }
  let start : ParserState := .start parserInput.window .initial .empty
  let root : ScopeId := ScopeTable.root
  let pieces : Stock :=
    {.binder root start.position} + start.track.pieces false + {.room root}
  have grounded : start.Grounded := (History.start parserInput.window).grounded
  have listed {piece : Piece} (listed : piece ∈ pieces) :
      piece = .binder root start.position ∨ piece = .room root := by
    simpa [pieces, ParserTrack.pieces] using listed
  have ready : (start.site pieces).Sound := by
    refine (@Worksite.Sound.restock _ pieces Worksite.Sound.initial
      (fun piece among => .inr ?_)
      (fun _ among _ => absurd among (Multiset.notMem_zero _))
      (by simp [pieces, ParserTrack.pieces, Stock.claims, Piece.claims])).2
    rcases listed among with rfl | rfl
    · exact ⟨rfl, grounded.room⟩
    · exact ⟨rfl, grounded.room⟩
  have reads : input.order.Reads parserInput :=
    scanned.ascending.reads (Window.whole_tokens _) (Window.whole_closed _)
      (Window.whole_stop_le _) _ _
  have inside : start.position ≤ parserInput.window.stop :=
    (Nat.le_of_eq (Window.whole_start input.tokens)).trans (Nat.zero_le _)
  have built :=
    Builds.unit reads (List.mem_singleton_self (Piece.room root)) start false
    {.room root} ⟨rfl, grounded.wellFormed, Nat.le_refl _, inside⟩
      (by simp) ready
  have done : Parser.unit parserInput start = .done unit parsed := parses
  rw [done] at built
  obtain ⟨settled, out, more, -, steps⟩ := built
  have steps : BuildSteps input.order (start.site pieces)
      (parsed.site (out + parsed.track.pieces false + more + {.room root})) :=
        steps
  obtain ⟨keeps, sound⟩ := BuildSteps.sound steps ready
  have extended : Arena.empty.Extends parsed.arena := by
    have parsesWell :=
      parseUnit_parses input.names input.tokens input.options.mode
    rw [parses] at parsesWell
    exact parsesWell.1
  have rights : (start.site pieces).stock.rights = {root} := by
    simp [ParserState.site, pieces, ParserTrack.pieces, Stock.rights,
      Piece.rights]
  obtain ⟨arranged, -⟩ :=
    (Worksite.Arranged.initial input.order pieces).built steps trivial
    scanned.ascending.strictMono_startAt ready
      (rights ▸ Multiset.nodup_singleton _)
    (by
      rintro decl ⟨home, place, among⟩
      rcases listed among with same | same <;> cases same)
    (fun {decl} kept => by
      rcases kept with among | among <;> rcases listed among with same |
          same <;> cases same)
    (fun piece among => by
      rcases listed among with rfl | rfl
      · intro name set found
        cases (Scopes.findLocal?_initial root (.simple name)).symm.trans found
      · trivial)
    extended
  have retired : (ElabState.afterParsing parsed).Retired = fun _ => False := by
    funext decl
    simp [ElabState.Retired, ElabState.afterParsing, Findings.none]
  exact
    { wellFormed := settled.wellFormed
      sited := ⟨_, sound, id⟩
      arranged := by
        rw [retired]
        exact (arranged.awaken fun apart =>
          absurd apart.1 (Arena.not_holds_empty _)).restock 0
      told := fun {decl} gone => by
        rw [retired] at gone
        exact gone.elim }

/-- The tokens of a text lie one behind the other. -/
theorem ElabInput.scanned_scan (source : String) (options : ElabOptions) :
    ElabInput.Scanned
      { tokens := (scan .initial source).1, names := (scan .initial source).2,
        options := options } where
  aligned := (Tokens.aligned_scan .initial source).1
  ascending := Tokens.ascending_scan .initial source

namespace Compilation

variable {compilation : Compilation} {options : ElabOptions}
  {parsed : ParserState} {last : ElabState} {visits : List Visit}

/-- So do those of a compilation. -/
theorem scanned
    {source : String}
    (compiles : compile? source options = some (.ok compilation)) :
    (compilation.input options).Scanned := by
  obtain ⟨_, _, _, -, -, rfl⟩ := exists_elaborated compiles
  exact ElabInput.scanned_scan source options

/-- The unit of a compilation was arranged, and was elaborated to what is. -/
theorem Recorded.stands
    (recorded : compilation.Recorded options parsed last visits)
    (scanned : (compilation.input options).Scanned) :
    (ElabState.afterParsing parsed).Stands (compilation.input options)
        parsed.arena ∧
      ElabState.Leads (compilation.input options) parsed.arena
        (.afterParsing parsed) last := by
  have start : (ElabState.afterParsing parsed).Stands
      (compilation.input options) parsed.arena :=
    parsedUnit_stands scanned recorded.parses
  have plain := (Elab.Records.unit compilation.unit).run_eq
    (compilation.input options) (.afterParsing parsed)
  rw [recorded.elaborates] at plain
  exact ⟨start, start.elaborateUnit scanned
    (parsedUnit_laid scanned.aligned recorded.parses).1 plain⟩

end Compilation

/--
A statement that holds a declaration goes on to hold it, or else a template that
starts where the declaration does.
-/
private theorem Arena.Framed.declaration_starts
    {input : ElabInput}
    {origin older newer : Arena}
    (framed : Arena.Framed input origin older newer)
    {stmt : StmtId}
    {decl : DeclId}
    (whole : older.Holds (.decl decl))
    (form : (older.stmt stmt).form = .declaration decl) :
    ∃ outer, (newer.stmt stmt).form = .declaration outer ∧
      newer.Houses outer decl ∧
      newer.startOf outer = older.startOf decl := by
  have kept : newer.startOf decl = older.startOf decl :=
    congrArg Span.start (framed.decl whole).span
  cases framed.stmt (holds_of_declaration form) with
  | same same => exact ⟨decl, same ▸ form, .refl _, kept⟩
  | parsed _ captured _ => cases form.symm.trans captured
  | wrapped was _ now wraps =>
      cases form.symm.trans was
      obtain ⟨parms, around, -⟩ := wraps.form
      exact ⟨_, congrArg Node.form now, .template around (.refl _),
        (congrArg Span.start wraps.span).trans kept⟩

namespace ElabState.Stands

variable {input : ElabInput} {origin : Arena} {state : ElabState}

/--
As long as nothing is reported twice, what has been merged away is no member.
-/
private theorem not_enlists_of_retired
    (stands : state.Stands input origin)
    (once : (state.findings.memberships.map Membership.decl).Nodup)
    {decl : DeclId}
    (retired : state.Retired decl) :
    ¬ state.scopes.table.Enlists decl := fun enlists =>
  absurd ((stands.told retired).2 enlists)
    (Nat.not_le.mpr
      (Nat.lt_succ_of_le (List.nodup_iff_count_le_one.mp once decl)))

/--
Then a declaration that a statement holds was merged away or is a member, and
not both.
-/
theorem settled
    (stands : state.Stands input origin)
    (once : (state.findings.memberships.map Membership.decl).Nodup)
    {stmt : StmtId}
    {decl : DeclId}
    (form : (state.arena.stmt stmt).form = .declaration decl) :
    Xor (state.Retired decl) (decl ∈ state.overloads decl) := by
  obtain ⟨stock, since⟩ := stands.sited
  have member (enlists : state.scopes.table.Enlists decl) :
      decl ∈ state.overloads decl := by
    obtain ⟨set, found, member⟩ := since.sound.member_of_enlists enlists
    have found : state.scopes.findLocal? (state.arena.decl decl).scope
        (state.arena.declKey decl) =
        some set := found
    rwa [overloads, Scopes.setAt, found]
  have enlists (member : decl ∈ state.overloads decl) :
      state.scopes.table.Enlists decl := by
    cases found : state.scopes.findLocal? (state.arena.decl decl).scope
        (state.arena.declKey decl) with
    | none => simp [overloads, Scopes.setAt, found] at member
    | some set =>
        exact ⟨_, _, set,
          found, by simpa [overloads, Scopes.setAt, found] using member⟩
  rcases stands.arranged.settled form with listed | retired
  · exact .inr ⟨member listed, fun retired =>
      stands.not_enlists_of_retired once retired listed⟩
  · exact .inl ⟨retired, fun listed =>
      stands.not_enlists_of_retired once retired (enlists listed)⟩

/--
Then the members of all overload sets start one behind the other. In one scope a
minted name belongs to one declaration alone.
-/
private theorem ascending
    (stands : state.Stands input origin)
    (once : (state.findings.memberships.map Membership.decl).Nodup)
    {scope : ScopeId}
    {key : Key}
    {set : OverloadSet}
    (found : state.scopes.findLocal? scope key = some set) :
    set.Pairwise fun first second =>
      state.arena.startOf first < state.arena.startOf second := by
  obtain ⟨stock, since⟩ := stands.sited
  obtain ⟨distinct, keyed⟩ := since.sound.members scope key set found
  cases key with
  | simple name =>
      have counts {decl : DeclId} (listed : decl ∈ set) :
          ¬ state.Retired decl := fun retired =>
        stands.not_enlists_of_retired once retired
          ⟨scope, _, set, found, listed⟩
      exact (stands.arranged.sets found).imp_of_mem fun here there order =>
        order (counts here) (counts there)
  | placeholder number =>
      refine distinct.imp_of_mem fun {first second} here there different => ?_
      obtain ⟨named, inside⟩ := keyed first here
      obtain ⟨namedToo, insideToo⟩ := keyed second there
      rcases since.sound.distinct.apart first second number named namedToo
        with same | ⟨-, further⟩ |
        ⟨-, further⟩
      · exact absurd same different
      · rw [inside, insideToo] at further
        exact absurd further (Nat.lt_irrefl _)
      · rw [inside, insideToo] at further
        exact absurd further (Nat.lt_irrefl _)

end ElabState.Stands

/--
The overload sets that a compilation ends with, given what its unit was parsed
to.
-/
structure Compilation.Sorts (compilation : Compilation) (parsed : Arena) :
    Prop where
  /--
  What a statement holds was merged away, or it is in the set of its own scope
  and key.
  -/
  settled : ∀ {stmt decl}, (compilation.arena.stmt stmt).form =
    .declaration decl →
    Xor (decl ∈ compilation.findings.merges.map Prod.fst)
      (decl ∈ compilation.scopes.setAt (compilation.arena.decl decl).scope
        (compilation.arena.declKey decl))
  /-- The members of each set start one behind the other. -/
  ascending : ∀ {scope key set}, compilation.scopes.findLocal? scope key =
    some set →
    set.Pairwise fun first second =>
      compilation.arena.startOf first < compilation.arena.startOf second
  /--
  A template that a statement holds in place of a function starts where that
  does.
  -/
  placed : ∀ {stmt decl}, (parsed.stmt stmt).form = .declaration decl →
    ∃ outer, (compilation.arena.stmt stmt).form = .declaration outer ∧
      compilation.arena.Houses outer decl ∧
        compilation.arena.startOf outer = parsed.startOf decl

/-- What is on record is sorted in the end. -/
theorem Compilation.Recorded.sorts
    {compilation : Compilation}
    {options : ElabOptions}
    {parsed : ParserState}
    {last : ElabState}
    {visits : List Visit}
    (recorded : compilation.Recorded options parsed last visits)
    (scanned : (compilation.input options).Scanned) :
    compilation.Sorts parsed.arena := by
  have once := recorded.reportsMembers.once
  obtain ⟨start, leads⟩ := recorded.stands scanned
  cases compilation
  obtain ⟨-, -, rfl, rfl, rfl⟩ := recorded
  exact
    { settled := leads.stands.settled once
      ascending := leads.stands.ascending once
      placed := fun {stmt decl} form => by
        obtain ⟨_, since⟩ := start.sited
        exact leads.framed.declaration_starts
          (since.sound.whole_of_declares (Arena.declares_of_stmt form)).1
            form }

/--
Of every text that compiles, in either mode, each declaration that a statement
holds was merged away or is a member of its overload set, and not both. The
members of each set stand in the order of the text.
-/
theorem compiled_sets
    {source : String}
    {options : ElabOptions}
    {compilation : Compilation}
    (compiles : compile? source options = some (.ok compilation)) :
    ∃ parsed, parseUnit compilation.names compilation.tokens options.mode =
        .done compilation.unit parsed ∧ compilation.Sorts parsed.arena :=
  have ⟨parsed, _, _, recorded⟩ := Compilation.exists_recorded compiles
  ⟨parsed, recorded.parses, recorded.sorts (Compilation.scanned compiles)⟩

/--
A forward declaration leaves its set, as does the template around one in a
class.
-/
theorem compiled_sets_mergedTemplate :
    ∃ compilation,
      compile?
        "def f(a: int); class C \x7b def g(x); def g(x) = 1; \x7d def f(a: int) = 0;"
          { mode := .deferred, openMethods := false } = some (.ok compilation) ∧
        (compilation.findings.merges.length = 2 ∧
          ∃ parsed, parseUnit compilation.names compilation.tokens .deferred =
              .done compilation.unit parsed ∧
                compilation.Sorts parsed.arena) := by
  obtain ⟨compilation, compiles, two⟩ := @exists_compilation
    (compile?
      "def f(a: int); class C \x7b def g(x); def g(x) = 1; \x7d def f(a: int) = 0;"
      { mode := .deferred, openMethods := false })
    (fun compilation => compilation.findings.merges.length == 2)
      (by decide +kernel)
  exact ⟨compilation, compiles, by simpa using two, compiled_sets compiles⟩

end Tern
