import Mathlib.Data.Multiset.AddSub
import Mathlib.Logic.Relation
import Tern.Proofs.Scope.Contents
import Tern.Proofs.Term.Reading

namespace Tern

/-!
# What building can do

All that a parser does to the arena and the scopes is done in a few kinds of
steps. A step says what it needs: a term is added on top of finished terms that
nothing owns yet, a declaration is bound once and by whoever holds the scope.
What a step needs and what it gives are pieces in a stock that stands beside
the arena and the scopes. Most pieces are used up by the step that needs them;
some only have to be there.

What is said of every step holds of all that parsers and elaborators do.
-/

/-- What a step of building may need or give. -/
inductive Piece where
  | /-- A finished term that nothing owns yet. -/
    term (term : Term)
  | /-- A declaration that has its slot, but not yet its form. -/
    begun (decl : DeclId)
  | /-- A template without a name, begun at a place in a scope. -/
    unnamed (decl : DeclId) (scope : ScopeId) (place : Nat)
  | /-- A declaration that is not bound,
      begun at a place, with its scope and key. -/
    fresh (decl : DeclId) (scope : ScopeId) (key : Key) (place : Nat)
  | /-- A declaration began at a place. -/
    since (decl : DeclId) (place : Nat)
  | /-- A declaration without a scope of its own. -/
    unsaved (decl : DeclId)
  | /-- The right to bind in a scope,
      all that is bound there having begun before a place. -/
    binder (scope : ScopeId) (place : Nat)
  | /-- The right to bind in the scope of a declaration, its parameters first,
      up to a place. -/
    asleep (decl : DeclId) (scope : ScopeId) (place : Nat)
      (params : List (DeclId × Key × Nat)) (stop : Nat)
  | /-- There is a name with a key, which may be plain. -/
    named (name : NameId) (key : Key) (plain : Bool)
  | /-- A minted name that no declaration has. -/
    unspent (name : NameId)
  | /-- A declaration is bound in a scope under a key. -/
    bound (decl : DeclId) (scope : ScopeId) (key : Key)
  | /-- A declaration has a scope of its own. -/
    saved (decl : DeclId) (scope : ScopeId)
  | /-- There is a scope. -/
    room (scope : ScopeId)
  | /-- The body that a term is may be captured only if a place is given,
      and begins behind it. -/
    opens (term : Term) (place? : Option Nat)
deriving DecidableEq

/-- The pieces at hand. -/
abbrev Stock := Multiset Piece

/-- What is built on, with the pieces at hand. -/
structure Worksite where
  arena : Arena
  table : ScopeTable
  saved : List (DeclId × ScopeId)
  stock : Stock

/--
The order of declarations, where it is kept: the offsets at which the tokens of
a text start.
-/
structure Order where
  /-- Whether order is kept at all. -/
  kept : Prop
  /-- Whether types, initializers and bodies are parsed on the spot. -/
  eager : Prop
  startOf : Nat → Nat

/-- No order is kept. -/
def Order.none : Order :=
  { kept := False, eager := True, startOf := id }

/-- What stands in the slot of a declaration until it gets its final form. -/
def DeclForm.hollow : DeclForm → DeclForm
  | .object role _ _ => .object role .invalid .invalid
  | .parameter _ => .parameter .invalid
  | .callable role _ _ _ => .callable role [] .invalid .invalid
  | .classType _ _ => .classType .invalid .invalid
  | .typeParameter index _ => .typeParameter index none
  | .concept _ _ => .concept [] .invalid
  | .namespaceBlock _ => .namespaceBlock .invalid
  | .template _ _ _ => .template [] none .invalid

/--
Whether nothing that stands in a declaration of a form may be bound later on.
-/
def DeclForm.isPlain : DeclForm → Bool
  | .callable _ _ _ _ => false
  | .classType _ _ => false
  | _ => true

/-- Hollowed out, a form stays what it is. -/
@[simp]
theorem DeclForm.isPlain_hollow (form : DeclForm) :
    form.hollow.isPlain = form.isPlain := by
  cases form <;> rfl

/-- A term is no captured body, or one that begins behind a place. -/
def Arena.Opens (arena : Arena) (place? : Option Nat) : Term → Prop
  | .stmt stmt => ∀ range, (arena.stmt stmt).form = .unparsed range →
      ∃ place, place? = some place ∧ place ≤ range.start
  | .definition definition =>
      ∀ stmt, (arena.definition definition).form.block? = some stmt →
      ∀ range, (arena.stmt stmt).form = .unparsed range →
        ∃ place, place? = some place ∧ place ≤ range.start
  | _ => True

/-- The pieces that finished terms are. -/
def Piece.terms (terms : List Term) : Stock :=
  ↑(terms.map Piece.term)

/-- The pieces that a name is by its key. -/
def Piece.naming (name : NameId) : Option Key → Stock
  | some key => {.named name key true}
  | none => 0

/--
What a declaration is given a name of a key for: a minted one is given once.
-/
def Piece.fee (name : NameId) : Key → Stock
  | .simple _ => 0
  | .placeholder _ => {.unspent name}

/-- A term is no minted name. -/
def Arena.Spells (arena : Arena) : Term → Prop
  | .name name => ∀ number, (arena.name name).form ≠ .placeholder number
  | _ => True

/-- The pieces that a term added is; a whole unit is none. -/
def Arena.loose (arena : Arena) (term : Term) : Stock :=
  match term with
  | .name name => .term term ::ₘ Piece.naming name (arena.name name).form.key?
  | _ => if arena.isUnit term then 0 else {.term term}

/--
Parameters that are not bound, each with its key and the place at which it
began.
-/
def Piece.slated (scope : ScopeId) (params : List (DeclId × Key × Nat)) :
    Stock :=
  ↑(params.map fun param => Piece.fresh param.1 scope param.2.1 param.2.2)

/-- Some places follow each other between two places. -/
def Rising (start : Nat) (places : List Nat) (stop : Nat) : Prop :=
  places.Pairwise (· < ·) ∧ ∀ place ∈ places, start ≤ place ∧ place < stop

/-- What a term mentions and keeps is in the stock. -/
structure Stock.Warrants
    (stock : Stock)
    (order : Order)
    (after : Arena)
    (term : Term) :
    Prop where
  mentions : ∀ mention ∈ after.mentions term, ∃ key plain scope,
    Piece.named mention.1 key plain ∈ stock ∧
      Piece.bound mention.2 scope key ∈ stock
  template : ∀ template ∈ after.template? term, ∃ scope key,
    Piece.bound template scope key ∈ stock
  scope : ∀ scope ∈ after.scope? term, Piece.room scope ∈ stock
  declared : ∀ decl ∈ after.declared? term, ∃ scope key,
    Piece.bound decl scope key ∈ stock
  inline : order.kept → order.eager → ∀ stmt, term = .stmt stmt →
    (after.stmt stmt).form.isUnparsed = false

/-- The parameters that a declaration is called with belong to its own scope. -/
def Stock.Locates (stock : Stock) (decl : DeclId) : DeclForm → Prop
  | .callable _ params _ _ => ∃ scope, Piece.saved decl scope ∈ stock ∧
      ∀ param ∈ params,
      (∃ key, Piece.bound param scope key ∈ stock) ∨
        ∃ place slated stop key begun,
          Piece.asleep decl scope place slated stop ∈ stock ∧
          (param, key, begun) ∈ slated
  | _ => True

/--
A declaration whose body may be captured is ready to bind what stands in it: its
parameters are bound already, or it keeps the right to bind them.
-/
def Stock.Rests (stock : Stock) (eager : Prop) (decl : DeclId) : DeclForm → Prop
  | .callable _ params _ definition =>
      (eager → ∀ param ∈ params, ∃ scope key, Piece.bound param scope key ∈
        stock) ∧
        (¬ eager → ∃ scope place slated stop,
          Piece.asleep decl scope place slated stop ∈ stock ∧
            slated.map Prod.fst = params ∧
            Piece.opens (.definition definition) (some stop) ∈ stock)
  | .classType _ definition =>
      ¬ eager → Piece.opens (.definition definition) none ∈ stock ∨
        ∃ scope place stop,
        Piece.asleep decl scope place [] stop ∈ stock ∧
          Piece.opens (.definition definition) (some stop) ∈ stock
  | _ => True

/--
Without a place for what is bound later on, a declaration of a form locates all
and is ready.
-/
theorem Stock.readies_of_isPlain
    {form : DeclForm}
    (plain : form.isPlain = true)
    (stock : Stock)
    (eager : Prop)
    (decl : DeclId) :
    stock.Locates decl form ∧ stock.Rests eager decl form := by
  cases form with
  | callable => cases plain
  | classType => cases plain
  | _ => exact ⟨trivial, trivial⟩

/--
A declaration in a scope may have a name of a key if the name is paid for, or if
the declaration is a template around one that is bound under that key further
in.
-/
inductive Stock.Entitles
    (stock : Stock)
    (scope : ScopeId)
    (form : DeclForm)
    (name : NameId)
    (key : Key) : Stock → Prop where
  | paid : Entitles stock scope form name key (Piece.fee name key)
  | shared {parms : List DeclId} {constraint? : Option ExprId} {inner : DeclId}
      {region : ScopeId}
      (wraps : form = .template parms constraint? inner)
        (within : scope.raw < region.raw)
      (bound : Piece.bound inner region key ∈ stock) :
        Entitles stock scope form name key 0

/-- One step of building. -/
inductive BuildStep (order : Order) : Worksite → Worksite → Prop where
  | /-- Add a term that is no declaration, nor a minted name,
      on top of finished ones. -/
    add {arena after : Arena} {table : ScopeTable}
      {saved : List (DeclId × ScopeId)}
      {rest : Stock} {term : Term} (adds : arena.Adds term after)
        (spelled : after.Spells term)
      (warranted : rest.Warrants order after term) :
      BuildStep order
        { arena := arena, table := table, saved := saved
          stock := Piece.terms (after.children term) + rest }
        { arena := after, table := table, saved := saved,
          stock := after.loose term + rest }
  | /-- Mint a name. -/
    mint {arena : Arena} {table : ScopeTable} {saved : List (DeclId × ScopeId)}
      {rest : Stock}
      (span : Span) :
      BuildStep order
        { arena := arena, table := table, saved := saved, stock := rest }
        { arena := (arena.addPlaceholder span).2, table := table, saved := saved
          stock := .unspent (arena.addPlaceholder span).1 ::ₘ
            ((arena.addPlaceholder span).2.loose
              (.name (arena.addPlaceholder span).1) + rest) }
  | /-- Add a declaration, which gets its name and its form later. -/
    begin {arena : Arena} {table : ScopeTable} {saved : List (DeclId × ScopeId)}
      {rest : Stock}
      {place : Nat} (decl : Decl) (hollow : decl.form.hollow = decl.form)
      (nameless : decl.name = .invalid) (early : decl.phase = .unelaborated)
      (room : Piece.room decl.scope ∈ rest)
      (starts : order.kept → decl.span.start = order.startOf place) :
      BuildStep order
        { arena := arena, table := table, saved := saved, stock := rest }
        { arena := (arena.addDecl decl).2, table := table, saved := saved
          stock :=
            .begun (arena.addDecl decl).1 ::ₘ .unsaved
              (arena.addDecl decl).1 ::ₘ
            .unnamed (arena.addDecl decl).1 decl.scope place ::ₘ rest }
  | /-- Give a declaration an identifier for a name. -/
    christen {arena : Arena} {table : ScopeTable}
      {saved : List (DeclId × ScopeId)} {rest : Stock}
      {decl : DeclId} {name : NameId} {spelling : Name} {scope : ScopeId}
        {place : Nat}
      (named : Piece.named name (.simple spelling) true ∈ rest) :
      BuildStep order
        { arena := arena, table := table, saved := saved
          stock := .unnamed decl scope place ::ₘ rest }
        { arena := arena.updateDecl decl fun old => { old with name := name }
          table := table, saved := saved
          stock := .fresh decl scope (.simple spelling) place ::ₘ rest }
  | /-- Give a declaration that has a name its final form. -/
    complete {arena : Arena} {table : ScopeTable}
      {saved : List (DeclId × ScopeId)} {rest : Stock}
      {decl : DeclId} {form : DeclForm} {span : Span}
      (located : rest.Locates decl form)
      (named : ∃ scope spelling, Piece.bound decl scope (.simple spelling) ∈
        rest ∨
        ∃ place, Piece.fresh decl scope (.simple spelling) place ∈ rest)
      (starts : order.kept → ∃ place, Piece.since decl place ∈ rest ∧
        span.start = order.startOf place)
      (rests : order.kept → rest.Rests order.eager decl form) :
      BuildStep order
        { arena := arena, table := table, saved := saved
          stock := .begun decl ::ₘ (Piece.terms form.children + rest) }
        { arena := arena.updateDecl decl fun old =>
          { old with form := form, span := span }
          table := table, saved := saved, stock := .term (.decl decl) ::ₘ rest }
  | /-- Give a declaration its name and its final form at once. -/
    dub {arena : Arena} {table : ScopeTable} {saved : List (DeclId × ScopeId)}
      {rest fee : Stock}
      {decl : DeclId} {name : NameId} {key : Key} {scope : ScopeId}
        {place : Nat} {form : DeclForm}
      {span : Span}
      (named : Piece.named name key true ∈ rest)
      (entitled : rest.Entitles scope form name key fee)
      (plain : form.isPlain = true)
      (starts : order.kept → span.start = order.startOf place) :
      BuildStep order
        { arena := arena, table := table, saved := saved
          stock := .begun decl ::ₘ .unnamed decl scope place ::ₘ
            (fee + (Piece.terms form.children + rest)) }
        { arena := arena.updateDecl decl fun old =>
            { old with name := name, form := form, span := span }
          table := table, saved := saved
          stock := .term (.decl decl) ::ₘ .fresh decl scope key place ::ₘ rest }
  | /-- Bind a declaration in its scope, behind all that is bound there. -/
    bind {arena : Arena} {table : ScopeTable} {saved : List (DeclId × ScopeId)}
      {rest : Stock}
      {decl : DeclId} {scope : ScopeId} {key : Key} {place lower : Nat}
        (behind : lower ≤ place) :
      BuildStep order
        { arena := arena, table := table, saved := saved
          stock :=
            .fresh decl scope key place ::ₘ .binder scope lower ::ₘ rest }
        { arena := arena
          table :=
            table.put scope key ((table.findLocal? scope key).getD [] ++ [decl])
          saved := saved
          stock :=
            .binder scope (place + 1) ::ₘ .bound decl scope key ::ₘ rest }
  | /-- Add a scope inside another one. -/
    push {arena : Arena} {table : ScopeTable} {saved : List (DeclId × ScopeId)}
      {rest : Stock}
      {kind : ScopeKind} {parent : ScopeId} (room : Piece.room parent ∈ rest) :
      BuildStep order
        { arena := arena, table := table, saved := saved, stock := rest }
        { arena := arena
          table :=
            table.push { parent? := some parent, kind := kind, bindings := [] }
          saved := saved
          stock := .room { raw := table.size } ::ₘ .binder { raw := table.size }
            0 ::ₘ rest }
  | /-- Save a scope for a declaration. -/
    save {arena : Arena} {table : ScopeTable} {saved : List (DeclId × ScopeId)}
      {rest : Stock}
      {decl : DeclId} {scope : ScopeId} (room : Piece.room scope ∈ rest) :
      BuildStep order
        { arena := arena, table := table, saved := saved,
          stock := .unsaved decl ::ₘ rest }
        { arena := arena, table := table, saved := (decl, scope) :: saved
          stock := .saved decl scope ::ₘ rest }
  | /-- Keep the right to bind in a scope for later places. -/
    relax {site : Worksite} {rest : Stock} {scope : ScopeId}
      {place further : Nat}
      (onward : place ≤ further)
        (stock : site.stock = .binder scope place ::ₘ rest) :
      BuildStep order site { site with stock := .binder scope further ::ₘ rest }
  | /-- Where no order is kept, anyone may bind. -/
    claim {site : Worksite} {scope : ScopeId} {place : Nat}
      (unordered : ¬ order.kept)
      (room : Piece.room scope ∈ site.stock) :
      BuildStep order site
        { site with stock := .binder scope place ::ₘ site.stock }
  | /-- Note that a declaration is bound under an identifier. -/
    noteMember {site : Worksite} {decl : DeclId} {scope : ScopeId} {name : Name}
      {set : OverloadSet}
      (found : site.table.findLocal? scope (.simple name) = some set)
        (member : decl ∈ set) :
      BuildStep order site
        { site with stock := .bound decl scope (.simple name) ::ₘ site.stock }
  | /-- Note once more that a declaration is bound. -/
    noteAgain {site : Worksite} {decl : DeclId} {scope : ScopeId} {key : Key}
      (bound : Piece.bound decl scope key ∈ site.stock) :
      BuildStep order site
        { site with stock := .bound decl scope key ::ₘ site.stock }
  | /-- Note the name of a declaration that is bound. -/
    noteBound {site : Worksite} {decl : DeclId} {scope : ScopeId} {key : Key}
      (bound : Piece.bound decl scope key ∈ site.stock) :
      BuildStep order site
        { site with stock := .named (site.arena.decl decl).name key true ::ₘ
          site.stock }
  | /-- Note where a declaration that is not bound began. -/
    noteSince {site : Worksite} {decl : DeclId} {scope : ScopeId} {key : Key}
      {place : Nat}
      (fresh : Piece.fresh decl scope key place ∈ site.stock) :
      BuildStep order site
        { site with stock := .since decl place ::ₘ site.stock }
  | /-- Note the key of an applied name. -/
    noteApplied {site : Worksite} {name : NameId} {template : DeclId}
      {scope : ScopeId} {key : Key}
      (held : site.arena.Holds (.name name))
      (applied : (site.arena.name name).form.template? = some template)
      (bound : Piece.bound template scope key ∈ site.stock) :
      BuildStep order site
        { site with stock := .named name key false ::ₘ site.stock }
  | /-- Note where the body that a term is begins, if it is captured. -/
    noteOpens {site : Worksite} {term : Term} {place? : Option Nat}
      (held : site.arena.Holds term) (opens : site.arena.Opens place? term) :
      BuildStep order site
        { site with stock := .opens term place? ::ₘ site.stock }
  | /-- Note where a body that a definition has begins, if it is captured. -/
    noteBody {site : Worksite} {definition : DefId} {stmt : StmtId}
      {place? : Option Nat}
      (held : site.arena.Holds (.definition definition))
      (block : (site.arena.definition definition).form.block? = some stmt)
      (opens : Piece.opens (.stmt stmt) place? ∈ site.stock) :
      BuildStep order site
        { site with stock := .opens (.definition definition) place? ::ₘ
          site.stock }
  | /-- Leave the parameters and the body of a declaration for later. -/
    doze {site : Worksite} {rest : Stock} {decl : DeclId} {scope : ScopeId}
      {place stop : Nat}
      {params : List (DeclId × Key × Nat)}
        (saved : Piece.saved decl scope ∈ rest)
      (rising : Rising place (params.map fun param => param.2.2) stop)
        (before : place ≤ stop)
      (stock : site.stock =
        .binder scope place ::ₘ (Piece.slated scope params + rest)) :
      BuildStep order site
        { site with stock := .asleep decl scope place params stop ::ₘ rest }

/-- Any number of steps of building. -/
abbrev BuildSteps (order : Order) : Worksite → Worksite → Prop :=
  Relation.ReflTransGen (BuildStep order)

end Tern
