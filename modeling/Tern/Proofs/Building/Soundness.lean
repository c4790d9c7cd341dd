import Mathlib.Data.Multiset.Bind
import Tern.Grammar.Types
import Tern.Proofs.Building.Machine
import Tern.Proofs.Term.Forest

namespace Tern

/-!
# Sound worksites

On a sound worksite the terms make up a forest, every declaration that a term
mentions has the key of the name it is mentioned by, every member of an overload
set has the key and the scope of that set, and all pieces at hand are what they
claim to be. Minted names tell declarations apart. Every step of building keeps
a worksite sound.
-/

/-- What is claimed by a piece, so that no other piece may claim it. -/
inductive Claim where
  | term (term : Term)
  | begun (decl : DeclId)
  | unbound (decl : DeclId)
  | unsaved (decl : DeclId)
  | unspent (name : NameId)
deriving DecidableEq

/-- The claims that a piece is. -/
def Piece.claims : Piece → Multiset Claim
  | .term loose => {.term loose}
  | .begun decl => {.begun decl}
  | .unnamed decl _ _ => {.unbound decl}
  | .fresh decl _ _ _ => {.unbound decl}
  | .unsaved decl => {.unsaved decl}
  | .unspent name => {.unspent name}
  | .asleep _ _ _ params _ => ↑(params.map fun param => Claim.unbound param.1)
  | _ => 0

/-- The claims that some pieces are. -/
def Stock.claims (stock : Stock) : Multiset Claim :=
  stock.bind Piece.claims

/-- The declaration or the term that a claim is about. -/
def Claim.subject : Claim → Term
  | .term loose => loose
  | .begun decl => .decl decl
  | .unbound decl => .decl decl
  | .unsaved decl => .decl decl
  | .unspent name => .name name

namespace Stock

@[simp]
theorem claims_zero : claims 0 = 0 :=
  rfl

@[simp]
theorem claims_cons (piece : Piece) (stock : Stock) :
    claims (piece ::ₘ stock) = piece.claims + stock.claims :=
  Multiset.cons_bind ..

@[simp]
theorem claims_add (first second : Stock) :
    claims (first + second) = first.claims + second.claims :=
  Multiset.add_bind ..

@[simp]
theorem claims_terms (terms : List Term) :
    claims (Piece.terms terms) = ↑(terms.map Claim.term) := by
  induction terms with
  | nil => rfl
  | cons term terms inductionHypothesis =>
      change claims (.term term ::ₘ Piece.terms terms) = _
      rw [claims_cons, inductionHypothesis]
      rfl

@[simp]
theorem claims_slated (scope : ScopeId) (params : List (DeclId × Key × Nat)) :
    claims (Piece.slated scope params) =
      ↑(params.map fun param => Claim.unbound param.1) := by
  induction params with
  | nil => rfl
  | cons param params inductionHypothesis =>
      change claims (.fresh param.1 scope param.2.1 param.2.2 ::ₘ Piece.slated
        scope params) = _
      rw [claims_cons, inductionHypothesis]
      rfl

theorem mem_claims {stock : Stock} {claim : Claim} :
    claim ∈ stock.claims ↔ ∃ piece ∈ stock, claim ∈ piece.claims :=
  Multiset.mem_bind

/-- A term is claimed if it is at hand. -/
theorem term_mem_claims {stock : Stock} {term : Term} :
    .term term ∈ stock.claims ↔ .term term ∈ stock := by
  refine mem_claims.trans
    ⟨?_, fun listed => ⟨_, listed, Multiset.mem_singleton_self _⟩⟩
  rintro ⟨piece, listed, claims⟩
  cases piece with
  | term other =>
      obtain rfl : term = other := by simpa [Piece.claims] using claims
      exact listed
  | _ => simp [Piece.claims] at claims

/-- Fewer pieces claim no more. -/
theorem claims_le {fewer stock : Stock} (le : fewer ≤ stock) :
    fewer.claims ≤ stock.claims := by
  obtain ⟨more, rfl⟩ := Multiset.le_iff_exists_add.mp le
  rw [claims_add]
  exact Multiset.le_add_right _ _

/--
As long as claims are made once, a piece with a claim is in no two parts of the
stock.
-/
theorem notMem_of_nodup
    {stock first second : Stock}
    (linear : stock.claims.Nodup)
    (parts : first + second ≤ stock)
    {piece : Piece}
    {claim : Claim}
    (claims : claim ∈ piece.claims)
    (listed : piece ∈ first) :
    piece ∉ second := fun again => by
  have apart := Multiset.nodup_of_le (claims_le parts) linear
  rw [claims_add, Multiset.nodup_add] at apart
  exact Multiset.disjoint_left.mp apart.2.2
    (mem_claims.mpr ⟨piece, listed, claims⟩)
    (mem_claims.mpr ⟨piece, again, claims⟩)

/-- So terms at hand beside other pieces are none of those. -/
theorem term_notMem_of_nodup
    {stock rest : Stock}
    {terms : List Term}
    {term : Term}
    (linear : stock.claims.Nodup)
    (parts : Piece.terms terms + rest ≤ stock)
    (listed : term ∈ terms) :
    .term term ∉ rest :=
  notMem_of_nodup linear parts (Multiset.mem_singleton_self _)
    (Multiset.mem_coe.mpr (List.mem_map_of_mem listed))

end Stock

namespace Worksite

variable (site : Worksite)

/-- A declaration has its slot, but not yet its form. -/
def Begun (decl : DeclId) : Prop :=
  Piece.begun decl ∈ site.stock

/-- A declaration has no name yet. -/
def Unnamed (decl : DeclId) : Prop :=
  ∃ scope place, Piece.unnamed decl scope place ∈ site.stock

/-- A term is stored, and is no declaration that waits for its form. -/
def Whole (term : Term) : Prop :=
  site.arena.Holds term ∧ ∀ decl, term = .decl decl → ¬ site.Begun decl

/-- A declaration has a name, which has a key of its own. -/
structure Keyed (decl : DeclId) (key : Key) : Prop where
  held : site.arena.Holds (.decl decl)
  christened : ¬ site.Unnamed decl
  name : site.arena.Holds (.name (site.arena.decl decl).name)
  key : (site.arena.name (site.arena.decl decl).name).form.key? = some key

/-- A name has a key, of its own or from what it applies. -/
def Named (name : NameId) (key : Key) : Prop :=
  site.arena.Holds (.name name) ∧
    ((site.arena.name name).form.key? = some key ∨
      ∃ template, (site.arena.name name).form.template? = some template ∧
        site.Keyed template key)

/-- A declaration is a member of no overload set. -/
def Unbound (decl : DeclId) : Prop :=
  ∀ scope key set, site.table.findLocal? scope key = some set → decl ∉ set

/--
The declarations and scopes that a term holds without owning them are what they
have to be.
-/
structure Fit (term : Term) : Prop where
  mentions : ∀ mention ∈ site.arena.mentions term, ∃ key,
    site.Named mention.1 key ∧ site.Keyed mention.2 key
  template : ∀ template ∈ site.arena.template? term, ∃ key,
    site.Keyed template key
  scope : ∀ scope ∈ site.arena.scope? term, scope.raw < site.table.size

/-- A set holds, each once, declarations of a scope that have a key. -/
def Members (scope : ScopeId) (key : Key) (set : OverloadSet) : Prop :=
  set.Nodup ∧ ∀ decl ∈ set, site.Keyed decl key ∧
    (site.arena.decl decl).scope = scope

/--
The parameters that a declaration is called with belong to the scope saved for
it.
-/
def Located (decl : DeclId) (form : DeclForm) : Prop :=
  ∀ role params result definition, form =
    .callable role params result definition →
    ∃ scope, site.saved.lookup decl = some scope ∧
      ∀ param ∈ params, (site.arena.decl param).scope = scope

end Worksite

/-- A piece is what it claims to be. -/
def Piece.Backed (site : Worksite) : Piece → Prop
  | .fresh decl scope key _ => site.Keyed decl key ∧
      (site.arena.decl decl).scope = scope
  | .binder scope _ => scope.raw < site.table.size
  | .asleep decl scope _ params _ => site.saved.lookup decl = some scope ∧
      ∀ param ∈ params, site.Keyed param.1 param.2.1 ∧
        (site.arena.decl param.1).scope = scope
  | .named name key plain => site.Named name key ∧
      (plain = true → (site.arena.name name).form.key? = some key)
  | .bound decl scope key => site.Keyed decl key ∧
      (site.arena.decl decl).scope = scope
  | .unspent name => site.arena.Holds (.name name)
  | .saved decl scope => site.saved.lookup decl = some scope
  | .room scope => scope.raw < site.table.size
  | .opens opened _ => site.arena.Holds opened
  | _ => True

/-- All that is stored, bound or at hand on a worksite is what it has to be. -/
structure Worksite.Upright (site : Worksite) : Prop where
  forest : Forest site.Whole (fun term => site.arena.isUnit term = true)
    (fun term => Piece.term term ∈ site.stock) site.arena.parts
  linear : site.stock.claims.Nodup
  backed : ∀ piece ∈ site.stock, piece.Backed site
  begun : ∀ decl, site.Begun decl →
    site.arena.Holds (.decl decl) ∧ (site.arena.decl decl).form.hollow =
      (site.arena.decl decl).form
  unnamed : ∀ decl scope place, Piece.unnamed decl scope place ∈ site.stock →
    site.Begun decl ∧ (site.arena.decl decl).name = .invalid ∧
      (site.arena.decl decl).scope = scope
  unbound : ∀ decl, .unbound decl ∈ site.stock.claims → site.Unbound decl
  unsaved : ∀ decl, Piece.unsaved decl ∈ site.stock →
    site.arena.Holds (.decl decl) ∧ site.saved.lookup decl = none
  christened : ∀ decl, site.arena.Holds (.decl decl) → ¬ site.Unnamed decl →
    ∃ key, site.Keyed decl key
  fit : ∀ term, site.arena.Holds term → site.Fit term
  members : ∀ scope key set, site.table.findLocal? scope key = some set →
    site.Members scope key set
  parents : ∀ scope parent, site.table.parentOf? scope = some parent →
    parent.raw < site.table.size
  saved : ∀ entry ∈ site.saved, site.arena.Holds (.decl entry.1) ∧
    entry.2.raw < site.table.size
  located : ∀ decl, site.Whole (.decl decl) →
    site.Located decl (site.arena.decl decl).form

/-- Only a minted name has a minted number for a key. -/
theorem NameForm.eq_placeholder_of_key?
    {form : NameForm}
    {number : Nat}
    (key : form.key? = some (.placeholder number)) :
    form = .placeholder number := by
  cases form <;> simp_all [key?]

/-- A name carries a minted number. -/
def Arena.Mints (arena : Arena) (name : NameId) (number : Nat) : Prop :=
  arena.Holds (.name name) ∧ (arena.name name).form = .placeholder number

/-- A declaration is a template, and stands further out than another one. -/
def Worksite.Covers (site : Worksite) (outer inner : DeclId) : Prop :=
  site.arena.isTemplate outer = true ∧
    (site.arena.decl outer).scope.raw < (site.arena.decl inner).scope.raw

/--
Minted names tell declarations apart. A number is carried by one name, and who
has that name shares it only with templates further out. A declaration at hand
is the one furthest out, so that a template around it may share its name as
well.
-/
structure Worksite.Distinct (site : Worksite) : Prop where
  below : ∀ name number, site.arena.Mints name number →
    number < site.arena.placeholders
  single : ∀ first second number, site.arena.Mints first number →
    site.arena.Mints second number →
    first = second
  unspent : ∀ name number decl, Piece.unspent name ∈ site.stock →
    site.arena.Mints name number →
    ¬ site.Keyed decl (.placeholder number)
  apart : ∀ first second number, site.Keyed first (.placeholder number) →
    site.Keyed second (.placeholder number) →
      first = second ∨ site.Covers first second ∨ site.Covers second first
  outermost : ∀ decl other number, Piece.term (.decl decl) ∈ site.stock →
    site.Keyed decl (.placeholder number) →
      site.Keyed other (.placeholder number) →
      (site.arena.decl decl).scope.raw ≤ (site.arena.decl other).scope.raw
  plain : ∀ decl number, site.Keyed decl (.placeholder number) →
    (site.arena.decl decl).form.isPlain = true

/-- Nothing is out of order on a worksite. -/
structure Worksite.Sound (site : Worksite) : Prop extends site.Upright where
  distinct : site.Distinct

/--
What is said of a worksite once and for all is said of another one as well.
-/
structure Worksite.Keeps (older newer : Worksite) : Prop where
  whole : ∀ {term}, older.Whole term → newer.Whole term
  held : ∀ {term}, older.arena.Holds term → newer.arena.Holds term
  keyed : ∀ {decl key}, older.Keyed decl key → newer.Keyed decl key
  scope : ∀ {decl}, older.arena.Holds (.decl decl) →
    (newer.arena.decl decl).scope = (older.arena.decl decl).scope
  name : ∀ {name}, older.arena.Holds (.name name) → newer.arena.name name =
    older.arena.name name
  size : older.table.size ≤ newer.table.size
  saved : ∀ {decl scope}, older.saved.lookup decl = some scope →
    newer.saved.lookup decl = some scope

namespace Worksite

variable {older middle newer : Worksite}

namespace Keeps

theorem refl (site : Worksite) : site.Keeps site where
  whole := id
  held := id
  keyed := id
  scope _ := rfl
  name _ := rfl
  size := Nat.le_refl _
  saved := id

theorem trans (first : older.Keeps middle) (second : middle.Keeps newer) :
    older.Keeps newer where
  whole was := second.whole (first.whole was)
  held was := second.held (first.held was)
  keyed was := second.keyed (first.keyed was)
  scope was := (second.scope (first.held was)).trans (first.scope was)
  name was := (second.name (first.held was)).trans (first.name was)
  size := Nat.le_trans first.size second.size
  saved was := second.saved (first.saved was)

variable (keeps : older.Keeps newer)

include keeps

theorem named
    {name : NameId}
    {key : Key}
    (was : older.Named name key) :
    newer.Named name key := by
  refine ⟨keeps.held was.1, ?_⟩
  rw [keeps.name was.1]
  exact was.2.imp id fun ⟨template, applied, keyed⟩ =>
    ⟨template, applied, keeps.keyed keyed⟩

theorem keyedIn
    {decl : DeclId}
    {key : Key}
    {scope : ScopeId}
    (was : older.Keyed decl key ∧ (older.arena.decl decl).scope = scope) :
    newer.Keyed decl key ∧ (newer.arena.decl decl).scope = scope :=
  ⟨keeps.keyed was.1, (keeps.scope was.1.held).trans was.2⟩

theorem members
    {scope : ScopeId}
    {key : Key}
    {set : OverloadSet}
    (was : older.Members scope key set) :
    newer.Members scope key set :=
  ⟨was.1, fun decl member => keeps.keyedIn (was.2 decl member)⟩

theorem backed {piece : Piece} (was : piece.Backed older) :
    piece.Backed newer := by
  cases piece with
  | term => trivial
  | begun => trivial
  | unnamed => trivial
  | fresh => exact keeps.keyedIn was
  | since => trivial
  | unsaved => trivial
  | unspent name => exact @Keeps.held _ _ keeps (.name name) was
  | binder => exact Nat.lt_of_lt_of_le was keeps.size
  | asleep => exact ⟨keeps.saved was.1, fun param listed =>
      keeps.keyedIn (was.2 param listed)⟩
  | named => exact ⟨keeps.named was.1, fun plain =>
      by rw [keeps.name was.1.1]; exact was.2 plain⟩
  | bound => exact keeps.keyedIn was
  | saved => exact keeps.saved was
  | room => exact Nat.lt_of_lt_of_le was keeps.size
  | opens => exact keeps.held was

private theorem fit
    {term : Term}
    (reads : older.arena.Reads newer.arena term)
    (was : older.Fit term) :
    newer.Fit term where
  mentions mention listed := by
    rw [reads.mentions] at listed
    obtain ⟨key, named, keyed⟩ := was.mentions mention listed
    exact ⟨key, keeps.named named, keeps.keyed keyed⟩
  template template applied := by
    rw [reads.template?] at applied
    obtain ⟨key, keyed⟩ := was.template template applied
    exact ⟨key, keeps.keyed keyed⟩
  scope scope kept := by
    rw [reads.scope?] at kept
    exact Nat.lt_of_lt_of_le (was.scope scope kept) keeps.size

end Keeps

/--
What is said once and for all is kept if no stored declaration is begun anew or
renamed.
-/
theorem keeps_of
    (held : ∀ {term}, older.arena.Holds term → newer.arena.Holds term)
    (names : ∀ {name}, older.arena.Holds (.name name) →
      newer.arena.name name = older.arena.name name)
    (begun : ∀ {decl}, older.arena.Holds (.decl decl) → newer.Begun decl →
      older.Begun decl)
    (unnamed : ∀ {decl}, older.arena.Holds (.decl decl) → newer.Unnamed decl →
      older.Unnamed decl)
    (decls : ∀ {decl}, older.arena.Holds (.decl decl) →
      (newer.arena.decl decl).scope = (older.arena.decl decl).scope ∧
        (¬ older.Unnamed decl → (newer.arena.decl decl).name =
          (older.arena.decl decl).name))
    (size : older.table.size ≤ newer.table.size)
    (saved : ∀ {decl scope}, older.saved.lookup decl = some scope →
      newer.saved.lookup decl = some scope) :
    older.Keeps newer where
  held := held
  whole was := by
    refine ⟨held was.1, ?_⟩
    rintro decl rfl again
    exact was.2 decl rfl (begun was.1 again)
  keyed was := by
    have same := (decls was.held).2 was.christened
    refine ⟨held was.held, fun again => was.christened (unnamed was.held again),
      ?_, ?_⟩
    · rw [same]
      exact held was.name
    · rw [same, names was.name]
      exact was.key
  scope was := (decls was).1
  name := names
  size := size
  saved := saved

/--
A worksite that keeps what was said of an upright one is upright if all that is
new on it is in order.
-/
theorem Upright.advance
    (sound : older.Upright)
    (keeps : older.Keeps newer)
    (forest : Forest newer.Whole (fun term => newer.arena.isUnit term = true)
      (fun term => Piece.term term ∈ newer.stock) newer.arena.parts)
    (linear : newer.stock.claims.Nodup)
    (backed : ∀ piece ∈ newer.stock, piece ∈ older.stock ∨ piece.Backed newer)
    (begun : ∀ decl, newer.Begun decl →
      (older.Begun decl ∧ (newer.arena.decl decl).form =
        (older.arena.decl decl).form) ∨
        (newer.arena.Holds (.decl decl) ∧
          (newer.arena.decl decl).form.hollow = (newer.arena.decl decl).form))
    (unnamed : ∀ decl scope place, Piece.unnamed decl scope place ∈
      newer.stock →
      newer.Begun decl ∧ ((Piece.unnamed decl scope place ∈ older.stock ∧
          (newer.arena.decl decl).name = (older.arena.decl decl).name) ∨
        ((newer.arena.decl decl).name = .invalid ∧
          (newer.arena.decl decl).scope = scope)))
    (unbound : ∀ decl, .unbound decl ∈ newer.stock.claims → newer.Unbound decl)
    (unsaved : ∀ decl, Piece.unsaved decl ∈ newer.stock →
      newer.arena.Holds (.decl decl) ∧ newer.saved.lookup decl = none)
    (christened : ∀ decl, newer.arena.Holds (.decl decl) →
      ¬ newer.Unnamed decl →
      (older.arena.Holds (.decl decl) ∧ ¬ older.Unnamed decl) ∨
        ∃ key, newer.Keyed decl key)
    (fit : ∀ term, newer.arena.Holds term →
      (older.arena.Holds term ∧ older.arena.Reads newer.arena term) ∨
        newer.Fit term)
    (members : ∀ scope key set, newer.table.findLocal? scope key = some set →
      older.table.findLocal? scope key = some set ∨ newer.Members scope key set)
    (parents : ∀ scope parent, newer.table.parentOf? scope = some parent →
      older.table.parentOf? scope = some parent ∨ parent.raw < newer.table.size)
    (saved : ∀ entry ∈ newer.saved, entry ∈ older.saved ∨
      (newer.arena.Holds (.decl entry.1) ∧ entry.2.raw < newer.table.size))
    (located : ∀ decl, newer.Whole (.decl decl) →
      (older.Whole (.decl decl) ∧ (newer.arena.decl decl).form =
        (older.arena.decl decl).form) ∨
        newer.Located decl (newer.arena.decl decl).form) :
    newer.Upright where
  forest := forest
  linear := linear
  backed piece listed := (backed piece listed).elim
    (fun old => keeps.backed (sound.backed piece old)) id
  begun decl now := by
    rcases begun decl now with ⟨was, same⟩ | direct
    · rw [same]
      exact ⟨keeps.held (sound.begun decl was).1, (sound.begun decl was).2⟩
    · exact direct
  unnamed decl scope place now := by
    obtain ⟨started, ⟨was, same⟩ | direct⟩ := unnamed decl scope place now
    · obtain ⟨before, name, inside⟩ := sound.unnamed decl scope place was
      refine ⟨started, same.trans name, ?_⟩
      rw [keeps.scope (sound.begun decl before).1, inside]
    · exact ⟨started, direct⟩
  unbound := unbound
  unsaved := unsaved
  christened decl now named := by
    rcases christened decl now named with ⟨was, before⟩ | direct
    · exact (sound.christened decl was before).imp fun _ => keeps.keyed
    · exact direct
  fit term now := (fit term now).elim
    (fun ⟨was, reads⟩ => keeps.fit reads (sound.fit term was)) id
  members scope key set now := (members scope key set now).elim
    (fun was => keeps.members (sound.members scope key set was)) id
  parents scope parent now := (parents scope parent now).elim
    (fun was => Nat.lt_of_lt_of_le (sound.parents scope parent was) keeps.size)
      id
  saved entry now := (saved entry now).elim
    (fun was => ⟨keeps.held (sound.saved entry was).1,
      Nat.lt_of_lt_of_le (sound.saved entry was).2 keeps.size⟩) id
  located decl now := by
    rcases located decl now with ⟨was, same⟩ | direct
    · intro role params result definition form
      obtain ⟨scope, found, inside⟩ :=
        sound.located decl was role params result definition (same ▸ form)
      refine ⟨scope, keeps.saved found, fun param listed => ?_⟩
      have owned : Term.decl param ∈ older.arena.parts (.decl decl) := by
        rw [Arena.parts, ← same, form]
        simp [DeclForm.children, listed]
      rw [keeps.scope (sound.forest.below was owned).1.1]
      exact inside param listed
    · exact direct

/-- The key that a declaration with a name has is the one that it had. -/
theorem Upright.keyed_before
    (upright : older.Upright)
    (keeps : older.Keeps newer)
    {decl : DeclId}
    {key : Key}
    (now : newer.Keyed decl key)
    (held : older.arena.Holds (.decl decl))
    (named : ¬ older.Unnamed decl) :
    older.Keyed decl key := by
  obtain ⟨known, was⟩ := upright.christened decl held named
  have same : some known = some key := (keeps.keyed was).key.symm.trans now.key
  exact Option.some.inj same ▸ was

/-- A declaration with a minted name has a name that carries its number. -/
theorem Keyed.mints
    {site : Worksite}
    {decl : DeclId}
    {number : Nat}
    (keyed : site.Keyed decl (.placeholder number)) :
    site.arena.Mints (site.arena.decl decl).name number :=
  ⟨keyed.name, NameForm.eq_placeholder_of_key? keyed.key⟩

/-- Whether a declaration is a template shows when it is hollowed out. -/
private theorem isTemplate_of_hollow_eq
    {first second : Arena}
    {decl : DeclId}
    (same : (second.decl decl).form.hollow = (first.decl decl).form.hollow) :
    second.isTemplate decl = first.isTemplate decl := by
  cases firstForm : (first.decl decl).form <;>
    cases secondForm : (second.decl decl).form <;>
    simp_all [Arena.isTemplate, DeclForm.hollow]

/--
Declarations stay told apart as long as neither names are minted nor minted
names are given, and as long as no declaration becomes what it was not.
-/
theorem Distinct.advance
    (distinct : older.Distinct)
    (upright : older.Upright)
    (keeps : older.Keeps newer)
    (count : older.arena.placeholders ≤ newer.arena.placeholders)
    (mints : ∀ name number, newer.arena.Mints name number →
      older.arena.Mints name number)
    (known : ∀ decl number, newer.Keyed decl (.placeholder number) →
      older.arena.Holds (.decl decl) ∧ ¬ older.Unnamed decl)
    (kinds : ∀ decl number, older.Keyed decl (.placeholder number) →
      (newer.arena.decl decl).form.hollow = (older.arena.decl decl).form.hollow)
    (loose : ∀ decl number, newer.Keyed decl (.placeholder number) →
      Piece.term (.decl decl) ∈ newer.stock → Piece.term (.decl decl) ∈
        older.stock)
    (unspent : ∀ name, Piece.unspent name ∈ newer.stock → Piece.unspent name ∈
      older.stock) :
    newer.Distinct := by
  have before {decl : DeclId} {number : Nat}
      (now : newer.Keyed decl (.placeholder number)) :
      older.Keyed decl (.placeholder number) :=
    upright.keyed_before keeps now (known decl number now).1
      (known decl number now).2
  have covers {outer inner : DeclId} {number : Nat}
      (first : older.Keyed outer (.placeholder number))
      (second : older.Keyed inner (.placeholder number))
        (was : older.Covers outer inner) :
      newer.Covers outer inner := by
    rw [Covers, isTemplate_of_hollow_eq (kinds outer number first),
      keeps.scope first.held, keeps.scope second.held]
    exact was
  refine ⟨fun name number now => ?_, fun first second number now again => ?_,
    fun name number decl listed now keyed =>
      ?_, fun first second number now again => ?_,
    fun decl other number listed now again => ?_, fun decl number now => ?_⟩
  · exact Nat.lt_of_lt_of_le
      (distinct.below name number (mints name number now)) count
  · exact distinct.single first second number (mints _ _ now) (mints _ _ again)
  · exact distinct.unspent name number decl (unspent name listed)
      (mints _ _ now) (before keyed)
  · exact (distinct.apart first second number (before now)
      (before again)).imp_right
      (Or.imp (covers (before now) (before again))
        (covers (before again) (before now)))
  · rw [keeps.scope (before now).held, keeps.scope (before again).held]
    exact distinct.outermost decl other number (loose decl number now listed)
      (before now)
      (before again)
  · rw [← DeclForm.isPlain_hollow, kinds decl number (before now),
      DeclForm.isPlain_hollow]
    exact distinct.plain decl number (before now)

end Worksite

end Tern
