import Tern.Proofs.Building.Soundness

namespace Tern

/-!
# Steps keep worksites upright

Each step of building is shown to keep what was said once and for all, and then
to leave an upright worksite behind. Beside the arena a step leaves a sound one:
it neither mints a name nor gives one to a declaration.
-/

/-- A piece that marks a declaration as not finished. -/
def Piece.isMark : Piece → Bool
  | .begun _ => true
  | .unnamed _ _ _ => true
  | _ => false

/--
A piece that is what it claims to be whatever else is at hand, but for its
claims.
-/
def Piece.isPlain : Piece → Bool
  | .term _ => false
  | .begun _ => false
  | .unnamed _ _ _ => false
  | .unsaved _ => false
  | .unspent _ => false
  | _ => true

namespace Worksite

variable {site : Worksite} {table : ScopeTable}
  {saved : List (DeclId × ScopeId)} {now : Stock}

/--
What is said once and for all is kept as long as the arena is and no declaration
is marked.
-/
theorem keeps_beside
    (come : ∀ piece ∈ now, piece.isMark = true → piece ∈ site.stock)
    (size : site.table.size ≤ table.size)
    (lookup : ∀ {decl scope}, site.saved.lookup decl = some scope →
      saved.lookup decl = some scope) :
    site.Keeps { arena := site.arena, table := table, saved := saved,
                 stock := now } :=
  keeps_of id (fun _ => rfl) (fun _ again => come _ again rfl)
    (fun _ ⟨scope, place, again⟩ => ⟨scope, place, come _ again rfl⟩)
    (fun _ => ⟨rfl, fun _ => rfl⟩) size lookup

/--
Beside the arena, scopes may change as long as their sets are in order, pieces
that are what they claim to be may come, and pieces that are no marks may go.
-/
theorem Upright.beside
    (upright : site.Upright)
    (keeps : site.Keeps { arena := site.arena, table := table, saved := saved,
                          stock := now })
    (come : ∀ piece ∈ now, piece ∈ site.stock ∨
      ((piece.isPlain = true ∨ ∃ name, piece = .unspent name) ∧
        piece.Backed { arena := site.arena, table := table, saved := saved,
                       stock := now }))
    (stay : ∀ piece ∈ site.stock, piece.isMark = true → piece ∈ now)
    (linear : now.claims.Nodup)
    (unbound : ∀ decl, .unbound decl ∈ now.claims →
      ∀ scope key set, table.findLocal? scope key = some set → decl ∉ set)
    (unsaved : ∀ decl, Piece.unsaved decl ∈ now → saved.lookup decl = none)
    (members : ∀ scope key set, table.findLocal? scope key = some set →
      site.table.findLocal? scope key = some set ∨ site.Members scope key set)
    (parents : ∀ scope parent, table.parentOf? scope = some parent →
      site.table.parentOf? scope = some parent ∨ parent.raw < table.size)
    (entries : ∀ entry ∈ saved, entry ∈ site.saved ∨
      (site.arena.Holds (.decl entry.1) ∧ entry.2.raw < table.size)) :
    Upright { arena := site.arena, table := table, saved := saved,
              stock := now } := by
  have loose {term : Term} (listed : .term term ∈ now) :
      .term term ∈ site.stock :=
    (come _ listed).resolve_right fun plain => by simp [Piece.isPlain] at plain
  have begun {decl : DeclId} (listed : .begun decl ∈ now) :
      .begun decl ∈ site.stock :=
    (come _ listed).resolve_right fun plain => by simp [Piece.isPlain] at plain
  have unnamed {decl : DeclId} {scope : ScopeId} {place : Nat}
      (listed : .unnamed decl scope place ∈ now) : .unnamed decl scope place ∈
        site.stock :=
    (come _ listed).resolve_right fun plain => by simp [Piece.isPlain] at plain
  have waiting {decl : DeclId} (listed : .unsaved decl ∈ now) :
      .unsaved decl ∈ site.stock :=
    (come _ listed).resolve_right fun plain => by simp [Piece.isPlain] at plain
  have whole (term : Term) :
      Whole { arena := site.arena, table := table, saved := saved,
              stock := now } term ↔
        site.Whole term := by
    have same (decl : DeclId) :
        Begun { arena := site.arena, table := table, saved := saved,
                stock := now } decl ↔
          site.Begun decl :=
      ⟨begun, fun listed => stay _ listed rfl⟩
    simp only [Whole, same]
  refine upright.advance keeps ?_ linear
    (fun piece listed => (come piece listed).imp id And.right)
    (fun decl listed => .inl ⟨begun listed, rfl⟩) ?_ unbound
    (fun decl listed =>
      ⟨(upright.unsaved decl (waiting listed)).1, unsaved decl listed⟩) ?_
    (fun _ held => .inl ⟨held, .refl _ _⟩)
    (fun scope key set found =>
      (members scope key set found).imp id keeps.members) parents entries
    fun decl now => .inl ⟨(whole _).mp now, rfl⟩
  · exact upright.forest.congr whole (fun _ => id) (fun _ _ => rfl) fun _ =>
      loose
  · intro decl scope place listed
    have was := unnamed listed
    exact ⟨stay _ (upright.unnamed _ _ _ was).1 rfl, .inl ⟨was, rfl⟩⟩
  · exact fun decl held named => .inl
      ⟨held, fun ⟨scope, place, was⟩ => named ⟨scope, place, stay _ was rfl⟩⟩

/--
As long as no name comes that is not spent, declarations stay told apart as
well.
-/
theorem Sound.beside
    (sound : site.Sound)
    (keeps : site.Keeps { arena := site.arena, table := table, saved := saved,
                          stock := now })
    (come : ∀ piece ∈ now, piece ∈ site.stock ∨ (piece.isPlain = true ∧
      piece.Backed { arena := site.arena, table := table, saved := saved,
                     stock := now }))
    (stay : ∀ piece ∈ site.stock, piece.isMark = true → piece ∈ now)
    (linear : now.claims.Nodup)
    (unbound : ∀ decl, .unbound decl ∈ now.claims →
      ∀ scope key set, table.findLocal? scope key = some set → decl ∉ set)
    (unsaved : ∀ decl, Piece.unsaved decl ∈ now → saved.lookup decl = none)
    (members : ∀ scope key set, table.findLocal? scope key = some set →
      site.table.findLocal? scope key = some set ∨ site.Members scope key set)
    (parents : ∀ scope parent, table.parentOf? scope = some parent →
      site.table.parentOf? scope = some parent ∨ parent.raw < table.size)
    (entries : ∀ entry ∈ saved, entry ∈ site.saved ∨
      (site.arena.Holds (.decl entry.1) ∧ entry.2.raw < table.size)) :
    Sound { arena := site.arena, table := table, saved := saved,
            stock := now } := by
  have old {piece : Piece} (listed : piece ∈ now)
      (plain : piece.isPlain = false) :
      piece ∈ site.stock :=
    (come piece listed).resolve_right fun new => by simp [plain] at new
  refine ⟨sound.toUpright.beside keeps
    (fun piece listed => (come piece listed).imp_right
    (And.imp_left .inl)) stay linear unbound unsaved members parents entries,
      ?_⟩
  exact sound.distinct.advance sound.toUpright keeps (Nat.le_refl _)
    (fun _ _ => id)
    (fun _ _ now => ⟨now.held, fun ⟨scope, place, was⟩ =>
      now.christened ⟨scope, place, stay _ was rfl⟩⟩)
    (fun _ _ _ => rfl) (fun _ _ _ listed => old listed rfl) fun _ listed =>
      old listed rfl

/--
Pieces that are what they claim to be may come, and go if they are no marks.
-/
theorem Sound.restock
    (sound : site.Sound)
    (come : ∀ piece ∈ now, piece ∈ site.stock ∨
      (piece.isPlain = true ∧ piece.Backed site))
    (stay : ∀ piece ∈ site.stock, piece.isMark = true → piece ∈ now)
    (claims : now.claims ≤ site.stock.claims) :
    site.Keeps { site with stock := now } ∧
      Sound { site with stock := now } := by
  have marks {piece : Piece} (listed : piece ∈ now)
      (mark : piece.isPlain = false) :
      piece ∈ site.stock :=
    (come piece listed).resolve_right fun plain => by simp [plain.1] at mark
  have keeps : site.Keeps { site with stock := now } := by
    refine keeps_beside (fun piece listed mark => marks listed ?_)
      (Nat.le_refl _) id
    cases piece <;> first | rfl | cases mark
  refine ⟨keeps,
    sound.beside keeps ?_ stay (Multiset.nodup_of_le claims sound.linear)
    (fun decl claimed => sound.unbound decl (Multiset.mem_of_le claims claimed))
    (fun decl listed => (sound.unsaved decl (marks listed rfl)).2)
      (fun _ _ _ => .inl)
    (fun _ _ => .inl) fun _ => .inl⟩
  exact fun piece listed => (come piece listed).imp id fun plain =>
    ⟨plain.1, keeps.backed plain.2⟩

/-- A piece that is what it claims to be may come if it claims nothing. -/
theorem Sound.note
    (sound : site.Sound)
    {piece : Piece}
    (plain : piece.isPlain = true)
    (backed : piece.Backed site)
    (claims : piece.claims = 0) :
    site.Keeps { site with stock := piece ::ₘ site.stock } ∧
      Sound { site with stock := piece ::ₘ site.stock } := by
  refine sound.restock (fun other listed => ?_)
    (fun _ listed _ => Multiset.mem_cons_of_mem listed)
    (by simp [claims])
  rcases Multiset.mem_cons.mp listed with rfl | old
  · exact .inr ⟨plain, backed⟩
  · exact .inl old

end Worksite

namespace ScopeTable

variable (table : ScopeTable) (kind : ScopeKind) (parent other : ScopeId)

/-- A scope added has no bindings, and the other ones have theirs. -/
theorem findLocal?_push (key : Key) :
    ScopeTable.findLocal?
        (table.push { parent? := some parent, kind := kind, bindings := [] })
          other key =
      table.findLocal? other key := by
  simp only [ScopeTable.findLocal?, Array.getElem?_push]
  split
  next last => simp [last, Bindings.find?]
  next => rfl

/--
A scope added is inside its parent, and the other ones are where they were.
-/
private theorem parentOf?_push :
    ScopeTable.parentOf?
        (table.push { parent? := some parent, kind := kind, bindings := [] })
          other =
      if other.raw = table.size then some parent
          else table.parentOf? other := by
  simp only [ScopeTable.parentOf?, Array.getElem?_push]
  split <;> rfl

end ScopeTable

namespace Worksite

variable {arena : Arena} {table : ScopeTable} {saved : List (DeclId × ScopeId)}
  {rest : Stock}
  {decl : DeclId} {scope : ScopeId}

/-- A declaration is bound at the end of the set of its key in its scope. -/
theorem Sound.bind
    {key : Key}
    {place lower : Nat}
    (sound : Sound
      { arena := arena, table := table, saved := saved
        stock :=
          .fresh decl scope key place ::ₘ .binder scope lower ::ₘ rest }) :
    Keeps
        { arena := arena, table := table, saved := saved
          stock :=
            .fresh decl scope key place ::ₘ .binder scope lower ::ₘ rest }
        { arena := arena
          table :=
            table.put scope key ((table.findLocal? scope key).getD [] ++ [decl])
          saved := saved
          stock :=
            .binder scope (place + 1) ::ₘ .bound decl scope key ::ₘ rest } ∧
      Sound
        { arena := arena
          table :=
            table.put scope key ((table.findLocal? scope key).getD [] ++ [decl])
          saved := saved
          stock :=
            .binder scope (place + 1) ::ₘ .bound decl scope key ::ₘ rest } := by
  have room : scope.raw < table.size :=
    sound.backed (.binder scope lower) (by simp)
  have keyed := sound.backed (.fresh decl scope key place) (by simp)
  have free := sound.unbound decl (by simp [Piece.claims])
  have linear := sound.linear
  simp only [Stock.claims_cons, Piece.claims, zero_add, Multiset.singleton_add,
    Multiset.nodup_cons] at linear
  have keeps : Keeps
      { arena := arena, table := table, saved := saved
        stock := .fresh decl scope key place ::ₘ .binder scope lower ::ₘ rest }
      { arena := arena
        table :=
          table.put scope key ((table.findLocal? scope key).getD [] ++ [decl])
        saved := saved
        stock :=
          .binder scope (place + 1) ::ₘ .bound decl scope key ::ₘ rest } := by
    refine keeps_beside (fun piece listed mark => ?_) (by simp) id
    simp only [Multiset.mem_cons] at listed ⊢
    rcases listed with rfl | rfl | old
    · cases mark
    · cases mark
    · exact .inr (.inr old)
  refine ⟨keeps, sound.beside keeps (fun piece listed => ?_)
    (fun piece listed mark => ?_)
    (by simpa [Piece.claims] using linear.2)
      (fun other claimed inside name set found => ?_)
    (fun other listed => (sound.unsaved other ?_).2)
      (fun inside name set found => ?_)
    (fun other parent found => .inl (by simpa using found)) (fun _ => .inl)⟩
  · simp only [Multiset.mem_cons] at listed ⊢
    rcases listed with rfl | rfl | old
    · exact .inr ⟨rfl, by simpa [Piece.Backed] using room⟩
    · exact .inr ⟨rfl, keeps.keyedIn keyed⟩
    · exact .inl (.inr (.inr old))
  · simp only [Multiset.mem_cons] at listed ⊢
    rcases listed with rfl | rfl | old
    · cases mark
    · cases mark
    · exact .inr (.inr old)
  · have other_ne : other ≠ decl := by
      rintro rfl
      exact linear.1 (by simpa [Piece.claims] using claimed)
    have unbound :=
      sound.unbound other
        (by simp [Piece.claims] at claimed ⊢; exact .inr claimed)
    rw [ScopeTable.findLocal?_put_eq] at found
    split at found
    next there =>
      obtain ⟨-, rfl, rfl⟩ := there
      simp only [List.append_eq_nil_iff, List.cons_ne_self, and_false,
        ↓reduceIte, Option.some.injEq] at found
      subst found
      cases before : table.findLocal? inside name with
      | none => simpa [before] using other_ne
      | some old => simpa [before] using ⟨unbound _ _ _ before, other_ne⟩
    next => exact unbound _ _ _ found
  · simp only [Multiset.mem_cons, reduceCtorEq, false_or] at listed ⊢
    exact listed
  · rw [ScopeTable.findLocal?_put_eq] at found
    split at found
    next there =>
      obtain ⟨-, rfl, rfl⟩ := there
      simp only [List.append_eq_nil_iff, List.cons_ne_self, and_false,
        ↓reduceIte, Option.some.injEq] at found
      subst found
      right
      cases before : table.findLocal? inside name with
      | none => simpa [Members, before, Piece.Backed] using keyed
      | some old =>
          have was := sound.members _ _ _ before
          refine ⟨List.nodup_append.mpr ⟨was.1, by simp, ?_⟩,
            fun member listed => ?_⟩
          · rintro member old _ new rfl
            rw [List.mem_singleton.mp new] at old
            exact free _ _ _ before old
          · rcases List.mem_append.mp listed with old | new
            · exact was.2 member old
            · rw [List.mem_singleton.mp new]
              exact keyed
    next => exact .inl found

/-- A scope is added inside another one. -/
theorem Sound.push
    {kind : ScopeKind}
    {parent : ScopeId}
    (sound :
      Sound { arena := arena, table := table, saved := saved, stock := rest })
    (room : Piece.room parent ∈ rest) :
    Keeps { arena := arena, table := table, saved := saved, stock := rest }
        { arena := arena
          table :=
            table.push { parent? := some parent, kind := kind, bindings := [] }
          saved := saved
          stock := .room { raw := table.size } ::ₘ .binder { raw := table.size }
            0 ::ₘ rest } ∧
      Sound
        { arena := arena
          table :=
            table.push { parent? := some parent, kind := kind, bindings := [] }
          saved := saved
          stock := .room { raw := table.size } ::ₘ .binder { raw := table.size }
            0 ::ₘ rest } := by
  have inside : parent.raw < table.size := sound.backed (.room parent) room
  have keeps :
      Keeps { arena := arena, table := table, saved := saved, stock := rest }
      { arena := arena
        table :=
          table.push { parent? := some parent, kind := kind, bindings := [] }
        saved := saved
        stock := .room { raw := table.size } ::ₘ .binder { raw := table.size } 0
          ::ₘ rest } := by
    refine keeps_beside (fun piece listed mark => ?_) (by simp) id
    simp only [Multiset.mem_cons] at listed
    rcases listed with rfl | rfl | old
    · cases mark
    · cases mark
    · exact old
  refine ⟨keeps, sound.beside keeps (fun piece listed => ?_)
    (fun _ listed _ =>
      Multiset.mem_cons_of_mem (Multiset.mem_cons_of_mem listed))
    (by simpa [Piece.claims] using sound.linear)
      (fun other claimed scope key set found => ?_)
    (fun other listed => (sound.unsaved other ?_).2)
      (fun scope key set found => ?_)
    (fun other outer found => ?_) (fun _ => .inl)⟩
  · simp only [Multiset.mem_cons] at listed
    rcases listed with rfl | rfl | old
    · exact .inr ⟨rfl, by simp [Piece.Backed]⟩
    · exact .inr ⟨rfl, by simp [Piece.Backed]⟩
    · exact .inl old
  · rw [ScopeTable.findLocal?_push] at found
    exact sound.unbound other (by simpa [Piece.claims] using claimed)
      _ _ _ found
  · simpa using listed
  · rw [ScopeTable.findLocal?_push] at found
    exact .inl found
  · rw [ScopeTable.parentOf?_push] at found
    split at found
    next => cases found; exact .inr (by simpa using Nat.lt_succ_of_lt inside)
    next => exact .inl found

/-- A scope is saved for a declaration that had none. -/
theorem Sound.save
    (sound : Sound
      { arena := arena, table := table, saved := saved,
        stock := .unsaved decl ::ₘ rest })
    (room : Piece.room scope ∈ rest) :
    Keeps { arena := arena, table := table, saved := saved,
            stock := .unsaved decl ::ₘ rest }
        { arena := arena, table := table, saved := (decl, scope) :: saved
          stock := .saved decl scope ::ₘ rest } ∧
      Sound
        { arena := arena, table := table, saved := (decl, scope) :: saved
          stock := .saved decl scope ::ₘ rest } := by
  have inside : scope.raw < table.size :=
    sound.backed (.room scope) (Multiset.mem_cons_of_mem room)
  obtain ⟨held, free⟩ := sound.unsaved decl (Multiset.mem_cons_self ..)
  have linear := sound.linear
  simp only [Stock.claims_cons, Piece.claims, Multiset.singleton_add,
    Multiset.nodup_cons] at linear
  have keeps : Keeps
      { arena := arena, table := table, saved := saved,
        stock := .unsaved decl ::ₘ rest }
      { arena := arena, table := table, saved := (decl, scope) :: saved
        stock := .saved decl scope ::ₘ rest } := by
    refine keeps_beside (fun piece listed mark => ?_) (Nat.le_refl _)
      fun {other found} known => ?_
    · rcases Multiset.mem_cons.mp listed with rfl | old
      · cases mark
      · exact Multiset.mem_cons_of_mem old
    · have apart : other ≠ decl := by
        rintro rfl
        simp [free] at known
      simpa [List.lookup_cons, beq_eq_false_iff_ne.mpr apart] using known
  refine ⟨keeps, sound.beside keeps (fun piece listed => ?_)
    (fun piece listed mark => ?_)
    (by simpa [Piece.claims] using linear.2)
    (fun other claimed => sound.unbound other ?_) (fun other listed => ?_)
    (fun _ _ _ => .inl) (fun _ _ => .inl) (fun entry listed => ?_)⟩
  · rcases Multiset.mem_cons.mp listed with rfl | old
    · exact .inr ⟨rfl, by simp [Piece.Backed]⟩
    · exact .inl (Multiset.mem_cons_of_mem old)
  · rcases Multiset.mem_cons.mp listed with rfl | old
    · cases mark
    · exact Multiset.mem_cons_of_mem old
  · simpa [Piece.claims] using claimed
  · have old : Piece.unsaved other ∈ rest := by simpa using listed
    have apart : other ≠ decl := by
      rintro rfl
      exact linear.1 (Stock.mem_claims.mpr ⟨_, old, by simp [Piece.claims]⟩)
    have before := (sound.unsaved other (Multiset.mem_cons_of_mem old)).2
    simpa [List.lookup_cons, beq_eq_false_iff_ne.mpr apart] using before
  · rcases List.mem_cons.mp listed with rfl | old
    · exact .inr ⟨held, inside⟩
    · exact .inl old

/-- What a name or a term that is added is at hand as brings no mark. -/
theorem mem_loose
    {term : Term}
    {piece : Piece}
    (listed : piece ∈ arena.loose term) :
    (piece = .term term ∧ arena.isUnit term = false) ∨
      ∃ name key, term = .name name ∧ piece = .named name key true ∧
        (arena.name name).form.key? = some key := by
  cases term with
  | name name =>
      simp only [Arena.loose, Multiset.mem_cons] at listed
      rcases listed with rfl | named
      · exact .inl ⟨rfl, rfl⟩
      · cases keyed : (arena.name name).form.key? with
        | none => simp [Piece.naming, keyed] at named
        | some key =>
            rw [keyed] at named
            exact .inr ⟨name, key, rfl, Multiset.mem_singleton.mp named, keyed⟩
  | _ =>
      simp only [Arena.loose] at listed
      split at listed
      next => cases Multiset.notMem_zero _ listed
      next plain =>
        exact .inl ⟨Multiset.mem_singleton.mp listed, by simpa using plain⟩

/--
What is claimed of a term that is added is claimed once, and of that term alone.
-/
theorem claims_loose (arena : Arena) (term : Term) :
    (arena.loose term).claims ≤ {.term term} := by
  cases term with
  | name name =>
      cases keyed : (arena.name name).form.key? <;>
        simp [Arena.loose, Piece.naming, keyed, Piece.claims, Stock.claims]
  | _ =>
      simp only [Arena.loose]
      split <;> simp [Piece.claims, Stock.claims]

/--
A term becomes whole on top of the terms that it owns. These were at hand, and
are not any more; the term itself is at hand if it is no root.
-/
private theorem Upright.forest_of_whole
    {older newer : Worksite}
    {slot : Term}
    {children : List Term}
    (upright : older.Upright)
    (stock : Piece.terms children + rest ≤ older.stock)
    (waited : ¬ older.Whole slot)
    (whole : ∀ other, newer.Whole other ↔ older.Whole other ∨ other = slot)
    (reads : ∀ other, other ≠ slot → older.arena.Reads newer.arena other)
    (parts : newer.arena.parts slot = children)
    (loose : ∀ other, Piece.term other ∈ newer.stock →
      (other = slot ∧ newer.arena.isUnit slot = false) ∨
        Piece.term other ∈ rest) :
    Forest newer.Whole (fun term => newer.arena.isUnit term = true)
      (fun term => Piece.term term ∈ newer.stock) newer.arena.parts := by
  have atHand {piece : Piece} (listed : piece ∈ Piece.terms children + rest) :
      piece ∈ older.stock :=
    Multiset.mem_of_le stock listed
  have owned {part : Term} (listed : part ∈ children) :
      Piece.term part ∈ older.stock :=
    atHand (by simp [Piece.terms, listed])
  refine upright.forest.change whole (fun other unit => ?_)
    (fun other apart _ => (reads other apart).parts) ?_ (fun part listed => ?_)
    (fun other listed => ?_)
  · by_cases same : other = slot
    · exact .inr ⟨same, waited⟩
    · exact .inl ((reads other same).isUnit ▸ unit)
  · have linear := Multiset.nodup_of_le (Stock.claims_le stock) upright.linear
    rw [Stock.claims_add, Multiset.nodup_add, Stock.claims_terms,
      Multiset.coe_nodup] at linear
    exact parts ▸ List.Nodup.of_map _ linear.1
  · exact .inl (owned (parts ▸ listed))
  · rw [parts]
    rcases loose other listed with ⟨rfl, plain⟩ | old
    · exact ⟨fun part => waited (upright.forest.loose (owned part)).1,
        .inr ⟨rfl, waited, by simp [plain]⟩⟩
    · exact ⟨fun part =>
        Stock.term_notMem_of_nodup upright.linear stock part old,
        .inl (.inl (atHand (Multiset.mem_add.mpr (.inr old))))⟩

/-- A term that is no declaration is added on top of terms that nothing owns. -/
theorem Upright.add
    {order : Order}
    {after : Arena}
    {term : Term}
    (upright : Upright
      { arena := arena, table := table, saved := saved
        stock := Piece.terms (after.children term) + rest })
    (adds : arena.Adds term after)
    (warranted : rest.Warrants order after term) :
    Keeps
        { arena := arena, table := table, saved := saved
          stock := Piece.terms (after.children term) + rest }
        { arena := after, table := table, saved := saved,
          stock := after.loose term + rest } ∧
      Upright { arena := after, table := table, saved := saved,
                stock := after.loose term + rest } := by
  have inline : ∀ decl, term ≠ .decl decl := by
    rintro decl rfl
    cases adds
  have parts : after.parts term = after.children term := by
    cases term with
    | decl decl => exact absurd rfl (inline decl)
    | _ => rfl
  have reads {other : Term} (held : arena.Holds other) :
      arena.Reads after other :=
    adds.reads fun same => adds.new (same ▸ held)
  have decls (decl : DeclId) : after.decl decl = arena.decl decl := by
    simp only [Arena.decl, adds.decls_eq]
  have holdsDecl {decl : DeclId} : after.Holds (.decl decl) ↔
      arena.Holds (.decl decl) := by
    simp only [Arena.Holds, adds.decls_eq]
  have marks {piece : Piece} (mark : piece.isMark = true) :
      piece ∈ after.loose term + rest ↔
        piece ∈ Piece.terms (after.children term) + rest := by
    simp only [Multiset.mem_add]
    constructor
    · rintro (new | old)
      · obtain ⟨rfl, -⟩ | ⟨name, key, -, rfl, -⟩ := mem_loose new <;> cases mark
      · exact .inr old
    · rintro (owned | old)
      · obtain ⟨child, -, rfl⟩ := List.mem_map.mp (Multiset.mem_coe.mp owned)
        cases mark
      · exact .inr old
  have keeps : Keeps
      { arena := arena, table := table, saved := saved
        stock := Piece.terms (after.children term) + rest }
      { arena := after, table := table, saved := saved,
        stock := after.loose term + rest } :=
    keeps_of (fun held => adds.holds.mpr (.inl held)) reads
      (fun _ again => (marks rfl).mp again)
      (by
        rintro _ _ ⟨scope, place, again⟩
        exact ⟨scope, place, (marks rfl).mp again⟩)
      (fun {decl} _ =>
        ⟨congrArg _ (decls decl), fun _ => congrArg _ (decls decl)⟩)
      (Nat.le_refl _) id
  have whole (other : Term) :
      Whole { arena := after, table := table, saved := saved,
              stock := after.loose term + rest }
          other ↔
        Whole { arena := arena, table := table, saved := saved
                stock := Piece.terms (after.children term) + rest } other ∨
                  other = term := by
    have begun (decl : DeclId) : Piece.begun decl ∈ after.loose term + rest ↔
        Piece.begun decl ∈ Piece.terms (after.children term) + rest := marks rfl
    simp only [Whole, Begun, begun, adds.holds]
    constructor
    · rintro ⟨held | rfl, finished⟩
      · exact .inl ⟨held, finished⟩
      · exact .inr rfl
    · rintro (⟨held, finished⟩ | rfl)
      · exact ⟨.inl held, finished⟩
      · exact ⟨.inr rfl, fun decl same => absurd same (inline decl)⟩
  have fresh : ¬ Whole
      { arena := arena, table := table, saved := saved
        stock := Piece.terms (after.children term) + rest } term :=
          fun was => adds.new was.1
  have forest :=
    upright.forest_of_whole (le_refl _) fresh whole (fun _ => adds.reads) parts
    fun other listed => by
      refine (Multiset.mem_add.mp listed).imp_left fun new => ?_
      obtain ⟨same, plain⟩ | ⟨_, _, -, same, -⟩ := mem_loose new
      · exact ⟨Piece.term.inj same, plain⟩
      · cases same
  refine ⟨keeps, upright.advance keeps forest ?_ ?_ ?_ ?_ ?_ ?_ ?_
    ?_ (fun _ _ _ => .inl) (fun _ _ => .inl) (fun _ => .inl) ?_⟩
  · have linear := upright.linear
    rw [Stock.claims_add, Multiset.nodup_add] at linear ⊢
    refine ⟨Multiset.nodup_of_le (claims_loose _ _)
      (Multiset.nodup_singleton _), linear.2.1, ?_⟩
    refine Multiset.disjoint_left.mpr fun {claim} new old => fresh ?_
    rw [Multiset.mem_singleton.mp (Multiset.mem_of_le (claims_loose _ _) new)]
      at old
    exact (upright.forest.loose
      (Multiset.mem_add.mpr (.inr (Stock.term_mem_claims.mp old)))).1
  · intro piece listed
    rcases Multiset.mem_add.mp listed with new | old
    · right
      obtain ⟨rfl, -⟩ | ⟨name, key, rfl, rfl, keyed⟩ := mem_loose new
      · trivial
      · exact ⟨⟨adds.holds.mpr (.inr rfl), .inl keyed⟩, fun _ => keyed⟩
    · exact .inl (Multiset.mem_add.mpr (.inr old))
  · exact fun decl again => .inl ⟨(marks rfl).mp again, congrArg _ (decls decl)⟩
  · intro decl inside place again
    have was := (marks rfl).mp again
    exact ⟨(marks rfl).mpr (upright.unnamed _ _ _ was).1,
      .inl ⟨was, congrArg _ (decls decl)⟩⟩
  · intro decl claimed
    have old : Claim.unbound decl ∈ rest.claims := by
      rw [Stock.claims_add, Multiset.mem_add] at claimed
      refine claimed.resolve_left fun new => ?_
      cases Multiset.mem_singleton.mp
        (Multiset.mem_of_le (claims_loose _ _) new)
    exact upright.unbound decl (by simp [old])
  · intro decl listed
    have old : Piece.unsaved decl ∈ rest := by
      refine (Multiset.mem_add.mp listed).resolve_left fun new => ?_
      obtain ⟨other, -⟩ | ⟨name, key, -, other, -⟩ :=
        mem_loose new <;> cases other
    obtain ⟨held, free⟩ := upright.unsaved decl (by simp [old])
    exact ⟨holdsDecl.mpr held, free⟩
  · exact fun decl held named => .inl ⟨holdsDecl.mp held,
      by
        rintro ⟨inside, place, was⟩
        exact named ⟨inside, place, (marks rfl).mpr was⟩⟩
  · intro other held
    by_cases same : other = term
    · subst same
      right
      have backed {piece : Piece} (listed : piece ∈ rest) :=
        keeps.backed (upright.backed piece (Multiset.mem_add.mpr (.inr listed)))
      refine ⟨fun mention listed => ?_, fun template applied =>
        ?_, fun inside kept => ?_⟩
      · obtain ⟨key, plain, inside, named, bound⟩ :=
          warranted.mentions mention listed
        exact ⟨key, (backed named).1, (backed bound).1⟩
      · obtain ⟨inside, key, bound⟩ := warranted.template template applied
        exact ⟨key, (backed bound).1⟩
      · exact backed (warranted.scope inside kept)
    · exact .inl ⟨(adds.holds.mp held).resolve_right same, adds.reads same⟩
  · intro decl now
    have was := ((whole _).mp now).resolve_right fun same =>
      inline decl same.symm
    exact .inl ⟨was, congrArg _ (decls decl)⟩

/-- What a claim is about is stored. -/
theorem Upright.held_of_claimed
    {site : Worksite}
    (upright : site.Upright)
    {claim : Claim}
    (claimed : claim ∈ site.stock.claims) :
    site.arena.Holds claim.subject := by
  obtain ⟨piece, listed, claims⟩ := Stock.mem_claims.mp claimed
  have backed := upright.backed piece listed
  cases piece with
  | term loose =>
      obtain rfl := Multiset.mem_singleton.mp claims
      exact (upright.forest.loose listed).1.1
  | begun decl =>
      obtain rfl := Multiset.mem_singleton.mp claims
      exact (upright.begun decl listed).1
  | unnamed decl inside place =>
      obtain rfl := Multiset.mem_singleton.mp claims
      exact (upright.begun decl (upright.unnamed decl inside place listed).1).1
  | fresh =>
      obtain rfl := Multiset.mem_singleton.mp claims
      exact backed.1.held
  | unsaved decl =>
      obtain rfl := Multiset.mem_singleton.mp claims
      exact (upright.unsaved decl listed).1
  | unspent name =>
      obtain rfl := Multiset.mem_singleton.mp claims
      exact backed
  | asleep =>
      obtain ⟨param, given, rfl⟩ := List.mem_map.mp (Multiset.mem_coe.mp claims)
      exact (backed.2 param given).1.held
  | _ => cases Multiset.notMem_zero _ claims

/-- A declaration is added, which has neither a name nor a form yet. -/
theorem Upright.begin
    {decl : Decl}
    {place : Nat}
    (upright : Upright { arena := arena, table := table, saved := saved,
                         stock := rest })
    (hollow : decl.form.hollow = decl.form)
    (nameless : decl.name = .invalid)
    (room : Piece.room decl.scope ∈ rest) :
    Keeps { arena := arena, table := table, saved := saved, stock := rest }
        { arena := (arena.addDecl decl).2, table := table, saved := saved
          stock :=
            .begun (arena.addDecl decl).1 ::ₘ .unsaved
              (arena.addDecl decl).1 ::ₘ
            .unnamed (arena.addDecl decl).1 decl.scope place ::ₘ rest } ∧
      Upright
        { arena := (arena.addDecl decl).2, table := table, saved := saved
          stock :=
            .begun (arena.addDecl decl).1 ::ₘ .unsaved
              (arena.addDecl decl).1 ::ₘ
            .unnamed (arena.addDecl decl).1 decl.scope place ::ₘ rest } := by
  have new : ¬ arena.Holds (.decl (arena.addDecl decl).1) :=
    Arena.not_holds_addDecl decl
  have found := arena.decl_addDecl decl
  have holds (other : Term) : (arena.addDecl decl).2.Holds other ↔
      arena.Holds other ∨ other = .decl (arena.addDecl decl).1 :=
        Arena.holds_addDecl decl
  have reads (other : Term) (apart : other ≠ .decl (arena.addDecl decl).1) :
      arena.Reads (arena.addDecl decl).2 other := Arena.reads_addDecl apart
  generalize (arena.addDecl decl).1 = slot, (arena.addDecl decl).2 = after at *
  have apart {other : DeclId} (held : arena.Holds (.decl other)) :
      other ≠ slot := by
    rintro rfl
    exact new held
  have same {other : DeclId} (held : arena.Holds (.decl other)) :
      after.decl other = arena.decl other :=
    reads _ fun equal => apart held (Term.decl.inj equal)
  have marks {piece : Piece}
      (listed : piece ∈ Piece.begun slot ::ₘ .unsaved slot ::ₘ
      .unnamed slot decl.scope place ::ₘ rest) :
      piece ∈ rest ∨ piece = .begun slot ∨ piece = .unsaved slot ∨
        piece = .unnamed slot decl.scope place := by
    simp only [Multiset.mem_cons] at listed
    tauto
  have stay {piece : Piece} (listed : piece ∈ rest) :
      piece ∈ Piece.begun slot ::ₘ
      .unsaved slot ::ₘ .unnamed slot decl.scope place ::ₘ rest := by
    simp [listed]
  have begun {other : DeclId} (listed : Piece.begun other ∈ Piece.begun slot ::ₘ
      .unsaved slot ::ₘ .unnamed slot decl.scope place ::ₘ rest) :
      other = slot ∨ Piece.begun other ∈ rest := by
    rcases marks listed with was | equal | equal | equal <;> simp_all
  have unnamed {other : DeclId} {inside : ScopeId} {region : Nat}
      (listed : Piece.unnamed other inside region ∈
        Piece.begun slot ::ₘ .unsaved slot ::ₘ
        .unnamed slot decl.scope place ::ₘ rest) :
      (other = slot ∧ inside = decl.scope) ∨ Piece.unnamed other inside region ∈
        rest := by
    rcases marks listed with was | equal | equal | equal <;> simp_all
  have keeps :
      Keeps { arena := arena, table := table, saved := saved, stock := rest }
      { arena := after, table := table, saved := saved
        stock := .begun slot ::ₘ .unsaved slot ::ₘ .unnamed slot decl.scope
          place ::ₘ rest } :=
    keeps_of (fun held => (holds _).mpr (.inl held))
      (fun {name} _ => reads (.name name) Term.noConfusion)
      (fun held again => (begun again).resolve_left (apart held))
      (fun held ⟨inside, region, again⟩ => ⟨inside, region,
        (unnamed again).resolve_left fun equal => apart held equal.1⟩)
      (fun held => ⟨congrArg _ (same held), fun _ => congrArg _ (same held)⟩)
      (Nat.le_refl _) id
  have unclaimed {claim : Claim} (claimed : claim ∈ rest.claims) :
      claim.subject ≠ .decl slot :=
    fun equal => new (equal ▸ upright.held_of_claimed claimed)
  have whole (other : Term) :
      Whole { arena := after, table := table, saved := saved
              stock :=
                .begun slot ::ₘ .unsaved slot ::ₘ .unnamed slot decl.scope place
                  ::ₘ rest }
          other ↔
        Whole { arena := arena, table := table, saved := saved, stock := rest }
          other := by
    refine ⟨fun now => ?_, keeps.whole⟩
    have held : arena.Holds other :=
      ((holds other).mp now.1).resolve_right fun equal =>
      now.2 slot equal (Multiset.mem_cons_self ..)
    exact ⟨held, fun id equal again => now.2 id equal (stay again)⟩
  have unbound :
      Unbound { arena := arena, table := table, saved := saved, stock := rest }
      slot :=
    fun inside key set listed member =>
      new ((upright.members inside key set listed).2 slot member).1.held
  refine ⟨keeps, upright.advance keeps (upright.forest.congr whole ?_ ?_ ?_) ?_
    ?_ ?_ ?_ ?_ ?_ ?_
    ?_ (fun _ _ _ => .inl) (fun _ _ => .inl) (fun _ => .inl) ?_⟩
  · intro other unit
    cases other with
    | stmt stmt => exact (reads (.stmt stmt) Term.noConfusion).isUnit ▸ unit
    | _ => cases unit
  · exact fun other was => (reads other fun equal => new (equal ▸ was.1)).parts
  · exact fun other listed => by simpa using listed
  · have linear := upright.linear
    simp only [Stock.claims_cons, Piece.claims, Multiset.singleton_add,
      Multiset.nodup_cons, Multiset.mem_cons, reduceCtorEq, false_or]
    exact ⟨fun claimed => unclaimed claimed rfl, fun claimed =>
      unclaimed claimed rfl,
      fun claimed => unclaimed claimed rfl, linear⟩
  · intro piece listed
    rcases marks listed with was | rfl | rfl | rfl
    · exact .inl was
    all_goals exact .inr trivial
  · intro other listed
    rcases begun listed with rfl | was
    · exact .inr ⟨(holds _).mpr (.inr rfl), by rw [found]; exact hollow⟩
    · exact .inl ⟨was, congrArg _ (same (upright.begun other was).1)⟩
  · intro other inside region listed
    rcases unnamed listed with ⟨rfl, rfl⟩ | was
    · exact ⟨Multiset.mem_cons_self ..,
        .inr ⟨by rw [found]; exact nameless, by rw [found]⟩⟩
    · obtain ⟨started, -⟩ := upright.unnamed _ _ _ was
      exact ⟨stay started,
        .inl ⟨was, congrArg _ (same (upright.begun other started).1)⟩⟩
  · intro other claimed
    simp only [Stock.claims_cons, Piece.claims, Multiset.mem_add,
      Multiset.mem_singleton, reduceCtorEq, false_or, Claim.unbound.injEq]
      at claimed
    rcases claimed with rfl | was
    · exact unbound
    · exact upright.unbound other was
  · intro other listed
    rcases marks listed with was | equal | equal | equal
    · obtain ⟨held, free⟩ := upright.unsaved other was
      exact ⟨(holds _).mpr (.inl held), free⟩
    · cases equal
    · obtain rfl := Piece.unsaved.inj equal
      refine ⟨(holds _).mpr (.inr rfl),
        List.lookup_eq_none_iff.mpr fun entry listed => ?_⟩
      simpa using fun equal : other = entry.1 =>
        new (equal ▸ (upright.saved entry listed).1)
    · cases equal
  · intro other held named
    refine .inl ⟨((holds _).mp held).resolve_right ?_,
      by rintro ⟨inside, region, was⟩; exact named ⟨inside, region, stay was⟩⟩
    rintro ⟨⟩
    exact named ⟨decl.scope, place, by simp⟩
  · intro other held
    by_cases equal : other = .decl slot
    · subst equal
      refine .inr ⟨by rintro _ ⟨⟩, by rintro _ ⟨⟩, fun inside kept => ?_⟩
      obtain rfl : decl.scope = inside := by
        simpa [Arena.scope?, found] using kept
      exact upright.backed (.room decl.scope) room
    · exact .inl ⟨((holds _).mp held).resolve_right equal, reads other equal⟩
  · intro other now
    have was := (whole _).mp now
    exact .inl ⟨was, congrArg _ (same was.1)⟩

/-- A declaration gets its name. -/
theorem Upright.christen
    {name : NameId}
    {key : Key}
    {place : Nat}
    (upright : Upright
      { arena := arena, table := table, saved := saved,
        stock := .unnamed decl scope place ::ₘ rest })
    (named : Piece.named name key true ∈ rest) :
    Keeps
        { arena := arena, table := table, saved := saved
          stock := .unnamed decl scope place ::ₘ rest }
        { arena := arena.updateDecl decl fun old => { old with name := name }
          table := table, saved := saved, stock :=
            .fresh decl scope key place ::ₘ rest } ∧
      Upright
        { arena := arena.updateDecl decl fun old => { old with name := name }
          table := table, saved := saved, stock :=
            .fresh decl scope key place ::ₘ rest } := by
  obtain ⟨started, -, inside⟩ :=
    upright.unnamed decl scope place (Multiset.mem_cons_self ..)
  have held := (upright.begun decl started).1
  obtain ⟨⟨nameHeld, -⟩, keyed⟩ :=
    upright.backed _ (Multiset.mem_cons_of_mem named)
  have linear := upright.linear
  simp only [Stock.claims_cons, Piece.claims, Multiset.singleton_add,
    Multiset.nodup_cons] at linear
  have found := Arena.decl_updateDecl held fun old => { old with name := name }
  have holds (other : Term) :
      (arena.updateDecl decl fun old => { old with name := name }).Holds other ↔
        arena.Holds other :=
    Arena.holds_updateDecl _ other
  have reads (other : Term) (apart : other ≠ .decl decl) :
      arena.Reads (arena.updateDecl decl fun old => { old with name := name })
        other :=
    Arena.reads_updateDecl apart _
  generalize (arena.updateDecl decl fun old => { old with name := name }) =
    after at *
  have apart {other : DeclId} (different : other ≠ decl) : after.decl other =
      arena.decl other :=
    reads (.decl other) fun equal => different (Term.decl.inj equal)
  have form (other : DeclId) : (after.decl other).form =
      (arena.decl other).form := by
    by_cases equal : other = decl
    · rw [equal, found]
    · rw [apart equal]
  have atScope (other : DeclId) : (after.decl other).scope =
      (arena.decl other).scope := by
    by_cases equal : other = decl
    · rw [equal, found]
    · rw [apart equal]
  have unnamedBefore {other : DeclId} {region : ScopeId} {origin : Nat}
      (listed : Piece.unnamed other region origin ∈ rest) : other ≠ decl := by
    rintro rfl
    exact linear.1
      (Stock.mem_claims.mpr ⟨_, listed, Multiset.mem_singleton_self _⟩)
  have begun (other : DeclId) :
      Piece.begun other ∈ Piece.fresh decl scope key place ::ₘ rest ↔
      Piece.begun other ∈ Piece.unnamed decl scope place ::ₘ rest := by
    simp
  have whole (other : Term) :
      Whole { arena := after, table := table, saved := saved
              stock := .fresh decl scope key place ::ₘ rest } other ↔
        Whole { arena := arena, table := table, saved := saved
                stock := .unnamed decl scope place ::ₘ rest } other := by
    simp only [Whole, Begun, begun, holds]
  have keeps : Keeps
      { arena := arena, table := table, saved := saved
        stock := .unnamed decl scope place ::ₘ rest }
      { arena := after, table := table, saved := saved
        stock := .fresh decl scope key place ::ₘ rest } :=
    keeps_of (fun was => (holds _).mpr was)
      (fun {name} _ => reads (.name name) Term.noConfusion)
      (fun _ => (begun _).mp)
      (by
        rintro _ _ ⟨region, origin, listed⟩
        exact ⟨region, origin, by simp at listed ⊢; exact .inr listed⟩)
      (fun {other} _ => ⟨atScope other, fun christened => by
        rw [apart fun equal => christened ⟨scope, place, by simp [equal]⟩]⟩)
      (Nat.le_refl _) id
  have ready : Keyed { arena := after, table := table, saved := saved
                       stock := .fresh decl scope key place ::ₘ rest } decl
                         key := by
    refine ⟨(holds _).mpr held, ?_, ?_, ?_⟩
    · rintro ⟨region, origin, listed⟩
      have old : Piece.unnamed decl region origin ∈ rest := by
        simpa using listed
      exact unnamedBefore old rfl
    · rw [found]
      exact (holds (.name name)).mpr nameHeld
    · rw [found, reads (.name name) Term.noConfusion]
      exact keyed rfl
  refine ⟨keeps, upright.advance keeps (upright.forest.congr whole ?_ ?_ ?_) ?_
    ?_ ?_ ?_ ?_ ?_ ?_
    ?_ (fun _ _ _ => .inl) (fun _ _ => .inl)
    (fun _ => .inl) fun other now => .inl ⟨(whole _).mp now, form other⟩⟩
  · intro other unit
    cases other with
    | stmt stmt => exact (reads (.stmt stmt) Term.noConfusion).isUnit ▸ unit
    | _ => cases unit
  · intro other was
    by_cases equal : other = .decl decl
    · rw [equal, Arena.parts, Arena.parts, form]
    · exact (reads other equal).parts
  · exact fun other listed => by simpa using listed
  · simpa [Piece.claims] using linear
  · intro piece listed
    rcases Multiset.mem_cons.mp listed with rfl | old
    · exact .inr ⟨ready, (atScope decl).trans inside⟩
    · exact .inl (Multiset.mem_cons_of_mem old)
  · exact fun other listed => .inl ⟨(begun other).mp listed, form other⟩
  · intro other region origin listed
    have old : Piece.unnamed other region origin ∈ rest := by simpa using listed
    have was := upright.unnamed _ _ _ (Multiset.mem_cons_of_mem old)
    exact ⟨(begun other).mpr was.1,
      .inl ⟨Multiset.mem_cons_of_mem old, by rw [apart (unnamedBefore old)]⟩⟩
  · exact fun other claimed =>
      upright.unbound other (by simpa [Piece.claims] using claimed)
  · intro other listed
    obtain ⟨was, free⟩ := upright.unsaved other (by simpa using listed)
    exact ⟨(holds _).mpr was, free⟩
  · intro other stored christened
    by_cases equal : other = decl
    · exact .inr ⟨key, equal ▸ ready⟩
    · refine .inl ⟨(holds _).mp stored, ?_⟩
      rintro ⟨region, origin, listed⟩
      refine christened ⟨region, origin, ?_⟩
      simp only [Multiset.mem_cons, Piece.unnamed.injEq, reduceCtorEq, false_or]
        at listed ⊢
      exact listed.resolve_left fun same => equal same.1
  · intro other stored
    by_cases equal : other = .decl decl
    · subst equal
      refine .inr ⟨by rintro _ ⟨⟩, by rintro _ ⟨⟩, fun region kept => ?_⟩
      have was :=
        (upright.fit (.decl decl) held).scope scope
          (by simp [Arena.scope?, inside])
      obtain rfl : scope = region := by
        simpa [Arena.scope?, atScope, inside] using kept
      exact was
    · exact .inl ⟨(holds _).mp stored, reads other equal⟩

/--
A declaration that has a name gets its final form, on top of terms that nothing
owns.
-/
theorem Upright.complete
    {form : DeclForm}
    {span : Span}
    (upright : Upright
      { arena := arena, table := table, saved := saved
        stock := .begun decl ::ₘ (Piece.terms form.children + rest) })
    (located : rest.Locates decl form)
    (named : ∃ scope key, Piece.bound decl scope key ∈ rest ∨
      ∃ place, Piece.fresh decl scope key place ∈ rest) :
    Keeps
        { arena := arena, table := table, saved := saved
          stock := .begun decl ::ₘ (Piece.terms form.children + rest) }
        { arena := arena.updateDecl decl fun old =>
          { old with form := form, span := span }
          table := table, saved := saved, stock :=
            .term (.decl decl) ::ₘ rest } ∧
      Upright
        { arena := arena.updateDecl decl fun old =>
          { old with form := form, span := span }
          table := table, saved := saved, stock :=
            .term (.decl decl) ::ₘ rest } := by
  have started : Piece.begun decl ∈
      Piece.begun decl ::ₘ (Piece.terms form.children + rest) :=
    Multiset.mem_cons_self ..
  have held := (upright.begun decl started).1
  have stay {piece : Piece} (listed : piece ∈ rest) :
      piece ∈ Piece.begun decl ::ₘ (Piece.terms form.children + rest) := by
    simp [listed]
  have christened : ¬ Unnamed { arena := arena, table := table, saved := saved
                                stock :=
                                  .begun decl ::ₘ
                                    (Piece.terms form.children + rest) }
      decl := by
    obtain ⟨scope, key, bound | ⟨place, fresh⟩⟩ := named
    · exact (upright.backed _ (stay bound)).1.christened
    · exact (upright.backed _ (stay fresh)).1.christened
  have linear := upright.linear
  simp only [Stock.claims_cons, Piece.claims, Stock.claims_add,
    Stock.claims_terms, Multiset.singleton_add, Multiset.nodup_cons,
    Multiset.mem_add, Multiset.nodup_add, not_or] at linear
  have found := Arena.decl_updateDecl held fun old =>
    { old with form := form, span := span }
  have holds (other : Term) :
      (arena.updateDecl decl fun old =>
        { old with form := form, span := span }).Holds other ↔
        arena.Holds other :=
    Arena.holds_updateDecl _ other
  have reads (other : Term) (apart : other ≠ .decl decl) :
      arena.Reads (arena.updateDecl decl fun old =>
        { old with form := form, span := span }) other :=
    Arena.reads_updateDecl apart _
  generalize (arena.updateDecl decl fun old =>
    { old with form := form, span := span }) = after at *
  have apart {other : DeclId} (different : other ≠ decl) : after.decl other =
      arena.decl other :=
    reads (.decl other) fun equal => different (Term.decl.inj equal)
  have kept (other : DeclId) : (after.decl other).name =
      (arena.decl other).name ∧
      (after.decl other).scope = (arena.decl other).scope := by
    by_cases equal : other = decl
    · rw [equal, found]
      exact ⟨rfl, rfl⟩
    · rw [apart equal]
      exact ⟨rfl, rfl⟩
  have begun {other : DeclId} (different : other ≠ decl) :
      Piece.begun other ∈ Piece.term (.decl decl) ::ₘ rest ↔
        Piece.begun other ∈
          Piece.begun decl ::ₘ (Piece.terms form.children + rest) := by
    simp [Piece.terms, different]
  have finished : Piece.begun decl ∉ Piece.term (.decl decl) ::ₘ rest :=
    fun listed =>
    linear.1.2 (Stock.mem_claims.mpr
      ⟨.begun decl, by simpa using listed, by simp [Piece.claims]⟩)
  have unnamed (other : DeclId) (scope : ScopeId) (place : Nat) :
      Piece.unnamed other scope place ∈ Piece.term (.decl decl) ::ₘ rest ↔
        Piece.unnamed other scope place ∈
          Piece.begun decl ::ₘ (Piece.terms form.children + rest) := by
    simp [Piece.terms]
  have whole (other : Term) :
      Whole { arena := after, table := table, saved := saved,
              stock := .term (.decl decl) ::ₘ rest }
          other ↔
        Whole { arena := arena, table := table, saved := saved
                stock := .begun decl ::ₘ (Piece.terms form.children + rest) }
                  other ∨
          other = .decl decl := by
    simp only [Whole, Begun, holds]
    constructor
    · rintro ⟨stored, complete⟩
      by_cases equal : other = .decl decl
      · exact .inr equal
      · refine .inl ⟨stored, fun id same listed =>
          complete id same ((begun ?_).mpr listed)⟩
        rintro rfl
        exact equal same
    · rintro (⟨stored, complete⟩ | rfl)
      · refine ⟨stored, fun id same listed => complete id same ?_⟩
        by_cases equal : id = decl
        · exact equal ▸ started
        · exact (begun equal).mp listed
      · refine ⟨held, ?_⟩
        rintro id ⟨⟩
        exact finished
  have waited : ¬ Whole { arena := arena, table := table, saved := saved
                          stock :=
                            .begun decl ::ₘ (Piece.terms form.children + rest) }
      (.decl decl) := fun was => was.2 decl rfl started
  have keeps : Keeps
      { arena := arena, table := table, saved := saved
        stock := .begun decl ::ₘ (Piece.terms form.children + rest) }
      { arena := after, table := table, saved := saved,
        stock := .term (.decl decl) ::ₘ rest } := by
    refine keeps_of (fun was => (holds _).mpr was)
      (fun {name} _ => reads (.name name) Term.noConfusion)
      (fun {other} _ listed => ?_)
      (by
        rintro _ _ ⟨scope, place, listed⟩
        exact ⟨scope, place, (unnamed _ _ _).mp listed⟩)
      (fun {other} _ => ⟨(kept other).2, fun _ => (kept other).1⟩)
        (Nat.le_refl _) id
    exact (begun fun equal => finished (equal ▸ listed)).mp listed
  have parts : after.parts (.decl decl) = form.children := by
    rw [Arena.parts, found]
  have forest :=
    upright.forest_of_whole (Multiset.le_cons_self _ _) waited whole reads parts
    fun other listed => (Multiset.mem_cons.mp listed).imp_left fun new =>
      ⟨Piece.term.inj new, rfl⟩
  refine ⟨keeps, upright.advance keeps forest ?_ ?_ ?_ ?_ ?_ ?_ ?_
    ?_ (fun _ _ _ => .inl) (fun _ _ => .inl) (fun _ => .inl) ?_⟩
  · simp only [Stock.claims_cons, Piece.claims, Multiset.singleton_add,
      Multiset.nodup_cons]
    exact ⟨fun claimed =>
      waited (upright.forest.loose (stay (Stock.term_mem_claims.mp claimed))).1,
      linear.2.2.1⟩
  · intro piece listed
    rcases Multiset.mem_cons.mp listed with rfl | old
    · exact .inr trivial
    · exact .inl (stay old)
  · intro other listed
    have different : other ≠ decl := fun equal => finished (equal ▸ listed)
    exact .inl ⟨(begun different).mp listed, by rw [apart different]⟩
  · intro other scope place listed
    have was := (unnamed _ _ _).mp listed
    have different : other ≠ decl := by
      rintro rfl
      exact christened ⟨scope, place, was⟩
    exact ⟨(begun different).mpr (upright.unnamed _ _ _ was).1,
      .inl ⟨was, (kept other).1⟩⟩
  · intro other claimed
    refine upright.unbound other ?_
    simp only [Stock.claims_cons, Piece.claims, Multiset.mem_add,
      Multiset.mem_singleton, reduceCtorEq, false_or] at claimed
    simp [claimed]
  · intro other listed
    obtain ⟨was, free⟩ := upright.unsaved other (stay (by simpa using listed))
    exact ⟨(holds _).mpr was, free⟩
  · exact fun other stored named => .inl ⟨(holds _).mp stored,
      by
        rintro ⟨scope, place, was⟩
        exact named ⟨scope, place, (unnamed _ _ _).mpr was⟩⟩
  · intro other stored
    by_cases equal : other = .decl decl
    · subst equal
      refine .inr ⟨by rintro _ ⟨⟩, by rintro _ ⟨⟩, fun scope kept' => ?_⟩
      refine (upright.fit (.decl decl) held).scope scope ?_
      simpa [Arena.scope?, kept] using kept'
    · exact .inl ⟨(holds _).mp stored, reads other equal⟩
  · intro other now
    by_cases equal : other = decl
    · subst equal
      right
      rintro role params result definition given
      rw [found] at given
      obtain rfl : form = _ := given
      obtain ⟨scope, saving, inside⟩ := located
      refine ⟨scope, upright.backed _ (stay saving), fun param listed => ?_⟩
      rw [(kept param).2]
      rcases inside param listed with ⟨key, bound⟩ |
          ⟨place, slated, stop, key, begun, asleep, given⟩
      · exact (upright.backed _ (stay bound)).2
      · exact ((upright.backed _ (stay asleep)).2 _ given).2
    · exact .inl ⟨((whole _).mp now).resolve_right
        (by simpa using equal), by rw [apart equal]⟩

end Worksite

end Tern
