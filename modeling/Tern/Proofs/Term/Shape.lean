import Mathlib.Data.List.Forall2
import Tern.Proofs.Term.Descent

namespace Tern

/-!
# Written forms depend on shape

Two terms, each in an arena of its own, have one shape if one can be told from
the other only by the slots that they use, by the numbers of minted names, and
by what is never written: spans, scopes, phases, specifiers, the indices of type
parameters, and which declarations are meant. Terms of one shape are written
alike.
-/

/--
Two lists of slots are of one length, and the terms in their slots correspond in
order.
-/
def AllSame
    {Id : Type}
    (same : Term → Term → Prop)
    (make : Id → Term)
    (ids others : List Id) : Prop :=
  List.Forall₂ (fun id other => same (make id) (make other)) ids others

/-- Names of one shape: equal texts, minted names, or templates that are spelled
alike, applied to arguments that correspond. -/
inductive NameForm.Alike
    (same : Term → Term → Prop)
    (spelled : DeclId → DeclId → Prop)
    (names others : Names) : NameForm → NameForm → Prop where
  | simple {name other : Name}
      (sameText : names.text name = others.text other) :
      Alike same spelled names others (.simple name) (.simple other)
  | placeholder (number other : Nat) :
      Alike same spelled names others (.placeholder number) (.placeholder other)
  | applied {template other : DeclId} {args otherArgs : List TemplateArg}
      (sameSpelling : spelled template other)
      (sameArgs : AllSame same TemplateArg.term args otherArgs) :
      Alike same spelled names others (.applied template args)
        (.applied other otherArgs)

/-- Types of one shape. -/
inductive TypeForm.Alike (same : Term → Term → Prop) :
    TypeForm → TypeForm → Prop where
  | builtin (type : BuiltinType) : Alike same (.builtin type) (.builtin type)
  | declared (decl otherDecl : DeclId) {name otherName : NameId}
      (sameName : same (.name name) (.name otherName)) :
      Alike same (.declared decl name) (.declared otherDecl otherName)
  | function {params otherParams : List TypeId} {result otherResult : TypeId}
      (sameParams : AllSame same .type params otherParams)
      (sameResult : same (.type result) (.type otherResult)) :
      Alike same (.function params result) (.function otherParams otherResult)
  | wrapped (wrapper : TypeWrapper) {inner otherInner : TypeId}
      (sameInner : same (.type inner) (.type otherInner)) :
      Alike same (.wrapped wrapper inner) (.wrapped wrapper otherInner)
  | array {element otherElement : TypeId} {length otherLength : ExprId}
      (sameElement : same (.type element) (.type otherElement))
      (sameLength : same (.expr length) (.expr otherLength)) :
      Alike same (.array element length) (.array otherElement otherLength)
  | tuple {elements otherElements : List TypeId}
      (sameElements : AllSame same .type elements otherElements) :
      Alike same (.tuple elements) (.tuple otherElements)
  | decltype {operand otherOperand : ExprId}
      (sameOperand : same (.expr operand) (.expr otherOperand)) :
      Alike same (.decltype operand) (.decltype otherOperand)
  | unparsed {range otherRange : TokenRange}
      (length : range.length = otherRange.length) :
      Alike same (.unparsed range) (.unparsed otherRange)

/-- Expressions of one shape. -/
inductive ExprForm.Alike (same : Term → Term → Prop) :
    ExprForm → ExprForm → Prop where
  | bool (value : Bool) : Alike same (.bool value) (.bool value)
  | int (value : Nat) : Alike same (.int value) (.int value)
  | reference (decl otherDecl : DeclId) {name otherName : NameId}
      (sameName : same (.name name) (.name otherName)) :
      Alike same (.reference decl name) (.reference otherDecl otherName)
  | overload {name otherName : NameId} {decls otherDecls : List DeclId}
      (sameName : same (.name name) (.name otherName))
      (length : decls.length = otherDecls.length) :
      Alike same (.overload name decls) (.overload otherName otherDecls)
  | unary (op : UnaryOp) {operand otherOperand : ExprId}
      (sameOperand : same (.expr operand) (.expr otherOperand)) :
      Alike same (.unary op operand) (.unary op otherOperand)
  | binary (op : BinaryOp) {left right otherLeft otherRight : ExprId}
      (sameLeft : same (.expr left) (.expr otherLeft))
      (sameRight : same (.expr right) (.expr otherRight)) :
      Alike same (.binary op left right) (.binary op otherLeft otherRight)
  | call {callee otherCallee : ExprId} {args otherArgs : List ExprId}
      (sameCallee : same (.expr callee) (.expr otherCallee))
      (sameArgs : AllSame same .expr args otherArgs) :
      Alike same (.call callee args) (.call otherCallee otherArgs)
  | dot {object otherObject : ExprId} {member otherMember : NameId}
      (sameObject : same (.expr object) (.expr otherObject))
      (sameMember : same (.name member) (.name otherMember)) :
      Alike same (.dot object member) (.dot otherObject otherMember)
  | subscript {object index otherObject otherIndex : ExprId}
      (sameObject : same (.expr object) (.expr otherObject))
      (sameIndex : same (.expr index) (.expr otherIndex)) :
      Alike same (.subscript object index) (.subscript otherObject otherIndex)
  | tuple {elements otherElements : List ExprId}
      (sameElements : AllSame same .expr elements otherElements) :
      Alike same (.tuple elements) (.tuple otherElements)
  | requires (scope otherScope : ScopeId) {parms otherParms : List DeclId}
      {reqs otherReqs : List ReqId}
      (sameParms : AllSame same .decl parms otherParms)
      (sameReqs : AllSame same .requirement reqs otherReqs) :
      Alike same (.requires parms reqs scope)
        (.requires otherParms otherReqs otherScope)
  | unparsed {range otherRange : TokenRange}
      (length : range.length = otherRange.length) :
      Alike same (.unparsed range) (.unparsed otherRange)

/-- Statements of one shape. -/
inductive StmtForm.Alike (same : Term → Term → Prop) :
    StmtForm → StmtForm → Prop where
  | list (role : ListRole) (scope otherScope : ScopeId)
      {stmts otherStmts : List StmtId}
      (sameStmts : AllSame same .stmt stmts otherStmts) :
      Alike same (.list role stmts scope) (.list role otherStmts otherScope)
  | empty : Alike same .empty .empty
  | value (role : ValueRole) {expr otherExpr : ExprId}
      (sameExpr : same (.expr expr) (.expr otherExpr)) :
      Alike same (.value role expr) (.value role otherExpr)
  | declaration {decl otherDecl : DeclId}
      (sameDecl : same (.decl decl) (.decl otherDecl)) :
      Alike same (.declaration decl) (.declaration otherDecl)
  | branch {condition otherCondition : ExprId} {accepted otherAccepted : StmtId}
      {rejected? otherRejected? : Option StmtId}
      (sameCondition : same (.expr condition) (.expr otherCondition))
      (sameAccepted : same (.stmt accepted) (.stmt otherAccepted))
      (sameRejected :
        AllSame same .stmt rejected?.toList otherRejected?.toList) :
      Alike same (.branch condition accepted rejected?)
        (.branch otherCondition otherAccepted otherRejected?)
  | loop {condition otherCondition : ExprId} {body otherBody : StmtId}
      (sameCondition : same (.expr condition) (.expr otherCondition))
      (sameBody : same (.stmt body) (.stmt otherBody)) :
      Alike same (.loop condition body) (.loop otherCondition otherBody)
  | jump (target : Jump) : Alike same (.jump target) (.jump target)
  | unparsed {range otherRange : TokenRange}
      (length : range.length = otherRange.length) :
      Alike same (.unparsed range) (.unparsed otherRange)

/-- Declarations of one shape, whose names are compared apart. -/
inductive DeclForm.Alike (same : Term → Term → Prop) :
    DeclForm → DeclForm → Prop where
  | object (role : ObjectRole) {type otherType : TypeId}
      {definition otherDefinition : DefId}
      (sameType : same (.type type) (.type otherType))
      (sameDefinition :
        same (.definition definition) (.definition otherDefinition)) :
      Alike same (.object role type definition)
        (.object role otherType otherDefinition)
  | parameter {type otherType : TypeId}
      (sameType : same (.type type) (.type otherType)) :
      Alike same (.parameter type) (.parameter otherType)
  | callable (role : CallableRole) {params otherParams : List DeclId}
      {result otherResult : TypeId} {definition otherDefinition : DefId}
      (sameParams : AllSame same .decl params otherParams)
      (sameResult : same (.type result) (.type otherResult))
      (sameDefinition :
        same (.definition definition) (.definition otherDefinition)) :
      Alike same (.callable role params result definition)
        (.callable role otherParams otherResult otherDefinition)
  | classType {kind otherKind : TypeId} {definition otherDefinition : DefId}
      (sameKind : same (.type kind) (.type otherKind))
      (sameDefinition :
        same (.definition definition) (.definition otherDefinition)) :
      Alike same (.classType kind definition)
        (.classType otherKind otherDefinition)
  | typeParameter (index otherIndex : Nat)
      {default? otherDefault? : Option TypeId}
      (sameDefault : AllSame same .type default?.toList otherDefault?.toList) :
      Alike same (.typeParameter index default?)
        (.typeParameter otherIndex otherDefault?)
  | concept {parms otherParms : List DeclId}
      {definition otherDefinition : DefId}
      (sameParms : AllSame same .decl parms otherParms)
      (sameDefinition :
        same (.definition definition) (.definition otherDefinition)) :
      Alike same (.concept parms definition)
        (.concept otherParms otherDefinition)
  | namespaceBlock {body otherBody : StmtId}
      (sameBody : same (.stmt body) (.stmt otherBody)) :
      Alike same (.namespaceBlock body) (.namespaceBlock otherBody)
  | template {parms otherParms : List DeclId}
      {constraint? otherConstraint? : Option ExprId}
      {inner otherInner : DeclId}
      (sameParms : AllSame same .decl parms otherParms)
      (sameConstraint :
        AllSame same .expr constraint?.toList otherConstraint?.toList)
      (sameInner : same (.decl inner) (.decl otherInner)) :
      Alike same (.template parms constraint? inner)
        (.template otherParms otherConstraint? otherInner)

/-- Definitions of one shape. -/
inductive DefForm.Alike (same : Term → Term → Prop) :
    DefForm → DefForm → Prop where
  | empty : Alike same .empty .empty
  | expression {expr otherExpr : ExprId}
      (sameExpr : same (.expr expr) (.expr otherExpr)) :
      Alike same (.expression expr) (.expression otherExpr)
  | body {stmt otherStmt : StmtId}
      (sameStmt : same (.stmt stmt) (.stmt otherStmt)) :
      Alike same (.body stmt) (.body otherStmt)
  | members {stmt otherStmt : StmtId}
      (sameStmt : same (.stmt stmt) (.stmt otherStmt)) :
      Alike same (.members stmt) (.members otherStmt)
  | requirements {reqs otherReqs : List ReqId}
      (sameReqs : AllSame same .requirement reqs otherReqs) :
      Alike same (.requirements reqs) (.requirements otherReqs)
  | deleted : Alike same .deleted .deleted
  | defaulted : Alike same .defaulted .defaulted

/-- Requirements of one shape. -/
inductive ReqForm.Alike (same : Term → Term → Prop) :
    ReqForm → ReqForm → Prop where
  | type {required otherRequired : TypeId}
      (sameRequired : same (.type required) (.type otherRequired)) :
      Alike same (.type required) (.type otherRequired)
  | stated (role : StatedRole) {expr otherExpr : ExprId}
      (sameExpr : same (.expr expr) (.expr otherExpr)) :
      Alike same (.stated role expr) (.stated role otherExpr)
  | typed (role : TypedRole) {expr otherExpr : ExprId}
      {target otherTarget : TypeId}
      (sameExpr : same (.expr expr) (.expr otherExpr))
      (sameTarget : same (.type target) (.type otherTarget)) :
      Alike same (.typed role expr target) (.typed role otherExpr otherTarget)

/--
Terms that correspond are written alike, as far as they are among given ones.
-/
structure WrittenAlike
    (same : Term → Term → Prop)
    (write writeOther : Term → String)
    (terms others : List Term) : Prop where
  eq : ∀ {term other : Term}, same term other → term ∈ terms → other ∈ others →
    write term = writeOther other

section

variable {same : Term → Term → Prop} {write writeOther : Term → String}

/-- Lists that correspond are written alike, word by word. -/
private theorem WrittenAlike.map_eq
    {Id : Type}
    {make : Id → Term}
    {terms otherTerms : List Term}
    {ids others : List Id}
    (agree : WrittenAlike same write writeOther terms otherTerms)
    (all : AllSame same make ids others)
    (inside : ∀ id ∈ ids, make id ∈ terms)
    (insideOther : ∀ other ∈ others, make other ∈ otherTerms) :
    ids.map (write ∘ make) = others.map (writeOther ∘ make) := by
  induction all with
  | nil => rfl
  | cons first _ inductionHypothesis =>
      obtain ⟨here, later⟩ := List.forall_mem_cons.mp inside
      obtain ⟨hereOther, laterOther⟩ := List.forall_mem_cons.mp insideOther
      rw [List.map_cons, List.map_cons, inductionHypothesis later laterOther]
      exact congrArg (· :: _) (agree.eq first here hereOther)

private theorem TokenRange.render_eq
    {range other : TokenRange}
    (length : range.length = other.length) :
    range.render = other.render := by
  rw [TokenRange.render, TokenRange.render, length]

private theorem TypeForm.Alike.render_eq
    {form other : TypeForm}
    (alike : form.Alike same other)
    (agree : WrittenAlike same write writeOther form.children other.children) :
    form.render write = other.render writeOther := by
  cases alike with
  | builtin type => rfl
  | declared _ _ sameName =>
      exact agree.eq sameName (by simp [children]) (by simp [children])
  | function sameParams sameResult =>
      rw [render, render,
        agree.map_eq sameParams (by simp +contextual [children])
          (by simp +contextual [children]),
        agree.eq sameResult (by simp [children]) (by simp [children])]
  | wrapped wrapper sameInner =>
      rw [render, render,
        agree.eq sameInner (by simp [children]) (by simp [children])]
  | array sameElement sameLength =>
      rw [render, render, agree.eq sameElement (by simp [children])
        (by simp [children]), agree.eq sameLength (by simp [children])
        (by simp [children])]
  | tuple sameElements =>
      rw [render, render, agree.map_eq sameElements (by simp [children])
        (by simp [children])]
  | decltype sameOperand =>
      rw [render, render, agree.eq sameOperand (by simp [children])
        (by simp [children])]
  | unparsed length => exact TokenRange.render_eq length

private theorem ExprForm.Alike.render_eq
    {form other : ExprForm}
    (alike : form.Alike same other)
    (agree : WrittenAlike same write writeOther form.children other.children) :
    form.render write = other.render writeOther := by
  cases alike with
  | bool value => rfl
  | int value => rfl
  | reference _ _ sameName =>
      exact agree.eq sameName (by simp [children]) (by simp [children])
  | overload sameName length =>
      rw [render, render,
        agree.eq sameName (by simp [children]) (by simp [children]), length]
  | unary op sameOperand =>
      rw [render, render, agree.eq sameOperand (by simp [children])
        (by simp [children])]
  | binary op sameLeft sameRight =>
      rw [render, render,
        agree.eq sameLeft (by simp [children]) (by simp [children]),
        agree.eq sameRight (by simp [children]) (by simp [children])]
  | call sameCallee sameArgs =>
      rw [render, render, agree.eq sameCallee (by simp [children])
        (by simp [children]), agree.map_eq sameArgs
        (by simp +contextual [children]) (by simp +contextual [children])]
  | dot sameObject sameMember =>
      rw [render, render, agree.eq sameObject (by simp [children])
        (by simp [children]), agree.eq sameMember (by simp [children])
        (by simp [children])]
  | subscript sameObject sameIndex =>
      rw [render, render, agree.eq sameObject (by simp [children])
        (by simp [children]),
        agree.eq sameIndex (by simp [children]) (by simp [children])]
  | tuple sameElements =>
      rw [render, render, agree.map_eq sameElements (by simp [children])
        (by simp [children])]
  | requires _ _ sameParms sameReqs =>
      rw [render, render,
        agree.map_eq sameParms (by simp +contextual [children])
          (by simp +contextual [children]),
        agree.map_eq sameReqs (by simp +contextual [children])
          (by simp +contextual [children])]
  | unparsed length => exact TokenRange.render_eq length

private theorem StmtForm.Alike.render_eq
    {form other : StmtForm}
    (alike : form.Alike same other)
    (agree : WrittenAlike same write writeOther form.children other.children) :
    form.render write = other.render writeOther := by
  cases alike with
  | list role _ _ sameStmts =>
      rw [render, render, agree.map_eq sameStmts (by simp [children])
        (by simp [children])]
  | empty => rfl
  | value role sameExpr =>
      rw [render, render,
        agree.eq sameExpr (by simp [children]) (by simp [children])]
  | declaration sameDecl =>
      exact agree.eq sameDecl (by simp [children]) (by simp [children])
  | branch sameCondition sameAccepted sameRejected =>
      rw [render, render, agree.eq sameCondition (by simp [children])
        (by simp [children]), agree.eq sameAccepted (by simp [children])
        (by simp [children]), agree.map_eq sameRejected
        (by simp +contextual [children]) (by simp +contextual [children])]
  | loop sameCondition sameBody =>
      rw [render, render, agree.eq sameCondition (by simp [children])
        (by simp [children]),
        agree.eq sameBody (by simp [children]) (by simp [children])]
  | jump target => rfl
  | unparsed length => exact TokenRange.render_eq length

private theorem DeclForm.Alike.render_eq
    {name otherName : NameId}
    {form other : DeclForm}
    (named : write (.name name) = writeOther (.name otherName))
    (alike : form.Alike same other)
    (agree : WrittenAlike same write writeOther form.children other.children) :
    form.render write name = other.render writeOther otherName := by
  cases alike with
  | object role sameType sameDefinition =>
      rw [render, render, named,
        agree.eq sameType (by simp [children]) (by simp [children]),
        agree.eq sameDefinition (by simp [children]) (by simp [children])]
  | parameter sameType =>
      rw [render, render, named,
        agree.eq sameType (by simp [children]) (by simp [children])]
  | callable role sameParams sameResult sameDefinition =>
      rw [render, render, named,
        agree.map_eq sameParams (by simp +contextual [children])
          (by simp +contextual [children]),
        agree.eq sameResult (by simp [children]) (by simp [children]),
        agree.eq sameDefinition (by simp [children]) (by simp [children])]
  | classType sameKind sameDefinition =>
      rw [render, render, named,
        agree.eq sameKind (by simp [children]) (by simp [children]),
        agree.eq sameDefinition (by simp [children]) (by simp [children])]
  | typeParameter _ _ sameDefault =>
      rw [render, render, named,
        agree.map_eq sameDefault (by simp +contextual [children])
          (by simp +contextual [children])]
  | concept sameParms sameDefinition =>
      rw [render, render, named,
        agree.map_eq sameParms (by simp +contextual [children])
          (by simp +contextual [children]),
        agree.eq sameDefinition (by simp [children]) (by simp [children])]
  | namespaceBlock sameBody =>
      rw [render, render, named,
        agree.eq sameBody (by simp [children]) (by simp [children])]
  | template sameParms sameConstraint sameInner =>
      have required :=
        congrArg (List.map fun text => parenthesize ["requires", text])
        (agree.map_eq sameConstraint (by simp +contextual [children])
          (by simp +contextual [children]))
      simp only [List.map_map] at required
      rw [render, render,
        agree.map_eq sameParms (by simp +contextual [children])
          (by simp +contextual [children]),
        agree.eq sameInner (by simp [children]) (by simp [children])]
      exact congrArg (fun words => parenthesize (_ :: _ :: words ++ _)) required

private theorem DefForm.Alike.render_eq
    {form other : DefForm}
    (alike : form.Alike same other)
    (agree : WrittenAlike same write writeOther form.children other.children) :
    form.render write = other.render writeOther := by
  cases alike with
  | empty => rfl
  | expression sameExpr =>
      rw [render, render,
        agree.eq sameExpr (by simp [children]) (by simp [children])]
  | body sameStmt =>
      exact agree.eq sameStmt (by simp [children]) (by simp [children])
  | members sameStmt =>
      exact agree.eq sameStmt (by simp [children]) (by simp [children])
  | requirements sameReqs =>
      rw [render, render, agree.map_eq sameReqs (by simp [children])
        (by simp [children])]
  | deleted => rfl
  | defaulted => rfl

private theorem ReqForm.Alike.render_eq
    {form other : ReqForm}
    (alike : form.Alike same other)
    (agree : WrittenAlike same write writeOther form.children other.children) :
    form.render write = other.render writeOther := by
  cases alike with
  | type sameRequired =>
      rw [render, render, agree.eq sameRequired (by simp [children])
        (by simp [children])]
  | stated role sameExpr =>
      rw [render, render,
        agree.eq sameExpr (by simp [children]) (by simp [children])]
  | typed role sameExpr sameTarget =>
      rw [render, render,
        agree.eq sameExpr (by simp [children]) (by simp [children]),
        agree.eq sameTarget (by simp [children]) (by simp [children])]

private theorem TemplateArg.render_eq (write : Term → String) :
    TemplateArg.render write = write ∘ TemplateArg.term := by
  funext arg
  cases arg <;> rfl

private theorem NameForm.Alike.render_eq
    {older newer : Arena}
    {names others : Names}
    {spelled : DeclId → DeclId → Prop}
    {form other : NameForm}
    (alike : form.Alike same spelled names others other)
    (agree : WrittenAlike same write writeOther form.children other.children)
    (spelling : ∀ {template other}, spelled template other →
      write (.name (older.decl template).name) =
        writeOther (.name (newer.decl other).name)) :
    form.render write older names = other.render writeOther newer others := by
  cases alike with
  | simple sameText => exact sameText
  | placeholder _ _ => rfl
  | applied sameSpelling sameArgs =>
      rw [render, render, spelling sameSpelling, TemplateArg.render_eq,
        TemplateArg.render_eq,
        agree.map_eq sameArgs (fun _ listed => List.mem_map_of_mem listed)
        fun _ listed => List.mem_map_of_mem listed]

end

namespace Arena

/-- The written form of a term, given those of the terms that it shows. -/
def writeWith
    (arena : Arena)
    (names : Names)
    (write : Term → String) :
    Term → String
  | .name id => (arena.name id).form.render write arena names
  | .type id => (arena.type id).form.render write
  | .expr id => (arena.expr id).form.render write
  | .stmt id => (arena.stmt id).form.render write
  | .decl id => (arena.decl id).form.render write (arena.decl id).name
  | .definition id => (arena.definition id).form.render write
  | .requirement id => (arena.requirement id).form.render write

/-- The terms whose written forms that of a term shows: those that it owns, and
the name of the template that it applies. -/
def shown (arena : Arena) (term : Term) : List Term :=
  arena.children term
    ++ (arena.template? term).toList.map fun template =>
      .name (arena.decl template).name

/--
What a written form shows comes to an end, and is stored as far as it shows
more.
-/
structure Legible (arena : Arena) (root : Term) : Prop where
  ends : Acc (fun part term => part ∈ arena.shown term) root
  held : ∀ term,
    Relation.ReflTransGen (fun term part => part ∈ arena.shown term) root term →
    arena.shown term ≠ [] → arena.Holds term

variable {arena : Arena} {root term : Term} {depth more : Nat}

private theorem renderWithin_succ
    (arena : Arena)
    (names : Names)
    (depth : Nat)
    (term : Term) :
    arena.renderWithin names (depth + 1) term =
      arena.writeWith names (arena.renderWithin names depth) term := by
  cases term <;> rfl

private theorem mem_shown_of_owned
    {part : Term}
    (owned : part ∈ arena.children term) :
    part ∈ arena.shown term :=
  List.mem_append_left _ owned

private theorem mem_shown_of_applied
    {id : NameId}
    {template : DeclId}
    (applied : (arena.name id).form.template? = some template) :
    Term.name (arena.decl template).name ∈ arena.shown (.name id) :=
  List.mem_append_right _ (by simp [Arena.template?, applied])

/-- A written form depends on those of the terms that it shows. -/
private theorem writeWith_congr
    {names : Names}
    {write other : Term → String}
    (same : ∀ part ∈ arena.shown term, write part = other part) :
    arena.writeWith names write term = arena.writeWith names other term := by
  have owned : ∀ part ∈ arena.children term, write part = other part :=
    fun part listed => same part (mem_shown_of_owned listed)
  cases term with
  | name id =>
      exact NameForm.render_congr owned fun template applied =>
        same _ (mem_shown_of_applied applied)
  | type id => exact TypeForm.render_congr owned
  | expr id => exact ExprForm.render_congr owned
  | stmt id => exact StmtForm.render_congr owned
  | decl id =>
      exact DeclForm.render_congr
          (owned _ (List.mem_cons_self ..)) fun part listed =>
        owned part (List.mem_cons_of_mem _ listed)
  | definition id => exact DefForm.render_congr owned
  | requirement id => exact ReqForm.render_congr owned

/--
Writing does not stop before the ends, and so further depth changes nothing.
-/
private theorem renderWithin_of_within
    (names : Names)
    (within : Term.Within arena.shown depth term)
    (enough : depth ≤ more) :
    arena.renderWithin names more term =
      arena.renderWithin names depth term := by
  induction depth generalizing more term with
  | zero => exact within.elim
  | succ depth inductionHypothesis =>
      obtain ⟨more, rfl⟩ :=
        Nat.exists_eq_add_of_le' (Nat.lt_of_lt_of_le (Nat.succ_pos _) enough)
      rw [renderWithin_succ, renderWithin_succ]
      exact writeWith_congr fun part listed =>
        inductionHypothesis (within part listed) (Nat.le_of_succ_le_succ enough)

namespace Legible

private theorem part
    (legible : arena.Legible term)
    {part : Term}
    (listed : part ∈ arena.shown term) :
    arena.Legible part where
  ends := legible.ends.inv listed
  held other onward := legible.held other (.head listed onward)

/--
The written form of a legible term is made of those of the terms that it shows.
-/
private theorem render_eq (legible : arena.Legible term) (names : Names) :
    arena.render names term =
      arena.writeWith names (arena.render names) term := by
  have within := Term.within_termCount legible.ends legible.held
  rw [render, renderWithin_succ]
  exact writeWith_congr fun part listed =>
    (renderWithin_of_within names (within part listed) (Nat.le_succ _)).symm

/-- Terms are legible if what they show is among them, they are stored, and no
way down from them is endless. -/
private theorem of_list
    {terms : List Term}
    (listed : root ∈ terms)
    (closed : ∀ term ∈ terms, ∀ part ∈ arena.shown term, part ∈ terms)
    (held : ∀ term ∈ terms, arena.Holds term)
    (within : Term.Within arena.shown depth root) :
    arena.Legible root where
  ends := within.ends
  held other onward _ := by
    have among : other ∈ terms := by
      clear * - onward listed closed
      induction onward with
      | refl => exact listed
      | tail _ step inductionHypothesis =>
          exact closed _ inductionHypothesis _ step
    exact held other among

end Legible

/-- A tree shows its own terms and, besides, names that show nothing. -/
private theorem Rooted.shown_cases
    (rooted : arena.Rooted root)
    (reached : arena.Owns root term)
    {part : Term}
    (listed : part ∈ arena.shown term) :
    part ∈ arena.children term ∨ arena.shown part = [] := by
  rcases List.mem_append.mp listed with owned | named
  · exact .inl owned
  · obtain ⟨template, found, rfl⟩ := List.mem_map.mp named
    have applied : arena.template? term = some template :=
      Option.mem_toList.mp found
    have plain : (arena.name (arena.decl template).name).form.template? =
        none :=
      rooted.plain reached (.inr (by simp [referred, applied]))
    exact .inr
      (by simp [shown, children_name_eq_nil plain, Arena.template?, plain])

/-- The terms below the root of a tree are legible. -/
theorem Rooted.legible (rooted : arena.Rooted root) : arena.Legible root := by
  have ends {depth : Nat} {term : Term} (reached : arena.Owns root term)
      (shallow : arena.Shallow depth term) :
      Acc (fun part term => part ∈ arena.shown term) term := by
    induction depth generalizing term with
    | zero => exact shallow.elim
    | succ depth inductionHypothesis =>
        refine ⟨_, fun part listed => ?_⟩
        rcases rooted.shown_cases reached listed with owned | nothing
        · exact inductionHypothesis (.child reached owned) (shallow part owned)
        · exact ⟨_, fun other further => by simp [nothing] at further⟩
  refine ⟨ends .self (rooted.shallow .here), fun term onward more => ?_⟩
  have reached : arena.Owns root term ∨ arena.shown term = [] := by
    clear more
    induction onward with
    | refl => exact .inl .self
    | tail _ step inductionHypothesis =>
        rcases inductionHypothesis with reached | nothing
        · exact (rooted.shown_cases reached step).imp_left (.child reached)
        · simp [nothing] at step
  exact rooted.held (reached.resolve_right more)

/-- Two templates are spelled alike: their names are written the same. -/
def SpelledAlike
    (older newer : Arena)
    (names others : Names)
    (template other : DeclId) : Prop :=
  older.render names (.name (older.decl template).name) =
    newer.render others (.name (newer.decl other).name)

/--
Two terms, each of its arena, have one shape, and the terms that they own
correspond.
-/
def Alike
    (older newer : Arena)
    (names others : Names)
    (same : Term → Term → Prop) : Term → Term → Prop
  | .name id, .name other =>
      (older.name id).form.Alike same (SpelledAlike older newer names others)
        names others
        (newer.name other).form
  | .type id, .type other =>
      (older.type id).form.Alike same (newer.type other).form
  | .expr id, .expr other =>
      (older.expr id).form.Alike same (newer.expr other).form
  | .stmt id, .stmt other =>
      (older.stmt id).form.Alike same (newer.stmt other).form
  | .decl id, .decl other =>
      same (.name (older.decl id).name) (.name (newer.decl other).name)
        ∧ (older.decl id).form.Alike same (newer.decl other).form
  | .definition id, .definition other =>
      (older.definition id).form.Alike same (newer.definition other).form
  | .requirement id, .requirement other =>
      (older.requirement id).form.Alike same (newer.requirement other).form
  | _, _ => False

variable {newer : Arena} {names others : Names} {same : Term → Term → Prop}
  {other : Term}

/-- Terms of one shape are written alike if the terms that they own are. -/
private theorem Alike.writeWith_eq
    (alike : arena.Alike newer names others same term other)
    (agree : WrittenAlike same (arena.render names) (newer.render others)
      (arena.children term) (newer.children other)) :
    arena.writeWith names (arena.render names) term =
      newer.writeWith others (newer.render others) other := by
  cases term <;> cases other <;> try exact alike.elim
  case name.name => exact alike.render_eq agree id
  case type.type => exact alike.render_eq agree
  case expr.expr => exact alike.render_eq agree
  case stmt.stmt => exact alike.render_eq agree
  case decl.decl =>
    refine alike.2.render_eq ?_ ⟨fun related listed listedOther => ?_⟩
    · exact agree.eq alike.1 (List.mem_cons_self ..) (List.mem_cons_self ..)
    · exact agree.eq related (List.mem_cons_of_mem _ listed)
        (List.mem_cons_of_mem _ listedOther)
  case definition.definition => exact alike.render_eq agree
  case requirement.requirement => exact alike.render_eq agree

/--
The written form depends on the shape alone. Whatever terms of two arenas are
said to correspond, if those that correspond have one shape, then a root and its
counterpart are written alike.
-/
theorem render_eq_of_alike
    {older newer : Arena}
    {names others : Names}
    {same : Term → Term → Prop}
    (alike : ∀ {term other}, same term other →
      older.Alike newer names others same term other)
    {root other : Term}
    (related : same root other)
    (legible : older.Legible root)
    (legibleOther : newer.Legible other) :
    older.render names root = newer.render others other := by
  obtain ⟨ends, held⟩ := legible
  induction ends generalizing other with
  | intro term below inductionHypothesis =>
      have legible : older.Legible term := ⟨⟨_, below⟩, held⟩
      rw [legible.render_eq, legibleOther.render_eq]
      refine (alike related).writeWith_eq
        ⟨fun {part otherPart} relatedPart owned ownedOther => ?_⟩
      exact inductionHypothesis part (mem_shown_of_owned owned) relatedPart
        (legibleOther.part (mem_shown_of_owned ownedOther))
        (legible.part (mem_shown_of_owned owned)).held

/-- An unnamed parameter of type `P<int>`. -/
def unnamedParameter : Arena :=
  { Arena.empty with
    names :=
      #[{ form := .simple ⟨1⟩, span := .synthetic },
        { form := .placeholder 0, span := .synthetic },
        { form := .applied ⟨0⟩ [.type ⟨0⟩], span := .synthetic }]
    types :=
      #[{ form := .builtin .int, span := .synthetic },
        { form := .declared ⟨0⟩ ⟨2⟩, span := .synthetic }]
    decls :=
      #[{ Vacant.decl with name := ⟨0⟩ },
        { Vacant.decl with name := ⟨1⟩, form := .parameter ⟨1⟩ }] }

/--
The same in other slots, with another minted number, and another `P` to refer
to.
-/
def unnamedParameterElsewhere : Arena :=
  { Arena.empty with
    names :=
      #[{ form := .placeholder 7, span := .point 4 },
        { form := .applied ⟨1⟩ [.type ⟨1⟩], span := .point 7 },
        { form := .simple ⟨2⟩, span := .synthetic }]
    types :=
      #[{ form := .declared ⟨1⟩ ⟨1⟩, span := .point 7 },
        { form := .builtin .int, span := .point 9 }]
    decls :=
      #[{ Vacant.decl with name := ⟨0⟩, form := .parameter ⟨0⟩,
                           phase := .typeElaborated },
        { Vacant.decl with name := ⟨2⟩, form := .namespaceBlock ⟨0⟩ }] }

theorem render_eq_of_alike_unnamedParameter :
    unnamedParameter.render ⟨["", "P"]⟩ (.decl ⟨1⟩) =
      unnamedParameterElsewhere.render ⟨["", "x", "P"]⟩ (.decl ⟨0⟩) := by
  refine @render_eq_of_alike _ _ _ _
    (fun term other => (term, other) ∈
      [(Term.decl ⟨1⟩, Term.decl ⟨0⟩), (.name ⟨1⟩, .name ⟨0⟩),
        (.type ⟨1⟩, .type ⟨0⟩),
        (.name ⟨2⟩, .name ⟨1⟩), (.type ⟨0⟩, .type ⟨1⟩)])
    ?_ _ _ (by decide)
    (@Legible.of_list _ _ 5
      [.decl ⟨1⟩, .name ⟨1⟩, .type ⟨1⟩, .name ⟨2⟩, .type ⟨0⟩, .name ⟨0⟩]
      (by decide) (by decide) (by decide) (by decide))
    (@Legible.of_list _ _ 5
      [.decl ⟨0⟩, .name ⟨0⟩, .type ⟨0⟩, .name ⟨1⟩, .type ⟨1⟩, .name ⟨2⟩]
      (by decide) (by decide) (by decide) (by decide))
  intro term other related
  simp only [List.mem_cons, Prod.mk.injEq, List.not_mem_nil, or_false]
    at related
  rcases related with ⟨rfl, rfl⟩ | ⟨rfl, rfl⟩ | ⟨rfl, rfl⟩ | ⟨rfl, rfl⟩ |
      ⟨rfl, rfl⟩
  · exact ⟨by decide, .parameter (by decide)⟩
  · exact .placeholder 0 7
  · exact .declared ⟨0⟩ ⟨1⟩ (by decide)
  · exact .applied rfl (.cons (by decide) .nil)
  · exact .builtin .int

end Arena

end Tern
