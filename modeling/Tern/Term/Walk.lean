import Tern.Term.Arena

namespace Tern

/-!
# Walking over terms

A term owns the terms that its source text contains. References to
declarations made elsewhere are not owned, so the terms reached from a
statement through ownership form a tree. The walk lists them in source order,
parents before children; the search for unparsed terms stops at the first one.
-/

/-- The term of a template argument. -/
def TemplateArg.term : TemplateArg → Term
  | .type argument => .type argument
  | .expr argument => .expr argument

/-- The terms that a name owns. -/
def NameForm.children : NameForm → List Term
  | .simple _ => []
  | .placeholder _ => []
  | .applied _ args => args.map TemplateArg.term

/-- The terms that a type owns. -/
def TypeForm.children : TypeForm → List Term
  | .builtin _ => []
  | .declared _ name => [.name name]
  | .function params result => params.map Term.type ++ [.type result]
  | .wrapped _ inner => [.type inner]
  | .array element length => [.type element, .expr length]
  | .tuple elements => elements.map Term.type
  | .decltype operand => [.expr operand]
  | .unparsed _ => []

/-- The terms that an expression owns. -/
def ExprForm.children : ExprForm → List Term
  | .bool _ => []
  | .int _ => []
  | .reference _ name => [.name name]
  | .overload name _ => [.name name]
  | .unary _ operand => [.expr operand]
  | .binary _ left right => [.expr left, .expr right]
  | .call callee args => .expr callee :: args.map Term.expr
  | .dot object member => [.expr object, .name member]
  | .subscript object index => [.expr object, .expr index]
  | .tuple elements => elements.map Term.expr
  | .requires parms reqs _ => parms.map Term.decl ++ reqs.map Term.requirement
  | .unparsed _ => []

/-- The terms that a statement owns. -/
def StmtForm.children : StmtForm → List Term
  | .list _ stmts _ => stmts.map Term.stmt
  | .empty => []
  | .value _ expr => [.expr expr]
  | .declaration decl => [.decl decl]
  | .branch condition accepted rejected? =>
      .expr condition :: .stmt accepted :: rejected?.toList.map Term.stmt
  | .loop condition body => [.expr condition, .stmt body]
  | .jump _ => []
  | .unparsed _ => []

/-- The terms that a declaration owns besides its name. -/
def DeclForm.children : DeclForm → List Term
  | .object _ type definition => [.type type, .definition definition]
  | .parameter type => [.type type]
  | .callable _ params result definition =>
      params.map Term.decl ++ [.type result, .definition definition]
  | .classType kind definition => [.type kind, .definition definition]
  | .typeParameter _ default? => default?.toList.map Term.type
  | .concept parms definition => parms.map Term.decl ++ [.definition definition]
  | .namespaceBlock body => [.stmt body]
  | .template parms constraint? inner =>
      parms.map Term.decl ++ constraint?.toList.map Term.expr ++ [.decl inner]

/-- The terms that a definition owns. -/
def DefForm.children : DefForm → List Term
  | .empty => []
  | .expression expr => [.expr expr]
  | .body stmt => [.stmt stmt]
  | .members stmt => [.stmt stmt]
  | .requirements reqs => reqs.map Term.requirement
  | .deleted => []
  | .defaulted => []

/-- The terms that a requirement owns. -/
def ReqForm.children : ReqForm → List Term
  | .type required => [.type required]
  | .stated _ expr => [.expr expr]
  | .typed _ expr target => [.expr expr, .type target]

/-- Whether a type is a range of tokens. -/
def TypeForm.isUnparsed : TypeForm → Bool
  | .unparsed _ => true
  | _ => false

/-- Whether an expression is a range of tokens. -/
def ExprForm.isUnparsed : ExprForm → Bool
  | .unparsed _ => true
  | _ => false

/-- Whether a statement is a range of tokens. -/
def StmtForm.isUnparsed : StmtForm → Bool
  | .unparsed _ => true
  | _ => false

namespace Arena

/-- The terms that a term owns, in source order. -/
def children (arena : Arena) : Term → List Term
  | .name id => (arena.name id).form.children
  | .type id => (arena.type id).form.children
  | .expr id => (arena.expr id).form.children
  | .stmt id => (arena.stmt id).form.children
  | .decl id => .name (arena.decl id).name :: (arena.decl id).form.children
  | .definition id => (arena.definition id).form.children
  | .requirement id => (arena.requirement id).form.children

/-- The terms owned by a term down to a depth, parents before children. -/
def preorderWithin (arena : Arena) : Nat → Term → List Term
  | 0, _ => []
  | depth + 1, term =>
      term :: (arena.children term).flatMap (arena.preorderWithin depth)

/-- Put the terms owned by a term down to a depth in front of others. -/
def preorderOnto (arena : Arena) : Nat → Term → List Term → List Term
  | 0, _, tail => tail
  | depth + 1, term, tail =>
      term :: (arena.children term).foldr (arena.preorderOnto depth) tail

/--
The terms owned by a term, parents before children; no path is longer than the
arena.
-/
def preorder (arena : Arena) (root : Term) : List Term :=
  arena.preorderOnto (arena.termCount + 1) root []

/-- Adding in front of other terms is a concatenation. -/
theorem preorderOnto_eq
    (arena : Arena)
    (depth : Nat)
    (term : Term)
    (tail : List Term) :
    arena.preorderOnto depth term tail = arena.preorderWithin depth term ++
      tail := by
  induction depth generalizing term tail with
  | zero => rfl
  | succ depth inner =>
      have children : ∀ terms : List Term,
          terms.foldr (arena.preorderOnto depth) tail =
            terms.flatMap (arena.preorderWithin depth) ++ tail := by
        intro terms
        induction terms with
        | nil => rfl
        | cons head rest tailward => simp [inner, tailward]
      simp [preorderOnto, preorderWithin, children]

/-- The walk goes down to a depth that no path exceeds. -/
theorem preorder_eq (arena : Arena) (root : Term) :
    arena.preorder root = arena.preorderWithin (arena.termCount + 1) root := by
  simp [preorder, preorderOnto_eq]

/-- Whether a term is a range of tokens. -/
def isUnparsed (arena : Arena) : Term → Bool
  | .type id => (arena.type id).form.isUnparsed
  | .expr id => (arena.expr id).form.isUnparsed
  | .stmt id => (arena.stmt id).form.isUnparsed
  | _ => false

/-- Search down to a depth for an unparsed term, stopping at the first. -/
def firstUnparsedWithin? (arena : Arena) : Nat → Term → Option Term
  | 0, _ => none
  | depth + 1, term =>
      if arena.isUnparsed term then some term
      else (arena.children term).findSome? (arena.firstUnparsedWithin? depth)

/-- The first unparsed term owned by a statement. -/
def firstUnparsed? (arena : Arena) (root : StmtId) : Option Term :=
  arena.firstUnparsedWithin? (arena.termCount + 1) (.stmt root)

/-- The parameters that a term lists as a requires-expression. -/
def requiresParams (arena : Arena) : Term → List DeclId
  | .expr id =>
      match (arena.expr id).form with
      | .requires parms _ _ => parms
      | _ => []
  | _ => []

/-- The parameters of every requires-expression owned by a term. -/
def ownedRequiresParams (arena : Arena) (root : Term) : List DeclId :=
  (arena.preorder root).flatMap arena.requiresParams

end Arena

end Tern
