import Tern.Term.Arena

namespace Tern

/-!
# Written form of terms

A term is written as a parenthesized list. The written form never shows a
slot: declarations and references appear by name, so two trees of one shape
have one written form wherever their terms are stored.
-/

/-- Words separated by single spaces, in parentheses. -/
def parenthesize (words : List String) : String :=
  "(" ++ String.intercalate " " words ++ ")"

/-- The written form of a range of tokens: how many there are. -/
def TokenRange.render (range : TokenRange) : String :=
  parenthesize ["unparsed", toString range.length]

/-- The first word of the written form of a wrapped type. -/
def TypeWrapper.head : TypeWrapper → String
  | .reference => "&"
  | .pointer => "*"
  | .slice => "slice"
  | .pack => "pack"
  | .qualified qualifiers =>
      match qualifiers.isConst, qualifiers.isVolatile with
      | true, true => "const volatile"
      | false, true => "volatile"
      | _, false => "const"

/-- The first word of the written form of a statement list. -/
def ListRole.head : ListRole → String
  | .unit => "translation"
  | .members => "members"
  | .block => "block"

/-- The first word of the written form of an expression statement. -/
def ValueRole.head : ValueRole → String
  | .discard => "expr"
  | .give => "return"
  | .yield => "yield"

/-- The written form of a jump. -/
def Jump.head : Jump → String
  | .leave => "break"
  | .restart => "continue"

/-- The first word of the written form of an object declaration. -/
def ObjectRole.head : ObjectRole → String
  | .variable => "var"
  | .field => "field"
  | .base => "super"

/-- The first word of the written form of a callable declaration. -/
def CallableRole.head : CallableRole → String
  | .function false => "def"
  | .function true => "method"
  | .coroutine => "codef"

/--
The first word of the written form of a requirement that states an expression.
-/
def StatedRole.head : StatedRole → String
  | .syntactic => "requires"
  | .expression => "req"
  | .basic => "basic"

/--
The first word of the written form of a requirement that relates to a type.
-/
def TypedRole.head : TypedRole → String
  | .conversion => ":"
  | .deduction => "->"

section Forms

/-! The written form of each family, given the written forms of other terms. -/

variable (write : Term → String)

/-- The written form of a template argument. -/
def TemplateArg.render : TemplateArg → String
  | .type argument => write (.type argument)
  | .expr argument => write (.expr argument)

/-- The written form of a name. -/
def NameForm.render (arena : Arena) (names : Names) : NameForm → String
  | .simple name => names.text name
  | .placeholder _ => "_"
  | .applied template args =>
      write (.name (arena.decl template).name) ++ "<"
        ++ String.intercalate " " (args.map (TemplateArg.render write)) ++ ">"

/-- The written form of a type. -/
def TypeForm.render : TypeForm → String
  | .builtin type => (TypeForm.builtin type).kindName
  | .declared _ name => write (.name name)
  | .function params result =>
      parenthesize
        ["fn", parenthesize (params.map (write ∘ Term.type)),
          write (.type result)]
  | .wrapped wrapper inner => parenthesize [wrapper.head, write (.type inner)]
  | .array element length =>
      parenthesize ["array", write (.type element), write (.expr length)]
  | .tuple elements =>
      parenthesize ["tuple", parenthesize (elements.map (write ∘ Term.type))]
  | .decltype operand => parenthesize ["decltype", write (.expr operand)]
  | .unparsed range => range.render

/-- The written form of an expression. -/
def ExprForm.render : ExprForm → String
  | .bool value => if value then "true" else "false"
  | .int value => toString value
  | .reference _ name => write (.name name)
  | .overload name decls =>
      parenthesize ["overload", write (.name name), toString decls.length]
  | .unary op operand =>
      parenthesize [op.symbol.spelling, write (.expr operand)]
  | .binary op left right =>
      parenthesize [op.symbol.spelling, write (.expr left), write (.expr right)]
  | .call callee args =>
      parenthesize ("call" :: write (.expr callee) ::
        args.map (write ∘ Term.expr))
  | .dot object member =>
      parenthesize [".", write (.expr object), write (.name member)]
  | .subscript object index =>
      parenthesize ["[]", write (.expr object), write (.expr index)]
  | .tuple elements =>
      parenthesize ["tuple", parenthesize (elements.map (write ∘ Term.expr))]
  | .requires parms reqs _ =>
      parenthesize ("requires" :: parenthesize (parms.map (write ∘ Term.decl))
        :: reqs.map (write ∘ Term.requirement))
  | .unparsed range => range.render

/-- The written form of a statement. -/
def StmtForm.render : StmtForm → String
  | .list role stmts _ =>
      parenthesize (role.head :: stmts.map (write ∘ Term.stmt))
  | .empty => "(;)"
  | .value role expr => parenthesize [role.head, write (.expr expr)]
  | .declaration decl => write (.decl decl)
  | .branch condition accepted rejected? =>
      parenthesize ("if" :: write (.expr condition) :: write (.stmt accepted)
        :: rejected?.toList.map (write ∘ Term.stmt))
  | .loop condition body =>
      parenthesize ["while", write (.expr condition), write (.stmt body)]
  | .jump target => parenthesize [target.head]
  | .unparsed range => range.render

/-- The written form of a declaration with a name. -/
def DeclForm.render (name : NameId) : DeclForm → String
  | .object role type definition =>
      parenthesize
        [role.head, write (.name name), write (.type type),
          write (.definition definition)]
  | .parameter type =>
      parenthesize ["parm", write (.name name), write (.type type)]
  | .callable role params result definition =>
      parenthesize
        [role.head, write (.name name),
          parenthesize (params.map (write ∘ Term.decl)),
          write (.type result), write (.definition definition)]
  | .classType kind definition =>
      parenthesize ["class", write (.name name), write (.type kind),
        write (.definition definition)]
  | .typeParameter _ default? =>
      parenthesize
        ("typename" :: write (.name name) ::
          default?.toList.map (write ∘ Term.type))
  | .concept parms definition =>
      parenthesize
        ["concept", write (.name name),
          parenthesize (parms.map (write ∘ Term.decl)),
          write (.definition definition)]
  | .namespaceBlock body =>
      parenthesize ["namespace", write (.name name), write (.stmt body)]
  | .template parms constraint? inner =>
      parenthesize
        ("template" :: parenthesize (parms.map (write ∘ Term.decl))
          :: (constraint?.toList.map fun constraint =>
                parenthesize ["requires", write (.expr constraint)])
          ++ [write (.decl inner)])

/-- The written form of a definition. -/
def DefForm.render : DefForm → String
  | .empty => ";"
  | .expression expr => parenthesize ["=", write (.expr expr)]
  | .body stmt => write (.stmt stmt)
  | .members stmt => write (.stmt stmt)
  | .requirements reqs =>
      parenthesize ("reqs" :: reqs.map (write ∘ Term.requirement))
  | .deleted => parenthesize ["=", "delete"]
  | .defaulted => parenthesize ["=", "default"]

/-- The written form of a requirement. -/
def ReqForm.render : ReqForm → String
  | .type required => parenthesize ["typename", write (.type required)]
  | .stated role expr => parenthesize [role.head, write (.expr expr)]
  | .typed role expr target =>
      parenthesize [role.head, write (.expr expr), write (.type target)]

end Forms

namespace Arena

/-- The written form of a term down to a depth. -/
def renderWithin (arena : Arena) (names : Names) : Nat → Term → String
  | 0, _ => ""
  | depth + 1, term =>
      let write := arena.renderWithin names depth
      match term with
      | .name id => (arena.name id).form.render write arena names
      | .type id => (arena.type id).form.render write
      | .expr id => (arena.expr id).form.render write
      | .stmt id => (arena.stmt id).form.render write
      | .decl id => (arena.decl id).form.render write (arena.decl id).name
      | .definition id => (arena.definition id).form.render write
      | .requirement id => (arena.requirement id).form.render write

/-- The written form of a term; no chain of terms is longer than the arena. -/
def render (arena : Arena) (names : Names) (term : Term) : String :=
  arena.renderWithin names (arena.termCount + 1) term

end Arena

end Tern
