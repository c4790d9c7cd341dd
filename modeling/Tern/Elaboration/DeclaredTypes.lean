import Tern.Elaboration.Elaborator

namespace Tern

/-!
# Types of declarations

The first pass over a statement list completes the types of its declarations.
A parameter whose type is to be inferred gets a type parameter of its own: the
function becomes a template, or the template around it gets more parameters.
Functions with a `virtual` parameter are registered as open methods.
-/

namespace Arena

/-- The type to be inferred that a type is, below references and qualifiers. -/
def inferredWithin? (arena : Arena) : Nat → TypeId → Option TypeId
  | 0, _ => none
  | depth + 1, type =>
      match (arena.type type).form with
      | .builtin .auto => some type
      | .wrapped .reference inner => arena.inferredWithin? depth inner
      | .wrapped (.qualified _) inner => arena.inferredWithin? depth inner
      | _ => none

/--
The type to be inferred that a type is, below all references and qualifiers.
-/
def inferred? (arena : Arena) (type : TypeId) : Option TypeId :=
  arena.inferredWithin? (arena.types.size + 1) type

/--
Whether a declaration is a class or a type parameter, below some templates.
-/
def isClassLikeWithin (arena : Arena) : Nat → DeclId → Bool
  | 0, _ => false
  | depth + 1, decl =>
      match (arena.decl decl).form with
      | .classType _ _ => true
      | .typeParameter _ _ => true
      | .template _ _ inner => arena.isClassLikeWithin depth inner
      | _ => false

/--
Whether a declaration is a class, a type parameter or a template of a class.
-/
def isClassLike (arena : Arena) (decl : DeclId) : Bool :=
  arena.isClassLikeWithin (arena.decls.size + 1) decl

/-- Whether a type denotes a class, below some qualifiers. -/
def denotesClassWithin (arena : Arena) : Nat → TypeId → Bool
  | 0, _ => false
  | depth + 1, type =>
      match (arena.type type).form with
      | .wrapped (.qualified _) inner => arena.denotesClassWithin depth inner
      | .declared decl _ => arena.isClassLike decl
      | _ => false

/-- Whether a type denotes a class, so that it can be a base. -/
def denotesClass (arena : Arena) (type : TypeId) : Bool :=
  arena.denotesClassWithin (arena.types.size + 1) type

/-- The type of a declaration that is a parameter. -/
def paramType? (arena : Arena) (decl : DeclId) : Option TypeId :=
  match (arena.decl decl).form with
  | .parameter type => some type
  | _ => none

/-- Whether a declaration is a parameter marked `virtual`. -/
def isVirtualParam (arena : Arena) (decl : DeclId) : Bool :=
  (arena.paramType? decl).isSome && (arena.decl decl).specifiers.contains
    .isVirtual

/-- The number of parameters of a declaration that is a template. -/
def templateParamCount (arena : Arena) (decl : DeclId) : Nat :=
  match (arena.decl decl).form with
  | .template parms _ _ => parms.length
  | _ => 0

end Arena

namespace Elab

/--
Put a new type parameter with an index, declared in a scope, into the slot of a
type.
-/
def mintTypeParam
    (slot : TypeId)
    (scope : ScopeId)
    (index : Nat) :
    Elab DeclId := do
  let span := ((← arena).type slot).span
  let name ← inArena fun arena => arena.addPlaceholder span
  let parm ← inArena fun arena => arena.addDecl
    { name := name
      specifiers := .none
      form := .typeParameter index none
      span := span
      scope := scope
      phase := .typeElaborated }
  let key := (← arena).keyOf name
  changeScopes fun scopes => (scopes.declare scope key parm).2
  let minted ← inArena fun arena => arena.addType (.declared parm name) span
  changeArena fun arena => arena.moveType slot minted
  return parm

/--
Complete the type of a parameter and add the type parameter it gets to those
minted so far.
-/
def elaborateParam
    (scope : ScopeId)
    (firstIndex : Nat)
    (minted : List DeclId)
    (param : DeclId) :
    Elab (List DeclId) := do
  match (← arena).paramType? param with
  | none => return minted
  | some type =>
      completeType type scope
      match (← arena).inferred? type with
      | none =>
          raise param .typeElaborated
          return minted
      | some slot =>
          let parm ← mintTypeParam slot scope (firstIndex + minted.length)
          raise param .typeElaborated
          return minted ++ [parm]

/-- Register a function as an open method if a parameter is marked `virtual`. -/
def registerOpenMethod (decl : DeclId) (params : List DeclId) : Elab Unit := do
  let input ← Action.environment
  let arena ← arena
  if input.options.openMethods && params.any arena.isVirtualParam then
    match (arena.name (arena.decl decl).name).form with
    | .simple name =>
        find fun findings =>
          { findings with openMethods := findings.openMethods.register name
                            decl }
    | _ => return ()
  else
    return ()

/--
Wrap a declaration in a new template with given parameters. The template takes
the place of the declaration in its statement and in its overload set.
-/
def wrapInTemplate
    (stmt? : Option StmtId)
    (decl : DeclId)
    (parms : List DeclId) :
    Elab Unit := do
  let old := (← arena).decl decl
  let wrapper ← inArena fun arena => arena.addDecl
    { name := old.name
      specifiers := .none
      form := .template parms none decl
      span := old.span
      scope := old.scope
      phase := .typeElaborated }
  changeArena fun arena =>
    match stmt? with
    | some stmt => arena.setStmtForm stmt (.declaration wrapper)
    | none => arena
  let key := (← arena).keyOf old.name
  changeScopes fun scopes =>
    match scopes.replaceMember? old.scope key decl wrapper with
    | some replaced => replaced
    | none => (scopes.declare old.scope key wrapper).2

/-- Add parameters at the end of those of a template. -/
def extendTemplate (wrapper : DeclId) (more : List DeclId) : Elab Unit :=
  changeArena fun arena => arena.updateDecl wrapper fun old =>
    match old.form with
    | .template parms constraint? inner =>
        { old with form := .template (parms ++ more) constraint? inner }
    | _ => old

/--
Give the type parameters minted for a function to the template around it or to a
new one.
-/
def addTemplateParams
    (stmt? : Option StmtId)
    (decl : DeclId)
    (wrapper? : Option DeclId)
    (minted : List DeclId) : Elab Unit :=
  if minted.isEmpty then
    return ()
  else
    match wrapper? with
    | some wrapper => extendTemplate wrapper minted
    | none => wrapInTemplate stmt? decl minted

/--
Complete the types of a callable declaration: its parameters in order, then its
result.
-/
def elaborateSignature
    (stmt? : Option StmtId)
    (decl : DeclId)
    (params : List DeclId)
    (result : TypeId) (wrapper? : Option DeclId) : Elab Unit := do
  let arena ← arena
  let scope ← inScopes fun scopes =>
      scopes.scopeFor decl (arena.decl decl).scope .function
  let firstIndex := (wrapper?.map arena.templateParamCount).getD 0
  let minted ← params.foldlM (elaborateParam scope firstIndex) []
  completeType result scope
  raise decl .typeElaborated
  registerOpenMethod decl params
  addTemplateParams stmt? decl wrapper? minted

/-- Complete the type of a base, which has to denote a class. -/
def elaborateBase
    (decl : DeclId)
    (type : TypeId)
    (scope : ScopeId) :
    Elab Unit := do
  completeType type scope
  if (← arena).denotesClass type then
    return ()
  else
    recordFault decl .baseNotClass

/-- Namespaces can be parsed, but not elaborated. -/
def refuseNamespace {Value : Type} (decl : DeclId) : Elab Value := do
  let arena ← arena
  Action.fail (.notImplemented "namespace declarations" (arena.decl decl).span)

/--
Complete the types of a declaration, looking through templates down to a depth.
-/
def elaborateTypeWithin :
    Nat → Option StmtId → Option DeclId → DeclId → Elab Unit
  | 0, _, _, _ => Action.exhaust
  | depth + 1, stmt?, wrapper?, decl => do
      let found := (← arena).decl decl
      if found.phase = .unelaborated then
        match found.form with
        | .object .base type _ =>
            elaborateBase decl type found.scope
            raise decl .typeElaborated
        | .object _ type _ =>
            completeType type found.scope
            raise decl .typeElaborated
        | .parameter type =>
            completeType type found.scope
            raise decl .typeElaborated
        | .callable _ params result _ =>
            elaborateSignature stmt? decl params result wrapper?
        | .classType kind _ =>
            completeType kind found.scope
            raise decl .typeElaborated
        | .template parms _ inner =>
            raiseAll parms .typeElaborated
            raise decl .typeElaborated
            elaborateTypeWithin depth none (some decl) inner
        | .concept parms _ =>
            raiseAll parms .typeElaborated
            raise decl .typeElaborated
        | .typeParameter _ _ => raise decl .typeElaborated
        | .namespaceBlock _ => refuseNamespace decl
      else
        return ()

/-- Complete the types of the declaration that a statement holds. -/
def elaborateTypes (stmt : StmtId) : Elab Unit := do
  match ← declarationOf? stmt with
  | none => return ()
  | some decl =>
      let arena ← arena
      elaborateTypeWithin (arena.decls.size + 1) (some stmt) none decl
      raiseRequiresParams decl .typeElaborated

end Elab

end Tern
