-- Recasting declarations and whole units, as `DefaultTranslator` does it. A unit
-- binds what it declares before anything in it is recast, so that its own names
-- are known. Tracing is left out.
import Recast.Recasting.Body

namespace Recast

namespace Recasting

/-! ## Modifiers -/

/-- The modifier of a type (`type_modifiers`). -/
def typeModifier? : Source.Modifier → Option String
  | .pub => some "public"
  | .prot => some "protected"
  | .priv => some "private"
  | .static => some "static"
  | .abstract => some "abstract"
  | .final => some "sealed"
  | .native => none
  | .synchronized => none

/-- The modifier of a method or a constructor (`member_modifiers`). -/
def methodModifier? : Source.Modifier → Option String
  | .pub => some "public"
  | .prot => some "protected"
  | .priv => some "private"
  | .static => some "static"
  | .abstract => some "abstract"
  | .final => none
  | .native => none
  | .synchronized => none

def fieldModifier? : Source.Modifier → Option String
  | .final => some "readonly"
  | m => methodModifier? m

/-! ## Members -/

def param (scope : Scope) (p : Source.Param) : Noting Target.Param := do
  return ⟨p.name, ← typeRef scope p.ty⟩

def params (scope : Scope) : List Source.Param → Noting (List Target.Param)
  | [] => pure []
  | p :: ps => do return (← param scope p) :: (← params scope ps)

/-- A field (`field`). Its type is recast before its value. -/
def field (scope : Scope) (f : Source.FieldDecl) : Noting Target.Member := do
  return .field f.name (← typeRef scope f.ty) (f.modifiers.filterMap fieldModifier?)
    (← optExpr scope f.init)

/-- The body of a method. A synchronized method loses its lock, and its
body says so first. -/
def methodBody (scope : Scope) (m : Source.MethodDecl) : Noting (Option (List Stmt)) := do
  let body ← match m.body with
    | none => pure none
    | some ss => some <$> stmts scope ss
  if m.has .synchronized then
    let loss := Loss.synchronizedMethod m.name
    warn m.span loss
    return body.map (Stmt.placeholder loss.note :: ·)
  else
    return body

def optTypeRef (scope : Scope) : Option TypeRef → Noting (Option TypeRef)
  | none => pure none
  | some ty => some <$> typeRef scope ty

/-- A method of the type `owner` (`method`). Methods of interfaces have no
modifiers. -/
def method (scope : Scope) (owner : String) (inInterface : Bool) (m : Source.MethodDecl) :
    Noting Target.Member := do
  if m.has .native then
    let loss := Loss.nativeMethod m.name
    warn m.span loss
    return .placeholder loss.note
  else
    let body ← methodBody scope m
    return .method (scope.memberName (owner ++ "." ++ m.name)) (← params scope m.params)
      (← optTypeRef scope m.returnType)
      (if inInterface then [] else m.modifiers.filterMap methodModifier?) body

/-- A constructor is named for its type and always has a body
(`constructor`). -/
def construct (scope : Scope) (typeName : String) (m : Source.MethodDecl) :
    Noting Target.Member := do
  let parameters ← params scope m.params
  let body ← match m.body with
    | none => pure []
    | some ss => stmts scope ss
  return .constructor typeName parameters (m.modifiers.filterMap methodModifier?) body

/-! ## Types -/

/-- Annotation types have no counterpart. -/
def kind? : Source.TypeKind → Option Target.TypeKind
  | .classType => some .classType
  | .interfaceType => some .interfaceType
  | .enumType => some .enumType
  | .annotationType => none

mutual

/-- The type with a given identity, unless it is an annotation type
(`type_decl`). -/
def typeDecl (scope : Scope) (identity : String) :
    Source.TypeDecl → Noting (Option Target.TypeDecl)
  | ⟨name, kind, modifiers, base, interfaces, constants, declared, _⟩ =>
    match kind? kind with
    | none => pure none
    | some kind => do
      let bases ← typeRefs scope (base.toList ++ interfaces)
      let declared ← members scope identity name (kind == .interfaceType) declared
      return some ⟨name, kind, modifiers.filterMap typeModifier?, bases, constants, declared⟩

def members (scope : Scope) (owner typeName : String) (inInterface : Bool) :
    List Source.Member → Noting (List Target.Member)
  | [] => pure []
  | .field f :: rest => do
    return (← field scope f) :: (← members scope owner typeName inInterface rest)
  | .method m :: rest => do
    return (← method scope owner inInterface m) ::
      (← members scope owner typeName inInterface rest)
  | .constructor m :: rest => do
    return (← construct scope typeName m) :: (← members scope owner typeName inInterface rest)
  | .type decl :: rest => do
    let inner ← typeDecl scope (owner ++ "." ++ decl.name) decl
    let after ← members scope owner typeName inInterface rest
    match inner with
    | none => return after
    | some decl => return .type decl :: after

end

def typeDecls (scope : Scope) (qualify : String → String) :
    List Source.TypeDecl → Noting (List Target.TypeDecl)
  | [] => pure []
  | decl :: rest => do
    let outer ← typeDecl scope (qualify decl.name) decl
    let after ← typeDecls scope qualify rest
    match outer with
    | none => return after
    | some decl => return decl :: after

/-! ## Units -/

/-- What recasting a unit gives: the bindings it leaves, the warnings in
order, and the target unit, if no identity was bound twice. -/
structure Outcome where
  bindings : Bindings
  warnings : List Warning
  result : Except BindError TargetUnit

end Recasting

/-- Recasts a unit (`translate`). Of a unit that declares nothing but annotation
types there is nothing to print. -/
def SourceUnit.recast (bindings : Bindings) (u : SourceUnit) : Recasting.Outcome :=
  match bindings.bindAll u.declarations with
  | (bound, some e) => ⟨bound, [], .error e⟩
  | (bound, none) =>
    let (types, notes) :=
      (Recasting.typeDecls ⟨bound, u.space⟩ u.qualify u.types).run Recasting.Notes.empty
    ⟨bound, notes.warnings, .ok {
      path := u.path, space := u.space, usings := notes.usings, types := types,
      suppressed := types.isEmpty }⟩

end Recast
