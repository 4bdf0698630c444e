-- Source trees: the declarations of one unit, with the problems that its
-- parser recorded.
import Recast.Problem
import Recast.Stmt

namespace Recast

namespace Source

inductive TypeKind
  | classType
  | interfaceType
  | enumType
  | annotationType
deriving Repr, DecidableEq, Inhabited

inductive Modifier
  | pub | prot | priv | static | final | abstract | native | synchronized
deriving Repr, DecidableEq, Inhabited

structure Param where
  name : String
  ty : TypeRef
deriving Repr, BEq, Inhabited

structure FieldDecl where
  name : String
  ty : TypeRef
  modifiers : List Modifier
  init : Option Expr
  span : Span
deriving Inhabited

structure MethodDecl where
  name : String
  params : List Param
  /-- `none` for constructors and for methods without a result. -/
  returnType : Option TypeRef
  modifiers : List Modifier
  /-- `none` for methods that have no body of their own. -/
  body : Option (List Stmt)
  span : Span
deriving Inhabited

def MethodDecl.has (m : MethodDecl) (modifier : Modifier) : Bool := m.modifiers.contains modifier

mutual

structure TypeDecl where
  name : String
  kind : TypeKind
  modifiers : List Modifier
  base : Option TypeRef
  interfaces : List TypeRef
  /-- The constants of an enumeration, in order. -/
  constants : List String
  members : List Member
  span : Span

inductive Member
  | field (decl : FieldDecl)
  | method (decl : MethodDecl)
  | constructor (decl : MethodDecl)
  | type (decl : TypeDecl)

end

/-- A type that declares nothing yet. -/
def TypeDecl.empty (name : String) (kind : TypeKind) : TypeDecl :=
  { name := name, kind := kind, modifiers := [], base := none, interfaces := [],
    constants := [], members := [], span := Span.none }

instance : Inhabited TypeDecl := ⟨.empty "" .classType⟩

end Source

/-- One parsed unit. -/
structure SourceUnit where
  /-- The name of the unit. Diagnostics and markers are kept under it. -/
  path : Path
  package : Option String
  imports : List String
  types : List Source.TypeDecl
  problems : List Problem
deriving Inhabited

namespace SourceUnit

def empty (path : Path) : SourceUnit := ⟨path, none, [], [], []⟩

/-- The problems that are errors. -/
def errors (u : SourceUnit) : List Problem := u.problems.filter (·.isError)

def hasErrors (u : SourceUnit) : Bool := u.problems.any (·.isError)

/-- A name of the top level with the package in front. -/
def qualify (u : SourceUnit) (name : String) : String :=
  match u.package with
  | some package => if package.isEmpty then name else package ++ "." ++ name
  | none => name

end SourceUnit

end Recast
