-- Target trees: what a unit becomes in the target language.
import Recast.Path
import Recast.Stmt
import Recast.Text.NameSet

namespace Recast

/-- What a source identity becomes: a type in a namespace, or a member of
a type that is given by its full name. -/
inductive TargetRef
  | type (space : Option String) (name : String)
  | member (owner name : String)
deriving Repr, DecidableEq, Inhabited

namespace TargetRef

/-- The name that is printed where the reference is used. -/
def name : TargetRef → String
  | .type _ name => name
  | .member _ name => name

/-- The namespace that a use of the reference needs. -/
def space : TargetRef → Option String
  | .type space _ => space
  | .member _ _ => none

def fullName : TargetRef → String
  | .type (some space) name => space ++ "." ++ name
  | .type none name => name
  | .member owner name => owner ++ "." ++ name

end TargetRef

namespace Target

inductive TypeKind
  | classType
  | interfaceType
  | enumType
deriving Repr, DecidableEq, Inhabited

structure Param where
  name : String
  ty : TypeRef
deriving Repr, BEq, Inhabited

mutual

structure TypeDecl where
  name : String
  kind : TypeKind
  modifiers : List String
  bases : List TypeRef
  constants : List String
  members : List Member

inductive Member
  | field (name : String) (ty : TypeRef) (modifiers : List String) (init : Option Expr)
  /-- A method. No result type means no result, no body means a bare declaration. -/
  | method (name : String) (params : List Param) (returnType : Option TypeRef)
      (modifiers : List String) (body : Option (List Stmt))
  | constructor (name : String) (params : List Param) (modifiers : List String)
      (body : List Stmt)
  | type (decl : TypeDecl)
  | placeholder (note : String)

end

instance : Inhabited TypeDecl := ⟨⟨"", .classType, [], [], [], []⟩⟩

end Target

/-- What one source unit becomes. -/
structure TargetUnit where
  /-- The path of the source unit. -/
  path : Path
  space : Option String
  usings : Text.NameSet
  types : List Target.TypeDecl
  /-- The unit is right as it is and must not be printed. -/
  suppressed : Bool
deriving Inhabited

namespace TargetUnit

def empty (path : Path) : TargetUnit := ⟨path, none, .empty, [], false⟩

/-- A unit that leaves nothing to print. -/
def silent (path : Path) : TargetUnit := { empty path with suppressed := true }

end TargetUnit

end Recast
