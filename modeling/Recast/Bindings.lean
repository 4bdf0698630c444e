-- What the identities of a run are bound to. The first binding of an
-- identity stays; a second one is refused.
import Recast.Name
import Recast.Source
import Recast.Target

namespace Recast

/-- A second binding of an identity, with the full names of both. -/
structure BindError where
  identity : String
  existing : String
  attempted : String
deriving Repr, DecidableEq, Inhabited

def BindError.message (e : BindError) : String :=
  s!"symbol '{e.identity}' is already bound to '{e.existing}' (attempted '{e.attempted}')"

/-- The bindings of a run, in the order in which they were made. -/
structure Bindings where
  entries : List (String × TargetRef)
deriving Repr, DecidableEq, Inhabited

namespace Bindings

def empty : Bindings := ⟨[]⟩

/-- What an identity is bound to. -/
def find? (b : Bindings) (identity : String) : Option TargetRef := b.entries.lookup identity

def size (b : Bindings) : Nat := b.entries.length

def isEmpty (b : Bindings) : Bool := b.entries.isEmpty

/-- The bindings with one more, if the identity is still free. -/
def bind (b : Bindings) (identity : String) (ref : TargetRef) : Except BindError Bindings :=
  match b.find? identity with
  | some existing => .error ⟨identity, existing.fullName, ref.fullName⟩
  | none => .ok ⟨b.entries ++ [(identity, ref)]⟩

/-- Binds one after the other and stops at the first that is refused.
What was bound until then stays bound. -/
def bindAll (b : Bindings) : List (String × TargetRef) → Bindings × Option BindError
  | [] => (b, none)
  | (identity, ref) :: rest =>
    match b.bind identity ref with
    | .ok b' => b'.bindAll rest
    | .error e => (b, some e)

end Bindings

/-! ## What a unit declares -/

namespace Source

mutual

/-- A type, its methods and the types in it, in the order of the source.
Annotation types declare nothing. -/
def TypeDecl.declarations (space : Option String) (identity target : String) :
    TypeDecl → List (String × TargetRef)
  | ⟨_, kind, _, _, _, _, members, _⟩ =>
    match kind with
    | .annotationType => []
    | _ =>
      (identity, .type space target) ::
        memberDeclarations space identity target [] members

/-- The members of one type. Methods of one name share one identity, so
`seen` holds the method names that stand before. -/
def memberDeclarations (space : Option String) (identity target : String) (seen : List String) :
    List Member → List (String × TargetRef)
  | [] => []
  | .method m :: rest =>
    if seen.contains m.name then memberDeclarations space identity target seen rest
    else
      (memberKey identity m.name,
          .member (TargetRef.type space target).fullName (pascalCase m.name)) ::
        memberDeclarations space identity target (m.name :: seen) rest
  | .type decl :: rest =>
    decl.declarations space (identity ++ "." ++ decl.name) (target ++ "." ++ decl.name) ++
      memberDeclarations space identity target seen rest
  | .field _ :: rest => memberDeclarations space identity target seen rest
  | .constructor _ :: rest => memberDeclarations space identity target seen rest

end

end Source

namespace SourceUnit

/-- The namespace of everything that the unit declares. -/
def space (u : SourceUnit) : Option String := u.package.map namespaceOfPackage

/-- What the unit binds, in order. -/
def declarations (u : SourceUnit) : List (String × TargetRef) :=
  u.types.flatMap fun decl => decl.declarations u.space (u.qualify decl.name) decl.name

end SourceUnit

end Recast
