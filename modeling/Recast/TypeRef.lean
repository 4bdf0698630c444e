-- References to types. In a source tree the name is the full identity of
-- the type; in a target tree it is the name that is printed.
import Recast.Name

namespace Recast

/-- A type by name, with its arguments and its array dimensions. -/
structure TypeRef where
  name : String
  args : List TypeRef
  dims : UInt8
deriving Repr, BEq, Inhabited

namespace TypeRef

/-- A type without arguments and dimensions. -/
def named (name : String) : TypeRef := ⟨name, [], 0⟩

def withArgs (t : TypeRef) (args : List TypeRef) : TypeRef := { t with args := args }

/-- The type of the arrays of a type. -/
def array (t : TypeRef) : TypeRef := { t with dims := t.dims + 1 }

def simpleName (t : TypeRef) : String := Recast.simpleName t.name

end TypeRef

end Recast
