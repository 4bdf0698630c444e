-- Markers: diagnostics that are kept under the path of the unit they
-- belong to.
import Recast.Problem

namespace Recast

structure Marker where
  message : String
  severity : Severity
  charStart : UInt64
  charEnd : UInt64
  line : UInt32
  /-- It means something only for the run that made it. -/
  transient : Bool
deriving Repr, DecidableEq, Inhabited

/-- The marker that a problem leaves. -/
def Marker.ofProblem (p : Problem) : Marker :=
  ⟨p.message, p.severity, p.start, p.stop, p.line, true⟩

/-- The markers of all units, in the order of the paths. A unit has one
entry, under the spelling with which it came first. -/
structure MarkerMap where
  entries : List (Path × List Marker)
deriving Repr, DecidableEq, Inhabited

namespace MarkerMap

def empty : MarkerMap := ⟨[]⟩

/-- The markers of a unit, if it has an entry. -/
def find? (m : MarkerMap) (unit : Path) : Option (List Marker) :=
  (m.entries.find? (·.1.same unit)).map (·.2)

/-- The markers of a unit, or none. -/
def get (m : MarkerMap) (unit : Path) : List Marker := (m.find? unit).getD []

/-- The entries with the entry of `unit` changed by `f`, or a new one at
its place. -/
def alterIn (unit : Path) (f : Option (List Marker) → List Marker) :
    List (Path × List Marker) → List (Path × List Marker)
  | [] => [(unit, f none)]
  | (p, ms) :: rest =>
    match unit.compare p with
    | .lt => (unit, f none) :: (p, ms) :: rest
    | .eq => (p, f (some ms)) :: rest
    | .gt => (p, ms) :: alterIn unit f rest

/-- Put one marker behind the markers of a unit. -/
def add (m : MarkerMap) (unit : Path) (marker : Marker) : MarkerMap :=
  ⟨alterIn unit (fun ms => ms.getD [] ++ [marker]) m.entries⟩

/-- Give a unit these markers. -/
def set (m : MarkerMap) (unit : Path) (markers : List Marker) : MarkerMap :=
  ⟨alterIn unit (fun _ => markers) m.entries⟩

/-- Drop the entry of a unit. -/
def clear (m : MarkerMap) (unit : Path) : MarkerMap :=
  ⟨m.entries.filter fun e => !e.1.same unit⟩

/-- Whether the unit has an entry, be it an empty one. -/
def has (m : MarkerMap) (unit : Path) : Bool := m.entries.any (·.1.same unit)

end MarkerMap

end Recast
