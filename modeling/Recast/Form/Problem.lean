-- The JSON form of problems and markers.
import Recast.Json.Printer
import Recast.Json.Reader
import Recast.Marker

namespace Recast.Form

/-! ## Problems -/

def severities : List (String × Severity) := [("warning", .warning), ("error", .error)]

def severity : Json.Reader Severity := .oneOf severities

def path : Json.Reader Path := fun room j => (Json.Reader.text room j).map Path.mk

def writeProblem (p : Problem) : Json :=
  .object [("severity", .text p.severity.text), ("message", .text p.message),
    ("path", .text p.path.text), ("line", .ofNat p.line.toNat), ("start", .ofNat p.start.toNat),
    ("end", .ofNat p.stop.toNat)]

def problem : Json.Reader Problem :=
  .record ["severity", "message", "path", "line", "start", "end"] fun room f => do
    return {
      severity := ← f.required "severity" severity room
      message := ← f.required "message" .text room
      path := ← f.defaulted "path" path room ⟨""⟩
      line := ← f.required "line" .uint32 room
      start := ← f.defaulted "start" .uint64 room 0
      stop := ← f.defaulted "end" .uint64 room 0 }

/-! ## Markers -/

def writeMarker (m : Marker) : Json :=
  .object [("message", .text m.message), ("severity", .text m.severity.text),
    ("char_start", .ofNat m.charStart.toNat), ("char_end", .ofNat m.charEnd.toNat),
    ("line", .ofNat m.line.toNat), ("transient", .bool m.transient)]

def marker : Json.Reader Marker :=
  .record ["message", "severity", "char_start", "char_end", "line", "transient"] fun room f => do
    return {
      message := ← f.required "message" .text room
      severity := ← f.required "severity" severity room
      charStart := ← f.required "char_start" .uint64 room
      charEnd := ← f.required "char_end" .uint64 room
      line := ← f.required "line" .uint32 room
      transient := ← f.defaulted "transient" .bool room false }

/-- A marker map is an object with the paths as its keys. -/
def writeMarkerMap (m : MarkerMap) : Json :=
  .object (m.entries.map fun (unit, markers) => (unit.text, .array (markers.map writeMarker)))

/-- Of two keys that name one path the later value counts. -/
def markerMap : Json.Reader MarkerMap
  | room + 1, .object fields =>
    fields.foldlM (fun m (unit, j) => do return m.set ⟨unit⟩ (← Json.Reader.list marker room j))
      MarkerMap.empty
  | _, _ => none

end Recast.Form
