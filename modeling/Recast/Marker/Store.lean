-- Stores of markers. A store can drop the markers of a unit and add one.
import Recast.Disk
import Recast.Form.Problem

namespace Recast

/-- Why the markers could not be kept. -/
inductive MarkerError
  | io (path : Path) (cause : IoFailure)
  /-- The file holds no markers. The cause is in the words of the reader. -/
  | unreadable (path : Path) (cause : String)
deriving Repr, DecidableEq, Inhabited

def MarkerError.message : MarkerError → String
  | .io path cause => s!"marker store {path.text}: {cause.message}"
  | .unreadable path cause => s!"marker store {path.text}: {cause}"

structure MarkerStore (m : Type → Type) where
  /-- Drops all markers of a unit. -/
  clear : Path → Attempt m MarkerError Unit
  /-- Puts a marker behind those of a unit. -/
  add : Path → Marker → Attempt m MarkerError Unit

namespace MarkerStore

/-- Keeps nothing. -/
def nowhere [Monad m] : MarkerStore m where
  clear _ := pure ()
  add _ _ := pure ()

/-- Keeps the markers in the state. -/
def memory [Monad m] [MonadStateOf MarkerMap m] : MarkerStore m where
  clear unit := modifyThe MarkerMap (·.clear unit)
  add unit marker := modifyThe MarkerMap (·.add unit marker)

end MarkerStore

/-! ## Markers in a file -/

namespace MarkerFile

/-- The text of a marker file. -/
def print (markers : MarkerMap) : String := (Form.writeMarkerMap markers).pretty

/-- The markers that a file holds. What is wrong with a text that holds
none, `explain` says. -/
def load [Monad m] (disk : Disk m) (explain : String → String) (file : Path) :
    Attempt m MarkerError MarkerMap :=
  ExceptT.mk do
    match ← (disk.read file).run with
    | .error cause => return .error (.io file cause)
    | .ok text =>
      match Json.read? Form.markerMap text with
      | some markers => return .ok markers
      | none => return .error (.unreadable file (explain text))

/-- The markers to start with. A file that is not there holds none. -/
def start [Monad m] (disk : Disk m) (explain : String → String) (file : Path) :
    Attempt m MarkerError MarkerMap := do
  if ← disk.present file then load disk explain file else return .empty

/-- The file as the markers require, and the directory around it. -/
def write [Monad m] (disk : Disk m) (file : Path) (markers : MarkerMap) :
    Attempt m IoFailure Unit := do
  match file.parent? with
  | none => pure ()
  | some parent => if parent.isEmpty then pure () else disk.createDirs parent
  disk.write file (print markers)

/-- Writes the markers to the file. -/
def persist [Monad m] (disk : Disk m) (file : Path) (markers : MarkerMap) :
    Attempt m MarkerError Unit :=
  (write disk file markers).adapt (MarkerError.io file)

/-- Keeps the markers in the state and writes every change to a file. To
clear a unit that has no entry is no change. -/
def store [Monad m] [MonadStateOf MarkerMap m] (disk : Disk m) (file : Path) : MarkerStore m where
  clear unit := do
    let markers ← getThe MarkerMap
    if markers.has unit then
      set (markers.clear unit)
      persist disk file (markers.clear unit)
  add unit marker := do
    let markers := (← getThe MarkerMap).add unit marker
    set markers
    persist disk file markers

end MarkerFile

end Recast
