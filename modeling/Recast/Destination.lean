-- Where the printed units go: all to one stream, or each to a file of its
-- own.
import Recast.Disk
import Recast.Target

namespace Recast

/-- Takes the text of a unit. -/
structure Destination (m : Type → Type) where
  write : TargetUnit → String → Attempt m IoFailure Unit

/-- All units go to one stream. -/
def Destination.stream [Monad m] (out : TextStream m) : Destination m where
  write _ text := do
    out.put text
    out.flush

/-! ## One file for each unit -/

/-- A directory for files with one extension. -/
structure OutputDir where
  root : Path
  extension : String
deriving Repr, DecidableEq, Inhabited

/-- The directories for a namespace, one inside the other. -/
def spaceDirs : Option String → List String
  | none => []
  | some space => (Text.splitOn '.' space).filter (· ≠ "")

/-- The file of a unit: a directory for each word of the namespace, and
the name of the unit up to its first dot. -/
def OutputDir.pathFor (dir : OutputDir) (unit : TargetUnit) : Path :=
  let folder := (spaceDirs unit.space).foldl (fun p word => p.join ⟨word⟩) dir.root
  folder.join ⟨unit.path.stem ++ "." ++ dir.extension⟩

/-- The files that were written, oldest first. -/
structure Written where
  paths : List Path
deriving Repr, DecidableEq, Inhabited

def Written.has (w : Written) (path : Path) : Bool := w.paths.any (·.same path)

/-- Writes a file, and makes the directory around it. -/
def Disk.writeWithDirs [Monad m] (disk : Disk m) (file : Path) (text : String) :
    Attempt m IoFailure Unit := do
  match file.parent? with
  | none => pure ()
  | some parent => disk.createDirs parent
  disk.write file text

/-- Each unit goes to its file. A second unit for one file is refused. -/
def Destination.directory [Monad m] [MonadStateOf Written m] (disk : Disk m) (dir : OutputDir) :
    Destination m where
  write unit text := do
    let file := dir.pathFor unit
    if (← getThe Written).has file then
      throw (.refused s!"{unit.path.text} would overwrite {file.text}")
    disk.writeWithDirs file text
    modifyThe Written fun w => ⟨w.paths ++ [file]⟩

end Recast
