-- Settings come in layers: one for all projects, one for the project, and
-- the command line. Of each setting the highest layer that has it counts.
-- The header and the header file are one setting: a layer that has either
-- puts aside both of the layers below.
import Recast.Disk
import Recast.Run
import Recast.Toml.Document

namespace Recast

/-! ## Settings -/

structure RunSettings where
  header : Option String
  headerFile : Option Path
  ignoreErrors : Option Bool
  emitMarkers : Option Bool
  markerFailure : Option MarkerFailure
deriving Repr, DecidableEq, Inhabited

structure OutputSettings where
  /-- Where the files go. Without it all units go to one stream. -/
  directory : Option Path
  extension : Option String
deriving Repr, DecidableEq, Inhabited

structure BatchSettings where
  parallel : Option Bool
  keepGoing : Option Bool
deriving Repr, DecidableEq, Inhabited

structure Settings where
  run : RunSettings
  output : OutputSettings
  batch : BatchSettings
deriving Repr, DecidableEq, Inhabited

namespace Settings

/-- Nothing is set. -/
def empty : Settings := ⟨⟨none, none, none, none, none⟩, ⟨none, none⟩, ⟨none, none⟩⟩

/-- The settings with a higher layer on top. -/
def merge (low high : Settings) : Settings :=
  let headerFrom := if high.run.header.isSome || high.run.headerFile.isSome then high else low
  { run := {
      header := headerFrom.run.header
      headerFile := headerFrom.run.headerFile
      ignoreErrors := high.run.ignoreErrors.or low.run.ignoreErrors
      emitMarkers := high.run.emitMarkers.or low.run.emitMarkers
      markerFailure := high.run.markerFailure.or low.run.markerFailure }
    output := {
      directory := high.output.directory.or low.output.directory
      extension := high.output.extension.or low.output.extension }
    batch := {
      parallel := high.batch.parallel.or low.batch.parallel
      keepGoing := high.batch.keepGoing.or low.batch.keepGoing } }

def parallel (s : Settings) : Bool := s.batch.parallel.getD false

def keepGoing (s : Settings) : Bool := s.batch.keepGoing.getD true

/-! ## Settings from a document -/

/-- The fields of a section. A section may also be an array of its fields
in order. A date is taken for a section that sets nothing. -/
def section? (names : List String) : Toml → Option Toml.Entries
  | .table _ entries => some entries
  | .array items => some (names.zip items)
  | .tables elements => some (names.zip (elements.map (.table .header)))
  | .moment _ => some []
  | _ => none

/-- A setting that may be missing, read by `f`. -/
def field? (f : Toml → Option α) (entries : Toml.Entries) (name : String) : Option (Option α) :=
  match entries.lookup name with
  | none => some none
  | some v => (f v).map some

def text? : Toml → Option String
  | .text s => some s
  | _ => none

def path? (v : Toml) : Option Path := (text? v).map Path.mk

def bool? : Toml → Option Bool
  | .bool b => some b
  | _ => none

def policies : List (String × MarkerFailure) := [("log", .log), ("fail", .fail)]

/-- A value that holds nothing. -/
def isHollow : Toml → Bool
  | .table _ entries => entries.isEmpty
  | .array items => items.isEmpty
  | .tables elements => elements.isEmpty
  | _ => false

/-- A policy is a name, or a table with the name as its one key. -/
def policy? : Toml → Option MarkerFailure
  | .text s => policies.lookup s
  | .table _ [(s, v)] => if isHollow v then policies.lookup s else none
  | _ => none

def runNames : List String :=
  ["header", "header_file", "ignore_errors", "emit_markers", "marker_failure"]

def run? (v : Toml) : Option RunSettings := do
  let es ← section? runNames v
  return {
    header := ← field? text? es "header"
    headerFile := ← field? path? es "header_file"
    ignoreErrors := ← field? bool? es "ignore_errors"
    emitMarkers := ← field? bool? es "emit_markers"
    markerFailure := ← field? policy? es "marker_failure" }

def output? (v : Toml) : Option OutputSettings := do
  let es ← section? ["directory", "extension"] v
  return {
    directory := ← field? path? es "directory"
    extension := ← field? text? es "extension" }

def batch? (v : Toml) : Option BatchSettings := do
  let es ← section? ["parallel", "keep_going"] v
  return {
    parallel := ← field? bool? es "parallel"
    keepGoing := ← field? bool? es "keep_going" }

/-- The settings that a document makes. Keys that are no settings do not
matter. -/
def ofEntries? (es : Toml.Entries) : Option Settings := do
  return {
    run := (← field? run? es "run").getD empty.run
    output := (← field? output? es "output").getD empty.output
    batch := (← field? batch? es "batch").getD empty.batch }

/-- The settings that a text makes. -/
def parse? (s : String) : Option Settings := (Toml.parse? s).bind ofEntries?

end Settings

/-! ## Settings on a disk -/

/-- Why the settings could not be had. -/
inductive SettingsError
  | io (path : Path) (cause : IoFailure)
  /-- The text makes no settings. The cause is in the words of the reader. -/
  | invalid (path : Path) (cause : String)
deriving Repr, DecidableEq, Inhabited

def SettingsError.message : SettingsError → String
  | .io path cause => s!"failed to read {path.text}: {cause.message}"
  | .invalid path cause => s!"invalid config {path.text}: {cause}"

/-- What the settings of a user are found by. -/
structure Surroundings where
  /-- The directory for settings, if it is named. -/
  configHome : Option Path
  home : Option Path
deriving Repr, DecidableEq, Inhabited

/-- The file with the settings for all projects. -/
def Surroundings.settingsFile? (s : Surroundings) : Option Path :=
  (s.configHome.or (s.home.map (·.join ⟨".config"⟩))).map fun dir =>
    (dir.join ⟨"translit"⟩).join ⟨"config.toml"⟩

namespace Settings

variable [Monad m]

/-- The settings in a file. A file that is not there has none. What is wrong
with a text that makes none, `explain` says. -/
def loadFile (disk : Disk m) (explain : String → String) (file : Path) :
    Attempt m SettingsError (Option Settings) :=
  ExceptT.mk do
    match ← (disk.read file).run with
    | .error .notFound => return .ok none
    | .error cause => return .error (.io file cause)
    | .ok text =>
      match parse? text with
      | some s => return .ok (some s)
      | none => return .error (.invalid file (explain text))

/-- The settings with those of a file on top. -/
def overlay (disk : Disk m) (explain : String → String) (file : Path) (s : Settings) :
    Attempt m SettingsError Settings := do
  match ← loadFile disk explain file with
  | none => return s
  | some high => return s.merge high

/-- The settings for a project: those for all projects, and those of the
project on top. -/
def load (disk : Disk m) (explain : String → String) (surroundings : Surroundings)
    (root : Path) : Attempt m SettingsError Settings := do
  let s ← match surroundings.settingsFile? with
    | none => pure empty
    | some file => overlay disk explain file empty
  overlay disk explain ((root.join ⟨".translit"⟩).join ⟨"config.toml"⟩) s

/-- The text that stands before every unit. -/
def header (disk : Disk m) (root : Path) (s : Settings) : Attempt m SettingsError String :=
  match s.run.header, s.run.headerFile with
  | some header, _ => return header
  | none, some file => (disk.read (root.join file)).adapt (SettingsError.io (root.join file))
  | none, none => return ""

/-- What holds for a whole run. -/
def runConfig (disk : Disk m) (root : Path) (s : Settings) : Attempt m SettingsError RunConfig := do
  return {
    header := ← s.header disk root
    ignoreErrors := s.run.ignoreErrors.getD false
    emitMarkers := s.run.emitMarkers.getD false
    markerFailure := s.run.markerFailure.getD .log }

end Settings

end Recast
