-- The commands: recasting files, listing stored markers, and listing the
-- front ends and renderers. A command ends with an exit code. If a line that
-- it has to say is refused by its stream, the command breaks off there.
-- Tracing is left out, and with it what `-v` asks for.
import Recast.Batch
import Recast.Command.Arguments
import Recast.Settings

namespace Recast.Command

/-- What the readers of texts say of a text that they refuse. The words are
theirs. -/
structure Wording where
  unit : String → String
  markers : String → String
  settings : String → String

/-- What a command works with. -/
structure World (m : Type → Type) where
  disk : Disk m
  out : TextStream m
  err : TextStream m
  surroundings : Surroundings
  /-- The project, and the place where paths start. -/
  root : Path
  wording : Wording

/-! ## Failures -/

/-- Why a command gave up. -/
inductive Failure
  | settings (cause : SettingsError)
  | noRenderer (language : String)
  | openMarkers (file : Path) (cause : MarkerError)
  | markers (cause : MarkerError)
  | run (cause : RunError)
deriving Repr, DecidableEq, Inhabited

namespace Failure

def settingsChain : SettingsError → List String
  | .io path cause => [(SettingsError.io path cause).message, cause.message]
  | .invalid path cause => [(SettingsError.invalid path cause).message, cause]

def markerChain : MarkerError → List String
  | .io path cause => [(MarkerError.io path cause).message, cause.message]
  | .unreadable path cause => [(MarkerError.unreadable path cause).message, cause]

def runChain : RunError → List String
  | .aborted path errors => [(RunError.aborted path errors).message]
  | .internal cause => [(RunError.internal cause).message, cause.message]
  | .output path cause => [(RunError.output path cause).message, cause.message]
  | .markers cause => markerChain cause

/-- What went wrong, and then the causes behind it. -/
def chain : Failure → List String
  | .settings cause => settingsChain cause
  | .noRenderer language => [s!"no renderer for language '{language}'"]
  | .openMarkers file cause => s!"failed to open marker store {file.text}" :: markerChain cause
  | .markers cause => markerChain cause
  | .run cause => runChain cause

def message (f : Failure) : String := Text.joinWith ": " f.chain

end Failure

/-- What ends a command before it comes to an answer. -/
inductive Halt
  | failed (cause : Failure)
  /-- A line was refused. -/
  | broken (cause : IoFailure)
deriving Repr, DecidableEq, Inhabited

/-! ## Lines of output -/

variable [Monad m]

/-- Writes a line. A command whose line is refused breaks off. -/
def putLine (stream : TextStream m) (s : String) : Attempt m Halt Unit :=
  (stream.put (s ++ "\n")).adapt Halt.broken

def putLines (stream : TextStream m) : List String → Attempt m Halt Unit
  | [] => pure ()
  | s :: rest => do
    putLine stream s
    putLines stream rest

/-! ## Recasting files -/

/-- The switches of the command line as the highest layer of settings. -/
def TranslateArgs.settings (args : TranslateArgs) : Settings where
  run := {
    header := args.header
    headerFile := none
    ignoreErrors := if args.ignoreErrors then some true else none
    emitMarkers := if args.markers.isSome then some true else none
    markerFailure := none }
  output := ⟨args.outDir, none⟩
  batch := {
    parallel := if args.parallel then some true else none
    keepGoing := if args.failFast then some false else if args.keepGoing then some true else none }

/-- Reads the units of files. A file that cannot be read is told of. Gives
the units and the count of files that could not be read. -/
def readInputs (world : World m) : List Path → Attempt m Halt (List SourceUnit × Nat)
  | [] => return ([], 0)
  | file :: rest => do
    match ← ExceptT.lift (world.disk.readUnit world.wording.unit file).run with
    | .ok unit =>
      let (units, unread) ← readInputs world rest
      return (unit :: units, unread)
    | .error e =>
      putLine world.err e.message
      let (units, unread) ← readInputs world rest
      return (units, unread + 1)

variable [MonadStateOf MarkerMap m] [MonadStateOf Written m]

/-- The store of markers for a run: a file, if markers are on. -/
def openStore (world : World m) (args : TranslateArgs) (config : RunConfig) :
    Attempt m Failure (MarkerStore m) := do
  if config.emitMarkers then
    let file := args.markers.getD ((world.root.join ⟨".translit"⟩).join ⟨"markers.json"⟩)
    let markers ← (MarkerFile.start world.disk world.wording.markers file).adapt
      (Failure.openMarkers file)
    set markers
    return MarkerFile.store world.disk file
  else return .nowhere

/-- Where the units go. -/
def destination (world : World m) (settings : Settings) (renderer : Renderer) : Destination m :=
  match settings.output.directory with
  | none => .stream world.out
  | some dir =>
    .directory world.disk ⟨world.root.join dir, settings.output.extension.getD renderer.extension⟩

/-- Reads the files and takes their units through a run. Tells whether
every file was read and every unit came through. -/
def runInputs (world : World m) (inputs : List Path) (setup : Setup m) (dest : Destination m)
    (options : Batch.Options) : Attempt m Halt Bool := do
  let (units, unread) ← readInputs world inputs
  let (result, _) ← ExceptT.lift (Batch.run setup dest options .never .empty units)
  match result with
  | .error e => throw (.failed (.run e))
  | .ok summary =>
    putLines world.err (summary.failures.map (·.2))
    return summary.success && unread == 0

/-- Recasts files, with all that the settings say (`cmd_translate`). -/
def translate (world : World m) (args : TranslateArgs) : Attempt m Halt Bool := do
  let stored ← (Settings.load world.disk world.wording.settings world.surroundings
    world.root).adapt fun e => .failed (.settings e)
  let settings := stored.merge args.settings
  let config ← (settings.runConfig world.disk world.root).adapt fun e => .failed (.settings e)
  match Renderer.forLanguage? args.language with
  | none => throw (.failed (.noRenderer args.language))
  | some renderer =>
    let store ← (openStore world args config).adapt Halt.failed
    runInputs world args.inputs ⟨config, renderer, config.sink world.err store⟩
      (destination world settings renderer) ⟨settings.parallel, settings.keepGoing⟩

/-! ## Lists -/

/-- The lines of stored markers. -/
def markerLines (markers : MarkerMap) : List String :=
  markers.entries.flatMap fun (unit, ms) =>
    ms.map fun marker =>
      s!"{unit.text}({Nat.repr marker.line.toNat}): {marker.severity.text}: {marker.message}"

/-- Shows the markers that a file holds (`cmd_markers`). -/
def showMarkers (world : World m) (file : Path) (json : Bool) : Attempt m Halt Bool := do
  let markers ← (MarkerFile.load world.disk world.wording.markers file).adapt
    fun e => .failed (.markers e)
  putLines world.out (if json then [MarkerFile.print markers] else markerLines markers)
  return true

/-- The text with blanks behind it, up to ten characters. -/
def padded (s : String) : String :=
  s ++ String.ofList (List.replicate (10 - s.toList.length) ' ')

def rendererLines : List String :=
  "Front-ends:" ::
    FrontEnd.all.map (fun f => "  " ++ padded f.name ++ " " ++ Text.joinWith ", " f.extensions) ++
    "Renderers:" :: Renderer.all.map (fun r => "  " ++ padded r.language ++ " ." ++ r.extension)

/-! ## The whole program -/

def perform (world : World m) : Request → Attempt m Halt Bool
  | .translate args => translate world args
  | .markers file json => showMarkers world file json
  | .renderers => do
    putLines world.out rendererLines
    return true

def versionText : String := "translit 0.2.0"

def usageText : String :=
  Text.joinWith "\n" [
    "Usage: translit [-v] <command>",
    "",
    "Commands:",
    "  translate <inputs>... [-t <language>] [-o <directory>] [--header <text>]",
    "            [--ignore-errors] [--markers <file>] [--parallel]",
    "            [--keep-going | --fail-fast]",
    "  markers <file> [--json]",
    "  renderers",
    "  help [command]"]

/-- The exit code of a command that broke off. -/
def brokenCode : UInt32 := 101

/-- The exit code, from how a command ended. A failure is told of first. -/
def conclude (world : World m) : Except Halt Bool → m UInt32
  | .ok true => return 0
  | .ok false => return 1
  | .error (.broken _) => return brokenCode
  | .error (.failed failure) => do
    match ← (putLine world.err ("error: " ++ failure.message)).run with
    | .ok _ => return 1
    | .error _ => return brokenCode

/-- Does what the arguments ask for (`main`). Gives the exit code. To say how
the program is used is no command: there a refused line has no consequence. -/
def execute (world : World m) (args : List String) : m UInt32 := do
  match read args with
  | .error .help =>
    let _ ← (putLine world.out usageText).run
    return 0
  | .error .version =>
    let _ ← (putLine world.out versionText).run
    return 0
  | .error .usage =>
    let _ ← (putLine world.err usageText).run
    return 2
  | .ok request => conclude world (← (perform world request).run)

end Recast.Command
