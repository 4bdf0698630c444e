-- One unit on its way, as `Pipeline` takes it: it is validated, recast and
-- printed, and later emitted. Until it is emitted, its text and its
-- diagnostics are only held, so a unit that is dropped before leaves no trace
-- but its lines. Tracing is left out: nothing but a log reads it.
import Recast.Destination
import Recast.FrontEnd
import Recast.Recasting.Unit
import Recast.Sink

namespace Recast

/-- What holds for a whole run. -/
structure RunConfig where
  /-- Stands before every unit. -/
  header : String
  /-- Units with errors are recast all the same. -/
  ignoreErrors : Bool
  emitMarkers : Bool
  markerFailure : MarkerFailure
deriving Repr, DecidableEq, Inhabited

/-- The stages of a unit (`UnitState`). -/
inductive Stage
  | parsed | validated | recast | suppressed | rendered | done | aborted
deriving Repr, DecidableEq, Inhabited

def Stage.text : Stage → String
  | .parsed => "parsed"
  | .validated => "validated"
  | .recast => "translated"
  | .suppressed => "suppressed"
  | .rendered => "rendered"
  | .done => "done"
  | .aborted => "aborted"

/-- Why a unit did not come through. -/
inductive RunError
  /-- The unit has errors, and errors are not ignored. -/
  | aborted (path : Path) (errors : Nat)
  /-- An identity was bound twice. The run must stop. -/
  | internal (cause : BindError)
  | output (path : Path) (cause : IoFailure)
  | markers (cause : MarkerError)
deriving Repr, DecidableEq, Inhabited

namespace RunError

def message : RunError → String
  | .aborted path _ => s!"'{path.text}' has errors, check stderr for details"
  | .internal cause => s!"internal error: {cause.message}"
  | .output path cause => s!"failed to write output for '{path.text}': {cause.message}"
  | .markers cause => cause.message

/-- Whether the error stops the whole run, as `is_fatal_for_run` tells it. -/
def isFatal : RunError → Bool
  | .internal _ => true
  | _ => false

end RunError

/-- A unit that waits to be emitted. -/
structure Pending where
  target : TargetUnit
  /-- `none` if there is nothing to print. -/
  text : Option String
  trace : List Stage
  diagnostics : Diagnostics

/-- What is told of a unit that came through. -/
structure Report where
  path : Path
  trace : List Stage
  suppressed : Bool
  problems : List Problem
deriving Repr, DecidableEq, Inhabited

/-- What the units of a run share. -/
structure Setup (m : Type → Type) where
  config : RunConfig
  renderer : Renderer
  sink : Sink m

/-- The diagnostics of a unit, with the errors that its parser found. -/
def SourceUnit.diagnostics (u : SourceUnit) : Diagnostics :=
  u.errors.foldl .addParsed (.start u.path)

/-- Records the warnings of recasting. -/
def Diagnostics.addWarnings (d : Diagnostics) (warnings : List Warning) : Diagnostics :=
  warnings.foldl (fun d w => d.addWarning w.span w.message) d

/-- The sink for a configuration. -/
def RunConfig.sink (config : RunConfig) (stream : TextStream m) (store : MarkerStore m) : Sink m :=
  ⟨stream, store, config.emitMarkers, config.markerFailure⟩

namespace Setup

variable [Monad m]

/-- The text of a unit, if it is to be printed. -/
def textOf (setup : Setup m) (target : TargetUnit) : Option String :=
  if target.suppressed then none else some (setup.renderer.render setup.config.header target)

/-- Validates, recasts and prints a unit (`translate_unit`). Nothing is
emitted. A unit that does not come through writes its lines at once. -/
def prepare (setup : Setup m) (bindings : Bindings) (u : SourceUnit) :
    m (Except RunError Pending × Bindings) := do
  if u.hasErrors && !setup.config.ignoreErrors then
    let _ ← u.diagnostics.abandon setup.sink
    return (.error (.aborted u.path u.errors.length), bindings)
  else
    let outcome := u.recast bindings
    let diagnostics := u.diagnostics.addWarnings outcome.warnings
    match outcome.result with
    | .error e =>
      let _ ← diagnostics.abandon setup.sink
      return (.error (.internal e), outcome.bindings)
    | .ok target =>
      return (.ok ⟨target, setup.textOf target, [.parsed, .validated, .recast], diagnostics⟩,
        outcome.bindings)

/-- The last part of `emit`: writes the text of a unit that has one, and
tells the last stages. -/
def deliver (dest : Destination m) (pending : Pending) : Attempt m RunError (List Stage) :=
  match pending.text with
  | none => return [.suppressed, .done]
  | some text => do
    (dest.write pending.target text).adapt (RunError.output pending.target.path)
    return [.rendered, .done]

/-- Finishes the diagnostics of a unit and writes its text (`emit`). The
markers are stored before the text is written. -/
def emit (setup : Setup m) (dest : Destination m) (pending : Pending) :
    Attempt m RunError Report := do
  let problems ← (pending.diagnostics.finish setup.sink).adapt RunError.markers
  let stages ← deliver dest pending
  return ⟨pending.target.path, pending.trace ++ stages, pending.target.suppressed, problems⟩

/-- Drops a unit that is not emitted (`Translated::discard`). -/
def discard (setup : Setup m) (pending : Pending) : m (List Problem) :=
  pending.diagnostics.abandon setup.sink

/-- Takes a unit all the way (`process`). -/
def process (setup : Setup m) (dest : Destination m) (bindings : Bindings) (u : SourceUnit) :
    m (Except RunError Report × Bindings) := do
  let (result, bindings) ← setup.prepare bindings u
  match result with
  | .error e => return (.error e, bindings)
  | .ok pending => return (← (setup.emit dest pending).run, bindings)

end Setup

end Recast
