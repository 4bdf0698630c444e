-- The sink of diagnostics (`DiagnosticSink`). Every problem becomes a line on
-- a stream. With markers on, the problems that recasting found are also kept in
-- a store. The diagnostics of a unit are collected and written in one go, and
-- its stored markers change only when the unit is finished. Tracing is left out,
-- also where it tells of a failure that goes no further.
import Recast.Marker.Store

namespace Recast

/-- What happens when the store of markers fails. -/
inductive MarkerFailure
  /-- The run goes on. -/
  | log
  /-- The unit fails. -/
  | fail
deriving Repr, DecidableEq, Inhabited

/-! ## Lines -/

/-- The pieces of the lines, in the order in which they are written. -/
def linePieces (problems : List Problem) : List String :=
  problems.flatMap fun p => p.pieces ++ ["\n"]

/-- Writes the lines and flushes (`write_lines`). The first refused piece ends
the writing, and no failure goes further. -/
def TextStream.putLines [Monad m] (stream : TextStream m) (problems : List Problem) : m Unit := do
  if problems.isEmpty then pure ()
  else
    let _ ← (do
      stream.putAll (linePieces problems)
      stream.flush : Attempt m IoFailure Unit).run
    pure ()

structure Sink (m : Type → Type) where
  stream : TextStream m
  store : MarkerStore m
  emitMarkers : Bool
  markerFailure : MarkerFailure

namespace Sink

variable [Monad m]

def writeLines (sink : Sink m) (problems : List Problem) : m Unit := sink.stream.putLines problems

/-! ## Markers -/

/-- What is left of a failure of the store (`apply_policy`). -/
def settle (sink : Sink m) (action : Attempt m MarkerError Unit) : Attempt m MarkerError Unit :=
  ExceptT.mk do
    match ← action.run, sink.markerFailure with
    | .error _, .log => return .ok ()
    | result, _ => return result

/-- Drops the markers of a unit, if markers are on (`clear_markers`). -/
def clear (sink : Sink m) (unit : Path) : Attempt m MarkerError Unit :=
  if sink.emitMarkers then sink.settle (sink.store.clear unit) else pure ()

/-- Keeps a problem as a marker of a unit, if markers are on (`forward`). -/
def keep (sink : Sink m) (unit : Path) (problem : Problem) : Attempt m MarkerError Unit :=
  if sink.emitMarkers then sink.settle (sink.store.add unit (.ofProblem problem)) else pure ()

/-- Keeps problems one after the other, until one cannot be kept. -/
def keepAll (sink : Sink m) (unit : Path) : List Problem → Attempt m MarkerError Unit
  | [] => pure ()
  | p :: ps => do
    sink.keep unit p
    sink.keepAll unit ps

/-- Writes one problem at once and keeps it (`report`). -/
def report (sink : Sink m) (problem : Problem) : Attempt m MarkerError Unit := do
  sink.writeLines [problem]
  sink.keep problem.path problem

end Sink

/-! ## The diagnostics of a unit -/

/-- A recorded problem. What the parser found is written, but it is not
kept as a marker. -/
structure Entry where
  problem : Problem
  kept : Bool
deriving Repr, DecidableEq, Inhabited

/-- The problems of a unit that are collected (`UnitDiagnostics`). -/
structure Diagnostics where
  unit : Path
  /-- The problems, oldest first. -/
  entries : List Entry
deriving Repr, DecidableEq, Inhabited

namespace Diagnostics

def start (unit : Path) : Diagnostics := ⟨unit, []⟩

/-- Records a problem that the parser found (`report_parse`). -/
def addParsed (d : Diagnostics) (problem : Problem) : Diagnostics :=
  { d with entries := d.entries ++ [⟨problem, false⟩] }

/-- Records a warning of this unit (`warning`). -/
def addWarning (d : Diagnostics) (span : Span) (message : String) : Diagnostics :=
  { d with entries := d.entries ++ [⟨.ofSpan .warning d.unit span message, true⟩] }

def problems (d : Diagnostics) : List Problem := d.entries.map (·.problem)

/-- The problems that become markers. -/
def keptProblems (d : Diagnostics) : List Problem := (d.entries.filter (·.kept)).map (·.problem)

variable [Monad m]

/-- Writes the lines and puts the markers of the unit in the place of
those that were stored (`finish`). -/
def finish (d : Diagnostics) (sink : Sink m) : Attempt m MarkerError (List Problem) := do
  sink.writeLines d.problems
  sink.clear d.unit
  sink.keepAll d.unit d.keptProblems
  return d.problems

/-- Writes the lines and leaves the stored markers as they are (`abandon`). -/
def abandon (d : Diagnostics) (sink : Sink m) : m (List Problem) := do
  sink.writeLines d.problems
  return d.problems

end Diagnostics

end Recast
