-- Many units in one run (`run_batch`). A unit that fails fails alone, unless
-- the run is to stop at the first failure; a fatal error stops the run at
-- once. Units are prepared one by one just before they are emitted, or all
-- of them before the first is emitted, in an order that is not fixed.
-- Tracing is left out.
import Recast.Run

namespace Recast

namespace Batch

structure Options where
  /-- All units are prepared before the first is emitted. -/
  parallel : Bool
  /-- The run goes on after a unit failed. -/
  keepGoing : Bool
deriving Repr, DecidableEq, Inhabited

/-- How far a run is. -/
structure Progress where
  /-- How often the signal was looked at. -/
  checks : Nat
  /-- The units that were recast so far. -/
  recast : List Path
deriving Repr, DecidableEq, Inhabited

/-- Whether a run is to stop, told from how far it is. It stands for the flag
`cancel`, which others may raise at any time. -/
abbrev Signal := Progress → Bool

/-- The signal that is never raised. -/
def Signal.never : Signal := fun _ => false

/-! ## Summaries -/

structure Summary where
  rendered : Nat
  suppressed : Nat
  /-- Units that have errors. -/
  aborted : Nat
  /-- Units that failed later. -/
  failed : Nat
  reports : List Report
  /-- The units that failed, with what went wrong. -/
  failures : List (Path × String)
  /-- The run was stopped by the signal. -/
  cancelled : Bool
deriving Repr, DecidableEq, Inhabited

namespace Summary

def empty : Summary := ⟨0, 0, 0, 0, [], [], false⟩

/-- Every unit came through and the run was not stopped, as
`BatchSummary::success` tells it. -/
def success (s : Summary) : Bool := s.aborted == 0 && s.failed == 0 && !s.cancelled

/-- Counts a unit that came through (`record`). -/
def record (s : Summary) (report : Report) : Summary :=
  if report.suppressed then
    { s with suppressed := s.suppressed + 1, reports := s.reports ++ [report] }
  else
    { s with rendered := s.rendered + 1, reports := s.reports ++ [report] }

/-- Counts a unit that did not (`record_failure`). -/
def recordFailure (s : Summary) (path : Path) (error : RunError) : Summary :=
  match error with
  | .aborted _ _ =>
    { s with aborted := s.aborted + 1, failures := s.failures ++ [(path, error.message)] }
  | _ => { s with failed := s.failed + 1, failures := s.failures ++ [(path, error.message)] }

end Summary

/-! ## The steps of a run -/

/-- A prepared unit, or why it has none. -/
abbrev Prepared := Except RunError Pending

/-- The progress after a look at the signal. -/
def Progress.checked (p : Progress) : Progress := { p with checks := p.checks + 1 }

/-- The progress after a unit was prepared. -/
def Progress.after (p : Progress) (u : SourceUnit) : Prepared → Progress
  | .ok _ => { p with recast := p.recast ++ [u.path] }
  | .error _ => p

/-- What follows one unit: the run goes on, stops, or breaks off. -/
inductive Next
  | proceed (summary : Summary)
  | stop (summary : Summary)
  | fatal (error : RunError)

/-- What a run has done with single units. -/
structure Worker (m : Type → Type) where
  prepare : Bindings → SourceUnit → m (Prepared × Bindings)
  emit : Pending → m (Except RunError Report)
  discard : Pending → m (List Problem)

namespace Worker

variable [Monad m] (worker : Worker m) (options : Options) (signal : Signal)

/-- Drops a unit that was prepared and is not emitted. -/
def drop : Option Prepared → m Unit
  | some (.ok pending) => do
    let _ ← worker.discard pending
  | _ => pure ()

def dropAll : List (SourceUnit × Option Prepared) → m Unit
  | [] => pure ()
  | (_, prepared) :: rest => do
    worker.drop prepared
    dropAll rest

/-- Prepares a unit, unless the signal is raised. -/
def prepareUnit (bindings : Bindings) (progress : Progress) (u : SourceUnit) :
    m (Option Prepared × Bindings × Progress) := do
  if signal progress then return (none, bindings, progress.checked)
  else
    let (prepared, bindings) ← worker.prepare bindings u
    return (some prepared, bindings, progress.checked.after u prepared)

/-- Emits a unit, if there is something prepared of it. -/
def conclude : Prepared → m (Except RunError Report)
  | .error e => return .error e
  | .ok pending => worker.emit pending

/-- What follows from how a unit came out. -/
def follow (summary : Summary) (u : SourceUnit) : Except RunError Report → Next
  | .ok report => .proceed (summary.record report)
  | .error e =>
    if e.isFatal then .fatal e
    else if options.keepGoing then .proceed (summary.recordFailure u.path e)
    else .stop (summary.recordFailure u.path e)

/-- Emits a prepared unit, unless the signal is raised. -/
def emitUnit (progress : Progress) (summary : Summary) (u : SourceUnit)
    (prepared : Option Prepared) : m Next := do
  if signal progress then
    worker.drop prepared
    return .stop { summary with cancelled := true }
  else
    match prepared with
    | none => return .stop { summary with cancelled := true }
    | some prepared => return follow options summary u (← worker.conclude prepared)

/-! ## Runs -/

/-- Units of which nothing is prepared. -/
def waiting (units : List SourceUnit) : List (SourceUnit × Option Prepared) :=
  units.map fun u => (u, none)

/-- One turn of the loop of `run_batch` after the other, if it is not
parallel: each unit is emitted before the next is prepared. -/
def runInTurn (bindings : Bindings) (progress : Progress) (summary : Summary) :
    List SourceUnit → m (Except RunError Summary × Bindings)
  | [] => return (.ok summary, bindings)
  | u :: rest => do
    let (prepared, bindings, progress) ← worker.prepareUnit signal bindings progress u
    match ← worker.emitUnit options signal progress summary u prepared with
    | .proceed summary => runInTurn bindings progress.checked summary rest
    | .stop summary => return (.ok summary, bindings)
    | .fatal e => return (.error e, bindings)

/-- Prepares the unit at a place, if it waits there. -/
def prepareAt (bindings : Bindings) (progress : Progress) :
    Nat → List (SourceUnit × Option Prepared) →
      m (List (SourceUnit × Option Prepared) × Bindings × Progress)
  | 0, (u, none) :: rest => do
    let (prepared, bindings, progress) ← worker.prepareUnit signal bindings progress u
    return ((u, prepared) :: rest, bindings, progress)
  | place + 1, entry :: rest => do
    let (rest, bindings, progress) ← prepareAt bindings progress place rest
    return (entry :: rest, bindings, progress)
  | _, entries => return (entries, bindings, progress)

/-- Prepares the units at these places, one after the other, as the parallel
iterator of `run_batch` does with those of all units. What is prepared stays at
the place of its unit. -/
def prepareAll (bindings : Bindings) (progress : Progress)
    (entries : List (SourceUnit × Option Prepared)) :
    List Nat → m (List (SourceUnit × Option Prepared) × Bindings × Progress)
  | [] => return (entries, bindings, progress)
  | place :: order => do
    let (entries, bindings, progress) ← worker.prepareAt signal bindings progress place entries
    prepareAll bindings progress entries order

/-- The loop of `run_batch` over prepared units. Those that come after a stop
are dropped, but not those that come after a fatal error. -/
def emitAll (progress : Progress) (summary : Summary) :
    List (SourceUnit × Option Prepared) → m (Except RunError Summary)
  | [] => return .ok summary
  | (u, prepared) :: rest => do
    match ← worker.emitUnit options signal progress summary u prepared with
    | .proceed summary => emitAll progress.checked summary rest
    | .stop summary =>
      worker.dropAll rest
      return .ok summary
    | .fatal e => return .error e

/-- Takes all units through the run. An error is one that stopped the
whole run. If all units are prepared first, they are taken up in this order,
which lists their places, and each is prepared as a whole before the next. With
several threads at work the order can be any. -/
def runIn (order : List Nat) (bindings : Bindings) (units : List SourceUnit) :
    m (Except RunError Summary × Bindings) := do
  if options.parallel then
    let (prepared, bindings, progress) ←
      worker.prepareAll signal bindings ⟨0, []⟩ (waiting units) order
    return (← worker.emitAll options signal progress .empty prepared, bindings)
  else
    worker.runInTurn options signal bindings ⟨0, []⟩ .empty units

/-- Takes all units through the run. One thread takes them up as they
come. -/
def run (bindings : Bindings) (units : List SourceUnit) :
    m (Except RunError Summary × Bindings) :=
  worker.runIn options signal (List.range units.length) bindings units

end Worker

end Batch

/-- Works on units with this setup, for this destination. -/
def Setup.worker [Monad m] (setup : Setup m) (dest : Destination m) : Batch.Worker m where
  prepare := setup.prepare
  emit pending := (setup.emit dest pending).run
  discard := setup.discard

/-- Takes all units through a run with this setup. If all units are prepared
first, they are taken up in this order. -/
def Batch.runIn [Monad m] (setup : Setup m) (dest : Destination m) (order : List Nat)
    (options : Batch.Options) (signal : Batch.Signal) (bindings : Bindings)
    (units : List SourceUnit) : m (Except RunError Batch.Summary × Bindings) :=
  (setup.worker dest).runIn options signal order bindings units

/-- Takes all units through a run with this setup, in the order in which
they come. -/
def Batch.run [Monad m] (setup : Setup m) (dest : Destination m) (options : Batch.Options)
    (signal : Batch.Signal) (bindings : Bindings) (units : List SourceUnit) :
    m (Except RunError Batch.Summary × Bindings) :=
  (setup.worker dest).run options signal bindings units

end Recast
