-- Two runs side by side. If the work on single units is alike in two
-- worlds, then so are whole runs: they give the same, and they leave the
-- worlds in the same relation. One unit is alike as soon as the sinks
-- and the destinations are.
import Recast.Proofs.Actions

namespace Recast

variable {V W : Type} {R : V → W → Prop}

/-! ## Streams -/

/-- Two streams that take texts alike. -/
structure TextStream.Alike (R : V → W → Prop) (stream : TextStream (StateM V))
    (other : TextStream (StateM W)) : Prop where
  write : ∀ s, Recast.Alike R (stream.write s).run (other.write s).run
  flush : Recast.Alike R stream.flush.run other.flush.run

namespace TextStream.Alike

variable {stream : TextStream (StateM V)} {other : TextStream (StateM W)}
  (h : stream.Alike R other)
include h

theorem put (s : String) : Recast.Alike R (stream.put s).run (other.put s).run := by
  unfold TextStream.put
  split
  · exact Recast.Alike.pure _
  · exact h.write s

theorem putAll (pieces : List String) :
    Recast.Alike R (stream.putAll pieces).run (other.putAll pieces).run := by
  induction pieces with
  | nil => exact Recast.Alike.pure _
  | cons s rest ih => exact (h.put s).attempt_bind fun _ => ih

theorem putLines (ps : List Problem) :
    Recast.Alike R (stream.putLines ps) (other.putLines ps) := by
  unfold TextStream.putLines
  split
  · exact Recast.Alike.pure _
  · exact ((h.putAll _).attempt_bind fun _ => h.flush).bind fun _ => Recast.Alike.pure _

end TextStream.Alike

/-! ## One unit -/

/-- Two sinks that do alike all that a unit asks of them. -/
structure Sink.Alike (R : V → W → Prop) (sink : Sink (StateM V)) (other : Sink (StateM W)) :
    Prop where
  lines : ∀ ps, Recast.Alike R (sink.writeLines ps) (other.writeLines ps)
  clear : ∀ unit, Recast.Alike R (sink.clear unit).run (other.clear unit).run
  keep : ∀ unit p, Recast.Alike R (sink.keep unit p).run (other.keep unit p).run

/-- Under one policy, what is left of a failure is alike. -/
theorem Sink.settle_alike {sink : Sink (StateM V)} {other : Sink (StateM W)}
    (hf : sink.markerFailure = other.markerFailure)
    {x : Attempt (StateM V) MarkerError Unit} {y : Attempt (StateM W) MarkerError Unit}
    (h : Recast.Alike R x.run y.run) :
    Recast.Alike R (sink.settle x).run (other.settle y).run := by
  unfold Sink.settle
  rw [hf]
  apply h.bind
  intro result
  split
  · exact Recast.Alike.pure _
  · exact Recast.Alike.pure _

/-- Sinks with the same switches are alike when their lines and their
stores are. -/
theorem Sink.alike_of_store {sink : Sink (StateM V)} {other : Sink (StateM W)}
    (hm : sink.emitMarkers = other.emitMarkers) (hf : sink.markerFailure = other.markerFailure)
    (hl : ∀ ps, Recast.Alike R (sink.writeLines ps) (other.writeLines ps))
    (hc : ∀ unit, Recast.Alike R (sink.store.clear unit).run (other.store.clear unit).run)
    (ha : ∀ unit marker,
      Recast.Alike R (sink.store.add unit marker).run (other.store.add unit marker).run) :
    sink.Alike R other where
  lines := hl
  clear unit := by
    unfold Sink.clear
    rw [hm]
    split
    · exact Sink.settle_alike hf (hc unit)
    · exact Recast.Alike.pure _
  keep unit p := by
    unfold Sink.keep
    rw [hm]
    split
    · exact Sink.settle_alike hf (ha unit _)
    · exact Recast.Alike.pure _

theorem Sink.Alike.keepAll {sink : Sink (StateM V)} {other : Sink (StateM W)}
    (h : sink.Alike R other) (unit : Path) (ps : List Problem) :
    Recast.Alike R (sink.keepAll unit ps).run (other.keepAll unit ps).run := by
  induction ps with
  | nil => exact Recast.Alike.pure _
  | cons p ps ih => exact (h.keep unit p).attempt_bind fun _ => ih

theorem Diagnostics.abandon_alike {sink : Sink (StateM V)} {other : Sink (StateM W)}
    (h : sink.Alike R other) (d : Diagnostics) : Alike R (d.abandon sink) (d.abandon other) :=
  (h.lines d.problems).bind fun _ => Alike.pure _

theorem Diagnostics.finish_alike {sink : Sink (StateM V)} {other : Sink (StateM W)}
    (h : sink.Alike R other) (d : Diagnostics) :
    Alike R (d.finish sink).run (d.finish other).run := by
  unfold Diagnostics.finish
  have hlines : Alike R
      (liftM (sink.writeLines d.problems) : Attempt (StateM V) MarkerError Unit).run
      (liftM (other.writeLines d.problems) : Attempt (StateM W) MarkerError Unit).run :=
    (h.lines d.problems).bind fun _ => Alike.pure _
  apply hlines.attempt_bind
  intro _
  apply (h.clear d.unit).attempt_bind
  intro _
  apply (h.keepAll d.unit d.keptProblems).attempt_bind
  intro _
  exact Alike.pure _

/-- Two setups with one configuration and one renderer, and sinks that
are alike. -/
structure Setup.Alike (R : V → W → Prop) (setup : Setup (StateM V)) (other : Setup (StateM W)) :
    Prop where
  config : setup.config = other.config
  renderer : setup.renderer = other.renderer
  sink : setup.sink.Alike R other.sink

namespace Setup.Alike

variable {setup : Setup (StateM V)} {other : Setup (StateM W)}

theorem prepare (h : setup.Alike R other) (bindings : Bindings) (u : SourceUnit) :
    Recast.Alike R (setup.prepare bindings u) (other.prepare bindings u) := by
  unfold Setup.prepare Setup.textOf
  rw [h.config, h.renderer]
  split
  · exact (Diagnostics.abandon_alike h.sink _).bind fun _ => Recast.Alike.pure _
  · dsimp only
    split
    · exact (Diagnostics.abandon_alike h.sink _).bind fun _ => Recast.Alike.pure _
    · exact Recast.Alike.pure _

theorem emit {dest : Destination (StateM V)} {dest' : Destination (StateM W)}
    (h : setup.Alike R other)
    (hd : ∀ unit text, Recast.Alike R (dest.write unit text).run (dest'.write unit text).run)
    (pending : Pending) :
    Recast.Alike R (setup.emit dest pending).run (other.emit dest' pending).run := by
  unfold Setup.emit
  apply ((Diagnostics.finish_alike h.sink pending.diagnostics).adapt _).attempt_bind
  intro problems
  have hdeliver : Recast.Alike R (Setup.deliver dest pending).run
      (Setup.deliver dest' pending).run := by
    unfold Setup.deliver
    split
    · exact Recast.Alike.pure _
    · exact ((hd _ _).adapt _).attempt_bind fun _ => Recast.Alike.pure _
  exact hdeliver.attempt_bind fun _ => Recast.Alike.pure _

theorem process {dest : Destination (StateM V)} {dest' : Destination (StateM W)}
    (h : setup.Alike R other)
    (hd : ∀ unit text, Recast.Alike R (dest.write unit text).run (dest'.write unit text).run)
    (bindings : Bindings) (u : SourceUnit) :
    Recast.Alike R (setup.process dest bindings u) (other.process dest' bindings u) := by
  apply (h.prepare bindings u).bind
  intro ⟨result, bound⟩
  cases result with
  | error e => exact Recast.Alike.pure _
  | ok pending => exact (h.emit hd pending).bind fun _ => Recast.Alike.pure _

end Setup.Alike

/-! ## Whole runs -/

namespace Batch

/-- Two workers that do alike all that a run asks of them. -/
structure Worker.Alike (R : V → W → Prop) (worker : Worker (StateM V)) (other : Worker (StateM W)) :
    Prop where
  prepare : ∀ bindings u, Recast.Alike R (worker.prepare bindings u) (other.prepare bindings u)
  emit : ∀ pending, Recast.Alike R (worker.emit pending) (other.emit pending)
  discard : ∀ pending, Recast.Alike R (worker.discard pending) (other.discard pending)

namespace Worker.Alike

variable {worker : Worker (StateM V)} {other : Worker (StateM W)} (h : worker.Alike R other)
  (options : Options) (signal : Signal)
include h

theorem drop (prepared : Option Prepared) :
    Recast.Alike R (worker.drop prepared) (other.drop prepared) := by
  unfold Worker.drop
  split
  · exact (h.discard _).bind fun _ => Recast.Alike.pure _
  · exact Recast.Alike.pure _

theorem dropAll (prepared : List (SourceUnit × Option Prepared)) :
    Recast.Alike R (worker.dropAll prepared) (other.dropAll prepared) := by
  induction prepared with
  | nil => exact Recast.Alike.pure _
  | cons entry rest ih => exact (h.drop entry.2).bind fun _ => ih

theorem prepareUnit (bindings : Bindings) (progress : Progress) (u : SourceUnit) :
    Recast.Alike R (worker.prepareUnit signal bindings progress u)
      (other.prepareUnit signal bindings progress u) := by
  unfold Worker.prepareUnit
  split
  · exact Recast.Alike.pure _
  · exact (h.prepare bindings u).bind fun _ => Recast.Alike.pure _

theorem conclude (prepared : Prepared) :
    Recast.Alike R (worker.conclude prepared) (other.conclude prepared) := by
  cases prepared with
  | error e => exact Recast.Alike.pure _
  | ok pending => exact h.emit pending

theorem emitUnit (progress : Progress) (summary : Summary) (u : SourceUnit)
    (prepared : Option Prepared) :
    Recast.Alike R (worker.emitUnit options signal progress summary u prepared)
      (other.emitUnit options signal progress summary u prepared) := by
  unfold Worker.emitUnit
  split
  · exact (h.drop prepared).bind fun _ => Recast.Alike.pure _
  · split
    · exact Recast.Alike.pure _
    · exact (h.conclude _).bind fun _ => Recast.Alike.pure _

theorem runInTurn (bindings : Bindings) (progress : Progress) (summary : Summary)
    (units : List SourceUnit) :
    Recast.Alike R (worker.runInTurn options signal bindings progress summary units)
      (other.runInTurn options signal bindings progress summary units) := by
  induction units generalizing bindings progress summary with
  | nil => exact Recast.Alike.pure _
  | cons u rest ih =>
    apply (h.prepareUnit signal bindings progress u).bind
    intro ⟨prepared, bindings, progress⟩
    apply (h.emitUnit options signal progress summary u prepared).bind
    intro next
    cases next with
    | proceed summary => exact ih bindings progress.checked summary
    | stop summary => exact Recast.Alike.pure _
    | fatal e => exact Recast.Alike.pure _

theorem prepareAt (bindings : Bindings) (progress : Progress) (place : Nat)
    (entries : List (SourceUnit × Option Prepared)) :
    Recast.Alike R (worker.prepareAt signal bindings progress place entries)
      (other.prepareAt signal bindings progress place entries) := by
  fun_induction Worker.prepareAt worker signal bindings progress place entries with
  | case1 u rest => exact (h.prepareUnit signal bindings progress u).bind fun _ => .pure _
  | case2 place entry rest ih => exact ih.bind fun _ => .pure _
  | case3 place entries hfirst hlater =>
    rw [Worker.prepareAt.eq_3 other signal bindings progress place entries hfirst hlater]
    exact .pure _

theorem prepareAll (bindings : Bindings) (progress : Progress)
    (entries : List (SourceUnit × Option Prepared)) (order : List Nat) :
    Recast.Alike R (worker.prepareAll signal bindings progress entries order)
      (other.prepareAll signal bindings progress entries order) := by
  induction order generalizing bindings progress entries with
  | nil => exact Recast.Alike.pure _
  | cons place order ih =>
    apply (h.prepareAt signal bindings progress place entries).bind
    intro ⟨entries, bindings, progress⟩
    exact ih bindings progress entries

theorem emitAll (progress : Progress) (summary : Summary)
    (prepared : List (SourceUnit × Option Prepared)) :
    Recast.Alike R (worker.emitAll options signal progress summary prepared)
      (other.emitAll options signal progress summary prepared) := by
  induction prepared generalizing progress summary with
  | nil => exact Recast.Alike.pure _
  | cons entry rest ih =>
    apply (h.emitUnit options signal progress summary entry.1 entry.2).bind
    intro next
    cases next with
    | proceed summary => exact ih progress.checked summary
    | stop summary => exact (h.dropAll rest).bind fun _ => Recast.Alike.pure _
    | fatal e => exact Recast.Alike.pure _

/-- If the work on single units is alike, so are whole runs. -/
theorem runIn (order : List Nat) (bindings : Bindings) (units : List SourceUnit) :
    Recast.Alike R (worker.runIn options signal order bindings units)
      (other.runIn options signal order bindings units) := by
  unfold Worker.runIn
  split
  · apply (h.prepareAll signal bindings ⟨0, []⟩ (waiting units) order).bind
    intro ⟨prepared, bindings, progress⟩
    exact (h.emitAll options signal progress .empty prepared).bind fun _ => Recast.Alike.pure _
  · exact h.runInTurn options signal bindings ⟨0, []⟩ .empty units

theorem run (bindings : Bindings) (units : List SourceUnit) :
    Recast.Alike R (worker.run options signal bindings units)
      (other.run options signal bindings units) :=
  h.runIn options signal (List.range units.length) bindings units

end Worker.Alike

end Batch

theorem Setup.Alike.worker {setup : Setup (StateM V)} {other : Setup (StateM W)}
    {dest : Destination (StateM V)} {dest' : Destination (StateM W)} (h : setup.Alike R other)
    (hd : ∀ unit text, Recast.Alike R (dest.write unit text).run (dest'.write unit text).run) :
    (setup.worker dest).Alike R (other.worker dest') where
  prepare := h.prepare
  emit := h.emit hd
  discard pending := Diagnostics.abandon_alike h.sink pending.diagnostics

end Recast
