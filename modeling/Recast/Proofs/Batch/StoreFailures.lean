-- Stores of markers that fail. If failures are only logged, nobody hears of
-- them: the run is the same with every store that leaves alone what the
-- destination and the stream of lines go by. A store that does not can get
-- into their way. If failures count, a unit fails at its markers exactly when
-- an operation of the store failed, behind its lines and before its text is
-- written.
import Recast.Disk.Tree
import Recast.Proofs.Batch.Log
import Recast.Proofs.Stages

namespace Recast

variable {D V W α β : Type}

/-! ## Failures that nobody hears of -/

namespace Sink

variable {R : V → W → Prop} {sink : Sink (StateM V)} {other : Sink (StateM W)}

/-- With markers off, sinks are alike if their lines are. -/
theorem alike_of_off (hm : sink.emitMarkers = false) (hm' : other.emitMarkers = false)
    (hl : ∀ ps, Recast.Alike R (sink.writeLines ps) (other.writeLines ps)) :
    sink.Alike R other := by
  refine ⟨hl, ?_, ?_⟩
  · intro unit
    unfold Sink.clear
    rw [hm, hm']
    exact Recast.Alike.pure _
  · intro unit p
    unfold Sink.keep
    rw [hm, hm']
    exact Recast.Alike.pure _

/-- If failures are only logged, the result of an operation is lost. -/
theorem settle_of_log (hlog : sink.markerFailure = .log) (hlog' : other.markerFailure = .log)
    {x : Attempt (StateM V) MarkerError Unit} {y : Attempt (StateM W) MarkerError Unit}
    (h : ∀ v w, R v w → R (x.run.run v).2 (y.run.run w).2) :
    Recast.Alike R (sink.settle x).run (other.settle y).run := by
  intro v w hR
  rcases hx : x.run.run v with ⟨result, v'⟩
  rcases hy : y.run.run w with ⟨result', w'⟩
  have hends := h v w hR
  rw [hx, hy] at hends
  rw [run_settle hx, run_settle hy, hlog, hlog']
  exact ⟨rfl, hends⟩

/-- If failures are only logged, sinks are alike whatever their stores
answer. -/
theorem alike_of_log (hm : sink.emitMarkers = other.emitMarkers)
    (hlog : sink.markerFailure = .log) (hlog' : other.markerFailure = .log)
    (hl : ∀ ps, Recast.Alike R (sink.writeLines ps) (other.writeLines ps))
    (hc : ∀ unit v w, R v w →
      R ((sink.store.clear unit).run.run v).2 ((other.store.clear unit).run.run w).2)
    (ha : ∀ unit marker v w, R v w →
      R ((sink.store.add unit marker).run.run v).2 ((other.store.add unit marker).run.run w).2) :
    sink.Alike R other := by
  refine ⟨hl, ?_, ?_⟩
  · intro unit
    unfold Sink.clear
    rw [hm]
    split
    · exact settle_of_log hlog hlog' (hc unit)
    · exact Recast.Alike.pure _
  · intro unit p
    unfold Sink.keep
    rw [hm]
    split
    · exact settle_of_log hlog hlog' (ha unit _)
    · exact Recast.Alike.pure _

end Sink

section

variable (setup other : Setup (StateM W)) {dest : Destination (StateM W)}
  (hconfig : setup.config = other.config) (hrenderer : setup.renderer = other.renderer)
  (hstream : setup.sink.stream = other.sink.stream)
include hconfig hrenderer hstream

/-- With markers off, the work on units is the same with all stores. -/
theorem Setup.worker_of_off (hoff : setup.sink.emitMarkers = false)
    (hoff' : other.sink.emitMarkers = false) :
    (setup.worker dest).Alike Eq (other.worker dest) := by
  refine Setup.Alike.worker ⟨hconfig, hrenderer, Sink.alike_of_off hoff hoff' ?_⟩ ?_
  · unfold Sink.writeLines
    rw [hstream]
    rintro ps w _ rfl
    exact ⟨rfl, rfl⟩
  · rintro unit text w _ rfl
    exact ⟨rfl, rfl⟩

/-- If failures are only logged, the work on units is alike with all stores
that stay out of the way. -/
theorem Setup.worker_of_log {seen : W → D} (hm : setup.sink.emitMarkers = other.sink.emitMarkers)
    (hlog : setup.sink.markerFailure = .log) (hlog' : other.sink.markerFailure = .log)
    (hdest : dest.GoesBy seen) (hgoes : setup.sink.stream.GoesBy seen)
    (hstore : setup.sink.store.Leaves seen) (hother : other.sink.store.Leaves seen) :
    (setup.worker dest).Alike (SameIn seen) (other.worker dest) := by
  refine Setup.Alike.worker
    ⟨hconfig, hrenderer, Sink.alike_of_log hm hlog hlog' ?_ ?_ ?_⟩ hdest
  · unfold Sink.writeLines
    rw [← hstream]
    exact hgoes.alike.putLines
  · intro unit v w hsame
    exact ((hstore.clear unit v).trans hsame).trans (hother.clear unit w).symm
  · intro unit marker v w hsame
    exact ((hstore.add unit marker v).trans hsame).trans (hother.add unit marker w).symm

end

/-! ## Stores that are watched -/

/-- A stream beside a list of results. -/
def TextStream.beside (stream : TextStream (StateM W)) :
    TextStream (StateM (W × List (Except MarkerError Unit))) where
  write s := ExceptT.mk (noting (fun _ => []) (stream.write s).run)
  flush := ExceptT.mk (noting (fun _ => []) stream.flush.run)

/-- A destination beside a list of results. -/
def Destination.beside (dest : Destination (StateM W)) :
    Destination (StateM (W × List (Except MarkerError Unit))) where
  write unit text := ExceptT.mk (noting (fun _ => []) (dest.write unit text).run)

/-- The store that notes the results of its operations. -/
def MarkerStore.watched (store : MarkerStore (StateM W)) :
    MarkerStore (StateM (W × List (Except MarkerError Unit))) where
  clear unit := ExceptT.mk (noting (fun result => [result]) (store.clear unit).run)
  add unit marker := ExceptT.mk (noting (fun result => [result]) (store.add unit marker).run)

/-- The setup whose store is watched. -/
def Setup.watched (setup : Setup (StateM W)) :
    Setup (StateM (W × List (Except MarkerError Unit))) :=
  ⟨setup.config, setup.renderer, setup.sink.stream.beside, setup.sink.store.watched,
    setup.sink.emitMarkers, setup.sink.markerFailure⟩

/-- An emitted unit comes out the same if the store is watched. -/
theorem Setup.emit_watched {setup : Setup (StateM W)} {dest : Destination (StateM W)}
    {pending : Pending} {result : Except RunError Report} {w w' : W}
    (h : (setup.emit dest pending).run.run w = (result, w')) :
    ∃ results, (setup.watched.emit dest.beside pending).run.run (w, []) =
      (result, (w', results)) := by
  have hsink : setup.watched.sink.Alike (fun s v => s.1 = v) setup.sink := by
    refine Sink.alike_of_store rfl rfl ?_ ?_ ?_
    · exact TextStream.Alike.putLines
        ⟨fun _ => noting_alike (fun _ => []) _, noting_alike (fun _ => []) _⟩
    · exact fun _ => noting_alike (fun result => [result]) _
    · exact fun _ _ => noting_alike (fun result => [result]) _
  have hwrite : ∀ unit text, Recast.Alike (fun s v => s.1 = v) (dest.beside.write unit text).run
      (dest.write unit text).run := fun _ _ => noting_alike (fun _ => []) _
  have halike : setup.watched.Alike (fun s v => s.1 = v) setup := ⟨rfl, rfl, hsink⟩
  have hemit := halike.emit hwrite pending (w, []) w rfl
  rcases hwatched : (setup.watched.emit dest.beside pending).run.run (w, []) with
    ⟨result', w₁, results⟩
  rw [h, hwatched] at hemit
  obtain ⟨rfl, rfl⟩ := hemit
  exact ⟨results, rfl⟩

/-! ## Failures that count -/

/-- No operation failed. -/
def Unrefused (results : W → List (Except MarkerError Unit)) (w : W) : Prop :=
  ∀ e, .error e ∉ results w

/-- An attempt fails with the errors of the operations that failed. -/
def Told (results : W → List (Except MarkerError Unit)) (result : Except MarkerError α) (w : W) :
    Prop :=
  ∀ e, result = .error e ↔ .error e ∈ results w

section

variable {results : W → List (Except MarkerError Unit)}

theorem told_ok {a : α} {w : W} :
    Told results (.ok a : Except MarkerError α) w ↔ Unrefused results w := by
  constructor
  · intro h e he
    cases (h e).mpr he
  · intro h e
    exact ⟨nofun, fun he => absurd he (h e)⟩

theorem Told.of_error {e : MarkerError} {w : W}
    (h : Told results (.error e : Except MarkerError α) w) :
    Told results (.error e : Except MarkerError β) w := by
  intro e'
  rw [← h e', Except.error.injEq, Except.error.injEq]

theorem told_pure (a : α) :
    Ensures (Unrefused results) (pure a : Attempt (StateM W) MarkerError α).run (Told results) :=
  Ensures.pure fun _ h => told_ok.mpr h

/-- The first failure ends an attempt. -/
theorem told_bind {x : Attempt (StateM W) MarkerError α}
    {f : α → Attempt (StateM W) MarkerError β}
    (hx : Ensures (Unrefused results) x.run (Told results))
    (hf : ∀ a, Ensures (Unrefused results) (f a).run (Told results)) :
    Ensures (Unrefused results) (x >>= f).run (Told results) := by
  rw [ExceptT.run_bind]
  refine hx.bind ?_
  intro result
  cases result with
  | error e => exact Ensures.pure fun _ h => h.of_error
  | ok a =>
    intro w hw
    exact hf a w (told_ok.mp hw)

/-- The results of all operations of the store, and of nothing else, are
put behind the others. -/
structure Sink.Watched (sink : Sink (StateM W)) (results : W → List (Except MarkerError Unit)) :
    Prop where
  lines : ∀ ps w, results ((sink.writeLines ps).run w).2 = results w
  clear : ∀ unit w, results ((sink.store.clear unit).run.run w).2 =
    results w ++ [((sink.store.clear unit).run.run w).1]
  add : ∀ unit marker w, results ((sink.store.add unit marker).run.run w).2 =
    results w ++ [((sink.store.add unit marker).run.run w).1]

namespace Sink

variable {sink : Sink (StateM W)} (hfail : sink.markerFailure = .fail)
include hfail

/-- If failures count, an operation is told of. -/
theorem settle_told {x : Attempt (StateM W) MarkerError Unit}
    (hx : ∀ w, results (x.run.run w).2 = results w ++ [(x.run.run w).1]) :
    Ensures (Unrefused results) (sink.settle x).run (Told results) := by
  intro w hw e
  rcases hrun : x.run.run w with ⟨result, w'⟩
  have hresults := hx w
  rw [hrun] at hresults
  rw [run_settle hrun, hfail]
  change result = .error e ↔ .error e ∈ results w'
  rw [hresults, List.mem_append, List.mem_singleton, or_iff_right (hw e)]
  exact eq_comm

variable (h : sink.Watched results) (hm : sink.emitMarkers = true)
include h hm

theorem keepAll_told (unit : Path) (ps : List Problem) :
    Ensures (Unrefused results) (sink.keepAll unit ps).run (Told results) := by
  induction ps with
  | nil => exact told_pure ()
  | cons p ps ih =>
    have hkeep : Ensures (Unrefused results) (sink.keep unit p).run (Told results) := by
      unfold Sink.keep
      rw [if_pos hm]
      exact settle_told hfail (h.add unit _)
    exact told_bind hkeep fun _ => ih

/-- Finishing a unit fails with the errors of the operations that failed. -/
theorem finish_told (d : Diagnostics) :
    Ensures (Unrefused results) (d.finish sink).run (Told results) := by
  have hlines : Ensures (Unrefused results)
      (liftM (sink.writeLines d.problems) : Attempt (StateM W) MarkerError Unit).run
      (Told results) := by
    intro w hw
    refine told_ok.mpr ?_
    intro e he
    exact hw e (h.lines d.problems w ▸ he)
  have hclear : Ensures (Unrefused results) (sink.clear d.unit).run (Told results) := by
    unfold Sink.clear
    rw [if_pos hm]
    exact settle_told hfail (h.clear d.unit)
  unfold Diagnostics.finish
  refine told_bind hlines fun _ => told_bind hclear fun _ => ?_
  exact told_bind (keepAll_told hfail h hm d.unit d.keptProblems) fun _ => told_pure d.problems

end Sink

/-- An emitted unit fails at its markers with the errors of the operations
that failed for it. -/
theorem Setup.emit_told {setup : Setup (StateM W)} {dest : Destination (StateM W)}
    (hfail : setup.sink.markerFailure = .fail) (h : setup.sink.Watched results)
    (hm : setup.sink.emitMarkers = true)
    (hdest : ∀ unit text w, results ((dest.write unit text).run.run w).2 = results w)
    (pending : Pending) {result : Except RunError Report} {w w' : W} (hw : Unrefused results w)
    (hrun : (setup.emit dest pending).run.run w = (result, w')) (cause : MarkerError) :
    result = .error (.markers cause) ↔ .error cause ∈ results w' := by
  have htold := Sink.finish_told hfail h hm pending.diagnostics w hw
  -- behind the diagnostics, nothing is asked of the store
  have hwritten : ∀ {problems text output w₁},
      (pending.diagnostics.finish setup.sink).run.run w = (.ok problems, w₁) →
      (dest.write pending.target text).run.run w₁ = (output, w') → Unrefused results w' := by
    intro problems text output w₁ hfinish hwrite
    have hsame := hdest pending.target text w₁
    rw [hfinish] at htold
    rw [hwrite] at hsame
    unfold Unrefused
    rw [hsame]
    exact told_ok.mp htold
  cases result with
  | ok report =>
    obtain ⟨_, w₁, hfinish, ⟨_, rfl, _⟩ | ⟨text, _, hwrite, _⟩⟩ := emit_ok hrun
    · rw [hfinish] at htold
      exact ⟨nofun, fun he => absurd he (told_ok.mp htold cause)⟩
    · exact ⟨nofun, fun he => absurd he (hwritten hfinish hwrite cause)⟩
  | error e =>
    rcases emit_error hrun with ⟨_, rfl, hfinish⟩ | ⟨_, _, _, _, rfl, hfinish, _, hwrite⟩
    · rw [hfinish] at htold
      rw [← htold cause, Except.error.injEq, Except.error.injEq, RunError.markers.injEq]
    · exact ⟨nofun, fun he => absurd he (hwritten hfinish hwrite cause)⟩

end

/-! ## What a unit leaves that fails at its markers -/

theorem Setup.sink_watched (setup : Setup (StateM W)) : setup.watched.sink.Watched Prod.snd where
  lines ps s := by
    have hleaves : setup.sink.stream.beside.Leaves Prod.snd :=
      ⟨fun _ s => List.append_nil s.2, fun s => List.append_nil s.2⟩
    exact hleaves.putLines ps s
  clear _ _ := rfl
  add _ _ _ := rfl

/-- A unit that fails at its markers has its lines written, and behind them
only the store has acted. -/
theorem Setup.emit_markers_error {setup : Setup (StateM W)} {dest : Destination (StateM W)}
    {pending : Pending} {cause : MarkerError} {w w' : W}
    (h : (setup.emit dest pending).run.run w = (.error (.markers cause), w')) :
    setup.sink.store.Leads
      ((setup.sink.stream.putLines pending.diagnostics.problems).run w).2 w' := by
  obtain ⟨_, _, hfinish⟩ | ⟨_, _, _, _, houtput, _⟩ := Setup.emit_error h
  · have hleads := setup.sink.finish_leads pending.diagnostics w
    rw [hfinish] at hleads
    exact hleads
  · cases houtput

/-- With markers off, a run is the same with every store. If failures of the
store are only logged, and the store leaves alone what the destination and
the stream of lines go by, a run comes out the same, and leaves all of that
the same, as with a store that keeps nothing. If failures count, an emitted
unit fails at its markers exactly with the errors of the operations that
failed for it; then its lines are written, and behind them only the store has
acted. -/
theorem a_store_is_heard_only_if_its_failures_count (config : RunConfig) (renderer : Renderer)
    (stream : TextStream (StateM W)) (store : MarkerStore (StateM W))
    (dest : Destination (StateM W)) (w : W) :
    let setup store : Setup (StateM W) := ⟨config, renderer, config.sink stream store⟩
    let run store order options signal bindings units :=
      (Batch.runIn (setup store) dest order options signal bindings units).run w
    (config.emitMarkers = false → ∀ order options signal bindings units,
      run store order options signal bindings units =
        run .nowhere order options signal bindings units) ∧
    (config.markerFailure = .log → ∀ (D : Type) (seen : W → D), dest.GoesBy seen →
      stream.GoesBy seen → store.Leaves seen → ∀ order options signal bindings units,
        ∃ result w₁ w₂, run store order options signal bindings units = (result, w₁) ∧
          run .nowhere order options signal bindings units = (result, w₂) ∧ seen w₁ = seen w₂) ∧
    (config.markerFailure = .fail → config.emitMarkers = true →
      ∀ pending, ∃ result w' results,
        ((setup store).emit dest pending).run.run w = (result, w') ∧
        ((setup store).watched.emit dest.beside pending).run.run (w, []) =
          (result, (w', results)) ∧
        (∀ cause, result = .error (.markers cause) ↔ .error cause ∈ results) ∧
        ∀ cause, result = .error (.markers cause) →
          store.Leads ((stream.putLines pending.diagnostics.problems).run w).2 w' ∧
          ∀ text, stream.Keeps text → store.Leaves text →
            text w' = text w ++ linesText pending.diagnostics.problems) := by
  intro setup run
  refine ⟨?_, ?_, ?_⟩
  · intro hoff order options signal bindings units
    have halike : ((setup store).worker dest).Alike Eq ((setup .nowhere).worker dest) :=
      Setup.worker_of_off (setup store) (setup .nowhere) rfl rfl rfl hoff hoff
    obtain ⟨hresult, hstate⟩ := halike.runIn options signal order bindings units w w rfl
    exact Prod.ext hresult hstate
  · intro hlog D seen hdest hstream hstore order options signal bindings units
    have halike : ((setup store).worker dest).Alike (SameIn seen) ((setup .nowhere).worker dest) :=
      Setup.worker_of_log (setup store) (setup .nowhere) rfl rfl rfl rfl hlog hlog hdest hstream
        hstore (MarkerStore.nowhere_leaves seen)
    have hruns := halike.runIn options signal order bindings units w w rfl
    rcases h₁ : run store order options signal bindings units with ⟨result, w₁⟩
    rcases h₂ : run .nowhere order options signal bindings units with ⟨result', w₂⟩
    simp only [run, Batch.runIn] at h₁ h₂
    rw [h₁, h₂] at hruns
    obtain ⟨rfl, hseen⟩ := hruns
    exact ⟨result, w₁, w₂, rfl, rfl, hseen⟩
  · intro hfail hmarkers pending
    rcases hrun : ((setup store).emit dest pending).run.run w with ⟨result, w'⟩
    obtain ⟨results, hwatched⟩ := Setup.emit_watched hrun
    refine ⟨result, w', results, rfl, hwatched, ?_, ?_⟩
    · have hbeside : dest.beside.Leaves Prod.snd := fun _ _ s => List.append_nil s.2
      exact Setup.emit_told hfail (setup store).sink_watched hmarkers hbeside pending
        (fun _ => List.not_mem_nil) hwatched
    · rintro cause rfl
      have hleads := Setup.emit_markers_error hrun
      refine ⟨hleads, ?_⟩
      intro text hkeeps hleaves
      exact (hleads.unchanged hleaves).trans (hkeeps.putLines _ _)

/-! ## A store with little room -/

/-- A store that takes as many markers as the state says. -/
def MarkerStore.scarce : MarkerStore (StateM (Nat × String)) where
  clear _ := pure ()
  add unit _ := ExceptT.mk fun
    | (0, written) => (.error (.io unit (.refused "no room")), (0, written))
    | (room + 1, written) => (.ok (), (room, written))

/-- A destination that puts all texts behind one another. -/
def Destination.besideRoom : Destination (StateM (Nat × String)) where
  write _ text := ExceptT.mk fun s => (.ok (), (s.1, s.2 ++ text))

/-- The lines and the texts that were written. -/
def World.texts (w : World String (Nat × String)) : String × String := (w.page, w.rest.2)

theorem Destination.besideRoom_goesBy : Destination.besideRoom.onRest.GoesBy World.texts := by
  intro unit text w w' h
  obtain ⟨hpage, hwritten⟩ := Prod.mk.inj h
  exact ⟨rfl, Prod.ext hpage (congrArg (· ++ text) hwritten)⟩

theorem TextStream.buffer_goesBy : TextStream.buffer.onPage.GoesBy World.texts where
  write s w w' h := by
    obtain ⟨hpage, hwritten⟩ := Prod.mk.inj h
    exact ⟨rfl, Prod.ext (congrArg (· ++ s) hpage) hwritten⟩
  flush _ _ h := ⟨rfl, h⟩

theorem MarkerStore.scarce_leaves : MarkerStore.scarce.onRest.Leaves World.texts where
  clear _ _ := rfl
  add _ _ w := by
    obtain ⟨page, room, written⟩ := w
    cases room <;> rfl

/-- A run over a class with a warning. -/
def scarceRun (store : MarkerStore (StateM (World String (Nat × String)))) (room : Nat) :
    (Except RunError Batch.Summary × Bindings) × World String (Nat × String) :=
  (Batch.runIn ⟨⟨"", false, true, .log⟩, .csharp,
    RunConfig.sink ⟨"", false, true, .log⟩ TextStream.buffer.onPage store⟩
    Destination.besideRoom.onRest [0] ⟨true, true⟩ .never .empty
    [.ofClass "A" "A" [.lossyField]]).run ⟨"", room, ""⟩

/-- A unit with two warnings, which waits to be emitted. -/
def twoWarnings : Pending :=
  ⟨.empty "A", some "text", [], ((Diagnostics.start "A").addWarning ⟨0, 1, 1⟩ "first").addWarning
    ⟨2, 1, 2⟩ "second"⟩

theorem a_scarce_store_is_heard_at_the_second_marker :
    (∃ result w₁ w₂, scarceRun MarkerStore.scarce.onRest 0 = (result, w₁) ∧
      scarceRun .nowhere 0 = (result, w₂) ∧ w₁.texts = w₂.texts) ∧
    ∃ result w', ∃ results : List (Except MarkerError Unit),
      ((World.setup ⟨"", false, true, .fail⟩ .csharp .buffer .scarce).emit
        Destination.besideRoom.onRest twoWarnings).run.run ⟨"", 1, ""⟩ = (result, w') ∧
      result = .error (.markers (.io "A" (.refused "no room"))) ∧
      results.map (·.isOk) = [true, true, false] ∧
      .error (.io "A" (.refused "no room")) ∈ results ∧
      w'.page = "A(1): first\nA(2): second\n" := by
  obtain ⟨_, hlog, _⟩ := a_store_is_heard_only_if_its_failures_count ⟨"", false, true, .log⟩ .csharp
    TextStream.buffer.onPage MarkerStore.scarce.onRest Destination.besideRoom.onRest
    (⟨"", 0, ""⟩ : World String (Nat × String))
  have hsame := hlog rfl _ World.texts Destination.besideRoom_goesBy TextStream.buffer_goesBy
    MarkerStore.scarce_leaves [0] ⟨true, true⟩ .never .empty [.ofClass "A" "A" [.lossyField]]
  obtain ⟨_, _, hfail⟩ := a_store_is_heard_only_if_its_failures_count ⟨"", false, true, .fail⟩
    .csharp TextStream.buffer.onPage MarkerStore.scarce.onRest Destination.besideRoom.onRest
    (⟨"", 1, ""⟩ : World String (Nat × String))
  obtain ⟨result, w', results, hrun, hwatched, hheard, hleft⟩ := hfail rfl rfl twoWarnings
  have hresult : result = .error (.markers (.io "A" (.refused "no room"))) :=
    (congrArg Prod.fst hrun).symm
  have hresults : results.map (·.isOk) = [true, true, false] := by
    refine (congrArg (·.2.2.map (·.isOk)) hwatched).symm.trans ?_
    decide +kernel
  obtain ⟨_, hpage⟩ := hleft _ hresult
  have hleaves : MarkerStore.scarce.onRest.Leaves (World.page (σ := String)) :=
    ⟨fun _ _ => rfl, fun _ _ _ => rfl⟩
  exact ⟨hsame, result, w', results, hrun, hresult, hresults, (hheard _).mp hresult,
    hpage World.page TextStream.buffer_keeps.onPage hleaves⟩

/-! ## A marker file in the way of a text -/

/-- A disk, the markers that a file on it is to hold, and the files that
were written to it. -/
structure Desk where
  tree : FileTree
  markers : MarkerMap
  written : Written

instance : MonadStateOf FileTree (StateM Desk) where
  get := fun d => (d.tree, d)
  set tree := fun d => ((), { d with tree := tree })
  modifyGet f := fun d => ((f d.tree).1, { d with tree := (f d.tree).2 })

instance : MonadStateOf MarkerMap (StateM Desk) where
  get := fun d => (d.markers, d)
  set markers := fun d => ((), { d with markers := markers })
  modifyGet f := fun d => ((f d.markers).1, { d with markers := (f d.markers).2 })

instance : MonadStateOf Written (StateM Desk) where
  get := fun d => (d.written, d)
  set written := fun d => ((), { d with written := written })
  modifyGet f := fun d => ((f d.written).1, { d with written := (f d.written).2 })

/-- A run over a class with a warning, which goes to a file of its own. -/
def deskRun (store : MarkerStore (StateM Desk)) :
    (Except RunError Batch.Summary × Bindings) × World String Desk :=
  (Batch.run (World.setup ⟨"", false, true, .log⟩ .csharp .buffer store)
    (Destination.directory FileTree.disk ⟨"/out", "cs"⟩).onRest ⟨false, true⟩ .never .empty
    [.ofClass "A" "A" [.lossyField]]).run ⟨"", ⟨[], []⟩, .empty, ⟨[]⟩⟩

/-- A store makes the directory of its file where the text of the unit is to
go. No operation of it fails, failures would only be logged, and still the
unit fails, which it does not with a store that keeps nothing. -/
theorem a_marker_file_gets_in_the_way_of_a_text :
    (deskRun (MarkerFile.store FileTree.disk "/out/A.cs/markers.json")).1.1.toOption.map
        (fun s => (s.rendered, s.failures)) =
      some (0, [(⟨"A"⟩, "failed to write output for 'A': Is a directory (os error 21)")]) ∧
    (deskRun .nowhere).1.1.toOption.map (fun s => (s.rendered, s.failures)) = some (1, []) ∧
    (deskRun (MarkerFile.store FileTree.disk "/out/A.cs/markers.json")).1 ≠
      (deskRun .nowhere).1 := by
  have hfile : (deskRun (MarkerFile.store FileTree.disk "/out/A.cs/markers.json")).1.1.toOption.map
        (fun s => (s.rendered, s.failures)) =
      some (0, [(⟨"A"⟩, "failed to write output for 'A': Is a directory (os error 21)")]) := by
    decide +kernel
  have hnowhere : (deskRun .nowhere).1.1.toOption.map (fun s => (s.rendered, s.failures)) =
      some (1, []) := by
    decide +kernel
  refine ⟨hfile, hnowhere, ?_⟩
  intro hsame
  rw [hsame, hnowhere] at hfile
  cases hfile

end Recast
