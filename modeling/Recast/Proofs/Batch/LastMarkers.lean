-- The markers that a run leaves. A unit that is emitted puts the markers of
-- its warnings in the place of those stored under its path, however the
-- path is spelled, and leaves the markers of all other paths. So at the end
-- of a run every path has the markers of the last unit that was emitted
-- under it, or those it had before.
import Recast.Proofs.Markers
import Recast.Proofs.Batch.Log

namespace Recast

variable {V W α β : Type}

namespace Batch

/-- The markers of the last of these units that has this path, or the old
ones if none has it. -/
def lastMarkers (calls : List Call) (old : List Marker) (p : Path) : List Marker :=
  ((calls.filter fun call => p.same call.unit.path).getLast?.map fun call =>
    call.unit.freshMarkers call.bindings).getD old

theorem lastMarkers_cons (call : Call) (calls : List Call) (old : List Marker) (p : Path) :
    lastMarkers (call :: calls) old p = lastMarkers calls
      (if p.same call.unit.path then call.unit.freshMarkers call.bindings else old) p := by
  unfold lastMarkers
  rw [List.filter_cons]
  split
  · rw [List.getLast?_cons]
    cases (calls.filter fun call => p.same call.unit.path).getLast? <;> rfl
  · rfl

/-! ## The units that a run emits -/

/-- Entries of prepared units are emitted one after the other. -/
inductive Emissions (worker : Worker (StateM V)) :
    List (SourceUnit × Option Prepared) → List Pending → V → V → Prop
  | nil {v} : Emissions worker [] [] v v
  | cons {u entries pending pendings v v'} :
      Emissions worker entries pendings ((worker.emit pending).run v).2 v' →
      Emissions worker ((u, some (.ok pending)) :: entries) (pending :: pendings) v v'

namespace Emissions

variable {worker : Worker (StateM V)} {entries entries' : List (SourceUnit × Option Prepared)}
  {pendings pendings' : List Pending} {v v₁ v' : V}

theorem append (h : Emissions worker entries pendings v v₁)
    (h' : Emissions worker entries' pendings' v₁ v') :
    Emissions worker (entries ++ entries') (pendings ++ pendings') v v' := by
  induction h with
  | nil => exact h'
  | cons _ ih => exact .cons (ih h')

theorem prepared (h : Emissions worker entries pendings v v') :
    entries.map (·.2) = (pendings.map .ok).map some := by
  induction h with
  | nil => rfl
  | cons _ ih => exact congrArg (_ :: ·) ih

/-- What every emission keeps, all of them keep. -/
theorem keeps {P : V → Prop} (hstep : ∀ pending v, P v → P ((worker.emit pending).run v).2)
    (h : Emissions worker entries pendings v v') (hv : P v) : P v' := by
  induction h with
  | nil => exact hv
  | @cons _ _ pending _ v _ _ ih => exact ih (hstep pending v hv)

/-- If every emission sets the markers of its unit, the last one is seen. -/
theorem markers {f : Preparing} (get : V → Path → List Marker) (valid : V → Prop)
    (hstep : ∀ (call : Call) pending v, call.prepared f = .ok pending → valid v →
      valid ((worker.emit pending).run v).2 ∧ ∀ p, get ((worker.emit pending).run v).2 p =
        if p.same call.unit.path then call.unit.freshMarkers call.bindings else get v p)
    {calls : List Call} (h : Emissions worker (calls.map (·.entry f)) pendings v v') (hv : valid v)
    (p : Path) : get v' p = lastMarkers calls (get v p) p := by
  induction calls generalizing pendings v with
  | nil =>
    cases h
    rfl
  | cons call calls ih =>
    rw [List.map_cons] at h
    cases hcall : call.prepared f with
    | error e =>
      unfold Call.entry at h
      rw [hcall] at h
      cases h
    | ok pending =>
      unfold Call.entry at h
      rw [hcall] at h
      cases h with
      | cons hrest =>
        obtain ⟨hvalid, hget⟩ := hstep call pending v hcall hv
        rw [ih hrest hvalid, lastMarkers_cons, hget]

/-- A unit is emitted if it came through, and then it is listed. -/
theorem of_conclude {u : SourceUnit} {q : Prepared} {list list' : List Pending}
    {result : Except RunError Report}
    (h : (worker.listed.conclude q).run (v, list) = (result, (v', list'))) :
    ∃ emitted pendings, emitted.Sublist [(u, some q)] ∧ list' = list ++ pendings ∧
      Emissions worker emitted pendings v v' := by
  cases q with
  | error e =>
    cases h
    exact ⟨[], [], List.nil_sublist _, (List.append_nil list).symm, .nil⟩
  | ok pending =>
    cases h
    exact ⟨[(u, some (.ok pending))], [pending], List.Sublist.refl _, rfl, .cons .nil⟩

end Emissions

/-- A course emits some of its entries, in their order. -/
theorem Ends.emissions {worker : Worker (StateM V)} {options : Options}
    {entries : List (SourceUnit × Option Prepared)} {s : Summary} {out : Except RunError Summary}
    {start finish : V × List Pending} (h : Ends worker.listed options entries s start out finish) :
    ∃ emitted pendings, emitted.Sublist entries ∧ finish.2 = start.2 ++ pendings ∧
      Emissions worker emitted pendings start.1 finish.1 := by
  have hnone : ∀ (s : V × List Pending) (all : List (SourceUnit × Option Prepared)),
      ∃ emitted pendings, emitted.Sublist all ∧ s.2 = s.2 ++ pendings ∧
        Emissions worker emitted pendings s.1 s.1 :=
    fun s all => ⟨[], [], List.nil_sublist _, (List.append_nil s.2).symm, .nil⟩
  induction h with
  | done => exact hnone _ _
  | cancelled => exact hnone _ _
  | @stopped u _ _ _ _ _ _ _ hconclude _ =>
    obtain ⟨emitted, pendings, hsub, hlist, hemitted⟩ := Emissions.of_conclude (u := u) hconclude
    exact ⟨emitted, pendings, hsub.trans (List.sublist_append_left [_] _), hlist, hemitted⟩
  | @fatal u _ _ _ _ _ _ _ hconclude _ =>
    obtain ⟨emitted, pendings, hsub, hlist, hemitted⟩ := Emissions.of_conclude (u := u) hconclude
    exact ⟨emitted, pendings, hsub.trans (List.sublist_append_left [_] _), hlist, hemitted⟩
  | @proceed u _ _ _ _ _ _ _ _ _ hconclude _ _ ih =>
    obtain ⟨emitted, pendings, hsub, hlist, hemitted⟩ := Emissions.of_conclude (u := u) hconclude
    obtain ⟨others, more, hsub', hlist', hemitted'⟩ := ih
    refine ⟨emitted ++ others, pendings ++ more, hsub.append hsub', ?_, hemitted.append hemitted'⟩
    rw [hlist', hlist, List.append_assoc]

/-- The calls that have prepared some units of a run, in the order of these
units. -/
structure SomeCalls (f : Preparing) (options : Options) (order : List Nat) (bindings : Bindings)
    (units : List SourceUnit) (calls : List Call) : Prop where
  places : (calls.map (·.unit)).Sublist units
  made : ∃ taken, taken.Sublist (takenUp options order units) ∧
    ∀ call ∈ calls, call ∈ callsFor f bindings taken
  inOrder : InOrder options order units → calls.Sublist (callsFor f bindings units)

/-- Prepared units of a run were prepared by calls. -/
theorem PreparedIn.someCalls {f : Preparing} {options : Options} {order : List Nat}
    {bindings : Bindings} {units : List SourceUnit}
    {entries emitted : List (SourceUnit × Option Prepared)}
    (h : PreparedIn f options order bindings units entries) (hsub : emitted.Sublist entries)
    (hsome : ∀ entry ∈ emitted, entry.2.isSome) :
    ∃ calls, SomeCalls f options order bindings units calls ∧
      emitted = calls.map (·.entry f) := by
  have hplaces : ∀ calls : List Call, emitted = calls.map (·.entry f) →
      (calls.map (·.unit)).Sublist units := by
    rintro calls rfl
    have hmap := hsub.map (·.1)
    rw [h.ofUnits, List.map_map] at hmap
    exact hmap
  obtain ⟨taken, htaken, hmade⟩ := h.calls
  by_cases hin : InOrder options order units
  · have hall := hsub
    rw [h.inOrder hin] at hall
    obtain ⟨calls, hcalls, rfl⟩ := List.sublist_map_iff.mp hall
    refine ⟨calls, ⟨hplaces calls rfl, ⟨units, ?_, hcalls.subset⟩, fun _ => hcalls⟩, rfl⟩
    simp only [takenUp_inOrder hin, List.Sublist.refl]
  · obtain ⟨calls, hcalls, hof⟩ := exists_calls fun entry he =>
      hmade entry (hsub.subset he) (hsome entry he)
    exact ⟨calls, ⟨hplaces calls hcalls, ⟨taken, htaken, hof⟩, fun h => absurd h hin⟩, hcalls⟩

end Batch

/-! ## One unit sets its markers -/

open Batch

variable {σ τ : Type} {get : τ → Path → List Marker} {valid : τ → Prop}

/-- From a state on, `get` tells the markers that the store holds, and the
store refuses nothing, whatever is written to the destination. -/
structure SteadyView (store : MarkerStore (StateM τ)) (dest : Destination (StateM τ))
    (get : τ → Path → List Marker) (valid : τ → Prop) (t : τ) : Prop
    extends MarkerView store dest get valid t where
  takesAll : store.TakesAll valid
  valid_write : ∀ unit text t, valid t → valid ((dest.write unit text).run.run t).2

/-- These are the markers that are held. -/
def Holding (get : τ → Path → List Marker) (valid : τ → Prop) (held : Path → List Marker) (t : τ) :
    Prop :=
  valid t ∧ get t = held

namespace Sink

variable {sink : Sink (StateM τ)}

/-- An operation on a unit, which always succeeds, changes the markers that
are held of it. -/
theorem settle_sets (unit : Path) (change : List Marker → List Marker)
    {x : Attempt (StateM τ) MarkerError Unit} (hok : ∀ t, valid t → (x.run.run t).1.isOk)
    (hvalid : ∀ t, valid t → valid (x.run.run t).2)
    (hget : ∀ t p, valid t → get (x.run.run t).2 p =
      if (x.run.run t).1.isOk && p.same unit then change (get t p) else get t p)
    (held : Path → List Marker) :
    Ensures (Holding get valid held) (sink.settle x).run fun result t => result.isOk ∧
      Holding get valid (fun p => if p.same unit then change (held p) else held p) t := by
  rintro t ⟨ht, rfl⟩
  rcases hrun : x.run.run t with ⟨result, t₁⟩
  have hdone := hok t ht
  have hkept := hvalid t ht
  have hchanged := fun p => hget t p ht
  rw [hrun] at hdone hkept
  simp only [hrun] at hchanged
  rw [run_settle hrun]
  cases result with
  | error e => cases hdone
  | ok _ => exact ⟨by rw [MarkerFailure.settled_ok]; rfl, hkept, funext hchanged⟩

variable (hholds : sink.store.Holds get valid) (hall : sink.store.TakesAll valid)
  (hm : sink.emitMarkers = true)
include hholds hall hm

theorem clear_sets (unit : Path) (held : Path → List Marker) :
    Ensures (Holding get valid held) (sink.clear unit).run fun result t => result.isOk ∧
      Holding get valid (fun p => if p.same unit then [] else held p) t := by
  unfold Sink.clear
  rw [if_pos hm]
  exact settle_sets unit (fun _ => []) (hall.clear unit) (hholds.valid_clear unit)
    (hholds.clear unit) held

theorem keep_adds (unit : Path) (problem : Problem) (held : Path → List Marker) :
    Ensures (Holding get valid held) (sink.keep unit problem).run fun result t => result.isOk ∧
      Holding get valid
        (fun p => if p.same unit then held p ++ [.ofProblem problem] else held p) t := by
  unfold Sink.keep
  rw [if_pos hm]
  exact settle_sets unit (· ++ [.ofProblem problem]) (hall.add unit _) (hholds.valid_add unit _)
    (hholds.add unit _) held

theorem keepAll_adds (unit : Path) (ps : List Problem) (held : Path → List Marker) :
    Ensures (Holding get valid held) (sink.keepAll unit ps).run fun result t => result.isOk ∧
      Holding get valid
        (fun p => if p.same unit then held p ++ ps.map Marker.ofProblem else held p) t := by
  induction ps generalizing held with
  | nil =>
    refine Ensures.pure fun t ht => ⟨rfl, ?_⟩
    simpa using ht
  | cons p ps ih =>
    refine (keep_adds hholds hall hm unit p held).attempt_bind_ok ?_
    intro _
    refine (ih _).weaken ?_
    rintro result t ⟨hok, hvalid, hget⟩
    refine ⟨hok, hvalid, hget.trans (funext fun q => ?_)⟩
    cases q.same unit with
    | true => simp
    | false => rfl

/-- Finishing a unit gives it the markers that it keeps. -/
theorem finish_sets (hquiet : ∀ ps, sink.writeLines ps = pure ()) (d : Diagnostics)
    (held : Path → List Marker) :
    Ensures (Holding get valid held) (d.finish sink).run fun _ => Holding get valid fun p =>
      if p.same d.unit then d.keptProblems.map Marker.ofProblem else held p := by
  unfold Diagnostics.finish
  rw [hquiet]
  refine (clear_sets hholds hall hm d.unit held).attempt_bind_ok ?_
  intro _
  refine (keepAll_adds hholds hall hm d.unit d.keptProblems _).attempt_bind_ok ?_
  intro _
  refine Ensures.pure ?_
  rintro t ⟨hvalid, hget⟩
  refine ⟨hvalid, hget.trans (funext fun p => ?_)⟩
  cases p.same d.unit with
  | true => rfl
  | false => rfl

omit hholds hall hm in
/-- With markers off, finishing a unit writes its lines and nothing else. -/
theorem finish_off (hoff : sink.emitMarkers = false) (hquiet : ∀ ps, sink.writeLines ps = pure ())
    (d : Diagnostics) : d.finish sink = pure d.problems := by
  have hclear : sink.clear d.unit = pure () := if_neg (by simp [hoff])
  have hkeep : ∀ ps, sink.keepAll d.unit ps = pure () := by
    intro ps
    induction ps with
    | nil => rfl
    | cons p ps ih =>
      have hone : sink.keep d.unit p = pure () := if_neg (by simp [hoff])
      unfold keepAll
      rw [hone, pure_bind, ih]
  unfold Diagnostics.finish
  rw [hquiet, hclear, hkeep]
  rfl

end Sink

namespace Setup

variable {setup : Setup (StateM W)} {dest : Destination (StateM W)}

/-- A unit that is emitted leaves the markers of its warnings under its
path, and changes no others. -/
theorem quiet_emit_sets {get : W → Path → List Marker} {valid : W → Prop}
    (hmarkers : setup.sink.emitMarkers = true) {w₀ : W}
    (hview : SteadyView setup.sink.store dest get valid w₀) {call : Call} {pending : Pending}
    (hcall : call.prepared setup.prepared = .ok pending) (w : W) (hw : valid w) :
    valid ((setup.quiet.emit dest pending).run.run w).2 ∧
      ∀ p, get ((setup.quiet.emit dest pending).run.run w).2 p =
        if p.same call.unit.path then call.unit.freshMarkers call.bindings else get w p := by
  obtain ⟨hunit, hkept⟩ := Setup.kept_of_prepared hcall
  have hholds : setup.quiet.sink.store.Holds get valid := hview.holds
  have hfinish := Sink.finish_sets hholds hview.takesAll hmarkers setup.writeLines_quiet
    pending.diagnostics (get w)
  rw [hunit, hkept] at hfinish
  have hwrite : ∀ unit text held, Ensures (Holding get valid held) (dest.write unit text).run
      fun _ => Holding get valid held := by
    rintro unit text _ w ⟨hw, rfl⟩
    exact ⟨hview.valid_write unit text w hw, funext (hview.leaves unit text w)⟩
  obtain ⟨hvalid, hget⟩ := Setup.emit_keeps hfinish (fun unit text => hwrite unit text _) w
    ⟨hw, rfl⟩
  exact ⟨hvalid, congrFun hget⟩

/-- With markers off, a unit leaves all that its text leaves. -/
theorem quiet_emit_leaves (hmarkers : setup.sink.emitMarkers = false) {view : W → β}
    (hview : dest.Leaves view) (pending : Pending) (w : W) :
    view ((setup.quiet.emit dest pending).run.run w).2 = view w := by
  have hoff : setup.quiet.sink.emitMarkers = false := hmarkers
  have hfinish : Ensures (view · = view w) (pending.diagnostics.finish setup.quiet.sink).run
      fun _ => (view · = view w) := by
    rw [Sink.finish_off hoff setup.writeLines_quiet]
    exact Ensures.pure fun _ h => h
  have hwrite : ∀ unit text, Ensures (view · = view w) (dest.write unit text).run
      fun _ => (view · = view w) := by
    intro unit text w' hw'
    exact (hview unit text w').trans hw'
  exact Setup.emit_keeps hfinish hwrite w rfl

end Setup

/-- At the end of a run with markers, every path has the markers of the
warnings of the last unit that was emitted under it, in their order, and a
path under which none was emitted has those that it had before. A run
without markers leaves the store as it is. Both hold in whatever order units
are prepared, as long as the lines of the run leave alone what the store and
the destination go by. -/
theorem a_path_has_the_markers_of_its_last_unit (setup : Setup (StateM W))
    (dest : Destination (StateM W)) (held : W → τ) (hapart : setup.Separates dest held)
    (order : List Nat) (options : Options) (signal : Signal) (bindings : Bindings)
    (units : List SourceUnit) (w : W) :
    let listed :=
      ((setup.worker dest).listed.runIn options signal order bindings units).run (w, [])
    let w' := listed.2.1
    let emitted := listed.2.2
    (Batch.runIn setup dest order options signal bindings units).run w = (listed.1, w') ∧
    ∃ calls : List Call, SomeCalls setup.prepared options order bindings units calls ∧
      emitted.map .ok = calls.map (·.prepared setup.prepared) ∧
      (setup.sink.emitMarkers = true → ∀ (get : τ → Path → List Marker) (valid : τ → Prop),
        SteadyView setup.sink.store dest (fun w => get (held w)) (fun w => valid (held w)) w →
        ∀ p, get (held w') p = lastMarkers calls (get (held w) p) p) ∧
      (setup.sink.emitMarkers = false → ∀ (β : Type) (view : τ → β),
        dest.Leaves (fun w => view (held w)) → view (held w') = view (held w)) := by
  intro listed w' emitted
  refine ⟨Worker.runIn_of_noting _ _ rfl, ?_⟩
  -- without its lines, the run takes a course of emissions
  obtain ⟨_, hheld, hlist⟩ := hapart.worker_quiet.listed.runIn options signal order bindings units
    (w, []) (w, []) ⟨rfl, rfl⟩
  obtain ⟨entries, hentries, hends⟩ := (setup.quiet_plain dest).listed.runIn_ends options signal
    order bindings units (w, [])
  obtain ⟨done, pendings, hsub, hpendings, hemissions⟩ := hends.emissions
  rw [← hlist, List.nil_append] at hpendings
  have hsame : held w' = held _ := hheld
  rw [hsame]
  obtain ⟨calls, hcalls, rfl⟩ := hentries.someCalls hsub (isSome_of_prepared hemissions.prepared)
  refine ⟨calls, hcalls, ?_, ?_, ?_⟩
  · rw [prepared_of_entries hemissions.prepared, ← hpendings]
  · intro hmarkers get valid hview p
    refine hemissions.markers (fun w => get (held w)) (fun w => valid (held w)) ?_ hview.start p
    intro call pending w hcall hw
    exact Setup.quiet_emit_sets hmarkers hview hcall w hw
  · intro hmarkers β view hview
    refine hemissions.keeps (P := fun v => view (held v) = view (held w)) ?_ rfl
    intro pending v hv
    exact (Setup.quiet_emit_leaves hmarkers hview pending v).trans hv

/-! ## One path in two spellings -/

/-- The first unit and the last one have one path, and the unit between them
has an error. -/
def respelledUnits : List SourceUnit :=
  [.ofClass "x/A" "A" [.lossyField, .lossyField], { SourceUnit.empty "A" with
    problems := [⟨.error, "unexpected end", "A", 1, 0, 0⟩] }, .ofClass "x//A" "B" [.lossyField]]

/-- A run over the three units that lists what it emits. -/
def respelledRun :
    (Except RunError Summary × Bindings) × World Unit MarkerMap × List Pending :=
  (((World.setup ⟨"", false, true, .fail⟩ .headerOnly .nowhere .memory).worker
    Destination.full.onRest).listed.runIn ⟨true, true⟩ .never [2, 1, 0] .empty respelledUnits).run
      (⟨(), staleMarkers⟩, [])

theorem staleMarkers_steady : SteadyView MarkerStore.memory.onRest Destination.full.onRest
    (fun w => w.rest.get) (fun w => w.rest.Sorted) (⟨(), staleMarkers⟩ : World Unit MarkerMap) where
  toMarkerView := staleMarkers_view
  takesAll := MarkerStore.memory_takesAll.onRest
  valid_write _ _ _ ht := ht

theorem two_spellings_of_a_path_have_one_list_of_markers :
    (respelledRun.2.2.map (·.target.path.text)) = ["x/A", "x//A"] ∧
      respelledRun.2.1.rest.get "x/./A" =
        [⟨"anonymous class of 'T' is not supported", .warning, 0, 1, 1, true⟩] ∧
      respelledRun.2.1.rest.get "A" = [staleMarker] ∧
      ∃ calls, calls.length = 2 ∧
        ∀ p, respelledRun.2.1.rest.get p = lastMarkers calls (staleMarkers.get p) p := by
  obtain ⟨_, calls, _, hcalls, hmarkers, _⟩ :=
    a_path_has_the_markers_of_its_last_unit
      (World.setup ⟨"", false, true, .fail⟩ .headerOnly .nowhere .memory) Destination.full.onRest
      World.rest (World.separates _ _ _ _ _) [2, 1, 0] ⟨true, true⟩ .never .empty respelledUnits
      ⟨(), staleMarkers⟩
  rw [← respelledRun] at hcalls hmarkers
  have hemitted : respelledRun.2.2.map (·.target.path.text) = ["x/A", "x//A"] := by decide +kernel
  have hlength : calls.length = 2 := by
    have htwo := congrArg List.length hemitted
    have hsame := congrArg List.length hcalls
    simp only [List.length_map] at htwo hsame
    exact hsame.symm.trans htwo
  exact ⟨hemitted, by decide +kernel, by decide +kernel, calls, hlength,
    hmarkers rfl MarkerMap.get MarkerMap.Sorted staleMarkers_steady⟩

end Recast
