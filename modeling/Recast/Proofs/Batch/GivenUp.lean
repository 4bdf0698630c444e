-- Units that are given up. A unit with errors that are not ignored changes
-- nothing for the others: a run with it and a run without it are the same
-- run, but for the lines of its errors and one more failure in the summary,
-- at its place among the others.
import Recast.Proofs.Batch.Record
import Recast.Proofs.Batch.SideBySide
import Recast.Proofs.Stages

namespace Recast

variable {V W : Type}

namespace Batch

/-! ## A unit that is given up -/

/-- The error that a unit is given up with. -/
def givenUp (u : SourceUnit) : RunError := .aborted u.path u.errors.length

theorem Summary.oneMore_givenUp (s : Summary) (u : SourceUnit) :
    s.OneMore (s.recordFailure u.path (givenUp u)) := rfl

/-- The worker gives the unit up when it prepares it, and binds nothing. In
the relation of the two states, that leads from `D` to `R`. -/
structure Worker.SetsAside (worker : Worker (StateM V)) (u : SourceUnit) (D R : V → V → Prop) :
    Prop where
  before : worker.Alike D worker
  behind : worker.Alike R worker
  prepare : ∀ bindings v v', D v v' → ∃ v'',
    (worker.prepare bindings u).run v' = ((.error (givenUp u), bindings), v'') ∧ R v v''

/-- How two runs end of which only the second had the unit: with one more
failure, or with the same error. -/
abbrev EndAside (D R : V → V → Prop) :
    Except RunError Summary → Except RunError Summary → V → V → Prop :=
  EndBoth Summary.OneMore (fun v v' => D v v' ∨ R v v') R

namespace Worker.SetsAside

variable {worker : Worker (StateM V)} {u : SourceUnit} {D R : V → V → Prop}
  (h : worker.SetsAside u D R)
include h

theorem prepareUnit_aside (bindings : Bindings) (progress : Progress) {v v' : V} (hD : D v v') :
    ∃ v'', (worker.prepareUnit .never bindings progress u).run v' =
      ((some (.error (givenUp u)), bindings, progress.checked), v'') ∧ R v v'' := by
  obtain ⟨v'', hprepare, hR⟩ := h.prepare bindings v v' hD
  exact ⟨v'', run_bind_of hprepare, hR⟩

/-! ### Units in turn -/

theorem runInTurn_aside (s : Summary) (bindings : Bindings) (progress progress' : Progress)
    (before after : List SourceUnit) :
    Related D (worker.runInTurn ⟨false, true⟩ .never bindings progress s (before ++ after))
      (worker.runInTurn ⟨false, true⟩ .never bindings progress' s (before ++ u :: after))
      fun r r' v v' => r.2 = r'.2 ∧ EndAside D R r.1 r'.1 v v' := by
  induction before generalizing bindings progress progress' s with
  | nil =>
    intro v v' hD
    obtain ⟨v'', hunit, hR⟩ := h.prepareUnit_aside bindings progress' hD
    have hstep : (worker.runInTurn ⟨false, true⟩ .never bindings progress' s (u :: after)).run v' =
        (worker.runInTurn ⟨false, true⟩ .never bindings progress'.checked.checked
          (s.recordFailure u.path (givenUp u)) after).run v'' := run_bind_of hunit
    rw [List.nil_append, List.nil_append, hstep]
    exact h.behind.runInTurn_never Summary.stable_oneMore (fun _ _ hR => Or.inr hR)
      (s.oneMore_givenUp u) bindings progress _ after v v'' hR
  | cons x before ih =>
    refine (h.before.prepareUnit_never bindings progress progress' x).bind ?_
    rintro ⟨_, bound, progress⟩ ⟨_, _, progress'⟩
    refine Related.of_and ?_
    rintro ⟨q, rfl, rfl, rfl⟩
    refine (h.before.emitUnit_never Summary.stable_eq rfl rfl progress progress' x q).bind ?_
    intro next next'
    refine Related.of_and ?_
    intro hnext
    cases hnext with
    | proceed hs =>
      cases hs
      exact ih _ bound progress.checked progress'.checked
    | fatal => exact Related.pure fun v v' hD => ⟨rfl, .error (Or.inl hD)⟩

/-! ### All units first -/

theorem prepareEach_aside (bindings : Bindings) (progress progress' : Progress)
    (before after : List SourceUnit) :
    Related D (worker.prepareEach .never bindings progress (before ++ after))
      (worker.prepareEach .never bindings progress' (before ++ u :: after)) fun r r' v v' =>
        (∃ early late, r.1 = ready (early ++ late) ∧
          r'.1 = ready (early ++ (u, .error (givenUp u)) :: late) ∧ r.2.1 = r'.2.1) ∧ R v v' := by
  induction before generalizing bindings progress progress' with
  | nil =>
    intro v v' hD
    obtain ⟨v'', hunit, hR⟩ := h.prepareUnit_aside bindings progress' hD
    have hrest := h.behind.prepareEach_never bindings progress progress'.checked after v v'' hR
    rcases hrun : (worker.prepareEach .never bindings progress'.checked after).run v'' with
      ⟨⟨others, bound, progress₁⟩, v₁⟩
    rw [hrun] at hrest
    obtain ⟨⟨entries, hready, hothers, hbound⟩, hR⟩ := hrest
    have hstep : (worker.prepareEach .never bindings progress' (u :: after)).run v' =
        (((u, some (.error (givenUp u))) :: others, bound, progress₁), v₁) :=
      (run_bind_of hunit).trans (run_bind_of hrun)
    rw [List.nil_append, List.nil_append, hstep]
    exact ⟨⟨[], entries, hready, congrArg ((u, some (.error (givenUp u))) :: ·) hothers, hbound⟩,
      hR⟩
  | cons x before ih =>
    refine (h.before.prepareUnit_never bindings progress progress' x).bind ?_
    rintro ⟨_, bound, progress⟩ ⟨_, _, progress'⟩
    refine Related.of_and ?_
    rintro ⟨q, rfl, rfl, rfl⟩
    refine (ih bound progress progress').bind ?_
    rintro ⟨_, bound, progress⟩ ⟨_, _, progress'⟩
    refine Related.of_and ?_
    rintro ⟨early, late, rfl, rfl, rfl⟩
    exact Related.pure fun v v' hR => ⟨⟨(x, q) :: early, late, rfl, rfl, rfl⟩, hR⟩

theorem emitAll_aside (s : Summary) (progress progress' : Progress)
    (early late : List (SourceUnit × Prepared)) :
    Related R (worker.emitAll ⟨true, true⟩ .never progress s (ready (early ++ late)))
      (worker.emitAll ⟨true, true⟩ .never progress' s
        (ready (early ++ (u, .error (givenUp u)) :: late))) (EndAside D R) := by
  induction early generalizing progress progress' s with
  | nil =>
    exact h.behind.emitAll_never Summary.stable_oneMore (fun _ _ hR => Or.inr hR)
      (s.oneMore_givenUp u) progress progress'.checked late
  | cons entry early ih =>
    refine (h.behind.emitUnit_never Summary.stable_eq rfl rfl progress progress' entry.1
      entry.2).bind ?_
    intro next next'
    refine Related.of_and ?_
    intro hnext
    cases hnext with
    | proceed hs =>
      cases hs
      exact ih _ progress.checked progress'.checked
    | fatal => exact Related.pure fun v v' hR => .error (Or.inr hR)

/-- A run with the unit and a run without it leave the same bindings, and
end alike but for one more failure. -/
theorem run_aside (parallel : Bool) (bindings : Bindings) (before after : List SourceUnit) :
    Related D (worker.run ⟨parallel, true⟩ .never bindings (before ++ after))
      (worker.run ⟨parallel, true⟩ .never bindings (before ++ u :: after)) fun r r' v v' =>
        r.2 = r'.2 ∧ EndAside D R r.1 r'.1 v v' := by
  rw [worker.run_eq, worker.run_eq]
  cases parallel with
  | false => exact h.runInTurn_aside .empty bindings ⟨0, []⟩ ⟨0, []⟩ before after
  | true =>
    refine (h.prepareEach_aside bindings ⟨0, []⟩ ⟨0, []⟩ before after).bind ?_
    rintro ⟨_, bound, progress⟩ ⟨_, _, progress'⟩
    refine Related.of_and ?_
    rintro ⟨early, late, rfl, rfl, rfl⟩
    refine (h.emitAll_aside .empty progress progress' early late).bind ?_
    intro out out'
    exact Related.pure fun v v' hends => ⟨rfl, hends⟩

end Worker.SetsAside

/-! ## Results with one more failure -/

theorem failuresOf_append {units units' : List SourceUnit} {results results' : Results}
    (h : results.length = units.length) :
    failuresOf (units ++ units') (results ++ results') =
      failuresOf units results ++ failuresOf units' results' := by
  induction units generalizing results with
  | nil =>
    rw [List.length_eq_zero_iff.mp h]
    cases units' <;> rfl
  | cons u units ih =>
    cases results with
    | nil => cases h
    | cons result results =>
      have hrest : failuresOf (units ++ units') (results ++ results') =
          failuresOf units results ++ failuresOf units' results' := ih (by simpa using h)
      cases result with
      | ok report => exact hrest
      | error e => exact congrArg ((u.path, e.message) :: ·) hrest

/-- With a unit that is given up at its place, the others are emitted as
without it. -/
theorem Worker.emitFor_aside {worker : Worker (StateM W)} {f : Preparing} {u : SourceUnit}
    (hu : ∀ bindings, f bindings u = (.error (givenUp u), bindings)) {bindings : Bindings}
    {before after : List SourceUnit} {results : Results} {w w' : W}
    (h : (worker.emitFor f bindings (before ++ after)).run w = (results, w')) :
    ∃ early late, results = early ++ late ∧ early.length = before.length ∧
      (worker.emitFor f bindings (before ++ u :: after)).run w =
        (early ++ .error (givenUp u) :: late, w') := by
  induction before generalizing bindings results w with
  | nil =>
    refine ⟨[], results, rfl, rfl, ?_⟩
    have hunit : (worker.conclude (f bindings u).1).run w = (.error (givenUp u), w) := by
      rw [hu]
      rfl
    refine concludeAll_cons hunit ?_
    rw [hu]
    exact h
  | cons x before ih =>
    rcases hx : (worker.conclude (f bindings x).1).run w with ⟨result, w₁⟩
    rcases hrest : (worker.emitFor f (f bindings x).2 (before ++ after)).run w₁ with ⟨others, w₂⟩
    have hall : (worker.emitFor f bindings (x :: before ++ after)).run w = (result :: others, w₂) :=
      concludeAll_cons hx hrest
    rw [h] at hall
    cases hall
    obtain ⟨early, late, rfl, hlength, haside⟩ := ih hrest
    exact ⟨result :: early, late, rfl, congrArg (· + 1) hlength, concludeAll_cons hx haside⟩

/-- A run that nothing stops and that gives a summary has recorded the
failures of all units. -/
theorem Worker.Plain.failures_never {worker : Worker (StateM W)} {f : Preparing}
    (h : worker.Plain f) {parallel : Bool} {bindings : Bindings} {units : List SourceUnit}
    {summary : Summary} {w : W}
    (hok : ((worker.run ⟨parallel, true⟩ .never bindings units).run w).1.1 = .ok summary) :
    summary.failures = failuresOf units ((worker.emitFor f bindings units).run w).1 := by
  obtain ⟨results, hle, hrun, hgrown, hhalted⟩ := h.run_recorded hok
  have hwhole : results.length = units.length := by
    cases hhalted with
    | whole hlength _ => exact hlength
    | cancelled _ hcancelled =>
      have hnever := worker.alike_refl.run_never Summary.stable_notCancelled rfl parallel bindings
        units w w rfl
      dsimp only at hnever
      rw [hok] at hnever
      cases hnever with
      | summary hnot _ =>
        rw [hnot] at hcancelled
        cases hcancelled
    | failed e hkeep _ _ => cases hkeep
  rw [hwhole, List.take_length] at hrun
  rw [hrun]
  exact hgrown.failures

namespace Worker.Plain

variable {worker : Worker (StateM V)} {f : Preparing} (h : worker.Plain f) {u : SourceUnit}
  (hu : ∀ bindings, f bindings u = (.error (givenUp u), bindings))
include h hu

theorem setsAside : worker.SetsAside u Eq Eq where
  before := worker.alike_refl
  behind := worker.alike_refl
  prepare bindings v _ := by
    rintro rfl
    refine ⟨v, ?_, rfl⟩
    rw [h.prepare, hu]
    rfl

/-- Told without its lines, a run does not meet another state because of
the unit. It breaks off with the same error, or gives a summary that has the
failure of the unit at its place and is the same otherwise. -/
theorem run_with_givenUp {parallel : Bool} {bindings bound bound' : Bindings}
    {before after : List SourceUnit} {out out' : Except RunError Summary} {v v₁ v₂ : V}
    (hwithout : (worker.run ⟨parallel, true⟩ .never bindings (before ++ after)).run v =
      ((out, bound), v₁))
    (hwith : (worker.run ⟨parallel, true⟩ .never bindings (before ++ u :: after)).run v =
      ((out', bound'), v₂)) :
    bound' = bound ∧ v₂ = v₁ ∧ (∀ e, out = .error e ↔ out' = .error e) ∧
    ∀ summary, out = .ok summary → ∃ early late : Results,
      ((worker.emitFor f bindings (before ++ after)).run v).1 = early ++ late ∧
      early.length = before.length ∧
      summary.failures = failuresOf before early ++ failuresOf after late ∧
      out' = .ok { summary with
        aborted := summary.aborted + 1
        failures := failuresOf before early ++
          (u.path, (givenUp u).message) :: failuresOf after late } := by
  obtain ⟨hbound, hends⟩ := (h.setsAside hu).run_aside parallel bindings before after v v rfl
  rw [hwithout, hwith] at hbound hends
  cases hbound
  cases hends with
  | @error e _ _ hsame =>
    rw [or_self] at hsame
    refine ⟨rfl, hsame.symm, fun _ => Iff.rfl, ?_⟩
    intro summary hok
    cases hok
  | @summary summary summary' _ _ hone hsame =>
    refine ⟨rfl, hsame.symm, fun e => ⟨nofun, nofun⟩, ?_⟩
    rintro _ ⟨⟩
    have hfailures := h.failures_never (congrArg (fun r => r.1.1) hwithout)
    have hfailures' := h.failures_never (congrArg (fun r => r.1.1) hwith)
    rcases hemit : (worker.emitFor f bindings (before ++ after)).run v with ⟨results, v'⟩
    obtain ⟨early, late, rfl, hlength, haside⟩ := emitFor_aside hu hemit
    rw [hemit, failuresOf_append hlength] at hfailures
    rw [haside, failuresOf_append hlength] at hfailures'
    refine ⟨early, late, rfl, hlength, hfailures, ?_⟩
    rw [show summary' = _ from hone, hfailures']
    rfl

end Worker.Plain

end Batch

open Batch

variable {τ : Type}

/-! ## Runs with lines -/

namespace Setup.LinesOn

variable {setup : Setup (StateM W)} {dest : Destination (StateM W)} {held : W → τ}
  {text : W → String} (hlines : setup.LinesOn dest text) (hapart : setup.Separates dest held)
  {u : SourceUnit} (hrefuses : setup.refuses u = true)
include hlines hapart hrefuses

/-- A unit that is given up writes the lines of its errors, and nothing
else. -/
theorem prepare_of_refuses (bindings : Bindings) (w : W) :
    ∃ w', ((setup.worker dest).prepare bindings u).run w = ((.error (givenUp u), bindings), w') ∧
      held w' = held w ∧ text w' = text w ++ linesText u.errors := by
  have hresult := (hlines.prepare bindings u w rfl).1
  have htext := hlines.prepare_text bindings u w
  have hheld := (hapart.worker_quiet.prepare bindings u w w rfl).2
  have hquiet : ((setup.quiet.worker dest).prepare bindings u).run w =
      (setup.prepared bindings u, w) :=
    congrArg (StateT.run · w) (setup.quiet_prepare bindings u)
  have hrecorded : setup.recorded bindings u = u.errors := if_pos hrefuses
  rcases hrun : ((setup.worker dest).prepare bindings u).run w with ⟨result, w'⟩
  rw [hrun, hquiet] at hheld
  rw [show (setup.prepare bindings u).run w = (result, w') from hrun] at hresult htext
  rw [Setup.prepared_of_refuses hrefuses] at hresult
  cases hresult
  exact ⟨w', rfl, hheld, htext.trans (congrArg (text w ++ linesText ·) hrecorded)⟩

/-- Behind the unit, the lines of its errors are a block that only the second
run has written. -/
theorem setsAside (start : W) :
    (setup.worker dest).SetsAside u (Inserted held text (text start) "") fun w w' =>
      ∃ early, Inserted held text (text start ++ linesText early) (linesText u.errors) w w' where
  before := hlines.worker_inserted hapart _ _
  behind := Worker.alike_of_exists fun _ => hlines.worker_inserted hapart _ _
  prepare bindings w w' := by
    rintro ⟨hsame, late, hw, hw'⟩
    obtain ⟨w'', hrun, hheld, htext⟩ := hlines.prepare_of_refuses hapart hrefuses bindings w'
    refine ⟨w'', hrun, late, inserted_start (hsame.trans hheld.symm) hw ?_⟩
    rw [htext, hw', String.append_empty]

end Setup.LinesOn

/-- A unit with errors that are not ignored, put anywhere into a run that
goes on at failures, changes neither the bindings nor what is stored and
written for the others, nor an error that breaks the run off, as long as
lines leave alone what the store and the destination go by. If there is a
summary, it counts one more unit that was given up and tells of it between
the failures of the units before and behind, and the lines of its errors
stand as one block among the lines of the others. -/
theorem a_unit_that_is_given_up_changes_nothing_else (setup : Setup (StateM W))
    (dest : Destination (StateM W)) (held : W → τ) (hapart : setup.Separates dest held)
    (parallel : Bool) (bindings : Bindings) (before after : List SourceUnit) (u : SourceUnit)
    (w : W) (hignore : setup.config.ignoreErrors = false) (herrors : u.errors ≠ []) :
    let run units := (Batch.run setup dest ⟨parallel, true⟩ .never bindings units).run w
    ∃ out out' bound w₁ w₂,
      run (before ++ after) = ((out, bound), w₁) ∧
      run (before ++ u :: after) = ((out', bound), w₂) ∧ held w₂ = held w₁ ∧
      (∀ e, out = .error e ↔ out' = .error e) ∧
      ∀ summary, out = .ok summary → ∃ early late : Results,
        ((setup.emitEach dest (callsFor setup.prepared bindings (before ++ after))).run w).1 =
          early ++ late ∧
        early.length = before.length ∧
        summary.failures = failuresOf before early ++ failuresOf after late ∧
        out' = .ok { summary with
          aborted := summary.aborted + 1
          failures := failuresOf before early ++
            (u.path, (RunError.aborted u.path u.errors.length).message) :: failuresOf after late } ∧
        ∀ text, setup.LinesOn dest text → ∃ lines,
          Inserted held text (text w ++ linesText lines) (linesText u.errors) w₁ w₂ := by
  intro run
  have hrefuses : setup.refuses u = true := Setup.refuses_of_errors hignore herrors
  have halike := hapart.worker_quiet
  rcases h₁ : run (before ++ after) with ⟨⟨out, bound⟩, w₁⟩
  rcases h₂ : run (before ++ u :: after) with ⟨⟨out', bound'⟩, w₂⟩
  simp only [run, Batch.run] at h₁ h₂
  -- both runs without their lines
  have hs₁ := halike.run ⟨parallel, true⟩ .never bindings (before ++ after) w w rfl
  have hs₂ := halike.run ⟨parallel, true⟩ .never bindings (before ++ u :: after) w w rfl
  rcases hq₁ : ((setup.quiet.worker dest).run ⟨parallel, true⟩ .never bindings
    (before ++ after)).run w with ⟨result₁, q₁⟩
  rcases hq₂ : ((setup.quiet.worker dest).run ⟨parallel, true⟩ .never bindings
    (before ++ u :: after)).run w with ⟨result₂, q₂⟩
  rw [h₁, hq₁] at hs₁
  rw [h₂, hq₂] at hs₂
  obtain ⟨rfl, hheld₁⟩ := hs₁
  obtain ⟨rfl, hheld₂⟩ := hs₂
  obtain ⟨rfl, rfl, herror, hsummary⟩ := (setup.quiet_plain dest).run_with_givenUp
    (Setup.prepared_of_refuses hrefuses) hq₁ hq₂
  have hheld : held w₂ = held w₁ := Eq.trans hheld₂ (Eq.symm hheld₁)
  refine ⟨out, out', bound', w₁, w₂, rfl, rfl, hheld, herror, ?_⟩
  rintro summary rfl
  obtain ⟨early, late, hemit, hlength, hfailures, rfl⟩ := hsummary summary rfl
  obtain ⟨hresults, _⟩ := halike.concludeAll
    ((callsFor setup.prepared bindings (before ++ after)).map (·.prepared setup.prepared)) w w rfl
  refine ⟨early, late, hresults.trans hemit, hlength, hfailures, rfl, ?_⟩
  intro text hlines
  have hstart : Inserted held text (text w) "" w w :=
    inserted_start rfl rfl String.append_empty.symm
  obtain ⟨_, hends⟩ := (hlines.setsAside hapart hrefuses w).run_aside parallel bindings before
    after w w hstart
  rw [h₁, h₂] at hends
  cases hends with
  | summary _ hinserted => exact hinserted

/-- A unit with an error. -/
def brokenUnit : SourceUnit := { SourceUnit.empty "B" with
  problems := [⟨.error, "unexpected end", "B", 1, 0, 0⟩] }

/-- A class with a warning. -/
def lossyClass (name : String) : SourceUnit := .ofClass name name [.lossyField]

/-- A run whose texts are all refused. -/
def fullDiskRun (units : List SourceUnit) :
    (Except RunError Summary × Bindings) × World String MarkerMap :=
  (Batch.run (World.setup ⟨"", false, true, .log⟩ .headerOnly .buffer .memory)
    Destination.full.onRest ⟨true, true⟩ .never .empty units).run ⟨"", .empty⟩

theorem a_unit_is_given_up_between_two_refused_texts :
    brokenUnit.errors ≠ [] ∧
      (fullDiskRun [lossyClass "A", brokenUnit, lossyClass "C"]).2.rest =
        (fullDiskRun [lossyClass "A", lossyClass "C"]).2.rest ∧
      (fullDiskRun [lossyClass "A", lossyClass "C"]).1.1.toOption.map
        (·.failures.map (·.1.text)) = some ["A", "C"] ∧
      (∃ summary early late,
        (fullDiskRun [lossyClass "A", lossyClass "C"]).1.1 = .ok summary ∧
        (fullDiskRun [lossyClass "A", brokenUnit, lossyClass "C"]).1.1 = .ok { summary with
          aborted := summary.aborted + 1
          failures := failuresOf [lossyClass "A"] early ++
            (⟨"B"⟩, (RunError.aborted "B" 1).message) :: failuresOf [lossyClass "C"] late }) ∧
      ∃ lines, Inserted World.rest World.page ("" ++ linesText lines) (linesText brokenUnit.errors)
        (fullDiskRun [lossyClass "A", lossyClass "C"]).2
        (fullDiskRun [lossyClass "A", brokenUnit, lossyClass "C"]).2 := by
  have herrors : brokenUnit.errors ≠ [] := by decide
  obtain ⟨out, out', bound, w₁, w₂, hwithout, hwith, hrest, _, hsummary⟩ :=
    a_unit_that_is_given_up_changes_nothing_else
      (World.setup ⟨"", false, true, .log⟩ .headerOnly .buffer .memory) Destination.full.onRest
      World.rest (World.separates _ _ _ _ _) true .empty [lossyClass "A"] [lossyClass "C"]
      brokenUnit (⟨"", .empty⟩ : World String MarkerMap) rfl herrors
  have hrun : fullDiskRun [lossyClass "A", lossyClass "C"] = ((out, bound), w₁) := hwithout
  have hrun' : fullDiskRun [lossyClass "A", brokenUnit, lossyClass "C"] = ((out', bound), w₂) :=
    hwith
  have hfailures : (fullDiskRun [lossyClass "A", lossyClass "C"]).1.1.toOption.map
      (·.failures.map (·.1.text)) = some ["A", "C"] := by decide +kernel
  rw [hrun] at hfailures
  rw [hrun, hrun']
  cases out with
  | error e => cases hfailures
  | ok summary =>
    obtain ⟨early, late, _, _, _, hout', hlines⟩ := hsummary summary rfl
    exact ⟨herrors, hrest, hfailures, ⟨summary, early, late, rfl, hout'⟩,
      hlines World.page (World.linesOn _ _ _ _ TextStream.buffer_keeps)⟩

end Recast
