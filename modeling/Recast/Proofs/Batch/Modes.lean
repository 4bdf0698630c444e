-- The two ways to run. To emit each unit before the next is prepared, or
-- to prepare all units first, makes no difference to the result, to the
-- store and to the destination, as long as no signal is raised. If the
-- run also comes to its end, the same calls were made in both ways, and
-- so the same lines are written, in another order.
import Recast.Proofs.Batch.Written

namespace Recast.Batch

variable {W : Type}

namespace Worker.Plain

variable {worker : Worker (StateM W)} {f : Preparing} (h : worker.Plain f)
include h

/-! ## Single units -/

theorem logged_prepareUnit (bindings : Bindings) (progress : Progress) (u : SourceUnit) (w : W)
    (log : List Call) :
    (worker.logged.prepareUnit .never bindings progress u).run (w, log) =
      ((some (f bindings u).1, (f bindings u).2, progress.checked.after u (f bindings u).1),
        (w, log ++ [⟨u, bindings⟩])) := by
  have hprepare : (worker.prepare bindings u).run w = (f bindings u, w) := by
    rw [h.prepare]
    rfl
  exact run_bind_of (run_logged_prepare log hprepare)

omit h in
theorem logged_emitUnit (options : Options) {prepared : Prepared}
    {result : Except RunError Report} {w w' : W}
    (hc : (worker.conclude prepared).run w = (result, w')) (progress : Progress)
    (summary : Summary) (u : SourceUnit) (log : List Call) :
    (worker.logged.emitUnit options .never progress summary u (some prepared)).run (w, log) =
      (follow options summary u result, (w', log)) := by
  have hlogged : (worker.logged.conclude prepared).run (w, log) = (result, (w', log)) := by
    cases prepared with
    | error e =>
      cases hc
      rfl
    | ok pending => exact run_noting_nothing log hc
  exact run_bind_of hlogged

theorem logged_dropAll (entries : List (SourceUnit × Option Prepared)) (w : W)
    (log : List Call) : (worker.logged.dropAll entries).run (w, log) = ((), (w, log)) := by
  induction entries with
  | nil => rfl
  | cons entry rest ih =>
    have hdrop : (worker.logged.drop entry.2).run (w, log) = ((), (w, log)) := by
      unfold Worker.drop
      split
      · rename_i pending _
        have hdiscard : (worker.discard pending).run w = (pending.diagnostics.problems, w) := by
          rw [h.discard]
          rfl
        have hlogged : (worker.logged.discard pending).run (w, log) =
            (pending.diagnostics.problems, (w, log)) := run_noting_nothing log hdiscard
        exact run_bind_of hlogged
      · rfl
    unfold Worker.dropAll
    rw [run_bind_of hdrop]
    exact ih

/-! ## Both ways -/

theorem logged_prepareEach (bindings : Bindings) (progress : Progress) (units : List SourceUnit)
    (w : W) (log : List Call) :
    ∃ progress', (worker.logged.prepareEach .never bindings progress units).run (w, log) =
      (((callsFor f bindings units).map (·.entry f), boundBy f bindings units, progress'),
        (w, log ++ callsFor f bindings units)) := by
  induction units generalizing bindings progress log with
  | nil =>
    refine ⟨progress, ?_⟩
    simp only [callsFor, List.append_nil]
    rfl
  | cons u rest ih =>
    obtain ⟨progress', hrest⟩ := ih (f bindings u).2 (progress.checked.after u (f bindings u).1)
      (log ++ [⟨u, bindings⟩])
    refine ⟨progress', ?_⟩
    unfold Worker.prepareEach
    rw [run_bind_of (h.logged_prepareUnit bindings progress u w log), run_bind_of hrest,
      List.append_assoc]
    rfl

/-- Units that are all prepared come out as units that are taken in turn.
If all of them come through the run, the calls and the bindings are those
of all units. -/
theorem emitAll_runInTurn (keepGoing : Bool) (bindings : Bindings)
    (progress progress' : Progress) (summary : Summary) (units : List SourceUnit) (w : W)
    (log log' : List Call) :
    ∃ out bound w' calls,
      (worker.logged.runInTurn ⟨false, keepGoing⟩ .never bindings progress summary units).run
        (w, log) = ((out, bound), (w', calls)) ∧
      (worker.logged.emitAll ⟨true, keepGoing⟩ .never progress' summary
        ((callsFor f bindings units).map (·.entry f))).run (w, log') = (out, (w', log')) ∧
      (keepGoing = true → out.isOk →
        bound = boundBy f bindings units ∧ calls = log ++ callsFor f bindings units) := by
  induction units generalizing bindings progress progress' summary w log with
  | nil => exact ⟨.ok summary, bindings, w, log, rfl, rfl, fun _ _ => ⟨rfl, by simp [callsFor]⟩⟩
  | cons u rest ih =>
    rcases hc : (worker.conclude (f bindings u).1).run w with ⟨result, w₁⟩
    unfold Worker.runInTurn callsFor
    rw [List.map_cons]
    unfold Worker.emitAll
    rw [run_bind_of (h.logged_prepareUnit bindings progress u w log)]
    dsimp only [Call.entry, Call.prepared]
    rw [run_bind_of (logged_emitUnit _ hc _ summary u _),
      run_bind_of (logged_emitUnit _ hc _ summary u _)]
    -- what follows a unit does not depend on the way
    have hsame : follow ⟨true, keepGoing⟩ summary u result =
        follow ⟨false, keepGoing⟩ summary u result := rfl
    rw [hsame]
    cases hf : follow ⟨false, keepGoing⟩ summary u result with
    | proceed summary =>
      obtain ⟨out, bound, w', calls, hturn, hstaged, hall⟩ := ih (f bindings u).2
        (progress.checked.after u (f bindings u).1).checked progress'.checked summary w₁
        (log ++ [⟨u, bindings⟩])
      refine ⟨out, bound, w', calls, hturn, hstaged, ?_⟩
      intro hkeep hok
      obtain ⟨hbound, hcalls⟩ := hall hkeep hok
      rw [List.append_assoc] at hcalls
      exact ⟨hbound, hcalls⟩
    | stop summary =>
      refine ⟨.ok summary, (f bindings u).2, w₁, log ++ [⟨u, bindings⟩], rfl, ?_, ?_⟩
      · exact run_bind_of (h.logged_dropAll _ w₁ log')
      · intro hkeep
        have hstop : keepGoing = false := (follow_stop hf).1
        rw [hstop] at hkeep
        cases hkeep
    | fatal e =>
      refine ⟨.error e, (f bindings u).2, w₁, log ++ [⟨u, bindings⟩], rfl, rfl, ?_⟩
      intro _ hok
      cases hok

/-- Both ways to run give one result and leave one state. If the run goes
on at failures and comes to its end, they also leave the same bindings
and make the same calls. -/
theorem run_both_ways (keepGoing : Bool) (bindings : Bindings) (units : List SourceUnit) (w : W) :
    ∃ out bound bound' w' calls calls',
      (worker.logged.run ⟨true, keepGoing⟩ .never bindings units).run (w, []) =
        ((out, bound), (w', calls)) ∧
      (worker.logged.run ⟨false, keepGoing⟩ .never bindings units).run (w, []) =
        ((out, bound'), (w', calls')) ∧
      (keepGoing = true → out.isOk → bound = bound' ∧ calls = calls') := by
  obtain ⟨progress, hprepare⟩ := h.logged_prepareEach bindings ⟨0, []⟩ units w []
  obtain ⟨out, bound, w', calls, hturn, hstaged, hall⟩ := h.emitAll_runInTurn keepGoing
    bindings ⟨0, []⟩ progress .empty units w [] ([] ++ callsFor f bindings units)
  refine ⟨out, boundBy f bindings units, bound, w', callsFor f bindings units, calls, ?_, hturn, ?_⟩
  · rw [worker.logged.run_eq, if_pos rfl, run_bind_of hprepare, run_bind_of hstaged]
    rfl
  · intro hkeep hok
    obtain ⟨hbound, hcalls⟩ := hall hkeep hok
    exact ⟨hbound.symm, hcalls.symm⟩

end Worker.Plain

end Recast.Batch

namespace Recast

open Batch

variable {W τ : Type}

/-! ## Runs with lines -/

/-- A run makes the calls of the run without lines, and the same is held
after it. -/
theorem Setup.Separates.logged_run {setup : Setup (StateM W)} {dest : Destination (StateM W)}
    {held : W → τ} (hapart : setup.Separates dest held) {options : Options} {signal : Signal}
    {bindings : Bindings} {units : List SourceUnit} {w w₁ : W}
    {out : Except RunError Summary × Bindings} {calls : List Call}
    (h : ((setup.quiet.worker dest).logged.run options signal bindings units).run (w, []) =
      (out, (w₁, calls))) :
    ∃ w', held w' = held w₁ ∧
      ((setup.worker dest).logged.run options signal bindings units).run (w, []) =
        (out, (w', calls)) := by
  have halike := hapart.worker_quiet.logged.run options signal bindings units (w, []) (w, [])
    ⟨rfl, rfl⟩
  rw [h] at halike
  obtain ⟨hout, hheld, hcalls⟩ := halike
  exact ⟨_, hheld, Prod.ext hout (Prod.ext rfl hcalls)⟩

/-- Whether all units are prepared first or each in its turn, a run that is
not cancelled comes out the same and leaves the same markers and texts, as
long as its lines leave alone what these go by. If it goes on at failures and
no error breaks it off, it also leaves the same bindings and writes the same
lines. -/
theorem both_ways_to_run_agree (setup : Setup (StateM W)) (dest : Destination (StateM W))
    (held : W → τ) (hapart : setup.Separates dest held) (keepGoing : Bool) (bindings : Bindings)
    (units : List SourceUnit) (w : W) :
    ∃ out bound bound' w₁ w₂,
      (Batch.run setup dest ⟨true, keepGoing⟩ .never bindings units).run w = ((out, bound), w₁) ∧
      (Batch.run setup dest ⟨false, keepGoing⟩ .never bindings units).run w =
        ((out, bound'), w₂) ∧
      held w₁ = held w₂ ∧
      (keepGoing = true → out.isOk → bound = bound' ∧
        ∀ text, setup.LinesOn dest text → ∃ ps, Wrote text w w₁ ps ∧ Wrote text w w₂ ps) := by
  obtain ⟨out, bound, bound', w', calls, calls', hstaged, hturn, hall⟩ :=
    (setup.quiet_plain dest).run_both_ways keepGoing bindings units w
  obtain ⟨w₁, hheld₁, hlogged₁⟩ := hapart.logged_run hstaged
  obtain ⟨w₂, hheld₂, hlogged₂⟩ := hapart.logged_run hturn
  refine ⟨out, bound, bound', w₁, w₂, Worker.runIn_of_noting _ _ hlogged₁,
    Worker.runIn_of_noting _ _ hlogged₂, hheld₁.trans hheld₂.symm, ?_⟩
  intro hkeep hok
  obtain ⟨hbound, hcalls⟩ := hall hkeep hok
  refine ⟨hbound, ?_⟩
  intro text hlines
  have hwrote₁ := hlines.run_wrote_all hlogged₁ hok
  have hwrote₂ := hlines.run_wrote_all hlogged₂ hok
  rw [← hcalls] at hwrote₂
  exact ⟨_, hwrote₁, hwrote₂⟩

/-- Of three units, the second has an error, and the others have a warning
each. -/
def mixedUnits : List SourceUnit :=
  [.ofClass "A" "A" [.lossyField], { SourceUnit.empty "B" with
    problems := [⟨.error, "unexpected end", "B", 1, 0, 0⟩] }, .ofClass "C" "C" [.lossyField]]

/-- A run over the three units, which writes its lines to a buffer. -/
def mixedRun (parallel : Bool) : (Except RunError Summary × Bindings) × World String Unit :=
  (Batch.run bufferSetup (Destination.stream .nowhere).onRest ⟨parallel, true⟩ .never .empty
    mixedUnits).run ⟨"", ()⟩

theorem the_same_lines_are_written_in_two_orders :
    (mixedRun true).1.1.isOk ∧ (mixedRun true).1 = (mixedRun false).1 ∧
      (mixedRun true).2.page = "B(1): unexpected end\n" ++
        "A(1): anonymous class of 'T' is not supported\n" ++
        "C(1): anonymous class of 'T' is not supported\n" ∧
      (mixedRun false).2.page = "A(1): anonymous class of 'T' is not supported\n" ++
        "B(1): unexpected end\n" ++
        "C(1): anonymous class of 'T' is not supported\n" ∧
      ∃ ps, Wrote World.page ⟨"", ()⟩ (mixedRun true).2 ps ∧
        Wrote World.page ⟨"", ()⟩ (mixedRun false).2 ps := by
  obtain ⟨out, bound, bound', w₁, w₂, hstaged, hturn, _, hall⟩ := both_ways_to_run_agree
    bufferSetup (Destination.stream .nowhere).onRest World.rest (World.separates _ _ _ _ _) true
    .empty mixedUnits ⟨"", ()⟩
  have htrue : mixedRun true = ((out, bound), w₁) := hstaged
  have hfalse : mixedRun false = ((out, bound'), w₂) := hturn
  have hok : (mixedRun true).1.1.isOk := by decide +kernel
  have hout : out.isOk := by
    rw [htrue] at hok
    exact hok
  obtain ⟨hbound, hlines⟩ := hall rfl hout
  refine ⟨hok, ?_, by decide +kernel, by decide +kernel, ?_⟩
  · rw [htrue, hfalse, hbound]
  · rw [htrue, hfalse]
    exact hlines World.page bufferSetup_linesOn

end Recast
