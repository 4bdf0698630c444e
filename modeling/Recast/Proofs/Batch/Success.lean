-- When a run succeeds. Each unit can also be taken all the way before the
-- next one is looked at. A run succeeds if every unit comes through in that
-- way, and only then: however the units are prepared, and whether or not the
-- run goes on at failures.
import Recast.Proofs.Batch.Modes
import Recast.Proofs.Batch.Record
import Recast.Proofs.Stages

namespace Recast

open Batch

variable {W τ : Type}

/-! ## Units one by one -/

/-- Takes units all the way, one after the other, whatever becomes of each. -/
def Setup.processEach [Monad m] (setup : Setup m) (dest : Destination m) (bindings : Bindings) :
    List SourceUnit → m Results
  | [] => return []
  | u :: rest => do
    let (result, bindings) ← setup.process dest bindings u
    let others ← setup.processEach dest bindings rest
    return result :: others

theorem Setup.Separates.processEach {setup : Setup (StateM W)} {dest : Destination (StateM W)}
    {held : W → τ} (hapart : setup.Separates dest held) (bindings : Bindings)
    (units : List SourceUnit) :
    Recast.Alike (SameIn held) (setup.processEach dest bindings units)
      (setup.quiet.processEach dest bindings units) := by
  induction units generalizing bindings with
  | nil => exact Recast.Alike.pure _
  | cons u rest ih =>
    apply (hapart.process bindings u).bind
    intro ⟨result, bound⟩
    exact (ih bound).bind fun _ => Recast.Alike.pure _

/-- Without lines, to take a unit all the way is to emit what it came to. -/
theorem Setup.quiet_processEach (setup : Setup (StateM W)) (dest : Destination (StateM W))
    (bindings : Bindings) (units : List SourceUnit) (w : W) :
    (setup.quiet.processEach dest bindings units).run w =
      ((setup.quiet.worker dest).emitFor setup.prepared bindings units).run w := by
  induction units generalizing bindings w with
  | nil => rfl
  | cons u rest ih =>
    rcases hu : (setup.quiet.process dest bindings u).run w with ⟨⟨result, bound⟩, w₁⟩
    have hconclude : ((setup.quiet.worker dest).conclude (setup.prepared bindings u).1).run w =
        (result, w₁) ∧ (setup.prepared bindings u).2 = bound := by
      rcases Setup.quiet_process_cases hu with
        ⟨e, hprepared, rfl, rfl⟩ | ⟨pending, hprepared, hemit⟩
      · rw [hprepared]
        exact ⟨rfl, rfl⟩
      · rw [hprepared]
        exact ⟨hemit, rfl⟩
    rcases hrest : (setup.quiet.processEach dest bound rest).run w₁ with ⟨others, w₂⟩
    have hothers := ih bound w₁
    rw [hrest, ← hconclude.2] at hothers
    unfold Setup.processEach
    rw [run_bind_of hu]
    dsimp only
    rw [run_bind_of hrest]
    exact (Worker.concludeAll_cons hconclude.1 hothers.symm).symm

/-- A unit that comes through is done. -/
theorem Setup.done_of_process {setup : Setup (StateM W)} {dest : Destination (StateM W)}
    {bindings bound : Bindings} {u : SourceUnit} {report : Report} {w w' : W}
    (h : (setup.process dest bindings u).run w = ((.ok report, bound), w')) :
    report.trace.getLast? = some .done := by
  rcases hprepare : (setup.prepare bindings u).run w with ⟨⟨e | pending, bound'⟩, w₁⟩
  · unfold Setup.process at h
    rw [run_bind_of hprepare] at h
    cases h
  · rcases hemit : (setup.emit dest pending).run.run w₁ with ⟨result, w₂⟩
    unfold Setup.process at h
    rw [run_bind_of hprepare] at h
    cases (run_bind_of hemit).symm.trans h
    obtain ⟨_, _, _, ⟨_, _, htrace⟩ | ⟨_, _, _, htrace⟩⟩ := Setup.emit_ok hemit
    · simp [htrace]
    · simp [htrace]

theorem Setup.done_of_processEach {setup : Setup (StateM W)} {dest : Destination (StateM W)}
    {bindings : Bindings} {units : List SourceUnit} {results : Results} {w w' : W}
    (h : (setup.processEach dest bindings units).run w = (results, w')) {report : Report}
    (hreport : .ok report ∈ results) : report.trace.getLast? = some .done := by
  induction units generalizing bindings results w with
  | nil =>
    cases h
    cases hreport
  | cons u rest ih =>
    rcases hu : (setup.process dest bindings u).run w with ⟨⟨result, bound⟩, w₁⟩
    rcases hrest : (setup.processEach dest bound rest).run w₁ with ⟨others, w₂⟩
    unfold Setup.processEach at h
    rw [run_bind_of hu, run_bind_of hrest] at h
    cases h
    rcases List.mem_cons.mp hreport with rfl | hlater
    · exact Setup.done_of_process hu
    · exact ih hrest hlater

namespace Batch

/-! ## Runs that succeed -/

/-- Every unit came through. -/
def Results.AllThrough (results : Results) : Prop :=
  ∀ result ∈ results, ∃ report, result = .ok report

@[simp] theorem Results.allThrough_cons (result : Except RunError Report) (results : Results) :
    Results.AllThrough (result :: results) ↔
      (∃ report, result = .ok report) ∧ Results.AllThrough results :=
  List.forall_mem_cons

theorem length_reportsOf_le (results : Results) : (reportsOf results).length ≤ results.length := by
  induction results with
  | nil => exact Nat.le_refl _
  | cons result results ih =>
    cases result with
    | ok report => exact Nat.succ_le_succ ih
    | error e => exact Nat.le_succ_of_le ih

/-- Results of which each has a report are these reports. -/
theorem eq_map_of_length {results : Results}
    (h : (reportsOf results).length = results.length) : results = (reportsOf results).map .ok := by
  induction results with
  | nil => rfl
  | cons result results ih =>
    cases result with
    | ok report => exact congrArg (.ok report :: ·) (ih (Nat.succ_inj.mp h))
    | error e =>
      have hle := length_reportsOf_le results
      have hlength : (reportsOf results).length = results.length + 1 := h
      omega

theorem Summary.success_record (s : Summary) (report : Report) :
    (s.record report).success = s.success := by
  unfold Summary.record
  split
  · rfl
  · rfl

namespace Worker.Plain

variable {worker : Worker (StateM W)} {f : Preparing} (h : worker.Plain f)
include h

/-- If every unit comes through, the run goes on to its end. -/
theorem logged_runInTurn_through (options : Options) {bindings : Bindings} {units : List SourceUnit}
    {results : Results} {w w' : W}
    (hall : (worker.emitFor f bindings units).run w = (results, w'))
    (hthrough : results.AllThrough) (progress : Progress) (summary : Summary) (log : List Call) :
    ∃ summary' bound calls,
      (worker.logged.runInTurn options .never bindings progress summary units).run (w, log) =
        ((.ok summary', bound), (w', calls)) ∧ summary'.success = summary.success := by
  induction units generalizing bindings results w progress summary log with
  | nil =>
    cases hall
    exact ⟨summary, bindings, log, rfl, rfl⟩
  | cons u rest ih =>
    rcases hc : (worker.conclude (f bindings u).1).run w with ⟨result, w₁⟩
    rcases hrest : (worker.emitFor f (f bindings u).2 rest).run w₁ with ⟨others, w₂⟩
    cases (concludeAll_cons hc hrest).symm.trans hall
    rw [Results.allThrough_cons] at hthrough
    obtain ⟨⟨report, rfl⟩, hothers⟩ := hthrough
    obtain ⟨summary', bound, calls, hrun, hsuccess⟩ := ih hrest hothers
      (progress.checked.after u (f bindings u).1).checked (summary.record report)
      (log ++ [⟨u, bindings⟩])
    refine ⟨summary', bound, calls, ?_, hsuccess.trans (summary.success_record report)⟩
    unfold Worker.runInTurn
    rw [run_bind_of (h.logged_prepareUnit bindings progress u w log)]
    dsimp only
    rw [run_bind_of (logged_emitUnit options hc _ summary u _)]
    exact hrun

theorem run_through (options : Options) {bindings : Bindings} {units : List SourceUnit}
    {results : Results} {w w' : W}
    (hall : (worker.emitFor f bindings units).run w = (results, w'))
    (hthrough : results.AllThrough) :
    ∃ summary bound, (worker.run options .never bindings units).run w = ((.ok summary, bound), w') ∧
      summary.success = true := by
  obtain ⟨parallel, keepGoing⟩ := options
  obtain ⟨summary, bound, calls, hturn, hsuccess⟩ :=
    h.logged_runInTurn_through ⟨false, keepGoing⟩ hall hthrough ⟨0, []⟩ .empty []
  have hrun : (worker.logged.run ⟨false, keepGoing⟩ .never bindings units).run (w, []) =
      ((.ok summary, bound), (w', calls)) := hturn
  cases parallel with
  | false => exact ⟨summary, bound, Worker.runIn_of_noting _ _ hrun, hsuccess⟩
  | true =>
    obtain ⟨out, bound', bound'', w'', calls', calls'', hstaged, hsame, _⟩ :=
      h.run_both_ways keepGoing bindings units w
    rw [hrun] at hsame
    cases hsame
    exact ⟨summary, bound', Worker.runIn_of_noting _ _ hstaged, hsuccess⟩

/-- A run that succeeds has a report of every unit. -/
theorem reports_of_success {options : Options} {signal : Signal} {bindings : Bindings}
    {units : List SourceUnit} {w : W} {summary : Summary}
    (hout : ((worker.run options signal bindings units).run w).1.1 = .ok summary)
    (hsuccess : summary.success = true) :
    ((worker.emitFor f bindings units).run w).1 = summary.reports.map .ok := by
  obtain ⟨results, hle, hrun, hgrown, hhalted⟩ := h.run_recorded hout
  have hlength := (Summary.success_iff hle hgrown hhalted).mp hsuccess
  have hreports : summary.reports = reportsOf results := hgrown.reports
  rw [hreports] at hlength
  have hmost := length_reportsOf_le results
  have hevery : (reportsOf results).length = results.length := by omega
  have hunits : units.take results.length = units := List.take_of_length_le (by omega)
  rw [hunits] at hrun
  rw [hrun, hreports]
  exact eq_map_of_length hevery

/-- A run that succeeds has no failures to tell of. -/
theorem failures_of_success {options : Options} {signal : Signal} {bindings : Bindings}
    {units : List SourceUnit} {w : W} {summary : Summary}
    (hout : ((worker.run options signal bindings units).run w).1.1 = .ok summary)
    (hsuccess : summary.success = true) : summary.failures = [] := by
  obtain ⟨_, _, _, hgrown, _⟩ := h.run_recorded hout
  have hcounted := (hgrown.counted ⟨rfl, rfl⟩).failures
  simp only [Summary.success, Bool.and_eq_true, beq_iff_eq] at hsuccess
  exact List.length_eq_zero_iff.mp (by omega)

/-- A run that is not cancelled succeeds exactly if every unit comes
through. -/
theorem run_success_iff (options : Options) (bindings : Bindings) (units : List SourceUnit)
    (w : W) :
    (∃ summary, ((worker.run options .never bindings units).run w).1.1 = .ok summary ∧
      summary.success = true) ↔
      Results.AllThrough ((worker.emitFor f bindings units).run w).1 := by
  constructor
  · rintro ⟨summary, hout, hsuccess⟩ result hresult
    rw [h.reports_of_success hout hsuccess] at hresult
    obtain ⟨report, _, hreport⟩ := List.mem_map.mp hresult
    exact ⟨report, hreport.symm⟩
  · intro hthrough
    obtain ⟨summary, bound, hrun, hsuccess⟩ := h.run_through options rfl hthrough
    rw [hrun]
    exact ⟨summary, rfl, hsuccess⟩

end Worker.Plain

end Batch

namespace Setup.Separates

variable {setup : Setup (StateM W)} {dest : Destination (StateM W)} {held : W → τ}
  (hapart : setup.Separates dest held)
include hapart

theorem processEach_results (bindings : Bindings) (units : List SourceUnit) (w : W) :
    ((setup.processEach dest bindings units).run w).1 =
      (((setup.quiet.worker dest).emitFor setup.prepared bindings units).run w).1 := by
  obtain ⟨hresults, _⟩ := hapart.processEach bindings units w w rfl
  rw [Setup.quiet_processEach] at hresults
  exact hresults

/-- A run that is not cancelled succeeds exactly if every unit comes through
when the units are taken all the way one by one, and then all of them are
done. -/
theorem run_success_iff (options : Options) (bindings : Bindings) (units : List SourceUnit)
    (w : W) :
    (∃ summary, ((Batch.run setup dest options .never bindings units).run w).1.1 = .ok summary ∧
      summary.success = true) ↔
      ∀ result ∈ ((setup.processEach dest bindings units).run w).1,
        ∃ report, result = .ok report ∧ report.trace.getLast? = some .done := by
  obtain ⟨hout, _⟩ := hapart.worker_quiet.run options .never bindings units w w rfl
  have hiff := (setup.quiet_plain dest).run_success_iff options bindings units w
  rw [← hout, ← hapart.processEach_results] at hiff
  refine hiff.trans ⟨?_, ?_⟩
  · intro hthrough result hresult
    obtain ⟨report, rfl⟩ := hthrough result hresult
    exact ⟨report, rfl, Setup.done_of_processEach rfl hresult⟩
  · intro hdone result hresult
    obtain ⟨report, hreport, _⟩ := hdone result hresult
    exact ⟨report, hreport⟩

/-- The reports of a run that succeeds are those of the units taken one by
one. -/
theorem reports_of_success {options : Options} {signal : Signal} {bindings : Bindings}
    {units : List SourceUnit} {w : W} {summary : Summary}
    (hout : ((Batch.run setup dest options signal bindings units).run w).1.1 = .ok summary)
    (hsuccess : summary.success = true) :
    ((setup.processEach dest bindings units).run w).1 = summary.reports.map .ok := by
  obtain ⟨hsame, _⟩ := hapart.worker_quiet.run options signal bindings units w w rfl
  rw [hapart.processEach_results]
  exact (setup.quiet_plain dest).reports_of_success
    ((congrArg Prod.fst hsame).symm.trans hout) hsuccess

theorem failures_of_success {options : Options} {signal : Signal} {bindings : Bindings}
    {units : List SourceUnit} {w : W} {summary : Summary}
    (hout : ((Batch.run setup dest options signal bindings units).run w).1.1 = .ok summary)
    (hsuccess : summary.success = true) : summary.failures = [] := by
  obtain ⟨hsame, _⟩ := hapart.worker_quiet.run options signal bindings units w w rfl
  exact (setup.quiet_plain dest).failures_of_success
    ((congrArg Prod.fst hsame).symm.trans hout) hsuccess

end Setup.Separates

end Recast
