-- What the summary of a run tells. The units it records are the first
-- units of the input, in their order, one result for each; the counts fit
-- the lists; and nothing but the emit calls of these units has touched the
-- store and the destination.
import Recast.Proofs.World
import Recast.Proofs.Batch.Course

namespace Recast.Batch

variable {m : Type → Type} {W : Type}

/-! ## Results -/

/-- How units came out, in order. -/
abbrev Results := List (Except RunError Report)

/-- The reports among the results. -/
def reportsOf : Results → List Report
  | [] => []
  | .ok report :: results => report :: reportsOf results
  | .error _ :: results => reportsOf results

/-- The failures among the results, each with the path of its unit. -/
def failuresOf : List SourceUnit → Results → List (Path × String)
  | u :: units, .error e :: results => (u.path, e.message) :: failuresOf units results
  | _ :: units, .ok _ :: results => failuresOf units results
  | _, [] => []
  | [], _ => []

/-- Emits prepared units one after the other, and does nothing else. -/
def Worker.concludeAll [Monad m] (worker : Worker m) : List Prepared → m Results
  | [] => return []
  | q :: rest => do
    let result ← worker.conclude q
    let others ← worker.concludeAll rest
    return result :: others

theorem Worker.concludeAll_cons {worker : Worker (StateM W)} {q : Prepared} {rest : List Prepared}
    {result : Except RunError Report} {results : Results} {w w₁ w' : W}
    (hq : (worker.conclude q).run w = (result, w₁))
    (hrest : (worker.concludeAll rest).run w₁ = (results, w')) :
    (worker.concludeAll (q :: rest)).run w = (result :: results, w') := by
  unfold Worker.concludeAll
  rw [run_bind_of hq, run_bind_of hrest]
  rfl

/-- Each unit has one result, so each is a report or a failure. -/
theorem length_reportsOf_add_failuresOf (units : List SourceUnit) (results : Results)
    (h : results.length ≤ units.length) :
    (reportsOf results).length + (failuresOf units results).length = results.length := by
  induction results generalizing units with
  | nil => simp [reportsOf, failuresOf]
  | cons result results ih =>
    cases units with
    | nil => simp at h
    | cons u units =>
      have hrest := ih units (by simpa using h)
      cases result with
      | ok r => simp only [reportsOf, failuresOf, List.length_cons]; omega
      | error e => simp only [reportsOf, failuresOf, List.length_cons]; omega

theorem failuresOf_ne_nil {units : List SourceUnit} {results : Results} {e : RunError}
    (h : results.length ≤ units.length) (he : results.getLast? = some (.error e)) :
    failuresOf units results ≠ [] := by
  induction results generalizing units with
  | nil => simp at he
  | cons result results ih =>
    cases units with
    | nil => simp at h
    | cons u units =>
      cases result with
      | error e => simp [failuresOf]
      | ok r =>
        cases results with
        | nil => simp at he
        | cons result results =>
          rw [List.getLast?_cons_cons] at he
          exact ih (by simpa using h) he

/-! ## Summaries -/

/-- The counts are the lengths of the lists. -/
structure Summary.Counted (s : Summary) : Prop where
  reports : s.rendered + s.suppressed = s.reports.length
  failures : s.aborted + s.failed = s.failures.length

/-- The second summary is the first with some results recorded. -/
structure Summary.Grown (s s' : Summary) (units : List SourceUnit) (results : Results) :
    Prop where
  reports : s'.reports = s.reports ++ reportsOf results
  failures : s'.failures = s.failures ++ failuresOf units results
  counted : s.Counted → s'.Counted

theorem Summary.grown_nil (s : Summary) (units : List SourceUnit) (c : Bool) :
    s.Grown { s with cancelled := c } units [] := by
  refine ⟨?_, ?_, ?_⟩
  · simp [reportsOf]
  · simp [failuresOf]
  · intro h
    exact ⟨h.reports, h.failures⟩

theorem Summary.grown_record (s : Summary) (u : SourceUnit) (rest : List SourceUnit)
    (report : Report) : s.Grown (s.record report) (u :: rest) [.ok report] := by
  unfold Summary.record
  split
  all_goals
    refine ⟨by simp [reportsOf], by simp [failuresOf], fun h => ?_⟩
    have := h.reports
    exact ⟨by simp; omega, h.failures⟩

theorem Summary.grown_recordFailure (s : Summary) (u : SourceUnit) (rest : List SourceUnit)
    (e : RunError) : s.Grown (s.recordFailure u.path e) (u :: rest) [.error e] := by
  unfold Summary.recordFailure
  split
  all_goals
    refine ⟨by simp [reportsOf], by simp [failuresOf], fun h => ?_⟩
    have := h.failures
    exact ⟨h.reports, by simp; omega⟩

theorem Summary.Grown.cons {s s₁ s' : Summary} {u : SourceUnit} {rest : List SourceUnit}
    {result : Except RunError Report} {results : Results}
    (h₁ : s.Grown s₁ (u :: rest) [result]) (h : s₁.Grown s' rest results) :
    s.Grown s' (u :: rest) (result :: results) := by
  refine ⟨?_, ?_, fun hs => h.counted (h₁.counted hs)⟩
  · rw [h.reports, h₁.reports, List.append_assoc]
    cases result with
    | ok r => rfl
    | error e => rfl
  · rw [h.failures, h₁.failures, List.append_assoc]
    cases result with
    | ok r => simp [failuresOf]
    | error e => simp [failuresOf]

/-- A run that goes on or stops behind a unit has recorded its result. -/
theorem Worker.follow_grown {options : Options} {s s' : Summary} {u : SourceUnit}
    {result : Except RunError Report} (rest : List SourceUnit)
    (h : follow options s u result = .proceed s' ∨ follow options s u result = .stop s') :
    s.Grown s' (u :: rest) [result] ∧ s'.cancelled = s.cancelled := by
  cases result with
  | ok report =>
    simp only [follow, Next.proceed.injEq, reduceCtorEq, or_false] at h
    subst h
    refine ⟨s.grown_record u rest report, ?_⟩
    unfold Summary.record
    split <;> rfl
  | error e =>
    have hs : s' = s.recordFailure u.path e := by
      unfold follow at h
      dsimp only at h
      split at h
      · simp at h
      · split at h <;> simpa [eq_comm] using h
    subst hs
    refine ⟨s.grown_recordFailure u rest e, ?_⟩
    unfold Summary.recordFailure
    split <;> rfl

/-! ## The record of a course -/

/-- Why a run recorded no more units than it did. -/
inductive Halted (options : Options) (units : List SourceUnit) (s s' : Summary)
    (results : Results) : Prop
  | whole : results.length = units.length → s'.cancelled = s.cancelled →
      Halted options units s s' results
  | cancelled : results.length < units.length → s'.cancelled = true →
      Halted options units s s' results
  | failed (e : RunError) : options.keepGoing = false → results.getLast? = some (.error e) →
      s'.cancelled = s.cancelled → Halted options units s s' results

/-- The units that a course has recorded are the first of its entries, and
all of them were prepared. -/
theorem Ends.recorded {worker : Worker (StateM W)} {options : Options}
    {entries : List (SourceUnit × Option Prepared)} {s s' : Summary} {w w' : W}
    {out : Except RunError Summary} (h : Ends worker options entries s w out w')
    (ho : out = .ok s') :
    ∃ results qs, results.length ≤ entries.length ∧
      (entries.take results.length).map (·.2) = qs.map some ∧
      (worker.concludeAll qs).run w = (results, w') ∧
      s.Grown s' (entries.map (·.1)) results ∧
      Halted options (entries.map (·.1)) s s' results := by
  induction h with
  | done =>
    cases ho
    exact ⟨[], [], Nat.le_refl _, rfl, rfl, Summary.grown_nil _ _ _, .whole rfl rfl⟩
  | cancelled =>
    cases ho
    exact ⟨[], [], Nat.zero_le _, rfl, rfl, Summary.grown_nil _ _ _, .cancelled (by simp) rfl⟩
  | @stopped u q rest s s₁ w w₁ result hc hf =>
    cases ho
    obtain ⟨hg, hcan⟩ := Worker.follow_grown (rest.map (·.1)) (Or.inr hf)
    obtain ⟨hk, e, rfl⟩ := Worker.follow_stop hf
    exact ⟨[.error e], [q], by simp, rfl, Worker.concludeAll_cons hc rfl, hg,
      .failed e hk rfl hcan⟩
  | fatal => cases ho
  | @proceed u q rest s s₁ out w w₁ w₂ result hc hf _ ih =>
    obtain ⟨results, qs, hle, hqs, hrun, hg, hh⟩ := ih ho
    obtain ⟨hg₁, hcan⟩ := Worker.follow_grown (rest.map (·.1)) (Or.inl hf)
    refine ⟨result :: results, q :: qs, by simpa using hle, congrArg (some q :: ·) hqs,
      Worker.concludeAll_cons hc hrun, hg₁.cons hg, ?_⟩
    cases hh with
    | whole hl hc' => exact .whole (by simpa using hl) (hc'.trans hcan)
    | cancelled hl hc' => exact .cancelled (by simpa using hl) hc'
    | failed e hk hl hc' =>
      refine .failed e hk ?_ (hc'.trans hcan)
      cases results with
      | nil => simp at hl
      | cons r rs => rw [List.getLast?_cons_cons]; exact hl

/-! ## The calls behind a record -/

/-- The calls that have prepared the first units of a run. -/
structure FirstCalls (f : Preparing) (options : Options) (order : List Nat) (bindings : Bindings)
    (units : List SourceUnit) (n : Nat) (calls : List Call) : Prop where
  first : calls.map (·.unit) = units.take n
  made : ∃ taken, taken.Sublist (takenUp options order units) ∧
    ∀ call ∈ calls, call ∈ callsFor f bindings taken
  inOrder : InOrder options order units → calls = callsFor f bindings (units.take n)

/-- What was prepared of the first units was prepared by calls for them. -/
theorem PreparedIn.firstCalls {f : Preparing} {options : Options} {order : List Nat}
    {bindings : Bindings} {units : List SourceUnit}
    {entries : List (SourceUnit × Option Prepared)}
    (h : PreparedIn f options order bindings units entries) {n : Nat} {qs : List Prepared}
    (hqs : (entries.take n).map (·.2) = qs.map some) :
    ∃ calls, FirstCalls f options order bindings units n calls ∧ qs = calls.map (·.prepared f) := by
  have hprepared : ∀ calls : List Call, entries.take n = calls.map (·.entry f) →
      qs = calls.map (·.prepared f) := by
    intro calls hcalls
    rw [hcalls] at hqs
    exact (prepared_of_entries hqs).symm
  have hfirst : ∀ calls : List Call, entries.take n = calls.map (·.entry f) →
      calls.map (·.unit) = units.take n := by
    intro calls hcalls
    rw [← h.ofUnits, ← List.map_take, hcalls, List.map_map]
    rfl
  obtain ⟨taken, htaken, hmade⟩ := h.calls
  by_cases hin : InOrder options order units
  · have hcalls : entries.take n = (callsFor f bindings (units.take n)).map (·.entry f) := by
      rw [h.inOrder hin, callsFor_take, List.map_take]
    refine ⟨_, ⟨hfirst _ hcalls, ⟨units.take n, ?_, fun _ hc => hc⟩, fun _ => rfl⟩,
      hprepared _ hcalls⟩
    rw [takenUp_inOrder hin]
    exact List.take_sublist n units
  · have hall : ∀ entry ∈ entries.take n, entry ∈ (callsFor f bindings taken).map (·.entry f) :=
      fun entry he => hmade entry (List.mem_of_mem_take he) (isSome_of_prepared hqs entry he)
    obtain ⟨calls, hcalls, hof⟩ := exists_calls hall
    exact ⟨calls, ⟨hfirst calls hcalls, ⟨taken, htaken, hof⟩, fun h => absurd h hin⟩,
      hprepared calls hcalls⟩

/-- What a course has recorded was prepared by calls for the first units. -/
theorem Ends.recorded_calls {worker : Worker (StateM W)} {f : Preparing} {options : Options}
    {order : List Nat} {bindings : Bindings} {units : List SourceUnit}
    {entries : List (SourceUnit × Option Prepared)} {s s' : Summary} {w w' : W}
    {out : Except RunError Summary} (h : Ends worker options entries s w out w')
    (hentries : PreparedIn f options order bindings units entries) (ho : out = .ok s') :
    ∃ results calls, results.length ≤ units.length ∧
      FirstCalls f options order bindings units results.length calls ∧
      (worker.concludeAll (calls.map (·.prepared f))).run w = (results, w') ∧
      s.Grown s' units results ∧ Halted options units s s' results := by
  obtain ⟨results, qs, hle, hqs, hrun, hg, hh⟩ := h.recorded ho
  obtain ⟨calls, hcalls, rfl⟩ := hentries.firstCalls hqs
  have hlength : entries.length = units.length := by rw [← hentries.ofUnits, List.length_map]
  rw [hentries.ofUnits] at hg hh
  rw [hlength] at hle
  exact ⟨results, calls, hle, hcalls, hrun, hg, hh⟩

/-- Success means that every unit has a report. -/
theorem Summary.success_iff {options : Options} {units : List SourceUnit} {s : Summary}
    {results : Results} (hle : results.length ≤ units.length)
    (hg : Summary.empty.Grown s units results) (hh : Halted options units .empty s results) :
    s.success = true ↔ s.reports.length = units.length := by
  have hcounted := hg.counted ⟨rfl, rfl⟩
  have hlen := length_reportsOf_add_failuresOf units results hle
  have hr : s.reports = reportsOf results := hg.reports
  have hf : s.failures = failuresOf units results := hg.failures
  have hfail := hcounted.failures
  rw [hf] at hfail
  simp only [Summary.success, Bool.and_eq_true, beq_iff_eq, Bool.not_eq_true']
  rw [hr]
  constructor
  · rintro ⟨⟨ha, hfl⟩, hc⟩
    cases hh with
    | whole hl _ => omega
    | cancelled _ hc' => rw [hc] at hc'; cases hc'
    | failed e _ he _ =>
      have := failuresOf_ne_nil hle he
      exact absurd (List.length_eq_zero_iff.mp (by omega)) this
  · intro hl
    refine ⟨⟨by omega, by omega⟩, ?_⟩
    cases hh with
    | whole _ hc => exact hc
    | cancelled hlt _ => omega
    | failed e _ _ hc => exact hc

/-- Emits what the calls for these units prepare. -/
def Worker.emitFor [Monad m] (worker : Worker m) (f : Preparing) (bindings : Bindings)
    (units : List SourceUnit) : m Results :=
  worker.concludeAll ((callsFor f bindings units).map (·.prepared f))

/-- What a run that takes the units up as they come has recorded. -/
theorem Worker.Plain.run_recorded {worker : Worker (StateM W)} {f : Preparing}
    (h : worker.Plain f) {options : Options} {signal : Signal} {bindings : Bindings}
    {units : List SourceUnit} {summary : Summary} {w : W}
    (hout : ((worker.run options signal bindings units).run w).1.1 = .ok summary) :
    ∃ results, results.length ≤ units.length ∧
      (worker.emitFor f bindings (units.take results.length)).run w =
        (results, ((worker.run options signal bindings units).run w).2) ∧
      Summary.empty.Grown summary units results ∧
      Halted options units .empty summary results := by
  have hin : InOrder options (List.range units.length) units := .inr rfl
  obtain ⟨results, calls, hle, hcalls, hrun, hg, hh⟩ :=
    (h.run_ends options signal bindings units w).recorded_calls (preparedIn_callsFor hin) hout
  rw [hcalls.inOrder hin] at hrun
  exact ⟨results, hle, hrun, hg, hh⟩

/-! ## Runs with lines -/

theorem Worker.Alike.concludeAll {V : Type} {R : V → W → Prop} {worker : Worker (StateM V)}
    {other : Worker (StateM W)} (h : worker.Alike R other) (qs : List Prepared) :
    Recast.Alike R (worker.concludeAll qs) (other.concludeAll qs) := by
  induction qs with
  | nil => exact Recast.Alike.pure _
  | cons q rest ih =>
    apply (h.conclude q).bind
    intro result
    exact ih.bind fun _ => Recast.Alike.pure _

end Recast.Batch

namespace Recast

open Batch

variable {W τ : Type}

/-- The emit calls for the units of these calls, in order, and nothing else. -/
def Setup.emitEach [Monad m] (setup : Setup m) (dest : Destination m) (calls : List Call) :
    m Results :=
  (setup.worker dest).concludeAll (calls.map (·.prepared setup.prepared))

/-- A report is that of its unit. -/
theorem Setup.path_of_emitEach {setup : Setup (StateM W)} {dest : Destination (StateM W)}
    {calls : List Call} {results : Results} {w w' : W}
    (h : (setup.emitEach dest calls).run w = (results, w')) :
    ∀ u report, (u, .ok report) ∈ (calls.map (·.unit)).zip results → report.path = u.path := by
  unfold Setup.emitEach at h
  induction calls generalizing results w with
  | nil => simp
  | cons call rest ih =>
    rcases hcall : ((setup.worker dest).conclude (call.prepared setup.prepared)).run w with
      ⟨result, w₁⟩
    rcases hrest : ((setup.worker dest).concludeAll
      (rest.map (·.prepared setup.prepared))).run w₁ with ⟨others, w₂⟩
    rw [List.map_cons, Worker.concludeAll_cons hcall hrest] at h
    cases h
    intro u report hmem
    rw [List.map_cons, List.zip_cons_cons, List.mem_cons] at hmem
    rcases hmem with heq | hmem
    · cases heq
      cases hp : call.prepared setup.prepared with
      | error e =>
        rw [hp] at hcall
        cases hcall
      | ok pending =>
        rw [hp] at hcall
        rw [Setup.path_of_emit hcall, setup.path_of_prepared call.bindings call.unit hp]
    · exact ih hrest u report hmem

/-- A run that gives a summary has recorded the first units of its input,
each with its own result, in whatever order units are prepared. It recorded
all of them unless it was cancelled or stopped at a failure. The store and
the destination are as the emit calls of the recorded units left them, as
long as the lines of the run leave alone what these go by. -/
theorem a_run_records_the_first_units (setup : Setup (StateM W)) (dest : Destination (StateM W))
    (held : W → τ) (hapart : setup.Separates dest held) (order : List Nat) (options : Options)
    (signal : Signal) (bindings bound : Bindings) (units : List SourceUnit) (summary : Summary)
    (w w' : W)
    (h : (Batch.runIn setup dest order options signal bindings units).run w =
      ((.ok summary, bound), w')) :
    ∃ (results : Results) (calls : List Call) (w₁ : W),
      results.length ≤ units.length ∧
      summary.reports = reportsOf results ∧
      summary.failures = failuresOf units results ∧
      (∀ u report, (u, .ok report) ∈ units.zip results → report.path = u.path) ∧
      summary.rendered + summary.suppressed = summary.reports.length ∧
      summary.aborted + summary.failed = summary.failures.length ∧
      (results.length = units.length ∨ summary.cancelled = true ∨
        (options.keepGoing = false ∧ ∃ e, results.getLast? = some (.error e))) ∧
      (summary.success = true ↔ summary.reports.length = units.length) ∧
      FirstCalls setup.prepared options order bindings units results.length calls ∧
      (setup.emitEach dest calls).run w = (results, w₁) ∧ held w' = held w₁ := by
  have halike := hapart.worker_quiet
  obtain ⟨entries, hentries, hends⟩ :=
    (setup.quiet_plain dest).runIn_ends options signal order bindings units w
  obtain ⟨hout, hheld⟩ := halike.runIn options signal order bindings units w w rfl
  unfold Batch.runIn at h
  rw [h] at hout hheld
  rw [← hout] at hends
  obtain ⟨results, calls, hle, hcalls, hquiet, hg, hh⟩ := hends.recorded_calls hentries rfl
  have hcounted := hg.counted ⟨rfl, rfl⟩
  -- the emit calls of the recorded units, now with their lines
  have hlines := halike.concludeAll (calls.map (·.prepared setup.prepared)) w w rfl
  rcases hemit : (setup.emitEach dest calls).run w with ⟨results', w₁⟩
  unfold Setup.emitEach at hemit
  rw [hquiet, hemit] at hlines
  obtain ⟨rfl, hheld₁⟩ := hlines
  have hzip : units.zip results' = (calls.map (·.unit)).zip results' := by
    rw [hcalls.first, @List.zip_eq_zip_take_min _ _ units results', Nat.min_eq_right hle,
      List.take_length]
  refine ⟨results', calls, w₁, hle, hg.reports, hg.failures, ?_, hcounted.reports,
    hcounted.failures, ?_, Summary.success_iff hle hg hh, hcalls, hemit, hheld.trans hheld₁.symm⟩
  · rw [hzip]
    exact Setup.path_of_emitEach hemit
  · cases hh with
    | whole hl _ => exact Or.inl hl
    | cancelled _ hc => exact Or.inr (Or.inl hc)
    | failed e hk hl _ => exact Or.inr (Or.inr ⟨hk, e, hl⟩)

/-- Of three units, the first has nothing to print, and the text of the
second is refused. -/
def refusedUnits : List SourceUnit := [.empty "A", .ofClass "B" "B" [], .ofClass "C" "C" []]

theorem a_run_that_stops_records_two_of_three_units :
    ∃ (summary : Summary) (bound : Bindings) (w' : World Unit MarkerMap) (results : Results),
      (Batch.runIn (World.setup ⟨"", false, true, .log⟩ .headerOnly .nowhere .memory)
        Destination.full.onRest [2, 0, 1] ⟨true, false⟩ .never .empty refusedUnits).run
        ⟨(), .empty⟩ = ((.ok summary, bound), w') ∧
      summary.reports.map (·.path.text) = ["A"] ∧ summary.failures.map (·.1.text) = ["B"] ∧
      summary.reports = reportsOf results ∧ summary.failures = failuresOf refusedUnits results ∧
      (summary.success = true ↔ summary.reports.length = refusedUnits.length) := by
  obtain ⟨results, _, _, _, hreports, hfailures, _, _, _, _, hsuccess, _, _, _⟩ :=
    a_run_records_the_first_units (World.setup ⟨"", false, true, .log⟩ .headerOnly .nowhere .memory)
      Destination.full.onRest World.rest (World.separates _ _ _ _ _) [2, 0, 1] ⟨true, false⟩ .never
      .empty _ refusedUnits _ (⟨(), .empty⟩ : World Unit MarkerMap) _ rfl
  exact ⟨_, _, _, results, rfl, rfl, rfl, hreports, hfailures, hsuccess⟩

end Recast
