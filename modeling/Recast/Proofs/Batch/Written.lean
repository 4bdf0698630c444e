-- The lines that a run writes. On a stream that takes every text, the
-- problems of all prepared units are written once each, but for those that
-- the ledger of the run still owes at its end.
import Recast.Proofs.World
import Recast.Proofs.Batch.Ledger

namespace Recast

open Batch

variable {W : Type}

/-! ## Lines on a page -/

/-- The problems that are recorded in these calls. -/
def Setup.recordedIn {m : Type → Type} (setup : Setup m) (calls : List Call) : List Problem :=
  calls.flatMap fun call => setup.recorded call.bindings call.unit

/-- Between two states, the lines of these problems were written, each
once. -/
def Wrote (text : W → String) (w w' : W) (ps : List Problem) : Prop :=
  ∃ written : List Problem, written.Perm ps ∧ text w' = text w ++ linesText written

/-- What was written since the start and what is owed are the problems of
all calls. -/
structure Setup.Owes (setup : Setup (StateM W)) (text : W → String) (start : W)
    (calls : List Call) (owed : List Problem) (s : W × List Call) : Prop where
  log : s.2 = calls
  written : ∃ written : List Problem, (written ++ owed).Perm (setup.recordedIn calls) ∧
    text s.1 = text start ++ linesText written

theorem Setup.recordedIn_snoc {m : Type → Type} (setup : Setup m) (calls : List Call)
    (call : Call) : setup.recordedIn (calls ++ [call]) =
      setup.recordedIn calls ++ setup.recorded call.bindings call.unit := by
  simp [Setup.recordedIn]

theorem Wrote.perm {text : W → String} {w w' : W} {ps qs : List Problem} (h : Wrote text w w' ps)
    (hperm : ps.Perm qs) : Wrote text w w' qs := by
  obtain ⟨written, hwritten, htext⟩ := h
  exact ⟨written, hwritten.trans hperm, htext⟩

/-- A line that was not written is missing on the page. -/
theorem Wrote.nothing_else {text : W → String} {w w' : W} {said lost all : List Problem}
    (hsaid : Wrote text w w' said) (hall : Wrote text w w' all) (h : (said ++ lost).Perm all) :
    lost = [] := by
  obtain ⟨written, hwritten, htext⟩ := hsaid
  obtain ⟨written', hwritten', htext'⟩ := hall
  have hpage : (linesText written).length = (linesText written').length := by
    have hlength := congrArg String.length (htext.symm.trans htext')
    rw [String.length_append, String.length_append] at hlength
    omega
  have hlines : (linesText said).length = (linesText said).length + (linesText lost).length := by
    calc (linesText said).length
        = (linesText written).length := (length_linesText_perm hwritten).symm
      _ = (linesText written').length := hpage
      _ = (linesText (said ++ lost)).length := length_linesText_perm (hwritten'.trans h.symm)
      _ = (linesText said).length + (linesText lost).length := by
        rw [linesText_append, String.length_append]
  have hlost := length_le_linesText lost
  exact List.length_eq_zero_iff.mp (by omega)

namespace Setup.Owes

variable {setup : Setup (StateM W)} {text : W → String} {start : W} {calls : List Call}
  {owed : List Problem} {w w' : W} {log : List Call}

theorem perm {owed' : List Problem} {s : W × List Call} (h : setup.Owes text start calls owed s)
    (hperm : owed.Perm owed') : setup.Owes text start calls owed' s := by
  obtain ⟨written, hwritten, htext⟩ := h.written
  exact ⟨h.log, written, (hperm.symm.append_left written).trans hwritten, htext⟩

/-- What was owed and is written is owed no more. -/
theorem pay {paid : List Problem} (h : setup.Owes text start calls (paid ++ owed) (w, log))
    (hw : text w' = text w ++ linesText paid) : setup.Owes text start calls owed (w', log) := by
  obtain ⟨written, hperm, htext⟩ := h.written
  refine ⟨h.log, written ++ paid, ?_, ?_⟩
  · rw [List.append_assoc]
    exact hperm
  · rw [hw, htext, linesText_append, String.append_assoc]

/-- A call that writes nothing leaves its problems owed. -/
theorem borrow (h : setup.Owes text start calls owed (w, log)) (call : Call)
    (hw : text w' = text w) :
    setup.Owes text start (calls ++ [call]) (owed ++ setup.recorded call.bindings call.unit)
      (w', log ++ [call]) := by
  obtain ⟨written, hperm, htext⟩ := h.written
  refine ⟨congrArg (· ++ [call]) h.log, written, ?_, hw.trans htext⟩
  rw [Setup.recordedIn_snoc, ← List.append_assoc]
  exact hperm.append_right _

/-- A call that writes its problems owes as much as before. -/
theorem written_at_once (h : setup.Owes text start calls owed (w, log)) (call : Call)
    (hw : text w' = text w ++ linesText (setup.recorded call.bindings call.unit)) :
    setup.Owes text start (calls ++ [call]) (owed ++ []) (w', log ++ [call]) := by
  rw [List.append_nil]
  exact ((h.borrow call rfl).perm List.perm_append_comm).pay hw

end Setup.Owes

namespace Setup.LinesOn

variable {setup : Setup (StateM W)} {dest : Destination (StateM W)} {text : W → String}
  (h : setup.LinesOn dest text)
include h

/-- The books of a setup, when its stream takes every text. -/
theorem ledger (start : W) :
    (setup.worker dest).logged.Ledger setup.prepared (setup.Owes text start) where
  perm _ _ _ _ hperm howes := howes.perm hperm
  prepare calls owed bindings u := by
    rintro ⟨w, log⟩ howes
    have hpage := h.prepare bindings u w rfl
    rcases hrun : (setup.prepare bindings u).run w with ⟨result, w₁⟩
    rw [hrun] at hpage
    obtain ⟨hresult, hpage⟩ := hpage
    have hlogged : ((setup.worker dest).logged.prepare bindings u).run (w, log) =
        (result, (w₁, log ++ [⟨u, bindings⟩])) := Worker.run_logged_prepare log hrun
    rw [hlogged]
    refine ⟨hresult, ?_⟩
    rcases result with ⟨prepared | prepared, bound⟩
    · exact howes.written_at_once ⟨u, bindings⟩ hpage
    · have hheld := Setup.problems_of_prepared _ bindings u (congrArg Prod.fst hresult).symm
      have hcall := howes.borrow ⟨u, bindings⟩ hpage
      rw [← hheld] at hcall
      exact hcall
  emit calls owed pending := by
    rintro ⟨w, log⟩ howes
    have hpage := h.emit pending w rfl
    rcases hrun : (setup.emit dest pending).run.run w with ⟨result, w₁⟩
    rw [hrun] at hpage
    have hlogged : ((setup.worker dest).logged.emit pending).run (w, log) =
        (result, (w₁, log)) := run_noting_nothing log hrun
    rw [hlogged]
    refine ⟨?_, howes.pay hpage⟩
    cases result with
    | ok report => rfl
    | error e => exact Setup.emit_not_fatal hrun
  discard calls owed pending := by
    rintro ⟨w, log⟩ howes
    have hpage := h.discard pending w rfl
    rcases hrun : (setup.discard pending).run w with ⟨problems, w₁⟩
    rw [hrun] at hpage
    have hlogged : ((setup.worker dest).logged.discard pending).run (w, log) =
        (problems, (w₁, log)) := run_noting_nothing log hrun
    rw [hlogged]
    exact howes.pay hpage

/-- A run has written what its calls recorded, but for what it leaves
unsaid. -/
theorem run_wrote {options : Options} {signal : Signal} {order : List Nat} {bindings : Bindings}
    {units : List SourceUnit} {w w' : W} {calls : List Call}
    {out : Except RunError Summary × Bindings}
    (hrun : ((setup.worker dest).logged.runIn options signal order bindings units).run (w, []) =
      (out, (w', calls))) :
    ∃ arranged said, Arranged options order units calls arranged ∧ Wrote text w w' said ∧
      (said ++ unsaid options (arranged.map (·.entry setup.prepared)) out.1).Perm
        (setup.recordedIn calls) := by
  have hstart : setup.Owes text w [] [] (w, []) :=
    ⟨rfl, [], List.Perm.refl _, String.append_empty.symm⟩
  have hend := (h.ledger w).runIn options signal order bindings units _ hstart
  rw [hrun] at hend
  obtain ⟨log, arranged, harranged, hlog, said, hperm, htext⟩ := hend
  cases hlog
  exact ⟨arranged, said, harranged, ⟨said, List.Perm.refl _, htext⟩, hperm⟩

/-- A run that no error breaks off has written all that its calls
recorded. -/
theorem run_wrote_all {options : Options} {signal : Signal} {order : List Nat}
    {bindings bound : Bindings} {units : List SourceUnit} {w w' : W} {calls : List Call}
    {out : Except RunError Summary}
    (hrun : ((setup.worker dest).logged.runIn options signal order bindings units).run (w, []) =
      ((out, bound), (w', calls))) (hok : out.isOk) :
    Wrote text w w' (setup.recordedIn calls) := by
  obtain ⟨arranged, said, _, hsaid, hperm⟩ := h.run_wrote hrun
  cases out with
  | error e => cases hok
  | ok summary =>
    have hall := hsaid.perm (List.Perm.of_eq (List.append_nil said).symm)
    exact hall.perm hperm

end Setup.LinesOn

/-- In whatever order units are prepared, the problems of each of them are
written once, but for those that are left unsaid: a run that prepares all
units first and breaks off at one of them never writes what the units behind
it hold. -/
theorem a_run_writes_all_but_what_it_leaves_unsaid (setup : Setup (StateM W))
    (dest : Destination (StateM W)) (text : W → String) (order : List Nat) (options : Options)
    (signal : Signal) (bindings : Bindings) (units : List SourceUnit) (w w' : W)
    (calls : List Call) (out : Except RunError Summary × Bindings)
    (hlines : setup.LinesOn dest text)
    (hrun : ((setup.worker dest).logged.runIn options signal order bindings units).run (w, []) =
      (out, (w', calls))) :
    (Batch.runIn setup dest order options signal bindings units).run w = (out, w') ∧
    ∃ arranged, Arranged options order units calls arranged ∧
      let lost := unsaid options (arranged.map (·.entry setup.prepared)) out.1
      (∃ said, Wrote text w w' said ∧ (said ++ lost).Perm (setup.recordedIn calls)) ∧
      (Wrote text w w' (setup.recordedIn calls) ↔ lost = []) := by
  obtain ⟨arranged, said, harranged, hsaid, hperm⟩ := hlines.run_wrote hrun
  refine ⟨Worker.runIn_of_noting _ _ hrun, arranged, harranged, ⟨said, hsaid, hperm⟩, ?_, ?_⟩
  · intro hall
    exact hsaid.nothing_else hall hperm
  · intro hlost
    rw [hlost, List.append_nil] at hperm
    exact hsaid.perm hperm

/-! ## A line that is lost -/

/-- A setup that writes its lines to a buffer. -/
def bufferSetup : Setup (StateM (World String Unit)) :=
  World.setup ⟨"", false, false, .log⟩ .headerOnly .buffer .nowhere

theorem bufferSetup_linesOn : bufferSetup.LinesOn (Destination.stream .nowhere).onRest World.page :=
  World.linesOn _ _ _ _ TextStream.buffer_keeps

/-- Four units, of which the second and the third bind one name. The first
and the last have a warning each. -/
def clashingUnits : List SourceUnit :=
  [.ofClass "A" "A" [.lossyField], .ofClass "B" "B" [], .ofClass "C" "B" [],
    .ofClass "D" "D" [.lossyField]]

/-- A run over the four units, all of them prepared first. -/
def clashingRun : (Except RunError Summary × Bindings) × (World String Unit × List Call) :=
  ((bufferSetup.worker (Destination.stream .nowhere).onRest).logged.runIn ⟨true, true⟩ .never
    [0, 1, 2, 3] .empty clashingUnits).run (⟨"", ()⟩, [])

/-- The warning of the last of the four units. -/
def lastWarning : Problem :=
  ⟨.warning, "anonymous class of 'T' is not supported", "D", 1, 0, 1⟩

theorem a_clash_leaves_the_last_warning_unsaid :
    unsaid ⟨true, true⟩ (clashingRun.2.2.map (·.entry bufferSetup.prepared)) clashingRun.1.1 =
        [lastWarning] ∧
      ∃ said, Wrote World.page ⟨"", ()⟩ clashingRun.2.1 said ∧
        (said ++ [lastWarning]).Perm (bufferSetup.recordedIn clashingRun.2.2) := by
  obtain ⟨_, arranged, harranged, hsaid, _⟩ :=
    a_run_writes_all_but_what_it_leaves_unsaid bufferSetup (Destination.stream .nowhere).onRest
      World.page [0, 1, 2, 3] ⟨true, true⟩ .never .empty clashingUnits ⟨"", ()⟩ _ _ _
      bufferSetup_linesOn rfl
  have hcalls : arranged = clashingRun.2.2 := harranged.inOrder (.inr rfl)
  rw [hcalls] at hsaid
  exact ⟨rfl, hsaid⟩

/-- The last unit was prepared, and its warning is not on the page. -/
theorem a_run_that_breaks_off_loses_a_line :
    clashingRun.2.2.map (·.unit.path.text) = ["A", "B", "C", "D"] ∧
      lastWarning ∈ bufferSetup.recordedIn clashingRun.2.2 ∧
      clashingRun.2.1.page = "A(1): anonymous class of 'T' is not supported\n" ∧
      ¬ Wrote World.page ⟨"", ()⟩ clashingRun.2.1 (bufferSetup.recordedIn clashingRun.2.2) := by
  have hrecorded : bufferSetup.recordedIn clashingRun.2.2 =
      [{ lastWarning with path := "A" }] ++ [lastWarning] := rfl
  refine ⟨rfl, ?_, rfl, ?_⟩
  · rw [hrecorded]
    simp
  · intro hall
    rw [hrecorded] at hall
    have hsaid : Wrote World.page ⟨"", ()⟩ clashingRun.2.1 [{ lastWarning with path := "A" }] :=
      ⟨_, List.Perm.refl _, rfl⟩
    have hlost := hsaid.nothing_else hall (List.Perm.refl _)
    cases hlost

end Recast
