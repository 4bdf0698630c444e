-- The files of a directory for the output. A unit whose file was written
-- before is refused, so every file in the list of written files holds the
-- text that the one successful call for it has put there.
import Recast.Proofs.MarkerMap
import Recast.Proofs.Session

namespace Recast

open Recast.Path (Component)

variable {δ : Type} {content : δ → List Component → Option String}

/-! ## Disks whose files are known by their steps -/

/-- The disk is a map from the steps of paths to texts. A text is written as
a whole or not at all, and making directories changes no text. -/
structure Disk.IsMap (disk : Disk (StateM δ)) (content : δ → List Component → Option String) :
    Prop where
  createDirs : ∀ p d, content ((disk.createDirs p).run.run d).2 = content d
  written : ∀ p text d d', (disk.write p text).run.run d = (.ok (), d') →
    ∀ steps, content d' steps = if steps = p.components then some text else content d steps
  refused : ∀ p text d d' e, (disk.write p text).run.run d = (.error e, d') →
    content d' = content d

namespace Disk.IsMap

variable {disk : Disk (StateM δ)} (h : disk.IsMap content)
include h

theorem writeWithDirs_ok {file : Path} {text : String} {d d' : δ}
    (hrun : (disk.writeWithDirs file text).run.run d = (.ok (), d')) (steps : List Component) :
    content d' steps = if steps = file.components then some text else content d steps := by
  unfold Disk.writeWithDirs at hrun
  split at hrun
  · exact h.written file text d d' hrun steps
  · rename_i parent _
    obtain ⟨_, d₁, hdirs, hwrite⟩ := attempt_bind_ok hrun
    have hsame := h.createDirs parent d
    rw [hdirs] at hsame
    rw [h.written file text d₁ d' hwrite steps, hsame]

theorem writeWithDirs_error {file : Path} {text : String} {d d' : δ} {e : IoFailure}
    (hrun : (disk.writeWithDirs file text).run.run d = (.error e, d')) : content d' = content d := by
  unfold Disk.writeWithDirs at hrun
  split at hrun
  · exact h.refused file text d d' e hrun
  · rename_i parent _
    have hsame := h.createDirs parent d
    rcases attempt_bind_error hrun with hdirs | ⟨_, d₁, hdirs, hwrite⟩
    · rw [hdirs] at hsame
      exact hsame
    · rw [hdirs] at hsame
      exact (h.refused file text d₁ d' e hwrite).trans hsame

end Disk.IsMap

/-! ## One call -/

/-- A text for a unit. -/
abbrev UnitText := TargetUnit × String

/-- Why a unit is refused whose file was written before. -/
def OutputDir.overwriting (dir : OutputDir) (unit : TargetUnit) : IoFailure :=
  .refused s!"{unit.path.text} would overwrite {(dir.pathFor unit).text}"

section

variable (disk : Disk (StateM δ)) (dir : OutputDir)

/-- A unit whose file was written before is refused, and nothing changes. -/
theorem write_again (unit : TargetUnit) (text : String) {s : Session δ}
    (h : s.written.has (dir.pathFor unit) = true) :
    ((Destination.directory disk.onMachine dir).write unit text).run.run s =
      (.error (dir.overwriting unit), s) := by
  have hget : (getThe Written : Attempt (StateM (Session δ)) IoFailure Written).run.run s =
      (.ok s.written, s) := rfl
  unfold Destination.directory
  dsimp only
  rw [attempt_bind_of_ok hget, if_pos h]
  rfl

/-- Another unit goes to its file. If that succeeds, the file is listed. -/
theorem write_new (unit : TargetUnit) (text : String) {s : Session δ}
    (h : s.written.has (dir.pathFor unit) = false) {result : Except IoFailure Unit} {d : δ}
    (hrun : (disk.writeWithDirs (dir.pathFor unit) text).run.run s.machine = (result, d)) :
    ((Destination.directory disk.onMachine dir).write unit text).run.run s = (result,
      { s with
        written := if result.isOk then ⟨s.written.paths ++ [dir.pathFor unit]⟩ else s.written
        machine := d }) := by
  have hget : (getThe Written : Attempt (StateM (Session δ)) IoFailure Written).run.run s =
      (.ok s.written, s) := rfl
  have hwrite : (disk.onMachine.writeWithDirs (dir.pathFor unit) text).run.run s =
      (result, { s with machine := d }) := by
    unfold Disk.onMachine
    rw [Session.ofMachine.disk_writeWithDirs]
    exact Session.run_ofMachine hrun
  unfold Destination.directory
  dsimp only
  rw [attempt_bind_of_ok hget, if_neg (by simp [h]), ExceptT.run_bind, run_bind_of hwrite]
  cases result with
  | ok _ => rfl
  | error e => rfl

end

/-! ## All calls -/

/-- Writes texts one after the other, whatever becomes of each. -/
def Destination.writeAll [Monad m] (dest : Destination m) :
    List UnitText → m (List (Except IoFailure Unit))
  | [] => return []
  | call :: calls => do
    let result ← (dest.write call.1 call.2).run
    let others ← dest.writeAll calls
    return result :: others

/-- The calls that succeeded. -/
def succeeded : List UnitText → List (Except IoFailure Unit) → List UnitText
  | call :: calls, .ok _ :: results => call :: succeeded calls results
  | _ :: calls, .error _ :: results => succeeded calls results
  | _, _ => []

/-- The listed files are those of the calls that succeeded so far, no two of
them are one file, and each holds the text of its call. -/
structure OutputDir.Keeps (dir : OutputDir) (content : δ → List Component → Option String)
    (calls : List UnitText) (s : Session δ) : Prop where
  listed : s.written.paths = calls.map fun call => dir.pathFor call.1
  apart : s.written.paths.Pairwise fun p q => p.same q = false
  held : ∀ call ∈ calls, content s.machine (dir.pathFor call.1).components = some call.2

namespace OutputDir.Keeps

variable {disk : Disk (StateM δ)} {dir : OutputDir} {done : List UnitText} {s : Session δ}

theorem not_listed {p q : Path} (h : s.written.has q = false) (hp : p ∈ s.written.paths) :
    p.same q = false := by
  simp only [Written.has, List.any_eq_false, Bool.not_eq_true] at h
  exact h p hp

/-- A call that fails changes nothing that is kept. -/
theorem failed (h : dir.Keeps content done s) {d : δ} (hd : content d = content s.machine) :
    dir.Keeps content done { s with machine := d } where
  listed := h.listed
  apart := h.apart
  held call hcall := by
    rw [hd]
    exact h.held call hcall

/-- A text goes to a file that is not listed, so it is in the place of none
of the others. -/
theorem added (h : dir.Keeps content done s) {call : UnitText}
    (hnew : s.written.has (dir.pathFor call.1) = false) {d : δ}
    (hd : ∀ steps, content d steps =
      if steps = (dir.pathFor call.1).components then some call.2 else content s.machine steps) :
    dir.Keeps content (done ++ [call])
      { s with written := ⟨s.written.paths ++ [dir.pathFor call.1]⟩, machine := d } where
  listed := by
    rw [List.map_append, ← h.listed]
    rfl
  apart := by
    rw [List.pairwise_append]
    refine ⟨h.apart, List.pairwise_singleton _ _, ?_⟩
    intro p hp q hq
    rw [List.mem_singleton.mp hq]
    exact not_listed hnew hp
  held := by
    intro other hother
    rw [hd]
    rcases List.mem_append.mp hother with hdone | hcall
    · have hlisted : dir.pathFor other.1 ∈ s.written.paths := by
        rw [h.listed]
        exact List.mem_map_of_mem hdone
      have hother := not_listed hnew hlisted
      rw [if_neg fun hsteps => by rw [Path.same_iff.mpr hsteps] at hother; cases hother]
      exact h.held other hdone
    · rw [List.mem_singleton.mp hcall, if_pos rfl]

/-- What one call keeps. -/
theorem write (hdisk : disk.IsMap content) (h : dir.Keeps content done s) (call : UnitText)
    {result : Except IoFailure Unit} {s' : Session δ}
    (hrun : ((Destination.directory disk.onMachine dir).write call.1 call.2).run.run s =
      (result, s')) : dir.Keeps content (done ++ succeeded [call] [result]) s' := by
  cases hhas : s.written.has (dir.pathFor call.1) with
  | true =>
    rw [write_again disk dir call.1 call.2 hhas] at hrun
    cases hrun
    simpa [succeeded] using h
  | false =>
    rcases hwrite : (disk.writeWithDirs (dir.pathFor call.1) call.2).run.run s.machine with
      ⟨written, d⟩
    rw [write_new disk dir call.1 call.2 hhas hwrite] at hrun
    cases hrun
    cases result with
    | ok _ => exact h.added hhas (hdisk.writeWithDirs_ok hwrite)
    | error e =>
      have hnone : done ++ succeeded [call] [.error e] = done := List.append_nil done
      rw [hnone]
      exact h.failed (hdisk.writeWithDirs_error hwrite)

/-- What all calls keep. The induction is on the calls that are left. -/
theorem writeAll (hdisk : disk.IsMap content) (h : dir.Keeps content done s)
    (calls : List UnitText) {results : List (Except IoFailure Unit)} {s' : Session δ}
    (hrun : ((Destination.directory disk.onMachine dir).writeAll calls).run s = (results, s')) :
    dir.Keeps content (done ++ succeeded calls results) s' := by
  induction calls generalizing done s results with
  | nil =>
    cases hrun
    simpa [succeeded] using h
  | cons call calls ih =>
    rcases hcall : ((Destination.directory disk.onMachine dir).write call.1 call.2).run.run s with
      ⟨result, s₁⟩
    rcases hrest : ((Destination.directory disk.onMachine dir).writeAll calls).run s₁ with
      ⟨others, s₂⟩
    unfold Destination.writeAll at hrun
    rw [run_bind_of hcall, run_bind_of hrest] at hrun
    cases hrun
    have hsplit : succeeded (call :: calls) (result :: others) =
        succeeded [call] [result] ++ succeeded calls others := by
      cases result with
      | ok _ => rfl
      | error e => rfl
    rw [hsplit, ← List.append_assoc]
    exact ih (h.write hdisk call hcall) hrest

end OutputDir.Keeps

/-- However many texts are written, and whichever of them are refused, the
list of written files has no file twice. A unit whose file is listed is
refused, and that changes nothing. The listed files are those of the calls
that succeeded, one for each, and every file still holds the text of its
call. -/
theorem no_text_is_lost_to_another (disk : Disk (StateM δ))
    (content : δ → List Component → Option String) (hdisk : disk.IsMap content) (dir : OutputDir)
    (calls : List UnitText) (s : Session δ) (hfresh : s.written = ⟨[]⟩) :
    let dest := Destination.directory disk.onMachine dir
    let results := ((dest.writeAll calls).run s).1
    let s' := ((dest.writeAll calls).run s).2
    s'.written.paths.Pairwise (fun p q => p.components ≠ q.components) ∧
    (∀ unit text, (∃ p ∈ s'.written.paths, p.components = (dir.pathFor unit).components) →
      (dest.write unit text).run.run s' = (.error (dir.overwriting unit), s')) ∧
    s'.written.paths = (succeeded calls results).map (fun call => dir.pathFor call.1) ∧
    ∀ call ∈ succeeded calls results,
      content s'.machine (dir.pathFor call.1).components = some call.2 := by
  intro dest results s'
  have hstart : dir.Keeps content [] s := by
    refine ⟨?_, ?_, ?_⟩
    · rw [hfresh]
      rfl
    · rw [hfresh]
      exact List.Pairwise.nil
    · intro call hcall
      cases hcall
  have hend : dir.Keeps content ([] ++ succeeded calls results) s' := hstart.writeAll hdisk calls rfl
  rw [List.nil_append] at hend
  refine ⟨?_, ?_, hend.listed, hend.held⟩
  · refine hend.apart.imp ?_
    intro p q hother hsame
    rw [Path.same_iff.mpr hsame] at hother
    cases hother
  · rintro unit text ⟨p, hp, hsame⟩
    refine write_again disk dir unit text ?_
    exact List.any_eq_true.mpr ⟨p, hp, Path.same_iff.mpr hsame⟩

/-! ## A disk with little room -/

/-- A disk that takes as many texts as the state says, and has them by the
steps of their paths. -/
def Disk.cards : Disk (StateM (Nat × List (List Component × String))) where
  read p := ExceptT.mk fun s => match s.2.lookup p.components with
    | some text => (.ok text, s)
    | none => (.error .notFound, s)
  present p := fun s => ((s.2.lookup p.components).isSome, s)
  write p text := ExceptT.mk fun
    | (0, cards) => (.error (.refused "disk full"), (0, cards))
    | (room + 1, cards) => (.ok (), (room, (p.components, text) :: cards))
  createDirs _ := pure ()

theorem Disk.cards_isMap : Disk.cards.IsMap fun s steps => s.2.lookup steps where
  createDirs _ _ := rfl
  written p text d d' h steps := by
    obtain ⟨room, cards⟩ := d
    cases room with
    | zero => cases h
    | succ room =>
      cases h
      rw [List.lookup_cons]
      by_cases hsteps : steps = p.components
      · simp [hsteps]
      · have hother : (steps == p.components) = false := by simpa using hsteps
        simp [hsteps, hother]
  refused p text d d' e h := by
    obtain ⟨room, cards⟩ := d
    cases room with
    | zero =>
      cases h
      rfl
    | succ room => cases h

/-- Four texts, of which the first two are for one file. -/
def fourTexts : List UnitText :=
  [({ TargetUnit.empty "a/Foo.java" with space := some "App" }, "first"),
    ({ TargetUnit.empty "b/Foo.unit.json" with space := some ".App" }, "second"),
    (TargetUnit.empty "Bar.java", "third"), (TargetUnit.empty "Baz.java", "fourth")]

/-- The four texts are written to a disk with room for two. -/
def fourWrites :
    List (Except IoFailure Unit) × Session (Nat × List (List Component × String)) :=
  ((Destination.directory Disk.cards.onMachine ⟨"out", "cs"⟩).writeAll fourTexts).run
    ⟨.empty, ⟨[]⟩, 2, []⟩

theorem two_of_four_texts_are_kept :
    fourWrites.1.map (·.isOk) = [true, false, true, false] ∧
      fourWrites.2.written.paths.map (·.text) = ["out/App/Foo.cs", "out/Bar.cs"] ∧
      (succeeded fourTexts fourWrites.1).map (·.2) = ["first", "third"] ∧
      ∀ call ∈ succeeded fourTexts fourWrites.1,
        fourWrites.2.machine.2.lookup ((OutputDir.mk "out" "cs").pathFor call.1).components =
          some call.2 := by
  obtain ⟨_, _, _, hheld⟩ := no_text_is_lost_to_another Disk.cards _ Disk.cards_isMap ⟨"out", "cs"⟩
    fourTexts ⟨.empty, ⟨[]⟩, 2, []⟩ rfl
  refine ⟨by decide +kernel, by decide +kernel, by decide +kernel, ?_⟩
  unfold fourWrites
  exact hheld

end Recast
