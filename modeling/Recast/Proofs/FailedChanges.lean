-- Changes of a marker file that fail. The store takes a change before it
-- writes the file, and it does not take it back when the file cannot be
-- written. So a change that failed shows in what is written later, and it
-- does so until the markers of its unit are cleared.
import Recast.Proofs.MarkerFile

namespace Recast

variable {δ : Type}

/-! ## Maps without the entry of a unit -/

namespace MarkerMap

variable {m m' : MarkerMap} {unit other : Path}

theorem clear_congr (m : MarkerMap) (h : unit.same other = true) :
    m.clear unit = m.clear other := by
  have hsame : ∀ e : Path × List Marker, e.1.same unit = e.1.same other := by
    intro e
    rw [Path.same_comm, Path.same_trans h, Path.same_comm]
  simp only [clear, hsame]

theorem clear_comm (m : MarkerMap) (unit other : Path) :
    (m.clear unit).clear other = (m.clear other).clear unit := by
  simp only [clear, List.filter_filter, Bool.and_comm]

@[simp] theorem clear_clear (m : MarkerMap) (unit : Path) :
    (m.clear unit).clear unit = m.clear unit := by
  simp [clear, List.filter_filter]

theorem alterIn_of_lt {f : Option (List Marker) → List Marker}
    {entries : List (Path × List Marker)} (h : ∀ e ∈ entries, unit.compare e.1 = .lt) :
    alterIn unit f entries = (unit, f none) :: entries := by
  cases entries with
  | nil => rfl
  | cons entry rest =>
    obtain ⟨p, ms⟩ := entry
    have hlt : unit.compare p = .lt := h (p, ms) List.mem_cons_self
    simp [alterIn, hlt]

/-- Without the unit, nothing is seen of what was done to it. -/
theorem filter_alterIn_same (f : Option (List Marker) → List Marker)
    (h : unit.same other = true) (entries : List (Path × List Marker)) :
    (alterIn unit f entries).filter (fun e => !e.1.same other) =
      entries.filter fun e => !e.1.same other := by
  induction entries with
  | nil => simp [alterIn, h]
  | cons entry rest ih =>
    obtain ⟨p, ms⟩ := entry
    unfold alterIn
    split
    · simp [h]
    · rename_i heq
      have hp : p.same other = true := by
        rw [← Path.same_trans (Path.compare_eq_iff.mp heq)]
        exact h
      simp [hp]
    · rw [List.filter_cons, List.filter_cons, ih]

/-- What is done to another unit is done in the same way without the unit. -/
theorem filter_alterIn_other (f : Option (List Marker) → List Marker)
    (h : unit.same other = false) {entries : List (Path × List Marker)}
    (hs : entries.Pairwise fun a b => a.1.compare b.1 = .lt) :
    (alterIn unit f entries).filter (fun e => !e.1.same other) =
      alterIn unit f (entries.filter fun e => !e.1.same other) := by
  induction entries with
  | nil => simp [alterIn, h]
  | cons entry rest ih =>
    obtain ⟨p, ms⟩ := entry
    obtain ⟨hp, hrest⟩ := List.pairwise_cons.mp hs
    cases hcmp : unit.compare p with
    | lt =>
      have hall : ∀ e ∈ (p, ms) :: rest, unit.compare e.1 = .lt := by
        intro e he
        rcases List.mem_cons.mp he with rfl | he
        · exact hcmp
        · exact Path.compare_lt_trans hcmp (hp e he)
      have hkept : ∀ e ∈ ((p, ms) :: rest).filter (fun e => !e.1.same other),
          unit.compare e.1 = .lt := fun e he => hall e (List.mem_filter.mp he).1
      rw [alterIn_of_lt hall, alterIn_of_lt hkept]
      simp [h]
    | eq =>
      have hother : p.same other = false := by
        rw [← Path.same_trans (Path.compare_eq_iff.mp hcmp)]
        exact h
      simp [alterIn, hcmp, hother]
    | gt =>
      have hstep : alterIn unit f ((p, ms) :: rest) = (p, ms) :: alterIn unit f rest := by
        simp [alterIn, hcmp]
      rw [hstep, List.filter_cons, List.filter_cons, ih hrest]
      cases p.same other <;> simp [alterIn, hcmp]

theorem clear_add_same (m : MarkerMap) (marker : Marker) (h : unit.same other = true) :
    (m.add unit marker).clear other = m.clear other :=
  congrArg MarkerMap.mk (filter_alterIn_same _ h m.entries)

theorem clear_add_other (hs : m.Sorted) (marker : Marker) (h : unit.same other = false) :
    (m.add unit marker).clear other = (m.clear other).add unit marker :=
  congrArg MarkerMap.mk (filter_alterIn_other _ h hs)

end MarkerMap

/-! ## Changes seen from a unit -/

namespace Change

/-- The unit whose markers are changed. -/
def unit : Change → Path
  | .clear unit => unit
  | .add unit _ => unit

/-- Whether the markers of a path are cleared. -/
def clears (p : Path) : Change → Bool
  | .clear unit => p.same unit
  | .add _ _ => false

/-- What is added to the markers of a path. -/
def added (p : Path) : Change → List Marker
  | .clear _ => []
  | .add unit marker => if p.same unit then [marker] else []

variable {m m' : MarkerMap} {p : Path}

/-- A change shows at its unit alone. -/
theorem clear_after_unit (change : Change) (m : MarkerMap) :
    (change.after m).clear change.unit = m.clear change.unit := by
  cases change with
  | clear unit => exact m.clear_clear unit
  | add unit marker => exact m.clear_add_same marker (Path.same_refl unit)

/-- Maps that differ at one path alone still do so after a change. -/
theorem clear_after_congr (hs : m.Sorted) (hs' : m'.Sorted) (h : m.clear p = m'.clear p)
    (change : Change) : (change.after m).clear p = (change.after m').clear p := by
  cases change with
  | clear unit =>
    show (m.clear unit).clear p = (m'.clear unit).clear p
    rw [m.clear_comm, h, m'.clear_comm]
  | add unit marker =>
    show (m.add unit marker).clear p = (m'.add unit marker).clear p
    cases hsame : unit.same p with
    | true => rw [m.clear_add_same marker hsame, m'.clear_add_same marker hsame, h]
    | false =>
      rw [MarkerMap.clear_add_other hs marker hsame, MarkerMap.clear_add_other hs' marker hsame, h]

/-- When the path is cleared they are equal. -/
theorem after_of_clears {change : Change} (h : m.clear p = m'.clear p)
    (hclears : change.clears p = true) : change.after m = change.after m' := by
  cases change with
  | clear unit =>
    show m.clear unit = m'.clear unit
    rw [← m.clear_congr hclears, h, m'.clear_congr hclears]
  | add unit marker => cases hclears

theorem clear_foldl_after (changes : List Change) (hs : m.Sorted) (hs' : m'.Sorted)
    (h : m.clear p = m'.clear p) :
    (changes.foldl after m).clear p = (changes.foldl after m').clear p := by
  induction changes generalizing m m' with
  | nil => exact h
  | cons change changes ih =>
    exact ih (change.sorted_after hs) (change.sorted_after hs') (clear_after_congr hs hs' h change)

theorem foldl_after_of_clears {changes : List Change} (hs : m.Sorted) (hs' : m'.Sorted)
    (h : m.clear p = m'.clear p) (hclears : ∃ c ∈ changes, c.clears p = true) :
    changes.foldl after m = changes.foldl after m' := by
  induction changes generalizing m m' with
  | nil =>
    obtain ⟨c, hc, _⟩ := hclears
    cases hc
  | cons change changes ih =>
    rw [List.foldl_cons, List.foldl_cons]
    cases hchange : change.clears p with
    | true => rw [after_of_clears h hchange]
    | false =>
      obtain ⟨c, hc, hcp⟩ := hclears
      have hlater : c ∈ changes := by
        rcases List.mem_cons.mp hc with rfl | hc
        · rw [hchange] at hcp
          cases hcp
        · exact hc
      exact ih (change.sorted_after hs) (change.sorted_after hs')
        (clear_after_congr hs hs' h change)
        ⟨c, hlater, hcp⟩

theorem get_after {change : Change} (hs : m.Sorted) (hclears : change.clears p = false) :
    (change.after m).get p = m.get p ++ change.added p := by
  cases change with
  | clear unit =>
    have hother : p.same unit = false := hclears
    simp [after, added, MarkerMap.get_clear, hother]
  | add unit marker =>
    simp only [after, added, MarkerMap.get_add hs]
    split <;> simp

/-- As long as a path is not cleared, its markers only grow. -/
theorem get_foldl_after {changes : List Change} (hs : m.Sorted)
    (hclears : ∀ c ∈ changes, c.clears p = false) :
    (changes.foldl after m).get p = m.get p ++ changes.flatMap (added p) := by
  induction changes generalizing m with
  | nil => simp
  | cons change changes ih =>
    obtain ⟨hchange, hlater⟩ := List.forall_mem_cons.mp hclears
    rw [List.foldl_cons, ih (change.sorted_after hs) hlater, get_after hs hchange,
      List.flatMap_cons, List.append_assoc]

/-- A difference at a path shows until the path is cleared. -/
theorem get_foldl_after_iff (changes : List Change) (hs : m.Sorted) (hs' : m'.Sorted)
    (h : m.clear p = m'.clear p) :
    (changes.foldl after m).get p = (changes.foldl after m').get p ↔
      (∃ c ∈ changes, c.clears p = true) ∨ m.get p = m'.get p := by
  by_cases hclears : ∃ c ∈ changes, c.clears p = true
  · simp [foldl_after_of_clears hs hs' h hclears, hclears]
  · have hnone : ∀ c ∈ changes, c.clears p = false := by
      intro c hc
      rw [← Bool.not_eq_true]
      exact fun hcp => hclears ⟨c, hc, hcp⟩
    rw [get_foldl_after hs hnone, get_foldl_after hs' hnone, List.append_left_inj]
    simp [hclears]

end Change

/-! ## Changes that failed -/

/-- A store is opened in a file, and after some changes one change fails. The
store has made it all the same: a clear that failed succeeds when it is tried
again, and nothing is written then. When a later change is written, the
markers are loaded that the store has. At all other units they are as if the
failed change had not been asked for, and once its unit is cleared they are so
as a whole; until then they are not, unless the change made no difference. -/
theorem a_failed_change_shows_until_its_unit_is_cleared (disk : Disk (StateM δ))
    (explain : String → String) (file : Path) (hdisk : disk.Recalls file) {d d₁ : δ}
    {markers : MarkerMap}
    (hopen : (MarkerFile.start disk explain file).run.run d = (.ok markers, d₁))
    (written : Written) (before : List Change) {results : List (Except MarkerError Unit)}
    {s : Session δ}
    (hbefore : ((MarkerFile.store disk.onMachine file).performAll before).run
      ⟨markers, written, d₁⟩ = (results, s))
    (change : Change) {e : MarkerError} {s' : Session δ}
    (hfailed : (change.perform (MarkerFile.store disk.onMachine file)).run.run s = (.error e, s')) :
    s'.markers = change.after s.markers ∧
    (∀ unit, change = .clear unit →
      ((MarkerFile.store disk.onMachine file).clear unit).run.run s' = (.ok (), s')) ∧
    ∀ later last others s₁ s₂,
      ((MarkerFile.store disk.onMachine file).performAll later).run s' = (others, s₁) →
      last.writes s₁.markers = true →
      (last.perform (MarkerFile.store disk.onMachine file)).run.run s₁ = (.ok (), s₂) →
      let asIf := (((MarkerFile.store disk.onMachine file).performAll
        (later ++ [last])).run s).2.markers
      let cleared := ∃ c ∈ later ++ [last], c.clears change.unit = true
      (MarkerFile.load disk explain file).run.run s₂.machine = (.ok s₂.markers, s₂.machine) ∧
      s₂.markers.clear change.unit = asIf.clear change.unit ∧
      (cleared → s₂.markers = asIf) ∧
      (s₂.markers.get change.unit = asIf.get change.unit ↔
        cleared ∨ s'.markers.get change.unit = s.markers.get change.unit) := by
  obtain ⟨_, hs, _⟩ :=
    MarkerFile.performAll_cases hdisk (MarkerFile.sorted_of_start hopen) before hbefore
  obtain ⟨hmade, _⟩ := MarkerFile.perform_cases hdisk hs hfailed
  have hs' : s'.markers.Sorted := by
    rw [hmade]
    exact change.sorted_after hs
  have hdiffer : s'.markers.clear change.unit = s.markers.clear change.unit := by
    rw [hmade]
    exact change.clear_after_unit s.markers
  refine ⟨hmade, ?_, ?_⟩
  · rintro unit rfl
    have hidle : (Change.clear unit).writes s'.markers = false := by
      rw [hmade]
      simp [Change.writes, Change.after, MarkerMap.has, MarkerMap.clear]
    exact MarkerFile.perform_idle hidle
  · intro later last others s₁ s₂ hlater hwrites hlast asIf cleared
    obtain ⟨hmarkers₁, hs₁, _⟩ := MarkerFile.performAll_cases hdisk hs' later hlater
    obtain ⟨hmarkers₂, _, htold⟩ := MarkerFile.perform_cases hdisk hs₁ hlast
    have hasIf : asIf = (later ++ [last]).foldl Change.after s.markers :=
      (MarkerFile.performAll_cases hdisk hs (later ++ [last]) rfl).1
    have hshown : s₂.markers = (later ++ [last]).foldl Change.after s'.markers := by
      rw [hmarkers₂, hmarkers₁, List.foldl_append]
      rfl
    refine ⟨(htold hwrites rfl explain).1, ?_, ?_, ?_⟩
    · rw [hshown, hasIf]
      exact Change.clear_foldl_after _ hs' hs hdiffer
    · intro hcleared
      rw [hshown, hasIf]
      exact Change.foldl_after_of_clears hs' hs hdiffer hcleared
    · rw [hshown, hasIf]
      exact Change.get_foldl_after_iff _ hs' hs hdiffer

/-! ## A disk without room -/

/-- A disk with one file. The state says which of the next texts are refused,
and what the file holds. -/
def Disk.oneFile : Disk (StateM (List Bool × Option String)) where
  read _ := ExceptT.mk fun
    | (refusals, some text) => (.ok text, (refusals, some text))
    | (refusals, none) => (.error .notFound, (refusals, none))
  present _ := fun s => (s.2.isSome, s)
  write _ text := ExceptT.mk fun
    | (true :: refusals, held) =>
      (.error (.refused "No space left on device (os error 28)"), (refusals, held))
    | (false :: refusals, _) => (.ok (), (refusals, some text))
    | ([], _) => (.ok (), ([], some text))
  createDirs _ := pure ()

theorem Disk.oneFile_recalls (file : Path) : Disk.oneFile.Recalls file where
  read text d d' h := by
    obtain ⟨_ | ⟨_ | _, refusals⟩, held⟩ := d <;> cases h <;> rfl
  present text d d' h := by
    obtain ⟨_ | ⟨_ | _, refusals⟩, held⟩ := d <;> cases h <;> rfl

namespace FailedClear

/-- The second text is refused. -/
def opened : Session (List Bool × Option String) := ⟨.empty, ⟨[]⟩, [false, true], none⟩

def store : MarkerStore (StateM (Session (List Bool × Option String))) :=
  MarkerFile.store Disk.oneFile.onMachine "markers.json"

def marked : List (Except MarkerError Unit) × Session (List Bool × Option String) :=
  (store.performAll [.add "A" default]).run opened

def cleared : Except MarkerError Unit × Session (List Bool × Option String) :=
  (Change.perform store (.clear "A")).run.run marked.2

def markedAgain : Except MarkerError Unit × Session (List Bool × Option String) :=
  (Change.perform store (.add "B" default)).run.run cleared.2

/-- The markers of the second unit are not those that were to be seen if the
failed clear had not been asked for. -/
theorem a_failed_clear_takes_markers_away :
    cleared.1.isOk = false ∧ markedAgain.1.isOk = true ∧
      (MarkerFile.load Disk.oneFile id "markers.json").run.run markedAgain.2.machine =
        (.ok markedAgain.2.markers, markedAgain.2.machine) ∧
      markedAgain.2.markers.get "A" ≠
        ((store.performAll [.add "B" default]).run marked.2).2.markers.get "A" := by
  have hopen : (MarkerFile.start Disk.oneFile id "markers.json").run.run opened.machine =
      (.ok .empty, opened.machine) := rfl
  have hfails : cleared.1.isOk = false := by decide +kernel
  have hwritten : markedAgain.1.isOk = true := by decide +kernel
  have hbefore : ((MarkerFile.store Disk.oneFile.onMachine "markers.json").performAll
      [.add "A" default]).run ⟨.empty, ⟨[]⟩, opened.machine⟩ = (marked.1, marked.2) := rfl
  rcases hcleared : cleared with ⟨e | done, s'⟩
  · rcases hagain : markedAgain with ⟨e' | done, s₂⟩
    · rw [hagain] at hwritten
      cases hwritten
    · obtain ⟨hmade, _, hlater⟩ := a_failed_change_shows_until_its_unit_is_cleared Disk.oneFile
        id "markers.json" (Disk.oneFile_recalls _) hopen ⟨[]⟩ [.add "A" default] hbefore
        (.clear "A") hcleared
      have hlast : (Change.perform store (.add "B" default)).run.run s' = (.ok (), s₂) := by
        rw [← hagain, markedAgain, hcleared]
      obtain ⟨hload, _, _, hshown⟩ := hlater [] (.add "B" default) [] s' s₂ rfl rfl hlast
      refine ⟨rfl, rfl, hload, ?_⟩
      intro hsame
      have hmarked : (marked.2.markers.get "A").length = 1 := by decide +kernel
      rcases hshown.mp hsame with ⟨c, hc, hclears⟩ | hnone
      · rw [List.nil_append, List.mem_singleton] at hc
        rw [hc] at hclears
        cases hclears
      · rw [hmade] at hnone
        rw [← show _ = marked.2.markers.get "A" from hnone] at hmarked
        simp [Change.after, Change.unit, MarkerMap.get_clear] at hmarked
  · rw [hcleared] at hfails
    cases hfails

/-- As if the clear had not been asked for: the store has what it had before, and
by now the disk has room. -/
def notCleared : Session (List Bool × Option String) :=
  { marked.2 with machine := cleared.2.machine }

def markedAsIf : Except MarkerError Unit × Session (List Bool × Option String) :=
  (Change.perform store (.add "B" default)).run.run notCleared

/-- The count of markers that are loaded for a unit, if the file can be loaded. -/
def loadedAt (unit : Path) (s : Session (List Bool × Option String)) : Option Nat :=
  ((MarkerFile.load Disk.oneFile id "markers.json").run.run s.machine).1.toOption.map
    fun markers => (markers.get unit).length

/-- A marker that was added is loaded, with all that the store has. -/
theorem loadedAt_of_add {s : Session (List Bool × Option String)} (hs : s.markers.Sorted)
    (unit : Path) (marker : Marker)
    (hadded : ((Change.perform store (.add unit marker)).run.run s).1.isOk = true) (p : Path) :
    loadedAt p ((Change.perform store (.add unit marker)).run.run s).2 =
      some ((s.markers.add unit marker).get p).length := by
  rcases hrun : (Change.perform store (.add unit marker)).run.run s with ⟨e | done, s'⟩
  · rw [hrun] at hadded
    cases hadded
  · obtain ⟨hmarkers, _, htold⟩ := MarkerFile.perform_cases (Disk.oneFile_recalls _) hs hrun
    unfold loadedAt
    rw [(htold rfl rfl id).1, hmarkers]
    rfl

/-- The failed clear leaves the file as it is, but not what is loaded behind the
next marker. When it is tried again it succeeds, and the file still holds what
was to be cleared. -/
theorem a_failed_clear_is_seen_in_the_file :
    cleared.1.isOk = false ∧ cleared.2.machine.2 = marked.2.machine.2 ∧
      markedAgain.1.isOk = true ∧ markedAsIf.1.isOk = true ∧
      loadedAt "A" markedAgain.2 = some 0 ∧ loadedAt "A" markedAsIf.2 = some 1 ∧
      ((store.clear "A").run.run cleared.2).1.isOk = true ∧
      ((store.clear "A").run.run cleared.2).2.machine.2 = marked.2.machine.2 := by
  have hmarking : ((MarkerFile.store Disk.oneFile.onMachine "markers.json").performAll
      [.add "A" default]).run opened = (marked.1, marked.2) := rfl
  have hclearing : (Change.perform (MarkerFile.store Disk.oneFile.onMachine "markers.json")
      (.clear "A")).run.run marked.2 = (cleared.1, cleared.2) := rfl
  obtain ⟨_, hmarked, _⟩ := MarkerFile.performAll_cases (Disk.oneFile_recalls _)
    MarkerMap.sorted_empty _ hmarking
  obtain ⟨hmarkers, _⟩ := MarkerFile.perform_cases (Disk.oneFile_recalls _) hmarked hclearing
  have hcleared : cleared.2.markers.Sorted := by
    rw [hmarkers]
    exact Change.sorted_after hmarked _
  have hnotCleared : notCleared.markers.Sorted := hmarked
  have hagain : markedAgain.1.isOk = true := by decide +kernel
  have hasIf : markedAsIf.1.isOk = true := by decide +kernel
  have hloaded : loadedAt "A" markedAgain.2 = some 0 :=
    (loadedAt_of_add hcleared "B" default hagain "A").trans (by decide +kernel)
  have hloaded' : loadedAt "A" markedAsIf.2 = some 1 :=
    (loadedAt_of_add hnotCleared "B" default hasIf "A").trans (by decide +kernel)
  exact ⟨by decide +kernel, by decide +kernel, hagain, hasIf, hloaded, hloaded',
    by decide +kernel, by decide +kernel⟩

end FailedClear

end Recast
