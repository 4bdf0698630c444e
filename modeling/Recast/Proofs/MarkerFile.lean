-- A store of markers in a file. The file is written with every change, and
-- its text gives the markers back, so behind a change that was written the
-- file holds the markers that the store has. What the store has never
-- depends on the file: it is what a store in memory has.
import Recast.Disk.Tree
import Recast.Proofs.Form.Markers
import Recast.Proofs.Session
import Recast.Proofs.Tree

namespace Recast

variable {δ : Type} {m : Type → Type}

/-! ## Disks that recall a file -/

/-- A text that was written to the file is there and is read back. -/
structure Disk.Recalls (disk : Disk (StateM δ)) (file : Path) : Prop where
  read : ∀ text d d', (disk.write file text).run.run d = (.ok (), d') →
    (disk.read file).run.run d' = (.ok text, d')
  present : ∀ text d d', (disk.write file text).run.run d = (.ok (), d') →
    (disk.present file).run d' = (true, d')

theorem FileTree.write_of_disk {file : Path} {text : String} {t t' : FileTree}
    (h : ((FileTree.disk : Disk (StateM FileTree)).write file text).run.run t = (.ok (), t')) :
    t.write file text = .ok t' := by
  have hget : (getThe FileTree : StateM FileTree FileTree).run t = (t, t) := rfl
  unfold FileTree.disk at h
  dsimp only at h
  rw [ExceptT.run_mk, run_bind_of hget] at h
  cases hwrite : t.write file text with
  | error e =>
    rw [hwrite] at h
    cases h
  | ok t₁ =>
    rw [hwrite] at h
    cases h
    rfl

theorem FileTree.disk_recalls (file : Path) :
    (FileTree.disk : Disk (StateM FileTree)).Recalls file where
  read text t t' h := by
    have hread := (read_write (write_of_disk h)).1
    exact congrArg (·, t') hread
  present text t t' h := by
    have hpresent := (read_write (write_of_disk h)).2
    exact congrArg (·, t') hpresent

/-! ## Changes of a store -/

inductive Change
  | clear (unit : Path)
  | add (unit : Path) (marker : Marker)

namespace Change

/-- The change is made in a store. -/
def perform (store : MarkerStore m) : Change → Attempt m MarkerError Unit
  | .clear unit => store.clear unit
  | .add unit marker => store.add unit marker

/-- The markers after the change. -/
def after (markers : MarkerMap) : Change → MarkerMap
  | .clear unit => markers.clear unit
  | .add unit marker => markers.add unit marker

/-- Whether there is something to write. To clear a unit that has no entry
is no change. -/
def writes (markers : MarkerMap) : Change → Bool
  | .clear unit => markers.has unit
  | .add _ _ => true

theorem sorted_after {markers : MarkerMap} (hs : markers.Sorted) (change : Change) :
    (change.after markers).Sorted := by
  cases change with
  | clear unit => exact MarkerMap.sorted_clear hs unit
  | add unit marker => exact MarkerMap.sorted_add hs unit marker

theorem after_of_not_writes {markers : MarkerMap} {change : Change}
    (h : change.writes markers = false) : change.after markers = markers := by
  cases change with
  | clear unit =>
    have hnone : ∀ e ∈ markers.entries, e.1.same unit = false := by
      simpa [writes, MarkerMap.has] using h
    have hall : markers.entries.filter (fun e => !e.1.same unit) = markers.entries := by
      rw [List.filter_eq_self]
      intro e he
      rw [hnone e he]
      rfl
    exact congrArg MarkerMap.mk hall
  | add unit marker => cases h

end Change

/-- Makes changes one after the other, whatever becomes of each. -/
def MarkerStore.performAll [Monad m] (store : MarkerStore m) :
    List Change → m (List (Except MarkerError Unit))
  | [] => return []
  | change :: changes => do
    let result ← (change.perform store).run
    let others ← store.performAll changes
    return result :: others

/-- Whether one of the changes has something to write. -/
def writesAny (markers : MarkerMap) : List Change → Bool
  | [] => false
  | change :: changes => change.writes markers || writesAny (change.after markers) changes

/-- The store in memory takes every change and leaves all else alone. -/
theorem MarkerStore.memory_performAll (changes : List Change) (s : Session δ) :
    ((MarkerStore.memory : MarkerStore (StateM (Session δ))).performAll changes).run s =
      (changes.map fun _ => .ok (),
        { s with markers := changes.foldl Change.after s.markers }) := by
  induction changes generalizing s with
  | nil => rfl
  | cons change changes ih =>
    have hchange :
        (change.perform (MarkerStore.memory : MarkerStore (StateM (Session δ)))).run.run s =
        (.ok (), { s with markers := change.after s.markers }) := by
      cases change with
      | clear unit => rfl
      | add unit marker => rfl
    unfold MarkerStore.performAll
    rw [run_bind_of hchange, run_bind_of (ih _)]
    rfl

/-! ## The file behind a change -/

namespace MarkerFile

/-- The file holds the markers that the session has: they are loaded from it,
and a store that is opened there starts with them. What would be said of a text
that cannot be read makes no difference. -/
def Told (disk : Disk (StateM δ)) (file : Path) (s : Session δ) : Prop :=
  ∀ explain, (load disk explain file).run.run s.machine = (.ok s.markers, s.machine) ∧
    (start disk explain file).run.run s.machine = (.ok s.markers, s.machine)

variable {disk : Disk (StateM δ)} {explain : String → String} {file : Path}

/-- The text of the markers is what is written last. -/
theorem written_of_persist {markers : MarkerMap} {d d' : δ}
    (h : (persist disk file markers).run.run d = (.ok (), d')) :
    ∃ d₁, (disk.write file (print markers)).run.run d₁ = (.ok (), d') := by
  have hwrite := attempt_adapt_ok h
  unfold write at hwrite
  split at hwrite
  · exact ⟨d, hwrite⟩
  · dsimp only at hwrite
    split at hwrite
    · exact ⟨d, hwrite⟩
    · obtain ⟨_, d₁, _, hfile⟩ := attempt_bind_ok hwrite
      exact ⟨d₁, hfile⟩

/-- Markers that were written are told by the file. -/
theorem told_of_persist (hdisk : disk.Recalls file) {s : Session δ} (hs : s.markers.Sorted) {d : δ}
    (h : (persist disk file s.markers).run.run d = (.ok (), s.machine)) : Told disk file s := by
  obtain ⟨d₁, hwrite⟩ := written_of_persist h
  intro explain
  have hload : (load disk explain file).run.run s.machine = (.ok s.markers, s.machine) := by
    unfold load
    refine (run_bind_of (hdisk.read _ _ _ hwrite)).trans ?_
    dsimp only
    rw [read?_print hs]
    rfl
  have hpresent : (liftM (disk.present file) : Attempt (StateM δ) MarkerError Bool).run.run
      s.machine = (.ok true, s.machine) := by
    have hmap : (liftM (disk.present file) : Attempt (StateM δ) MarkerError Bool).run =
        disk.present file >>= fun b => pure (.ok b) := rfl
    rw [hmap, run_bind_of (hdisk.present _ _ _ hwrite)]
    rfl
  refine ⟨hload, ?_⟩
  unfold start
  rw [attempt_bind_of_ok hpresent]
  exact hload

/-! ## What the store does -/

theorem perform_idle {change : Change} {s : Session δ} (h : change.writes s.markers = false) :
    (change.perform (store disk.onMachine file)).run.run s = (.ok (), s) := by
  cases change with
  | clear unit =>
    have hget : (getThe MarkerMap : Attempt (StateM (Session δ)) MarkerError MarkerMap).run.run s =
        (.ok s.markers, s) := rfl
    have hnone : ¬ s.markers.has unit = true := by simpa [Change.writes] using h
    unfold Change.perform store
    dsimp only
    rw [attempt_bind_of_ok hget, if_neg hnone]
    rfl
  | add unit marker => cases h

/-- The store has the markers after the change, whether or not the file can
be written. -/
theorem perform_writing {change : Change} {s : Session δ} (h : change.writes s.markers = true)
    {result : Except MarkerError Unit} {d : δ}
    (hpersist : (persist disk file (change.after s.markers)).run.run s.machine = (result, d)) :
    (change.perform (store disk.onMachine file)).run.run s =
      (result, { s with markers := change.after s.markers, machine := d }) := by
  have hget : (getThe MarkerMap : Attempt (StateM (Session δ)) MarkerError MarkerMap).run.run s =
      (.ok s.markers, s) := rfl
  have hset : (set (change.after s.markers) : Attempt (StateM (Session δ)) MarkerError Unit).run.run
      s = (.ok (), { s with markers := change.after s.markers }) := rfl
  have hfile : (persist disk.onMachine file (change.after s.markers)).run.run
      { s with markers := change.after s.markers } =
      (result, { s with markers := change.after s.markers, machine := d }) := by
    unfold Disk.onMachine
    rw [Session.ofMachine.disk_persist]
    exact Session.run_ofMachine hpersist
  cases change with
  | clear unit =>
    unfold Change.perform store
    dsimp only
    have hsome : s.markers.has unit = true := h
    rw [attempt_bind_of_ok hget, if_pos hsome]
    exact (attempt_bind_of_ok hset).trans hfile
  | add unit marker =>
    unfold Change.perform store
    dsimp only
    rw [attempt_bind_of_ok hget]
    exact (attempt_bind_of_ok hset).trans hfile

/-- What one change leaves. If there is something to write and the change
succeeds, the file tells the markers. -/
theorem perform_cases (hdisk : disk.Recalls file) {s s' : Session δ} (hs : s.markers.Sorted)
    {change : Change} {result : Except MarkerError Unit}
    (h : (change.perform (store disk.onMachine file)).run.run s = (result, s')) :
    s'.markers = change.after s.markers ∧
      (change.writes s.markers = false → s' = s) ∧
      (change.writes s.markers = true → result = .ok () → Told disk file s') := by
  cases hwrites : change.writes s.markers with
  | false =>
    rw [perform_idle hwrites] at h
    cases h
    exact ⟨(Change.after_of_not_writes hwrites).symm, fun _ => rfl, nofun⟩
  | true =>
    rcases hpersist : (persist disk file (change.after s.markers)).run.run s.machine with ⟨r, d⟩
    rw [perform_writing hwrites hpersist] at h
    cases h
    refine ⟨rfl, nofun, ?_⟩
    rintro - rfl
    exact told_of_persist hdisk (change.sorted_after hs) hpersist

/-- What all changes leave. The induction is on the changes that are left. -/
theorem performAll_cases (hdisk : disk.Recalls file) {s s' : Session δ} (hs : s.markers.Sorted)
    (changes : List Change) {results : List (Except MarkerError Unit)}
    (h : ((store disk.onMachine file).performAll changes).run s = (results, s')) :
    s'.markers = changes.foldl Change.after s.markers ∧ s'.markers.Sorted ∧
      (writesAny s.markers changes = false → s' = s) ∧
      ((∀ result ∈ results, result = .ok ()) →
        writesAny s.markers changes = true ∨ Told disk file s → Told disk file s') := by
  induction changes generalizing s results with
  | nil =>
    cases h
    refine ⟨rfl, hs, fun _ => rfl, ?_⟩
    rintro - (hnone | htold)
    · cases hnone
    · exact htold
  | cons change changes ih =>
    rcases hchange : (change.perform (store disk.onMachine file)).run.run s with ⟨result, s₁⟩
    rcases hrest : ((store disk.onMachine file).performAll changes).run s₁ with ⟨others, s₂⟩
    unfold MarkerStore.performAll at h
    rw [run_bind_of hchange, run_bind_of hrest] at h
    cases h
    obtain ⟨hmarkers, hidle, htold⟩ := perform_cases hdisk hs hchange
    have hs₁ : s₁.markers.Sorted := by
      rw [hmarkers]
      exact change.sorted_after hs
    obtain ⟨hall, hsorted, hidle', htold'⟩ := ih hs₁ hrest
    rw [hmarkers] at hall hidle' htold'
    refine ⟨hall, hsorted, ?_, ?_⟩
    · intro hnone
      simp only [writesAny, Bool.or_eq_false_iff] at hnone
      rw [hidle' hnone.2, hidle hnone.1]
    · intro hok hsome
      rw [List.forall_mem_cons] at hok
      refine htold' hok.2 ?_
      simp only [writesAny, Bool.or_eq_true] at hsome
      cases hwrites : change.writes s.markers with
      | true => exact Or.inr (htold hwrites hok.1)
      | false =>
        rw [hwrites] at hsome
        rcases hsome with (hfalse | hlater) | hbefore
        · cases hfalse
        · exact Or.inl hlater
        · rw [hidle hwrites]
          exact Or.inr hbefore

theorem sorted_of_load {d d' : δ} {markers : MarkerMap}
    (h : (load disk explain file).run.run d = (.ok markers, d')) : markers.Sorted := by
  rcases hread : (disk.read file).run.run d with ⟨cause | text, d₁⟩
  · unfold load at h
    rw [ExceptT.run_mk, run_bind_of hread] at h
    cases h
  · unfold load at h
    rw [ExceptT.run_mk, run_bind_of hread] at h
    dsimp only at h
    cases hmarkers : Json.read? Form.markerMap text with
    | none =>
      rw [hmarkers] at h
      cases h
    | some found =>
      rw [hmarkers] at h
      cases h
      obtain ⟨j, _, hj⟩ := Option.bind_eq_some_iff.mp hmarkers
      exact Form.sorted_of_read hj

/-- A store that is opened starts with markers in order. -/
theorem sorted_of_start {d d' : δ} {markers : MarkerMap}
    (h : (start disk explain file).run.run d = (.ok markers, d')) : markers.Sorted := by
  obtain ⟨found, d₁, _, hload⟩ := attempt_bind_ok h
  cases found with
  | false =>
    cases hload
    exact MarkerMap.sorted_empty
  | true => exact sorted_of_load hload

end MarkerFile

/-- Entries for different units are read back from the text of a marker file
as they are. A store that is opened in a file has, behind any changes, what a
store in memory has. If every change succeeds and one has something to write,
the file tells these markers; behind a marker that was added it tells them
whatever became of the changes before. -/
theorem the_file_tells_the_markers (disk : Disk (StateM δ)) (explain : String → String)
    (file : Path) (hdisk : disk.Recalls file) {d d₁ : δ} {markers : MarkerMap}
    (hopen : (MarkerFile.start disk explain file).run.run d = (.ok markers, d₁))
    (written : Written) (changes : List Change) :
    (∀ entries : List (Path × List Marker), entries.Pairwise (fun a b => a.1.same b.1 = false) →
      (MarkerMap.of entries).entries.Perm entries ∧
        Json.read? Form.markerMap (MarkerFile.print (MarkerMap.of entries)) =
          some (MarkerMap.of entries)) ∧
    ∀ results s', ((MarkerFile.store disk.onMachine file).performAll changes).run
        ⟨markers, written, d₁⟩ = (results, s') →
      s'.markers = (((MarkerStore.memory : MarkerStore (StateM (Session δ))).performAll
        changes).run ⟨markers, written, d₁⟩).2.markers ∧
      (writesAny markers changes = false → s' = ⟨markers, written, d₁⟩) ∧
      ((∀ result ∈ results, result = .ok ()) → writesAny markers changes = true →
        MarkerFile.Told disk file s') ∧
      ∀ unit marker s'', ((MarkerFile.store disk.onMachine file).add unit marker).run.run s' =
          (.ok (), s'') →
        s''.markers = s'.markers.add unit marker ∧ MarkerFile.Told disk file s'' := by
  refine ⟨fun entries hentries => ⟨MarkerMap.perm_of hentries,
    MarkerFile.read?_print (MarkerMap.sorted_of entries)⟩, ?_⟩
  intro results s' hrun
  obtain ⟨hmarkers, hsorted, hidle, htold⟩ :=
    MarkerFile.performAll_cases hdisk (MarkerFile.sorted_of_start hopen) changes hrun
  refine ⟨?_, hidle, fun hok hsome => htold hok (Or.inl hsome), ?_⟩
  · rw [hmarkers, MarkerStore.memory_performAll]
  · intro unit marker s'' hadd
    have hchange : ((Change.add unit marker).perform
        (MarkerFile.store disk.onMachine file)).run.run s' = (.ok (), s'') := hadd
    obtain ⟨hadded, _, hnow⟩ := MarkerFile.perform_cases hdisk hsorted hchange
    exact ⟨hadded, hnow rfl rfl⟩

/-- Changes of two units, one of which is spelled in two ways. -/
def fiveChanges : List Change :=
  [.clear "a/b", .add "a/./b" ⟨"first", .warning, 0, 1, 1, true⟩, .add "c" default,
    .add "a//b" ⟨"second", .error, 2, 3, 4, false⟩, .clear "c"]

/-- The changes are made in a file for which a directory has to be made. -/
def fiveChangesMade : List (Except MarkerError Unit) × Session FileTree :=
  ((MarkerFile.store FileTree.disk.onMachine "state/markers.json").performAll fiveChanges).run
    ⟨.empty, ⟨[]⟩, ⟨[], []⟩⟩

theorem five_changes_are_told :
    fiveChangesMade.2.markers.entries.map (fun e => (e.1.text, e.2.map (·.message))) =
        [("a/./b", ["first", "second"])] ∧
      MarkerFile.Told FileTree.disk "state/markers.json" fiveChangesMade.2 := by
  have hopen : (MarkerFile.start (FileTree.disk : Disk (StateM FileTree)) id
      "state/markers.json").run.run ⟨[], []⟩ = (.ok .empty, ⟨[], []⟩) := by
    have habsent : (FileTree.mk [] []).present "state/markers.json" = false := by decide +kernel
    have hpresent : (liftM ((FileTree.disk : Disk (StateM FileTree)).present "state/markers.json") :
        Attempt (StateM FileTree) MarkerError Bool).run.run ⟨[], []⟩ = (.ok false, ⟨[], []⟩) :=
      congrArg (fun found => (Except.ok found, FileTree.mk [] [])) habsent
    unfold MarkerFile.start
    rw [attempt_bind_of_ok hpresent]
    rfl
  have hall : fiveChangesMade.1.all (·.isOk) = true := by decide +kernel
  have hwrites : writesAny .empty fiveChanges = true := by decide +kernel
  have hmarkers : fiveChangesMade.2.markers.entries.map
      (fun e => (e.1.text, e.2.map (·.message))) = [("a/./b", ["first", "second"])] := by
    decide +kernel
  rcases hmade : fiveChangesMade with ⟨results, s'⟩
  rw [hmade] at hall hmarkers
  unfold fiveChangesMade at hmade
  obtain ⟨-, hrun⟩ := the_file_tells_the_markers FileTree.disk id _ (FileTree.disk_recalls _)
    hopen ⟨[]⟩ fiveChanges
  obtain ⟨_, _, htold, _⟩ := hrun results s' hmade
  refine ⟨hmarkers, htold ?_ hwrites⟩
  intro result hresult
  have hok := List.all_eq_true.mp hall result hresult
  cases result with
  | error e => cases hok
  | ok u => rfl

end Recast
