-- Layers of settings. However they are merged, of each setting the highest
-- layer that has it counts. The header and its file are one setting: it is
-- taken whole from one layer, and nothing of it from a layer below.
import Recast.Command.Basic
import Recast.Disk.Tree

namespace Recast.Settings

/-! ## Single settings -/

/-- The settings that a layer may have, with the type of what each is set to. -/
inductive Key : Type → Type
  /-- The header or its file, or both. -/
  | header : Key (Option String × Option Path)
  | ignoreErrors : Key Bool
  | emitMarkers : Key Bool
  | markerFailure : Key MarkerFailure
  | directory : Key Path
  | extension : Key String
  | parallel : Key Bool
  | keepGoing : Key Bool

def hasHeader (s : Settings) : Bool := s.run.header.isSome || s.run.headerFile.isSome

/-- What a layer has for a setting. -/
def get (s : Settings) : Key α → Option α
  | .header => if s.hasHeader then some (s.run.header, s.run.headerFile) else none
  | .ignoreErrors => s.run.ignoreErrors
  | .emitMarkers => s.run.emitMarkers
  | .markerFailure => s.run.markerFailure
  | .directory => s.output.directory
  | .extension => s.output.extension
  | .parallel => s.batch.parallel
  | .keepGoing => s.batch.keepGoing

theorem header_of_not_hasHeader {s : Settings} (h : s.hasHeader = false) :
    s.run.header = none ∧ s.run.headerFile = none := by
  simpa [hasHeader] using h

/-- A layer that has the header is known by it. -/
theorem get_header_eq_some {s : Settings} {pair : Option String × Option Path} :
    s.get .header = some pair ↔ s.hasHeader = true ∧ pair = (s.run.header, s.run.headerFile) := by
  unfold get
  by_cases h : s.hasHeader = true
  · simp [h, eq_comm]
  · simp [h]

theorem get_header_eq_none {s : Settings} : s.get .header = none ↔ s.hasHeader = false := by
  simp [get]

/-- The setting tells both of its parts. -/
theorem parts_of_get_header {s t : Settings} (h : s.get .header = t.get .header) :
    s.run.header = t.run.header ∧ s.run.headerFile = t.run.headerFile := by
  cases ht : t.hasHeader with
  | true =>
    rw [get_header_eq_some.mpr ⟨ht, rfl⟩, get_header_eq_some] at h
    obtain ⟨hheader, hfile⟩ := Prod.mk.inj h.2
    exact ⟨hheader.symm, hfile.symm⟩
  | false =>
    rw [get_header_eq_none.mpr ht, get_header_eq_none] at h
    obtain ⟨hheader, hfile⟩ := header_of_not_hasHeader h
    obtain ⟨hheader', hfile'⟩ := header_of_not_hasHeader ht
    rw [hheader, hfile, hheader', hfile']
    exact ⟨rfl, rfl⟩

/-- Settings are what they have for each key. -/
theorem eq_of_get {s t : Settings} (h : ∀ (α : Type) (key : Key α), s.get key = t.get key) :
    s = t := by
  obtain ⟨hheader, hfile⟩ := parts_of_get_header (h _ .header)
  have hrun : s.run = t.run := by
    rw [RunSettings.mk.injEq]
    exact ⟨hheader, hfile, h _ .ignoreErrors, h _ .emitMarkers, h _ .markerFailure⟩
  have houtput : s.output = t.output := by
    rw [OutputSettings.mk.injEq]
    exact ⟨h _ .directory, h _ .extension⟩
  have hbatch : s.batch = t.batch := by
    rw [BatchSettings.mk.injEq]
    exact ⟨h _ .parallel, h _ .keepGoing⟩
  rw [Settings.mk.injEq]
  exact ⟨hrun, houtput, hbatch⟩

/-! ## Merging -/

@[simp] theorem get_empty (key : Key α) : empty.get key = none := by
  cases key <;> rfl

/-- What the higher layer has counts, and what it does not have is left to the
lower one. -/
@[simp] theorem get_merge (low high : Settings) (key : Key α) :
    (low.merge high).get key = (high.get key).or (low.get key) := by
  cases key with
  | header =>
    have hmerged : (low.merge high).get .header =
        (if high.hasHeader then high else low).get .header := rfl
    rw [hmerged]
    by_cases hhigh : high.hasHeader = true
    · rw [if_pos hhigh, get_header_eq_some.mpr ⟨hhigh, rfl⟩, Option.some_or]
    · have hnone : high.get .header = none := get_header_eq_none.mpr (by simpa using hhigh)
      rw [if_neg hhigh, hnone, Option.none_or]
  | ignoreErrors | emitMarkers | markerFailure | directory | extension | parallel | keepGoing => rfl

theorem merge_assoc (a b c : Settings) : (a.merge b).merge c = a.merge (b.merge c) := by
  apply eq_of_get
  intro α key
  simp only [get_merge, Option.or_assoc]

theorem empty_merge (s : Settings) : empty.merge s = s := by
  apply eq_of_get
  intro α key
  simp

theorem merge_empty (s : Settings) : s.merge empty = s := by
  apply eq_of_get
  intro α key
  simp

/-- Layers, the lowest first, and the settings that come from merging them, in
whatever groups that is done. -/
inductive Merges : List Settings → Settings → Prop
  | nothing : Merges [] empty
  | layer (s : Settings) : Merges [s] s
  | merge {lows highs : List Settings} {low high : Settings} (hlow : Merges lows low)
    (hhigh : Merges highs high) : Merges (lows ++ highs) (low.merge high)

/-- The layers merged one after the other. -/
def stack (layers : List Settings) : Settings := layers.foldl merge empty

theorem foldl_merge (s : Settings) (layers : List Settings) :
    layers.foldl merge s = s.merge (stack layers) := by
  induction layers generalizing s with
  | nil => exact (merge_empty s).symm
  | cons layer layers ih =>
    have hlayer := ih (empty.merge layer)
    unfold stack at hlayer ⊢
    rw [List.foldl_cons, List.foldl_cons, hlayer, ih, empty_merge, merge_assoc]
    rfl

theorem stack_append (lows highs : List Settings) :
    stack (lows ++ highs) = (stack lows).merge (stack highs) := by
  unfold stack
  rw [List.foldl_append, foldl_merge]
  rfl

/-- The groups do not matter. -/
theorem merges_iff {layers : List Settings} {s : Settings} :
    Merges layers s ↔ s = stack layers := by
  constructor
  · intro h
    induction h with
    | nothing => rfl
    | layer s => exact (empty_merge s).symm
    | merge _ _ hlow hhigh => rw [stack_append, ← hlow, ← hhigh]
  · rintro rfl
    induction layers with
    | nil => exact .nothing
    | cons layer layers ih =>
      rw [← List.singleton_append, stack_append]
      exact .merge (by simpa [stack, empty_merge] using Merges.layer layer) ih

theorem get_stack (layers : List Settings) (key : Key α) :
    (stack layers).get key = layers.reverse.findSome? (·.get key) := by
  induction layers with
  | nil => exact get_empty key
  | cons layer layers ih =>
    rw [← List.singleton_append, stack_append, get_merge, ih, List.reverse_append,
      List.findSome?_append]
    simp [stack, empty_merge]

/-- Nothing counts that a layer below the highest one has. -/
theorem get_stack_highest {lows highs : List Settings} {layer : Settings} {key : Key α} {a : α}
    (hlayer : layer.get key = some a) (hhighs : ∀ high ∈ highs, high.get key = none) :
    (stack (lows ++ layer :: highs)).get key = some a := by
  have hnone : highs.reverse.findSome? (·.get key) = none := by
    rw [List.findSome?_eq_none_iff]
    intro high hhigh
    exact hhighs high (List.mem_reverse.mp hhigh)
  rw [get_stack, List.reverse_append, List.reverse_cons, List.append_assoc, List.findSome?_append,
    hnone, Option.none_or, List.singleton_append, List.findSome?_cons_of_isSome (by simp [hlayer])]
  exact hlayer

/-! ## Layers in files -/

variable [Monad m]

/-- The layers in files, the lowest first. A file that is not there has none. -/
def layersIn (disk : Disk m) (explain : String → String) :
    List Path → Attempt m SettingsError (List Settings)
  | [] => pure []
  | file :: files => do
    let layer? ← loadFile disk explain file
    let layers ← layersIn disk explain files
    return layer?.toList ++ layers

/-- The files with the layers of a project. -/
def layerFiles (surroundings : Surroundings) (root : Path) : List Path :=
  surroundings.settingsFile?.toList ++ [(root.join ⟨".translit"⟩).join ⟨"config.toml"⟩]

variable [LawfulMonad m]

theorem overlay_eq (disk : Disk m) (explain : String → String) (file : Path) (s : Settings) :
    overlay disk explain file s =
      (fun layer? => s.merge (stack layer?.toList)) <$> loadFile disk explain file := by
  unfold overlay
  rw [map_eq_pure_bind]
  congr 1
  funext layer?
  cases layer? with
  | none => rw [Option.toList_none, stack, List.foldl_nil, merge_empty]
  | some layer => rw [Option.toList_some, stack, List.foldl_cons, List.foldl_nil, empty_merge]

/-- Files that are put on top of each other are layers. -/
theorem foldlM_overlay (disk : Disk m) (explain : String → String) (files : List Path)
    (s : Settings) :
    files.foldlM (fun s file => overlay disk explain file s) s =
      (fun layers => s.merge (stack layers)) <$> layersIn disk explain files := by
  induction files generalizing s with
  | nil =>
    rw [List.foldlM_nil, layersIn, map_pure, stack, List.foldl_nil, merge_empty]
  | cons file files ih =>
    rw [List.foldlM_cons, overlay_eq, layersIn]
    simp only [ih, map_eq_pure_bind, bind_assoc, pure_bind, stack_append, merge_assoc]

theorem load_eq (disk : Disk m) (explain : String → String) (surroundings : Surroundings)
    (root : Path) :
    load disk explain surroundings root =
      (layerFiles surroundings root).foldlM (fun s file => overlay disk explain file s) empty := by
  unfold load layerFiles
  cases surroundings.settingsFile? with
  | none => simp
  | some file => simp

/-- Merging settings is associative, and the settings that have nothing leave all
others as they are. However layers are merged, of each setting the highest layer
that has it counts. The header and its file come from the highest layer that has
either, both from that one: the header of a run is the text that this layer has, or
else the text of its file, whatever the layers below have. The layers of a command
are those in the files for all projects, of the project and on top of it, as far as
they are there, and then its switches. -/
theorem the_highest_layer_with_a_setting_counts (disk : Disk m) (explain : String → String)
    (surroundings : Surroundings) (root : Path) :
    (∀ a b c : Settings, (a.merge b).merge c = a.merge (b.merge c)) ∧
    (∀ s : Settings, empty.merge s = s ∧ s.merge empty = s) ∧
    (∀ layers s, Merges layers s →
      (∀ (α : Type) (key : Key α), s.get key = layers.reverse.findSome? (·.get key)) ∧
      (∀ lows layer highs, layers = lows ++ layer :: highs → layer.hasHeader = true →
        (∀ high ∈ highs, high.hasHeader = false) →
        s.run.header = layer.run.header ∧ s.run.headerFile = layer.run.headerFile ∧
        (∀ text, layer.run.header = some text → s.header disk root = pure text) ∧
        ∀ file, layer.run.header = none → layer.run.headerFile = some file →
          s.header disk root = (disk.read (root.join file)).adapt (.io (root.join file))) ∧
      ((∀ layer ∈ layers, layer.hasHeader = false) →
        s.run.header = none ∧ s.run.headerFile = none ∧ s.header disk root = pure "") ∧
      s.runConfig disk root = (fun header => {
        header := header
        ignoreErrors := (layers.reverse.findSome? (·.get .ignoreErrors)).getD false
        emitMarkers := (layers.reverse.findSome? (·.get .emitMarkers)).getD false
        markerFailure := (layers.reverse.findSome? (·.get .markerFailure)).getD .log }) <$>
          s.header disk root) ∧
    (∀ layers, Merges layers (stack layers)) ∧
    ∀ (overlays : List Path) (args : Command.TranslateArgs),
      (do
        let s ← load disk explain surroundings root
        let s ← overlays.foldlM (fun s file => overlay disk explain file s) s
        return s.merge args.settings : Attempt m SettingsError Settings) =
      (fun layers => stack (layers ++ [args.settings])) <$>
        layersIn disk explain (layerFiles surroundings root ++ overlays) := by
  refine ⟨merge_assoc, fun s => ⟨empty_merge s, merge_empty s⟩, ?_, fun _ => merges_iff.mpr rfl, ?_⟩
  · intro layers s hs
    obtain rfl := merges_iff.mp hs
    refine ⟨fun _ => get_stack layers, ?_, ?_, ?_⟩
    · rintro lows layer highs rfl hlayer hhighs
      obtain ⟨hheader, hfile⟩ := parts_of_get_header (s := stack (lows ++ layer :: highs))
        (t := layer) (by
          rw [get_header_eq_some.mpr ⟨hlayer, rfl⟩]
          refine get_stack_highest (get_header_eq_some.mpr ⟨hlayer, rfl⟩) fun high hhigh => ?_
          exact get_header_eq_none.mpr (hhighs high hhigh))
      refine ⟨hheader, hfile, ?_, ?_⟩
      · intro text htext
        simp [header, hheader, htext]
      · intro file htext hfile'
        simp [header, hheader, hfile, htext, hfile']
    · intro hnone
      have hheader : (stack layers).get .header = none := by
        rw [get_stack, List.findSome?_eq_none_iff]
        intro layer hlayer
        exact get_header_eq_none.mpr (hnone layer (List.mem_reverse.mp hlayer))
      obtain ⟨htext, hfile⟩ := header_of_not_hasHeader (get_header_eq_none.mp hheader)
      refine ⟨htext, hfile, ?_⟩
      simp [header, htext, hfile]
    · simp only [← get_stack, map_eq_pure_bind]
      rfl
  · intro overlays args
    rw [load_eq, ← bind_assoc, ← List.foldlM_append, foldlM_overlay]
    simp only [map_eq_pure_bind, bind_assoc, pure_bind, empty_merge, stack_append]
    simp [stack, empty_merge]

/-- The settings for all projects. -/
def sharedLayer : Settings where
  run := ⟨some "// shared\n", none, none, some true, none⟩
  output := ⟨none, none⟩
  batch := ⟨some true, none⟩

/-- The settings of a project, with its header in a file. -/
def projectLayer : Settings where
  run := ⟨none, some ⟨"HEADER"⟩, some true, none, some .fail⟩
  output := ⟨none, none⟩
  batch := ⟨none, some false⟩

/-- The settings on top of them, which have no header. -/
def topLayer : Settings where
  run := ⟨none, none, some false, none, none⟩
  output := ⟨some ⟨"out"⟩, none⟩
  batch := ⟨none, none⟩

def headerTree : FileTree := ⟨["p"], [(["p"], .directory), (["p", "HEADER"], .text "// project\n")]⟩

/-- The project puts the header for all projects aside with a file of its own, and
what is on top of it leaves that as it is. -/
theorem a_header_file_puts_a_lower_header_aside :
    Merges [sharedLayer, projectLayer, topLayer] (sharedLayer.merge (projectLayer.merge topLayer)) ∧
      sharedLayer.hasHeader = true ∧ projectLayer.hasHeader = true ∧ topLayer.hasHeader = false ∧
      ((sharedLayer.merge (projectLayer.merge topLayer)).runConfig
          (FileTree.disk (m := StateM FileTree)) ⟨"/p"⟩).run.run headerTree =
        (.ok ⟨"// project\n", false, true, .fail⟩, headerTree) := by
  have hmerges : Merges [sharedLayer, projectLayer, topLayer]
      (sharedLayer.merge (projectLayer.merge topLayer)) :=
    .merge (.layer sharedLayer) (.merge (.layer projectLayer) (.layer topLayer))
  refine ⟨hmerges, rfl, rfl, rfl, ?_⟩
  obtain ⟨-, -, hcounts, -⟩ := the_highest_layer_with_a_setting_counts
    (FileTree.disk (m := StateM FileTree)) id ⟨none, none⟩ ⟨"/p"⟩
  obtain ⟨-, hheader, -, hconfig⟩ := hcounts _ _ hmerges
  obtain ⟨-, -, -, hfile⟩ := hheader [sharedLayer] projectLayer [topLayer] rfl rfl (by simp; rfl)
  rw [hconfig, hfile ⟨"HEADER"⟩ rfl rfl]
  rfl

end Recast.Settings
