-- Where the files of units are. The steps of a path that is put together are
-- the steps of its parts, and no name that a unit gives leads upwards. So a
-- file is inside the directory for the output, unless a word of the package
-- starts with a slash: such a word is a path that starts at the top.
import Recast.FrontEnd
import Recast.Proofs.Bindings
import Recast.Proofs.Packages

namespace Recast

namespace Path

/-! ## Segments and steps -/

theorem mem_segments {p : Path} {segment : String} (h : segment ∈ p.segments) :
    segment ≠ "" ∧ ∀ c ∈ segment.toList, c ∈ p.text.toList ∧ c ≠ '/' := by
  obtain ⟨hpart, hne⟩ := List.mem_filter.mp h
  exact ⟨by simpa using hne, fun c hc => Text.mem_of_mem_splitOn hpart hc⟩

/-- A slash cuts a text in two. -/
theorem segments_slash (s t : String) :
    (Path.mk (s ++ "/" ++ t)).segments = (Path.mk s).segments ++ (Path.mk t).segments := by
  have hchars : (s ++ "/" ++ t).toList = s.toList ++ '/' :: t.toList := by
    simp
  unfold segments Text.splitOn
  rw [hchars, Text.splitChars_eq, Text.splitChars_eq, Text.splitChars_eq,
    List.splitOn_append_cons_self, List.map_append, List.filter_append]

/-- A slash at the end of a text cuts nothing off. -/
theorem segments_slash_end (s : String) : (Path.mk (s ++ "/")).segments = (Path.mk s).segments := by
  have hcut := segments_slash s ""
  have hnone : (Path.mk "").segments = [] := by decide
  rwa [String.append_empty, hnone, List.append_nil] at hcut

/-- A text without slashes is one segment. -/
theorem segments_of_word {s : String} (hne : s ≠ "") (h : '/' ∉ s.toList) :
    (Path.mk s).segments = [s] := by
  unfold segments Text.splitOn
  rw [Text.splitChars_eq, List.splitOn_eq_singleton h]
  simp [hne]

theorem steps_append (xs ys : List String) : steps (xs ++ ys) = steps xs ++ steps ys := by
  unfold steps
  rw [List.filter_append, List.map_append]

/-- A text without dots is not made of dots. -/
theorem ne_dots {s : String} (h : '.' ∉ s.toList) : s ≠ "." ∧ s ≠ ".." := by
  constructor
  · rintro rfl
    exact h (by decide)
  · rintro rfl
    exact h (by decide)

/-- Segments other than the dots are names. -/
theorem steps_of_names {segments : List String} (h : ∀ s ∈ segments, s ≠ "." ∧ s ≠ "..") :
    steps segments = segments.map .name := by
  induction segments with
  | nil => rfl
  | cons s rest ih =>
    rw [List.forall_mem_cons] at h
    obtain ⟨⟨hdot, hdots⟩, hrest⟩ := h
    rw [List.map_cons, ← ih hrest]
    simp [steps, step, hdot, hdots]

/-- Only an absolute path has the root as a step. -/
theorem isAbsolute_of_root {p : Path} (h : .root ∈ p.components) : p.isAbsolute = true := by
  have hsteps : ∀ segments, .root ∉ steps segments := by
    intro segments hroot
    obtain ⟨segment, -, hstep⟩ := List.mem_map.mp hroot
    unfold step at hstep
    split at hstep <;> cases hstep
  unfold components at h
  split at h
  · assumption
  · split at h
    · exact absurd h (by simp [hsteps])
    · exact absurd h (hsteps _)

/-- A text without slashes does not start at the root. -/
theorem isAbsolute_of_word {s : String} (h : '/' ∉ s.toList) : (Path.mk s).isAbsolute = false := by
  rw [Bool.eq_false_iff]
  intro habs
  exact h (List.mem_of_head? (by simpa [isAbsolute] using habs))

/-- A relative path is its steps, unless it starts with a dot. -/
theorem components_of_relative {p : Path} (habs : p.isAbsolute = false)
    (hdot : p.segments.head? ≠ some ".") : p.components = steps p.segments := by
  unfold components
  rw [habs, if_neg Bool.false_ne_true]
  split
  · rename_i rest hsegments
    exact absurd (by rw [hsegments]; rfl) hdot
  · rfl

/-! ## Paths that are put together -/

/-- Segments behind those of a path are steps behind its steps. Only at the
start of a path would a dot count. -/
theorem components_append {p q : Path} {more : List String}
    (habs : q.isAbsolute = p.isAbsolute) (hsegments : q.segments = p.segments ++ more)
    (hdot : more.head? ≠ some ".") : q.components = p.components ++ steps more := by
  unfold components
  rw [habs, hsegments]
  split
  · rw [steps_append]
    rfl
  · cases hp : p.segments with
    | nil =>
      cases more with
      | nil => rfl
      | cons s rest =>
        have hs : s ≠ "." := by simpa using hdot
        simp [hs, steps]
    | cons s rest =>
      by_cases hs : s = "."
      · subst hs
        exact congrArg (Component.here :: ·) (steps_append rest more)
      · simpa [hs] using steps_append (s :: rest) more

theorem isAbsolute_append {s t : String} (hs : s ≠ "") :
    (Path.mk (s ++ t)).isAbsolute = (Path.mk s).isAbsolute := by
  unfold isAbsolute
  cases hchars : s.toList with
  | nil => exact absurd (String.toList_eq_nil_iff.mp hchars) hs
  | cons c cs => simp [hchars]

/-- A relative path that is read from a base goes on from the base. -/
theorem components_join {base tail : Path} (habs : tail.isAbsolute = false)
    (hdot : tail.segments.head? ≠ some ".") :
    (base.join tail).components = base.components ++ steps tail.segments := by
  unfold join
  rw [habs, Bool.false_or]
  split
  · rename_i hempty
    have hbase : base = ⟨""⟩ := by
      cases base
      simpa using hempty
    have hnone : (Path.mk "").components = [] := by decide
    rw [hbase, hnone, List.nil_append]
    exact components_of_relative habs hdot
  · rename_i hbase
    have hne : base.text ≠ "" := by simpa using hbase
    split
    · rename_i hend
      obtain ⟨front, hfront⟩ : ∃ front : String, base.text = front ++ "/" := by
        have hlast : base.text.toList.getLast? = some '/' := by simpa using hend
        obtain ⟨cs, hcs⟩ := List.getLast?_eq_some_iff.mp hlast
        refine ⟨String.ofList cs, String.toList_injective ?_⟩
        simp [hcs]
      refine components_append (isAbsolute_append hne) ?_ hdot
      have hsame : base.segments = (Path.mk front).segments := by
        rw [← segments_slash_end front, ← hfront]
      rw [hfront, segments_slash, hsame]
    · refine components_append ?_ (segments_slash base.text tail.text) hdot
      rw [String.append_assoc]
      exact isAbsolute_append hne

/-! ## File names and stems -/

theorem mem_components {p : Path} {s : String} (h : .name s ∈ p.components) :
    s ∈ p.segments ∧ s ≠ "." ∧ s ≠ ".." := by
  have hsteps : ∀ segments, .name s ∈ steps segments → s ∈ segments ∧ s ≠ "." ∧ s ≠ ".." := by
    intro segments hs
    obtain ⟨segment, hsegment, hstep⟩ := List.mem_map.mp hs
    obtain ⟨hmem, hdot⟩ := List.mem_filter.mp hsegment
    unfold step at hstep
    split at hstep
    · cases hstep
    · rename_i hdots
      cases hstep
      exact ⟨hmem, by simpa using hdot, hdots⟩
  unfold components at h
  split at h
  · exact hsteps _ (by simpa using h)
  · split at h
    · rename_i rest hsegments
      obtain ⟨hmem, hne⟩ := hsteps rest (by simpa using h)
      rw [hsegments]
      exact ⟨List.mem_cons_of_mem _ hmem, hne⟩
    · exact hsteps _ h

/-- The stem of a unit is a name, without slashes. -/
theorem stem_is_name (p : Path) : p.stem ≠ "" ∧ p.stem ≠ "." ∧ '/' ∉ p.stem.toList := by
  unfold stem
  cases hname : p.fileName? with
  | none => decide
  | some name =>
    have hlast : p.components.getLast? = some (.name name) := by
      unfold fileName? at hname
      split at hname
      · rename_i s hs
        cases hname
        exact hs
      · cases hname
    obtain ⟨hsegment, hdot, -⟩ := mem_components (List.mem_of_getLast? hlast)
    obtain ⟨hne, hchars⟩ := mem_segments hsegment
    have hslash : '/' ∉ name.toList := fun h => (hchars _ h).2 rfl
    dsimp only
    split
    · rename_i first rest hparts
      have hpart : first ∈ Text.splitOn '.' name := by
        rw [hparts]
        exact List.mem_cons_self
      split
      · exact ⟨hne, hdot, hslash⟩
      · rename_i hfirst
        refine ⟨hfirst, ?_, ?_⟩
        · rintro rfl
          exact (Text.mem_of_mem_splitOn hpart (by decide)).2 rfl
        · exact fun h => hslash (Text.mem_of_mem_splitOn hpart h).1
    · exact ⟨hne, hdot, hslash⟩

end Path

/-! ## The files of units -/

open Recast.Path (Component)

/-- The words of the package of a unit. -/
def SourceUnit.packageWords (u : SourceUnit) : List String :=
  u.package.elim [] Recast.packageWords

/-- A word of the package starts with a slash. -/
def SourceUnit.startsAtTop (u : SourceUnit) : Bool :=
  u.packageWords.any fun word => (Path.mk word).isAbsolute

theorem SourceUnit.spaceDirs_space (u : SourceUnit) :
    spaceDirs u.space = u.packageWords.map pascalCase := by
  unfold SourceUnit.space SourceUnit.packageWords
  cases u.package with
  | none => rfl
  | some package => exact spaceDirs_namespaceOfPackage package

theorem SourceUnit.mem_pascalWords {u : SourceUnit} {part : String}
    (h : part ∈ u.packageWords.map pascalCase) : part ≠ "" ∧ '.' ∉ part.toList := by
  unfold SourceUnit.packageWords at h
  cases hpackage : u.package with
  | none => simp [hpackage] at h
  | some package =>
    rw [hpackage] at h
    exact Recast.mem_pascalWords h

/-- The file of a unit, by the words of its package. -/
theorem OutputDir.pathFor_targetOf (dir : OutputDir) (u : SourceUnit) (bindings : Bindings) :
    dir.pathFor (u.targetOf bindings) =
      ((u.packageWords.map pascalCase).foldl (fun p word => p.join ⟨word⟩) dir.root).join
        ⟨u.path.stem ++ "." ++ dir.extension⟩ := by
  rw [← u.spaceDirs_space]
  rfl

theorem isAbsolute_pascalCase (word : String) :
    (Path.mk (pascalCase word)).isAbsolute = (Path.mk word).isAbsolute := by
  have hslash := head?_pascalCase_slash word
  rw [Bool.eq_iff_iff]
  simpa [Path.isAbsolute] using hslash

/-- No segment of a word without dots is made of dots. -/
theorem steps_of_word {word : String} (h : '.' ∉ word.toList) :
    Path.steps (Path.mk word).segments = (Path.mk word).segments.map .name := by
  apply Path.steps_of_names
  intro s hs
  exact Path.ne_dots fun hmem => h ((Path.mem_segments hs).2 _ hmem).1

/-- The directories of words without dots go down from the root, or from the
top of the tree if one of the words starts there. -/
theorem components_folder (words : List String) (hwords : ∀ word ∈ words, '.' ∉ word.toList)
    (root : Path) :
    ∃ names : List String, (words.foldl (fun p word => p.join ⟨word⟩) root).components =
      (if words.any fun word => (Path.mk word).isAbsolute then [.root] else root.components) ++
        names.map .name := by
  induction words generalizing root with
  | nil => exact ⟨[], by simp⟩
  | cons word words ih =>
    rw [List.forall_mem_cons] at hwords
    obtain ⟨hdot, hrest⟩ := hwords
    obtain ⟨names, hnames⟩ := ih hrest (root.join ⟨word⟩)
    rw [List.foldl_cons, hnames, List.any_cons]
    cases words.any fun word => (Path.mk word).isAbsolute with
    | true => exact ⟨names, by simp⟩
    | false =>
      refine ⟨(Path.mk word).segments ++ names, ?_⟩
      rw [List.map_append, ← List.append_assoc, ← steps_of_word hdot]
      cases habs : (Path.mk word).isAbsolute with
      | true =>
        -- an absolute word stands alone
        have hjoin : root.join ⟨word⟩ = ⟨word⟩ := by simp [Path.join, habs]
        have htop : (Path.mk word).components = .root :: Path.steps (Path.mk word).segments := by
          simp [Path.components, habs]
        rw [hjoin, htop]
        rfl
      | false =>
        have hhead : (Path.mk word).segments.head? ≠ some "." := by
          intro hhead
          have hmem := (Path.mem_segments (List.mem_of_head? hhead)).2 '.' (by decide)
          exact hdot hmem.1
        rw [Path.components_join habs hhead]
        rfl

/-- A plain name is one step down. -/
theorem components_join_name (folder : Path) {name : String} (hne : name ≠ "")
    (hslash : '/' ∉ name.toList) (hdots : name ≠ "." ∧ name ≠ "..") :
    (folder.join ⟨name⟩).components = folder.components ++ [.name name] := by
  have hsegments := Path.segments_of_word hne hslash
  rw [Path.components_join (Path.isAbsolute_of_word hslash) (by simp [hsegments, hdots.1]),
    hsegments, Path.steps_of_names (by simpa using hdots)]
  rfl

/-- A stem with an extension is not made of dots alone: something stands before
the dot, and it is not a dot. -/
theorem file_ne_dots (unit : Path) (extension : String) :
    unit.stem ++ "." ++ extension ≠ "." ∧ unit.stem ++ "." ++ extension ≠ ".." := by
  obtain ⟨hne, hdot, _⟩ := unit.stem_is_name
  have hchars : (unit.stem ++ "." ++ extension).toList =
      unit.stem.toList ++ '.' :: extension.toList := by simp
  cases hstem : unit.stem.toList with
  | nil => exact absurd (String.toList_eq_nil_iff.mp hstem) hne
  | cons c cs =>
    rw [hstem] at hchars
    constructor
    · intro hone
      rw [hone] at hchars
      simp at hchars
    · intro htwo
      rw [htwo] at hchars
      apply hdot
      apply String.toList_injective
      rw [hstem]
      cases cs with
      | nil =>
        have hc : '.' = c ∧ extension = "" := by simpa using hchars
        rw [← hc.1]
        decide
      | cons d ds => simp at hchars

/-- The file of a unit is one step down. -/
theorem components_file (folder unit : Path) {extension : String}
    (hext : '/' ∉ extension.toList) :
    (folder.join ⟨unit.stem ++ "." ++ extension⟩).components =
      folder.components ++ [.name (unit.stem ++ "." ++ extension)] := by
  obtain ⟨_, _, hslash⟩ := unit.stem_is_name
  refine components_join_name folder ?_ ?_ (file_ne_dots unit extension)
  · intro hempty
    simpa using congrArg String.toList hempty
  · simp [hslash, hext]

/-- The file of a unit that was recast goes down from the directory for the
output by names alone, so it is inside that directory. But if a word of the
package starts with a slash, it goes down from the top of the tree, wherever
the directory is, and it is outside of every directory that is given by a
relative path. -/
theorem files_are_inside_unless_a_word_starts_at_the_top (dir : OutputDir) (bindings : Bindings)
    (u : SourceUnit) (target : TargetUnit) (hext : '/' ∉ dir.extension.toList)
    (h : (u.recast bindings).result = .ok target) :
    ∃ names : List String, names.getLast? = some (u.path.stem ++ "." ++ dir.extension) ∧
      (dir.pathFor target).components =
        (if u.startsAtTop then [.root] else dir.root.components) ++ names.map .name ∧
      (u.startsAtTop = false → dir.root.components <+: (dir.pathFor target).components ∧
        .up ∉ (dir.pathFor target).components.drop dir.root.components.length) ∧
      (u.startsAtTop = true → dir.root.isAbsolute = false → dir.root.components ≠ [] →
        ¬ dir.root.components <+: (dir.pathFor target).components) := by
  obtain ⟨_, _, rfl⟩ := SourceUnit.recast_ok h
  have hwords : ∀ word ∈ u.packageWords.map pascalCase, '.' ∉ word.toList :=
    fun _ hword => (SourceUnit.mem_pascalWords hword).2
  have htop : ((u.packageWords.map pascalCase).any fun word => (Path.mk word).isAbsolute) =
      u.startsAtTop := by
    simp [SourceUnit.startsAtTop, isAbsolute_pascalCase, Function.comp_def]
  obtain ⟨dirs, hdirs⟩ := components_folder _ hwords dir.root
  rw [dir.pathFor_targetOf, components_file _ _ hext, hdirs, htop, List.append_assoc]
  refine ⟨dirs ++ [u.path.stem ++ "." ++ dir.extension], by simp, by simp, ?_, ?_⟩
  · intro hinside
    rw [hinside, if_neg Bool.false_ne_true]
    refine ⟨List.prefix_append _ _, ?_⟩
    simp
  · intro houtside hrelative hne
    rw [houtside, if_pos rfl]
    intro hstarts
    cases hroot : dir.root.components with
    | nil => exact hne hroot
    | cons first rest =>
      rw [hroot] at hstarts
      obtain rfl : first = .root := (List.cons_prefix_cons.mp hstarts).1
      have habs := Path.isAbsolute_of_root (p := dir.root) (by simp [hroot])
      rw [hrelative] at habs
      cases habs

/-- A directory for C# files. -/
def genDir : OutputDir := ⟨"out/./gen", "cs"⟩

/-- A unit whose path ends upwards, in a package with a slash inside a word. -/
def slashedUnit : SourceUnit := ⟨"x/..", some "com/acme..util", [], [], []⟩

theorem a_slash_inside_a_word_stays_inside :
    slashedUnit.startsAtTop = false ∧ ∃ target, (slashedUnit.recast .empty).result = .ok target ∧
      (genDir.pathFor target).text = "out/./gen/Com/acme/Util/unit.cs" ∧
      genDir.root.components <+: (genDir.pathFor target).components ∧
      .up ∉ (genDir.pathFor target).components.drop 2 := by
  obtain ⟨_, _, _, hinside, _⟩ := files_are_inside_unless_a_word_starts_at_the_top genDir .empty
    slashedUnit _ (by decide) rfl
  obtain ⟨hstarts, hup⟩ := hinside (by decide)
  exact ⟨by decide, _, rfl, by decide +kernel, hstarts, hup⟩

/-- The package of this unit starts with a slash, and its file is not inside
the directory for the output. -/
theorem a_package_that_starts_with_a_slash_leads_outside :
    ∃ u target, SourceUnit.read id "A" "\x7b\"package\": \"/etc\"\x7d" = .ok u ∧
      (u.recast .empty).result = .ok target ∧ (genDir.pathFor target).text = "/etc/A.cs" ∧
      ¬ genDir.root.components <+: (genDir.pathFor target).components := by
  refine ⟨_, _, rfl, rfl, ?_, ?_⟩
  · decide +kernel
  · decide +kernel

end Recast
