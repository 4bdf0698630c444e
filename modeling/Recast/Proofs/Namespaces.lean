-- Namespaces are made word by word. A package that goes on from another has the
-- words of both, so its namespace is put together from the two namespaces. A
-- namespace is a package of its own and gives itself. The directories of a unit
-- are the words of its package in pascal case, as long as no word has a slash.
import Recast.Proofs.Paths

namespace Recast

/-! ## Words in pascal case -/

/-- A word in pascal case stays as it is. -/
theorem pascalCase_pascalCase (word : String) : pascalCase (pascalCase word) = pascalCase word := by
  cases hword : word.toList with
  | nil =>
    rw [String.toList_eq_nil_iff.mp hword]
    rfl
  | cons c cs =>
    cases hupper : Text.upper c with
    | nil => exact absurd hupper (Text.upper_ne_nil c)
    | cons d ds =>
      have hchars : pascalCase word = String.ofList (d :: (ds ++ cs)) := by
        simp [pascalCase, hword, hupper]
      rw [hchars]
      simp [pascalCase, Text.upper_leading hupper]

/-! ## Packages that are put together -/

theorem packageWords_append (p q : String) :
    packageWords (p ++ "." ++ q) = packageWords p ++ packageWords q := by
  unfold packageWords
  rw [Text.splitOn_append, List.filter_append]

/-- The words of a namespace are those of its package in pascal case. -/
theorem packageWords_namespaceOfPackage (package : String) :
    packageWords (namespaceOfPackage package) = (packageWords package).map pascalCase :=
  spaceDirs_namespaceOfPackage package

theorem namespaceOfPackage_namespaceOfPackage (package : String) :
    namespaceOfPackage (namespaceOfPackage package) = namespaceOfPackage package := by
  have htwice : pascalCase ∘ pascalCase = pascalCase := funext pascalCase_pascalCase
  calc namespaceOfPackage (namespaceOfPackage package)
      = Text.joinWith "." ((packageWords (namespaceOfPackage package)).map pascalCase) := rfl
    _ = Text.joinWith "." ((packageWords package).map pascalCase) := by
      rw [packageWords_namespaceOfPackage, List.map_map, htwice]
    _ = namespaceOfPackage package := rfl

/-- An empty namespace leaves no mark in the namespace of a longer package. -/
theorem namespaceOfPackage_append (p q : String) :
    namespaceOfPackage (p ++ "." ++ q) =
      Text.joinWith "." ([namespaceOfPackage p, namespaceOfPackage q].filter (· ≠ "")) := by
  by_cases hp : packageWords p = []
  · have hspace : namespaceOfPackage (p ++ "." ++ q) = namespaceOfPackage q := by
      simp [namespaceOfPackage, packageWords_append, hp]
    rw [hspace, namespaceOfPackage_eq_empty.mpr hp]
    by_cases hq : namespaceOfPackage q = ""
    · simp [hq, Text.joinWith]
    · simp [hq, Text.joinWith]
  · have hpne : namespaceOfPackage p ≠ "" := mt namespaceOfPackage_eq_empty.mp hp
    by_cases hq : packageWords q = []
    · have hspace : namespaceOfPackage (p ++ "." ++ q) = namespaceOfPackage p := by
        simp [namespaceOfPackage, packageWords_append, hq]
      rw [hspace, namespaceOfPackage_eq_empty.mpr hq]
      simp [hpne, Text.joinWith]
    · have hqne : namespaceOfPackage q ≠ "" := mt namespaceOfPackage_eq_empty.mp hq
      have hpair :
          Text.joinWith "." ([namespaceOfPackage p, namespaceOfPackage q].filter (· ≠ "")) =
            namespaceOfPackage p ++ "." ++ namespaceOfPackage q := by
        simp [hpne, hqne, Text.joinWith]
      rw [hpair]
      -- both sides come apart into the words of the two packages
      apply Text.splitOn_injective
      rw [Text.splitOn_append, splitOn_namespaceOfPackage hp, splitOn_namespaceOfPackage hq,
        splitOn_namespaceOfPackage (by simp [packageWords_append, hp]), packageWords_append,
        List.map_append]

/-! ## The directories of a unit -/

/-- Words without dots and slashes are one step down each. -/
theorem components_folder_of_names (words : List String)
    (hwords : ∀ word ∈ words, word ≠ "" ∧ '.' ∉ word.toList ∧ '/' ∉ word.toList) (root : Path) :
    (words.foldl (fun p word => p.join ⟨word⟩) root).components =
      root.components ++ words.map .name := by
  induction words generalizing root with
  | nil => simp
  | cons word words ih =>
    rw [List.forall_mem_cons] at hwords
    obtain ⟨⟨hne, hdot, hslash⟩, hrest⟩ := hwords
    rw [List.foldl_cons, ih hrest, components_join_name root hne hslash (Path.ne_dots hdot),
      List.map_cons, List.append_assoc, List.singleton_append]

/-- The first segment of a file name is no dot, also if the extension has slashes. -/
theorem head?_segments_file (unit : Path) (extension : String) :
    (Path.mk (unit.stem ++ "." ++ extension)).segments.head? ≠ some "." := by
  obtain ⟨_, _, hstem⟩ := unit.stem_is_name
  -- up to the first slash the name is a stem with an extension again
  have hfirst : ∀ front : String, '/' ∉ front.toList →
      (Path.mk (unit.stem ++ "." ++ front)).segments = [unit.stem ++ "." ++ front] := by
    intro front hfront
    apply Path.segments_of_word
    · intro hempty
      simpa using congrArg String.toList hempty
    · simp [hstem, hfront]
  by_cases hslash : '/' ∈ extension.toList
  · obtain ⟨front, back, hchars, hfront⟩ := List.eq_append_cons_of_mem hslash
    have hcut : unit.stem ++ "." ++ extension =
        unit.stem ++ "." ++ String.ofList front ++ "/" ++ String.ofList back := by
      apply String.toList_injective
      simp [hchars]
    rw [hcut, Path.segments_slash, hfirst _ (by simpa using hfront)]
    simpa using (file_ne_dots unit (String.ofList front)).1
  · rw [hfirst _ hslash]
    simpa using (file_ne_dots unit extension).1

/-- The file of a unit goes on from its folder. -/
theorem components_join_file (folder unit : Path) (extension : String) :
    (folder.join ⟨unit.stem ++ "." ++ extension⟩).components =
      folder.components ++ (Path.mk (unit.stem ++ "." ++ extension)).components := by
  obtain ⟨hne, _, hslash⟩ := unit.stem_is_name
  have habs : (Path.mk (unit.stem ++ "." ++ extension)).isAbsolute = false := by
    rw [String.append_assoc, Path.isAbsolute_append hne]
    exact Path.isAbsolute_of_word hslash
  have hhead := head?_segments_file unit extension
  rw [Path.components_join habs hhead, Path.components_of_relative habs hhead]

/-- The namespace of a package comes apart at its dots into the words of the
package in pascal case, and it is empty only if the package has no words. So the
namespace of two packages with a dot between them is made of the two namespaces,
without the empty ones, and a namespace is its own namespace. The directories for
a unit that was recast, between the directory for the output and the name of the
file, are the words of its package in pascal case, if none of them has a slash. -/
theorem namespaces_are_made_word_by_word (p q : String) :
    (namespaceOfPackage p = "" ↔ packageWords p = []) ∧
      (packageWords p ≠ [] →
        Text.splitOn '.' (namespaceOfPackage p) = (packageWords p).map pascalCase) ∧
      namespaceOfPackage (p ++ "." ++ q) =
        Text.joinWith "." ([namespaceOfPackage p, namespaceOfPackage q].filter (· ≠ "")) ∧
      namespaceOfPackage (namespaceOfPackage p) = namespaceOfPackage p ∧
      ∀ (dir : OutputDir) (bindings : Bindings) (u : SourceUnit) (target : TargetUnit),
        (u.recast bindings).result = .ok target →
        (∀ word ∈ u.packageWords, '/' ∉ word.toList) →
          (dir.pathFor target).components =
            dir.root.components ++ (u.packageWords.map pascalCase).map .name ++
              (Path.mk (u.path.stem ++ "." ++ dir.extension)).components ∧
          ('/' ∉ dir.extension.toList →
            (Path.mk (u.path.stem ++ "." ++ dir.extension)).components =
              [.name (u.path.stem ++ "." ++ dir.extension)]) := by
  refine ⟨namespaceOfPackage_eq_empty, splitOn_namespaceOfPackage, namespaceOfPackage_append p q,
    namespaceOfPackage_namespaceOfPackage p, ?_⟩
  intro dir bindings u target h hslash
  obtain ⟨_, _, rfl⟩ := SourceUnit.recast_ok h
  have hwords : ∀ word ∈ u.packageWords.map pascalCase,
      word ≠ "" ∧ '.' ∉ word.toList ∧ '/' ∉ word.toList := by
    intro word hword
    obtain ⟨hne, hdot⟩ := SourceUnit.mem_pascalWords hword
    obtain ⟨source, hsource, rfl⟩ := List.mem_map.mp hword
    exact ⟨hne, hdot, mt (mem_of_mem_pascalCase (by decide)) (hslash source hsource)⟩
  refine ⟨?_, fun hext => ?_⟩
  · rw [dir.pathFor_targetOf, components_join_file, components_folder_of_names _ hwords]
  · have hfile := components_file dir.root u.path hext
    rw [components_join_file] at hfile
    exact List.append_cancel_left hfile

/-- A unit of a package with dots at both ends and two in a row. -/
def strayDotsUnit : SourceUnit := ⟨"src/Greeter.unit.json", some ".com..ßa.", [], [], []⟩

theorem stray_dots_leave_no_directories :
    packageWords ".com..ßa." = ["com", "ßa"] ∧
      Text.splitOn '.' (namespaceOfPackage ".com..ßa.") = ["Com", "SSa"] ∧
      namespaceOfPackage (".com..ßa." ++ "." ++ "..") = "Com.SSa" ∧
      namespaceOfPackage "Com.SSa" = "Com.SSa" ∧
      ∃ target, (strayDotsUnit.recast .empty).result = .ok target ∧
        (genDir.pathFor target).components =
          genDir.root.components ++ [.name "Com", .name "SSa", .name "Greeter.cs"] := by
  have hwords : packageWords ".com..ßa." = ["com", "ßa"] := by decide +kernel
  have hspace : namespaceOfPackage ".com..ßa." = "Com.SSa" := by decide +kernel
  obtain ⟨-, hsplit, happend, hagain, hdirs⟩ := namespaces_are_made_word_by_word ".com..ßa." ".."
  obtain ⟨hpath, hfile⟩ := hdirs genDir .empty strayDotsUnit _ rfl (by decide +kernel)
  refine ⟨hwords, ?_, ?_, ?_, _, rfl, ?_⟩
  · rw [hsplit (by simp [hwords]), hwords]
    decide +kernel
  · rw [happend]
    decide +kernel
  · rwa [hspace] at hagain
  · rw [hpath, hfile (by decide)]
    decide +kernel

end Recast
