-- The namespace of a package comes apart into the words of the package, each
-- in pascal case. A word in pascal case is never empty, and it holds a dot or
-- a slash only if the word does.
import Recast.Destination
import Recast.Proofs.Names
import Recast.Proofs.Uppercase

namespace Recast

namespace Text

/-! ## Words and their parts -/

/-- The parts hold the characters of the text, without the separators. -/
theorem mem_of_mem_splitChars {sep c : Char} {cs part : List Char} (h : part ∈ splitChars sep cs)
    (hc : c ∈ part) : c ∈ cs ∧ c ≠ sep := by
  induction cs generalizing part with
  | nil =>
    rw [splitChars, List.mem_singleton] at h
    rw [h] at hc
    cases hc
  | cons d cs ih =>
    unfold splitChars at h
    by_cases hd : d = sep
    · rw [if_pos hd, List.mem_cons] at h
      rcases h with rfl | h
      · cases hc
      · obtain ⟨hmem, hne⟩ := ih h hc
        exact ⟨List.mem_cons_of_mem _ hmem, hne⟩
    · rw [if_neg hd] at h
      cases hparts : splitChars sep cs with
      | nil => exact absurd hparts (splitChars_ne_nil sep cs)
      | cons first parts =>
        rw [hparts] at h ih
        rcases List.mem_cons.mp h with rfl | h
        · rcases List.mem_cons.mp hc with rfl | hc
          · exact ⟨List.mem_cons_self, hd⟩
          · obtain ⟨hmem, hne⟩ := ih List.mem_cons_self hc
            exact ⟨List.mem_cons_of_mem _ hmem, hne⟩
        · obtain ⟨hmem, hne⟩ := ih (List.mem_cons_of_mem _ h) hc
          exact ⟨List.mem_cons_of_mem _ hmem, hne⟩

theorem mem_of_mem_splitOn {sep c : Char} {s part : String} (h : part ∈ splitOn sep s)
    (hc : c ∈ part.toList) : c ∈ s.toList ∧ c ≠ sep := by
  obtain ⟨cs, hcs, rfl⟩ := List.mem_map.mp h
  rw [String.toList_ofList] at hc
  exact mem_of_mem_splitChars hcs hc

/-- Parts without separators that are joined come apart again. -/
theorem splitOn_joinWith {parts : List String} (hne : parts ≠ [])
    (h : ∀ part ∈ parts, '.' ∉ part.toList) : splitOn '.' (joinWith "." parts) = parts := by
  have hsep : ".".toList = ['.'] := by decide
  have hparts : ∀ cs ∈ parts.map String.toList, '.' ∉ cs := by
    simpa using h
  rw [splitOn, joinWith_eq, String.toList_intercalate, hsep, splitChars_eq,
    List.splitOn_intercalate '.' hparts (by simpa using hne), List.map_map]
  simp [Function.comp_def]

end Text

/-! ## The words of a package -/

theorem pascalCase_ne_empty {word : String} (h : word ≠ "") : pascalCase word ≠ "" := by
  unfold pascalCase
  split
  · rename_i hnil
    exact absurd (String.toList_eq_nil_iff.mp hnil) h
  · rename_i c cs _
    simp [Text.upper_ne_nil]

/-- A character up to the slash is in a word in pascal case only if it is in
the word. -/
theorem mem_of_mem_pascalCase {word : String} {d : Char} (hd : 0 < d.toNat ∧ d.toNat ≤ 0x2f)
    (h : d ∈ (pascalCase word).toList) : d ∈ word.toList := by
  unfold pascalCase at h
  split at h
  · simp at h
  · rename_i c cs hword
    rw [String.toList_ofList, List.mem_append] at h
    rw [hword]
    rcases h with h | h
    · rw [Text.eq_of_mem_upper hd h]
      exact List.mem_cons_self
    · exact List.mem_cons_of_mem _ h

/-- The pascal case of a word starts with a slash only if the word does. -/
theorem head?_pascalCase_slash (word : String) :
    (pascalCase word).toList.head? = some '/' ↔ word.toList.head? = some '/' := by
  unfold pascalCase
  split
  · rename_i hnil
    simp [hnil]
  · rename_i c cs hword
    rw [hword, String.toList_ofList]
    cases hupper : Text.upper c with
    | nil => exact absurd hupper (Text.upper_ne_nil c)
    | cons d ds =>
      simp only [List.cons_append, List.head?_cons, Option.some.injEq]
      constructor
      · rintro rfl
        exact Text.eq_of_mem_upper (by decide) (hupper ▸ List.mem_cons_self)
      · rintro rfl
        have hslash : Text.upper '/' = ['/'] := by decide +kernel
        rw [hslash] at hupper
        exact (List.cons.inj hupper).1.symm

theorem mem_packageWords {package word : String} (h : word ∈ packageWords package) :
    word ≠ "" ∧ '.' ∉ word.toList := by
  obtain ⟨hpart, hne⟩ := List.mem_filter.mp h
  exact ⟨by simpa using hne, fun hdot => (Text.mem_of_mem_splitOn hpart hdot).2 rfl⟩

theorem mem_pascalWords {package part : String} (h : part ∈ (packageWords package).map pascalCase) :
    part ≠ "" ∧ '.' ∉ part.toList := by
  obtain ⟨word, hword, rfl⟩ := List.mem_map.mp h
  obtain ⟨hne, hdot⟩ := mem_packageWords hword
  exact ⟨pascalCase_ne_empty hne, fun h => hdot (mem_of_mem_pascalCase (by decide) h)⟩

/-- A namespace comes apart into the words of its package. -/
theorem splitOn_namespaceOfPackage {package : String} (h : packageWords package ≠ []) :
    Text.splitOn '.' (namespaceOfPackage package) = (packageWords package).map pascalCase :=
  Text.splitOn_joinWith (by simpa using h) fun _ hpart => (mem_pascalWords hpart).2

/-- Only a package without words has an empty namespace. -/
theorem namespaceOfPackage_eq_empty {package : String} :
    namespaceOfPackage package = "" ↔ packageWords package = [] := by
  constructor
  · intro hempty
    by_cases hwords : packageWords package = []
    · exact hwords
    · have hmem : "" ∈ (packageWords package).map pascalCase := by
        rw [← splitOn_namespaceOfPackage hwords, hempty]
        exact List.mem_singleton_self _
      exact absurd rfl (mem_pascalWords hmem).1
  · intro hwords
    unfold namespaceOfPackage
    rw [hwords]
    rfl

/-- The directories of a namespace are named for the words of its package. -/
theorem spaceDirs_namespaceOfPackage (package : String) :
    spaceDirs (some (namespaceOfPackage package)) = (packageWords package).map pascalCase := by
  unfold spaceDirs
  dsimp only
  by_cases hnil : packageWords package = []
  · rw [namespaceOfPackage_eq_empty.mpr hnil, hnil]
    decide
  · rw [splitOn_namespaceOfPackage hnil, List.filter_eq_self]
    intro part hpart
    simpa using (mem_pascalWords hpart).1

end Recast
