-- Full names in the target. What a run binds is declared at sites of its units, and the
-- full name of a site is a row of words with dots between them: the words of the package
-- in pascal case, the names on the path of the type, and the method in pascal case. So
-- two full names agree exactly if their words do, and in one package only methods of one
-- type can come to share a full name.
import Recast.Proofs.BoundTypes
import Recast.Proofs.Packages

namespace Recast

theorem splitOn_dotted_path {path : List String} (h : path ≠ []) :
    Text.splitOn '.' (dotted path) = path.flatMap (Text.splitOn '.') := by
  induction path with
  | nil => exact absurd rfl h
  | cons name rest ih =>
    rw [List.flatMap_cons]
    cases rest with
    | nil => exact (List.append_nil _).symm
    | cons next rest =>
      have hrest := List.cons_ne_nil next rest
      rw [dotted_cons hrest, Text.splitOn_append, ih hrest]

namespace SourceUnit

/-! ## Words of full names -/

/-- The words of the namespace of a unit. A package without words leaves an empty one. -/
def spaceWords (u : SourceUnit) : List String :=
  match u.package with
  | none => []
  | some package =>
    if Recast.packageWords package = [] then [""]
    else (Recast.packageWords package).map pascalCase

/-- The words of the full name that a site has in the target. -/
def targetWords (u : SourceUnit) : Site → List String
  | .type path => u.spaceWords ++ path.flatMap (Text.splitOn '.')
  | .method path name =>
    u.spaceWords ++ path.flatMap (Text.splitOn '.') ++ Text.splitOn '.' (pascalCase name)

variable {u v : SourceUnit} {site site' : Site} {path path' : List String} {name name' : String}

theorem splitOn_fullNameAt (u : SourceUnit) (h : path ≠ []) :
    Text.splitOn '.' (u.fullNameAt path) = u.targetWords (.type path) := by
  unfold fullNameAt targetWords spaceWords space
  cases u.package with
  | none => exact splitOn_dotted_path h
  | some package =>
    rw [Option.map_some, TargetRef.fullName, Text.splitOn_append, splitOn_dotted_path h]
    by_cases hwords : Recast.packageWords package = []
    · simp only [namespaceOfPackage_eq_empty.mpr hwords, if_pos hwords]
      rfl
    · simp only [splitOn_namespaceOfPackage hwords, if_neg hwords]

theorem path_ne_nil_of_mem_sites (h : site ∈ u.sites) : site.path ≠ [] := by
  obtain ⟨place, hplace, hsite⟩ := u.mem_sites.mp h
  rw [Source.Place.path_of_mem_sites hsite]
  exact path_ne_nil hplace

/-- The full name of a site comes apart into its words. -/
theorem splitOn_fullName (h : site ∈ u.sites) :
    Text.splitOn '.' (u.refOf site).fullName = u.targetWords site := by
  have hpath := path_ne_nil_of_mem_sites h
  cases site with
  | type path => exact u.splitOn_fullNameAt hpath
  | method path name =>
    rw [refOf, TargetRef.fullName, Text.splitOn_append]
    exact congrArg (· ++ _) (u.splitOn_fullNameAt hpath)

theorem fullName_eq_iff_words (h : site ∈ u.sites) (h' : site' ∈ v.sites) :
    (u.refOf site).fullName = (v.refOf site').fullName ↔
      u.targetWords site = v.targetWords site' := by
  rw [← splitOn_fullName h, ← splitOn_fullName h', Text.splitOn_injective.eq_iff]

/-! ## Types of one package, and methods -/

/-- In one package, types with one full name are at one path. -/
theorem fullNameAt_eq_iff (hpackage : u.package = v.package) :
    u.fullNameAt path = v.fullNameAt path' ↔ dotted path = dotted path' := by
  have hspace : u.space = v.space := congrArg (Option.map namespaceOfPackage) hpackage
  unfold fullNameAt
  rw [hspace]
  exact ⟨TargetRef.fullName_type_inj, fun h => by rw [h]⟩

theorem keyOf_type_congr (hpackage : u.package = v.package) (h : dotted path = dotted path') :
    u.keyOf (.type path) = v.keyOf (.type path') := by
  change u.qualify (dotted path) = v.qualify (dotted path')
  unfold qualify
  rw [hpackage, h]

/-- A method name without a dot is the last word of a full name, so the owners agree
if the full names do. -/
theorem fullName_method_eq_iff (hname : '.' ∉ name.toList) (hname' : '.' ∉ name'.toList) :
    (u.refOf (.method path name)).fullName = (v.refOf (.method path' name')).fullName ↔
      u.fullNameAt path = v.fullNameAt path' ∧ pascalCase name = pascalCase name' := by
  have hdot : '.' ∉ (pascalCase name).toList := mt (mem_of_mem_pascalCase (by decide)) hname
  have hdot' : '.' ∉ (pascalCase name').toList := mt (mem_of_mem_pascalCase (by decide)) hname'
  unfold refOf TargetRef.fullName
  rw [← Text.splitOn_injective.eq_iff, Text.splitOn_dotted _ hdot, Text.splitOn_dotted _ hdot']
  constructor
  · intro hwords
    obtain ⟨howner, hlast⟩ := List.append_inj' hwords rfl
    exact ⟨Text.splitOn_injective howner, List.singleton_inj.mp hlast⟩
  · rintro ⟨howner, hlast⟩
    rw [howner, hlast]

end SourceUnit

/-! ## Runs -/

theorem Bindings.exists_site {units : List SourceUnit} {key : String} {ref : TargetRef}
    (h : (Bindings.empty.afterAll units).find? key = some ref) :
    ∃ u ∈ units, ∃ site ∈ u.sites, u.entryOf site = (key, ref) := by
  obtain ⟨u, hu, hdeclared⟩ := exists_unit h
  rw [u.declarations_eq] at hdeclared
  exact ⟨u, hu, List.mem_map.mp hdeclared⟩

/-- Take two identities that are bound in a run. Each is declared at a site of a unit,
and their full names agree exactly if the words of the sites do. Types of one package
never share a full name. Methods without a dot in their names share one exactly if
their types do and the names agree in pascal case; in one package, exactly if they are
methods of one type whose names agree in pascal case. -/
theorem full_names_agree_exactly_if_their_words_do {units : List SourceUnit}
    {key key' : String} {ref ref' : TargetRef}
    (h : (Bindings.empty.afterAll units).find? key = some ref)
    (h' : (Bindings.empty.afterAll units).find? key' = some ref') (hne : key ≠ key') :
    ∃ u ∈ units, ∃ v ∈ units, ∃ site ∈ u.sites, ∃ site' ∈ v.sites,
      u.entryOf site = (key, ref) ∧ v.entryOf site' = (key', ref') ∧
      (ref.fullName = ref'.fullName ↔ u.targetWords site = v.targetWords site') ∧
      (∀ path path', site = .type path → site' = .type path' → u.package = v.package →
        ref.fullName ≠ ref'.fullName) ∧
      ∀ path name path' name', site = .method path name → site' = .method path' name' →
        '.' ∉ name.toList → '.' ∉ name'.toList →
          (ref.fullName = ref'.fullName ↔
            u.fullNameAt path = v.fullNameAt path' ∧ pascalCase name = pascalCase name') ∧
          (u.package = v.package → (ref.fullName = ref'.fullName ↔
            dotted path = dotted path' ∧ pascalCase name = pascalCase name')) := by
  obtain ⟨u, hu, site, hsite, hentry⟩ := Bindings.exists_site h
  obtain ⟨v, hv, site', hsite', hentry'⟩ := Bindings.exists_site h'
  obtain ⟨rfl, rfl⟩ := Prod.mk.inj hentry
  obtain ⟨rfl, rfl⟩ := Prod.mk.inj hentry'
  refine ⟨u, hu, v, hv, site, hsite, site', hsite', rfl, rfl,
    SourceUnit.fullName_eq_iff_words hsite hsite', ?_, ?_⟩
  · rintro path path' rfl rfl hpackage hname
    have hpath := (SourceUnit.fullNameAt_eq_iff hpackage).mp hname
    exact hne (SourceUnit.keyOf_type_congr hpackage hpath)
  · rintro path name path' name' rfl rfl hname hname'
    refine ⟨SourceUnit.fullName_method_eq_iff hname hname', ?_⟩
    intro hpackage
    rw [SourceUnit.fullName_method_eq_iff hname hname', SourceUnit.fullNameAt_eq_iff hpackage]

/-- A class with a class in it, and a class of the same name in a package whose name
differs in case. -/
def casedUnits : List SourceUnit :=
  [(SourceUnit.ofClass "X" "X" [.bare "run", .bare "Run",
      .type { Source.TypeDecl.empty "Y" .classType with members := [.bare "run"] }]).within "a",
    (SourceUnit.ofClass "X" "X" []).within "A"]

theorem a_class_and_a_class_in_it_keep_apart :
    ∃ outer inner run run',
      (Bindings.empty.afterAll casedUnits).find? "a.X" = some outer ∧
      (Bindings.empty.afterAll casedUnits).find? "a.X.Y" = some inner ∧
      (Bindings.empty.afterAll casedUnits).find? "a.X#run" = some run ∧
      (Bindings.empty.afterAll casedUnits).find? "a.X.Y#run" = some run' ∧
      outer.fullName ≠ inner.fullName ∧ run.fullName ≠ run'.fullName := by
  have houter : (Bindings.empty.afterAll casedUnits).find? "a.X" =
      some (.type (some "A") "X") := by decide +kernel
  have hinner : (Bindings.empty.afterAll casedUnits).find? "a.X.Y" =
      some (.type (some "A") "X.Y") := by decide +kernel
  have hrun : (Bindings.empty.afterAll casedUnits).find? "a.X#run" =
      some (.member "A.X" "Run") := by decide +kernel
  have hrun' : (Bindings.empty.afterAll casedUnits).find? "a.X.Y#run" =
      some (.member "A.X.Y" "Run") := by decide +kernel
  -- each of the four identities belongs to one site of the first unit
  have hsites : ∀ u ∈ casedUnits, ∀ site ∈ u.sites,
      (u.keyOf site = "a.X" → u.package = some "a" ∧ site = .type ["X"]) ∧
      (u.keyOf site = "a.X.Y" → u.package = some "a" ∧ site = .type ["X", "Y"]) ∧
      (u.keyOf site = "a.X#run" → u.package = some "a" ∧ site = .method ["X"] "run") ∧
      (u.keyOf site = "a.X.Y#run" → u.package = some "a" ∧ site = .method ["X", "Y"] "run") := by
    decide +kernel
  refine ⟨_, _, _, _, houter, hinner, hrun, hrun', ?_, ?_⟩
  · obtain ⟨u, hu, v, hv, site, hsite, site', hsite', hentry, hentry', -, htypes, -⟩ :=
      full_names_agree_exactly_if_their_words_do houter hinner (by decide)
    obtain ⟨hpackage, htype⟩ := (hsites u hu site hsite).1 (Prod.mk.inj hentry).1
    obtain ⟨hpackage', htype'⟩ := (hsites v hv site' hsite').2.1 (Prod.mk.inj hentry').1
    exact htypes _ _ htype htype' (hpackage.trans hpackage'.symm)
  · obtain ⟨u, hu, v, hv, site, hsite, site', hsite', hentry, hentry', -, -, hmethods⟩ :=
      full_names_agree_exactly_if_their_words_do hrun hrun' (by decide)
    obtain ⟨hpackage, hmethod⟩ := (hsites u hu site hsite).2.2.1 (Prod.mk.inj hentry).1
    obtain ⟨hpackage', hmethod'⟩ := (hsites v hv site' hsite').2.2.2 (Prod.mk.inj hentry').1
    have hpaths := (hmethods _ _ _ _ hmethod hmethod' (by decide) (by decide)).2
      (hpackage.trans hpackage'.symm)
    intro hname
    exact absurd (hpaths.mp hname).1 (by decide +kernel)

theorem packages_and_methods_that_differ_in_case_share_full_names :
    ∃ lower upper run run',
      (Bindings.empty.afterAll casedUnits).find? "a.X" = some lower ∧
      (Bindings.empty.afterAll casedUnits).find? "A.X" = some upper ∧
      (Bindings.empty.afterAll casedUnits).find? "a.X#run" = some run ∧
      (Bindings.empty.afterAll casedUnits).find? "a.X#Run" = some run' ∧
      lower.fullName = upper.fullName ∧ run.fullName = run'.fullName :=
  ⟨.type (some "A") "X", .type (some "A") "X", .member "A.X" "Run", .member "A.X" "Run",
    by decide +kernel, by decide +kernel, by decide +kernel, by decide +kernel, rfl, rfl⟩

end Recast
