-- Units in which no two declarations can clash. Keys are put together with dots
-- and hashes, so names without these are told apart by their keys; and types that
-- stand in one scope need names of their own. Nothing is asked of the package, of
-- methods of one name, or of a method and a type of one name.
import Mathlib.Data.List.Nodup
import Recast.Proofs.Packages
import Recast.Proofs.Places

namespace Recast

/-! ## Plain names -/

/-- Neither a dot nor a hash is in the name. -/
def PlainName (name : String) : Prop := '.' ∉ name.toList ∧ '#' ∉ name.toList

instance (name : String) : Decidable (PlainName name) := inferInstanceAs (Decidable (_ ∧ _))

theorem hash_not_mem_dotted {path : List String} (h : ∀ name ∈ path, PlainName name) :
    '#' ∉ (dotted path).toList := by
  induction path with
  | nil => simp [dotted, Text.joinWith]
  | cons first rest ih =>
    obtain ⟨hfirst, hrest⟩ := List.forall_mem_cons.mp h
    cases rest with
    | nil => exact hfirst.2
    | cons second rest =>
      rw [dotted_cons (List.cons_ne_nil second rest)]
      simpa using ⟨hfirst.2, ih hrest⟩

/-- The names of a path come back from its text. -/
theorem dotted_inj {path path' : List String} (hne : path ≠ []) (hne' : path' ≠ [])
    (h : ∀ name ∈ path, PlainName name) (h' : ∀ name ∈ path', PlainName name)
    (heq : dotted path = dotted path') : path = path' := by
  rw [← Text.splitOn_joinWith hne fun name hname => (h name hname).1,
    ← Text.splitOn_joinWith hne' fun name hname => (h' name hname).1]
  exact congrArg (Text.splitOn '.') heq

/-! ## Keys -/

namespace Site

/-- The key of a site without the package. -/
def text : Site → String
  | .type path => dotted path
  | .method path name => dotted path ++ "#" ++ name

/-- All the names at a site. -/
def names : Site → List String
  | .type path => path
  | .method path name => name :: path

structure Plain (site : Site) : Prop where
  path_ne_nil : site.path ≠ []
  names : ∀ name ∈ site.names, PlainName name

theorem hash_mem_text (path : List String) (name : String) : '#' ∈ (text (.method path name)).toList := by
  simp [text]

/-- A site comes back from its text. -/
theorem text_inj {site site' : Site} (h : site.Plain) (h' : site'.Plain)
    (heq : site.text = site'.text) : site = site' := by
  cases site with
  | type path =>
    cases site' with
    | type path' =>
      have hpath : path = path' := dotted_inj h.path_ne_nil h'.path_ne_nil h.names h'.names heq
      rw [hpath]
    | method path' name' =>
      have hhash := hash_mem_text path' name'
      rw [← heq] at hhash
      exact absurd hhash (hash_not_mem_dotted h.names)
  | method path name =>
    obtain ⟨hname, hpath⟩ := List.forall_mem_cons.mp h.names
    cases site' with
    | type path' =>
      have hhash := hash_mem_text path name
      rw [heq] at hhash
      exact absurd hhash (hash_not_mem_dotted h'.names)
    | method path' name' =>
      obtain ⟨hname', hpath'⟩ := List.forall_mem_cons.mp h'.names
      have hchars : (dotted path).toList ++ '#' :: name.toList =
          (dotted path').toList ++ '#' :: name'.toList := by
        simpa [text] using congrArg String.toList heq
      obtain ⟨hdotted, -, hnames⟩ :=
        (List.append_cons_inj_of_notMem (hash_not_mem_dotted hpath) hname.2).mp hchars
      have hsame : path = path' := dotted_inj h.path_ne_nil h'.path_ne_nil hpath hpath'
        (String.toList_injective hdotted)
      rw [String.toList_injective hnames, hsame]

end Site

namespace SourceUnit

theorem qualify_injective (u : SourceUnit) : Function.Injective u.qualify := by
  intro name name' h
  unfold qualify at h
  split at h
  · split at h
    · exact h
    · exact (String.append_right_inj _).mp h
  · exact h

theorem keyOf_eq (u : SourceUnit) (site : Site) : u.keyOf site = u.qualify site.text := by
  cases site with
  | type path => rfl
  | method path name =>
    rw [keyOf, Site.text, qualify_append, qualify_append]
    rfl

end SourceUnit

/-! ## Scopes -/

namespace Source

/-- The names of the types of one scope, without the annotation types. -/
def scopeNames (decls : List TypeDecl) : List String :=
  (decls.filter (·.kind ≠ .annotationType)).map (·.name)

theorem TypeDecl.kind_of_mem_sites {decl : TypeDecl} {around : List String} {site : Site}
    (h : site ∈ decl.sites around) : decl.kind ≠ .annotationType := by
  obtain ⟨name, kind, modifiers, base, interfaces, constants, members, span⟩ := decl
  rintro rfl
  simp [TypeDecl.sites] at h

theorem name_mem_scopeNames {decl : TypeDecl} {decls : List TypeDecl} (h : decl ∈ decls)
    (hkind : decl.kind ≠ .annotationType) : decl.name ∈ scopeNames decls :=
  List.mem_map_of_mem (List.mem_filter.mpr ⟨h, decide_eq_true hkind⟩)

theorem scopeNames_cons {decl : TypeDecl} (h : decl.kind ≠ .annotationType)
    (decls : List TypeDecl) : scopeNames (decl :: decls) = decl.name :: scopeNames decls := by
  simp [scopeNames, h]

theorem scopeNames_sublist_cons (decl : TypeDecl) (decls : List TypeDecl) :
    (scopeNames decls).Sublist (scopeNames (decl :: decls)) :=
  ((List.sublist_cons_self decl decls).filter _).map _

/-- Types of one scope that share a site have one name. -/
theorem TypeDecl.name_eq_of_mem_sites {decl decl' : TypeDecl} {around : List String} {site : Site}
    (h : site ∈ decl.sites around) (h' : site ∈ decl'.sites around) : decl.name = decl'.name := by
  have hprefix := List.prefix_of_prefix_length_le (prefix_of_mem_sites h) (prefix_of_mem_sites h')
    (by simp)
  have hpaths := hprefix.eq_of_length_le (by simp)
  simpa using hpaths

/-- In every scope of the places the types have different names. -/
def ScopesApart (places : List Place) : Prop :=
  ∀ place ∈ places, (scopeNames (nestedTypes place.decl.members)).Nodup

instance (places : List Place) : Decidable (ScopesApart places) :=
  inferInstanceAs (Decidable (∀ place ∈ places, _))

mutual

theorem TypeDecl.nodup_sites (around : List String) : ∀ decl : TypeDecl,
    ScopesApart (decl.places around) → (decl.sites around).Nodup
  | ⟨name, kind, modifiers, base, interfaces, constants, members, span⟩, h => by
    unfold TypeDecl.places at h
    unfold TypeDecl.sites
    by_cases hkind : kind = .annotationType
    · rw [if_pos hkind]
      exact List.nodup_nil
    · rw [if_neg hkind] at h ⊢
      obtain ⟨hscope, hmembers⟩ := List.forall_mem_cons.mp h
      refine List.nodup_cons.mpr ⟨?_, nodup_memberSites _ members hscope hmembers⟩
      intro hmem
      rcases memberSites_cases hmem with ⟨method, hmethod⟩ | ⟨decl, -, hdecl⟩
      · cases hmethod
      · exact TypeDecl.path_ne_of_mem_sites hdecl rfl

theorem nodup_memberSites (path : List String) : ∀ members : List Member,
    (scopeNames (nestedTypes members)).Nodup → ScopesApart (memberPlaces path members) →
      (memberSites path members).Nodup
  | [], _, _ => List.nodup_nil
  | .field _ :: rest, hscope, h => by
    rw [memberSites]
    rw [memberPlaces] at h
    exact nodup_memberSites path rest hscope h
  | .constructor _ :: rest, hscope, h => by
    rw [memberSites]
    rw [memberPlaces] at h
    exact nodup_memberSites path rest hscope h
  | .method m :: rest, hscope, h => by
    rw [memberSites]
    rw [memberPlaces] at h
    refine List.nodup_cons.mpr ⟨?_, (nodup_memberSites path rest hscope h).filter _⟩
    simp
  | .type decl :: rest, hscope, h => by
    rw [memberSites]
    rw [memberPlaces] at h
    obtain ⟨hdecl, hrest⟩ := List.forall_mem_append.mp h
    have hscopes : nestedTypes (.type decl :: rest) = decl :: nestedTypes rest := rfl
    rw [hscopes] at hscope
    refine List.nodup_append.mpr ⟨decl.nodup_sites path hdecl,
      nodup_memberSites path rest (hscope.sublist (scopeNames_sublist_cons _ _)) hrest, ?_⟩
    rintro site hsite _ hother rfl
    rcases memberSites_cases hother with ⟨method, rfl⟩ | ⟨decl', hdecl', hsite'⟩
    · exact TypeDecl.path_ne_of_mem_sites hsite rfl
    · -- the two types have one name, and that is in the scope twice
      rw [scopeNames_cons (TypeDecl.kind_of_mem_sites hsite),
        TypeDecl.name_eq_of_mem_sites hsite hsite'] at hscope
      exact (List.nodup_cons.mp hscope).1
        (name_mem_scopeNames hdecl' (TypeDecl.kind_of_mem_sites hsite'))

end

mutual

/-- What holds of the names around a type and of all names in it holds of the
names on the paths in it. -/
theorem TypeDecl.forall_path {P : String → Prop} : ∀ {around : List String} (decl : TypeDecl),
    (∀ name ∈ around, P name) → (∀ place ∈ decl.places around, P place.decl.name) →
      ∀ place ∈ decl.places around, ∀ name ∈ place.path, P name
  | around, ⟨name, kind, modifiers, base, interfaces, constants, members, span⟩, haround, h => by
    unfold TypeDecl.places at h ⊢
    by_cases hkind : kind = .annotationType
    · rw [if_pos hkind]
      exact fun _ hplace => absurd hplace List.not_mem_nil
    · rw [if_neg hkind] at h ⊢
      obtain ⟨hname, hmembers⟩ := List.forall_mem_cons.mp h
      have hpath : ∀ n ∈ around ++ [name], P n :=
        List.forall_mem_append.mpr ⟨haround, List.forall_mem_singleton.mpr hname⟩
      exact List.forall_mem_cons.mpr ⟨hpath, forall_memberPath members hpath hmembers⟩

theorem forall_memberPath {P : String → Prop} : ∀ {path : List String} (members : List Member),
    (∀ name ∈ path, P name) → (∀ place ∈ memberPlaces path members, P place.decl.name) →
      ∀ place ∈ memberPlaces path members, ∀ name ∈ place.path, P name
  | _, [], _, _ => fun _ hplace => absurd hplace List.not_mem_nil
  | _, .field _ :: rest, hpath, h => by
    rw [memberPlaces] at h ⊢
    exact forall_memberPath rest hpath h
  | _, .constructor _ :: rest, hpath, h => by
    rw [memberPlaces] at h ⊢
    exact forall_memberPath rest hpath h
  | _, .method _ :: rest, hpath, h => by
    rw [memberPlaces] at h ⊢
    exact forall_memberPath rest hpath h
  | _, .type decl :: rest, hpath, h => by
    rw [memberPlaces] at h ⊢
    obtain ⟨hdecl, hrest⟩ := List.forall_mem_append.mp h
    exact List.forall_mem_append.mpr
      ⟨decl.forall_path hpath hdecl, forall_memberPath rest hpath hrest⟩

end

end Source

/-! ## Well-named units -/

namespace SourceUnit

/-- The types that the unit keeps and their methods have plain names, and the
types of each scope, at the top level or in one type, have different names. -/
structure WellNamed (u : SourceUnit) : Prop where
  types : ∀ place ∈ u.places, PlainName place.decl.name
  methods : ∀ place ∈ u.places, ∀ name ∈ Source.methodNames place.decl.members, PlainName name
  top : (Source.scopeNames u.types).Nodup
  nested : Source.ScopesApart u.places

namespace WellNamed

variable {u : SourceUnit}

theorem nodup_sites (h : u.WellNamed) : u.sites.Nodup := by
  have hnested := h.nested
  rw [u.places_eq] at hnested
  rw [u.sites_eq]
  refine Source.nodup_memberSites [] _ ?_ hnested
  rw [Source.nestedTypes_map_type]
  exact h.top

theorem plain_site (h : u.WellNamed) {site : Site} (hsite : site ∈ u.sites) : site.Plain := by
  obtain ⟨place, hplace, hmem⟩ := u.mem_sites.mp hsite
  have hpath : ∀ name ∈ place.path, PlainName name := by
    have htypes := h.types
    rw [u.places_eq] at htypes hplace
    exact Source.forall_memberPath _ (fun _ hname => absurd hname List.not_mem_nil) htypes place hplace
  refine ⟨?_, ?_⟩
  · rw [Source.Place.path_of_mem_sites hmem]
    exact path_ne_nil hplace
  · rcases List.mem_cons.mp hmem with rfl | hmethod
    · exact hpath
    · obtain ⟨name, hname, rfl⟩ := List.mem_map.mp hmethod
      exact List.forall_mem_cons.mpr ⟨h.methods place hplace name hname, hpath⟩

/-- Different sites have different keys. -/
theorem keyOf_inj (h : u.WellNamed) {site site' : Site} (hsite : site ∈ u.sites)
    (hsite' : site' ∈ u.sites) (heq : u.keyOf site = u.keyOf site') : site = site' := by
  rw [u.keyOf_eq, u.keyOf_eq] at heq
  exact Site.text_inj (h.plain_site hsite) (h.plain_site hsite') (u.qualify_injective heq)

end WellNamed

end SourceUnit

/-- A unit with plain names, in which types of one scope have different names,
comes through when nothing is bound yet. -/
theorem a_well_named_unit_comes_through {u : SourceUnit} (h : u.WellNamed) :
    ∃ target, (u.recast .empty).result = .ok target := by
  have hkeys : keysOf u.declared = u.sites.map u.keyOf := by
    simp [keysOf, SourceUnit.declared, SourceUnit.entryOf]
  have hnodup : (keysOf u.declared).Nodup := by
    rw [hkeys]
    exact h.nodup_sites.map_on fun site hsite site' hsite' => h.keyOf_inj hsite hsite'
  exact (SourceUnit.recast_of_fresh ⟨hnodup, fun _ _ => rfl⟩).2

/-- A class with two methods, a class and an annotation type that are all named
`B`, beside an annotation type named like the class and an enumeration without
a name. The class in it has a method and a class named like the types around. -/
def crowdedUnit : SourceUnit :=
  ⟨"A", some "p.#", [], [
    { Source.TypeDecl.empty "A" .classType with
      members := [.bare "B",
        .type { Source.TypeDecl.empty "B" .classType with
          members := [.bare "A", .type (.empty "A" .interfaceType)] },
        .bare "B", .type (.empty "B" .annotationType)] },
    .empty "A" .annotationType, .empty "" .enumType], []⟩

theorem a_crowded_unit_comes_through :
    crowdedUnit.WellNamed ∧ ∃ target, (crowdedUnit.recast .empty).result = .ok target := by
  have hnames : crowdedUnit.WellNamed :=
    ⟨by decide +kernel, by decide +kernel, by decide +kernel, by decide +kernel⟩
  exact ⟨hnames, a_well_named_unit_comes_through hnames⟩

end Recast
